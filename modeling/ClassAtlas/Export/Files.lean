import ClassAtlas.Failure
import ClassAtlas.File.Canonical
import ClassAtlas.File.Disk
import ClassAtlas.Graph.Basic
import ClassAtlas.Graph.Document
import ClassAtlas.Json.Writer
import ClassAtlas.Session
import ClassAtlas.Text.Basic
import ClassAtlas.Text.Quoted

/-!
The files of a run. A graph is written as one document and four tables, and the files of one
directory are written together. A table is text with commas: a field is quoted when it would otherwise
be read as something else, and a quote inside a quoted field is written twice. Later the files are
listed, and one is fetched by its name; a name that could lead out of the directory is refused.
-/
namespace ClassAtlas.Export

/-! Writing into a directory -/

/-- Make the directory for some output. -/
def prepareDir (what dir : String) : Act σ Unit := do
  match (← Act.disk).makeDirs dir with
  | .ok d => Act.setDisk d
  | .error fault =>
    Act.fail (.because .outputUnavailable ("cannot create " ++ what ++ " directory " ++ dir)
      fault.toFailure)

/-- Write one file of a directory, and give back its path. -/
def writeOutput (action dir name text : String) : Act σ String := do
  let path := File.Path.join dir name
  match (← Act.disk).writeText path text with
  | .ok d => Act.setDisk d; return path
  | .error fault =>
    Act.fail (.wrapped ("failed to " ++ action ++ " " ++ File.Path.base path) fault.toFailure)

/-- Write files of a directory in order, up to the first failure. -/
def writeOutputs (action dir : String) : List (String × String) → Act σ (List String)
  | [] => return []
  | (name, text) :: more => do
    let path ← writeOutput action dir name text
    return path :: (← writeOutputs action dir more)

end ClassAtlas.Export

/-! Tables as text -/
namespace ClassAtlas.Export.Csv

/-- Characters that separate or quote fields. -/
def isSpecial (c : Char) : Bool := c == ',' || c == '"' || c == '\r' || c == '\n'

/-- Whether a field has to be quoted: it has a special character or starts with a blank, or it is the
mark that some readers take for the end of the table. -/
def needsQuotes (field : List Char) : Bool :=
  field == ['\\', '.'] || field.any isSpecial || field.head?.any Text.isBlankChar

def doubleQuotes (field : List Char) : List Char :=
  field.flatMap fun c => if c == '"' then ['"', '"'] else [c]

def writeField (field : String) : List Char :=
  if needsQuotes field.toList then '"' :: doubleQuotes field.toList ++ ['"'] else field.toList

def writeRow (row : List String) : List Char :=
  (row.map writeField).intersperse [','] |>.flatten |>.append ['\n']

/-- A table as text, one line a row. -/
def write (rows : List (List String)) : String := String.ofList (rows.flatMap writeRow)

end ClassAtlas.Export.Csv

/-! A graph as a document and tables -/
namespace ClassAtlas.Export

structure Table where
  file : String
  columns : List String
  rows : List (List String)

def Table.text (t : Table) : String := Csv.write (t.columns :: t.rows)

/-- A number that may be missing. -/
def numberText (n : Option Int) : String := (n.map toString).getD ""

def entityTable (g : ClassGraph) : Table where
  file := "entities.csv"
  columns := ["className", "packageName", "tableName", "origin", "stereotypes"]
  rows := g.sortedClasses.map fun c =>
    [c.name, c.packageName, c.tableName.getD "", c.origin.word, Text.join "|" c.stereotypes.items]

def generatorTable (g : ClassGraph) : Table where
  file := "sequences.csv"
  columns := ["generatorName", "sequenceName", "allocationSize", "initialValue"]
  rows := g.sortedGenerators.map fun s =>
    [s.name, s.sequenceName, numberText s.allocationSize, numberText s.initialValue]

def endpointTable (g : ClassGraph) : Table where
  file := "endpoints.csv"
  columns := ["type", "httpMethod", "path", "controllerClass", "controllerMethod", "framework"]
  rows := g.sortedEndpoints.map fun e =>
    [e.kind.word, e.httpMethod, e.path, e.controllerClass, e.controllerMethod, e.framework]

def dependencyTable (g : ClassGraph) : Table where
  file := "dependencies.csv"
  columns := ["fromClass", "toClass", "kind", "label"]
  rows := g.sortedDependencies.map fun d => [d.source, d.target, d.kind.word, d.label]

def tables (g : ClassGraph) : List Table :=
  [entityTable g, generatorTable g, endpointTable g, dependencyTable g]

def documentFile : String := "analysis.json"

def documentText (g : ClassGraph) : String := g.toJson.write .indented ++ "\n"

/-- Write the document and the tables, and give back their paths. -/
def write (dir : String) (g : ClassGraph) : Act σ (List String) := do
  prepareDir "export" dir
  let document ← writeOutput "write" dir documentFile (documentText g)
  let rest ← writeOutputs "create" dir ((tables g).map fun t => (t.file, t.text))
  return document :: rest

/-! Listing and fetching -/

structure OutputFile where
  name : String
  size : Nat
  deriving DecidableEq, Repr

/-- The files directly in a directory, in order of their names. -/
def listFiles (d : File.Disk) (dir : String) : Except Failure (List OutputFile) :=
  match d.readDir dir with
  | .ok entries => .ok (entries.filterMap fun (name, node) =>
      match node with
      | .file bytes _ => some ⟨name, bytes.length⟩
      | _ => none)
  | .error fault =>
    if fault.reason == .noEntry then
      .error (.because .exportFileNotFound ("output directory not found: " ++ dir)
        (.plain fault.message))
    else .error (.plain fault.message)

/-- A name that stands for a file directly in a directory. -/
def isPlainName (name : String) : Bool :=
  !(name.isEmpty || File.Path.isAbsolute name || Text.contains name ".." ||
    Text.containsChar name '/' || Text.containsChar name '\\')

/-- The path of a file of a directory. -/
def fileNamed (d : File.Disk) (dir name : String) : Except Failure String :=
  if !isPlainName name then
    .error (.ofCode .pathTraversal ("invalid export file name " ++ Text.quoted name))
  else
    let path := File.Path.join dir name
    if !d.isWithin path dir then
      .error (.ofCode .pathTraversal
        ("export file " ++ Text.quoted name ++ " escapes the run directory"))
    else match d.stat path with
      | .ok (.file _ _) => .ok path
      | .ok _ => .error (.ofCode .exportFileNotFound ("export file not found: " ++ name))
      | .error fault =>
        .error (.because .exportFileNotFound ("export file not found: " ++ name)
          (.plain fault.message))

end ClassAtlas.Export
