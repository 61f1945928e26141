import ClassAtlas.File.Disk
import ClassAtlas.Graph.Basic
import ClassAtlas.Scan.Vocabulary
import ClassAtlas.Session
import ClassAtlas.Source.Declaration
import ClassAtlas.Source.Scope
import ClassAtlas.Source.Token
import ClassAtlas.Text.Lower

/-!
The graph of the classes that source files declare. The files are those of a project that belong to
what it delivers, and not to its tests.
-/
namespace ClassAtlas.Source

/-! The files -/

def sourceMarker : String := "/src/main/java/"

def excludedMarkers : List String := [
  "/src/test/", "/src/it/", "/src/integration-test/", "/src/integrationtest/", "/mock/", "/mocks/"]

/-- Whether a path below the root of a project is that of a delivered source. -/
def isProduction (path : String) : Bool :=
  let full := "/" ++ path
  let lower := Text.lower full
  Text.contains lower sourceMarker && !excludedMarkers.any (Text.contains lower) &&
    !Text.endsWith full "/package-info.java" && !Text.endsWith full "/module-info.java"

/-- Directories of tools and of built files. -/
def isSkippedDir (name : String) : Bool :=
  Text.startsWith name "." || ["target", "build", "node_modules", "out"].contains name

def isSourceVisit (root : String) (v : File.Visit) : Bool :=
  !v.node.isDir && File.Path.extension v.path == ".java" &&
    (File.Path.relative? root v.path).any isProduction

/-- The delivered sources below a root, in order of their paths. -/
def files (d : File.Disk) (root : String) : List String :=
  match d.walk isSkippedDir root with
  | .ok visits =>
    ((visits.filter (isSourceVisit root)).map (·.path)).mergeSort fun a b => decide (a ≤ b)
  | .error _ => []

/-! The graph -/

/-- The target of an import, as the text of its declaration gives it; none for one of members. -/
def importTarget? (text : String) : Option String :=
  let name := Text.trim (Text.dropTail (Text.dropStart (Text.trim text) "import") ";")
  if Text.startsWith name "static " then none else some (Text.join "" (Text.words name))

/-- The scope of a file. Of several packages the last one counts. -/
def scopeOf (items : List Item) : Scope :=
  let packages := items.filterMap fun
    | .packageName name => some name
    | _ => none
  Scope.make (packages.getLast?.getD "") (items.filterMap fun
    | .importText text => importTarget? text
    | _ => none)

/-- The full names of annotations, each once. -/
def markNames (s : Scope) (marks : List Mark) : List String :=
  Listing.items (Listing.appendUnique (some []) (marks.map fun m => s.annotationName m.name))

/-- The tokens of an argument given by name. -/
def argument? (key : String) (m : Mark) : Option (List Token) :=
  (listed bracketDepth 0 m.arguments).findSome? fun piece =>
    match piece.filter (!·.isComment) with
    | name :: equals :: value => if name.isWord key && equals.isMark '=' then some value else none
    | _ => none

/-- The value of an argument that is one text literal. -/
def textArgument? (key : String) (m : Mark) : Option String :=
  match argument? key m with
  | some [t] => if t.kind == .text then some (literalValue t.chars) else none
  | _ => none

def tableName? (s : Scope) (marks : List Mark) : Option String :=
  (marks.filter fun m => Scan.isTable (s.annotationName m.name)).findSome? (textArgument? "name")

def fieldsOfDeclaration (s : Scope) (f : FieldDeclaration) : List Graph.Field :=
  let annotations := markNames s f.marks
  (f.names.filter (!·.isEmpty)).map fun name =>
    { name, type := s.typeText f.type, annotations := some annotations
      injected := annotations.any Scan.isInjection
      relationship := annotations.any Scan.isRelationship }

def TypeKind.classKind : TypeKind → Graph.ClassKind
  | .ordinary => .class
  | .interface => .interface
  | .enum => .enum
  | .record => .record

def classOf (s : Scope) (t : TypeDeclaration) : Graph.Class :=
  let annotations := markNames s t.marks
  let tags := Scan.stereotypes annotations
  let entity := annotations.any Scan.isEntity
  let resolved (type : String) : String := Graph.normalizeType (s.typeText type)
  { name := s.qualify t.name
    packageName := s.packageName
    simpleName := t.name
    kind := t.kind.classKind
    superClass := (t.superclass.map resolved).getD ""
    interfaces := some ((t.supertypes.map resolved).filter (!·.isEmpty))
    annotations := some annotations
    stereotypes := some tags
    fields := some (t.fields.flatMap (fieldsOfDeclaration s))
    entity
    tableName := if entity then tableName? s t.marks else none
    origin := .source
    component := none
    inCycle := false
    location := ""
    injectionTarget := Scan.isInjectionTarget tags }

/-- The classes that a source file declares at its top level. -/
def classes (text : String) : List Graph.Class :=
  let parts := items text
  let s := scopeOf parts
  parts.filterMap fun
    | .type t => if t.name.isEmpty then none else some (classOf s t)
    | _ => none

/-- Add the classes that a filter accepts, the first one of a name. -/
def addClasses (f : Scan.Filter) (g : ClassGraph) (cs : List Graph.Class) : ClassGraph :=
  cs.foldl (fun g c => if f.accepts c.name && !g.classMap.contains c.name then g.addClass c else g) g

def addFiles (f : Scan.Filter) : List String → ClassGraph → Act σ ClassGraph
  | [], g => return g
  | path :: more, g => do
    Act.checkpoint
    match (← Act.disk).readText path with
    | .ok text => addFiles f more (addClasses f g (classes text))
    | .error fault =>
      Act.log (Log.warn "Skipping unparseable source"
        [("file", .text path), ("error", .failure fault.message)])
      addFiles f more g

/-- The graph of the delivered sources of a project. -/
def build (root : String) (packages : List String) : Act σ ClassGraph := do
  let paths := files (← Act.disk) root
  let g ← addFiles (Scan.Filter.ofPackages packages) paths .empty
  Act.log (Log.info "Source scan complete"
    [("files", Log.count paths.length), ("classes", Log.count g.classMap.size)])
  return g

end ClassAtlas.Source
