import ClassAtlas.File.Disk
import ClassAtlas.Settings.Basic
import ClassAtlas.Text.Basic
import ClassAtlas.Toml.Reader
import ClassAtlas.Toml.Value

/-!
What a repository shows of itself: the tool that builds it, the package that all of its sources are
in, and the modules that it is made up of. And what it declares about itself, in a file at its root
that is kept with the sources; what it declares goes before the settings.
-/
namespace ClassAtlas.Project

/-! What is shown -/

inductive Tool where
  | maven | gradle
  deriving DecidableEq, Repr

def Tool.word : Tool → String
  | .maven => "maven"
  | .gradle => "gradle"

/-- The files that show which tool builds a repository, in the order in which they count. -/
def toolFiles : List (String × Tool) :=
  [("pom.xml", .maven), ("build.gradle", .gradle), ("build.gradle.kts", .gradle),
    ("settings.gradle", .gradle), ("settings.gradle.kts", .gradle)]

/-- The tool that builds a repository, with the file that shows it. -/
def tool? (d : File.Disk) (root : String) : Option (String × Tool) :=
  toolFiles.find? fun (name, _) => d.exists_ (File.Path.join root name)

def sourceRoot : String := "src/main/java"

def isHidden (name : String) : Bool := name.toList.head? == some '.'

/-- Whether an entry of a directory leads further down. -/
def isPackageDir (name : String) (node : File.Node) : Bool := node.isDir && !isHidden name

/-- Whether sources stand directly in a directory. -/
def holdsSource (entries : List (String × File.Node)) : Bool :=
  entries.any fun (name, node) => !isPackageDir name node && File.Path.extension name == ".java"

mutual

/-- The names on the way down from a directory, as long as it leads only one way and no source stands
beside it. -/
def commonPath : File.Node → List String
  | .dir entries =>
    if holdsSource entries then []
    else match pathsBelow entries with
      | [(name, path)] => name :: path
      | _ => []
  | _ => []

/-- The directories below one, each with the way down from it. -/
def pathsBelow : List (String × File.Node) → List (String × List String)
  | [] => []
  | (name, node) :: more =>
    if isPackageDir name node then (name, commonPath node) :: pathsBelow more else pathsBelow more

end

/-- The longest package that holds all sources, as its parts. -/
def basePackageParts (d : File.Disk) (root : String) : List String :=
  match d.stat (File.Path.join root sourceRoot) with
  | .ok node => commonPath node
  | .error _ => []

/-- The longest package that holds all sources. -/
def basePackage (d : File.Disk) (root : String) : String := Text.join "." (basePackageParts d root)

/-- Directories in which no modules are looked for. -/
def isSkipped (name : String) : Bool :=
  isHidden name || ["target", "build", "node_modules"].contains name

/-- The directories below a repository that are built on their own. -/
def modules (d : File.Disk) (root : String) : List String :=
  match d.walk isSkipped root with
  | .error _ => []
  | .ok visits =>
    (visits.filterMap fun v =>
      let dir := File.Path.parent v.path
      if v.name == "pom.xml" && (!v.node.isDir || v.path == root) && dir != root then
        File.Path.relative? root dir
      else none).mergeSort

/-! What is declared -/

structure Declaration where
  version : Int
  /-- The tool that builds the repository, for information only. -/
  build : String
  acceptPackages : Listing String
  includeDependencies : Option Bool
  maxCallDepth : Int
  excludeJars : Listing String
  sourceGraph : String
  deriving DecidableEq, Repr, Inhabited

namespace Declaration

def toJson (f : Declaration) : Json :=
  .object [("version", .int f.version), ("build", .text f.build),
    ("acceptPackages", .ofListing .text f.acceptPackages),
    ("includeDependencies", .ofOption .bool f.includeDependencies),
    ("maxCallDepth", .int f.maxCallDepth), ("excludeJars", .ofListing .text f.excludeJars),
    ("sourceGraph", .text f.sourceGraph)]

def ofJson (j : Json) : Declaration :=
  ⟨(j.intMember? "version").getD 0, j.textMember "build", j.textsMember "acceptPackages",
    (j.member? "includeDependencies").bind Json.asBool?, (j.intMember? "maxCallDepth").getD 0,
    j.textsMember "excludeJars", j.textMember "sourceGraph"⟩

def fileName : String := "codevision.toml"

/-- The declaration in a document; `none` if a member is of the wrong kind. -/
def ofTable? (t : Toml.Table) : Option Declaration := do
  let version ← t.getD? "version" Toml.Value.int? 0
  let build ← t.getD? "build" Toml.Value.text? ""
  let analysis ← t.getD? "analysis" Toml.Value.table? []
  return ⟨max version 1, build, ← analysis.optional? "accept_packages" Toml.Value.texts?,
    ← analysis.optional? "include_dependencies" Toml.Value.bool?,
    ← analysis.getD? "max_call_depth" Toml.Value.int? 0,
    ← analysis.optional? "exclude_jars" Toml.Value.texts?,
    ← analysis.getD? "source_graph" Toml.Value.text? ""⟩

/-- The declaration in a file. -/
def read (d : File.Disk) (path : String) : Except Failure Declaration := do
  match d.readFile path with
  | .error fault => throw (.wrapped ("failed to read " ++ fileName) fault.toFailure)
  | .ok bytes =>
    match (Toml.readBytes? .older bytes).bind ofTable? with
    | some f => return f
    | none => throw (.wrapped ("failed to parse " ++ fileName) (.plain "unexpected content"))

/-- The declaration of a repository, if it has one. -/
def load (d : File.Disk) (root : String) : Except Failure (Option Declaration) :=
  let path := File.Path.join root fileName
  match d.stat path with
  | .error ⟨_, _, .noEntry⟩ => .ok none
  | _ => (read d path).map some

/-- What a repository would declare, as far as it shows. -/
def detect (d : File.Disk) (root : String) : Declaration :=
  let base := basePackage d root
  ⟨1, ((tool? d root).map (·.2.word)).getD "", some (if base.isEmpty then [] else [base]), none, 0,
    none, ""⟩

def text (f : Declaration) : String :=
  let texts (key : String) (items : List String) : String :=
    Toml.assignment key (Toml.writeTexts .literal items)
  let unlessEmpty (key s : String) : String :=
    if s.isEmpty then "" else Toml.assignment key (Toml.writeText .literal s)
  Toml.assignment "version" (toString f.version) ++ unlessEmpty "build" f.build ++ "\n[analysis]\n" ++
    texts "accept_packages" f.acceptPackages.items ++
    (match f.includeDependencies with
      | some b => Toml.assignment "include_dependencies" (Toml.writeBool b)
      | none => "") ++
    (if f.maxCallDepth == 0 then "" else Toml.assignment "max_call_depth" (toString f.maxCallDepth)) ++
    (if f.excludeJars.items.isEmpty then "" else texts "exclude_jars" f.excludeJars.items) ++
    unlessEmpty "source_graph" f.sourceGraph

def write (f : Declaration) (path : String) : Act σ Unit := do
  match (← Act.disk).makeDirs (File.Path.parent path) with
  | .error fault => Act.fail (.wrapped "failed to create directory" fault.toFailure)
  | .ok d =>
    Act.setDisk d
    match d.writeText path f.text with
    | .error fault => Act.fail (.wrapped ("failed to write " ++ fileName) fault.toFailure)
    | .ok d => Act.setDisk d

/-- Settings with what is declared in their place. -/
def apply (f : Declaration) (s : Settings) : Settings :=
  { s with
    analysis := { s.analysis with
      acceptPackages := if f.acceptPackages.items.isEmpty then s.analysis.acceptPackages
        else f.acceptPackages
      includeDependencies := f.includeDependencies.getD s.analysis.includeDependencies
      maxCallDepth := if f.maxCallDepth > 0 then f.maxCallDepth else s.analysis.maxCallDepth }
    excludeJars := if f.excludeJars.items.isEmpty then s.excludeJars else f.excludeJars }

/-- Where the graph that takes the place of the sources is; empty if there is none. -/
def sourceGraphIn (f : Declaration) (root : String) : String :=
  if f.sourceGraph.isEmpty || File.Path.isAbsolute f.sourceGraph then f.sourceGraph
  else File.Path.join root f.sourceGraph

end Declaration
end ClassAtlas.Project
