import ClassAtlas.Json.Reader
import ClassAtlas.Settings.Basic
import ClassAtlas.Text.Integer
import ClassAtlas.Text.Lower

/-!
Settings from the file of a repository and from the environment. A variable of the environment wins
over the file, and the file over the defaults. Values are converted where their kind does not fit:
texts and truth values to numbers, numbers to texts, and a text to a list at its commas.
-/
namespace ClassAtlas.Settings

/-- The layers in which a value is looked for. Names in the file are in small letters. -/
structure Layers where
  environment : List (String × String)
  file : Json

mutual

/-- A document with all its names in small letters. -/
def lowerNames : Json → Json
  | .list items => .list (lowerItems items)
  | .object members => .object (lowerMembers members)
  | j => j

def lowerItems : List Json → List Json
  | [] => []
  | j :: more => lowerNames j :: lowerItems more

def lowerMembers : List (String × Json) → List (String × Json)
  | [] => []
  | (name, j) :: more => (Text.lower name, lowerNames j) :: lowerMembers more

end

/-- What is found for a field: a value, nothing, or that a variable hides its whole group. -/
inductive Finding where
  | given (value : Json)
  | unset
  | hidden

/-- The variable of the environment for a path of names. -/
def overrideName (path : List String) : String :=
  "CODEVISION_" ++ String.ofList ((Text.join "_" path).toList.map Char.toUpper)

/-- What the environment says for a path of names. An empty variable counts as unset. -/
def Layers.override? (l : Layers) (path : List String) : Option String :=
  (l.environment.lookup (overrideName path)).filter (!·.isEmpty)

/-- A member that is not null. -/
def present? (j : Json) (name : String) : Option Json :=
  (j.member? name).filter (!· == .null)

/-- The value of a field in the file: under its whole path as one name, or in its group. -/
def Layers.inFile? (l : Layers) (group name : String) : Option Json :=
  (present? l.file (group ++ "." ++ name)).or
    ((l.file.member? group).bind (present? · name))

def Layers.find (l : Layers) (group name : String) : Finding :=
  match l.override? [group, name] with
  | some s => .given (.text s)
  | none =>
    if (l.override? [group]).isSome then .hidden
    else match l.inFile? group name with
      | some j => .given j
      | none => .unset

/-- The settings of a group. A group that is null in the file is left at its defaults; one that is
anything but an object is wrong. -/
def Layers.group? (l : Layers) (group : String) (default : β) (read : (String → Finding) → Option β) :
    Option β :=
  match l.file.member? group with
  | none => read (l.find group)
  | some (.object _) => read (l.find group)
  | some j => if j == .null && (l.override? [group]).isNone then some default else none

/-- The value of a field, converted; a hidden one is empty. -/
def Finding.get? (f : Finding) (convert : Json → Option α) (default empty : α) : Option α :=
  match f with
  | .given j => convert j
  | .unset => some default
  | .hidden => some empty

/-- The whole part of a number, as far as 64 bits hold it. -/
def wholePart (n : Json.Number) : Int :=
  let least : Int := -(Nat.pow 2 63 : Int)
  match n.toBinary64.truncate? with
  | some k => if least ≤ k && k < (Nat.pow 2 63 : Int) then k else least
  | none => least

def convertInt? : Json → Option Int
  | .number n => some (wholePart n)
  | .bool b => some (if b then 1 else 0)
  | .text s => if s.isEmpty then some 0 else (Text.readInteger s).toOption
  | _ => none

def convertBool? : Json → Option Bool
  | .bool b => some b
  | .number n => some !n.toBinary64.isZero
  | .text s => if s.isEmpty then some false else Text.truth? s
  | _ => none

def convertText? : Json → Option String
  | .text s => some s
  | .bool b => some (if b then "1" else "0")
  | .number n => some (Decimal.Layout.plain.write n.toBinary64)
  | _ => none

/-- An item of a list; null is the empty text. -/
def convertItem? : Json → Option String
  | .null => some ""
  | j => convertText? j

def convertTexts? : Json → Option (Listing String)
  | .text s => some (some (if s.isEmpty then [] else Text.splitOn ',' s))
  | .list items => (items.mapM convertItem?).map some
  | .object [] => some (some [])
  | .object _ => none
  | j => (convertItem? j).map fun s => some [s]

def Layers.settings? (l : Layers) : Option Settings := do
  let base := Settings.standard
  let version ← match l.override? ["version"], present? l.file "version" with
    | some s, _ => convertInt? (.text s)
    | none, some j => convertInt? j
    | none, none => some base.version
  let analysis ← l.group? "analysis" base.analysis fun field => do
    let a := base.analysis
    return ⟨← (field "acceptpackages").get? convertTexts? a.acceptPackages none,
      ← (field "includedependencies").get? convertBool? a.includeDependencies false,
      ← (field "maxcalldepth").get? convertInt? a.maxCallDepth 0,
      ← (field "maxsequencediagrams").get? convertInt? a.maxSequenceDiagrams 0,
      ← (field "scansources").get? convertBool? a.scanSources false⟩
  let compile ← l.group? "compile" base.compile fun field => do
    let c := base.compile
    return ⟨← (field "autocompile").get? convertBool? c.autoCompile false,
      ← (field "mavenexecutable").get? convertText? c.executable "",
      ← (field "maxruntimeseconds").get? convertInt? c.maxRuntimeSeconds 0,
      ← (field "maxheapmb").get? convertInt? c.maxHeapMb 0⟩
  let excludeJars ← l.group? "filters" base.excludeJars fun field =>
    (field "excludejars").get? convertTexts? base.excludeJars none
  let outputRoot ← l.group? "output" base.outputRoot fun field =>
    (field "root").get? convertText? base.outputRoot ""
  let store ← l.group? "store" base.store fun field => do
    return ⟨← (field "enabled").get? convertBool? base.store.enabled false,
      ← (field "path").get? convertText? base.store.path ""⟩
  let logging ← l.group? "logging" base.logging fun field => do
    return ⟨← (field "format").get? convertText? base.logging.format "",
      ← (field "level").get? convertText? base.logging.level ""⟩
  return ⟨version, analysis, compile, excludeJars, outputRoot, store, logging⟩

/-- The groups of settings and their fields. -/
def groups : List (String × List String) :=
  [("version", []),
    ("analysis", ["acceptpackages", "includedependencies", "maxcalldepth", "maxsequencediagrams",
      "scansources"]),
    ("compile", ["autocompile", "mavenexecutable", "maxruntimeseconds", "maxheapmb"]),
    ("filters", ["excludejars"]), ("output", ["root"]), ("store", ["enabled", "path"]),
    ("logging", ["format", "level"])]

/-- The variables of the environment that settings are looked for in. -/
def overrideNames : List String :=
  groups.flatMap fun (group, fields) =>
    overrideName [group] :: fields.map fun field => overrideName [group, field]

/-- The names that the file may have, in the order in which they are tried. -/
def fileNames : List String :=
  "config" :: ["json", "toml", "yaml", "yml", "properties", "props", "prop", "hcl", "tfvars", "dotenv",
    "env", "ini"].map ("config." ++ ·)

mutual

/-- Whether every number of a document can be held. -/
def isBounded : Json → Bool
  | .number n => match n.toBinary64 with
    | .finite _ _ _ => true
    | _ => false
  | .list items => areBounded items
  | .object members => membersBounded members
  | _ => true

def areBounded : List Json → Bool
  | [] => true
  | j :: more => isBounded j && areBounded more

def membersBounded : List (String × Json) → Bool
  | [] => true
  | (_, j) :: more => isBounded j && membersBounded more

end

/-- The document of a settings file; `none` if it is no object. -/
def readFile? (text : String) : Option Json :=
  match Json.read? text with
  | some (.object members) => if isBounded (.object members) then some (.object members) else none
  | some .null => some (.object [])
  | _ => none

/-- The settings of a repository. -/
def load (d : File.Disk) (environment : List (String × String)) (repoRoot : String) :
    Except Failure Settings := do
  let dir := File.Path.join repoRoot stateDir
  let file ← match fileNames.find? fun name => d.isFile (File.Path.join dir name) with
    | none => pure (.object [])
    | some name =>
      match ((d.readText (File.Path.join dir name)).toOption).bind readFile? with
      | some j => pure j
      | none => throw (.wrapped "failed to read config" (.plain "not an object in JSON"))
  match (Layers.mk environment (lowerNames file)).settings? with
  | some s => return s
  | none => throw (.wrapped "failed to decode config" (.plain "a value of the wrong kind"))

end ClassAtlas.Settings
