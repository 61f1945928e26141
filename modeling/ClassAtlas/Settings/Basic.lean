import ClassAtlas.File.Path
import ClassAtlas.Graph.Document
import ClassAtlas.Json.Writer
import ClassAtlas.Session
import ClassAtlas.Text.Basic

/-!
The settings of a repository: what they are, what they are by default, what makes them unusable, and
how they are kept.
-/
namespace ClassAtlas

structure Settings.Analysis where
  acceptPackages : Listing String
  includeDependencies : Bool
  maxCallDepth : Int
  maxSequenceDiagrams : Int
  scanSources : Bool
  deriving DecidableEq, Repr, Inhabited

structure Settings.Compile where
  autoCompile : Bool
  executable : String
  maxRuntimeSeconds : Int
  maxHeapMb : Int
  deriving DecidableEq, Repr, Inhabited

structure Settings.Store where
  enabled : Bool
  path : String
  deriving DecidableEq, Repr, Inhabited

structure Settings.Logging where
  format : String
  level : String
  deriving DecidableEq, Repr, Inhabited

structure Settings where
  version : Int
  analysis : Settings.Analysis
  compile : Settings.Compile
  excludeJars : Listing String
  outputRoot : String
  store : Settings.Store
  logging : Settings.Logging
  deriving DecidableEq, Repr, Inhabited

namespace Settings

/-- The directory of a repository that belongs to this program. -/
def stateDir : String := ".codevision"

def currentVersion : Int := 1

/-- The number of sequence diagrams of a run, which cannot be changed. -/
def sequenceDiagrams : Int := 25

def standard : Settings :=
  ⟨currentVersion, ⟨some [], true, 8, sequenceDiagrams, true⟩, ⟨true, "mvn", 600, 1500⟩,
    some ["*junit*", "*hamcrest*", "*mockito*"], "", ⟨true, ""⟩, ⟨"human", "info"⟩⟩

def toJson (s : Settings) : Json :=
  .object [("version", .int s.version),
    ("analysis", .object [("acceptPackages", .ofListing .text s.analysis.acceptPackages),
      ("includeDependencies", .bool s.analysis.includeDependencies),
      ("maxCallDepth", .int s.analysis.maxCallDepth),
      ("maxSequenceDiagrams", .int s.analysis.maxSequenceDiagrams),
      ("scanSources", .bool s.analysis.scanSources)]),
    ("compile", .object [("autoCompile", .bool s.compile.autoCompile),
      ("mavenExecutable", .text s.compile.executable),
      ("maxRuntimeSeconds", .int s.compile.maxRuntimeSeconds),
      ("maxHeapMb", .int s.compile.maxHeapMb)]),
    ("filters", .object [("excludeJars", .ofListing .text s.excludeJars)]),
    ("output", .object [("root", .text s.outputRoot)]),
    ("store", .object [("enabled", .bool s.store.enabled), ("path", .text s.store.path)]),
    ("logging", .object [("format", .text s.logging.format), ("level", .text s.logging.level)])]

/-- A member in place of a value, if a document has it and it fits. -/
def orElse (value : α) (j : Json) (name : String) (read : Json → Option α) : α :=
  ((j.member? name).bind read).getD value

/-- A list of a document in place of another; null stands for one that is absent. -/
def listOrElse (value : Listing String) (j : Json) (name : String) : Listing String :=
  match j.member? name with
  | some .null => none
  | some (.list items) => some (items.filterMap Json.asText?)
  | _ => value

/-- Settings with those of a document in their place. -/
def overlaid (s : Settings) (j : Json) : Settings :=
  let group (name : String) : Json := (j.member? name).getD .null
  let a := group "analysis"
  let c := group "compile"
  ⟨orElse s.version j "version" Json.asInt?,
    ⟨listOrElse s.analysis.acceptPackages a "acceptPackages",
      orElse s.analysis.includeDependencies a "includeDependencies" Json.asBool?,
      orElse s.analysis.maxCallDepth a "maxCallDepth" Json.asInt?,
      orElse s.analysis.maxSequenceDiagrams a "maxSequenceDiagrams" Json.asInt?,
      orElse s.analysis.scanSources a "scanSources" Json.asBool?⟩,
    ⟨orElse s.compile.autoCompile c "autoCompile" Json.asBool?,
      orElse s.compile.executable c "mavenExecutable" Json.asText?,
      orElse s.compile.maxRuntimeSeconds c "maxRuntimeSeconds" Json.asInt?,
      orElse s.compile.maxHeapMb c "maxHeapMb" Json.asInt?⟩,
    listOrElse s.excludeJars (group "filters") "excludeJars",
    orElse s.outputRoot (group "output") "root" Json.asText?,
    ⟨orElse s.store.enabled (group "store") "enabled" Json.asBool?,
      orElse s.store.path (group "store") "path" Json.asText?⟩,
    ⟨orElse s.logging.format (group "logging") "format" Json.asText?,
      orElse s.logging.level (group "logging") "level" Json.asText?⟩⟩

/-- What makes settings unusable. -/
inductive Flaw where
  | version | callDepth | sequenceDiagrams | runtime | executable | logFormat
  deriving DecidableEq, Repr

def Flaw.field : Flaw → String
  | .version => "version"
  | .callDepth => "analysis.maxCallDepth"
  | .sequenceDiagrams => "analysis.maxSequenceDiagrams"
  | .runtime => "compile.maxRuntimeSeconds"
  | .executable => "compile.mavenExecutable"
  | .logFormat => "logging.format"

def Flaw.message : Flaw → String
  | .version => "unsupported config version"
  | .callDepth => "must be at least 1"
  | .sequenceDiagrams => "fixed at " ++ toString Settings.sequenceDiagrams
  | .runtime => "must not be negative"
  | .executable => "required when autoCompile is enabled"
  | .logFormat => "must be human or json"

def Flaw.toFailure (f : Flaw) : Failure := .setting f.field f.message

/-- The first flaw of settings, if they have one. -/
def flaw? (s : Settings) : Option Flaw :=
  if s.version != currentVersion then some .version
  else if s.analysis.maxCallDepth < 1 then some .callDepth
  else if s.analysis.maxSequenceDiagrams != sequenceDiagrams then some .sequenceDiagrams
  else if s.compile.maxRuntimeSeconds < 0 then some .runtime
  else if s.compile.autoCompile && Text.isBlank s.compile.executable then some .executable
  else if s.logging.format != "human" && s.logging.format != "json" then some .logFormat
  else none

/-- A place below a repository: the one that is set, or one in the directory of this program. -/
def placeIn (repoRoot configured fallback : String) : String :=
  if configured.isEmpty then File.Path.joinAll [repoRoot, stateDir, fallback]
  else if File.Path.isAbsolute configured then configured
  else File.Path.join repoRoot configured

/-- The directory that holds a directory for each run. -/
def outputRootIn (s : Settings) (repoRoot : String) : String := placeIn repoRoot s.outputRoot "runs"

def storePathIn (s : Settings) (repoRoot : String) : String :=
  placeIn repoRoot s.store.path "codevision.db"

/-- Keep settings in a repository. -/
def save (s : Settings) (repoRoot : String) : Act σ Unit := do
  let dir := File.Path.join repoRoot stateDir
  match (← Act.disk).makeDirs dir with
  | .error fault => Act.fail fault.toFailure
  | .ok d =>
    Act.setDisk d
    match d.writeText (File.Path.join dir "config.json") (s.toJson.write .indented) with
    | .error fault => Act.fail fault.toFailure
    | .ok d => Act.setDisk d

end Settings
end ClassAtlas
