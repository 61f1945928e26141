import ClassAtlas.Collections
import ClassAtlas.File.Disk
import ClassAtlas.Graph.Document
import ClassAtlas.Session
import ClassAtlas.Text.Basic
import ClassAtlas.Text.Quoted
import ClassAtlas.Toml.Reader
import ClassAtlas.Toml.Value

/-!
A list of projects to be analysed together. A manifest is usable if every project has a path and a
name of its own that can be the name of a directory.
-/
namespace ClassAtlas.Batch

structure Project where
  name : String
  path : String
  acceptPackages : Listing String
  includeDependencies : Option Bool
  deriving DecidableEq, Repr, Inhabited

structure Manifest where
  maxParallel : Int
  outputRoot : String
  projects : List Project
  deriving DecidableEq, Repr, Inhabited

def Project.toJson (p : Project) : Json :=
  .object [("name", .text p.name), ("path", .text p.path),
    ("acceptPackages", .ofListing .text p.acceptPackages),
    ("includeDependencies", .ofOption .bool p.includeDependencies)]

def Project.ofJson (j : Json) : Project :=
  ⟨j.textMember "name", j.textMember "path", j.textsMember "acceptPackages",
    (j.member? "includeDependencies").bind Json.asBool?⟩

def Manifest.toJson (m : Manifest) : Json :=
  .object [("maxParallel", .int m.maxParallel), ("outputRoot", .text m.outputRoot),
    ("projects", .list (m.projects.map Project.toJson))]

def Manifest.ofJson (j : Json) : Manifest :=
  ⟨(j.intMember? "maxParallel").getD 0, j.textMember "outputRoot",
    (j.listMember Project.ofJson "projects").items⟩

/-- What makes a manifest unusable. -/
inductive Flaw where
  | noProjects
  | unnamed (position : Nat)
  | badName (name : String)
  | duplicate (name : String)
  | noPath (name : String)
  | negativeParallel
  deriving DecidableEq, Repr

def Flaw.message : Flaw → String
  | .noProjects => "batch manifest lists no projects"
  | .unnamed position => "project " ++ toString position ++ " has no name"
  | .badName name => "project name " ++ Text.quoted name ++ " is not a valid directory name"
  | .duplicate name => "duplicate project name " ++ Text.quoted name
  | .noPath name => "project " ++ Text.quoted name ++ " has no path"
  | .negativeParallel => "max_parallel must not be negative"

def Flaw.toFailure (f : Flaw) : Failure := .ofCode .invalidConfig f.message

/-- Why a project cannot be added beside one that is there. -/
inductive Conflict where
  | sameName (name : String)
  | samePath (path name : String)
  deriving DecidableEq, Repr

def Conflict.message : Conflict → String
  | .sameName name => "project " ++ Text.quoted name ++ " already exists"
  | .samePath path name =>
    "project at path " ++ Text.quoted path ++ " already exists (as " ++ Text.quoted name ++ ")"

/-- Whether a name can be that of a directory. -/
def isDirectoryName (name : String) : Bool :=
  !Text.containsChar name '/' && !Text.containsChar name '\\' && name != "." && name != ".."

/-- The first flaw of projects, the names before them being taken. -/
def projectFlaw? (taken : List String) : List Project → Option Flaw
  | [] => none
  | p :: more =>
    let name := Text.trim p.name
    if name.isEmpty then some (.unnamed (taken.length + 1))
    else if !isDirectoryName name then some (.badName name)
    else if taken.contains name then some (.duplicate name)
    else if Text.isBlank p.path then some (.noPath name)
    else projectFlaw? (name :: taken) more

namespace Manifest

def empty : Manifest := ⟨0, "", []⟩

/-- The number of projects that are analysed at a time if the manifest does not say. -/
def defaultParallel : Int := 2

/-- The first flaw of a manifest, if it has one. -/
def flaw? (m : Manifest) : Option Flaw :=
  if m.projects.isEmpty then some .noProjects
  else (projectFlaw? [] m.projects).or (if m.maxParallel < 0 then some .negativeParallel else none)

def validate (m : Manifest) : Except Failure Unit :=
  match m.flaw? with
  | none => .ok ()
  | some f => .error f.toFailure

def conflict? (p : Project) : List Project → Option Conflict
  | [] => none
  | existing :: more =>
    if existing.name == p.name then some (.sameName p.name)
    else if existing.path == p.path then some (.samePath p.path existing.name)
    else conflict? p more

/-- Put a project at the end. One that conflicts with another is left out; one that makes the manifest
unusable is not. -/
def add (m : Manifest) (p : Project) : Manifest × Except Failure Unit :=
  match conflict? p m.projects with
  | some c => (m, .error (.plain c.message))
  | none =>
    let m := { m with projects := m.projects ++ [p] }
    (m, m.validate)

def projectOf? (t : Toml.Table) : Option Project := do
  return ⟨← t.getD? "name" Toml.Value.text? "", ← t.getD? "path" Toml.Value.text? "",
    ← t.optional? "accept_packages" Toml.Value.texts?,
    ← t.optional? "include_dependencies" Toml.Value.bool?⟩

/-- The manifest in a document; `none` if a member is of the wrong kind. -/
def ofTable? (t : Toml.Table) : Option Manifest := do
  let projects ← t.getD? "project" Toml.Value.tables? []
  return ⟨← t.getD? "max_parallel" Toml.Value.int? 0, ← t.getD? "output_root" Toml.Value.text? "",
    ← projects.mapM projectOf?⟩

/-- A path of a manifest, which is relative to the directory of the manifest. -/
def placeIn (dir path : String) : String :=
  if File.Path.isAbsolute path then path else File.Path.join dir path

/-- A manifest with everything filled in, seen from its directory. -/
def resolved (m : Manifest) (dir : String) : Manifest :=
  ⟨if m.maxParallel ≤ 0 then defaultParallel else m.maxParallel,
    if m.outputRoot.isEmpty then "" else placeIn dir m.outputRoot,
    m.projects.map fun p => { p with path := placeIn dir p.path }⟩

/-- The usable manifest in a file. -/
def load (d : File.Disk) (path : String) : Except Failure Manifest := do
  let unreadable := Failure.because .invalidConfig "failed to parse batch manifest"
  match d.readFile path with
  | .error ⟨action, path, .noEntry⟩ =>
    throw (.because .invalidConfig ("batch manifest not found: " ++ path)
      (File.Fault.mk action path .noEntry).toFailure)
  | .error fault => throw (unreadable fault.toFailure)
  | .ok bytes =>
    match (Toml.readBytes? .newer bytes).bind ofTable? with
    | none => throw (unreadable (.plain "unexpected content"))
    | some m =>
      m.validate
      return m.resolved (File.Path.parent (d.absolute path))

def projectText (p : Project) : String :=
  let line (key value : String) : String := "  " ++ Toml.assignment key value
  "\n[[project]]\n" ++ line "name" (Toml.writeText .escaped p.name) ++
    line "path" (Toml.writeText .escaped p.path) ++
    (if p.acceptPackages.items.isEmpty then ""
      else line "accept_packages" (Toml.writeTexts .escaped p.acceptPackages.items)) ++
    (match p.includeDependencies with
      | some b => line "include_dependencies" (Toml.writeBool b)
      | none => "")

def text (m : Manifest) : String :=
  Toml.assignment "max_parallel" (toString m.maxParallel) ++
    (if m.outputRoot.isEmpty then ""
      else Toml.assignment "output_root" (Toml.writeText .escaped m.outputRoot)) ++
    String.join (m.projects.map projectText)

def save (m : Manifest) (path : String) : Act σ Unit := do
  match (← Act.disk).makeDirs (File.Path.parent path) with
  | .error fault => Act.fail (.wrapped "failed to create manifest directory" fault.toFailure)
  | .ok d =>
    Act.setDisk d
    match d.writeText path m.text with
    | .error fault => Act.fail (.wrapped "failed to create manifest" fault.toFailure)
    | .ok d => Act.setDisk d

end Manifest
end ClassAtlas.Batch
