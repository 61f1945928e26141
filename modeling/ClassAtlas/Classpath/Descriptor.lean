import ClassAtlas.Archive.Zip
import ClassAtlas.Digest.Blake2b
import ClassAtlas.File.Disk
import ClassAtlas.Session
import ClassAtlas.Text.Basic
import ClassAtlas.Text.Lower

/-!
The places where the classes of a project are, in the order in which they are searched. A walk over
them is a list of steps: class files in order, reports about what cannot be read, and the points at
which the user may stop it. Their fingerprint is taken of paths and bytes.
-/
namespace ClassAtlas.Classpath

structure Descriptor where
  repoRoot : String
  classesDir : String
  entries : List String
  deriving DecidableEq, Repr, Inhabited

namespace Descriptor

/-- Entries without the blank ones and without repetition. -/
def make (repoRoot classesDir : String) (entries : List String) : Descriptor :=
  ⟨repoRoot, classesDir, ((entries.map Text.trim).filter (!·.isEmpty)).eraseDups⟩

/-- The entries as one text. -/
def text (d : Descriptor) : String := Text.join ":" d.entries

end Descriptor

/-- The archives that a dependency list names, between line breaks and colons. -/
def readDependencyList (content : String) : List String :=
  ((Text.splitOn '\n' content).flatMap (Text.splitOn ':')).map Text.trim |>.filter (!·.isEmpty)

/-! The class files of a classpath -/

/-- A class file: its path inside the directory or archive that it comes from. -/
structure ClassUnit where
  name : String
  location : String
  bytes : List UInt8
  deriving DecidableEq, Repr, Inhabited

inductive Step where
  | checkpoint
  | unit (u : ClassUnit)
  | note (r : Log.Record)

/-- The last name of a slashed path. -/
def lastName (path : String) : String := File.Path.base path

/-- Class files, without those that describe modules and packages or stand below the archive's own
directory. -/
def isClassEntry (name : String) : Bool :=
  Text.endsWith name ".class" && !Text.startsWith name "META-INF/" &&
    lastName name != "module-info.class" && lastName name != "package-info.class"

def isArchive (path : String) : Bool :=
  let ext := Text.lower (File.Path.extension path)
  ext == ".jar" || ext == ".zip"

/-- What one visit below a directory of classes gives. -/
def visitSteps (d : File.Disk) (dir : String) (v : File.Visit) : List Step :=
  match v.node with
  | .dir _ => [.checkpoint]
  | _ =>
    match File.Path.relative? dir v.path with
    | none => []
    | some name =>
      if isClassEntry name then
        match d.readFile v.path with
        | .ok bytes => [.unit ⟨name, dir, bytes⟩]
        | .error fault =>
          [.note (Log.warn "Skipping unreadable class"
            [("path", .text v.path), ("error", .failure fault.message)])]
      else []

def directorySteps (d : File.Disk) (dir : String) : List Step :=
  match d.walk (fun _ => false) dir with
  | .ok visits => visits.flatMap (visitSteps d dir)
  | .error fault =>
    [.note (Log.warn "Skipping unreadable path"
      [("path", .text dir), ("error", .failure fault.message)])]

/-- What one entry of an archive gives. -/
def entrySteps (archive : String) (bytes : List UInt8) (e : Archive.Entry) : List Step :=
  .checkpoint ::
    if e.isDir || !isClassEntry e.name then []
    else match Archive.contents bytes e with
      | .ok plain => [.unit ⟨e.name, archive, plain⟩]
      | .error fault =>
        [.note (Log.warn "Skipping unreadable archive entry" [("archive", .text archive),
          ("entry", .text e.name), ("error", .failure fault.message)])]

def archiveSteps (archive : String) (bytes : List UInt8) : List Step :=
  match Archive.entries bytes with
  | .ok entries => entries.flatMap (entrySteps archive bytes)
  | .error fault =>
    [.note (Log.warn "Skipping unreadable archive"
      [("path", .text archive), ("error", .failure fault.message)])]

/-- What one entry of the classpath gives. -/
def placeSteps (d : File.Disk) (place : String) : List Step :=
  .checkpoint ::
    match d.stat place with
    | .error fault =>
      [.note (Log.warn "Skipping classpath entry"
        [("path", .text place), ("error", .failure fault.message)])]
    | .ok (.dir _) => directorySteps d place
    | .ok (.file bytes _) =>
      if isArchive place then archiveSteps place bytes
      else [.note (Log.debug "Ignoring non-archive classpath entry" [("path", .text place)])]
    | .ok (.link _) => []

def steps (d : File.Disk) (entries : List String) : List Step := entries.flatMap (placeSteps d)

/-- The class files that a walk delivers. -/
def unitsOf (steps : List Step) : List ClassUnit := steps.filterMap fun
  | .unit u => some u
  | _ => none

variable {σ τ : Type}

/-- Take the steps of a walk in turn, up to the first failure. -/
def follow (visit : τ → ClassUnit → Act σ τ) : List Step → τ → Act σ τ
  | [], t => pure t
  | .checkpoint :: more, t => do
    Act.checkpoint
    follow visit more t
  | .note r :: more, t => do
    Act.log r
    follow visit more t
  | .unit u :: more, t => do
    let t ← visit t u
    follow visit more t

/-- Visit every class file on a classpath. -/
def walk (desc : Descriptor) (visit : τ → ClassUnit → Act σ τ) (init : τ) : Act σ τ := do
  follow visit (steps (← Act.disk) desc.entries) init

/-!
A fingerprint of a classpath. Every entry gives its path; a directory adds the paths and bytes of its
class files, a file its bytes, and what is missing adds nothing.
-/

/-- A text closed by a zero byte. -/
def closedText (s : String) : List UInt8 := Text.Utf8.encode s ++ [0]

/-- What one visit below a directory adds. -/
def visitBytes (d : File.Disk) (dir : String) (v : File.Visit) : Except File.Fault (List UInt8) :=
  if v.node.isDir || File.Path.extension v.path != ".class" then .ok []
  else do
    let bytes ← d.readFile v.path
    return closedText ((File.Path.relative? dir v.path).getD "") ++ bytes

/-- Contributions one after the other, up to the first that fails. -/
def concatenated (parts : List (Except ε (List UInt8))) : Except ε (List UInt8) :=
  parts.foldl (fun acc part => do return (← acc) ++ (← part)) (.ok [])

/-- What stands at an entry. -/
def placeBytes (d : File.Disk) (place : String) : Except File.Fault (List UInt8) :=
  match d.stat place with
  | .error _ => .ok []
  | .ok (.dir _) => do
    let visits ← d.walk (fun _ => false) place
    concatenated (visits.map (visitBytes d place))
  | .ok _ => d.readFile place

/-- The bytes that a fingerprint is taken of. -/
def fingerprintBytes (d : File.Disk) (entries : List String) : Except Failure (List UInt8) :=
  concatenated (entries.map fun place =>
    match placeBytes d place with
    | .ok bytes => .ok (closedText place ++ bytes)
    | .error fault => .error (.wrapped ("failed to fingerprint " ++ place) fault.toFailure))

def fingerprint (d : File.Disk) (desc : Descriptor) : Except Failure String :=
  (fingerprintBytes d desc.entries).map fun bytes => Digest.hexText (Digest.Blake2b.digest bytes)

end ClassAtlas.Classpath
