import ClassAtlas.Collections
import ClassAtlas.File.Path
import ClassAtlas.Text.Utf8

/-!
A disk as a value: directories, files and symbolic links below one root, and a working directory.
Every question about it and every change to it is a function; a change that fails leaves no new
disk behind. A walk lists everything below a path, a directory before what is in it and names in
order; links are listed and not followed.
-/
namespace ClassAtlas.File

/-- What stands under a name. The entries of a directory are in order of their names. -/
inductive Node where
  | file (bytes : List UInt8) (executable : Bool)
  | link (target : String)
  | dir (entries : List (String × Node))
  deriving Repr, Inhabited

def Node.isDir : Node → Bool
  | .dir _ => true
  | _ => false

def Node.isFile : Node → Bool
  | .file _ _ => true
  | _ => false

/-- Why a path cannot be used. -/
inductive Reason where
  | noEntry
  | notDirectory
  | isDirectory
  | tooManyLinks
  | exists
  deriving DecidableEq, Repr

def Reason.text : Reason → String
  | .noEntry => "no such file or directory"
  | .notDirectory => "not a directory"
  | .isDirectory => "is a directory"
  | .tooManyLinks => "too many levels of symbolic links"
  | .exists => "file exists"

/-- What was tried, with which path, and why it failed. -/
structure Fault where
  action : String
  path : String
  reason : Reason
  deriving DecidableEq, Repr

def Fault.message (f : Fault) : String := f.action ++ " " ++ f.path ++ ": " ++ f.reason.text

/-- The node below a node, by the names on the way. -/
def Node.at? : Node → List String → Option Node
  | node, [] => some node
  | .dir entries, name :: rest =>
    match entries.lookup name with
    | some node => node.at? rest
    | none => none
  | _, _ :: _ => none

/-- Put a node at a place whose parent is a directory. -/
def Node.put (new : Node) : Node → List String → Node
  | _, [] => new
  | .dir entries, name :: rest =>
    .dir (KeyMap.insertEntry name (new.put ((entries.lookup name).getD (.dir [])) rest) entries)
  | other, _ :: _ => other

/-- Take away the node at a place. -/
def Node.remove : Node → List String → Node
  | .dir entries, [name] => .dir (entries.filter (·.1 != name))
  | .dir entries, name :: rest =>
    .dir (entries.map fun e => if e.1 == name then (e.1, e.2.remove rest) else e)
  | node, _ => node

structure Disk where
  root : Node
  /-- The names from the root to the working directory. -/
  workingDir : List String
  deriving Repr, Inhabited

/-- A place without links on the way, and what stands there. -/
structure Place where
  names : List String
  node : Option Node

/-- How many links are followed before a path is given up. -/
def linkLimit : Nat := 40

/-- Follow names from a directory, the names to it in `trail` with the last one first. Links on the
way are followed as told; one at the end only if asked. What is missing at the end is a place, too. -/
def resolveWith (root : Node) (follow : Bool)
    (through : List String → List String → Except Reason Place) (trail : List String) :
    List String → Except Reason Place
  | [] => .ok ⟨trail.reverse, root.at? trail.reverse⟩
  | name :: rest =>
    match root.at? trail.reverse with
    | some (.dir entries) =>
      if name.isEmpty || name == "." then resolveWith root follow through trail rest
      else if name == ".." then resolveWith root follow through trail.tail rest
      else match entries.lookup name with
        | none =>
          if rest.isEmpty then .ok ⟨(name :: trail).reverse, none⟩ else .error .noEntry
        | some (.link target) =>
          if rest.isEmpty && !follow then .ok ⟨(name :: trail).reverse, some (.link target)⟩
          else through (if Path.isAbsolute target then [] else trail)
            (Path.components target ++ rest)
        | some _ => resolveWith root follow through (name :: trail) rest
    | _ => .error .notDirectory

@[simp] theorem resolveWith_nil (root : Node) (follow : Bool)
    (through : List String → List String → Except Reason Place) (trail : List String) :
    resolveWith root follow through trail [] = .ok ⟨trail.reverse, root.at? trail.reverse⟩ := by
  rw [resolveWith]

/-- The same with so many links at most. -/
def resolve (root : Node) (follow : Bool) :
    Nat → List String → List String → Except Reason Place
  | 0 => resolveWith root follow fun _ _ => .error .tooManyLinks
  | links + 1 => resolveWith root follow (resolve root follow links)

namespace Disk

/-- The working directory as a path. -/
def workingPath (d : Disk) : String := Path.ofComponents true d.workingDir

/-- The place of a path. -/
def locate (d : Disk) (follow : Bool) (path : String) : Except Reason Place :=
  if path.isEmpty then .error .noEntry
  else
    let start := if Path.isAbsolute path then [] else d.workingDir.reverse
    resolve d.root follow linkLimit start (Path.components path)

/-- What stands at a path, links followed or, at the end, not. -/
def lookup (d : Disk) (follow : Bool) (path : String) : Except Reason Node := do
  let place ← d.locate follow path
  match place.node with
  | some node => return node
  | none => throw .noEntry

def stat (d : Disk) (path : String) : Except Fault Node :=
  (d.lookup true path).mapError (⟨"stat", path, ·⟩)

def lstat (d : Disk) (path : String) : Except Fault Node :=
  (d.lookup false path).mapError (⟨"lstat", path, ·⟩)

def isDir (d : Disk) (path : String) : Bool :=
  match d.lookup true path with
  | .ok (.dir _) => true
  | _ => false

def isFile (d : Disk) (path : String) : Bool :=
  match d.lookup true path with
  | .ok (.file _ _) => true
  | _ => false

def exists_ (d : Disk) (path : String) : Bool := (d.lookup true path).isOk

def readFile (d : Disk) (path : String) : Except Fault (List UInt8) :=
  match d.lookup true path with
  | .ok (.file bytes _) => .ok bytes
  | .ok _ => .error ⟨"read", path, .isDirectory⟩
  | .error reason => .error ⟨"open", path, reason⟩

def readText (d : Disk) (path : String) : Except Fault String :=
  (d.readFile path).map Text.Utf8.decode

/-- The entries of a directory, in order of their names. -/
def readDir (d : Disk) (path : String) : Except Fault (List (String × Node)) :=
  match d.lookup true path with
  | .ok (.dir entries) => .ok entries
  | .ok _ => .error ⟨"open", path, .notDirectory⟩
  | .error reason => .error ⟨"open", path, reason⟩

def put (d : Disk) (names : List String) (node : Node) : Disk :=
  { d with root := node.put d.root names }

/-- Write a whole file, a new one or over an old one. -/
def writeFile (d : Disk) (path : String) (bytes : List UInt8) : Except Fault Disk :=
  match d.locate true path with
  | .ok ⟨names, none⟩ => .ok (d.put names (.file bytes false))
  | .ok ⟨names, some (.file _ executable)⟩ => .ok (d.put names (.file bytes executable))
  | .ok ⟨_, some _⟩ => .error ⟨"open", path, .isDirectory⟩
  | .error reason => .error ⟨"open", path, reason⟩

def writeText (d : Disk) (path text : String) : Except Fault Disk :=
  d.writeFile path (Text.Utf8.encode text)

/-- Make one directory, whose parent must be there. -/
def makeDir (d : Disk) (path : String) : Except Fault Disk :=
  match d.locate false (Text.dropTrailing '/' path) with
  | .ok ⟨names, none⟩ => .ok (d.put names (.dir []))
  | .ok ⟨_, some (.dir _)⟩ => .ok d
  | .ok ⟨_, some _⟩ => .error ⟨"mkdir", path, .exists⟩
  | .error reason => .error ⟨"mkdir", path, reason⟩

/-- The text before the last name of a path, if there is a parent to be made first. -/
def parentText? (path : String) : Option String :=
  match Text.beforeLast? '/' (Text.dropTrailing '/' path) with
  | some before => if before.isEmpty then none else some before
  | none => none

/-- Make a directory and the parents that are missing. The count bounds how many there are. -/
def makeDirsWithin : Nat → Disk → String → Except Fault Disk
  | 0, _, path => .error ⟨"mkdir", path, .noEntry⟩
  | fuel + 1, d, path =>
    match d.lookup true path with
    | .ok (.dir _) => .ok d
    | .ok _ => .error ⟨"mkdir", path, .notDirectory⟩
    | .error _ => do
      let d ← match parentText? path with
        | some before => makeDirsWithin fuel d before
        | none => .ok d
      d.makeDir path

def makeDirs (d : Disk) (path : String) : Except Fault Disk :=
  makeDirsWithin (path.length + 1) d path

def makeLink (d : Disk) (path target : String) : Except Fault Disk :=
  match d.locate false path with
  | .ok ⟨names, none⟩ => .ok (d.put names (.link target))
  | .ok ⟨_, some _⟩ => .error ⟨"symlink", path, .exists⟩
  | .error reason => .error ⟨"symlink", path, reason⟩

/-- Take away what stands at a path, with everything below it. -/
def removeAll (d : Disk) (path : String) : Disk :=
  match d.locate false path with
  | .ok ⟨names, some _⟩ => { d with root := d.root.remove names }
  | _ => d

/-- An absolute form of a path. -/
def absolute (d : Disk) (path : String) : String := Path.absolute d.workingPath path

end Disk

/-! Everything below a path -/

/-- Something met on the way, under the path that leads to it. -/
structure Visit where
  path : String
  name : String
  node : Node

mutual

/-- What is met from a node on. Directories below it that are pruned are not met at all. -/
def visits (prune : String → Bool) (path name : String) : Node → List Visit
  | .dir entries => ⟨path, name, .dir entries⟩ :: visitsIn prune path entries
  | node => [⟨path, name, node⟩]

def visitsIn (prune : String → Bool) (path : String) : List (String × Node) → List Visit
  | [] => []
  | (name, .dir entries) :: more =>
    if prune name then visitsIn prune path more
    else visits prune (Path.join path name) name (.dir entries) ++ visitsIn prune path more
  | (name, node) :: more => ⟨Path.join path name, name, node⟩ :: visitsIn prune path more

end

/-- Everything below a path, the path itself first. -/
def Disk.walk (d : Disk) (prune : String → Bool) (path : String) : Except Fault (List Visit) :=
  (d.lstat path).map (visits prune path (Path.base path))

end ClassAtlas.File
