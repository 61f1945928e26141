import ClassAtlas.File.Disk

/-!
Where a path really leads once every link on it is followed, and whether that is inside a
directory.
-/
namespace ClassAtlas.File

inductive CanonicalFault where
  | missing
  | notDirectory
  | tooManyLinks
  | unrelated (target origin : String)
  deriving DecidableEq, Repr

def CanonicalFault.message : CanonicalFault → String
  | .missing => "no such file or directory"
  | .notDirectory => "not a directory"
  | .tooManyLinks => "EvalSymlinks: too many links"
  | .unrelated target origin => "Rel: can't make " ++ target ++ " relative to " ++ origin

/-- How many links one path may lead through. -/
def canonicalLinkLimit : Nat := 255

/-- Follow the names of a path one by one, replacing each link by its target. The names so far are
free of links, the last one first. -/
def followLinks (d : Disk) (links : Nat) (absolute : Bool) (trail : List String) :
    List String → Except CanonicalFault (Bool × List String)
  | [] => .ok (absolute, trail.reverse)
  | name :: rest =>
    if name.isEmpty || name == "." || name == ".." then
      followLinks d links absolute (Path.step absolute trail name) rest
    else
      match d.lookup false (Path.ofComponents absolute (name :: trail).reverse) with
      | .error .notDirectory => .error .notDirectory
      | .error _ => .error .missing
      | .ok (.link target) =>
        match links with
        | 0 => .error .tooManyLinks
        | links + 1 =>
          followLinks d links (absolute || Path.isAbsolute target)
            (if Path.isAbsolute target then [] else trail) (Path.components target ++ rest)
      | .ok (.file _ _) =>
        if rest.isEmpty then followLinks d links absolute (name :: trail) rest
        else .error .notDirectory
      | .ok (.dir _) => followLinks d links absolute (name :: trail) rest
termination_by pending => (links, pending.length)

/-- The path without links that a path leads to. -/
def Disk.resolveLinks (d : Disk) (path : String) : Except CanonicalFault String :=
  (followLinks d canonicalLinkLimit (Path.isAbsolute path) [] (Path.components path)).map
    fun (absolute, names) => Path.ofComponents absolute names

/-- As `resolveLinks`, but what is not there is taken as it is written. -/
def Disk.resolveOrKeep (d : Disk) (path : String) : Except CanonicalFault String :=
  match d.resolveLinks path with
  | .error .missing => .ok (Path.clean path)
  | result => result

/-- The way from a directory to a path, links followed. -/
def Disk.canonical (d : Disk) (path directory : String) : Except CanonicalFault String := do
  let target ← d.resolveOrKeep path
  let origin ← d.resolveOrKeep directory
  match Path.relative? origin target with
  | some way => return way
  | none => throw (.unrelated target origin)

/-- Whether a path lies inside a directory, or is that directory. -/
def Disk.isWithin (d : Disk) (path directory : String) : Bool :=
  match d.canonical path directory with
  | .ok way => way != ".." && !Text.startsWith way "../"
  | .error _ => false

end ClassAtlas.File
