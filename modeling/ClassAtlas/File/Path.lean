import ClassAtlas.Text.Basic

/-!
Paths as texts: names between slashes. Nothing here looks at a disk.
-/
namespace ClassAtlas.File.Path

def isAbsolute (path : String) : Bool := path.toList.head? == some '/'

/-- The names of a path, with an empty one wherever two slashes meet. -/
def components (path : String) : List String := Text.splitOn '/' path

/-- Take a name onto the names before it, the last one first: nothing for the place itself, one back
for the parent. At the root there is no way further back. -/
def step (absolute : Bool) (trail : List String) (name : String) : List String :=
  if name.isEmpty || name == "." then trail
  else if name == ".." then
    match trail with
    | [] => if absolute then [] else [".."]
    | last :: before => if last == ".." then ".." :: trail else before
  else name :: trail

/-- The shortest names for the same place. -/
def cleanComponents (path : String) : List String :=
  ((components path).foldl (step (isAbsolute path)) []).reverse

/-- A path from its names. -/
def ofComponents (absolute : Bool) (names : List String) : String :=
  if absolute then "/" ++ Text.join "/" names
  else if names.isEmpty then "." else Text.join "/" names

def clean (path : String) : String := ofComponents (isAbsolute path) (cleanComponents path)

/-- Paths one below the other, empty ones left out. -/
def joinAll (parts : List String) : String :=
  match parts.filter (!·.isEmpty) with
  | [] => ""
  | parts => clean (Text.join "/" parts)

def join (base path : String) : String := joinAll [base, path]

/-- The last name of a path. -/
def base (path : String) : String :=
  if path.isEmpty then "."
  else
    let trimmed := Text.dropTrailing '/' path
    if trimmed.isEmpty then "/" else Text.afterLast '/' trimmed

/-- Everything before the last name. -/
def parent (path : String) : String :=
  match Text.beforeLast? '/' path with
  | none => "."
  | some before => if before.isEmpty then "/" else clean before

/-- The extension of the last name, with its dot. -/
def extension (path : String) : String :=
  let name := Text.afterLast '/' path
  if Text.containsChar name '.' then "." ++ Text.afterLast '.' name else ""

/-- A path made absolute below a directory. -/
def absolute (directory path : String) : String :=
  if isAbsolute path then clean path else join directory path

/-- Drop the names that two lists start with. -/
def dropCommon : List String → List String → List String × List String
  | a :: as, b :: bs => if a == b then dropCommon as bs else (a :: as, b :: bs)
  | as, bs => (as, bs)

/-- The way from one path to another; there is none out of a place whose parent has no name. -/
def relative? (origin target : String) : Option String :=
  if isAbsolute origin != isAbsolute target then none
  else
    let (up, down) := dropCommon (cleanComponents origin) (cleanComponents target)
    if up.head? == some ".." then none
    else some (ofComponents false (up.map (fun _ => "..") ++ down))

end ClassAtlas.File.Path
