import ClassAtlas.Scan.Vocabulary
import ClassAtlas.Text.Basic
import ClassAtlas.Text.Letter
import ClassAtlas.Text.Utf8

/-!
What the simple names of a source file stand for, given its package and imports.
-/
namespace ClassAtlas.Source

/-- The package of a file, the names it imports one by one with what they stand for, the later ones
first, and the packages that it imports as a whole. -/
structure Scope where
  packageName : String
  explicit : List (String × String)
  wildcards : List String
  deriving DecidableEq, Repr, Inhabited

/-- Types that need no import. -/
def implicitTypes : List String := [
  "Boolean", "Byte", "Character", "CharSequence", "Class", "Double", "Enum", "Float", "Integer",
  "Iterable", "Long", "Number", "Object", "Record", "Runnable", "Short", "String", "StringBuilder",
  "Thread", "Void"]

namespace Scope

/-- Add one import, written as a dotted name or as a package followed by a star. -/
def addImport (s : Scope) (written : String) : Scope :=
  let name := Text.trim written
  if Text.endsWith name ".*" then { s with wildcards := s.wildcards ++ [Text.dropTail name ".*"] }
  else match Text.beforeLast? '.' name with
    | some before =>
      if before.isEmpty then s
      else { s with explicit := (Text.afterLast '.' name, name) :: s.explicit }
    | none => s

def make (packageName : String) (imports : List String) : Scope :=
  imports.foldl addImport ⟨packageName, [], []⟩

/-- The full name of a class that the file declares. -/
def qualify (s : Scope) (simple : String) : String :=
  if s.packageName.isEmpty then simple else s.packageName ++ "." ++ simple

/-- The full name of a use of an annotation type. A package that is imported as a whole gives only
names that mean something to the scan; any other name stays as it is written. -/
def annotationName (s : Scope) (written : String) : String :=
  let name := Text.dropStart (Text.trim written) "@"
  if name.isEmpty || Text.containsChar name '.' then name
  else match s.explicit.lookup name with
    | some full => full
    | none => ((s.wildcards.map (· ++ "." ++ name)).find? Scan.isKnown).getD name

/-- Capital letters among the first 256 characters. -/
def isCapitalByte (b : UInt8) : Bool :=
  (0x41 ≤ b && b ≤ 0x5a) || (0xc0 ≤ b && b ≤ 0xde && b != 0xd7)

/-- Whether the first byte of a name is that of a capital letter. -/
def startsWithCapital (name : String) : Bool :=
  (Text.Utf8.encode name).head?.any isCapitalByte

/-- The full name of one name in a type. Only a simple name that starts like a class is looked up. -/
def typeName (s : Scope) (name : String) : String :=
  if Text.containsChar name '.' || !startsWithCapital name then name
  else match s.explicit.lookup name with
    | some full => full
    | none => if implicitTypes.contains name then "java.lang." ++ name else s.qualify name

def isNameChar (c : Char) : Bool :=
  c == '_' || c == '$' || c == '.' || Text.isLetter c || Text.isDigit c

/-- A name inside a type; the two words of a bounded wildcard stand between blanks. -/
def typeWord (s : Scope) (word : List Char) : List Char :=
  if word.isEmpty then []
  else if word == "extends".toList || word == "super".toList then ' ' :: word ++ [' ']
  else (s.typeName (String.ofList word)).toList

/-- A type with full names and fixed blanks. `word` is the name under way, last character first. -/
def typeChars (s : Scope) : List Char → List Char → List Char
  | word, [] => s.typeWord word.reverse
  | word, c :: rest =>
    if isNameChar c then s.typeChars (c :: word) rest
    else s.typeWord word.reverse ++
      (if Text.isBlankChar c then [] else if c == ',' then [',', ' '] else [c]) ++
      s.typeChars [] rest

/-- A written type with full names, in the form `Outer<A, ? extends B>[]`. -/
def typeText (s : Scope) (written : String) : String :=
  String.ofList (s.typeChars [] written.toList)

end Scope
end ClassAtlas.Source
