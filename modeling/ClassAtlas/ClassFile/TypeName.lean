import ClassAtlas.Text.Basic

/-!
Type descriptors and generic signatures as they would be written in a source file: dots for slashes,
`$` before the name of an inner class of a parameterised one, a pair of brackets for each dimension.
-/
namespace ClassAtlas.ClassFile

/-- The dotted name of a class. -/
def dotted (slashed : String) : String := Text.replaceChar slashed '/' '.'

/-- The slashed name of a class. -/
def slashed (dotted : String) : String := Text.replaceChar dotted '.' '/'

namespace Signature

def baseType? : Char → Option String
  | 'B' => some "byte"
  | 'C' => some "char"
  | 'D' => some "double"
  | 'F' => some "float"
  | 'I' => some "int"
  | 'J' => some "long"
  | 'S' => some "short"
  | 'Z' => some "boolean"
  | 'V' => some "void"
  | _ => none

/-- A NUL ends a signature as the end of the text does. -/
def isEnd (c : Char) : Bool := c.toNat == 0

mutual

/-- The source form of the type at the front of some characters, and what follows it. The count
bounds how deep types nest. -/
def readType : Nat → List Char → Option (List Char × List Char)
  | 0, _ => none
  | _ + 1, [] => none
  | fuel + 1, c :: rest =>
    match baseType? c with
    | some name => some (name.toList, rest)
    | none =>
      match c with
      | 'L' => readClass fuel rest
      | 'T' =>
        match rest.dropWhile (· != ';') with
        | _ :: after => some (rest.takeWhile (· != ';'), after)
        | [] => none
      | '[' => (readType fuel rest).map fun (t, rest) => (t ++ ['[', ']'], rest)
      | _ => none

/-- The source form of a class type after its letter, up to the semicolon. -/
def readClass : Nat → List Char → Option (List Char × List Char)
  | 0, _ => none
  | _ + 1, [] => none
  | fuel + 1, c :: rest =>
    if isEnd c then none
    else match c with
      | ';' => some ([], rest)
      | '/' => (readClass fuel rest).map fun (t, rest) => ('.' :: t, rest)
      | '.' => (readClass fuel rest).map fun (t, rest) => ('$' :: t, rest)
      | '<' => do
        let (args, rest) ← readArguments fuel rest
        let (t, rest) ← readClass fuel rest
        some ('<' :: List.intercalate [',', ' '] args ++ '>' :: t, rest)
      | c => (readClass fuel rest).map fun (t, rest) => (c :: t, rest)

/-- The source forms of type arguments, the closing bracket included. -/
def readArguments : Nat → List Char → Option (List (List Char) × List Char)
  | 0, _ => none
  | _ + 1, [] => none
  | fuel + 1, c :: rest =>
    if isEnd c then none
    else match c with
      | '>' => some ([], rest)
      | '*' => (readArguments fuel rest).map fun (args, rest) => (['?'] :: args, rest)
      | '+' => do
        let (t, rest) ← readType fuel rest
        let (args, rest) ← readArguments fuel rest
        some (("? extends ".toList ++ t) :: args, rest)
      | '-' => do
        let (t, rest) ← readType fuel rest
        let (args, rest) ← readArguments fuel rest
        some (("? super ".toList ++ t) :: args, rest)
      | c => do
        let (t, rest) ← readType fuel (c :: rest)
        let (args, rest) ← readArguments fuel rest
        some (t :: args, rest)

end

end Signature

/-- The source form of a descriptor or signature. A text that is not exactly one type stays as it
is. -/
def typeName (signature : String) : String :=
  match Signature.readType (2 * signature.length + 2) signature.toList with
  | some (t, []) => String.ofList t
  | _ => signature

end ClassAtlas.ClassFile
