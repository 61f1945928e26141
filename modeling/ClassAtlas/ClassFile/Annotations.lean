import ClassAtlas.ClassFile.ConstantPool
import ClassAtlas.ClassFile.TypeName
import ClassAtlas.Decimal.Layout
import ClassAtlas.Text.Basic

/-!
Annotations as a class file stores them. Only the values that were written out are there. Each name
is kept once, at its first place and with its last value.
-/
namespace ClassAtlas.ClassFile

/-- The four integral kinds of an annotation value. -/
inductive Integral where
  | byte | int | short | long
  deriving DecidableEq, Repr

inductive ElementValue where
  | integral (kind : Integral) (value : Int)
  | boolean (value : Bool)
  | character (value : Char)
  | float (value : Decimal.Binary64)
  | double (value : Decimal.Binary64)
  | text (value : String)
  | enum (type name : String)
  | classRef (name : String)
  | nested (type : String) (visible : Bool) (values : List (String × ElementValue))
  | array (items : List ElementValue)
  deriving Repr, Inhabited, BEq

structure AnnotationUse where
  type : String
  visible : Bool
  values : List (String × ElementValue)
  deriving Repr, Inhabited, BEq

namespace ElementValue

/-- The letter that announces a value in the file. -/
def tag : ElementValue → Char
  | .integral .byte _ => 'B'
  | .integral .int _ => 'I'
  | .integral .short _ => 'S'
  | .integral .long _ => 'J'
  | .boolean _ => 'Z'
  | .character _ => 'C'
  | .float _ => 'F'
  | .double _ => 'D'
  | .text _ => 's'
  | .enum _ _ => 'e'
  | .classRef _ => 'c'
  | .nested _ _ _ => '@'
  | .array _ => '['

/-- The text of a single value; arrays and annotations have none. -/
def text? : ElementValue → Option String
  | .integral _ n => some (toString n)
  | .boolean b => some (if b then "true" else "false")
  | .character c => some (String.singleton c)
  | .float x => some (Decimal.Layout.general.write x)
  | .double x => some (Decimal.Layout.general.write x)
  | .text s => some s
  | .enum _ name => some name
  | .classRef name => some name
  | .nested _ _ _ => none
  | .array _ => none

/-- The texts of a value or of the items of an array, without the blank ones. -/
def texts : ElementValue → List String
  | .array items => (items.filterMap text?).filter (!Text.isBlank ·)
  | value => value.text?.toList.filter (!Text.isBlank ·)

end ElementValue

namespace AnnotationUse

def value? (a : AnnotationUse) (name : String) : Option ElementValue := a.values.lookup name

/-- The texts under a name that are not blank. -/
def texts (a : AnnotationUse) (name : String) : List String :=
  ((a.value? name).map ElementValue.texts).getD []

/-- The first text under a name that is not blank. -/
def text? (a : AnnotationUse) (name : String) : Option String := (a.texts name).head?

/-- The whole number under a name. -/
def int? (a : AnnotationUse) (name : String) : Option Int :=
  match a.value? name with
  | some (.integral _ n) => some n
  | _ => none

end AnnotationUse

/-- Give a name its value: in place if it has one, else at the end. -/
def putValue (values : List (String × α)) (name : String) (value : α) : List (String × α) :=
  match values with
  | [] => [(name, value)]
  | (n, v) :: more => if n = name then (name, value) :: more else (n, v) :: putValue more name value

/-- A character of a class file; a number that is none becomes the replacement character. -/
def characterOf (n : Int) : Char :=
  if 0 ≤ n && n.toNat.isValidChar then Char.ofNat n.toNat else Text.Utf8.replacement

/-- Type and values of an annotation, given how a value is read. -/
def readAnnotationWith (pool : ConstantPool) (element : Read ElementValue) :
    Read (String × List (String × ElementValue)) := do
  let type ← Read.lift (pool.utf8 (← Read.u2))
  let count ← Read.u2
  let pairs ← Read.times (do
    let name ← Read.lift (pool.utf8 (← Read.u2))
    return (name, ← element)) count
  Read.settled
  return (typeName type, pairs.foldl (fun values (name, value) => putValue values name value) [])

/-- The value that a tag announces, given how the values inside it are read. -/
def readTagged (pool : ConstantPool) (visible : Bool) (element : Read ElementValue) (tag : Nat) :
    Read ElementValue :=
  match Char.ofNat tag with
  | 'B' => do return .integral .byte (← Read.lift (pool.integer (← Read.u2)))
  | 'I' => do return .integral .int (← Read.lift (pool.integer (← Read.u2)))
  | 'S' => do return .integral .short (← Read.lift (pool.integer (← Read.u2)))
  | 'Z' => do return .boolean ((← Read.lift (pool.integer (← Read.u2))) != 0)
  | 'C' => do return .character (characterOf (← Read.lift (pool.integer (← Read.u2))))
  | 'J' => do return .integral .long (← Read.lift (pool.long (← Read.u2)))
  | 'F' => do return .float (← Read.lift (pool.float (← Read.u2)))
  | 'D' => do return .double (← Read.lift (pool.double (← Read.u2)))
  | 's' => do return .text (← Read.lift (pool.utf8 (← Read.u2)))
  | 'e' => do
    let type ← Read.lift (pool.utf8 (← Read.u2))
    let name ← Read.lift (pool.utf8 (← Read.u2))
    return .enum (typeName type) name
  | 'c' => do return .classRef (typeName (← Read.lift (pool.utf8 (← Read.u2))))
  | '@' => do
    let (type, values) ← readAnnotationWith pool element
    return .nested type visible values
  | '[' => do
    let count ← Read.u2
    return .array (← Read.times element count)
  | _ => Read.fail (.unknownElement tag)

/-- One annotation value. The count bounds how deep values nest; each level takes a byte. -/
def readElement (pool : ConstantPool) (visible : Bool) : Nat → Read ElementValue
  | 0 => Read.fail .truncated
  | depth + 1 => do
    let tag ← Read.u1
    Read.settled
    let value ← readTagged pool visible (readElement pool visible depth) tag
    Read.settled
    return value

/-- The annotations of an attribute. -/
def readAnnotations (pool : ConstantPool) (visible : Bool) (block : List UInt8) :
    Except Fault (List AnnotationUse) :=
  readBlock (do
    let count ← Read.u2
    let annotations ← Read.times (do
      let (type, values) ←
        readAnnotationWith pool (readElement pool visible (block.length + 1))
      return ({ type, visible, values } : AnnotationUse)) count
    Read.settled
    return annotations) block

end ClassAtlas.ClassFile
