import ClassAtlas.ClassFile.Cursor
import ClassAtlas.Decimal.Binary64
import ClassAtlas.Text.Utf8

/-!
The constant pool: the table of texts, numbers and references that the rest of a class file points
into. Slot zero and the slot after a number of eight bytes hold nothing. Its texts have an encoding of
their own, which writes the units of UTF-16: each unit takes one to three bytes, NUL takes two, and a
character above the basic plane is two units of three bytes each.
-/
namespace ClassAtlas.ClassFile.ModifiedUtf8

/-! Texts -/

/-- The UTF-16 units that some bytes spell. A byte that fits no form stands for the replacement
character. -/
def units : List UInt8 → List Nat
  | [] => []
  | a :: rest =>
    if a < 0x80 then a.toNat :: units rest
    else match rest with
      | b :: more =>
        if a &&& 0xe0 == 0xc0 then
          ((a &&& 0x1f).toNat * 64 + (b &&& 0x3f).toNat) :: units more
        else match more with
          | c :: last =>
            if a &&& 0xf0 == 0xe0 then
              ((a &&& 0x0f).toNat * 4096 + (b &&& 0x3f).toNat * 64 + (c &&& 0x3f).toNat) ::
                units last
            else 0xfffd :: units (b :: c :: last)
          | [] => 0xfffd :: units [b]
      | [] => [0xfffd]

def isHigh (u : Nat) : Bool := 0xd800 ≤ u && u < 0xdc00

def isLow (u : Nat) : Bool := 0xdc00 ≤ u && u < 0xe000

/-- The characters of UTF-16 units; half of a pair alone becomes the replacement character. -/
def ofUnits : List Nat → List Char
  | [] => []
  | [u] => [if isHigh u || isLow u then Text.Utf8.replacement else Char.ofNat u]
  | u :: v :: rest =>
    if isHigh u && isLow v then
      Char.ofNat (0x10000 + (u - 0xd800) * 1024 + (v - 0xdc00)) :: ofUnits rest
    else (if isHigh u || isLow u then Text.Utf8.replacement else Char.ofNat u) :: ofUnits (v :: rest)

/-- Plain ASCII is its own text; anything else goes through its units. -/
def decode (bytes : List UInt8) : String :=
  if bytes.all (· < 0x80) then String.ofList (bytes.map fun b => Char.ofNat b.toNat)
  else String.ofList (ofUnits (units bytes))

/-- The units of a character. -/
def unitsOf (c : Char) : List Nat :=
  if c.toNat < 0x10000 then [c.toNat]
  else [0xd800 + (c.toNat - 0x10000) / 1024, 0xdc00 + (c.toNat - 0x10000) % 1024]

/-- The bytes of a unit. NUL takes two, so that no text holds a zero byte. -/
def encodeUnit (u : Nat) : List UInt8 :=
  if u != 0 && u < 0x80 then [UInt8.ofNat u]
  else if u < 0x800 then [UInt8.ofNat (0xc0 + u / 64), UInt8.ofNat (0x80 + u % 64)]
  else [UInt8.ofNat (0xe0 + u / 4096), UInt8.ofNat (0x80 + u / 64 % 64), UInt8.ofNat (0x80 + u % 64)]

def encode (s : String) : List UInt8 := (s.toList.flatMap unitsOf).flatMap encodeUnit

end ClassAtlas.ClassFile.ModifiedUtf8

/-! The pool -/
namespace ClassAtlas.ClassFile

inductive Constant where
  | unused
  | utf8 (text : String)
  | integer (value : Int)
  | float (value : Decimal.Binary64)
  | long (value : Int)
  | double (value : Decimal.Binary64)
  | classRef (name : Nat)
  | string (text : Nat)
  | fieldRef (owner nameAndType : Nat)
  | methodRef (owner nameAndType : Nat)
  | interfaceMethodRef (owner nameAndType : Nat)
  | nameAndType (name descriptor : Nat)
  | methodHandle (kind reference : Nat)
  | methodType (descriptor : Nat)
  | dynamic (bootstrap nameAndType : Nat)
  | invokeDynamic (bootstrap nameAndType : Nat)
  | module (name : Nat)
  | package (name : Nat)
  deriving DecidableEq, Repr, Inhabited

namespace Constant

/-- The number that announces a constant in the file. -/
def tag : Constant → Nat
  | .unused => 0
  | .utf8 _ => 1
  | .integer _ => 3
  | .float _ => 4
  | .long _ => 5
  | .double _ => 6
  | .classRef _ => 7
  | .string _ => 8
  | .fieldRef _ _ => 9
  | .methodRef _ _ => 10
  | .interfaceMethodRef _ _ => 11
  | .nameAndType _ _ => 12
  | .methodHandle _ _ => 15
  | .methodType _ => 16
  | .dynamic _ _ => 17
  | .invokeDynamic _ _ => 18
  | .module _ => 19
  | .package _ => 20

/-- Numbers of eight bytes take two slots. -/
def isWide : Constant → Bool
  | .long _ => true
  | .double _ => true
  | _ => false

/-- The constant that a tag announces; its index is only for the message about an unknown tag. -/
def readTagged (index : Nat) : Nat → Read Constant
  | 1 => do
    let n ← Read.u2
    return .utf8 (ModifiedUtf8.decode (← Read.bytes n))
  | 3 => do return .integer (signedBigEndian (← Read.bytes 4))
  | 4 => do return .float (.ofBits32 (UInt32.ofNat (← Read.number 4)))
  | 5 => do return .long (signedBigEndian (← Read.bytes 8))
  | 6 => do return .double (.ofBits (UInt64.ofNat (← Read.number 8)))
  | 7 => do return .classRef (← Read.u2)
  | 8 => do return .string (← Read.u2)
  | 9 => do return .fieldRef (← Read.u2) (← Read.u2)
  | 10 => do return .methodRef (← Read.u2) (← Read.u2)
  | 11 => do return .interfaceMethodRef (← Read.u2) (← Read.u2)
  | 12 => do return .nameAndType (← Read.u2) (← Read.u2)
  | 15 => do return .methodHandle (← Read.u1) (← Read.u2)
  | 16 => do return .methodType (← Read.u2)
  | 17 => do return .dynamic (← Read.u2) (← Read.u2)
  | 18 => do return .invokeDynamic (← Read.u2) (← Read.u2)
  | 19 => do return .module (← Read.u2)
  | 20 => do return .package (← Read.u2)
  | tag => do
    Read.settled
    Read.fail (.unknownConstant tag index)

/-- One constant, all of which has to be there. -/
def read (index : Nat) : Read Constant := do
  let constant ← readTagged index (← Read.u1)
  Read.settled
  return constant

end Constant

structure ConstantPool where
  slots : Array Constant
  deriving DecidableEq, Repr, Inhabited

namespace ConstantPool

/-- The constants from an index on, until so many slots are filled. -/
def readSlots (index : Nat) : Nat → Read (List Constant)
  | 0 => pure []
  | 1 => do return [← Constant.read index]
  | left + 2 => do
    let constant ← Constant.read index
    if constant.isWide then
      return constant :: .unused :: (← readSlots (index + 2) left)
    else
      return constant :: (← readSlots (index + 1) (left + 1))

def read : Read ConstantPool := do
  let count ← Read.u2
  let constants ← readSlots 1 (count - 1)
  Read.settled
  return ⟨if count = 0 then #[] else (.unused :: constants).toArray⟩

/-- The constant at an index; slot zero is out of range. -/
def constant (pool : ConstantPool) (index : Nat) : Except Fault Constant :=
  if index = 0 then .error (.indexOutOfRange index)
  else match pool.slots[index]? with
    | some constant => .ok constant
    | none => .error (.indexOutOfRange index)

def utf8 (pool : ConstantPool) (index : Nat) : Except Fault String :=
  (pool.constant index).bind fun
    | .utf8 text => .ok text
    | other => .error (.wrongConstant index other.tag 1)

def integer (pool : ConstantPool) (index : Nat) : Except Fault Int :=
  (pool.constant index).bind fun
    | .integer value => .ok value
    | other => .error (.wrongConstant index other.tag 3)

def float (pool : ConstantPool) (index : Nat) : Except Fault Decimal.Binary64 :=
  (pool.constant index).bind fun
    | .float value => .ok value
    | other => .error (.wrongConstant index other.tag 4)

def long (pool : ConstantPool) (index : Nat) : Except Fault Int :=
  (pool.constant index).bind fun
    | .long value => .ok value
    | other => .error (.wrongConstant index other.tag 5)

def double (pool : ConstantPool) (index : Nat) : Except Fault Decimal.Binary64 :=
  (pool.constant index).bind fun
    | .double value => .ok value
    | other => .error (.wrongConstant index other.tag 6)

/-- The slashed name of a class constant. -/
def className (pool : ConstantPool) (index : Nat) : Except Fault String :=
  (pool.constant index).bind fun
    | .classRef name => pool.utf8 name
    | other => .error (.wrongConstant index other.tag 7)

def nameAndType (pool : ConstantPool) (index : Nat) : Except Fault (Nat × Nat) :=
  (pool.constant index).bind fun
    | .nameAndType name descriptor => .ok (name, descriptor)
    | other => .error (.wrongConstant index other.tag 12)

/-- A method named by its class, its name and its descriptor. -/
structure MethodRef where
  owner : String
  name : String
  descriptor : String
  ofInterface : Bool
  deriving DecidableEq, Repr

def resolveMethod (pool : ConstantPool) (owner nameAndType : Nat) (ofInterface : Bool) :
    Except Fault MethodRef := do
  let owner ← pool.className owner
  let (name, descriptor) ← pool.nameAndType nameAndType
  return ⟨owner, ← pool.utf8 name, ← pool.utf8 descriptor, ofInterface⟩

def methodRef (pool : ConstantPool) (index : Nat) : Except Fault MethodRef :=
  (pool.constant index).bind fun
    | .methodRef owner nameAndType => pool.resolveMethod owner nameAndType false
    | .interfaceMethodRef owner nameAndType => pool.resolveMethod owner nameAndType true
    | _ => .error (.notMethodReference index)

end ConstantPool
end ClassAtlas.ClassFile
