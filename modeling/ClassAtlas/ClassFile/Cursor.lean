import ClassAtlas.Text.Quoted

/-!
Reading big-endian numbers from the front of some bytes. A cursor that is asked for more than is
left reads zero from then on and remembers that it overran, so a caller may look at several numbers
before it asks whether they were there. What can be wrong with the bytes of a class file, and where,
has its wording in `Fault.message` and nowhere else.
-/
namespace ClassAtlas.ClassFile

/-! Faults -/

/-- The part of a class file in which a fault was met. -/
inductive Place where
  | thisClass
  | superClass
  | interfaces
  | field (index : Nat)
  | method (index : Nat)
  | methodBody (name descriptor : String)
  | classAttributes
  | attribute (name : String)
  deriving DecidableEq, Repr

inductive Fault where
  | truncated
  | badMagic
  | unknownConstant (tag index : Nat)
  | indexOutOfRange (index : Nat)
  | wrongConstant (index found wanted : Nat)
  | notMethodReference (index : Nat)
  | unknownElement (tag : Nat)
  | undefinedOpcode (opcode offset : Nat)
  | codeOverrun (opcode offset : Nat)
  | malformedTableSwitch (offset : Nat)
  | malformedLookupSwitch (offset : Nat)
  | within (place : Place) (cause : Fault)
  deriving DecidableEq, Repr

def Place.label : Place → String
  | .thisClass => "this_class"
  | .superClass => "super_class"
  | .interfaces => "interfaces"
  | .field i => s!"field {i}"
  | .method i => s!"method {i}"
  | .methodBody name descriptor => s!"method {name}{descriptor}"
  | .classAttributes => "class attributes"
  | .attribute name => s!"{name} attribute"

def Fault.message : Fault → String
  | .truncated => "classfile: truncated input"
  | .badMagic => "classfile: bad magic number"
  | .unknownConstant tag index => s!"classfile: unknown constant pool tag {tag} at index {index}"
  | .indexOutOfRange index => s!"classfile: constant pool index {index} out of range"
  | .wrongConstant index found wanted =>
    s!"classfile: constant pool index {index} has tag {found}, want {wanted}"
  | .notMethodReference index => s!"classfile: constant pool index {index} is not a method reference"
  | .unknownElement tag =>
    "classfile: unknown element value tag " ++ Text.quotedChar (Char.ofNat tag)
  | .undefinedOpcode opcode offset =>
    "classfile: undefined opcode 0x" ++ Text.hex 2 opcode ++ s!" at offset {offset}"
  | .codeOverrun opcode offset =>
    "classfile: instruction 0x" ++ Text.hex 2 opcode ++ s!" at offset {offset} overruns code"
  | .malformedTableSwitch offset => s!"classfile: malformed tableswitch at offset {offset}"
  | .malformedLookupSwitch offset => s!"classfile: malformed lookupswitch at offset {offset}"
  | .within place cause => place.label ++ ": " ++ cause.message

/-! Cursors -/

structure Cursor where
  rest : List UInt8
  overrun : Bool
  deriving DecidableEq, Repr

def Cursor.start (bytes : List UInt8) : Cursor := ⟨bytes, false⟩

/-- Exactly the first `n` elements and what follows them, if there are so many. -/
def takeExactly? : Nat → List α → Option (List α × List α)
  | 0, xs => some ([], xs)
  | _ + 1, [] => none
  | n + 1, x :: xs => (takeExactly? n xs).map fun (front, rest) => (x :: front, rest)

theorem takeExactly?_append (n : Nat) (xs front rest : List α)
    (h : takeExactly? n xs = some (front, rest)) : xs = front ++ rest ∧ front.length = n := by
  induction n generalizing xs front with
  | zero => simp_all [takeExactly?]
  | succ n ih =>
    cases xs with
    | nil => simp [takeExactly?] at h
    | cons x xs =>
      simp only [takeExactly?, Option.map_eq_some_iff] at h
      obtain ⟨⟨f, r⟩, hf, he⟩ := h
      simp only [Prod.mk.injEq] at he
      obtain ⟨rfl, rfl⟩ := he
      obtain ⟨rfl, rfl⟩ := ih xs f hf
      simp

/-- The number that some bytes spell, the first byte weighing most. -/
def bigEndian (bytes : List UInt8) : Nat := bytes.foldl (fun n b => n * 256 + b.toNat) 0

/-- The same bytes read as a two's-complement number. -/
def signedBigEndian (bytes : List UInt8) : Int :=
  let n := bigEndian bytes
  if 2 * n < Nat.pow 256 bytes.length then n else (n : Int) - (Nat.pow 256 bytes.length : Int)

/-- The bytes of a number, the first one weighing most; what does not fit is dropped. -/
def toBigEndian : Nat → Nat → List UInt8
  | 0, _ => []
  | k + 1, n => UInt8.ofNat (n / Nat.pow 256 k) :: toBigEndian k n

abbrev Read := StateT Cursor (Except Fault)

namespace Read

/-- The next `n` bytes; nothing after an overrun. -/
def bytes (n : Nat) : Read (List UInt8) := fun c =>
  if c.overrun then .ok ([], c)
  else match takeExactly? n c.rest with
    | some (front, rest) => .ok (front, ⟨rest, false⟩)
    | none => .ok ([], ⟨c.rest, true⟩)

/-- The next number of `n` bytes; zero after an overrun. -/
def number (n : Nat) : Read Nat := do return bigEndian (← bytes n)

def u1 : Read Nat := number 1

def u2 : Read Nat := number 2

def u4 : Read Nat := number 4

/-- Fail if the bytes ran out at any point so far. -/
def settled : Read Unit := fun c => if c.overrun then .error .truncated else .ok ((), c)

def fail (f : Fault) : Read α := fun _ => .error f

def lift (x : Except Fault α) : Read α := fun c => x.map (·, c)

/-- Read the same thing a number of times, up to the first failure. -/
def times (act : Read α) : Nat → Read (List α)
  | 0 => pure []
  | n + 1 => do
    let a ← act
    let more ← times act n
    return a :: more

/-- Name the place of a failure. -/
def at_ (place : Place) (act : Read α) : Read α := fun c => (act c).mapError (.within place)

end Read

/-- Read all of a block of bytes on its own. -/
def readBlock (act : Read α) (block : List UInt8) : Except Fault α :=
  (act (Cursor.start block)).map (·.1)

end ClassAtlas.ClassFile
