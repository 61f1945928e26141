import ClassAtlas.ClassFile.ConstantPool
import ClassAtlas.ClassFile.TypeName

/-!
The instructions of a method body. A body is walked from its first byte, one instruction after the
other, and the calls among them are reported with the method they name.
-/
namespace ClassAtlas.ClassFile

/-- How long an instruction is, by its opcode. -/
inductive Extent where
  | fixed (bytes : Nat)
  | wide
  | tableSwitch
  | lookupSwitch
  | undefined
  deriving DecidableEq, Repr

def extent (opcode : Nat) : Extent :=
  if opcode ≤ 0x0f then .fixed 1
  else if opcode = 0x10 then .fixed 2
  else if opcode = 0x11 then .fixed 3
  else if opcode = 0x12 then .fixed 2
  else if opcode ≤ 0x14 then .fixed 3
  else if opcode ≤ 0x19 then .fixed 2
  else if opcode ≤ 0x35 then .fixed 1
  else if opcode ≤ 0x3a then .fixed 2
  else if opcode ≤ 0x83 then .fixed 1
  else if opcode = 0x84 then .fixed 3
  else if opcode ≤ 0x98 then .fixed 1
  else if opcode ≤ 0xa8 then .fixed 3
  else if opcode = 0xa9 then .fixed 2
  else if opcode = 0xaa then .tableSwitch
  else if opcode = 0xab then .lookupSwitch
  else if opcode ≤ 0xb1 then .fixed 1
  else if opcode ≤ 0xb8 then .fixed 3
  else if opcode ≤ 0xba then .fixed 5
  else if opcode = 0xbb then .fixed 3
  else if opcode = 0xbc then .fixed 2
  else if opcode = 0xbd then .fixed 3
  else if opcode ≤ 0xbf then .fixed 1
  else if opcode ≤ 0xc1 then .fixed 3
  else if opcode ≤ 0xc3 then .fixed 1
  else if opcode = 0xc4 then .wide
  else if opcode = 0xc5 then .fixed 4
  else if opcode ≤ 0xc7 then .fixed 3
  else if opcode ≤ 0xc9 then .fixed 5
  else if opcode = 0xca then .fixed 1
  else if opcode < 0xfe then .undefined
  else .fixed 1

/-- A call with the method it names and its place in the body. -/
structure Invocation where
  opcode : Nat
  owner : String
  name : String
  descriptor : String
  ofInterface : Bool
  offset : Nat
  deriving DecidableEq, Repr

/-- Calls of methods, those through a class or an interface and those of static ones. -/
def isInvoke (opcode : Nat) : Bool := 0xb6 ≤ opcode && opcode ≤ 0xb9

/-- The signed word of four bytes at a place. -/
def signedWord? (offset : Nat) (bytes : List UInt8) : Option Int :=
  (takeExactly? 4 (bytes.drop offset)).map fun (word, _) => signedBigEndian word

/-- Blanks after the opcode of a switch, up to a multiple of four from the start of the body. -/
def switchPadding (offset : Nat) : Nat := (4 - (offset + 1) % 4) % 4

/-- The length of the instruction at an offset, from its opcode and the bytes after it. -/
def instructionLength (offset opcode : Nat) (operands : List UInt8) : Except Fault Nat :=
  match extent opcode with
  | .fixed n => .ok n
  | .undefined => .error (.undefinedOpcode opcode offset)
  | .wide =>
    match operands with
    | [] => .error .truncated
    | modified :: _ => .ok (if modified = 0x84 then 6 else 4)
  | .tableSwitch =>
    let padding := switchPadding offset
    match signedWord? (padding + 4) operands, signedWord? (padding + 8) operands with
    | some low, some high =>
      if high < low then .error (.malformedTableSwitch offset)
      else .ok (1 + padding + 12 + 4 * (high - low + 1).toNat)
    | _, _ => .error (.malformedTableSwitch offset)
  | .lookupSwitch =>
    let padding := switchPadding offset
    match signedWord? (padding + 4) operands with
    | some pairs =>
      if pairs < 0 then .error (.malformedLookupSwitch offset)
      else .ok (1 + padding + 8 + 8 * pairs.toNat)
    | none => .error (.malformedLookupSwitch offset)

/-- Whether a list has at least so many elements. -/
def hasAtLeast : Nat → List α → Bool
  | 0, _ => true
  | _ + 1, [] => false
  | n + 1, _ :: xs => hasAtLeast n xs

/-- The call that an instruction makes, if it makes one. -/
def invocation? (pool : ConstantPool) (offset opcode : Nat) (operands : List UInt8) :
    Except Fault (Option Invocation) :=
  if isInvoke opcode then do
    let method ← pool.methodRef (bigEndian (operands.take 2))
    return some ⟨opcode, dotted method.owner, method.name, method.descriptor,
      method.ofInterface, offset⟩
  else .ok none

/-- The calls of a body from an offset on, up to its end or the first fault. A number of bytes at the
front still belong to the instruction before. -/
def walkFrom (pool : ConstantPool) :
    Nat → Nat → List UInt8 → List Invocation × Option Fault
  | _, _, [] => ([], none)
  | offset, skip + 1, _ :: rest => walkFrom pool (offset + 1) skip rest
  | offset, 0, op :: operands =>
    match instructionLength offset op.toNat operands with
    | .error fault => ([], some fault)
    | .ok n =>
      if hasAtLeast n (op :: operands) then
        match invocation? pool offset op.toNat operands with
        | .error fault => ([], some fault)
        | .ok call =>
          let (calls, fault) := walkFrom pool (offset + 1) (n - 1) operands
          (call.toList ++ calls, fault)
      else ([], some (.codeOverrun op.toNat offset))

/-- The calls of a body whose first instruction is at an offset. -/
def walkCode (pool : ConstantPool) (offset : Nat) (code : List UInt8) :
    List Invocation × Option Fault :=
  walkFrom pool offset 0 code

end ClassAtlas.ClassFile
