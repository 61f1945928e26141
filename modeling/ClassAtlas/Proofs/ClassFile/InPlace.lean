import ClassAtlas.ClassFile.Decode

/-!
Decoding in place. The bytes stay where they are: a reader keeps a position in them, looks at bytes by
their index, cuts slices out and moves on. All of this is partial. An index or a slice outside the
bytes, a slot outside the constant pool, a move backwards or past the end, and a loop that does not end
in the steps it is given leave a run without any result, which is not the same as a fault.
-/
namespace ClassAtlas.ClassFile.InPlace

/-- So many bytes from an index on, looked at one by one. -/
def wordAt? (data : List UInt8) : Nat → Nat → Option (List UInt8)
  | _, 0 => some []
  | i, n + 1 => do
    let b ← data[i]?
    let more ← wordAt? data (i + 1) n
    return b :: more

/-- The bytes from one index up to another. -/
def slice? (data : List UInt8) (i j : Nat) : Option (List UInt8) :=
  if i ≤ j ∧ j ≤ data.length then some ((data.drop i).take (j - i)) else none

/-- The slots with one of them filled. -/
def setSlot? (slots : Array Constant) (i : Nat) (c : Constant) : Option (Array Constant) :=
  if h : i < slots.size then some (slots.set i c h) else none

/-- A value or a fault, or no result at all. -/
abbrev Partial := ExceptT Fault Option

/-- What a partial operation gives; without it there is no result. -/
def must (x : Option α) : Partial α := Option.map Except.ok x

/-- Bytes and a position in them. Once more was asked for than is left, nothing is read any more. -/
structure Reader where
  data : List UInt8
  pos : Nat
  failed : Bool

def Reader.start (data : List UInt8) : Reader := ⟨data, 0, false⟩

abbrev Run := StateT Reader Partial

namespace Run

def lift (x : Partial α) : Run α := fun r => Option.map (Except.map (·, r)) x

def fail (f : Fault) : Run α := fun _ => some (.error f)

/-- Name the place of a fault. -/
def at_ (place : Place) (act : Run α) : Run α := fun r =>
  Option.map (Except.mapError (Fault.within place)) (act r)

/-- A run of its own over a block of bytes. -/
def nested (block : List UInt8) (act : Run α) : Run α := fun r =>
  Option.map (Except.map fun p => (p.1, r)) (act (.start block))

def reader : Run Reader := fun r => some (.ok (r, r))

/-- Whether so many bytes are left. If not, the reader fails from here on. -/
def need (n : Nat) : Run Bool := fun r =>
  if r.failed then some (.ok (false, r))
  else if r.data.length < r.pos + n then some (.ok (false, { r with failed := true }))
  else some (.ok (true, r))

/-- Move to a position that is neither before the present one nor past the end. -/
def moveTo (pos : Nat) : Run Unit := fun r =>
  if r.pos ≤ pos ∧ pos ≤ r.data.length then some (.ok ((), { r with pos })) else none

/-- The next bytes, one by one; none after a failure. -/
def word (n : Nat) : Run (List UInt8) := do
  if ← need n then
    let r ← reader
    let bytes ← lift (must (wordAt? r.data r.pos n))
    moveTo (r.pos + n)
    return bytes
  else return []

/-- The next bytes as one slice; none after a failure. -/
def slice (n : Nat) : Run (List UInt8) := do
  if ← need n then
    let r ← reader
    let bytes ← lift (must (slice? r.data r.pos (r.pos + n)))
    moveTo (r.pos + n)
    return bytes
  else return []

def number (n : Nat) : Run Nat := do return bigEndian (← word n)

def u1 : Run Nat := number 1

def u2 : Run Nat := number 2

def u4 : Run Nat := number 4

/-- Fail if more was asked for than was left. -/
def settled : Run Unit := fun r => some (if r.failed then .error .truncated else .ok ((), r))

/-- The same thing a number of times, up to the first fault. -/
def times (act : Run α) : Nat → Run (List α)
  | 0 => pure []
  | n + 1 => do
    let a ← act
    let more ← times act n
    return a :: more

end Run

open Run

/-! The constant pool -/

/-- The UTF-16 units that the bytes from an index on spell. -/
def unitsAt (bytes : List UInt8) : Nat → Nat → Option (List Nat)
  | 0, i => if i < bytes.length then none else some []
  | fuel + 1, i =>
    if i < bytes.length then do
      let a ← bytes[i]?
      if a < 0x80 then
        return a.toNat :: (← unitsAt bytes fuel (i + 1))
      else if a &&& 0xe0 == 0xc0 && i + 1 < bytes.length then
        let b ← bytes[i + 1]?
        return ((a &&& 0x1f).toNat * 64 + (b &&& 0x3f).toNat) :: (← unitsAt bytes fuel (i + 2))
      else if a &&& 0xf0 == 0xe0 && i + 2 < bytes.length then
        let b ← bytes[i + 1]?
        let c ← bytes[i + 2]?
        return ((a &&& 0x0f).toNat * 4096 + (b &&& 0x3f).toNat * 64 + (c &&& 0x3f).toNat) ::
          (← unitsAt bytes fuel (i + 3))
      else return 0xfffd :: (← unitsAt bytes fuel (i + 1))
    else some []

def text (bytes : List UInt8) : Partial String :=
  if bytes.all (· < 0x80) then pure (String.ofList (bytes.map fun b => Char.ofNat b.toNat))
  else must ((unitsAt bytes bytes.length 0).map fun units =>
    String.ofList (ModifiedUtf8.ofUnits units))

def readTaggedConstant (index : Nat) : Nat → Run Constant
  | 1 => do
    let n ← u2
    let bytes ← slice n
    return .utf8 (← lift (text bytes))
  | 3 => do return .integer (signedBigEndian (← word 4))
  | 4 => do return .float (.ofBits32 (UInt32.ofNat (← number 4)))
  | 5 => do return .long (signedBigEndian (← word 8))
  | 6 => do return .double (.ofBits (UInt64.ofNat (← number 8)))
  | 7 => do return .classRef (← u2)
  | 8 => do return .string (← u2)
  | 9 => do return .fieldRef (← u2) (← u2)
  | 10 => do return .methodRef (← u2) (← u2)
  | 11 => do return .interfaceMethodRef (← u2) (← u2)
  | 12 => do return .nameAndType (← u2) (← u2)
  | 15 => do return .methodHandle (← u1) (← u2)
  | 16 => do return .methodType (← u2)
  | 17 => do return .dynamic (← u2) (← u2)
  | 18 => do return .invokeDynamic (← u2) (← u2)
  | 19 => do return .module (← u2)
  | 20 => do return .package (← u2)
  | tag => do
    settled
    fail (.unknownConstant tag index)

def readConstant (index : Nat) : Run Constant := do
  let constant ← readTaggedConstant index (← u1)
  settled
  return constant

/-- Fill the slots from an index on. A wide constant leaves the slot behind it as it is. -/
def fillSlots : Nat → Nat → Array Constant → Run (Array Constant)
  | 0, index, slots => lift (must (if index < slots.size then none else some slots))
  | fuel + 1, index, slots =>
    if index < slots.size then do
      let constant ← readConstant index
      let slots ← lift (must (setSlot? slots index constant))
      fillSlots fuel (if constant.isWide then index + 2 else index + 1) slots
    else pure slots

def readPool : Run ConstantPool := do
  let count ← u2
  let slots ← fillSlots count 1 (Array.replicate count .unused)
  settled
  return ⟨slots⟩

/-- What the constant at an index is seen as. -/
def look (pool : ConstantPool) (index : Nat) (view : Constant → Partial α) : Partial α :=
  if index = 0 ∨ pool.slots.size ≤ index then throw (.indexOutOfRange index)
  else must pool.slots[index]? >>= view

def utf8 (pool : ConstantPool) (index : Nat) : Partial String :=
  look pool index fun
    | .utf8 text => pure text
    | other => throw (.wrongConstant index other.tag 1)

def integer (pool : ConstantPool) (index : Nat) : Partial Int :=
  look pool index fun
    | .integer value => pure value
    | other => throw (.wrongConstant index other.tag 3)

def float (pool : ConstantPool) (index : Nat) : Partial Decimal.Binary64 :=
  look pool index fun
    | .float value => pure value
    | other => throw (.wrongConstant index other.tag 4)

def long (pool : ConstantPool) (index : Nat) : Partial Int :=
  look pool index fun
    | .long value => pure value
    | other => throw (.wrongConstant index other.tag 5)

def double (pool : ConstantPool) (index : Nat) : Partial Decimal.Binary64 :=
  look pool index fun
    | .double value => pure value
    | other => throw (.wrongConstant index other.tag 6)

def className (pool : ConstantPool) (index : Nat) : Partial String :=
  look pool index fun
    | .classRef name => utf8 pool name
    | other => throw (.wrongConstant index other.tag 7)

def nameAndType (pool : ConstantPool) (index : Nat) : Partial (Nat × Nat) :=
  look pool index fun
    | .nameAndType name descriptor => pure (name, descriptor)
    | other => throw (.wrongConstant index other.tag 12)

def resolveMethod (pool : ConstantPool) (owner nameType : Nat) (ofInterface : Bool) :
    Partial ConstantPool.MethodRef := do
  let owner ← className pool owner
  let (name, descriptor) ← nameAndType pool nameType
  return ⟨owner, ← utf8 pool name, ← utf8 pool descriptor, ofInterface⟩

def methodRef (pool : ConstantPool) (index : Nat) : Partial ConstantPool.MethodRef :=
  look pool index fun
    | .methodRef owner nameType => resolveMethod pool owner nameType false
    | .interfaceMethodRef owner nameType => resolveMethod pool owner nameType true
    | _ => throw (.notMethodReference index)

/-! Annotations -/

/-- An annotation while it is read: the names in the order of their first places, and apart from them
the values by name. -/
structure Table where
  names : List String
  value? : String → Option ElementValue

namespace Table

def empty : Table := ⟨[], fun _ => none⟩

/-- A name that has no value yet comes last; the value replaces the one that was there. -/
def put (t : Table) (name : String) (value : ElementValue) : Table :=
  ⟨if (t.value? name).isSome then t.names else t.names ++ [name],
    fun n => if n = name then some value else t.value? n⟩

/-- Names with values put in one after the other. -/
def filled (pairs : List (String × ElementValue)) : Table :=
  pairs.foldl (fun t p => t.put p.1 p.2) empty

/-- Each name with its value, which has to be there. -/
def pairs? (t : Table) : Option (List (String × ElementValue)) :=
  t.names.mapM fun name => (t.value? name).map (name, ·)

end Table

def readAnnotationWith (pool : ConstantPool) (element : Run ElementValue) :
    Run (String × List (String × ElementValue)) := do
  let type ← lift (utf8 pool (← u2))
  let count ← u2
  let pairs ← times (do
    let name ← lift (utf8 pool (← u2))
    return (name, ← element)) count
  settled
  let values ← lift (must (Table.filled pairs).pairs?)
  return (typeName type, values)

def readTaggedElement (pool : ConstantPool) (visible : Bool) (element : Run ElementValue)
    (tag : Nat) : Run ElementValue :=
  match Char.ofNat tag with
  | 'B' => do return .integral .byte (← lift (integer pool (← u2)))
  | 'I' => do return .integral .int (← lift (integer pool (← u2)))
  | 'S' => do return .integral .short (← lift (integer pool (← u2)))
  | 'Z' => do return .boolean ((← lift (integer pool (← u2))) != 0)
  | 'C' => do return .character (characterOf (← lift (integer pool (← u2))))
  | 'J' => do return .integral .long (← lift (long pool (← u2)))
  | 'F' => do return .float (← lift (float pool (← u2)))
  | 'D' => do return .double (← lift (double pool (← u2)))
  | 's' => do return .text (← lift (utf8 pool (← u2)))
  | 'e' => do
    let type ← lift (utf8 pool (← u2))
    let name ← lift (utf8 pool (← u2))
    return .enum (typeName type) name
  | 'c' => do return .classRef (typeName (← lift (utf8 pool (← u2))))
  | '@' => do
    let (type, values) ← readAnnotationWith pool element
    return .nested type visible values
  | '[' => do
    let count ← u2
    return .array (← times element count)
  | _ => fail (.unknownElement tag)

/-- One annotation value. Nothing but the steps it is given limits how deep values nest. -/
def readElement (pool : ConstantPool) (visible : Bool) : Nat → Run ElementValue
  | 0 => lift (must none)
  | fuel + 1 => do
    let tag ← u1
    settled
    let value ← readTaggedElement pool visible (readElement pool visible fuel) tag
    settled
    return value

def readAnnotations (pool : ConstantPool) (visible : Bool) (block : List UInt8) :
    Run (List AnnotationUse) :=
  nested block (do
    let count ← u2
    let annotations ← times (do
      let (type, values) ←
        readAnnotationWith pool (readElement pool visible (block.length + 1))
      return ({ type, visible, values } : AnnotationUse)) count
    settled
    return annotations)

/-! Members and attributes -/

def readAttribute (pool : ConstantPool) : Run (String × List UInt8) := do
  let name ← lift (utf8 pool (← u2))
  let length ← u4
  let block ← slice length
  settled
  return (name, block)

def readTextAttribute (pool : ConstantPool) (block : List UInt8) : Run String :=
  nested block (do
    let index ← u2
    settled
    lift (utf8 pool index))

def readCodeAttribute (block : List UInt8) : Run (List UInt8) :=
  nested block (do
    let _ ← u2
    let _ ← u2
    let length ← u4
    let code ← slice length
    settled
    return code)

def applyMemberAttribute (pool : ConstantPool) (name : String) (block : List UInt8) (m : Member)
    (code : Option (List UInt8)) : Run (Member × Option (List UInt8)) :=
  at_ (.attribute name) <| match name with
    | "Signature" => do return ({ m with signature := ← readTextAttribute pool block }, code)
    | "RuntimeVisibleAnnotations" => do
      let more ← readAnnotations pool true block
      return ({ m with annotations := m.annotations ++ more }, code)
    | "RuntimeInvisibleAnnotations" => do
      let more ← readAnnotations pool false block
      return ({ m with annotations := m.annotations ++ more }, code)
    | "Code" => do return (m, some (← readCodeAttribute block))
    | _ => pure (m, code)

def readMemberAttributes (pool : ConstantPool) :
    Nat → Member → Option (List UInt8) → Run (Member × Option (List UInt8))
  | 0, m, code => return (m, code)
  | count + 1, m, code => do
    let (name, block) ← readAttribute pool
    let (m, code) ← applyMemberAttribute pool name block m code
    readMemberAttributes pool count m code

def readMember (pool : ConstantPool) : Run (Member × Option (List UInt8)) := do
  let access ← u2
  let name ← lift (utf8 pool (← u2))
  let descriptor ← lift (utf8 pool (← u2))
  let count ← u2
  let result ← readMemberAttributes pool count ⟨access, name, descriptor, "", []⟩ none
  settled
  return result

def applyClassAttribute (pool : ConstantPool) (name : String) (block : List UInt8)
    (a : Attributes) : Run Attributes :=
  at_ (.attribute name) <| match name with
    | "Signature" => do return { a with signature := ← readTextAttribute pool block }
    | "SourceFile" => do return { a with sourceFile := ← readTextAttribute pool block }
    | "Record" => pure { a with record := true }
    | "RuntimeVisibleAnnotations" => do
      return { a with annotations := a.annotations ++ (← readAnnotations pool true block) }
    | "RuntimeInvisibleAnnotations" => do
      return { a with annotations := a.annotations ++ (← readAnnotations pool false block) }
    | _ => pure a

def readClassAttributesFrom (pool : ConstantPool) : Nat → Attributes → Run Attributes
  | 0, a => return a
  | count + 1, a => do
    let (name, block) ← readAttribute pool
    let a ← applyClassAttribute pool name block a
    readClassAttributesFrom pool count a

def readClassAttributes (pool : ConstantPool) : Run Attributes := do
  let count ← u2
  let attributes ← readClassAttributesFrom pool count ⟨"", "", false, []⟩
  settled
  return attributes

def readMagic : Run Unit := do
  let found ← u4
  if found != magic then
    settled
    fail .badMagic

def readSuperName (pool : ConstantPool) (index : Nat) : Run String :=
  if index = 0 then pure "" else at_ .superClass (lift (className pool index))

def readInterfaces (pool : ConstantPool) (count : Nat) : Run (List String) :=
  times (do
    let name ← lift (className pool (← u2))
    return dotted name) count

def readHeader : Run (ConstantPool × Header) := do
  readMagic
  let minor ← u2
  let major ← u2
  let pool ← readPool
  let access ← u2
  let thisIndex ← u2
  let superIndex ← u2
  settled
  let name ← at_ .thisClass (lift (className pool thisIndex))
  let superName ← readSuperName pool superIndex
  let count ← u2
  let interfaces ← at_ .interfaces (readInterfaces pool count)
  settled
  return (pool, ⟨major, minor, access, dotted name, dotted superName, interfaces⟩)

/-! Method bodies -/

/-- The signed word at an index, if the code goes on so far. -/
def signedAt (code : List UInt8) (i : Nat) : Partial (Option Int) :=
  if code.length < i + 4 then pure none
  else do return some (signedBigEndian (← must (wordAt? code i 4)))

/-- The length of the instruction at an index. -/
def lengthAt (code : List UInt8) (pc : Nat) : Partial Nat := do
  let op ← must code[pc]?
  let padding := switchPadding pc
  let base := pc + 1 + padding
  match extent op.toNat with
  | .fixed n => return n
  | .undefined => throw (.undefinedOpcode op.toNat pc)
  | .wide =>
    if code.length ≤ pc + 1 then throw .truncated
    else return if (← must code[pc + 1]?) = 0x84 then 6 else 4
  | .tableSwitch =>
    match ← signedAt code (base + 4), ← signedAt code (base + 8) with
    | some low, some high =>
      if high < low then throw (.malformedTableSwitch pc)
      else return 1 + padding + 12 + 4 * (high - low + 1).toNat
    | _, _ => throw (.malformedTableSwitch pc)
  | .lookupSwitch =>
    match ← signedAt code (base + 4) with
    | some pairs =>
      if pairs < 0 then throw (.malformedLookupSwitch pc)
      else return 1 + padding + 8 + 8 * pairs.toNat
    | none => throw (.malformedLookupSwitch pc)

/-- The call that the instruction at an index makes, if it makes one. -/
def callAt (pool : ConstantPool) (code : List UInt8) (pc opcode : Nat) :
    Partial (Option Invocation) :=
  if isInvoke opcode then do
    let index ← must (wordAt? code (pc + 1) 2)
    let method ← methodRef pool (bigEndian index)
    return some ⟨opcode, dotted method.owner, method.name, method.descriptor,
      method.ofInterface, pc⟩
  else pure none

/-- The calls of a body from an index on, up to its end or the first fault. -/
def walk (pool : ConstantPool) (code : List UInt8) :
    Nat → Nat → Option (List Invocation × Option Fault)
  | 0, pc => if pc < code.length then none else some ([], none)
  | fuel + 1, pc =>
    if pc < code.length then do
      let op ← code[pc]?
      match ← (lengthAt code pc).run with
      | .error fault => return ([], some fault)
      | .ok n =>
        if code.length < pc + n then return ([], some (.codeOverrun op.toNat pc))
        else
          match ← (callAt pool code pc op.toNat).run with
          | .error fault => return ([], some fault)
          | .ok call =>
            let later ← walk pool code fuel (pc + n)
            return (call.toList ++ later.1, later.2)
    else some ([], none)

/-! Events -/

/-- The events of a run, unless it has no result. -/
def Report (α : Type) := Option (Trace α)

namespace Report

/-- Go on after the events so far, if they did not end in a fault. -/
def bind (x : Report α) (f : α → Report β) : Report β :=
  Option.bind x fun t => match t.outcome with
    | .ok a => Option.map (fun u => ⟨t.events ++ u.events, u.outcome⟩) (f a)
    | .error fault => some ⟨t.events, .error fault⟩

instance : Monad Report where
  pure a := some (Pure.pure a)
  bind := Report.bind

def read (act : Run α) (r : Reader) : Report (α × Reader) := Option.map Trace.ofExcept (act r)

def emit (e : Event) : Report Unit := some (Trace.emit e)

end Report

def traceFields (pool : ConstantPool) : Nat → Nat → Reader → Report Reader
  | 0, _, r => pure r
  | count + 1, index, r => do
    let ((field, _), r) ← Report.read (at_ (.field index) (readMember pool)) r
    Report.emit (.field field)
    traceFields pool count (index + 1) r

def traceBody (interest : Interest) (pool : ConstantPool) (m : Member)
    (code : Option (List UInt8)) : Report Unit :=
  match code with
  | none => pure ()
  | some code =>
    if interest.body m then
      Option.map (fun found => ⟨found.1.map .call, match found.2 with
        | none => .ok ()
        | some fault => .error (.within (.methodBody m.name m.descriptor) fault)⟩)
        (walk pool code code.length 0)
    else pure ()

def traceMethods (interest : Interest) (pool : ConstantPool) : Nat → Nat → Reader → Report Reader
  | 0, _, r => pure r
  | count + 1, index, r => do
    let ((method, code), r) ← Report.read (at_ (.method index) (readMember pool)) r
    Report.emit (.method method)
    traceBody interest pool method code
    traceMethods interest pool count (index + 1) r

def traceMembers (interest : Interest) (pool : ConstantPool) (r : Reader) : Report Reader := do
  let (fieldCount, r) ← Report.read u2 r
  let r ← traceFields pool fieldCount 0 r
  let (methodCount, r) ← Report.read u2 r
  let r ← traceMethods interest pool methodCount 0 r
  let (attributes, r) ← Report.read (at_ .classAttributes (readClassAttributes pool)) r
  Report.emit (.finish attributes)
  return r

def traceClass (interest : Interest) (r : Reader) : Report Reader := do
  let ((pool, header), r) ← Report.read readHeader r
  Report.emit (.header header)
  if interest.members header then traceMembers interest pool r else pure r

/-- The events of a class file, decoded in place. -/
def decode (interest : Interest) (bytes : List UInt8) : Report Unit := do
  let _ ← traceClass interest (.start bytes)
  return ()

end ClassAtlas.ClassFile.InPlace
