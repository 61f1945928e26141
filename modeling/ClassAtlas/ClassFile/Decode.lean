import ClassAtlas.ClassFile.Annotations
import ClassAtlas.ClassFile.Bytecode

/-!
A class file as a series of events in file order: the class, its fields, its methods each followed
by the calls of its body, and the attributes at the end. A reader decides after the class whether to
go on, and for each method whether to look into its body. The events before a fault are kept.
-/
namespace ClassAtlas.ClassFile

/-- Bits of the access flags. -/
def Access.bridge : Nat := 0x0040

def Access.interface : Nat := 0x0200

def Access.synthetic : Nat := 0x1000

def Access.annotationType : Nat := 0x2000

def Access.enum : Nat := 0x4000

/-- Whether all bits of a flag are set. -/
def Access.has (access flag : Nat) : Bool := access &&& flag == flag

/-- What is known of a class before its members. A class without superclass has an empty name there. -/
structure Header where
  major : Nat
  minor : Nat
  access : Nat
  name : String
  superName : String
  interfaces : List String
  deriving DecidableEq, Repr, Inhabited

/-- A field or a method. -/
structure Member where
  access : Nat
  name : String
  descriptor : String
  signature : String
  annotations : List AnnotationUse
  deriving Repr, Inhabited, BEq

/-- The source form of the generic signature, or of the descriptor when there is none. -/
def Member.typeName (m : Member) : String :=
  ClassFile.typeName (if m.signature.isEmpty then m.descriptor else m.signature)

/-- What stands after all members. -/
structure Attributes where
  signature : String
  sourceFile : String
  record : Bool
  annotations : List AnnotationUse
  deriving Repr, Inhabited, BEq

inductive Event where
  | header (header : Header)
  | field (field : Member)
  | method (method : Member)
  | call (call : Invocation)
  | finish (attributes : Attributes)
  deriving Repr, BEq

/-- The decisions of whoever reads a class file. -/
structure Interest where
  /-- Whether to read the members of a class. -/
  members : Header → Bool
  /-- Whether to look into the body of a method. -/
  body : Member → Bool

/-- The events so far, and a value or the fault that ended them. -/
structure Trace (α : Type) where
  events : List Event
  outcome : Except Fault α

namespace Trace

def bind (t : Trace α) (f : α → Trace β) : Trace β :=
  match t.outcome with
  | .ok a => ⟨t.events ++ (f a).events, (f a).outcome⟩
  | .error fault => ⟨t.events, .error fault⟩

instance : Monad Trace where
  pure a := ⟨[], .ok a⟩
  bind := Trace.bind

def emit (e : Event) : Trace Unit := ⟨[e], .ok ()⟩

def ofExcept (x : Except Fault α) : Trace α := ⟨[], x⟩

end Trace

/-- Name and body of an attribute. -/
def readAttribute (pool : ConstantPool) : Read (String × List UInt8) := do
  let name ← Read.lift (pool.utf8 (← Read.u2))
  let length ← Read.u4
  let block ← Read.bytes length
  Read.settled
  return (name, block)

/-- An attribute that is one index of a text. -/
def readTextAttribute (pool : ConstantPool) (block : List UInt8) : Except Fault String :=
  readBlock (do
    let index ← Read.u2
    Read.settled
    Read.lift (pool.utf8 index)) block

/-- The instructions inside a code attribute. -/
def readCodeAttribute (block : List UInt8) : Except Fault (List UInt8) :=
  readBlock (do
    let _ ← Read.u2
    let _ ← Read.u2
    let length ← Read.u4
    let code ← Read.bytes length
    Read.settled
    return code) block

/-- What an attribute says about a member; the last body of a method counts. -/
def applyMemberAttribute (pool : ConstantPool) (name : String) (block : List UInt8)
    (m : Member) (code : Option (List UInt8)) : Except Fault (Member × Option (List UInt8)) :=
  Except.mapError (.within (.attribute name)) <| match name with
    | "Signature" => do return ({ m with signature := ← readTextAttribute pool block }, code)
    | "RuntimeVisibleAnnotations" => do
      let more ← readAnnotations pool true block
      return ({ m with annotations := m.annotations ++ more }, code)
    | "RuntimeInvisibleAnnotations" => do
      let more ← readAnnotations pool false block
      return ({ m with annotations := m.annotations ++ more }, code)
    | "Code" => do return (m, some (← readCodeAttribute block))
    | _ => .ok (m, code)

def readMemberAttributes (pool : ConstantPool) :
    Nat → Member → Option (List UInt8) → Read (Member × Option (List UInt8))
  | 0, m, code => return (m, code)
  | count + 1, m, code => do
    let (name, block) ← readAttribute pool
    let (m, code) ← Read.lift (applyMemberAttribute pool name block m code)
    readMemberAttributes pool count m code

/-- A field or a method, with the instructions of its body if it has one. -/
def readMember (pool : ConstantPool) : Read (Member × Option (List UInt8)) := do
  let access ← Read.u2
  let name ← Read.lift (pool.utf8 (← Read.u2))
  let descriptor ← Read.lift (pool.utf8 (← Read.u2))
  let count ← Read.u2
  let result ← readMemberAttributes pool count ⟨access, name, descriptor, "", []⟩ none
  Read.settled
  return result

def applyClassAttribute (pool : ConstantPool) (name : String) (block : List UInt8)
    (a : Attributes) : Except Fault Attributes :=
  Except.mapError (.within (.attribute name)) <| match name with
    | "Signature" => do return { a with signature := ← readTextAttribute pool block }
    | "SourceFile" => do return { a with sourceFile := ← readTextAttribute pool block }
    | "Record" => .ok { a with record := true }
    | "RuntimeVisibleAnnotations" => do
      return { a with annotations := a.annotations ++ (← readAnnotations pool true block) }
    | "RuntimeInvisibleAnnotations" => do
      return { a with annotations := a.annotations ++ (← readAnnotations pool false block) }
    | _ => .ok a

def readClassAttributesFrom (pool : ConstantPool) : Nat → Attributes → Read Attributes
  | 0, a => return a
  | count + 1, a => do
    let (name, block) ← readAttribute pool
    let a ← Read.lift (applyClassAttribute pool name block a)
    readClassAttributesFrom pool count a

def readClassAttributes (pool : ConstantPool) : Read Attributes := do
  let count ← Read.u2
  let attributes ← readClassAttributesFrom pool count ⟨"", "", false, []⟩
  Read.settled
  return attributes

def magic : Nat := 0xcafebabe

/-- The interfaces of a class, as dotted names. -/
def readInterfaces (pool : ConstantPool) (count : Nat) : Read (List String) :=
  Read.times (do
    let name ← Read.lift (pool.className (← Read.u2))
    return dotted name) count

/-- The number that every class file starts with. -/
def readMagic : Read Unit := do
  let found ← Read.u4
  if found != magic then
    Read.settled
    Read.fail .badMagic

/-- The superclass; index zero stands for none. -/
def readSuperName (pool : ConstantPool) (index : Nat) : Read String :=
  if index = 0 then pure "" else Read.at_ .superClass (Read.lift (pool.className index))

/-- The constant pool and the header. -/
def readHeader : Read (ConstantPool × Header) := do
  readMagic
  let minor ← Read.u2
  let major ← Read.u2
  let pool ← ConstantPool.read
  let access ← Read.u2
  let thisIndex ← Read.u2
  let superIndex ← Read.u2
  Read.settled
  let name ← Read.at_ .thisClass (Read.lift (pool.className thisIndex))
  let superName ← readSuperName pool superIndex
  let count ← Read.u2
  let interfaces ← Read.at_ .interfaces (readInterfaces pool count)
  Read.settled
  return (pool, ⟨major, minor, access, dotted name, dotted superName, interfaces⟩)

/-- The fields from an index on, each one an event. -/
def traceFields (pool : ConstantPool) : Nat → Nat → Cursor → Trace Cursor
  | 0, _, c => pure c
  | count + 1, index, c => do
    let ((field, _), c) ← Trace.ofExcept (Read.at_ (.field index) (readMember pool) c)
    Trace.emit (.field field)
    traceFields pool count (index + 1) c

/-- The calls of a body, if the reader looks into it. -/
def traceBody (interest : Interest) (pool : ConstantPool) (m : Member)
    (code : Option (List UInt8)) : Trace Unit :=
  match code with
  | none => pure ()
  | some code =>
    if interest.body m then
      let (calls, fault) := walkCode pool 0 code
      ⟨calls.map .call, match fault with
        | none => .ok ()
        | some fault => .error (.within (.methodBody m.name m.descriptor) fault)⟩
    else pure ()

/-- The methods from an index on, each one an event followed by the calls of its body. -/
def traceMethods (interest : Interest) (pool : ConstantPool) : Nat → Nat → Cursor → Trace Cursor
  | 0, _, c => pure c
  | count + 1, index, c => do
    let ((method, code), c) ← Trace.ofExcept (Read.at_ (.method index) (readMember pool) c)
    Trace.emit (.method method)
    traceBody interest pool method code
    traceMethods interest pool count (index + 1) c

/-- The events of a class file. -/
def decode (interest : Interest) (bytes : List UInt8) : Trace Unit := do
  let ((pool, header), c) ← Trace.ofExcept (readHeader (Cursor.start bytes))
  Trace.emit (.header header)
  if interest.members header then
    let (fieldCount, c) ← Trace.ofExcept (Read.u2 c)
    let c ← traceFields pool fieldCount 0 c
    let (methodCount, c) ← Trace.ofExcept (Read.u2 c)
    let c ← traceMethods interest pool methodCount 0 c
    let (attributes, _) ← Trace.ofExcept (Read.at_ .classAttributes (readClassAttributes pool) c)
    Trace.emit (.finish attributes)

/-- A whole class without the bodies of its methods. -/
structure Class where
  header : Header
  fields : List Member
  methods : List Member
  attributes : Attributes
  deriving Repr, Inhabited, BEq

/-- A record says so in an attribute or by its superclass. -/
def Class.isRecord (c : Class) : Bool :=
  c.attributes.record || c.header.superName == "java.lang.Record"

/-- Add what an event tells to a class. -/
def Class.note (c : Class) : Event → Class
  | .header header => { c with header }
  | .field field => { c with fields := c.fields ++ [field] }
  | .method method => { c with methods := c.methods ++ [method] }
  | .call _ => c
  | .finish attributes => { c with attributes }

/-- Everything but the method bodies. -/
def Interest.structure : Interest := ⟨fun _ => true, fun _ => false⟩

def parse (bytes : List UInt8) : Except Fault Class :=
  let trace := decode .structure bytes
  trace.outcome.map fun _ =>
    trace.events.foldl Class.note ⟨default, [], [], ⟨"", "", false, []⟩⟩

end ClassAtlas.ClassFile
