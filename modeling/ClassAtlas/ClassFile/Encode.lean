import ClassAtlas.ClassFile.Cursor
import ClassAtlas.ClassFile.TypeName
import ClassAtlas.Text.Utf8

/-!
Class files made from a description of a class. Every text and reference that is written goes into
the constant pool once, in the order in which it is first needed. Counts and indices are words of
two bytes and wrap.
-/
namespace ClassAtlas.ClassFile

inductive ElementSpec where
  | text (value : String)
  | int (value : Int)
  | long (value : Int)
  | boolean (value : Bool)
  | enum (type name : String)
  | nested (type : String) (values : List (String × ElementSpec))
  | list (items : List ElementSpec)
  deriving Repr, Inhabited, BEq

structure AnnotationSpec where
  type : String
  invisible : Bool
  values : List (String × ElementSpec)
  deriving Repr, Inhabited, BEq

structure CallSpec where
  opcode : Nat
  owner : String
  name : String
  descriptor : String
  deriving DecidableEq, Repr

structure FieldSpec where
  access : Nat
  name : String
  descriptor : String
  signature : String
  annotations : List AnnotationSpec
  deriving Repr, Inhabited, BEq

structure MethodSpec where
  access : Nat
  name : String
  descriptor : String
  annotations : List AnnotationSpec
  calls : List CallSpec
  deriving Repr, Inhabited, BEq

/-- A class to be written. An empty superclass is left out. -/
structure ClassSpec where
  name : String
  superName : String
  access : Nat
  interfaces : List String
  annotations : List AnnotationSpec
  fields : List FieldSpec
  methods : List MethodSpec
  record : Bool
  deriving Repr, Inhabited, BEq

/-- A public class below the root of the class hierarchy. -/
def ClassSpec.ofName (name : String) : ClassSpec :=
  ⟨name, "java.lang.Object", 0x0021, [], [], [], [], false⟩

def FieldSpec.defaultAccess : Nat := 0x0002

def MethodSpec.defaultAccess : Nat := 0x0001

/-- Under what a constant is found again. A method is found by the texts of its parts run together,
so two methods whose parts run together alike share a slot. -/
inductive ConstantKey where
  | utf8 (text : String)
  | integer (bytes : List UInt8)
  | long (bytes : List UInt8)
  | classRef (dotted : String)
  | nameAndType (joined : String)
  | methodRef (joined : String)
  | interfaceMethodRef (joined : String)
  deriving DecidableEq, Repr

/-- A constant pool that is being filled. -/
structure PoolBuilder where
  written : List (List UInt8)
  index : List (ConstantKey × UInt16)
  next : UInt16

abbrev Build := StateM PoolBuilder

def word2 (n : Nat) : List UInt8 := toBigEndian 2 n

def word4 (n : Nat) : List UInt8 := toBigEndian 4 n

namespace PoolBuilder

def empty : PoolBuilder := ⟨[], [], 1⟩

/-- The slot of a constant, a new one unless it is there. -/
def slot (key : ConstantKey) (bytes : List UInt8) (slots : UInt16) : Build Nat := fun p =>
  match p.index.lookup key with
  | some i => (i.toNat, p)
  | none =>
    (p.next.toNat, ⟨bytes :: p.written, (key, p.next) :: p.index, p.next + slots⟩)

def utf8 (s : String) : Build Nat :=
  let bytes := Text.Utf8.encode s
  slot (.utf8 s) (1 :: word2 bytes.length ++ bytes) 1

def integer (n : Int) : Build Nat :=
  let bytes := word4 (n % (Nat.pow 2 32 : Int)).toNat
  slot (.integer bytes) (3 :: bytes) 1

def long (n : Int) : Build Nat :=
  let bytes := toBigEndian 8 (n % (Nat.pow 2 64 : Int)).toNat
  slot (.long bytes) (5 :: bytes) 2

def classRef (dotted : String) : Build Nat := do
  let name ← utf8 (slashed dotted)
  slot (.classRef dotted) (7 :: word2 name) 1

def methodRef (owner name descriptor : String) (ofInterface : Bool) : Build Nat := do
  let ownerSlot ← classRef owner
  let nameSlot ← utf8 name
  let descriptorSlot ← utf8 descriptor
  let typed ← slot (.nameAndType (name ++ ":" ++ descriptor))
    (12 :: word2 nameSlot ++ word2 descriptorSlot) 1
  let joined := owner ++ "." ++ name ++ descriptor
  if ofInterface then slot (.interfaceMethodRef joined) (11 :: word2 ownerSlot ++ word2 typed) 1
  else slot (.methodRef joined) (10 :: word2 ownerSlot ++ word2 typed) 1

def bytes (p : PoolBuilder) : List UInt8 := word2 p.next.toNat ++ p.written.reverse.flatten

end PoolBuilder

/-- The descriptor of a class type. -/
def classDescriptor (dotted : String) : String := "L" ++ slashed dotted ++ ";"

mutual

def encodeElement : ElementSpec → Build (List UInt8)
  | .text s => return 115 :: word2 (← PoolBuilder.utf8 s)
  | .int n => return 73 :: word2 (← PoolBuilder.integer n)
  | .long n => return 74 :: word2 (← PoolBuilder.long n)
  | .boolean b => return 90 :: word2 (← PoolBuilder.integer (if b then 1 else 0))
  | .enum type name => do
    let type ← PoolBuilder.utf8 (classDescriptor type)
    let name ← PoolBuilder.utf8 name
    return 101 :: word2 type ++ word2 name
  | .nested type values => do
    let slot ← PoolBuilder.utf8 (classDescriptor type)
    return 64 :: word2 slot ++ word2 values.length ++ (← encodePairs values)
  | .list items => return 91 :: word2 items.length ++ (← encodeElements items)

def encodePairs : List (String × ElementSpec) → Build (List UInt8)
  | [] => return []
  | (name, value) :: more => do
    let slot ← PoolBuilder.utf8 name
    let value ← encodeElement value
    return word2 slot ++ value ++ (← encodePairs more)

def encodeElements : List ElementSpec → Build (List UInt8)
  | [] => return []
  | item :: more => return (← encodeElement item) ++ (← encodeElements more)

end

/-- Run encoders one after the other and join what they write. -/
def encodeAll (encode : α → Build (List UInt8)) : List α → Build (List UInt8)
  | [] => return []
  | a :: more => return (← encode a) ++ (← encodeAll encode more)

def encodeUse (a : AnnotationSpec) : Build (List UInt8) := do
  let slot ← PoolBuilder.utf8 (classDescriptor a.type)
  return word2 slot ++ word2 a.values.length ++ (← encodePairs a.values)

def encodeAttribute (name : String) (block : List UInt8) : Build (List UInt8) := do
  return word2 (← PoolBuilder.utf8 name) ++ word4 block.length ++ block

/-- The attribute of some annotations; none if there are none. -/
def encodeAnnotationGroup (name : String) (annotations : List AnnotationSpec) :
    Build (List (List UInt8)) := do
  if annotations.isEmpty then return []
  else
    let block ← encodeAll encodeUse annotations
    return [← encodeAttribute name (word2 annotations.length ++ block)]

/-- The attributes of annotations, the visible ones first. -/
def encodeAnnotations (annotations : List AnnotationSpec) : Build (List (List UInt8)) := do
  let visible ← encodeAnnotationGroup "RuntimeVisibleAnnotations"
    (annotations.filter (!·.invisible))
  let invisible ← encodeAnnotationGroup "RuntimeInvisibleAnnotations"
    (annotations.filter (·.invisible))
  return visible ++ invisible

/-- A call on the receiver: load it, then invoke. -/
def encodeCall (c : CallSpec) : Build (List UInt8) := do
  if c.opcode = 0xb9 then
    return [0x2a, 0xb9] ++ word2 (← PoolBuilder.methodRef c.owner c.name c.descriptor true) ++ [1, 0]
  else
    return [0x2a, UInt8.ofNat c.opcode] ++
      word2 (← PoolBuilder.methodRef c.owner c.name c.descriptor false)

/-- The end of every body: a switch with one case, aligned as switches are, and a return. -/
def bodyEnd (offset : Nat) : List UInt8 :=
  let padding := (4 - (offset + 2) % 4) % 4
  let jump := word4 (1 + padding + 16)
  [0x03, 0xaa] ++ List.replicate padding 0 ++ jump ++ word4 0 ++ word4 0 ++ jump ++ [0xb1]

def encodeBody (calls : List CallSpec) : Build (List UInt8) := do
  let code ← encodeAll encodeCall calls
  let code := code ++ bodyEnd code.length
  encodeAttribute "Code"
    (word2 4 ++ word2 4 ++ word4 code.length ++ code ++ word2 0 ++ word2 0)

def encodeMember (access : Nat) (name descriptor : String)
    (attributes : Build (List (List UInt8))) : Build (List UInt8) := do
  let name ← PoolBuilder.utf8 name
  let descriptor ← PoolBuilder.utf8 descriptor
  let attributes ← attributes
  return word2 access ++ word2 name ++ word2 descriptor ++ word2 attributes.length ++
    attributes.flatten

/-- The attribute of a generic signature; none if there is none. -/
def encodeSignature (signature : String) : Build (List (List UInt8)) := do
  if signature.isEmpty then return []
  else
    let slot ← PoolBuilder.utf8 signature
    return [← encodeAttribute "Signature" (word2 slot)]

def encodeField (f : FieldSpec) : Build (List UInt8) :=
  encodeMember f.access f.name f.descriptor do
    let signature ← encodeSignature f.signature
    return signature ++ (← encodeAnnotations f.annotations)

def encodeMethod (m : MethodSpec) : Build (List UInt8) :=
  encodeMember m.access m.name m.descriptor do
    let annotations ← encodeAnnotations m.annotations
    return annotations ++ [← encodeBody m.calls]

/-- The slot of the superclass; zero stands for none. -/
def encodeSuper (name : String) : Build Nat :=
  if name.isEmpty then pure 0 else PoolBuilder.classRef name

/-- The attribute that marks a record. -/
def encodeRecord (record : Bool) : Build (List (List UInt8)) := do
  if record then return [← encodeAttribute "Record" [0, 0]]
  else return []

/-- Everything after the constant pool. -/
def encodeClass (c : ClassSpec) : Build (List UInt8) := do
  let this ← PoolBuilder.classRef c.name
  let super ← encodeSuper c.superName
  let interfaces ← encodeAll (fun name => return word2 (← PoolBuilder.classRef name)) c.interfaces
  let fields ← encodeAll encodeField c.fields
  let methods ← encodeAll encodeMethod c.methods
  let annotations ← encodeAnnotations c.annotations
  let record ← encodeRecord c.record
  let attributes := annotations ++ record
  return word2 c.access ++ word2 this ++ word2 super ++ word2 c.interfaces.length ++ interfaces ++
    word2 c.fields.length ++ fields ++ word2 c.methods.length ++ methods ++
    word2 attributes.length ++ attributes.flatten

def encode (c : ClassSpec) : List UInt8 :=
  let (body, pool) := (encodeClass c).run .empty
  word4 0xcafebabe ++ word2 0 ++ word2 61 ++ pool.bytes ++ body

/-- The path of a class inside an archive or a directory of classes. -/
def entryName (name : String) : String := slashed name ++ ".class"

end ClassAtlas.ClassFile
