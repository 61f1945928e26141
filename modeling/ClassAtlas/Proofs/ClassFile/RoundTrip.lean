import ClassAtlas.Proofs.ClassFile.CodeRoundTrip
import ClassAtlas.Proofs.ClassFile.Walk

/-!
Reading a class file undoes writing it. Members are read back with their attributes, the header is
read back from the pool that was filled while everything after it was written, and the events of the
whole class are those of its description.
-/
namespace ClassAtlas.ClassFile

/-- What an attribute says about a member and its instructions. -/
def applyToMember (pool : ConstantPool) (name : String) (block : List UInt8)
    (s : Member × Option (List UInt8)) : Except Fault (Member × Option (List UInt8)) :=
  applyMemberAttribute pool name block s.1 s.2

theorem reads_memberAttributes {pool : ConstantPool} {attributes : List (List UInt8)}
    {s s' : Member × Option (List UInt8)} (h : Turns pool (applyToMember pool) attributes s s') :
    Reads (readMemberAttributes pool attributes.length s.1 s.2) attributes.flatten s' := by
  induction h with
  | nil s => exact Reads.pure s
  | cons hread happly _ ih => exact hread.bind ((Reads.lift happly).bind_nil ih)

theorem gathers_member (pool : ConstantPool) :
    Gathers pool (applyToMember pool) fun s uses =>
      ({ s.1 with annotations := s.1.annotations ++ uses }, s.2) where
  add_nil s := by simp
  add_append s uses more := by simp
  visible s block uses h := by
    simp only [applyToMember, applyMemberAttribute, h]
    rfl
  invisible s block uses h := by
    simp only [applyToMember, applyMemberAttribute, h]
    rfl

theorem reads_classAttributesFrom {pool : ConstantPool} {attributes : List (List UInt8)}
    {a a' : Attributes} (h : Turns pool (applyClassAttribute pool) attributes a a') :
    Reads (readClassAttributesFrom pool attributes.length a) attributes.flatten a' := by
  induction h with
  | nil s => exact Reads.pure s
  | cons hread happly _ ih => exact hread.bind ((Reads.lift happly).bind_nil ih)

theorem gathers_class (pool : ConstantPool) :
    Gathers pool (applyClassAttribute pool) fun a uses =>
      { a with annotations := a.annotations ++ uses } where
  add_nil s := by simp
  add_append s uses more := by simp
  visible s block uses h := by
    simp only [applyClassAttribute, h]
    rfl
  invisible s block uses h := by
    simp only [applyClassAttribute, h]
    rfl

/-- A member is read back if its attributes turn the bare member into it. -/
theorem builds_member {pre : ConstantPool → Prop} {access : Nat} (haccess : access < 65536)
    (name descriptor : String) {attributes : Build (List (List UInt8))} {member : Member}
    {post : ConstantPool → Option (List UInt8) → Prop}
    (h : ∀ pre, Builds pre attributes fun pool list => list.length ≤ 65535 ∧ ∃ code, post pool code ∧
      Turns pool (applyToMember pool) list (⟨access, name, descriptor, "", []⟩, none)
        (member, code)) :
    Builds pre (encodeMember access name descriptor attributes) fun pool bytes =>
      ∃ code, post pool code ∧ Reads (readMember pool) bytes (member, code) := by
  refine (Builds.utf8 name).bind fun i => (Builds.utf8 descriptor).bind fun j => ?_
  refine (h _).bind fun list => Builds.pure ?_
  rintro pool ⟨⟨⟨-, hi, hname⟩, hj, hdescriptor⟩, hcount, code, hpost, hturns⟩
  refine ⟨code, hpost, ?_⟩
  simp only [List.append_assoc]
  refine (Reads.word2 access haccess).bind ?_
  refine reads_index hi hname (reads_index hj hdescriptor ?_)
  refine (Reads.word2 list.length (by omega)).bind ?_
  exact (reads_memberAttributes hturns).checked id

theorem builds_signature {pre : ConstantPool → Prop} (signature : String) :
    Builds pre (encodeSignature signature) fun pool list => list.length ≤ 1 ∧
      ∀ m code, m.signature = "" →
        Turns pool (applyToMember pool) list (m, code) ({ m with signature }, code) := by
  unfold encodeSignature
  split
  · next hempty =>
    obtain rfl : signature = "" := by simpa using hempty
    refine Builds.pure fun pool _ => ⟨by simp, ?_⟩
    intro m code hm
    rw [← hm]
    exact .nil _
  · refine (Builds.utf8 signature).bind fun i => ?_
    refine (builds_attribute "Signature" ?_).bind fun bytes => Builds.pure ?_
    · intro pool _
      simp
    · rintro pool ⟨⟨-, hi, htext⟩, hread⟩
      refine ⟨by simp, ?_⟩
      intro m code _
      have hall : Reads (do
          let index ← Read.u2
          Read.settled
          Read.lift (pool.utf8 index)) (word2 i ++ []) signature :=
        (Reads.word2 i hi).bind (Reads.settled.bind_nil (Reads.lift htext))
      have htext : readTextAttribute pool (word2 i) = .ok signature := by
        have hblock := readBlock_of_reads hall []
        rwa [List.append_nil, List.append_nil] at hblock
      refine .cons hread ?_ (.nil _)
      simp only [applyToMember, applyMemberAttribute, htext]
      rfl

theorem builds_field {pre : ConstantPool → Prop} (f : FieldSpec) (h : f.Encodable) :
    Builds pre (encodeField f) fun pool bytes =>
      ∃ code, Reads (readMember pool) bytes (f.member, code) := by
  have hattributes : ∀ pre, Builds pre (do
      let signature ← encodeSignature f.signature
      return signature ++ (← encodeAnnotations f.annotations)) fun pool list =>
        list.length ≤ 65535 ∧ ∃ code : Option (List UInt8), True ∧
          Turns pool (applyToMember pool) list (⟨f.access, f.name, f.descriptor, "", []⟩, none)
            (f.member, code) := by
    intro pre
    refine (builds_signature f.signature).bind fun signature => ?_
    refine (builds_annotations h.annotations).bind fun annotations => Builds.pure ?_
    rintro pool ⟨⟨-, hone, hsignature⟩, htwo, hannotations⟩
    refine ⟨by rw [List.length_append]; omega, none, trivial, ?_⟩
    exact (hsignature _ none rfl).append (hannotations _ _ (gathers_member pool) _)
  refine (builds_member h.access_lt f.name f.descriptor hattributes).conseq ?_
  rintro pool bytes - ⟨code, -, hread⟩
  exact ⟨code, hread⟩

theorem builds_method {pre : ConstantPool → Prop} (m : MethodSpec) (h : m.Encodable) :
    Builds pre (encodeMethod m) fun pool bytes => ∃ code,
      walkCode pool 0 code = (invocationsFrom 0 m.calls, none) ∧
        Reads (readMember pool) bytes (m.member, some code) := by
  have hattributes : ∀ pre, Builds pre (do
      let annotations ← encodeAnnotations m.annotations
      return annotations ++ [← encodeBody m.calls]) fun pool list =>
        list.length ≤ 65535 ∧ ∃ code : Option (List UInt8),
          (∃ instructions, code = some instructions ∧
            walkCode pool 0 instructions = (invocationsFrom 0 m.calls, none)) ∧
          Turns pool (applyToMember pool) list (⟨m.access, m.name, m.descriptor, "", []⟩, none)
            (m.member, code) := by
    intro pre
    refine (builds_annotations h.annotations).bind fun annotations => ?_
    refine (builds_body h.calls h.size_lt).bind fun body => Builds.pure ?_
    rintro pool ⟨⟨-, htwo, hannotations⟩, block, code, hread, hcode, hwalk⟩
    refine ⟨by rw [List.length_append]; simp; omega, some code, ⟨code, rfl, hwalk⟩, ?_⟩
    refine (hannotations _ _ (gathers_member pool) _).append (.cons hread ?_ (.nil _))
    simp only [applyToMember, applyMemberAttribute, hcode]
    rfl
  refine (builds_member h.access_lt m.name m.descriptor hattributes).conseq ?_
  rintro pool bytes - ⟨_, ⟨code, rfl, hwalk⟩, hread⟩
  exact ⟨code, hwalk, hread⟩

theorem walks_fields {pool : ConstantPool} {fields : List FieldSpec} {blocks : List (List UInt8)}
    (h : List.Forall₂ (fun f bytes => ∃ code, Reads (readMember pool) bytes (f.member, code))
      fields blocks) (index : Nat) :
    Walks (traceFields pool fields.length index) blocks.flatten
      (fields.map fun f => .field f.member) := by
  induction h generalizing index with
  | nil => exact walks_stop
  | cons hfirst _ ih =>
    obtain ⟨code, hread⟩ := hfirst
    exact (hread.at_ (.field index)).walks
      (f := fun p c => Trace.emit (.field p.1) >>= fun _ => traceFields pool _ (index + 1) c)
      ((ih (index + 1)).report rfl)

theorem walks_methods {interest : Interest} {pool : ConstantPool} {methods : List MethodSpec}
    {blocks : List (List UInt8)}
    (h : List.Forall₂ (fun m bytes => ∃ code,
      walkCode pool 0 code = (invocationsFrom 0 m.calls, none) ∧
        Reads (readMember pool) bytes (m.member, some code)) methods blocks) (index : Nat) :
    Walks (traceMethods interest pool methods.length index) blocks.flatten
      (methods.flatMap (·.events interest)) := by
  induction h generalizing index with
  | nil => exact walks_stop
  | @cons m bytes methods blocks hfirst _ ih =>
    obtain ⟨code, hcode, hread⟩ := hfirst
    have hbody : traceBody interest pool m.member (some code) =
        ⟨if interest.body m.member then (invocationsFrom 0 m.calls).map .call else [], .ok ()⟩ := by
      simp only [traceBody, hcode]
      split <;> rfl
    have hrest := ((ih (index + 1)).report (congrArg Trace.outcome hbody)).report
      (g := Trace.emit (.method m.member)) rfl
    have hwalk := (hread.at_ (.method index)).walks
      (f := fun p c => Trace.emit (.method p.1) >>= fun _ => traceBody interest pool p.1 p.2 >>=
        fun _ => traceMethods interest pool methods.length (index + 1) c) hrest
    rw [hbody] at hwalk
    rw [List.flatMap_cons, MethodSpec.events]
    exact hwalk

/-- An index of the pool is never zero. -/
theorem ne_zero_of_className {pool : ConstantPool} {i : Nat} {name : String}
    (h : pool.className i = .ok name) : i ≠ 0 := by
  rintro rfl
  simp [ConstantPool.className, ConstantPool.constant, Except.bind] at h

theorem builds_super {pre : ConstantPool → Prop} (name : String) :
    Builds pre (encodeSuper name) fun pool i =>
      i < 65536 ∧ Reads (readSuperName pool i) [] (slashed name) := by
  unfold encodeSuper
  split
  · next hempty =>
    obtain rfl : name = "" := by simpa using hempty
    exact Builds.pure fun pool _ => ⟨by omega, Reads.pure ""⟩
  · refine (Builds.classRef name).conseq ?_
    rintro pool i - ⟨hi, hname⟩
    refine ⟨hi, ?_⟩
    rw [readSuperName, if_neg (ne_zero_of_className hname)]
    exact (Reads.lift hname).at_ .superClass

theorem builds_interface {pre : ConstantPool → Prop} {name : String} (h : '/' ∉ name.toList) :
    Builds pre (do return word2 (← PoolBuilder.classRef name)) fun pool bytes =>
      Reads (do
        let name ← Read.lift (pool.className (← Read.u2))
        return dotted name) bytes name := by
  refine (Builds.classRef name).bind fun i => Builds.pure ?_
  rintro pool ⟨-, hi, hname⟩
  have hread := reads_index_last hi hname dotted
  rw [dotted_slashed name h] at hread
  exact hread

theorem builds_record {pre : ConstantPool → Prop} (record : Bool) :
    Builds pre (encodeRecord record) fun pool list => list.length ≤ 1 ∧
      ∀ a, a.record = false →
        Turns pool (applyClassAttribute pool) list a { a with record } := by
  unfold encodeRecord
  cases record with
  | false =>
    refine Builds.pure fun pool _ => ⟨by simp, ?_⟩
    intro a ha
    rw [← ha]
    exact .nil _
  | true =>
    refine (builds_attribute "Record" fun _ _ => by simp).bind fun bytes => Builds.pure ?_
    rintro pool ⟨-, hread⟩
    exact ⟨by simp, fun a _ => .cons hread rfl (.nil _)⟩

/-- What the header says after the constant pool. -/
def readIdentity (minor major : Nat) (pool : ConstantPool) : Read (ConstantPool × Header) := do
  let access ← Read.u2
  let thisIndex ← Read.u2
  let superIndex ← Read.u2
  Read.settled
  let name ← Read.at_ .thisClass (Read.lift (pool.className thisIndex))
  let superName ← readSuperName pool superIndex
  let count ← Read.u2
  let interfaces ← Read.at_ .interfaces (readInterfaces pool count)
  Read.settled
  return (pool, ⟨major, minor, access, dotted name, dotted superName, interfaces⟩)

theorem reads_identity {pool : ConstantPool} {c : ClassSpec} (h : c.Encodable) {this super : Nat}
    {blocks : List (List UInt8)} (hthis : this < 65536)
    (hname : pool.className this = .ok (slashed c.name)) (hsuper : super < 65536)
    (hsuperName : Reads (readSuperName pool super) [] (slashed c.superName))
    (hinterfaces : List.Forall₂ (fun name bytes => Reads (do
      let name ← Read.lift (pool.className (← Read.u2))
      return dotted name) bytes name) c.interfaces blocks) :
    Reads (readIdentity 0 61 pool) (word2 c.access ++ (word2 this ++ (word2 super ++
      (word2 c.interfaces.length ++ blocks.flatten)))) (pool, c.header) := by
  have hcount := h.interfaces_le
  have hall : Reads (Read.at_ .interfaces (readInterfaces pool c.interfaces.length)) blocks.flatten
      (c.interfaces.map id) := (Reads.times hinterfaces).at_ .interfaces
  refine (Reads.word2 _ h.access_lt).bind ((Reads.word2 _ hthis).bind ((Reads.word2 _ hsuper).bind ?_))
  refine Reads.settled.bind_nil (((Reads.lift hname).at_ .thisClass).bind_nil ?_)
  refine hsuperName.bind_nil ((Reads.word2 _ (by omega)).bind ?_)
  rw [dotted_slashed c.name h.name_dotted, dotted_slashed c.superName h.superName_dotted]
  have hread := hall.checked fun interfaces =>
    (pool, Header.mk 61 0 c.access c.name c.superName interfaces)
  rwa [List.map_id] at hread

theorem walks_members {interest : Interest} {pool : ConstantPool} {c : ClassSpec} (h : c.Encodable)
    {fieldBytes methodBytes : List UInt8} (attributes : List (List UInt8))
    (hfields : Walks (traceFields pool c.fields.length 0) fieldBytes
      (c.fields.map (.field ·.member)))
    (hmethods : Walks (traceMethods interest pool c.methods.length 0) methodBytes
      (c.methods.flatMap (·.events interest)))
    (hcount : attributes.length ≤ 65535)
    (hattributes : Turns pool (applyClassAttribute pool) attributes ⟨"", "", false, []⟩
      c.attributes) :
    Walks (traceMembers interest pool) (word2 c.fields.length ++ (fieldBytes ++
      (word2 c.methods.length ++ (methodBytes ++ (word2 attributes.length ++
        attributes.flatten))))) (c.memberEvents interest) := by
  have hf := h.fields_le
  have hm := h.methods_le
  have hread : Reads (readClassAttributes pool) (word2 attributes.length ++ attributes.flatten)
      c.attributes :=
    (Reads.word2 _ (by omega)).bind ((reads_classAttributesFrom hattributes).checked id)
  have hend := (hread.at_ .classAttributes).walks
    (f := fun a c => Trace.emit (.finish a) >>= fun _ => pure c) (walks_stop.report rfl)
  have hlater := (Reads.word2 c.methods.length (by omega)).walks
    (f := fun count c => traceMethods interest pool count 0 c >>= _) (hmethods.andThen hend)
  have hall := (Reads.word2 c.fields.length (by omega)).walks
    (f := fun count c => traceFields pool count 0 c >>= _) (hfields.andThen hlater)
  simp only [List.append_nil] at hall
  rw [ClassSpec.memberEvents, List.append_assoc]
  exact hall

/-- Everything after the pool is read back, first the header and then the members. -/
theorem builds_class {pre : ConstantPool → Prop} (c : ClassSpec) (h : c.Encodable) :
    Builds pre (encodeClass c) fun pool body => ∃ head members, body = head ++ members ∧
      Reads (readIdentity 0 61 pool) head (pool, c.header) ∧
      ∀ interest, Walks (traceMembers interest pool) members (c.memberEvents interest) := by
  refine (Builds.classRef c.name).bind fun this => ?_
  refine (builds_super c.superName).bind fun super => ?_
  refine (Builds.encodeAll fun name hn pre => builds_interface (h.interfaces_dotted name hn)).bind
    fun interfaces => ?_
  refine (Builds.encodeAll fun f hf pre => builds_field f (h.fields f hf)).bind fun fields => ?_
  refine (Builds.encodeAll fun m hm pre => builds_method m (h.methods m hm)).bind fun methods => ?_
  refine (builds_annotations h.annotations).bind fun annotations => ?_
  refine (builds_record c.record).bind fun record => Builds.pure ?_
  rintro pool ⟨⟨⟨⟨⟨⟨⟨-, hthis, hname⟩, hsuper, hsuperName⟩, interfaceBlocks, hinterfaces, rfl⟩,
    fieldBlocks, hfields, rfl⟩, methodBlocks, hmethods, rfl⟩, htwo, hannotations⟩, hone, hrecord⟩
  refine ⟨_, _, ?_, reads_identity h hthis hname hsuper hsuperName hinterfaces, fun interest =>
    walks_members h (annotations ++ record) (walks_fields hfields 0)
      (walks_methods hmethods 0) ?_ ?_⟩
  · simp only [List.append_assoc]
  · rw [List.length_append]
    omega
  · exact (hannotations _ _ (gathers_class pool) _).append (hrecord _ rfl)

theorem reads_magic : Reads readMagic (word4 0xcafebabe) () := by
  intro rest
  rw [readMagic, Read.bind_apply, Reads.word4 0xcafebabe (by omega)]
  rfl

/-- The events of a class file are told by its header and, if they are wanted, its members. -/
theorem decode_of_parts {interest : Interest} {c : ClassSpec} {pool : ConstantPool}
    {head members : List UInt8} (hhead : Reads readHeader head (pool, c.header))
    (hmembers : Walks (traceMembers interest pool) members (c.memberEvents interest)) :
    decode interest (head ++ members) = ⟨c.events interest, .ok ()⟩ := by
  have hclass : ∃ rest, traceClass interest ⟨head ++ members, false⟩ =
      ⟨c.events interest, .ok ⟨rest, false⟩⟩ := by
    have hwalk : ∀ {bytes : List UInt8} {events : List Event},
        Walks (fun cursor => if interest.members c.header then traceMembers interest pool cursor
          else pure cursor) bytes events →
        Walks (traceClass interest) (head ++ bytes) (.header c.header :: events) := fun hw =>
      hhead.walks (f := fun (p : ConstantPool × Header) cursor => Trace.emit (.header p.2) >>= fun _ =>
        if interest.members p.2 then traceMembers interest p.1 cursor else pure cursor)
        (hw.report rfl)
    by_cases hi : interest.members c.header = true
    · simp only [hi, if_true] at hwalk
      have hall := hwalk hmembers []
      rw [List.append_nil] at hall
      exact ⟨[], by simpa [ClassSpec.events, hi] using hall⟩
    · simp only [hi] at hwalk
      have hall := hwalk walks_stop members
      rw [List.append_nil] at hall
      exact ⟨members, by simpa [ClassSpec.events, hi] using hall⟩
  obtain ⟨rest, hclass⟩ := hclass
  rw [decode_eq, Cursor.start, hclass, Trace.bind_ok rfl]
  exact congrArg (Trace.mk · _) (List.append_nil _)

/-- Reading a class file undoes writing it: whatever the reader wants to know, a class within the
limits of the format is read to its end, and every event tells what its description says. -/
theorem decode_encode (interest : Interest) (c : ClassSpec) (h : c.Encodable) :
    decode interest (encode c) = ⟨c.events interest, .ok ()⟩ := by
  have hbuilds : Builds (fun _ => True) (encodeClass c) _ := builds_class c h
  obtain ⟨written, hholds, hpost⟩ := hbuilds.sound .empty [] PoolBuilder.holds_empty
    (fun _ _ => trivial) h.pool_fits
  obtain ⟨head, members, hbody, hhead, hmembers⟩ := hpost (.ofWritten written) (.refl _)
  have hheader : Reads readHeader (word4 0xcafebabe ++ (word2 0 ++ (word2 61 ++
      (c.pool.bytes ++ head)))) (.ofWritten written, c.header) :=
    reads_magic.bind ((Reads.word2 0 (by omega)).bind ((Reads.word2 61 (by omega)).bind
      ((hholds.reads_bytes h.pool_fits).bind hhead)))
  have hbytes : encode c = word4 0xcafebabe ++ (word2 0 ++ (word2 61 ++ (c.pool.bytes ++ head))) ++
      members := by
    change word4 0xcafebabe ++ word2 0 ++ word2 61 ++ c.pool.bytes ++
      ((encodeClass c).run .empty).1 = _
    rw [hbody]
    simp only [List.append_assoc]
  rw [hbytes]
  exact decode_of_parts hheader (hmembers interest)

/-- A class with a little of everything: a name that is given two values, a number that does not fit,
annotations inside annotations, and calls of both lengths. -/
def orderClass : ClassSpec where
  name := "app.Order"
  superName := "app.Base"
  access := 0x21
  interfaces := ["app.Priced"]
  annotations := [
    ⟨"app.Hidden", true, [("value", .text "ä"), ("value", .long (-1))]⟩,
    ⟨"app.Shown", false, [
      ("of", .nested "app.Part" [("n", .int 4294967297)]),
      ("all", .list [.boolean true, .enum "app.Kind" "BIG"])]⟩]
  fields := [⟨2, "parts", "Ljava/util/List;", "Ljava/util/List<Lapp/Part;>;", []⟩]
  methods := [⟨1, "price", "()I", [],
    [⟨0xb6, "app.Part", "price", "()I"⟩, ⟨0xb9, "app.Priced", "price", "()I"⟩]⟩]
  record := true

theorem encodable_orderClass : orderClass.Encodable where
  pool_fits := ⟨by decide +kernel, by decide +kernel⟩
  access_lt := by decide
  name_dotted := by decide +kernel
  superName_dotted := by decide +kernel
  interfaces_dotted := by simp [orderClass]
  interfaces_le := by decide
  fields_le := by decide
  methods_le := by decide
  fields := by
    intro f hf
    obtain rfl := List.mem_singleton.1 hf
    exact ⟨by decide, groupEncodable_nil, groupEncodable_nil⟩
  methods := by
    intro m hm
    obtain rfl := List.mem_singleton.1 hm
    refine ⟨by decide, ⟨groupEncodable_nil, groupEncodable_nil⟩, ?_, ?_⟩
    · intro c hc
      simp only [List.mem_cons, List.not_mem_nil, or_false] at hc
      rcases hc with rfl | rfl <;>
        exact ⟨by decide, by decide, by decide +kernel, by decide +kernel, by decide +kernel,
          by decide +kernel, by decide +kernel, by decide +kernel⟩
    · simp [codeSize, CallSpec.size, bodyEnd]
  annotations := by
    have hkind : IsPlainName "app.Kind" := by decide +kernel
    have hpart : IsPlainName "app.Part" := by decide +kernel
    refine ⟨⟨?_, by decide, ?_⟩, ⟨?_, by decide, ?_⟩⟩
    · intro a ha
      obtain rfl := List.mem_singleton.1 ha
      exact ⟨by decide +kernel, by decide, by
        simp [PairsEncodable, ItemsEncodable, ElementSpec.Encodable, hkind, hpart]⟩
    · simp [orderClass, AnnotationSpec.size, pairsSize, itemsSize, ElementSpec.size]
    · intro a ha
      obtain rfl := List.mem_singleton.1 ha
      exact ⟨by decide +kernel, by decide, by simp [PairsEncodable, ElementSpec.Encodable]⟩
    · simp [orderClass, AnnotationSpec.size, pairsSize, ElementSpec.size]

theorem decode_encode_orderClass : orderClass.Encodable ∧
    decode ⟨fun _ => true, fun _ => true⟩ (encode orderClass) =
      ⟨orderClass.events ⟨fun _ => true, fun _ => true⟩, .ok ()⟩ :=
  ⟨encodable_orderClass, decode_encode _ orderClass encodable_orderClass⟩

end ClassAtlas.ClassFile
