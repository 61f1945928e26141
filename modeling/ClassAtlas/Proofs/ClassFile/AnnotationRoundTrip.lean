import ClassAtlas.Proofs.ClassFile.Described

/-!
Annotations come back from the bytes that they are written to. Values nest, so an element is read
back at every depth that is not below its length; the attribute that holds it allows for that.
-/
namespace ClassAtlas.ClassFile

/-- An index, and what the pool has there. -/
theorem reads_index {look : Nat → Except Fault α} {f : α → Read β} {i : Nat} {a : α} {b : β}
    {bytes : List UInt8} (hi : i < 65536) (h : look i = .ok a) (hf : Reads (f a) bytes b) :
    Reads (Read.u2 >>= fun i => Read.lift (look i) >>= f) (word2 i ++ bytes) b :=
  (Reads.word2 i hi).bind ((Reads.lift h).bind_nil hf)

theorem reads_index_last {look : Nat → Except Fault α} {i : Nat} {a : α} (hi : i < 65536)
    (h : look i = .ok a) (g : α → β) :
    Reads (Read.u2 >>= fun i => Read.lift (look i) >>= fun a => Pure.pure (g a)) (word2 i) (g a) := by
  have hread : Reads (Read.u2 >>= fun i => Read.lift (look i) >>= fun a => Pure.pure (g a))
      (word2 i ++ []) (g a) := reads_index hi h (Reads.pure (g a))
  rwa [List.append_nil] at hread

/-- One name of an annotation with its value, given how a value is read. -/
def readPair (pool : ConstantPool) (element : Read ElementValue) : Read (String × ElementValue) := do
  let name ← Read.lift (pool.utf8 (← Read.u2))
  return (name, ← element)

theorem reads_annotation {pool : ConstantPool} {visible : Bool} {element : Read ElementValue}
    {type : String} {slot : Nat} {values : List (String × ElementSpec)} {bytes : List UInt8}
    (hplain : IsPlainName type) (hcount : values.length ≤ 65535) (hslot : slot < 65536)
    (htype : pool.utf8 slot = .ok (classDescriptor type))
    (h : Reads (Read.times (readPair pool element) values.length) bytes
      (pairValues visible values)) :
    Reads (readAnnotationWith pool element) (word2 slot ++ word2 values.length ++ bytes)
      (type, lastValues (pairValues visible values)) := by
  rw [List.append_assoc]
  refine reads_index hslot htype ?_
  refine (Reads.word2 values.length (by omega)).bind ?_
  rw [typeName_classDescriptor type hplain]
  have hread := h.checked fun pairs =>
    (type, pairs.foldl (fun values p => putValue values p.1 p.2) [])
  rw [foldl_putValue] at hread
  exact hread

/-- The bytes are as long as an element says, and are read back as its value. -/
structure ReadsElement (pool : ConstantPool) (e : ElementSpec) (bytes : List UInt8) : Prop where
  length_eq : bytes.length = e.size
  reads : ∀ visible depth, bytes.length ≤ depth →
    Reads (readElement pool visible depth) bytes (e.value visible)

/-- After its tag an element is read one level further down. -/
theorem readsElement_of_tagged {pool : ConstantPool} {e : ElementSpec} {tag : UInt8}
    {bytes : List UInt8} (hlength : bytes.length + 1 = e.size)
    (h : ∀ visible depth, bytes.length ≤ depth →
      Reads (readTagged pool visible (readElement pool visible depth) tag.toNat) bytes
        (e.value visible)) :
    ReadsElement pool e (tag :: bytes) := by
  refine ⟨hlength, ?_⟩
  intro visible depth hdepth
  obtain ⟨depth, rfl⟩ := Nat.exists_eq_add_one_of_ne_zero (n := depth) (by simp at hdepth; omega)
  have htagged := h visible depth (by simpa using hdepth)
  exact (Reads.byte tag).bind (Reads.settled.bind_nil (htagged.checked id))

@[simp] theorem length_word2 (n : Nat) : (word2 n).length = 2 := length_toBigEndian 2 n

@[simp] theorem length_word4 (n : Nat) : (word4 n).length = 4 := length_toBigEndian 4 n

mutual

theorem builds_element {pre : ConstantPool → Prop} (e : ElementSpec) (h : e.Encodable) :
    Builds pre (encodeElement e) fun pool bytes => ReadsElement pool e bytes := by
  cases e with
  | text s =>
    refine (Builds.utf8 s).bind fun i => Builds.pure ?_
    rintro pool ⟨-, hi, hs⟩
    refine readsElement_of_tagged (by simp [ElementSpec.size]) fun visible depth _ => ?_
    exact reads_index_last hi hs ElementValue.text
  | int n =>
    refine (Builds.integer n).bind fun i => Builds.pure ?_
    rintro pool ⟨-, hi, hn⟩
    refine readsElement_of_tagged (by simp [ElementSpec.size]) fun visible depth _ => ?_
    exact reads_index_last hi hn (ElementValue.integral .int)
  | long n =>
    refine (Builds.long n).bind fun i => Builds.pure ?_
    rintro pool ⟨-, hi, hn⟩
    refine readsElement_of_tagged (by simp [ElementSpec.size]) fun visible depth _ => ?_
    exact reads_index_last hi hn (ElementValue.integral .long)
  | boolean b =>
    refine (Builds.integer (if b then 1 else 0)).bind fun i => Builds.pure ?_
    rintro pool ⟨-, hi, hn⟩
    refine readsElement_of_tagged (by simp [ElementSpec.size]) fun visible depth _ => ?_
    have hread := reads_index_last hi hn fun n => ElementValue.boolean (n != 0)
    have hb : (Int.bmod (if b then 1 else 0) (2 ^ 32) != 0) = b := by cases b <;> decide
    rw [hb] at hread
    exact hread
  | enum type name =>
    refine (Builds.utf8 (classDescriptor type)).bind fun i => (Builds.utf8 name).bind fun j => ?_
    refine Builds.pure ?_
    rintro pool ⟨⟨-, hi, htype⟩, hj, hname⟩
    refine readsElement_of_tagged (by simp [ElementSpec.size]) fun visible depth _ => ?_
    refine reads_index hi htype ?_
    rw [typeName_classDescriptor type h]
    exact reads_index_last hj hname (ElementValue.enum type)
  | nested type values =>
    obtain ⟨hplain, hcount, hvalues⟩ := h
    refine (Builds.utf8 (classDescriptor type)).bind fun i => ?_
    refine (builds_pairs values hvalues).bind fun bytes => Builds.pure ?_
    rintro pool ⟨⟨-, hi, htype⟩, hlength, hpairs⟩
    refine readsElement_of_tagged (by simp [ElementSpec.size, hlength]; omega) ?_
    intro visible depth hdepth
    have hread := reads_annotation hplain hcount hi htype
      (hpairs visible depth (by simp at hdepth; omega))
    exact hread.map fun (type, values) => ElementValue.nested type visible values
  | list items =>
    obtain ⟨hcount, hitems⟩ := h
    refine (builds_items items hitems).bind fun bytes => Builds.pure ?_
    rintro pool ⟨-, hlength, hreads⟩
    refine readsElement_of_tagged (by simp [ElementSpec.size, hlength]; omega) ?_
    intro visible depth hdepth
    have hread := hreads visible depth (by simp at hdepth; omega)
    exact (Reads.word2 items.length (by omega)).bind (hread.map ElementValue.array)

theorem builds_pairs {pre : ConstantPool → Prop} (values : List (String × ElementSpec))
    (h : PairsEncodable values) :
    Builds pre (encodePairs values) fun pool bytes => bytes.length = pairsSize values ∧
      ∀ visible depth, bytes.length ≤ depth →
        Reads (Read.times (readPair pool (readElement pool visible depth)) values.length) bytes
          (pairValues visible values) := by
  cases values with
  | nil => exact Builds.pure fun _ _ => ⟨rfl, fun _ _ _ => Reads.pure []⟩
  | cons value more =>
    obtain ⟨name, e⟩ := value
    obtain ⟨he, hmore⟩ := h
    refine (Builds.utf8 name).bind fun i => (builds_element e he).bind fun bytes => ?_
    refine (builds_pairs more hmore).bind fun rest => Builds.pure ?_
    rintro pool ⟨⟨⟨-, hi, hname⟩, hbytes⟩, hlength, hrest⟩
    refine ⟨by simp [pairsSize, hbytes.length_eq, hlength]; omega, ?_⟩
    intro visible depth hdepth
    simp only [List.length_append, length_word2] at hdepth
    have hpair : Reads (readPair pool (readElement pool visible depth)) (word2 i ++ bytes)
        (name, e.value visible) :=
      reads_index hi hname ((hbytes.reads visible depth (by omega)).map (name, ·))
    exact hpair.bind ((hrest visible depth (by omega)).map ((name, e.value visible) :: ·))

theorem builds_items {pre : ConstantPool → Prop} (items : List ElementSpec)
    (h : ItemsEncodable items) :
    Builds pre (encodeElements items) fun pool bytes => bytes.length = itemsSize items ∧
      ∀ visible depth, bytes.length ≤ depth →
        Reads (Read.times (readElement pool visible depth) items.length) bytes
          (itemValues visible items) := by
  cases items with
  | nil => exact Builds.pure fun _ _ => ⟨rfl, fun _ _ _ => Reads.pure []⟩
  | cons e more =>
    obtain ⟨he, hmore⟩ := h
    refine (builds_element e he).bind fun bytes => ?_
    refine (builds_items more hmore).bind fun rest => Builds.pure ?_
    rintro pool ⟨⟨-, hbytes⟩, hlength, hrest⟩
    refine ⟨by simp [itemsSize, hbytes.length_eq, hlength], ?_⟩
    intro visible depth hdepth
    rw [List.length_append] at hdepth
    exact (hbytes.reads visible depth (by omega)).bind
      ((hrest visible depth (by omega)).map (e.value visible :: ·))

end

/-- The bytes of an annotation, as long as it says. -/
structure ReadsUse (pool : ConstantPool) (a : AnnotationSpec) (bytes : List UInt8) : Prop where
  length_eq : bytes.length = a.size
  reads : ∀ visible depth, bytes.length ≤ depth →
    Reads (readAnnotationWith pool (readElement pool visible depth)) bytes
      (a.type, lastValues (pairValues visible a.values))

theorem builds_use {pre : ConstantPool → Prop} (a : AnnotationSpec) (h : a.Encodable) :
    Builds pre (encodeUse a) fun pool bytes => ReadsUse pool a bytes := by
  refine (Builds.utf8 (classDescriptor a.type)).bind fun i => ?_
  refine (builds_pairs a.values h.values).bind fun bytes => Builds.pure ?_
  rintro pool ⟨⟨-, hi, htype⟩, hlength, hpairs⟩
  refine ⟨by simp [AnnotationSpec.size, hlength]; omega, ?_⟩
  intro visible depth hdepth
  simp only [List.length_append, length_word2] at hdepth
  exact reads_annotation h.type_plain h.count_le hi htype (hpairs visible depth (by omega))

theorem builds_attribute {pre : ConstantPool → Prop} (name : String) {block : List UInt8}
    (h : ∀ pool, pre pool → block.length < 2 ^ 32) :
    Builds pre (encodeAttribute name block) fun pool bytes =>
      Reads (readAttribute pool) bytes (name, block) := by
  refine (Builds.utf8 name).bind fun i => Builds.pure ?_
  rintro pool ⟨hpre, hi, hname⟩
  rw [List.append_assoc]
  refine reads_index hi hname ?_
  refine (Reads.word4 block.length (h pool hpre)).bind ?_
  exact (Reads.bytes block).checked fun block => (name, block)

/-- An annotation with the mark of its attribute. -/
def readUse (pool : ConstantPool) (visible : Bool) (depth : Nat) : Read AnnotationUse := do
  let (type, values) ← readAnnotationWith pool (readElement pool visible depth)
  return ⟨type, visible, values⟩

theorem reads_uses {pool : ConstantPool} {annotations : List AnnotationSpec}
    {blocks : List (List UInt8)} {visible : Bool} (depth : Nat)
    (h : List.Forall₂ (ReadsUse pool) annotations blocks)
    (hvisible : ∀ a ∈ annotations, (!a.invisible) = visible)
    (hdepth : blocks.flatten.length ≤ depth) :
    List.Forall₂ (fun a bytes => Reads (readUse pool visible depth) bytes a.use)
      annotations blocks := by
  induction h with
  | nil => exact .nil
  | @cons a bytes annotations blocks hfirst _ ih =>
    rw [List.flatten_cons, List.length_append] at hdepth
    refine .cons ?_ (ih (fun b hb => hvisible b (List.mem_cons_of_mem _ hb)) (by omega))
    have hread := (hfirst.reads visible depth (by omega)).map
      fun (type, values) => (⟨type, visible, values⟩ : AnnotationUse)
    have hmark := hvisible a List.mem_cons_self
    rw [AnnotationSpec.use, hmark]
    exact hread

/-- Annotations stand in one attribute, or in none if there are none. -/
def GroupWritten (pool : ConstantPool) (name : String) (visible : Bool)
    (annotations : List AnnotationSpec) (attributes : List (List UInt8)) : Prop :=
  (annotations = [] ∧ attributes = []) ∨
  ∃ bytes block, attributes = [bytes] ∧ Reads (readAttribute pool) bytes (name, block) ∧
    readAnnotations pool visible block = .ok (annotations.map (·.use))

theorem GroupWritten.length_le {pool : ConstantPool} {name : String} {visible : Bool}
    {annotations : List AnnotationSpec} {attributes : List (List UInt8)}
    (h : GroupWritten pool name visible annotations attributes) : attributes.length ≤ 1 := by
  rcases h with ⟨-, rfl⟩ | ⟨_, _, rfl, -⟩ <;> simp

theorem builds_group {pre : ConstantPool → Prop} (name : String) (visible : Bool)
    {annotations : List AnnotationSpec} (h : GroupEncodable annotations)
    (hvisible : ∀ a ∈ annotations, (!a.invisible) = visible) :
    Builds pre (encodeAnnotationGroup name annotations) fun pool =>
      GroupWritten pool name visible annotations := by
  unfold encodeAnnotationGroup
  split
  · next hnil => exact Builds.pure fun _ _ => .inl ⟨by simpa using hnil, rfl⟩
  refine (Builds.encodeAll fun a ha pre => builds_use a (h.each a ha)).bind fun content => ?_
  refine (builds_attribute name ?_).bind fun bytes => Builds.pure ?_
  · rintro pool ⟨-, blocks, hblocks, rfl⟩
    have hlength := length_flatten_blocks (hblocks.imp fun _ _ hu => hu.length_eq)
    have hsize := h.size_lt
    rw [List.length_append, length_word2, hlength]
    omega
  · rintro pool ⟨⟨-, blocks, hblocks, rfl⟩, hread⟩
    refine .inr ⟨bytes, _, rfl, hread, ?_⟩
    have hcount := h.count_le
    have huses := Reads.times (reads_uses
      ((word2 annotations.length ++ blocks.flatten).length + 1) hblocks hvisible (by simp; omega))
    have hall : Reads (do
        let count ← Read.u2
        let annotations ← Read.times (readUse pool visible _) count
        Read.settled
        return annotations) (word2 annotations.length ++ blocks.flatten) _ :=
      (Reads.word2 annotations.length (by omega)).bind (huses.checked id)
    have hblock := readBlock_of_reads hall []
    rw [List.append_nil] at hblock
    exact hblock

/-- What a reader makes of attributes that it is given one after the other. -/
inductive Turns (pool : ConstantPool) (apply : String → List UInt8 → σ → Except Fault σ) :
    List (List UInt8) → σ → σ → Prop
  | nil (s : σ) : Turns pool apply [] s s
  | cons {bytes block : List UInt8} {name : String} {more : List (List UInt8)} {s s' s'' : σ} :
    Reads (readAttribute pool) bytes (name, block) → apply name block s = .ok s' →
      Turns pool apply more s' s'' → Turns pool apply (bytes :: more) s s''

theorem Turns.append {pool : ConstantPool} {apply : String → List UInt8 → σ → Except Fault σ}
    {attributes more : List (List UInt8)} {s s' s'' : σ} (h : Turns pool apply attributes s s')
    (hm : Turns pool apply more s' s'') : Turns pool apply (attributes ++ more) s s'' := by
  induction h with
  | nil s => exact hm
  | cons hread happly _ ih => exact .cons hread happly (ih hm)

/-- An attribute of annotations gives what it holds to a reader that adds them to what it has. -/
theorem GroupWritten.turns {pool : ConstantPool} {name : String} {visible : Bool}
    {annotations : List AnnotationSpec} {attributes : List (List UInt8)}
    {apply : String → List UInt8 → σ → Except Fault σ} {add : σ → List AnnotationUse → σ}
    (h : GroupWritten pool name visible annotations attributes) (hnil : ∀ s, add s [] = s)
    (happly : ∀ s block uses, readAnnotations pool visible block = .ok uses →
      apply name block s = .ok (add s uses)) (s : σ) :
    Turns pool apply attributes s (add s (annotations.map (·.use))) := by
  rcases h with ⟨rfl, rfl⟩ | ⟨bytes, block, rfl, hread, huses⟩
  · rw [List.map_nil, hnil]
    exact .nil s
  · exact .cons hread (happly s block _ huses) (.nil _)

/-- A reader of attributes that adds the annotations of both kinds to what it has. -/
structure Gathers (pool : ConstantPool) (apply : String → List UInt8 → σ → Except Fault σ)
    (add : σ → List AnnotationUse → σ) : Prop where
  add_nil : ∀ s, add s [] = s
  add_append : ∀ s uses more, add (add s uses) more = add s (uses ++ more)
  visible : ∀ s block uses, readAnnotations pool true block = .ok uses →
    apply "RuntimeVisibleAnnotations" block s = .ok (add s uses)
  invisible : ∀ s block uses, readAnnotations pool false block = .ok uses →
    apply "RuntimeInvisibleAnnotations" block s = .ok (add s uses)

theorem builds_annotations {pre : ConstantPool → Prop} {annotations : List AnnotationSpec}
    (h : AnnotationsEncodable annotations) :
    Builds pre (encodeAnnotations annotations) fun pool attributes => attributes.length ≤ 2 ∧
      ∀ {σ : Type} (apply : String → List UInt8 → σ → Except Fault σ)
        (add : σ → List AnnotationUse → σ), Gathers pool apply add →
        ∀ s, Turns pool apply attributes s (add s (usesOf annotations)) := by
  refine (builds_group "RuntimeVisibleAnnotations" true h.visible (by simp)).bind fun shown => ?_
  refine (builds_group "RuntimeInvisibleAnnotations" false h.invisible (by simp)).bind
    fun hidden => Builds.pure ?_
  rintro pool ⟨⟨-, hshown⟩, hhidden⟩
  refine ⟨?_, ?_⟩
  · have h1 := hshown.length_le
    have h2 := hhidden.length_le
    rw [List.length_append]
    omega
  · intro σ apply add hg s
    rw [usesOf, List.map_append, ← hg.add_append]
    exact (hshown.turns hg.add_nil hg.visible s).append (hhidden.turns hg.add_nil hg.invisible _)

end ClassAtlas.ClassFile
