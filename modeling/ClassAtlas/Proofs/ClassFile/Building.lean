import ClassAtlas.Proofs.ClassFile.Pool

/-!
Steps of writing. A step gives an answer and adds constants to the pool; what is said of the answer
is said for every pool that starts with the constants written so far, so it still holds when the
class is finished. It needs only that the finished pool keeps within the limits of the format.
-/
namespace ClassAtlas.ClassFile

/-- The slots that a constant takes. -/
def ConstantKey.slots : ConstantKey → Nat
  | .long _ => 2
  | _ => 1

/-- A text of the pool: its length is a word of two bytes, and every character is one unit. -/
def ConstantKey.Fits : ConstantKey → Prop
  | .utf8 s => (Text.Utf8.encode s).length ≤ 65535 ∧ ∀ c ∈ s.toList, c.toNat ≤ 0xffff
  | _ => True

instance : DecidablePred ConstantKey.Fits
  | .utf8 s => @instDecidableAnd _ _ inferInstance (List.decidableBAll _ s.toList)
  | .integer _ | .long _ | .classRef _ | .nameAndType _ | .methodRef _ | .interfaceMethodRef _ =>
    isTrue trivial

namespace PoolBuilder

/-- The slots that are taken, without slot zero. -/
def slotCount (p : PoolBuilder) : Nat := (p.index.map (·.1.slots)).sum

/-- The limits of the format for a constant pool. -/
structure Fits (p : PoolBuilder) : Prop where
  slotCount_le : p.slotCount ≤ 65534
  key_fits : ∀ entry ∈ p.index, entry.1.Fits

theorem Fits.of_suffix {p q : PoolBuilder} (h : q.Fits) (hs : p.index <:+ q.index) : p.Fits := by
  obtain ⟨more, hmore⟩ := hs
  refine ⟨?_, ?_⟩
  · have hq := h.slotCount_le
    simp only [slotCount, ← hmore, List.map_append, List.sum_append] at hq ⊢
    omega
  · intro entry he
    exact h.key_fits entry (by simp [← hmore, he])

/-- What was written is the bytes of some constants, each of which stands where the index says. -/
structure Holds (p : PoolBuilder) (written : List (List UInt8 × Constant)) : Prop where
  written_eq : p.written.reverse = written.map (·.1)
  reads : ∀ entry ∈ written, ∀ i, Reads (Constant.read i) entry.1 entry.2
  slotCount_eq : p.slotCount = (slotsOf (written.map (·.2))).length
  next_eq : p.next.toNat = p.slotCount + 1
  means : ∀ key i, p.index.lookup key = some i → key.Means (.ofWritten written) i.toNat

theorem holds_empty : empty.Holds [] :=
  ⟨rfl, by simp, rfl, rfl, by simp [empty]⟩

/-- A constant that was written makes its key mean what it says, and disturbs no other. -/
theorem Holds.write {p : PoolBuilder} {written : List (List UInt8 × Constant)} (h : p.Holds written)
    {key : ConstantKey} {bytes : List UInt8} {slots : UInt16} {constant : Constant}
    (hslots : slots.toNat = key.slots) (hwide : key.slots = if constant.isWide then 2 else 1)
    (hfit : p.slotCount + key.slots ≤ 65534)
    (hread : ∀ i, Reads (Constant.read i) bytes constant)
    (hmeans : key.Means (.ofWritten (written ++ [(bytes, constant)])) p.next.toNat) :
    Holds ⟨bytes :: p.written, (key, p.next) :: p.index, p.next + slots⟩
      (written ++ [(bytes, constant)]) := by
  have hadd : slotCount ⟨bytes :: p.written, (key, p.next) :: p.index, p.next + slots⟩ =
      p.slotCount + key.slots := by
    simp [slotCount, Nat.add_comm]
  have hcount : (slotsOf ((written ++ [(bytes, constant)]).map (·.2))).length =
      p.slotCount + key.slots := by
    rw [h.slotCount_eq, hwide, List.map_append, slotsOf, List.flatMap_append, List.length_append]
    split <;> simp [slotsOf, *]
  refine ⟨?_, ?_, ?_, ?_, ?_⟩
  · simp [h.written_eq]
  · intro entry he i
    rcases List.mem_append.1 he with he | he
    · exact h.reads entry he i
    · obtain rfl := List.mem_singleton.1 he
      exact hread i
  · rw [hadd, hcount]
  · have hnext := h.next_eq
    rw [UInt16.toNat_add, hslots, hnext, hadd]
    omega
  · intro other i hi
    rw [List.lookup_cons] at hi
    split at hi
    · next heq =>
      obtain rfl := eq_of_beq heq
      obtain rfl := Option.some.inj hi
      exact hmeans
    · exact (h.means other i hi).within (ConstantPool.ofWritten_within _ _)

/-- A pool that was written is read back with its slots in place. -/
theorem Holds.reads_bytes {p : PoolBuilder} {written : List (List UInt8 × Constant)}
    (h : p.Holds written) (hf : p.Fits) :
    Reads ConstantPool.read p.bytes (.ofWritten written) := by
  have hslots := reads_slots written h.reads 1
  rw [← h.slotCount_eq, ← h.written_eq] at hslots
  have hcount := hf.slotCount_le
  unfold ConstantPool.read PoolBuilder.bytes
  rw [h.next_eq]
  refine (Reads.word2 (p.slotCount + 1) (by omega)).bind ?_
  exact hslots.checked fun constants =>
    ConstantPool.mk (if p.slotCount + 1 = 0 then #[] else (.unused :: constants).toArray)

theorem run_slot_some {p : PoolBuilder} {key : ConstantKey} {bytes : List UInt8} {slots i : UInt16}
    (h : p.index.lookup key = some i) : (slot key bytes slots).run p = (i.toNat, p) := by
  change slot key bytes slots p = _
  simp [slot, h]

theorem run_slot_none {p : PoolBuilder} {key : ConstantKey} {bytes : List UInt8} {slots : UInt16}
    (h : p.index.lookup key = none) : (slot key bytes slots).run p =
      (p.next.toNat, ⟨bytes :: p.written, (key, p.next) :: p.index, p.next + slots⟩) := by
  change slot key bytes slots p = _
  simp [slot, h]

end PoolBuilder

theorem Reads.constant {i : Nat} {tag : UInt8} {bytes : List UInt8} {constant : Constant}
    (h : Reads (Constant.readTagged i tag.toNat) bytes constant) :
    Reads (Constant.read i) (tag :: bytes) constant := by
  unfold Constant.read
  exact (Reads.byte tag).bind (h.checked id)

theorem length_flatten_blocks {size : α → Nat} {items : List α} {blocks : List (List UInt8)}
    (h : List.Forall₂ (fun a bytes => bytes.length = size a) items blocks) :
    blocks.flatten.length = (items.map size).sum := by
  induction h with
  | nil => rfl
  | cons hfirst _ ih => simp [hfirst, ih]

/-- A step of writing that can rely on `pre` and makes `post` true of its answer. -/
structure Builds (pre : ConstantPool → Prop) (m : Build α) (post : ConstantPool → α → Prop) :
    Prop where
  grows : ∀ p, p.index <:+ (m.run p).2.index
  sound : ∀ p written, p.Holds written →
    (∀ pool, (ConstantPool.ofWritten written).Within pool → pre pool) → (m.run p).2.Fits →
    ∃ more, (m.run p).2.Holds (written ++ more) ∧
      ∀ pool, (ConstantPool.ofWritten (written ++ more)).Within pool → post pool (m.run p).1

namespace Builds

variable {pre : ConstantPool → Prop}

theorem pure {a : α} {post : ConstantPool → α → Prop} (h : ∀ pool, pre pool → post pool a) :
    Builds pre (Pure.pure a) post := by
  refine ⟨fun p => List.suffix_rfl, ?_⟩
  intro p written hp hpre _
  refine ⟨[], ?_, ?_⟩
  · rw [List.append_nil]
    exact hp
  · intro pool hw
    rw [List.append_nil] at hw
    exact h pool (hpre pool hw)

/-- What a step relied on and what it made true are both there for the next one. -/
theorem bind {m : Build α} {f : α → Build β} {mid : ConstantPool → α → Prop}
    {post : ConstantPool → β → Prop} (hm : Builds pre m mid)
    (hf : ∀ a, Builds (fun pool => pre pool ∧ mid pool a) (f a) post) :
    Builds pre (m >>= f) post := by
  refine ⟨fun p => (hm.grows p).trans ((hf _).grows _), ?_⟩
  intro p written hp hpre hfits
  obtain ⟨more, hmid, hmore⟩ := hm.sound p written hp hpre (hfits.of_suffix ((hf _).grows _))
  obtain ⟨last, hend, hlast⟩ := (hf _).sound _ _ hmid
    (fun pool hw => ⟨hpre pool ((ConstantPool.ofWritten_within _ _).trans hw), hmore pool hw⟩) hfits
  rw [List.append_assoc] at hend hlast
  exact ⟨more ++ last, hend, hlast⟩

theorem conseq {m : Build α} {post post' : ConstantPool → α → Prop} (h : Builds pre m post)
    (hp : ∀ pool a, pre pool → post pool a → post' pool a) : Builds pre m post' := by
  have hb : Builds pre (m >>= Pure.pure) post' := h.bind fun a =>
    Builds.pure fun pool hpool => hp pool a hpool.1 hpool.2
  rwa [bind_pure] at hb

/-- Things that are written one after the other leave one block of bytes each. -/
theorem encodeAll {encode : α → Build (List UInt8)} {post : ConstantPool → α → List UInt8 → Prop}
    {items : List α} (h : ∀ a ∈ items, ∀ pre, Builds pre (encode a) fun pool => post pool a) :
    Builds pre (ClassFile.encodeAll encode items) fun pool bytes =>
      ∃ blocks, List.Forall₂ (post pool) items blocks ∧ bytes = blocks.flatten := by
  induction items generalizing pre with
  | nil => exact Builds.pure fun _ _ => ⟨[], .nil, rfl⟩
  | cons a items ih =>
    refine (h a List.mem_cons_self pre).bind fun bytes => ?_
    refine (ih fun b hb => h b (List.mem_cons_of_mem _ hb)).bind fun more => Builds.pure ?_
    rintro pool ⟨⟨-, hbytes⟩, blocks, hblocks, rfl⟩
    exact ⟨bytes :: blocks, .cons hbytes hblocks, rfl⟩

theorem slot (constant : Constant) {key : ConstantKey} {bytes : List UInt8} {slots : UInt16}
    (hslots : slots.toNat = key.slots) (hwide : key.slots = if constant.isWide then 2 else 1)
    (hread : ∀ pool, pre pool → key.Fits → ∀ i, Reads (Constant.read i) bytes constant)
    (hmeans : ∀ pool i, pre pool → pool.constant i = .ok constant → key.Means pool i) :
    Builds pre (PoolBuilder.slot key bytes slots) fun pool i => i < 65536 ∧ key.Means pool i := by
  refine ⟨?_, ?_⟩
  · intro p
    cases h : p.index.lookup key with
    | some i => rw [PoolBuilder.run_slot_some h]
    | none =>
      rw [PoolBuilder.run_slot_none h]
      exact List.suffix_cons _ _
  · intro p written hp hpre hfits
    cases hi : p.index.lookup key with
    | some i =>
      rw [PoolBuilder.run_slot_some hi]
      refine ⟨[], by simpa using hp, ?_⟩
      intro pool hw
      rw [List.append_nil] at hw
      exact ⟨i.toNat_lt, (hp.means key i hi).within hw⟩
    | none =>
      rw [PoolBuilder.run_slot_none hi] at hfits ⊢
      have hself := hpre (.ofWritten written) (.refl _)
      have hcount := hfits.slotCount_le
      have hkey : key.Fits := hfits.key_fits (key, p.next) (by simp)
      simp only [PoolBuilder.slotCount, List.map_cons, List.sum_cons] at hcount
      have hplace := ConstantPool.constant_ofWritten written (bytes, constant)
      rw [← hp.slotCount_eq, ← hp.next_eq] at hplace
      have hnew := hmeans _ _ (hpre _ (ConstantPool.ofWritten_within _ _)) hplace
      refine ⟨[(bytes, constant)], ?_, ?_⟩
      · exact hp.write hslots hwide (by rw [PoolBuilder.slotCount]; omega)
          (hread _ hself hkey) hnew
      · exact fun pool hw => ⟨p.next.toNat_lt, hnew.within hw⟩

theorem utf8 (s : String) :
    Builds pre (PoolBuilder.utf8 s) fun pool i => i < 65536 ∧ pool.utf8 i = .ok s := by
  refine slot (.utf8 s) rfl rfl ?_ ?_
  · intro pool _ hfits i
    obtain ⟨hlen, hunits⟩ := hfits
    refine Reads.constant ?_
    refine (Reads.word2 _ (by omega)).bind ?_
    have hbytes := (Reads.bytes (Text.Utf8.encode s)).map fun b => Constant.utf8 (ModifiedUtf8.decode b)
    rwa [ModifiedUtf8.decode_utf8 s fun c hc => Nat.lt_succ_of_le (hunits c hc)] at hbytes
  · intro pool i _ hc
    simp [ConstantKey.Means, ConstantPool.utf8, hc, Except.bind]

theorem integer (n : Int) :
    Builds pre (PoolBuilder.integer n) fun pool i =>
      i < 65536 ∧ pool.integer i = .ok (Int.bmod n (2 ^ 32)) := by
  have hn : signedBigEndian (word4 (n % (Nat.pow 2 32 : Int)).toNat) = Int.bmod n (2 ^ 32) :=
    signedBigEndian_toBigEndian 3 n
  rw [← hn]
  refine slot (.integer (signedBigEndian (word4 (n % (Nat.pow 2 32 : Int)).toNat))) rfl rfl ?_ ?_
  · intro pool _ _ i
    exact Reads.constant ((Reads.bytes (word4 _)).map fun b => Constant.integer (signedBigEndian b))
  · intro pool i _ hc
    simp [ConstantKey.Means, ConstantPool.integer, hc, Except.bind]

theorem long (n : Int) :
    Builds pre (PoolBuilder.long n) fun pool i =>
      i < 65536 ∧ pool.long i = .ok (Int.bmod n (2 ^ 64)) := by
  have hn : signedBigEndian (toBigEndian 8 (n % (Nat.pow 2 64 : Int)).toNat) =
      Int.bmod n (2 ^ 64) := signedBigEndian_toBigEndian 7 n
  rw [← hn]
  refine slot (.long (signedBigEndian (toBigEndian 8 (n % (Nat.pow 2 64 : Int)).toNat))) rfl rfl ?_ ?_
  · intro pool _ _ i
    exact Reads.constant ((Reads.bytes (toBigEndian 8 _)).map fun b => Constant.long (signedBigEndian b))
  · intro pool i _ hc
    simp [ConstantKey.Means, ConstantPool.long, hc, Except.bind]

theorem classRef (dotted : String) :
    Builds pre (PoolBuilder.classRef dotted) fun pool i =>
      i < 65536 ∧ pool.className i = .ok (slashed dotted) := by
  refine (utf8 _).bind fun name => slot (.classRef name) rfl rfl ?_ ?_
  · rintro pool ⟨-, hname, -⟩ - i
    exact Reads.constant ((Reads.word2 name hname).map Constant.classRef)
  · rintro pool i ⟨-, -, hs⟩ hc
    simp [ConstantKey.Means, ConstantPool.className, hc, hs, Except.bind]

theorem nameAndType (name descriptor : String) {nameSlot descriptorSlot : Nat}
    (hcolon : ':' ∉ name.toList)
    (hpre : ∀ pool, pre pool → nameSlot < 65536 ∧ pool.utf8 nameSlot = .ok name ∧
      descriptorSlot < 65536 ∧ pool.utf8 descriptorSlot = .ok descriptor) :
    Builds pre (PoolBuilder.slot (.nameAndType (name ++ ":" ++ descriptor))
      (12 :: word2 nameSlot ++ word2 descriptorSlot) 1) fun pool i =>
        i < 65536 ∧ ∃ n d, pool.nameAndType i = .ok (n, d) ∧ pool.utf8 n = .ok name ∧
          pool.utf8 d = .ok descriptor := by
  refine (slot (.nameAndType nameSlot descriptorSlot) rfl rfl ?_ ?_).conseq ?_
  · intro pool hpool _ i
    obtain ⟨hn, -, hd, -⟩ := hpre pool hpool
    exact Reads.constant ((Reads.word2 nameSlot hn).bind
      ((Reads.word2 descriptorSlot hd).map (Constant.nameAndType nameSlot)))
  · intro pool i hpool hc name' descriptor' hcolon' hjoined
    obtain ⟨-, hn, -, hd⟩ := hpre pool hpool
    obtain ⟨rfl, rfl⟩ := nameAndType_inj hcolon hcolon' hjoined
    exact ⟨nameSlot, descriptorSlot, by simp [ConstantPool.nameAndType, hc, Except.bind], hn, hd⟩
  · exact fun pool i _ hi => ⟨hi.1, hi.2 name descriptor hcolon rfl⟩

/-- A method is found again under its own parts: no other that can be called has the same key. -/
theorem methodRef {owner name descriptor : String} (h : Callable owner name descriptor)
    (ofInterface : Bool) :
    Builds pre (PoolBuilder.methodRef owner name descriptor ofInterface) fun pool i =>
      i < 65536 ∧ pool.methodRef i = .ok ⟨slashed owner, name, descriptor, ofInterface⟩ := by
  refine (classRef owner).bind fun ownerSlot => ?_
  refine (utf8 name).bind fun nameSlot => (utf8 descriptor).bind fun descriptorSlot => ?_
  refine (nameAndType name descriptor h.name_colon ?_).bind fun typed => ?_
  · rintro pool ⟨⟨-, hn⟩, hd⟩
    exact ⟨hn.1, hn.2, hd⟩
  have hread : ∀ constant : Nat → Nat → Constant, ownerSlot < 65536 → typed < 65536 →
      Reads (do return constant (← Read.u2) (← Read.u2)) (word2 ownerSlot ++ word2 typed)
        (constant ownerSlot typed) := fun constant ho ht =>
    (Reads.word2 ownerSlot ho).bind ((Reads.word2 typed ht).map (constant ownerSlot))
  have hresolve : ∀ (pool : ConstantPool) (ofInterface : Bool) (owner' name' descriptor' : String),
      pool.className ownerSlot = .ok (slashed owner) →
      (∃ n d, pool.nameAndType typed = .ok (n, d) ∧ pool.utf8 n = .ok name ∧
        pool.utf8 d = .ok descriptor) →
      Callable owner' name' descriptor' →
      owner ++ "." ++ name ++ descriptor = owner' ++ "." ++ name' ++ descriptor' →
      pool.resolveMethod ownerSlot typed ofInterface =
        .ok ⟨slashed owner', name', descriptor', ofInterface⟩ := by
    rintro pool ofInterface owner' name' descriptor' ho ⟨n, d, ht, hn, hd⟩ hc hjoined
    obtain ⟨rfl, rfl, rfl⟩ := methodRef_inj h hc hjoined
    exact ConstantPool.resolveMethod_eq_ok.2 ⟨_, n, d, _, _, ho, ht, hn, hd, rfl⟩
  cases ofInterface with
  | true =>
    refine (slot (.interfaceMethodRef ownerSlot typed) rfl rfl ?_ ?_).conseq
      fun pool i _ hi => ⟨hi.1, hi.2 owner name descriptor h rfl⟩
    · rintro pool ⟨⟨⟨⟨-, ho, -⟩, -⟩, -⟩, ht, -⟩ - i
      exact Reads.constant (hread .interfaceMethodRef ho ht)
    · rintro pool i ⟨⟨⟨⟨-, -, ho⟩, -⟩, -⟩, -, ht⟩ hc owner' name' descriptor' hcall hjoined
      simp only [ConstantPool.methodRef, hc, Except.bind]
      exact hresolve pool true owner' name' descriptor' ho ht hcall hjoined
  | false =>
    refine (slot (.methodRef ownerSlot typed) rfl rfl ?_ ?_).conseq
      fun pool i _ hi => ⟨hi.1, hi.2 owner name descriptor h rfl⟩
    · rintro pool ⟨⟨⟨⟨-, ho, -⟩, -⟩, -⟩, ht, -⟩ - i
      exact Reads.constant (hread .methodRef ho ht)
    · rintro pool i ⟨⟨⟨⟨-, -, ho⟩, -⟩, -⟩, -, ht⟩ hc owner' name' descriptor' hcall hjoined
      simp only [ConstantPool.methodRef, hc, Except.bind]
      exact hresolve pool false owner' name' descriptor' ho ht hcall hjoined

end Builds

end ClassAtlas.ClassFile
