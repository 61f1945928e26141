import ClassAtlas.ClassFile.ConstantPool
import ClassAtlas.ClassFile.Encode
import ClassAtlas.Proofs.ClassFile.ModifiedUtf8
import ClassAtlas.Proofs.ClassFile.Names
import ClassAtlas.Proofs.ClassFile.Reads

/-!
A constant pool is filled while the rest of a class is written, and read before that rest. A step of
writing is described by what it makes true of every pool that the finished one can be: the slots it
hands out keep their meaning, since later steps only add constants.
-/
namespace ClassAtlas.ClassFile

theorem Reads.word2 (n : Nat) (h : n < 65536) : Reads Read.u2 (word2 n) n :=
  Reads.toBigEndian 2 n h

theorem Reads.word4 (n : Nat) (h : n < 4294967296) : Reads Read.u4 (word4 n) n :=
  Reads.toBigEndian 4 n h

theorem Reads.byte (b : UInt8) : Reads Read.u1 [b] b.toNat := by
  have hb := Reads.number [b]
  have hn : bigEndian [b] = b.toNat := by simp [bigEndian]
  rwa [hn] at hb

namespace ConstantPool

/-- Every slot of one pool is a slot of another. -/
def Within (p q : ConstantPool) : Prop := p.slots.toList <+: q.slots.toList

theorem Within.refl (p : ConstantPool) : p.Within p := List.prefix_rfl

theorem Within.trans {p q r : ConstantPool} (h : p.Within q) (h' : q.Within r) : p.Within r :=
  List.IsPrefix.trans h h'

variable {p q : ConstantPool} {i : Nat}

theorem Within.constant (h : p.Within q) {c : Constant} (hc : p.constant i = .ok c) :
    q.constant i = .ok c := by
  unfold ConstantPool.constant at hc ⊢
  split
  · next hi => simp [hi] at hc
  · next hi =>
    rw [if_neg hi] at hc
    cases hp : p.slots[i]? with
    | none => simp [hp] at hc
    | some d =>
      have hq : q.slots[i]? = some d := by
        rw [← Array.getElem?_toList] at hp ⊢
        obtain ⟨more, hmore⟩ := h
        rw [← hmore, List.getElem?_append_left (List.getElem?_eq_some_iff.1 hp).1]
        exact hp
      simpa [hp, hq] using hc

/-- A look-up that only asks for a constant gives the same in a larger pool. -/
theorem Within.bind (h : p.Within q) {f g : Constant → Except Fault α} {a : α}
    (hfg : ∀ c, f c = .ok a → g c = .ok a) (hp : (p.constant i).bind f = .ok a) :
    (q.constant i).bind g = .ok a := by
  cases hc : p.constant i with
  | error e => simp [hc, Except.bind] at hp
  | ok c =>
    rw [h.constant hc]
    rw [hc] at hp
    exact hfg c hp

theorem Within.utf8 (h : p.Within q) {s : String} (hp : p.utf8 i = .ok s) : q.utf8 i = .ok s :=
  h.bind (fun _ => id) hp

theorem Within.integer (h : p.Within q) {n : Int} (hp : p.integer i = .ok n) :
    q.integer i = .ok n :=
  h.bind (fun _ => id) hp

theorem Within.long (h : p.Within q) {n : Int} (hp : p.long i = .ok n) : q.long i = .ok n :=
  h.bind (fun _ => id) hp

theorem Within.className (h : p.Within q) {s : String} (hp : p.className i = .ok s) :
    q.className i = .ok s := by
  refine h.bind ?_ hp
  intro c hc
  cases c <;> first | exact h.utf8 hc | exact hc

theorem Within.nameAndType (h : p.Within q) {n : Nat × Nat} (hp : p.nameAndType i = .ok n) :
    q.nameAndType i = .ok n :=
  h.bind (fun _ => id) hp

theorem resolveMethod_eq_ok {owner nameAndType : Nat} {ofInterface : Bool} {m : MethodRef} :
    p.resolveMethod owner nameAndType ofInterface = .ok m ↔
      ∃ className n d name descriptor, p.className owner = .ok className ∧
        p.nameAndType nameAndType = .ok (n, d) ∧ p.utf8 n = .ok name ∧
        p.utf8 d = .ok descriptor ∧ m = ⟨className, name, descriptor, ofInterface⟩ := by
  simp only [ConstantPool.resolveMethod, except_bind_eq_ok, Prod.exists]
  constructor
  · rintro ⟨className, ho, n, d, ht, name, hn, descriptor, hd, ⟨⟩⟩
    exact ⟨className, n, d, name, descriptor, ho, ht, hn, hd, rfl⟩
  · rintro ⟨className, n, d, name, descriptor, ho, ht, hn, hd, rfl⟩
    exact ⟨className, ho, n, d, ht, name, hn, descriptor, hd, rfl⟩

theorem Within.resolveMethod (h : p.Within q) {owner nameAndType : Nat} {ofInterface : Bool}
    {m : MethodRef} (hp : p.resolveMethod owner nameAndType ofInterface = .ok m) :
    q.resolveMethod owner nameAndType ofInterface = .ok m := by
  rw [resolveMethod_eq_ok] at hp ⊢
  obtain ⟨className, n, d, name, descriptor, ho, ht, hn, hd, rfl⟩ := hp
  exact ⟨className, n, d, name, descriptor, h.className ho, h.nameAndType ht, h.utf8 hn, h.utf8 hd,
    rfl⟩

theorem Within.methodRef (h : p.Within q) {m : MethodRef} (hp : p.methodRef i = .ok m) :
    q.methodRef i = .ok m := by
  refine h.bind ?_ hp
  intro c hc
  cases c <;> first | exact h.resolveMethod hc | exact hc

end ConstantPool

/-- What the slot of a constant has to hold. -/
def ConstantKey.Means (pool : ConstantPool) (i : Nat) : ConstantKey → Prop
  | .utf8 s => pool.utf8 i = .ok s
  | .integer bytes => pool.integer i = .ok (signedBigEndian bytes)
  | .long bytes => pool.long i = .ok (signedBigEndian bytes)
  | .classRef name => pool.className i = .ok (slashed name)
  | .nameAndType joined => ∀ name descriptor, ':' ∉ name.toList →
      joined = name ++ ":" ++ descriptor → ∃ n d, pool.nameAndType i = .ok (n, d) ∧
        pool.utf8 n = .ok name ∧ pool.utf8 d = .ok descriptor
  | .methodRef joined => ∀ owner name descriptor, Callable owner name descriptor →
      joined = owner ++ "." ++ name ++ descriptor →
      pool.methodRef i = .ok ⟨slashed owner, name, descriptor, false⟩
  | .interfaceMethodRef joined => ∀ owner name descriptor, Callable owner name descriptor →
      joined = owner ++ "." ++ name ++ descriptor →
      pool.methodRef i = .ok ⟨slashed owner, name, descriptor, true⟩

theorem ConstantKey.Means.within {p q : ConstantPool} (h : p.Within q) {i : Nat}
    {key : ConstantKey} (hk : key.Means p i) : key.Means q i := by
  cases key with
  | utf8 s => exact h.utf8 hk
  | integer bytes => exact h.integer hk
  | long bytes => exact h.long hk
  | classRef name => exact h.className hk
  | nameAndType joined =>
    intro name descriptor hc hj
    obtain ⟨n, d, ht, hn, hd⟩ := hk name descriptor hc hj
    exact ⟨n, d, h.nameAndType ht, h.utf8 hn, h.utf8 hd⟩
  | methodRef joined => exact fun owner name descriptor hc hj => h.methodRef (hk _ _ _ hc hj)
  | interfaceMethodRef joined => exact fun owner name descriptor hc hj => h.methodRef (hk _ _ _ hc hj)

/-- Constants with the empty slots that follow the wide ones. -/
def slotsOf (constants : List Constant) : List Constant :=
  constants.flatMap fun c => if c.isWide then [c, .unused] else [c]

/-- The pool of some constants that were written one after the other. -/
def ConstantPool.ofWritten (written : List (List UInt8 × Constant)) : ConstantPool :=
  ⟨(.unused :: slotsOf (written.map (·.2))).toArray⟩

theorem ConstantPool.ofWritten_within (written more : List (List UInt8 × Constant)) :
    (ofWritten written).Within (ofWritten (written ++ more)) := by
  simp only [Within, ofWritten, slotsOf, List.map_append, List.flatMap_append, ← List.cons_append]
  exact List.prefix_append _ _

/-- A constant has the slot after those of the constants before it. -/
theorem ConstantPool.constant_ofWritten (written : List (List UInt8 × Constant))
    (entry : List UInt8 × Constant) :
    (ofWritten (written ++ [entry])).constant ((slotsOf (written.map (·.2))).length + 1) =
      .ok entry.2 := by
  have hslot : (ofWritten (written ++ [entry])).slots[(slotsOf (written.map (·.2))).length + 1]? =
      some entry.2 := by
    simp only [ofWritten, slotsOf, List.map_append, List.flatMap_append, List.map_cons, List.map_nil,
      List.flatMap_cons, List.flatMap_nil, List.append_nil, List.getElem?_toArray,
      List.getElem?_cons_succ]
    rw [List.getElem?_append_right (Nat.le_refl _), Nat.sub_self]
    split <;> rfl
  simp [ConstantPool.constant, hslot]

/-- Constants that are written one after the other are read into their slots. -/
theorem reads_slots (written : List (List UInt8 × Constant))
    (h : ∀ e ∈ written, ∀ i, Reads (Constant.read i) e.1 e.2) (index : Nat) :
    Reads (ConstantPool.readSlots index (slotsOf (written.map (·.2))).length)
      (written.map (·.1)).flatten (slotsOf (written.map (·.2))) := by
  induction written generalizing index with
  | nil => exact Reads.pure []
  | cons e written ih =>
    have hread := h e List.mem_cons_self index
    have hmore := ih fun f hf => h f (List.mem_cons_of_mem _ hf)
    simp only [List.map_cons, List.flatten_cons]
    by_cases hw : e.2.isWide = true
    · have hs : slotsOf (e.2 :: written.map (·.2)) =
          e.2 :: .unused :: slotsOf (written.map (·.2)) := by simp [slotsOf, hw]
      rw [hs]
      refine hread.bind ?_
      simp only [hw, if_true]
      exact (hmore (index + 2)).map _
    · have hs : slotsOf (e.2 :: written.map (·.2)) = e.2 :: slotsOf (written.map (·.2)) := by
        simp [slotsOf, hw]
      rw [hs]
      cases written with
      | nil =>
        simp only [List.map_nil, List.flatten_nil, List.append_nil]
        exact hread.map fun c => [c]
      | cons f written =>
        have hrest := hmore (index + 1)
        obtain ⟨n, hn⟩ : ∃ n, (slotsOf ((f :: written).map (·.2))).length = n + 1 := by
          refine Nat.exists_eq_add_one_of_ne_zero ?_
          by_cases hf : f.2.isWide = true <;> simp [slotsOf, hf]
        rw [hn] at hrest
        rw [List.length_cons, hn]
        refine hread.bind ?_
        simp only [hw]
        exact hrest.map _

end ClassAtlas.ClassFile
