import ClassAtlas.ClassFile.ConstantPool
import Mathlib

/-!
Texts of the basic plane: for these the encoding inside class files reads plain UTF-8, since each of
their characters is one unit and no half of a pair.
-/
namespace ClassAtlas.ClassFile.ModifiedUtf8

theorem lead_two (n : Nat) (h : n < 32) : ¬UInt8.ofNat (n + 0xc0) < 0x80 ∧
    UInt8.ofNat (n + 0xc0) &&& 0xe0 = 0xc0 ∧ (UInt8.ofNat (n + 0xc0) &&& 0x1f).toNat = n := by
  revert n
  decide

theorem lead_three (n : Nat) (h : n < 16) : ¬UInt8.ofNat (n + 0xe0) < 0x80 ∧
    UInt8.ofNat (n + 0xe0) &&& 0xe0 ≠ 0xc0 ∧ UInt8.ofNat (n + 0xe0) &&& 0xf0 = 0xe0 ∧
    (UInt8.ofNat (n + 0xe0) &&& 0x0f).toNat = n := by
  revert n
  decide

theorem continuation (n : Nat) (h : n < 64) : (UInt8.ofNat (n + 0x80) &&& 0x3f).toNat = n := by
  revert n
  decide

theorem ascii (n : Nat) (h : n < 128) :
    UInt8.ofNat n < 0x80 ∧ (UInt8.ofNat n).toNat = n := by
  revert n
  decide

theorem units_one {a : UInt8} (h : a < 0x80) (rest : List UInt8) :
    units (a :: rest) = a.toNat :: units rest := by
  rw [units.eq_def]
  simp only [h, if_true]

theorem units_two {a : UInt8} (h : ¬a < 0x80) (ha : a &&& 0xe0 = 0xc0) (b : UInt8)
    (rest : List UInt8) : units (a :: b :: rest) =
      ((a &&& 0x1f).toNat * 64 + (b &&& 0x3f).toNat) :: units rest := by
  rw [units.eq_def]
  simp only [h, ha, if_false, if_true, beq_self_eq_true]

theorem units_three {a : UInt8} (h : ¬a < 0x80) (hne : a &&& 0xe0 ≠ 0xc0) (ha : a &&& 0xf0 = 0xe0)
    (b c : UInt8) (rest : List UInt8) : units (a :: b :: c :: rest) =
      ((a &&& 0x0f).toNat * 4096 + (b &&& 0x3f).toNat * 64 + (c &&& 0x3f).toNat) :: units rest := by
  rw [units.eq_def]
  simp only [h, hne, ha, beq_iff_eq, if_false, if_true]

theorem units_of_two {n : Nat} (h : n < 0x800) (rest : List UInt8) :
    units (UInt8.ofNat (n / 64 % 32 + 0xc0) :: UInt8.ofNat (n % 64 + 0x80) :: rest) =
      n :: units rest := by
  obtain ⟨hlt, hlead, hhigh⟩ := lead_two (n / 64 % 32) (by omega)
  have hlow := continuation (n % 64) (by omega)
  have hn : n / 64 % 32 * 64 + n % 64 = n := by omega
  rw [units_two hlt hlead, hhigh, hlow, hn]

theorem units_of_three {n : Nat} (h : n < 0x10000) (rest : List UInt8) :
    units (UInt8.ofNat (n / 4096 % 16 + 0xe0) :: UInt8.ofNat (n / 64 % 64 + 0x80) ::
      UInt8.ofNat (n % 64 + 0x80) :: rest) = n :: units rest := by
  obtain ⟨hlt, hne, hlead, hhigh⟩ := lead_three (n / 4096 % 16) (by omega)
  have hmid := continuation (n / 64 % 64) (by omega)
  have hlow := continuation (n % 64) (by omega)
  have hn : n / 4096 % 16 * 4096 + n / 64 % 64 * 64 + n % 64 = n := by omega
  rw [units_three hlt hne hlead, hhigh, hmid, hlow, hn]

/-- The bytes of a character of the basic plane are read as one unit. -/
theorem units_utf8EncodeChar (c : Char) (hc : c.toNat < 0x10000) (rest : List UInt8) :
    units (String.utf8EncodeChar c ++ rest) = c.toNat :: units rest := by
  change c.val.toNat < 0x10000 at hc
  change _ = c.val.toNat :: _
  generalize hv : c.val.toNat = v at hc
  simp only [String.utf8EncodeChar, hv]
  split
  · next h1 =>
    obtain ⟨hlt, hn⟩ := ascii v (by omega)
    rw [List.singleton_append, units_one hlt, hn]
  · split
    · next h2 => exact units_of_two (by omega) rest
    · next h2 =>
      rw [if_pos (by omega)]
      exact units_of_three hc rest

theorem units_encode (cs : List Char) (h : ∀ c ∈ cs, c.toNat < 0x10000) :
    units (cs.flatMap String.utf8EncodeChar) = cs.map Char.toNat := by
  induction cs with
  | nil => rfl
  | cons c cs ih =>
    rw [List.flatMap_cons, units_utf8EncodeChar c (h c (by simp)), ih fun d hd => h d (by simp [hd])]
    rfl

theorem not_half {u : Nat} (h : u < 0xd800 ∨ 0xdfff < u) : isHigh u = false ∧ isLow u = false := by
  simp only [isHigh, isLow, Bool.and_eq_false_iff, decide_eq_false_iff_not]
  omega

/-- A unit that is no half of a pair stands for itself. -/
theorem ofUnits_cons {u : Nat} (h : u < 0xd800 ∨ 0xdfff < u) (rest : List Nat) :
    ofUnits (u :: rest) = Char.ofNat u :: ofUnits rest := by
  obtain ⟨hhigh, hlow⟩ := not_half h
  cases rest with
  | nil => simp [ofUnits, hhigh, hlow]
  | cons v rest => simp [ofUnits, hhigh, hlow]

theorem toNat_not_half (c : Char) : c.toNat < 0xd800 ∨ 0xdfff < c.toNat := by
  rcases c.valid with h | h
  · exact .inl h
  · exact .inr h.1

theorem ofUnits_map_toNat (cs : List Char) : ofUnits (cs.map Char.toNat) = cs := by
  induction cs with
  | nil => rfl
  | cons c cs ih => rw [List.map_cons, ofUnits_cons (toNat_not_half c), ih, Char.ofNat_toNat]

/-- Plain ASCII needs no way of its own. -/
theorem decode_eq_ofUnits (bytes : List UInt8) :
    decode bytes = String.ofList (ofUnits (units bytes)) := by
  unfold decode
  split
  · next hall =>
    congr 1
    induction bytes with
    | nil => rfl
    | cons b bytes ih =>
      simp only [List.all_cons, Bool.and_eq_true, decide_eq_true_eq] at hall
      have hb : b.toNat < 128 := hall.1
      rw [units_one hall.1, ofUnits_cons (by omega), List.map_cons, ih hall.2]
  · rfl

theorem decode_utf8 (s : String) (h : ∀ c ∈ s.toList, c.toNat < 0x10000) :
    decode (Text.Utf8.encode s) = s := by
  rw [decode_eq_ofUnits, Text.Utf8.encode, units_encode _ h, ofUnits_map_toNat,
    String.ofList_toList]

end ClassAtlas.ClassFile.ModifiedUtf8
