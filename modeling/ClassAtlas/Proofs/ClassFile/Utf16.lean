import ClassAtlas.Proofs.ClassFile.ModifiedUtf8
import ClassAtlas.Proofs.ClassFile.Safety

/-!
Texts of class files, from bytes to UTF-16 units and from units to characters. Every text is read back
from its bytes. Whatever the bytes are, the loop over them ends with units of 16 bits, and these spell
characters only: a pair of halves is the character it stands for, and a half alone is replaced.
-/
namespace ClassAtlas.ClassFile.ModifiedUtf8

/-! Characters as units -/

theorem isHigh_iff {u : Nat} : isHigh u = true ↔ 0xd800 ≤ u ∧ u ≤ 0xdbff := by
  simp only [isHigh, Bool.and_eq_true, decide_eq_true_eq]
  omega

theorem isLow_iff {u : Nat} : isLow u = true ↔ 0xdc00 ≤ u ∧ u ≤ 0xdfff := by
  simp only [isLow, Bool.and_eq_true, decide_eq_true_eq]
  omega

theorem toNat_lt (c : Char) : c.toNat < 0x110000 := by
  rcases c.valid with h | h
  · exact lt_trans h (by decide)
  · exact h.2

theorem ofUnits_unitsOf (c : Char) (rest : List Nat) :
    ofUnits (unitsOf c ++ rest) = c :: ofUnits rest := by
  unfold unitsOf
  split
  · rw [List.singleton_append, ofUnits_cons (toNat_not_half c), Char.ofNat_toNat]
  · next hplane =>
    have hmax := toNat_lt c
    have hhigh : isHigh (0xd800 + (c.toNat - 0x10000) / 1024) = true := isHigh_iff.2 (by omega)
    have hlow : isLow (0xdc00 + (c.toNat - 0x10000) % 1024) = true := isLow_iff.2 (by omega)
    have hcode : 0x10000 + (0xd800 + (c.toNat - 0x10000) / 1024 - 0xd800) * 1024 +
        (0xdc00 + (c.toNat - 0x10000) % 1024 - 0xdc00) = c.toNat := by omega
    simp only [List.cons_append, List.nil_append, ofUnits, hhigh, hlow, Bool.and_self, if_true]
    rw [hcode, Char.ofNat_toNat]

theorem ofUnits_flatMap_unitsOf (cs : List Char) : ofUnits (cs.flatMap unitsOf) = cs := by
  induction cs with
  | nil => rfl
  | cons c cs ih => rw [List.flatMap_cons, ofUnits_unitsOf, ih]

theorem lt_of_mem_unitsOf {c : Char} {u : Nat} (h : u ∈ unitsOf c) : u < 0x10000 := by
  have hmax := toNat_lt c
  unfold unitsOf at h
  split at h
  · obtain rfl := List.mem_singleton.1 h
    assumption
  · simp only [List.mem_cons, List.not_mem_nil, or_false] at h
    omega

/-! Units as bytes -/

/-- A number of 16 bits in three bytes. -/
def threeBytes (n : Nat) : List UInt8 :=
  [UInt8.ofNat (n / 4096 % 16 + 0xe0), UInt8.ofNat (n / 64 % 64 + 0x80), UInt8.ofNat (n % 64 + 0x80)]

theorem encodeUnit_of_one {u : Nat} (hzero : u ≠ 0) (h : u < 0x80) :
    encodeUnit u = [UInt8.ofNat u] := by
  rw [encodeUnit, if_pos (by simp [hzero, h])]

theorem encodeUnit_of_two {u : Nat} (hone : u = 0 ∨ 0x80 ≤ u) (h : u < 0x800) :
    encodeUnit u = [UInt8.ofNat (u / 64 % 32 + 0xc0), UInt8.ofNat (u % 64 + 0x80)] := by
  have hascii : ¬(u != 0 && decide (u < 0x80)) = true := by
    simp only [Bool.and_eq_true, bne_iff_ne, decide_eq_true_eq]
    omega
  have hlead : 0xc0 + u / 64 = u / 64 % 32 + 0xc0 := by omega
  rw [encodeUnit, if_neg hascii, if_pos h, hlead, Nat.add_comm 0x80]

theorem encodeUnit_of_three {u : Nat} (htwo : 0x800 ≤ u) (h : u < 0x10000) :
    encodeUnit u = threeBytes u := by
  have hascii : ¬(u != 0 && decide (u < 0x80)) = true := by
    simp only [Bool.and_eq_true, bne_iff_ne, decide_eq_true_eq]
    omega
  have hlead : 0xe0 + u / 4096 = u / 4096 % 16 + 0xe0 := by omega
  rw [encodeUnit, if_neg hascii, if_neg (by omega), threeBytes, hlead, Nat.add_comm 0x80,
    Nat.add_comm 0x80]

theorem units_encodeUnit {u : Nat} (h : u < 0x10000) (rest : List UInt8) :
    units (encodeUnit u ++ rest) = u :: units rest := by
  by_cases hone : u ≠ 0 ∧ u < 0x80
  · obtain ⟨hlt, hn⟩ := ascii u hone.2
    rw [encodeUnit_of_one hone.1 hone.2, List.singleton_append, units_one hlt, hn]
  · by_cases htwo : u < 0x800
    · rw [encodeUnit_of_two (by omega) htwo]
      exact units_of_two htwo rest
    · rw [encodeUnit_of_three (by omega) h]
      exact units_of_three h rest

theorem units_flatMap_encodeUnit {us : List Nat} (h : ∀ u ∈ us, u < 0x10000) :
    units (us.flatMap encodeUnit) = us := by
  induction us with
  | nil => rfl
  | cons u us ih =>
    obtain ⟨hu, hus⟩ := List.forall_mem_cons.1 h
    rw [List.flatMap_cons, units_encodeUnit hu, ih hus]

theorem decode_of_encode (s : String) : decode (encode s) = s := by
  have hunits : ∀ u ∈ s.toList.flatMap unitsOf, u < 0x10000 := by
    intro u hu
    obtain ⟨c, -, hc⟩ := List.mem_flatMap.1 hu
    exact lt_of_mem_unitsOf hc
  rw [decode_eq_ofUnits, encode, units_flatMap_encodeUnit hunits, ofUnits_flatMap_unitsOf,
    String.ofList_toList]

/-- The bytes of a character: two for NUL, those of UTF-8 for any other of the basic plane, and for
one above it three bytes for each half of its pair. -/
def charBytes (c : Char) : List UInt8 :=
  if c.toNat = 0 then [0xc0, 0x80]
  else if c.toNat < 0x10000 then String.utf8EncodeChar c
  else threeBytes (0xd800 + (c.toNat - 0x10000) / 0x400) ++
    threeBytes (0xdc00 + (c.toNat - 0x10000) % 0x400)

theorem encodeUnit_toNat {c : Char} (hzero : c.toNat ≠ 0) (hc : c.toNat < 0x10000) :
    encodeUnit c.toNat = String.utf8EncodeChar c := by
  change c.val.toNat ≠ 0 at hzero
  change c.val.toNat < 0x10000 at hc
  change encodeUnit c.val.toNat = _
  generalize hv : c.val.toNat = v at hc hzero
  simp only [String.utf8EncodeChar, hv]
  by_cases hone : v < 0x80
  · rw [encodeUnit_of_one hzero hone, if_pos (by omega)]
  · by_cases htwo : v < 0x800
    · rw [encodeUnit_of_two (by omega) htwo, if_neg (by omega), if_pos (by omega)]
    · rw [encodeUnit_of_three (by omega) hc, if_neg (by omega), if_neg (by omega),
        if_pos (by omega), threeBytes]

theorem flatMap_encodeUnit_unitsOf (c : Char) : (unitsOf c).flatMap encodeUnit = charBytes c := by
  have hmax := toNat_lt c
  unfold unitsOf charBytes
  by_cases hzero : c.toNat = 0
  · rw [if_pos (by omega), if_pos hzero, hzero]
    decide
  · rw [if_neg hzero]
    split
    · next hplane => rw [List.flatMap_singleton, encodeUnit_toNat hzero hplane]
    · rw [List.flatMap_cons, List.flatMap_singleton, encodeUnit_of_three (by omega) (by omega),
        encodeUnit_of_three (by omega) (by omega)]

/-- Character by character, the bytes of a text are as the format has them. -/
theorem encode_eq_charBytes (s : String) : encode s = s.toList.flatMap charBytes := by
  rw [encode, List.flatMap_assoc]
  exact congrArg (s.toList.flatMap ·) (funext flatMap_encodeUnit_unitsOf)

/-! Any bytes -/

theorem toNat_and_le (a k : UInt8) : (a &&& k).toNat ≤ k.toNat := by
  rw [UInt8.toNat_and]
  exact Nat.and_le_right

/-- No form has more than 16 bits. -/
theorem lt_of_mem_units {bytes : List UInt8} : ∀ u ∈ units bytes, u < 0x10000 := by
  fun_induction units bytes with
  | case1 => simp
  | case2 a rest hascii ih =>
    have ha : a.toNat < 0x80 := hascii
    exact List.forall_mem_cons.2 ⟨by omega, ih⟩
  | case3 a _ b last _ ih =>
    have ha : (a &&& 0x1f).toNat ≤ 0x1f := toNat_and_le a 0x1f
    have hb : (b &&& 0x3f).toNat ≤ 0x3f := toNat_and_le b 0x3f
    exact List.forall_mem_cons.2 ⟨by omega, ih⟩
  | case4 a _ b _ c last _ ih =>
    have ha : (a &&& 0x0f).toNat ≤ 0x0f := toNat_and_le a 0x0f
    have hb : (b &&& 0x3f).toNat ≤ 0x3f := toNat_and_le b 0x3f
    have hc : (c &&& 0x3f).toNat ≤ 0x3f := toNat_and_le c 0x3f
    exact List.forall_mem_cons.2 ⟨by omega, ih⟩
  | case5 _ _ _ _ _ _ _ ih => exact List.forall_mem_cons.2 ⟨by decide, ih⟩
  | case6 _ _ _ _ ih => exact List.forall_mem_cons.2 ⟨by decide, ih⟩
  | case7 => simp

/-- UTF-16 units spell characters: a unit outside the halves is a character of the basic plane, a
high half before a low one is the character of the pair, and any other half is replaced. -/
inductive Spells : List Nat → List Char → Prop where
  | nil : Spells [] []
  | plain {c : Char} {us : List Nat} {cs : List Char} (hc : c.toNat < 0x10000) (h : Spells us cs) :
    Spells (c.toNat :: us) (c :: cs)
  | pair {u v : Nat} {c : Char} {us : List Nat} {cs : List Char} (hu : 0xd800 ≤ u ∧ u ≤ 0xdbff)
    (hv : 0xdc00 ≤ v ∧ v ≤ 0xdfff) (hc : c.toNat = 0x10000 + (u - 0xd800) * 0x400 + (v - 0xdc00))
    (h : Spells us cs) : Spells (u :: v :: us) (c :: cs)
  | high {u : Nat} {us : List Nat} {cs : List Char} (hu : 0xd800 ≤ u ∧ u ≤ 0xdbff)
    (halone : ∀ v ∈ us.head?, v < 0xdc00 ∨ 0xdfff < v) (h : Spells us cs) :
    Spells (u :: us) (Text.Utf8.replacement :: cs)
  | low {u : Nat} {us : List Nat} {cs : List Char} (hu : 0xdc00 ≤ u ∧ u ≤ 0xdfff)
    (h : Spells us cs) : Spells (u :: us) (Text.Utf8.replacement :: cs)

theorem toNat_ofNat {n : Nat} (h : n < 0xd800 ∨ 0xdfff < n ∧ n < 0x110000) :
    (Char.ofNat n).toNat = n := by
  rw [Char.toNat_ofNat, if_pos h]

/-- A unit before units that spell some characters, unless it is a high half before a low one. -/
theorem Spells.cons {u : Nat} {us : List Nat} {cs : List Char} (hu : u < 0x10000)
    (halone : isHigh u = true → ∀ v ∈ us.head?, isLow v = false) (h : Spells us cs) :
    Spells (u :: us)
      ((if isHigh u || isLow u then Text.Utf8.replacement else Char.ofNat u) :: cs) := by
  by_cases hhigh : isHigh u = true
  · rw [hhigh, Bool.true_or, if_pos rfl]
    refine .high (isHigh_iff.1 hhigh) ?_ h
    intro v hv
    have hlow := halone hhigh v hv
    rw [← Bool.not_eq_true, isLow_iff] at hlow
    omega
  · by_cases hlow : isLow u = true
    · rw [hlow, Bool.or_true, if_pos rfl]
      exact .low (isLow_iff.1 hlow) h
    · rw [if_neg (by simp [hhigh, hlow])]
      rw [isHigh_iff] at hhigh
      rw [isLow_iff] at hlow
      have hcode : (Char.ofNat u).toNat = u := toNat_ofNat (by omega)
      have hplain := Spells.plain (hcode.symm ▸ hu) h
      rwa [hcode] at hplain

theorem spells_ofUnits {us : List Nat} (h : ∀ u ∈ us, u < 0x10000) : Spells us (ofUnits us) := by
  fun_induction ofUnits us with
  | case1 => exact .nil
  | case2 u => exact .cons (h u (by simp)) (by simp) .nil
  | case3 u v rest hpair ih =>
    obtain ⟨-, hrest⟩ := List.forall_mem_cons.1 (List.forall_mem_cons.1 h).2
    obtain ⟨hu, hv⟩ := Bool.and_eq_true_iff.1 hpair
    rw [isHigh_iff] at hu
    rw [isLow_iff] at hv
    exact .pair hu hv (toNat_ofNat (by omega)) (ih hrest)
  | case4 u v rest hpair ih =>
    obtain ⟨hu, hrest⟩ := List.forall_mem_cons.1 h
    refine .cons hu ?_ (ih hrest)
    intro hhigh w hw
    obtain rfl : v = w := by simpa using hw
    simpa [hhigh] using hpair

/-- Units spell one text only. -/
theorem Spells.eq_ofUnits {us : List Nat} {cs : List Char} (h : Spells us cs) : cs = ofUnits us := by
  induction h with
  | nil => rfl
  | @plain c us cs _ _ ih => rw [ofUnits_cons (toNat_not_half c), Char.ofNat_toNat, ih]
  | @pair u v c us cs hu hv hc _ ih =>
    rw [ofUnits, isHigh_iff.2 hu, isLow_iff.2 hv, Bool.and_self, if_pos rfl, ← hc,
      Char.ofNat_toNat, ih]
  | @high u us cs hu halone _ ih =>
    rw [ih]
    cases us with
    | nil => simp [ofUnits, isHigh_iff.2 hu]
    | cons v us =>
      have hlow : isLow v = false := by
        rw [← Bool.not_eq_true, isLow_iff]
        have := halone v rfl
        omega
      simp [ofUnits, isHigh_iff.2 hu, hlow]
  | @low u us cs hu _ ih =>
    have hhigh : isHigh u = false := by
      rw [← Bool.not_eq_true, isHigh_iff]
      omega
    rw [ih]
    cases us <;> simp [ofUnits, hhigh, isLow_iff.2 hu]

/-- The text that the loop over the bytes makes in so many steps at most, with no way of its own for
ASCII. -/
def loopText? (bytes : List UInt8) (steps : Nat) : Option String :=
  (InPlace.unitsAt bytes steps 0).map fun us => String.ofList (ofUnits us)

theorem unitsAt_zero {bytes : List UInt8} {steps : Nat} (h : bytes.length ≤ steps) :
    InPlace.unitsAt bytes steps 0 = some (units bytes) :=
  InPlace.unitsAt_eq bytes steps 0 (by omega)

/-- The loop ends, with the text that decoding gives. -/
theorem loopText?_eq {bytes : List UInt8} {steps : Nat} (h : bytes.length ≤ steps) :
    loopText? bytes steps = some (decode bytes) := by
  rw [loopText?, unitsAt_zero h, Option.map_some, decode_eq_ofUnits]

/-- Texts of class files are decoded as they should be. A text is read back from its bytes, which are
those that the format has for its characters; one of the basic plane is also read back from UTF-8. On
ASCII the loop makes the text that the bytes are. On any bytes it ends after one step a byte at most,
with every index in range, and its units are of 16 bits and spell the text that is decoded and no
other. -/
theorem texts_are_decoded :
    (∀ s, encode s = s.toList.flatMap charBytes ∧ decode (encode s) = s) ∧
    (∀ s, (∀ c ∈ s.toList, c.toNat < 0x10000) → decode (Text.Utf8.encode s) = s) ∧
    (∀ bytes steps, (∀ b ∈ bytes, b < 0x80) → bytes.length ≤ steps →
      loopText? bytes steps = some (String.ofList (bytes.map fun b => Char.ofNat b.toNat))) ∧
    ∀ bytes steps, bytes.length ≤ steps → loopText? bytes steps = some (decode bytes) ∧
      ∃ us, InPlace.unitsAt bytes steps 0 = some us ∧ (∀ u ∈ us, u < 0x10000) ∧
        ∀ cs, Spells us cs ↔ cs = (decode bytes).toList := by
  refine ⟨fun s => ⟨encode_eq_charBytes s, decode_of_encode s⟩, decode_utf8, ?_, ?_⟩
  · intro bytes steps hascii hsteps
    have hall : bytes.all (· < 0x80) = true := by simpa using hascii
    rw [loopText?_eq hsteps, decode, if_pos hall]
  · intro bytes steps hsteps
    refine ⟨loopText?_eq hsteps, units bytes, unitsAt_zero hsteps, lt_of_mem_units, ?_⟩
    have htext : (decode bytes).toList = ofUnits (units bytes) := by
      rw [decode_eq_ofUnits, String.toList_ofList]
    intro cs
    rw [htext]
    constructor
    · exact Spells.eq_ofUnits
    · rintro rfl
      exact spells_ofUnits lt_of_mem_units

/-- A text with NUL and a character above the basic plane, and bytes that end inside a form. -/
theorem texts_are_decoded_mixed :
    decode [0x61, 0xc0, 0x80, 0xed, 0xa0, 0xbd, 0xed, 0xb8, 0x80] = "a\x00😀" ∧
    decode (Text.Utf8.encode "é") = "é" ∧
    loopText? [0x68, 0x69] 2 = some "hi" ∧
    loopText? [0xff, 0x61, 0xe2, 0x82] 4 = some (decode [0xff, 0x61, 0xe2, 0x82]) ∧
    decode [0xff, 0x61, 0xe2, 0x82] = "\ufffda\ufffd\ufffd" := by
  obtain ⟨hround, hplane, hascii, hany⟩ := texts_are_decoded
  have hbytes : encode "a\x00😀" = [0x61, 0xc0, 0x80, 0xed, 0xa0, 0xbd, 0xed, 0xb8, 0x80] := by
    decide +kernel
  refine ⟨hbytes ▸ (hround "a\x00😀").2, hplane "é" ?_, hascii _ 2 (by simp) (by decide),
    (hany _ 4 (by decide)).1, by decide +kernel⟩
  intro c hc
  obtain rfl : c = 'é' := by simpa using hc
  decide

end ClassAtlas.ClassFile.ModifiedUtf8
