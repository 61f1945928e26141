import ClassAtlas.Text.Utf8
import Mathlib

/-!
Every text is read back from its bytes: the bytes of a character are well-formed, and they are read
as that character whatever follows them.
-/
namespace ClassAtlas.Text.Utf8

theorem toNat_ofNat_byte {n : Nat} (h : n < 256) : (UInt8.ofNat n).toNat = n := by
  simp [Nat.mod_eq_of_lt h]

theorem isContinuation_of_toNat {b : UInt8} (h : 0x80 ≤ b.toNat ∧ b.toNat < 0xc0) :
    isContinuation b = true := by
  simpa [isContinuation, UInt8.le_iff_toNat_le, UInt8.lt_iff_toNat_lt] using h

theorem not_lt_of_toNat {a k : UInt8} (h : k.toNat ≤ a.toNat) : ¬a < k :=
  UInt8.not_lt.2 (UInt8.le_iff_toNat_le.2 h)

theorem bne_or_decide {a k : UInt8} {p : Prop} [Decidable p] (h : a.toNat = k.toNat → p) :
    (a != k || decide p) = true := by
  by_cases hk : a = k
  · simp [h (congrArg UInt8.toNat hk)]
  · simp [hk]

theorem first?_one {a : UInt8} (ha : a.toNat < 0x80) (rest : List UInt8) :
    first? (a :: rest) = some (Char.ofNat a.toNat, 1) := by
  have hlead : a < 0x80 := ha
  simp only [first?, hlead, if_true]

theorem first?_two {a b : UInt8} (ha : 0xc2 ≤ a.toNat ∧ a.toNat < 0xe0)
    (hb : 0x80 ≤ b.toNat ∧ b.toNat < 0xc0) (rest : List UInt8) : first? (a :: b :: rest) =
      some (Char.ofNat ((a.toNat - 0xc0) * 64 + (b.toNat - 0x80)), 2) := by
  have hone : ¬a < 0x80 := not_lt_of_toNat (le_trans (by decide) ha.1)
  have hlead : (0xc2 : UInt8) ≤ a ∧ a < 0xe0 := ha
  simp only [first?, hone, hlead, isContinuation_of_toNat hb, decide_true, Bool.and_self, if_true,
    if_false]

theorem first?_three {a b c : UInt8} (ha : 0xe0 ≤ a.toNat ∧ a.toNat < 0xf0)
    (hb : 0x80 ≤ b.toNat ∧ b.toNat < 0xc0) (hc : 0x80 ≤ c.toNat ∧ c.toNat < 0xc0)
    (hshort : a.toNat = 0xe0 → 0xa0 ≤ b.toNat) (hhalf : a.toNat = 0xed → b.toNat < 0xa0)
    (rest : List UInt8) : first? (a :: b :: c :: rest) =
      some (Char.ofNat ((a.toNat - 0xe0) * 4096 + (b.toNat - 0x80) * 64 + (c.toNat - 0x80)), 3) := by
  have hone : ¬a < 0x80 := not_lt_of_toNat (le_trans (by decide) ha.1)
  have htwo : ¬a < 0xe0 := not_lt_of_toNat ha.1
  have hlead : (0xe0 : UInt8) ≤ a ∧ a < 0xf0 := ha
  have hlow : (a != 0xe0 || decide ((0xa0 : UInt8) ≤ b)) = true := bne_or_decide hshort
  have hhigh : (a != 0xed || decide (b < (0xa0 : UInt8))) = true := bne_or_decide hhalf
  simp only [first?, hone, htwo, hlead, hlow, hhigh, isContinuation_of_toNat hb,
    isContinuation_of_toNat hc, decide_true, decide_false, Bool.and_self, Bool.and_false,
    Bool.false_and, Bool.false_eq_true, if_true, if_false]

theorem first?_four {a b c d : UInt8} (ha : 0xf0 ≤ a.toNat ∧ a.toNat < 0xf5)
    (hb : 0x80 ≤ b.toNat ∧ b.toNat < 0xc0) (hc : 0x80 ≤ c.toNat ∧ c.toNat < 0xc0)
    (hd : 0x80 ≤ d.toNat ∧ d.toNat < 0xc0) (hshort : a.toNat = 0xf0 → 0x90 ≤ b.toNat)
    (hlong : a.toNat = 0xf4 → b.toNat < 0x90) (rest : List UInt8) :
    first? (a :: b :: c :: d :: rest) =
      some (Char.ofNat ((a.toNat - 0xf0) * 262144 + (b.toNat - 0x80) * 4096 +
        (c.toNat - 0x80) * 64 + (d.toNat - 0x80)), 4) := by
  have hone : ¬a < 0x80 := not_lt_of_toNat (le_trans (by decide) ha.1)
  have htwo : ¬a < 0xe0 := not_lt_of_toNat (le_trans (by decide) ha.1)
  have hthree : ¬a < 0xf0 := not_lt_of_toNat ha.1
  have hlead : (0xf0 : UInt8) ≤ a ∧ a < 0xf5 := ha
  have hlow : (a != 0xf0 || decide ((0x90 : UInt8) ≤ b)) = true := bne_or_decide hshort
  have hhigh : (a != 0xf4 || decide (b < (0x90 : UInt8))) = true := bne_or_decide hlong
  simp only [first?, hone, htwo, hthree, hlead, hlow, hhigh, isContinuation_of_toNat hb,
    isContinuation_of_toNat hc, isContinuation_of_toNat hd, decide_true, decide_false,
    Bool.and_self, Bool.and_false, Bool.false_and, Bool.false_eq_true, if_true, if_false]

/-- No character is half of a pair, and none has a shorter form than the one that is written. -/
theorem first?_utf8EncodeChar (c : Char) (rest : List UInt8) :
    first? (String.utf8EncodeChar c ++ rest) = some (c, (String.utf8EncodeChar c).length) := by
  have hc : Char.ofNat c.val.toNat = c := Char.ofNat_toNat c
  have hvalid : c.val.toNat < 0xd800 ∨ 0xdfff < c.val.toNat ∧ c.val.toNat < 0x110000 := c.valid
  generalize hv : c.val.toNat = v at hc hvalid
  simp only [String.utf8EncodeChar, hv]
  have hlast : (UInt8.ofNat (v % 64 + 0x80)).toNat = v % 64 + 0x80 := toNat_ofNat_byte (by omega)
  have hthird : (UInt8.ofNat (v / 64 % 64 + 0x80)).toNat = v / 64 % 64 + 0x80 :=
    toNat_ofNat_byte (by omega)
  split
  · next h =>
    have hfirst : (UInt8.ofNat v).toNat = v := toNat_ofNat_byte (by omega)
    rw [List.singleton_append, first?_one (by omega), hfirst, hc]
    rfl
  · split
    · next h =>
      have hfirst : (UInt8.ofNat (v / 64 % 32 + 0xc0)).toNat = v / 64 % 32 + 0xc0 :=
        toNat_ofNat_byte (by omega)
      simp only [List.cons_append, List.nil_append]
      rw [first?_two (by omega) (by omega), hfirst, hlast, show (v / 64 % 32 + 0xc0 - 0xc0) * 64 +
        (v % 64 + 0x80 - 0x80) = v by omega, hc]
      rfl
    · split
      · next h =>
        have hfirst : (UInt8.ofNat (v / 4096 % 16 + 0xe0)).toNat = v / 4096 % 16 + 0xe0 :=
          toNat_ofNat_byte (by omega)
        simp only [List.cons_append, List.nil_append]
        rw [first?_three (by omega) (by omega) (by omega) (by omega) (by omega), hfirst, hthird,
          hlast, show (v / 4096 % 16 + 0xe0 - 0xe0) * 4096 + (v / 64 % 64 + 0x80 - 0x80) * 64 +
            (v % 64 + 0x80 - 0x80) = v by omega, hc]
        rfl
      · next h =>
        have hfirst : (UInt8.ofNat (v / 262144 % 8 + 0xf0)).toNat = v / 262144 % 8 + 0xf0 :=
          toNat_ofNat_byte (by omega)
        have hsecond : (UInt8.ofNat (v / 4096 % 64 + 0x80)).toNat = v / 4096 % 64 + 0x80 :=
          toNat_ofNat_byte (by omega)
        simp only [List.cons_append, List.nil_append]
        rw [first?_four (by omega) (by omega) (by omega) (by omega) (by omega) (by omega), hfirst,
          hsecond, hthird, hlast, show (v / 262144 % 8 + 0xf0 - 0xf0) * 262144 +
            (v / 4096 % 64 + 0x80 - 0x80) * 4096 + (v / 64 % 64 + 0x80 - 0x80) * 64 +
            (v % 64 + 0x80 - 0x80) = v by omega, hc]
        rfl

theorem scan_append (bytes rest : List UInt8) : scan bytes.length (bytes ++ rest) = scan 0 rest := by
  induction bytes with
  | nil => rfl
  | cons b bytes ih => exact ih

theorem scan_utf8EncodeChar (c : Char) (rest : List UInt8) :
    scan 0 (String.utf8EncodeChar c ++ rest) = some c :: scan 0 rest := by
  have hfirst := first?_utf8EncodeChar c rest
  cases hbytes : String.utf8EncodeChar c with
  | nil => exact absurd hbytes String.utf8EncodeChar_ne_nil
  | cons a bytes =>
    rw [hbytes] at hfirst
    rw [List.cons_append] at hfirst ⊢
    rw [scan, hfirst]
    exact congrArg (some c :: ·) (scan_append bytes rest)

theorem scan_encode (s : String) : scan 0 (encode s) = s.toList.map some := by
  rw [encode]
  induction s.toList with
  | nil => rfl
  | cons c cs ih => rw [List.flatMap_cons, scan_utf8EncodeChar, ih, List.map_cons]

@[simp] theorem decode_encode_self (s : String) : decode (encode s) = s := by
  rw [decode, scan_encode, List.map_map]
  exact (congrArg String.ofList (List.map_id _)).trans String.ofList_toList

theorem isValid_encode (s : String) : isValid (encode s) = true := by
  rw [isValid, scan_encode]
  simp

end ClassAtlas.Text.Utf8
