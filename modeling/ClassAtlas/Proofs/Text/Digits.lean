import ClassAtlas.Text.Basic
import Mathlib

/-!
Numbers written with leading zeros. The number can be read off its digits, and texts of one width
are in the order of their numbers.
-/
namespace ClassAtlas.Text

/-! Texts of one length -/

/-- Where two fronts are of one length they decide the order, unless they are equal. -/
theorem append_lt_append_iff {a b : List Char} (h : a.length = b.length) (x y : List Char) :
    a ++ x < b ++ y ↔ a < b ∨ a = b ∧ x < y := by
  induction a generalizing b with
  | nil =>
    obtain rfl := List.length_eq_zero_iff.1 h.symm
    simp
  | cons c a ih =>
    cases b with
    | nil => cases h
    | cons d b =>
      rw [List.cons_append, List.cons_append, List.cons_lt_cons_iff, List.cons_lt_cons_iff,
        ih (Nat.succ.inj h), List.cons.injEq]
      tauto

/-! Digits -/

theorem digitChar_lt_iff {a b : Nat} (ha : a < 10) (hb : b < 10) :
    Nat.digitChar a < Nat.digitChar b ↔ a < b := by
  rw [Char.lt_def, UInt32.lt_iff_toNat_lt]
  change (Nat.digitChar a).toNat < (Nat.digitChar b).toNat ↔ a < b
  rw [Nat.toNat_digitChar_of_lt_ten ha, Nat.toNat_digitChar_of_lt_ten hb]
  omega

theorem hexDigit?_digitChar {d : Nat} (h : d < 10) : hexDigit? (Nat.digitChar d) = some d := by
  interval_cases d <;> decide

theorem digitsValue?_concat {base d n : Nat} {cs : List Char} {c : Char}
    (hcs : digitsValue? base cs = some n) (hc : hexDigit? c = some d) (hd : d < base) :
    digitsValue? base (cs ++ [c]) = some (n * base + d) := by
  rw [digitsValue?] at hcs
  rw [digitsValue?, List.foldl_append, hcs]
  simp [hc, hd]

theorem digitsValue?_toDigits (n : Nat) : digitsValue? 10 (Nat.toDigits 10 n) = some n := by
  induction n using Nat.strong_induction_on with
  | _ n ih =>
    by_cases h : n < 10
    · rw [Nat.toDigits_of_lt_base h]
      have hempty : digitsValue? 10 [] = some 0 := rfl
      simpa using digitsValue?_concat hempty (hexDigit?_digitChar h) h
    · rw [Nat.toDigits_of_base_le (by decide) (by omega)]
      have hlast : n % 10 < 10 := Nat.mod_lt _ (by decide)
      rw [digitsValue?_concat (ih (n / 10) (by omega)) (hexDigit?_digitChar hlast) hlast]
      congr 1
      omega

theorem digitsValue?_zeros (k : Nat) (cs : List Char) :
    digitsValue? 10 (List.replicate k '0' ++ cs) = digitsValue? 10 cs := by
  induction k with
  | zero => rfl
  | succ k ih => rw [← ih]; rfl

/-- A number can be read off its digits, however many zeros stand in front. -/
theorem digitsValue?_zeroPadded (width n : Nat) :
    digitsValue? 10 (zeroPadded width n).toList = some n := by
  rw [zeroPadded, String.toList_ofList, digitsValue?_zeros, digitsValue?_toDigits]

theorem zeroPadded_inj {width a b : Nat} : zeroPadded width a = zeroPadded width b ↔ a = b := by
  constructor
  · intro h
    have hvalue := digitsValue?_zeroPadded width a
    rw [h, digitsValue?_zeroPadded] at hvalue
    exact (Option.some.inj hvalue).symm
  · intro h
    rw [h]

theorem isDigit_of_mem_zeroPadded {width n : Nat} {c : Char}
    (h : c ∈ (zeroPadded width n).toList) : c.isDigit = true := by
  rw [zeroPadded, String.toList_ofList, List.mem_append] at h
  rcases h with h | h
  · rw [List.eq_of_mem_replicate h]
    decide
  · exact Nat.isDigit_of_mem_toDigits (by decide) (by decide) h

theorem zeroPadded_one {n : Nat} (h : n < 10) : (zeroPadded 1 n).toList = [Nat.digitChar n] := by
  simp [zeroPadded, Nat.toDigits_of_lt_base h]

/-- One more digit of width is one more digit at the end. -/
theorem zeroPadded_succ {width : Nat} (hw : 1 ≤ width) (n : Nat) : (zeroPadded (width + 1) n).toList =
    (zeroPadded width (n / 10)).toList ++ [Nat.digitChar (n % 10)] := by
  obtain ⟨width, rfl⟩ := Nat.exists_eq_add_of_le' hw
  rw [zeroPadded, zeroPadded, String.toList_ofList, String.toList_ofList]
  by_cases h : n < 10
  · have hzero : n / 10 = 0 := by omega
    rw [Nat.toDigits_of_lt_base h, hzero, Nat.toDigits_of_lt_base (by decide), Nat.mod_eq_of_lt h]
    change List.replicate (width + 1) '0' ++ _ = (List.replicate width '0' ++ ['0']) ++ _
    rw [List.replicate_succ']
  · rw [Nat.toDigits_eq_if (by decide), if_neg h, List.length_append, List.append_assoc]
    simp

/-- A width that the number fits in is the length of the text. -/
theorem length_zeroPadded {width n : Nat} (hw : 1 ≤ width) (h : n < 10 ^ width) :
    (zeroPadded width n).toList.length = width := by
  induction width, hw using Nat.le_induction generalizing n with
  | base => rw [zeroPadded_one (by simpa using h)]; rfl
  | succ width hw ih =>
    have hrest : n / 10 < 10 ^ width := by
      rw [pow_succ] at h
      omega
    rw [zeroPadded_succ hw, List.length_append, ih hrest]
    rfl

/-- Texts of one width are in the order of their numbers. -/
theorem zeroPadded_lt_iff {width a b : Nat} (hw : 1 ≤ width) (ha : a < 10 ^ width)
    (hb : b < 10 ^ width) : (zeroPadded width a).toList < (zeroPadded width b).toList ↔ a < b := by
  induction width, hw using Nat.le_induction generalizing a b with
  | base =>
    have ha' : a < 10 := by simpa using ha
    have hb' : b < 10 := by simpa using hb
    rw [zeroPadded_one ha', zeroPadded_one hb', List.cons_lt_cons_iff, digitChar_lt_iff ha' hb']
    simp
  | succ width hw ih =>
    have ha' : a / 10 < 10 ^ width := by
      rw [pow_succ] at ha
      omega
    have hb' : b / 10 < 10 ^ width := by
      rw [pow_succ] at hb
      omega
    have hlast : [Nat.digitChar (a % 10)] < [Nat.digitChar (b % 10)] ↔ a % 10 < b % 10 := by
      rw [List.cons_lt_cons_iff,
        digitChar_lt_iff (Nat.mod_lt a (by decide)) (Nat.mod_lt b (by decide))]
      simp
    rw [zeroPadded_succ hw, zeroPadded_succ hw,
      append_lt_append_iff ((length_zeroPadded hw ha').trans (length_zeroPadded hw hb').symm),
      ih ha' hb', String.toList_inj, zeroPadded_inj, hlast]
    omega

end ClassAtlas.Text
