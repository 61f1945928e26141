import ClassAtlas.Proofs.Text.Digits
import ClassAtlas.Proofs.Time.Calendar

/-!
Moments as texts of a fixed width. A moment whose year has four digits is read back from its stamp to
the nanosecond, and the order of stamps as texts is the order of their moments in time.
-/
namespace ClassAtlas.Time

/-! Numbers of fixed widths, each with a mark behind it -/

/-- Numbers one after the other, each with leading zeros up to its width and with its mark. -/
def laidOut : List (Nat × Char) → List Nat → List Char
  | (width, mark) :: layout, n :: numbers =>
    (Text.zeroPadded width n).toList ++ mark :: laidOut layout numbers
  | _, _ => []

/-- Every number fits its width. -/
def Fits : List (Nat × Char) → List Nat → Prop :=
  List.Forall₂ fun place n => 1 ≤ place.1 ∧ n < 10 ^ place.1

/-- Texts of one layout are in the order of their numbers. -/
theorem laidOut_lt_iff {layout : List (Nat × Char)} {a b : List Nat} (ha : Fits layout a)
    (hb : Fits layout b) : laidOut layout a < laidOut layout b ↔ a < b := by
  induction ha generalizing b with
  | nil =>
    cases hb
    simp
  | @cons place n layout numbers hn _ ih =>
    cases hb with
    | @cons _ n' _ numbers' hn' hnumbers' =>
      have hlength :=
        (Text.length_zeroPadded hn.1 hn.2).trans (Text.length_zeroPadded hn.1 hn'.2).symm
      rw [laidOut, laidOut, Text.append_lt_append_iff hlength,
        Text.zeroPadded_lt_iff hn.1 hn.2 hn'.2,
        String.toList_inj, Text.zeroPadded_inj, List.cons_lt_cons_iff, List.cons_lt_cons_iff,
        ih hnumbers']
      simp

namespace Moment

/-- A number is taken from in front of anything else. -/
theorem takeNumber?_zeroPadded {width n : Nat} (h : 1 ≤ width ∧ n < 10 ^ width) (rest : List Char) :
    takeNumber? width ((Text.zeroPadded width n).toList ++ rest) = some (n, rest) := by
  have hlength := Text.length_zeroPadded h.1 h.2
  have hdigits : (Text.zeroPadded width n).toList.all Char.isDigit = true :=
    List.all_eq_true.2 fun c hc => Text.isDigit_of_mem_zeroPadded hc
  rw [takeNumber?, List.take_left' hlength, List.drop_left' hlength]
  simp [hlength, hdigits, Text.digitsValue?_zeroPadded]

theorem takeNumber?_bind {width n : Nat} (h : 1 ≤ width ∧ n < 10 ^ width) (rest : List Char)
    (f : Nat × List Char → Option α) :
    (takeNumber? width ((Text.zeroPadded width n).toList ++ rest) >>= f) = f (n, rest) := by
  rw [takeNumber?_zeroPadded h]
  rfl

theorem takeChar?_bind (c : Char) (rest : List Char) (f : List Char → Option α) :
    (takeChar? c (c :: rest) >>= f) = f rest := by
  rw [takeChar?, if_pos rfl]
  rfl

/-! The numbers of a stamp -/

/-- The day number of a moment, in universal time. -/
def day (m : Moment) : Int := m.seconds.fdiv 86400

/-- The seconds since the day began. -/
def secondOfDay (m : Moment) : Nat := (m.seconds - m.day * 86400).toNat

/-- The year of a moment, in universal time. -/
def year (m : Moment) : Int := (dateOf m.day).1

/-- Moments whose year has four digits, and whose nanoseconds are less than a second. -/
structure FourDigitYear (m : Moment) : Prop where
  year : 0 ≤ m.year ∧ m.year ≤ 9999
  nanos : m.nanos < 1000000000

instance (m : Moment) : Decidable m.FourDigitYear :=
  decidable_of_iff ((0 ≤ m.year ∧ m.year ≤ 9999) ∧ m.nanos < 1000000000)
    ⟨fun h => ⟨h.1, h.2⟩, fun h => ⟨h.year, h.nanos⟩⟩

/-- Year, month, day, hour, minute, second and nanosecond. -/
def numbers (m : Moment) : List Nat :=
  [m.year.toNat, (dateOf m.day).2.1, (dateOf m.day).2.2, m.secondOfDay / 3600,
    m.secondOfDay / 60 % 60, m.secondOfDay % 60, m.nanos]

def stampLayout : List (Nat × Char) :=
  [(4, '-'), (2, '-'), (2, 'T'), (2, ':'), (2, ':'), (2, '.'), (9, 'Z')]

theorem seconds_eq (m : Moment) : m.seconds = m.day * 86400 + m.secondOfDay ∧
    m.secondOfDay < 86400 := by
  have hday : m.day = m.seconds / 86400 := Int.fdiv_eq_ediv_of_nonneg _ (by decide)
  unfold secondOfDay
  rw [hday]
  omega

theorem FourDigitYear.fits {m : Moment} (h : m.FourDigitYear) : Fits stampLayout m.numbers := by
  obtain ⟨hmonth, hday⟩ := dateOf_ranges m.day
  have hlength := daysIn_le (dateOf m.day).1 (dateOf m.day).2.1
  have hyear := h.year
  have hseconds := (m.seconds_eq).2
  have hnanos := h.nanos
  simp only [Fits, stampLayout, numbers, List.forall₂_cons, List.Forall₂.nil, and_true]
  norm_num
  omega

theorem toList_stamp {m : Moment} (h : 0 ≤ m.year) :
    m.stamp.toList = laidOut stampLayout m.numbers := by
  have hday : m.toUtc.seconds + m.toUtc.offset = m.seconds := Int.add_zero _
  have hyear : ¬ (dateOf m.day).1 < 0 := not_lt.2 h
  simp only [stamp, dateTime, hday]
  rw [← day.eq_1, ← secondOfDay.eq_1, if_neg hyear]
  simp [laidOut, stampLayout, numbers, fraction, year]

/-! The order of stamps -/

theorem precedes_iff {a b : Moment} : a.precedes b = true ↔
    a.seconds < b.seconds ∨ a.seconds = b.seconds ∧ a.nanos < b.nanos := by
  simp [precedes]

/-- A later moment has later numbers. -/
theorem numbers_lt {a b : Moment} (ha : a.FourDigitYear) (hb : b.FourDigitYear)
    (h : a.precedes b = true) : a.numbers < b.numbers := by
  obtain ⟨hasum, haday⟩ := a.seconds_eq
  obtain ⟨hbsum, hbday⟩ := b.seconds_eq
  have hayear := ha.year
  have hbyear := hb.year
  rw [precedes_iff] at h
  unfold year at hayear hbyear
  simp only [numbers, year, List.cons_lt_cons_iff]
  by_cases hday : a.day < b.day
  · -- the date decides
    have hdate := dateOf_lt hday
    omega
  · -- the day is the same, and the time of day decides
    have hsame : a.day = b.day := by omega
    rw [hsame]
    have htime : a.secondOfDay < b.secondOfDay ∨
        a.secondOfDay = b.secondOfDay ∧ a.nanos < b.nanos := by omega
    simp only [lt_self_iff_false, false_or, true_and, and_false, or_false]
    omega

theorem numbers_congr {a b : Moment} (hseconds : a.seconds = b.seconds) (hnanos : a.nanos = b.nanos) :
    a.numbers = b.numbers := by
  have hday : a.day = b.day := congrArg (Int.fdiv · 86400) hseconds
  simp only [numbers, year, secondOfDay, hday, hseconds, hnanos]

/-- The order of stamps is the order of time. -/
theorem stamp_lt_iff {a b : Moment} (ha : a.FourDigitYear) (hb : b.FourDigitYear) :
    a.stamp < b.stamp ↔ a.precedes b = true := by
  rw [String.lt_iff, toList_stamp ha.year.1, toList_stamp hb.year.1, laidOut_lt_iff ha.fits hb.fits]
  constructor
  · intro h
    by_contra hnot
    rw [precedes_iff] at hnot
    by_cases hlater : b.precedes a = true
    · exact lt_asymm h (numbers_lt hb ha hlater)
    · rw [precedes_iff] at hlater
      rw [numbers_congr (a := a) (b := b) (by omega) (by omega)] at h
      exact lt_irrefl _ h
  · exact numbers_lt ha hb

/-! The moment of a stamp -/

theorem takeDateTime?_laidOut {m : Moment} (h : m.FourDigitYear) :
    takeDateTime? (laidOut stampLayout m.numbers) =
      some (m.seconds, '.' :: ((Text.zeroPadded 9 m.nanos).toList ++ ['Z'])) := by
  obtain ⟨hmonth, hday⟩ := dateOf_ranges m.day
  obtain ⟨hsum, hlt⟩ := m.seconds_eq
  have hyear' : (m.year.toNat : Int) = (dateOf m.day).1 := Int.toNat_of_nonneg h.year.1
  have hseconds : dayNumber m.year.toNat (dateOf m.day).2.1 (dateOf m.day).2.2 * 86400 +
      (m.secondOfDay / 3600 * 3600 + m.secondOfDay / 60 % 60 * 60 + m.secondOfDay % 60 : Nat) =
        m.seconds := by
    rw [hyear', dayNumber_dateOf, hsum]
    omega
  have hfits := h.fits
  simp only [Fits, stampLayout, numbers, List.forall₂_cons] at hfits
  obtain ⟨hyear, hmonth', hday', hhour, hminute, hsecond, -⟩ := hfits
  simp only [laidOut, stampLayout, numbers]
  rw [takeDateTime?]
  simp only [↓takeNumber?_bind hyear, ↓takeNumber?_bind hmonth', ↓takeNumber?_bind hday',
    ↓takeNumber?_bind hhour, ↓takeNumber?_bind hminute, ↓takeNumber?_bind hsecond, ↓takeChar?_bind]
  rw [hseconds, if_pos]
  simp only [Bool.and_eq_true, decide_eq_true_eq, hyear']
  omega

/-- A moment is read back from its stamp, in universal time. -/
theorem ofStamp?_stamp {m : Moment} (h : m.FourDigitYear) : ofStamp? m.stamp = some m.toUtc := by
  have hnanos : 1 ≤ 9 ∧ m.nanos < 10 ^ 9 := ⟨by decide, h.nanos⟩
  rw [ofStamp?, toList_stamp h.year.1, takeDateTime?_laidOut h, Option.bind_eq_bind, Option.bind_some]
  simp only [↓takeChar?_bind, ↓takeNumber?_bind hnanos, if_true, toUtc]

theorem stamp_inj {a b : Moment} (ha : a.FourDigitYear) (hb : b.FourDigitYear) :
    a.stamp = b.stamp ↔ a.toUtc = b.toUtc := by
  constructor
  · intro h
    have hread := ofStamp?_stamp ha
    rw [h, ofStamp?_stamp hb] at hread
    exact (Option.some.inj hread).symm
  · intro h
    have hstamp : ∀ m : Moment, m.stamp = m.toUtc.stamp := fun _ => rfl
    rw [hstamp a, hstamp b, h]

end Moment
end ClassAtlas.Time
