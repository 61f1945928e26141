import ClassAtlas.Time.Moment
import Mathlib

/-!
The calendar. Every day has one date, the date gives the day back, and a later day has a later date.
Years that begin in March make this easy to see: the leap day is the last one, so that the length of
the months does not depend on the year.
-/
namespace ClassAtlas.Time

/-- The day on which a year begins. Years begin in March, and days are counted from the first of
March of the year zero. -/
def firstDay (year : Int) : Int := 365 * year + year / 4 - year / 100 + year / 400

/-- The day of the year on which a month begins, counted from March. -/
def monthStart (month : Int) : Int := (153 * month + 2) / 5

/-- The day of 1970-01-01, counted from the first of March of the year zero. -/
def epochDay : Int := 719468

theorem firstDay_mono {a b : Int} (h : a ≤ b) : firstDay a ≤ firstDay b := by
  have hfours : a / 4 ≤ b / 4 := by omega
  have ha : a / 100 = a / 4 / 25 ∧ a / 400 = a / 4 / 100 := by omega
  have hb : b / 100 = b / 4 / 25 ∧ b / 400 = b / 4 / 100 := by omega
  unfold firstDay
  rw [ha.1, ha.2, hb.1, hb.2]
  generalize a / 4 = u at hfours ⊢
  generalize b / 4 = v at hfours ⊢
  omega

/-- Four hundred years have always the same number of days. -/
theorem firstDay_era (era year : Int) :
    firstDay (year + era * 400) = firstDay year + era * 146097 := by
  unfold firstDay
  omega

/-! The year of a day -/

/-- A day of an era of four hundred years: its century, its group of four years in the century, and
its day in the group. -/
theorem exists_group {n : Int} (h0 : 0 ≤ n) (h1 : n < 146097) :
    ∃ century group day : Int, n = 36524 * century + 1461 * group + day ∧
      n / 36524 - n / 146096 = century ∧ (0 ≤ century ∧ century ≤ 3) ∧ (0 ≤ group ∧ group ≤ 24) ∧
      (0 ≤ day ∧ day ≤ 1460) ∧ (group = 24 → day = 1460 → century = 3) := by
  by_cases hlast : n = 146096
  · exact ⟨3, 24, 1460, by omega⟩
  · have hzero : n / 146096 = 0 := by omega
    refine ⟨n / 36524, n % 36524 / 1461, n % 36524 % 1461, ?_⟩
    omega

/-- The year in a group of four years, for a day that may be counted a little late. -/
theorem year_in_group {day late year : Int} (hday : 0 ≤ day ∧ day ≤ 1460)
    (hlate : 0 ≤ late ∧ late ≤ 96) (hyear : year = (day - (late + day) / 1460) / 365) :
    0 ≤ year ∧ year ≤ 3 ∧ 365 * year ≤ day ∧ (day < 365 * (year + 1) ∨ year = 3) := by
  by_cases hend : late + day < 1460
  · have hzero : (late + day) / 1460 = 0 := by omega
    rw [hzero] at hyear
    omega
  · have hone : (late + day) / 1460 = 1 := by omega
    rw [hone] at hyear
    omega

/-- The year of an era that a day of it is in. -/
def yearOfEra (n : Int) : Int := (n - n / 1460 + n / 36524 - n / 146096) / 365

theorem exists_yearOfEra {n : Int} (h0 : 0 ≤ n) (h1 : n < 146097) :
    ∃ century group year day : Int, n = 36524 * century + 1461 * group + day ∧
      yearOfEra n = 100 * century + 4 * group + year ∧ (0 ≤ century ∧ century ≤ 3) ∧
      (0 ≤ group ∧ group ≤ 24) ∧ (0 ≤ year ∧ year ≤ 3) ∧ 365 * year ≤ day ∧
      (day < 365 * (year + 1) ∨ year = 3 ∧ day ≤ 1460) ∧
      (group = 24 → day = 1460 → century = 3) := by
  obtain ⟨century, group, day, hn, hcentury, hc, hg, hday, hlast⟩ := exists_group h0 h1
  have hfours : n / 1460 = 25 * century + group + (24 * century + group + day) / 1460 := by omega
  obtain ⟨year, hyear⟩ : ∃ year, year = (day - (24 * century + group + day) / 1460) / 365 :=
    ⟨_, rfl⟩
  obtain ⟨hy0, hy3, hle, hlt⟩ := year_in_group hday (by omega) hyear
  have hsum : n - n / 1460 + n / 36524 - n / 146096 =
      365 * (100 * century + 4 * group) + (day - (24 * century + group + day) / 1460) := by
    linarith
  have heq : yearOfEra n = 100 * century + 4 * group + year := by
    rw [yearOfEra, hsum, hyear, Int.add_comm, Int.add_mul_ediv_left _ _ (by decide), Int.add_comm]
  exact ⟨century, group, year, day, hn, heq, hc, hg, ⟨hy0, hy3⟩, hle,
    hlt.imp_right fun h => ⟨h, hday.2⟩, hlast⟩

/-- A day of an era lies in its year. -/
theorem yearOfEra_spec {n : Int} (h0 : 0 ≤ n) (h1 : n < 146097) :
    (0 ≤ yearOfEra n ∧ yearOfEra n < 400) ∧ firstDay (yearOfEra n) ≤ n ∧
      n < firstDay (yearOfEra n + 1) := by
  obtain ⟨century, group, year, day, rfl, heq, hc, hg, hy, hle, hlt, hlast⟩ :=
    exists_yearOfEra h0 h1
  have h4 : (100 * century + 4 * group + year) / 4 = 25 * century + group := by omega
  have h100 : (100 * century + 4 * group + year) / 100 = century := by omega
  have h400 : (100 * century + 4 * group + year) / 400 = 0 := by omega
  rw [heq]
  refine ⟨by omega, by unfold firstDay; rw [h4, h100, h400]; omega, ?_⟩
  unfold firstDay
  -- the next year may open a group, a century or an era
  by_cases hthree : year = 3
  · subst hthree
    by_cases hgroup : group = 24
    · subst hgroup
      omega
    · have h4' : (100 * century + 4 * group + 3 + 1) / 4 = 25 * century + group + 1 := by omega
      have h100' : (100 * century + 4 * group + 3 + 1) / 100 = century := by omega
      have h400' : (100 * century + 4 * group + 3 + 1) / 400 = 0 := by omega
      omega
  · have h4' : (100 * century + 4 * group + year + 1) / 4 = 25 * century + group := by omega
    have h100' : (100 * century + 4 * group + year + 1) / 100 = century := by omega
    have h400' : (100 * century + 4 * group + year + 1) / 400 = 0 := by omega
    omega

/-! The month of a day -/

/-- The month that a day of the year is in. -/
def monthOfYear (day : Int) : Int := (5 * day + 2) / 153

theorem monthOfYear_spec {day : Int} (h0 : 0 ≤ day) (h1 : day ≤ 365) :
    (0 ≤ monthOfYear day ∧ monthOfYear day ≤ 11) ∧ monthStart (monthOfYear day) ≤ day ∧
      day < monthStart (monthOfYear day + 1) := by
  unfold monthOfYear monthStart
  omega

theorem length_of_year (year : Int) : firstDay (year + 1) ≤ firstDay year + 366 := by
  unfold firstDay
  omega

/-! Dates -/

/-- The year, month and day of the month of a day number, with years from March and months counted
from it. -/
structure MarchDate (days year month day : Int) : Prop where
  inYear : 0 ≤ month ∧ month ≤ 11
  inMonth : 1 ≤ day ∧ day ≤ monthStart (month + 1) - monthStart month
  sum : days + epochDay = firstDay year + monthStart month + (day - 1)
  fits : days + epochDay < firstDay (year + 1)

/-- A date of the calendar from one with years from March. -/
def civil (year month day : Int) : Int × Nat × Nat :=
  (if month < 10 then year else year + 1,
    (if month < 10 then month + 3 else month - 9).toNat, day.toNat)

/-- The date is that of the year, month and day of the month in which the day is found. -/
theorem dateOf_eq {days era n day : Int} (hera : era = (days + epochDay) / 146097)
    (hn : n = days + epochDay - era * 146097)
    (hday : day = n - (365 * yearOfEra n + yearOfEra n / 4 - yearOfEra n / 100)) (h0 : 0 ≤ day)
    (h1 : day ≤ 365) :
    dateOf days = civil (yearOfEra n + era * 400) (monthOfYear day)
      (day - monthStart (monthOfYear day) + 1) := by
  obtain ⟨hmonth, -⟩ := monthOfYear_spec h0 h1
  simp (disch := decide) only [dateOf, Int.fdiv_eq_ediv_of_nonneg]
  rw [← epochDay.eq_1, ← hera, ← hn, ← yearOfEra.eq_1, ← hday, ← monthOfYear.eq_1,
    ← monthStart.eq_1, civil]
  by_cases hlate : monthOfYear day < 10
  · rw [if_pos hlate, if_pos hlate, if_neg (by omega), Int.add_zero]
  · rw [if_neg hlate, if_neg hlate, if_pos (by omega), add_right_comm]

theorem exists_marchDate (days : Int) :
    ∃ year month day, MarchDate days year month day ∧ dateOf days = civil year month day := by
  obtain ⟨era, hera⟩ : ∃ era, era = (days + epochDay) / 146097 := ⟨_, rfl⟩
  obtain ⟨n, hn⟩ : ∃ n, n = days + epochDay - era * 146097 := ⟨_, rfl⟩
  obtain ⟨⟨hy0, hy1⟩, hfirst, hnext⟩ := yearOfEra_spec (n := n) (by omega) (by omega)
  obtain ⟨day, hday⟩ :
      ∃ day, day = n - (365 * yearOfEra n + yearOfEra n / 4 - yearOfEra n / 100) := ⟨_, rfl⟩
  have hsince : n = firstDay (yearOfEra n) + day := by
    have hzero : yearOfEra n / 400 = 0 := by omega
    rw [firstDay, hzero, hday]
    omega
  have hlong := length_of_year (yearOfEra n)
  have hyear : 0 ≤ day ∧ day ≤ 365 := by omega
  obtain ⟨hmonth, hstart, hend⟩ := monthOfYear_spec hyear.1 hyear.2
  refine ⟨_, _, _, ⟨hmonth, ?_, ?_, ?_⟩, dateOf_eq hera hn hday (by omega) (by omega)⟩
  · omega
  · rw [firstDay_era]
    omega
  · rw [add_right_comm, firstDay_era]
    omega

theorem MarchDate.lt {days days' year year' month month' day day' : Int}
    (h : MarchDate days year month day) (h' : MarchDate days' year' month' day')
    (hlt : days < days') :
    year < year' ∨ year = year' ∧ (month < month' ∨ month = month' ∧ day < day') := by
  have hyears : year ≤ year' := by
    by_contra hnot
    have hmono := firstDay_mono (a := year' + 1) (b := year) (by omega)
    have hstart : 0 ≤ monthStart month := by
      have := h.inYear
      unfold monthStart
      omega
    have := h.sum
    have := h.inMonth
    have := h'.fits
    omega
  by_cases hyear : year = year'
  · subst hyear
    refine .inr ⟨rfl, ?_⟩
    by_cases hmonth : month = month'
    · subst hmonth
      have := h.sum
      have := h'.sum
      exact .inr ⟨rfl, by omega⟩
    · left
      by_contra hnot
      have hmono : monthStart (month' + 1) ≤ monthStart month := by
        unfold monthStart
        omega
      have := h.sum
      have := h'.sum
      have := h.inMonth
      have := h'.inMonth
      omega
  · exact .inl (by omega)

theorem dayNumber_civil {year month day : Int} (hmonth : 0 ≤ month ∧ month ≤ 11) (hday : 1 ≤ day) :
    dayNumber (civil year month day).1 (civil year month day).2.1 (civil year month day).2.2 =
      firstDay year + monthStart month + (day - 1) - epochDay := by
  have hyear : (if (civil year month day).2.1 ≤ 2 then (civil year month day).1 - 1
      else (civil year month day).1) = year := by
    unfold civil
    split <;> split <;> simp only at * <;> omega
  have hfromMarch : (((civil year month day).2.1 : Int) + 9) % 12 = month := by
    unfold civil
    dsimp only
    split <;> omega
  have hdayOfMonth : ((civil year month day).2.2 : Int) = day := by
    unfold civil
    dsimp only
    omega
  simp (disch := decide) only [dayNumber, Int.fdiv_eq_ediv_of_nonneg]
  rw [hyear, hfromMarch, hdayOfMonth, ← monthStart.eq_1, firstDay, epochDay]
  omega

/-- The date of a day gives the day back. -/
theorem dayNumber_dateOf (days : Int) :
    dayNumber (dateOf days).1 (dateOf days).2.1 (dateOf days).2.2 = days := by
  obtain ⟨year, month, day, h, hdate⟩ := exists_marchDate days
  rw [hdate, dayNumber_civil h.inYear h.inMonth.1, ← h.sum]
  omega

theorem daysIn_le (year : Int) (month : Nat) : daysIn year month ≤ 31 := by
  unfold daysIn
  split
  · split <;> decide
  · split <;> decide

/-- A year from March has a leap day at its end if February is in a leap year. -/
theorem firstDay_succ (year : Int) :
    firstDay (year + 1) = firstDay year + 365 + if isLeapYear (year + 1) then 1 else 0 := by
  have hleap : isLeapYear (year + 1) = true ↔
      (year + 1) % 4 = 0 ∧ ((year + 1) % 100 ≠ 0 ∨ (year + 1) % 400 = 0) := by
    simp [isLeapYear]
  unfold firstDay
  split
  · next h =>
    rw [hleap] at h
    omega
  · next h =>
    rw [hleap] at h
    omega

/-- The day of a date is one of its month. -/
theorem MarchDate.day_le {days year month day : Int} (h : MarchDate days year month day) :
    day ≤ daysIn (civil year month day).1 (civil year month day).2.1 := by
  obtain ⟨hmonth, hday, hsum, hfits⟩ := h
  by_cases hlast : month = 11
  · -- February ends with the year
    subst hlast
    have hfebruary : daysIn (civil year 11 day).1 (civil year 11 day).2.1 =
        if isLeapYear (year + 1) then 29 else 28 := rfl
    have hstart : monthStart 11 = 337 := rfl
    rw [firstDay_succ] at hfits
    rw [hfebruary]
    split at hfits
    · next hleap =>
      rw [if_pos hleap]
      omega
    · next hleap =>
      rw [if_neg hleap]
      omega
  · have hlength : (daysIn (civil year month day).1 (civil year month day).2.1 : Int) =
        monthStart (month + 1) - monthStart month := by
      obtain ⟨h0, h1⟩ := hmonth
      interval_cases month <;> first | rfl | exact absurd rfl hlast
    omega

theorem dateOf_ranges (days : Int) : (1 ≤ (dateOf days).2.1 ∧ (dateOf days).2.1 ≤ 12) ∧
    1 ≤ (dateOf days).2.2 ∧ (dateOf days).2.2 ≤ daysIn (dateOf days).1 (dateOf days).2.1 := by
  obtain ⟨year, month, day, h, hdate⟩ := exists_marchDate days
  have hmonth := h.inYear
  have hfirst := h.inMonth.1
  have hlast := h.day_le
  rw [hdate]
  refine ⟨?_, ?_, ?_⟩
  · unfold civil
    dsimp only
    split <;> omega
  · unfold civil
    dsimp only
    omega
  · have hday : (civil year month day).2.2 = day.toNat := rfl
    omega

/-- A later day has a later date. -/
theorem dateOf_lt {days days' : Int} (h : days < days') :
    (dateOf days).1 < (dateOf days').1 ∨ (dateOf days).1 = (dateOf days').1 ∧
      ((dateOf days).2.1 < (dateOf days').2.1 ∨ (dateOf days).2.1 = (dateOf days').2.1 ∧
        (dateOf days).2.2 < (dateOf days').2.2) := by
  obtain ⟨year, month, day, hd, hdate⟩ := exists_marchDate days
  obtain ⟨year', month', day', hd', hdate'⟩ := exists_marchDate days'
  have hmonth := hd.inYear
  have hmonth' := hd'.inYear
  have hday := hd.inMonth
  have hlater := hd.lt hd' h
  rw [hdate, hdate', civil, civil]
  dsimp only
  split <;> split <;> omega

end ClassAtlas.Time
