import ClassAtlas.Text.Basic
import Mathlib

/-!
Trimming. It takes away white space only, and only what stands before or behind everything else; so
trimming a text a second time, or cutting it before, makes no difference.
-/
namespace ClassAtlas.Text

theorem count_dropWhile_isBlankChar {c : Char} (hc : isBlankChar c = false) (cs : List Char) :
    (cs.dropWhile isBlankChar).count c = cs.count c := by
  induction cs with
  | nil => rfl
  | cons d cs ih =>
    by_cases hd : isBlankChar d = true
    · have hne : d ≠ c := by
        rintro rfl
        simp [hc] at hd
      rw [List.dropWhile_cons_of_pos hd, ih, List.count_cons_of_ne hne]
    · rw [List.dropWhile_cons_of_neg hd]

/-- Trimming takes away white space only. -/
theorem count_trimChars {c : Char} (hc : isBlankChar c = false) (cs : List Char) :
    (trimChars cs).count c = cs.count c := by
  rw [trimChars, trimEndChars, List.count_reverse, count_dropWhile_isBlankChar hc,
    List.count_reverse, trimStartChars, count_dropWhile_isBlankChar hc]

theorem trimChars_sublist (cs : List Char) : (trimChars cs).Sublist cs := by
  have hend : (trimEndChars (trimStartChars cs)).reverse.Sublist (trimStartChars cs).reverse := by
    rw [trimEndChars, List.reverse_reverse]
    exact List.dropWhile_sublist _
  exact (List.reverse_sublist.1 hend).trans (List.dropWhile_sublist _)

theorem dropWhile_dropWhile_isBlankChar (cs : List Char) :
    (cs.dropWhile isBlankChar).dropWhile isBlankChar = cs.dropWhile isBlankChar := by
  induction cs with
  | nil => rfl
  | cons c cs ih =>
    by_cases hc : isBlankChar c = true
    · rw [List.dropWhile_cons_of_pos hc, ih]
    · rw [List.dropWhile_cons_of_neg hc, List.dropWhile_cons_of_neg hc]

/-- White space in front is found before a character that is none. -/
theorem dropWhile_append_of_not_blank {c : Char} (hc : isBlankChar c = false) (front more : List Char) :
    (front ++ c :: more).dropWhile isBlankChar = front.dropWhile isBlankChar ++ c :: more := by
  induction front with
  | nil => simp [hc]
  | cons d front ih =>
    by_cases hd : isBlankChar d = true
    · simp [hd, ih]
    · simp [hd]

/-- What stands before a character that is no white space is trimmed at its start only. -/
theorem trimChars_append {c : Char} (hc : isBlankChar c = false) (front more : List Char) :
    ∃ rest, trimChars (front ++ c :: more) = trimStartChars front ++ c :: rest := by
  refine ⟨(more.reverse.dropWhile isBlankChar).reverse, ?_⟩
  rw [trimChars, trimStartChars, dropWhile_append_of_not_blank hc, trimEndChars,
    List.reverse_append, List.reverse_cons, List.append_assoc, List.singleton_append,
    dropWhile_append_of_not_blank hc]
  simp [trimStartChars]

theorem trimChars_trimStartChars (cs : List Char) : trimChars (trimStartChars cs) = trimChars cs := by
  rw [trimChars, trimStartChars, trimStartChars, dropWhile_dropWhile_isBlankChar]
  rfl

theorem trimChars_trimChars (cs : List Char) : trimChars (trimChars cs) = trimChars cs := by
  have hend : trimEndChars (trimChars cs) = trimChars cs := by
    simp only [trimChars, trimEndChars, List.reverse_reverse, dropWhile_dropWhile_isBlankChar]
  have hstart : trimStartChars (trimChars cs) = trimChars cs := by
    cases hcs : trimStartChars cs with
    | nil =>
      rw [trimChars, hcs]
      rfl
    | cons c more =>
      -- the first character that is left is no white space, so it stays the first one
      have hc : isBlankChar c = false := by
        have hagain := dropWhile_dropWhile_isBlankChar cs
        change (trimStartChars cs).dropWhile isBlankChar = trimStartChars cs at hagain
        rw [hcs] at hagain
        by_contra hblank
        rw [List.dropWhile_cons_of_pos (by simpa using hblank)] at hagain
        have hlength := congrArg List.length hagain
        have hle := (List.dropWhile_sublist (p := isBlankChar) (l := more)).length_le
        simp only [List.length_cons] at hlength
        omega
      obtain ⟨rest, hrest⟩ := trimChars_append hc [] more
      have hfirst : trimChars cs = c :: rest := by
        rw [← trimChars_trimStartChars, hcs]
        exact hrest
      rw [hfirst, trimStartChars, List.dropWhile_cons_of_neg (by simp [hc])]
  rw [trimChars, hstart, hend]

theorem dropWhile_isBlankChar_of_head {cs : List Char} (h : cs.head?.any isBlankChar = false) :
    cs.dropWhile isBlankChar = cs := by
  cases cs with
  | nil => rfl
  | cons c cs => exact List.dropWhile_cons_of_neg (by simpa using h)

/-- White space inside a text is not trimmed. -/
theorem trim_of_ends {s : String} (hfirst : s.toList.head?.any isBlankChar = false)
    (hlast : s.toList.getLast?.any isBlankChar = false) : trim s = s := by
  rw [← List.head?_reverse] at hlast
  rw [trim, trimChars, trimStartChars, dropWhile_isBlankChar_of_head hfirst, trimEndChars,
    dropWhile_isBlankChar_of_head hlast, List.reverse_reverse, String.ofList_toList]

/-- A blank in front is trimmed. -/
theorem trim_blank_append (cs : List Char) :
    trim (String.ofList ([' '] ++ cs)) = trim (String.ofList cs) := by
  have hblank : isBlankChar ' ' = true := by decide
  simp [trim, trimChars, trimStartChars, hblank]

end ClassAtlas.Text
