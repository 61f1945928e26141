import ClassAtlas.Text.Basic
import Mathlib.Data.List.Basic
import Mathlib.Data.List.TakeWhile

/-!
Texts that are taken apart at a mark and joined again.
-/
namespace ClassAtlas.Text

theorem occurs_iff_infix {part cs : List Char} : occurs part cs = true ↔ part <:+: cs := by
  induction cs with
  | nil => simp [occurs]
  | cons c cs ih =>
    rw [occurs, Bool.or_eq_true, List.isPrefixOf_iff_prefix, ih, List.infix_cons_iff]

theorem pieces_append (sep : Char) (a b : List Char) :
    pieces sep (a ++ sep :: b) = pieces sep a ++ pieces sep b := by
  induction a with
  | nil => simp [pieces]
  | cons c a ih =>
    by_cases hc : c = sep
    · simp [pieces, hc, ih]
    · cases hp : pieces sep a with
      | nil => exact absurd hp (pieces_ne_nil sep a)
      | cons piece more => simp [pieces, hc, ih, hp]

theorem pieces_cons_of_ne {sep c : Char} (h : c ≠ sep) (cs : List Char) :
    pieces sep (c :: cs) = (pieces sep cs).modifyHead (c :: ·) := by
  rw [pieces, if_neg h]
  cases hpieces : pieces sep cs with
  | nil => exact absurd hpieces (pieces_ne_nil sep cs)
  | cons piece more => rfl

/-- To cut lines first and then each of them is to cut at both marks at once. -/
theorem flatMap_pieces (a b : Char) (cs : List Char) :
    (pieces a cs).flatMap (pieces b) = cs.splitOnP fun c => c == a || c == b := by
  induction cs with
  | nil => rfl
  | cons c cs ih =>
    rw [List.splitOnP_cons_eq_if_modifyHead, ← ih]
    by_cases ha : c = a
    · simp [ha, pieces]
    · rw [pieces_cons_of_ne ha]
      cases hpieces : pieces a cs with
      | nil => exact absurd hpieces (pieces_ne_nil a cs)
      | cons piece more =>
        by_cases hb : c = b
        · simp [hb, pieces]
        · obtain ⟨first, rest, hfirst⟩ := List.exists_cons_of_ne_nil (pieces_ne_nil b piece)
          simp [ha, hb, pieces_cons_of_ne hb, hfirst]

theorem pieces_of_not_mem {sep : Char} {cs : List Char} (h : sep ∉ cs) : pieces sep cs = [cs] := by
  induction cs with
  | nil => rfl
  | cons c cs ih =>
    obtain ⟨hc, hcs⟩ := not_or.1 (List.mem_cons.not.1 h)
    simp [pieces, Ne.symm hc, ih hcs]

/-- Parts that a mark and something more divide are found again at the marks. -/
theorem pieces_intercalate {sep : Char} {gap first : List Char} {more : List (List Char)}
    (h : ∀ part ∈ first :: more, sep ∉ part) (hgap : sep ∉ gap) :
    pieces sep (List.intercalate (sep :: gap) (first :: more)) = first :: more.map (gap ++ ·) := by
  induction more generalizing first with
  | nil =>
    rw [List.intercalate_singleton]
    exact pieces_of_not_mem (h first List.mem_cons_self)
  | cons next more ih =>
    obtain ⟨hfirst, hmore⟩ := List.forall_mem_cons.1 h
    obtain ⟨hnext, hrest⟩ := List.forall_mem_cons.1 hmore
    -- what follows the mark is a list of parts again, the first of them behind the gap
    have hshift : gap ++ List.intercalate (sep :: gap) (next :: more) =
        List.intercalate (sep :: gap) ((gap ++ next) :: more) := by
      cases more <;> simp [List.intercalate_cons_cons]
    have hparts : ∀ part ∈ (gap ++ next) :: more, sep ∉ part :=
      List.forall_mem_cons.2 ⟨by simp [hgap, hnext], hrest⟩
    rw [List.intercalate_cons_cons, List.append_assoc, List.cons_append, hshift, pieces_append,
      pieces_of_not_mem hfirst, ih hparts]
    rfl

theorem mem_pieces {sep : Char} {cs piece : List Char} (h : piece ∈ pieces sep cs) :
    sep ∉ piece ∧ ∀ c ∈ piece, c ∈ cs := by
  induction cs generalizing piece with
  | nil => simp_all [pieces]
  | cons c cs ih =>
    by_cases hc : c = sep
    · simp only [pieces, hc, if_true, List.mem_cons] at h
      rcases h with rfl | h
      · simp
      · exact ⟨(ih h).1, fun x hx => List.mem_cons_of_mem _ ((ih h).2 x hx)⟩
    · cases hp : pieces sep cs with
      | nil => exact absurd hp (pieces_ne_nil sep cs)
      | cons first more =>
        simp only [pieces, hc, if_false, hp, List.mem_cons] at h
        rcases h with rfl | h
        · obtain ⟨hsep, hmem⟩ := ih (hp ▸ List.mem_cons_self)
          refine ⟨by simp [Ne.symm hc, hsep], fun x hx => ?_⟩
          rcases List.mem_cons.1 hx with rfl | hx
          · exact List.mem_cons_self
          · exact List.mem_cons_of_mem _ (hmem x hx)
        · obtain ⟨hsep, hmem⟩ := ih (hp ▸ List.mem_cons_of_mem _ h)
          exact ⟨hsep, fun x hx => List.mem_cons_of_mem _ (hmem x hx)⟩

theorem toList_join_cons (sep name next : String) (more : List String) :
    (join sep (name :: next :: more)).toList =
      name.toList ++ (sep.toList ++ (join sep (next :: more)).toList) := by
  simp [join, List.intercalate, List.append_assoc]

@[simp] theorem join_singleton (sep name : String) : join sep [name] = name := by
  simp [join]

theorem mem_toList_join {sep : String} {names : List String} {c : Char}
    (h : c ∈ (join sep names).toList) : c ∈ sep.toList ∨ ∃ name ∈ names, c ∈ name.toList := by
  induction names with
  | nil => simp [join] at h
  | cons name more ih =>
    cases more with
    | nil => exact .inr ⟨name, List.mem_cons_self, by simpa using h⟩
    | cons next more =>
      rw [toList_join_cons, List.mem_append, List.mem_append] at h
      rcases h with h | h | h
      · exact .inr ⟨name, List.mem_cons_self, h⟩
      · exact .inl h
      · rcases ih h with hsep | ⟨n, hn, hc⟩
        · exact .inl hsep
        · exact .inr ⟨n, List.mem_cons_of_mem _ hn, hc⟩

theorem mem_toList_join_of_mem {sep name : String} {names : List String} {c : Char}
    (hname : name ∈ names) (hc : c ∈ name.toList) : c ∈ (join sep names).toList := by
  induction names with
  | nil => cases hname
  | cons first more ih =>
    cases more with
    | nil =>
      obtain rfl := List.mem_singleton.1 hname
      simpa using hc
    | cons next more =>
      rw [toList_join_cons, List.mem_append, List.mem_append]
      rcases List.mem_cons.1 hname with rfl | hname
      · exact .inl hc
      · exact .inr (.inr (ih hname))

theorem splitOn_join {sep : Char} {names : List String} (hne : names ≠ [])
    (h : ∀ name ∈ names, sep ∉ name.toList) :
    splitOn sep (join (String.singleton sep) names) = names := by
  induction names with
  | nil => exact absurd rfl hne
  | cons name more ih =>
    obtain ⟨hname, hmore⟩ := List.forall_mem_cons.1 h
    cases more with
    | nil => simp [splitOn, pieces_of_not_mem hname]
    | cons next more =>
      have hrest := ih (List.cons_ne_nil _ _) hmore
      rw [splitOn] at hrest
      rw [splitOn, toList_join_cons, String.toList_singleton, List.singleton_append, pieces_append,
        pieces_of_not_mem hname, List.map_append, hrest]
      simp

theorem toList_join_concat {sep : String} {names : List String} (hne : names ≠ []) (last : String) :
    (join sep (names ++ [last])).toList =
      (join sep names).toList ++ (sep.toList ++ last.toList) := by
  induction names with
  | nil => exact absurd rfl hne
  | cons name more ih =>
    cases more with
    | nil =>
      rw [List.singleton_append, toList_join_cons]
      simp
    | cons next more =>
      rw [List.cons_append, List.cons_append, toList_join_cons, toList_join_cons,
        ← List.cons_append, ih (List.cons_ne_nil _ _)]
      simp

theorem bne_of_mem_reverse {mark : Char} {b : List Char} (hb : mark ∉ b) :
    ∀ c ∈ b.reverse, (c != mark) = true := by
  intro c hc
  have hne : c ≠ mark := fun h => hb (h ▸ List.mem_reverse.1 hc)
  simpa using hne

theorem afterLast_eq {mark : Char} {s : String} {a b : List Char} (hs : s.toList = a ++ mark :: b)
    (hb : mark ∉ b) : afterLast mark s = String.ofList b := by
  rw [afterLast, hs, List.reverse_append, List.reverse_cons, List.append_assoc,
    List.takeWhile_append_of_pos (bne_of_mem_reverse hb)]
  simp

theorem beforeLast?_eq {mark : Char} {s : String} {a b : List Char}
    (hs : s.toList = a ++ mark :: b) (hb : mark ∉ b) :
    beforeLast? mark s = some (String.ofList a) := by
  rw [beforeLast?, hs, List.reverse_append, List.reverse_cons, List.append_assoc,
    List.dropWhile_append_of_pos (bne_of_mem_reverse hb)]
  simp

theorem beforeLast?_of_not_mem {mark : Char} {s : String} (h : mark ∉ s.toList) :
    beforeLast? mark s = none := by
  have hdrop : (s.toList.reverse ++ []).dropWhile (· != mark) = [] :=
    List.dropWhile_append_of_pos (bne_of_mem_reverse h)
  rw [List.append_nil] at hdrop
  rw [beforeLast?, hdrop]

theorem afterLast_of_not_mem {mark : Char} {s : String} (h : mark ∉ s.toList) :
    afterLast mark s = s := by
  have htake : (s.toList.reverse ++ []).takeWhile (· != mark) = s.toList.reverse ++ [] :=
    List.takeWhile_append_of_pos (bne_of_mem_reverse h)
  rw [List.append_nil] at htake
  rw [afterLast, htake, List.reverse_reverse, String.ofList_toList]

/-- A text that ends otherwise keeps its end. -/
theorem dropTrailing_of_suffix {c : Char} {s : String} {front tail : List Char}
    (hs : s.toList = front ++ tail) (hne : tail ≠ []) (h : c ∉ tail) : dropTrailing c s = s := by
  rcases List.eq_nil_or_concat tail with rfl | ⟨most, last, rfl⟩
  · exact absurd rfl hne
  · have hlast : last ≠ c := by
      rintro rfl
      exact h (by simp)
    have htext : s.toList.reverse = last :: (front ++ most).reverse := by
      simp [hs, List.concat_eq_append]
    rw [dropTrailing, htext, List.dropWhile_cons_of_neg (by simpa using hlast), ← htext,
      List.reverse_reverse, String.ofList_toList]

/-- A tail without the mark stands behind the last mark. -/
theorem suffix_of_suffix_append {mark : Char} {tail a b : List Char} (hmark : mark ∉ tail)
    (h : tail <:+ a ++ mark :: b) : tail <:+ b := by
  have hmarked : mark :: b <:+ a ++ mark :: b := List.suffix_append a (mark :: b)
  rcases List.suffix_or_suffix_of_suffix h hmarked with h | h
  · rcases List.suffix_cons_iff.1 h with rfl | h
    · exact absurd List.mem_cons_self hmark
    · exact h
  · exact absurd (h.subset List.mem_cons_self) hmark

theorem trim_of_no_blank {s : String} (h : ∀ c ∈ s.toList, isBlankChar c = false) : trim s = s := by
  have hdrop : ∀ cs : List Char, (∀ c ∈ cs, isBlankChar c = false) →
      cs.dropWhile isBlankChar = cs := by
    intro cs hcs
    cases cs with
    | nil => rfl
    | cons c cs => simp [hcs c List.mem_cons_self]
  rw [trim, trimChars, trimStartChars, hdrop _ h, trimEndChars,
    hdrop _ fun c hc => h c (List.mem_reverse.1 hc), List.reverse_reverse, String.ofList_toList]

/-- What is not blank is not trimmed. -/
theorem mem_toList_trim {s : String} {c : Char} (h : c ∈ s.toList) (hc : isBlankChar c = false) :
    c ∈ (trim s).toList := by
  have hdrop : ∀ {cs : List Char}, c ∈ cs → c ∈ cs.dropWhile isBlankChar := by
    intro cs hmem
    rw [← List.takeWhile_append_dropWhile (p := isBlankChar) (l := cs), List.mem_append] at hmem
    rcases hmem with hmem | hmem
    · have hblank := List.all_eq_true.1 List.all_takeWhile c hmem
      rw [hc] at hblank
      cases hblank
    · exact hmem
  rw [trim, trimChars, trimEndChars, String.toList_ofList, List.mem_reverse]
  exact hdrop (List.mem_reverse.2 (hdrop h))

theorem trim_eq_empty_iff {s : String} : trim s = "" ↔ isBlank s = true := by
  constructor
  · intro htrim
    refine List.all_eq_true.2 fun c hc => ?_
    by_contra hblank
    have hmem := mem_toList_trim hc (by simpa using hblank)
    simp [htrim] at hmem
  · intro hblank
    have hdrop : s.toList.dropWhile isBlankChar = [] :=
      List.dropWhile_eq_nil_iff.2 (List.all_eq_true.1 hblank)
    rw [trim, trimChars, trimStartChars, hdrop]
    rfl

end ClassAtlas.Text
