import ClassAtlas.Json.Reader
import ClassAtlas.Json.Writer
import ClassAtlas.Proofs.Text.Digits

/-!
A document whose numbers are whole is read back from the text it is written as, in every style. Each
part is read back in front of anything that cannot be taken for its continuation.
-/
namespace ClassAtlas

namespace Json

/-- A document whose numbers are whole. -/
inductive Whole : Json → Prop
  | null : Whole .null
  | bool (b : Bool) : Whole (.bool b)
  | int (n : Int) : Whole (.int n)
  | text (s : String) : Whole (.text s)
  | list {items : List Json} (h : ∀ j ∈ items, Whole j) : Whole (.list items)
  | object {members : List (String × Json)} (h : ∀ m ∈ members, Whole m.2) : Whole (.object members)

/-! Texts -/

/-- An escape by number is read on its own, whatever follows it. -/
theorem readText_unicode {a b c d : Char} {n : Nat} (hn : hex4? a b c d = some n) (hs : n < 0xd800)
    (rest : List Char) :
    readText ('\\' :: 'u' :: a :: b :: c :: d :: rest) =
      (readText rest).map fun p => (Char.ofNat n :: p.1, p.2) := by
  have hhigh : isHighSurrogate n = false := by simp [isHighSurrogate]; omega
  have hplain : ¬ 0xd800 ≤ n := by omega
  by_cases hpair : ∃ e f g h more, rest = '\\' :: 'u' :: e :: f :: g :: h :: more
  · obtain ⟨e, f, g, h, more, rfl⟩ := hpair
    rw [readText.eq_3, hn]
    cases hlow : hex4? e f g h with
    | some low =>
      simp only [Option.bind_eq_bind, Option.bind_some, hhigh, Bool.false_and, Bool.false_eq_true,
        if_false, hplain, decide_false]
      cases readText ('\\' :: 'u' :: e :: f :: g :: h :: more) <;> rfl
    | none =>
      -- the second escape is no number, so nothing can be read on either side
      have hmore : readText ('\\' :: 'u' :: e :: f :: g :: h :: more) = none := by
        by_cases hnext : ∃ e' f' g' h' last, more = '\\' :: 'u' :: e' :: f' :: g' :: h' :: last
        · obtain ⟨e', f', g', h', last, rfl⟩ := hnext
          rw [readText.eq_3, hlow]
          rfl
        · rw [readText.eq_4 _ _ _ _ _ fun e' f' g' h' last hl => hnext ⟨e', f', g', h', last, hl⟩,
            hlow]
          rfl
      rw [hmore]
      rfl
  · rw [readText.eq_4 _ _ _ _ _ fun e f g h more hr => hpair ⟨e, f, g, h, more, hr⟩, hn]
    simp only [Option.bind_eq_bind, Option.bind_some, hplain, decide_false, Bool.false_and,
      Bool.false_eq_true, if_false]
    cases readText rest <;> rfl

theorem readText_simple {c e : Char} (h : simpleEscape? c = some e) (rest : List Char) :
    readText ('\\' :: c :: rest) = (readText rest).map fun p => (e :: p.1, p.2) := by
  have hu : c ≠ 'u' := by
    rintro rfl
    simp [simpleEscape?] at h
  rw [readText.eq_5 _ _ (by intros; contradiction) (by intros; contradiction), h]
  cases readText rest <;> rfl

theorem readText_plain {c : Char} (hq : c ≠ '"') (hb : c ≠ '\\') (hc : 0x20 ≤ c.toNat)
    (rest : List Char) :
    readText (c :: rest) = (readText rest).map fun p => (c :: p.1, p.2) := by
  rw [readText.eq_6 _ _ hq (by intros; contradiction) (by intros; contradiction)
    (by intros; contradiction), if_neg (by omega)]
  cases readText rest <;> rfl

/-- The numbers that are escaped are written with four digits. -/
theorem hex4_escaped {n : Nat} (h : n < 0x40 ∨ n = 0x2028 ∨ n = 0x2029) :
    ∃ a b c d, (Text.hex 4 n).toList = [a, b, c, d] ∧ hex4? a b c d = some n := by
  have hall : ∀ n ∈ List.range 0x40 ++ [0x2028, 0x2029],
      (Text.hex 4 n).toList.length = 4 ∧ Text.digitsValue? 16 (Text.hex 4 n).toList = some n := by
    decide +kernel
  obtain ⟨hlength, hvalue⟩ := hall n (by simp; omega)
  obtain ⟨a, b, c, d, hfour⟩ := List.length_eq_four.1 hlength
  exact ⟨a, b, c, d, hfour, by rwa [hfour] at hvalue⟩

theorem readText_escapedByNumber {c : Char}
    (h : c.toNat < 0x40 ∨ c.toNat = 0x2028 ∨ c.toNat = 0x2029) (rest : List Char) :
    readText (("\\u" ++ Text.hex 4 c.toNat).toList ++ rest) =
      (readText rest).map fun p => (c :: p.1, p.2) := by
  obtain ⟨x, y, z, w, hdigits, hvalue⟩ := hex4_escaped h
  rw [String.toList_append, hdigits]
  have hread := readText_unicode hvalue (by omega) rest
  rw [Char.ofNat_toNat] at hread
  exact hread

/-- What stands for a character is read as that character. -/
theorem readText_escape (style : Style) (c : Char) (rest : List Char) :
    readText ((style.escape c).toList ++ rest) =
      (readText rest).map fun p => (c :: p.1, p.2) := by
  have hcontrol : ∀ n e, c.toNat = n → simpleEscape? e = some (Char.ofNat n) →
      readText ('\\' :: e :: rest) = (readText rest).map fun p => (c :: p.1, p.2) := by
    intro n e hn he
    rw [readText_simple he, ← hn, Char.ofNat_toNat]
  unfold Style.escape
  split
  case h_6 hq hb _ _ _ =>
    dsimp only
    split
    next h => exact hcontrol 8 'b' (by simp_all) rfl
    split
    next h => exact hcontrol 12 'f' (by simp_all) rfl
    split
    next h => exact readText_escapedByNumber (by simp at h; omega) rest
    next hcontrols =>
      split
      next h =>
        refine readText_escapedByNumber (.inl ?_) rest
        simp only [Bool.and_eq_true, Bool.or_eq_true, beq_iff_eq] at h
        obtain ⟨-, (rfl | rfl) | rfl⟩ := h <;> decide
      next =>
        simp only [Bool.or_eq_true, decide_eq_true_eq, not_or] at hcontrols
        rw [String.toList_singleton]
        exact readText_plain hq hb (by omega) rest
  all_goals exact readText_simple rfl rest

theorem readText_escapes (style : Style) (cs rest : List Char) :
    readText (cs.flatMap (fun c => (style.escape c).toList) ++ '"' :: rest) = some (cs, rest) := by
  induction cs with
  | nil => exact readText_quote rest
  | cons c cs ih => rw [List.flatMap_cons, List.append_assoc, readText_escape, ih]; rfl

theorem toList_text (style : Style) (s : String) :
    (style.text s).toList =
      '"' :: s.toList.flatMap (fun c => (style.escape c).toList) ++ ['"'] := by
  simp [Style.text, List.flatMap_map]

/-! Numbers -/

/-- What may follow a value. -/
def Stops (rest : List Char) : Prop :=
  ∀ c ∈ rest.head?, c = ',' ∨ c = ']' ∨ c = '\x7d' ∨ isSpace c = true

theorem span_digits {ds rest : List Char} (hds : ∀ c ∈ ds, c.isDigit = true)
    (hrest : ∀ c ∈ rest.head?, c.isDigit = false) :
    span Char.isDigit (ds ++ rest) = (ds, rest) := by
  have hdrop : rest.dropWhile Char.isDigit = rest ∧ rest.takeWhile Char.isDigit = [] := by
    cases rest with
    | nil => simp
    | cons c rest => simp [hrest c rfl]
  simp [span, List.takeWhile_append_of_pos hds, List.dropWhile_append_of_pos hds, hdrop]

/-- A number never starts with a zero that could be left out. -/
theorem head?_toDigits {n : Nat} (h : (Nat.toDigits 10 n).length > 1) :
    (Nat.toDigits 10 n).head? ≠ some '0' := by
  induction n using Nat.strong_induction_on with
  | _ n ih =>
    by_cases hlt : n < 10
    · rw [Nat.toDigits_of_lt_base hlt] at h
      simp at h
    · rw [Nat.toDigits_of_base_le (by decide) (by omega)]
      rw [List.head?_append_of_ne_nil _ Nat.toDigits_ne_nil]
      by_cases hnext : n / 10 < 10
      · rw [Nat.toDigits_of_lt_base hnext]
        have hpos : 1 ≤ n / 10 := by omega
        generalize n / 10 = d at hnext hpos
        interval_cases d <;> decide
      · refine ih (n / 10) (by omega) ?_
        rw [Nat.toDigits_of_base_le (by decide) (by omega)]
        have := List.length_pos_iff.2 (Nat.toDigits_ne_nil (n := n / 10 / 10) (b := 10))
        simp
        omega

theorem Stops.not_number {rest : List Char} (h : Stops rest) :
    ∀ c ∈ rest.head?, c.isDigit = false ∧ c ≠ '.' ∧ c ≠ 'e' ∧ c ≠ 'E' := by
  intro c hc
  rcases h c hc with rfl | rfl | rfl | hspace
  · decide
  · decide
  · decide
  · simp only [isSpace, Bool.or_eq_true, beq_iff_eq] at hspace
    rcases hspace with ((rfl | rfl) | rfl) | rfl <;> decide

theorem readExponent_stops {rest : List Char} (h : Stops rest) :
    readExponent rest = some (0, rest) := by
  cases rest with
  | nil => rfl
  | cons c rest =>
    obtain ⟨-, -, he, hE⟩ := h.not_number c rfl
    simp [readExponent, he, hE]

theorem exists_toDigits_eq_cons (n : Nat) :
    ∃ d ds, Nat.toDigits 10 n = d :: ds ∧ d.isDigit = true := by
  cases h : Nat.toDigits 10 n with
  | nil => exact absurd h Nat.toDigits_ne_nil
  | cons d ds =>
    have hd : d ∈ Nat.toDigits 10 n := by simp [h]
    exact ⟨d, ds, rfl, Nat.isDigit_of_mem_toDigits (by decide) (by decide) hd⟩

theorem readNumber_digits (negative : Bool) (n : Nat) {rest : List Char} (h : Stops rest) :
    readNumber ((if negative then ['-'] else []) ++ (Nat.toDigits 10 n ++ rest)) =
      some (⟨negative, n, 0⟩, rest) := by
  have hspan : span Char.isDigit (Nat.toDigits 10 n ++ rest) = (Nat.toDigits 10 n, rest) :=
    span_digits (fun c => Nat.isDigit_of_mem_toDigits (by decide) (by decide))
      fun c hc => (h.not_number c hc).1
  have hlead : ¬ ((Nat.toDigits 10 n).isEmpty ||
      (decide ((Nat.toDigits 10 n).length > 1) &&
        (Nat.toDigits 10 n).head? == some '0')) = true := by
    simpa using fun hlength => head?_toDigits hlength
  unfold readNumber
  split
  next sign cs hsign =>
    have hcs : (sign, cs) = (negative, Nat.toDigits 10 n ++ rest) := by
      rw [← hsign]
      cases negative with
      | true => rfl
      | false =>
        obtain ⟨d, ds, hdigits, hd⟩ := exists_toDigits_eq_cons n
        rw [hdigits]
        split
        next heq =>
          obtain ⟨rfl, -⟩ := List.cons.inj heq
          exact absurd hd (by decide)
        next => rfl
    cases hcs
    simp only [hspan, hlead, Bool.false_eq_true, if_false]
    split
    next => exact absurd rfl (h.not_number '.' rfl).2.1
    next => simp [readExponent_stops h, Text.digitsValue?_toDigits]

theorem toList_writeNumber (n : Int) :
    (writeNumber (.ofInt n)).toList =
      (if decide (n < 0) then ['-'] else []) ++ Nat.toDigits 10 n.natAbs := by
  have hplain : (decide (n < 0) && n.natAbs == 0) = false := by
    by_cases hn : n < 0
    · have : n.natAbs ≠ 0 := by omega
      simp [this]
    · simp [hn]
  simp only [writeNumber, Number.ofInt, hplain]
  by_cases hn : n < 0 <;> simp [hn, Nat.toString_eq_repr, Nat.repr_eq_ofList_toDigits]

/-! Documents -/

/-- A value starts with a character that is not skipped. -/
theorem skipSpace_cons {c : Char} (h : isSpace c = false) (rest : List Char) :
    skipSpace (c :: rest) = c :: rest := by
  simp [skipSpace, h]

theorem skipSpace_lineBreak (style : Style) (level : Nat) (rest : List Char) :
    skipSpace ((style.lineBreak level).toList ++ rest) = skipSpace rest := by
  unfold Style.lineBreak
  split
  · rfl
  next width _ =>
    have hspaces : ∀ c ∈ ("\n" ++ String.ofList (List.replicate (width * level) ' ')).toList,
        isSpace c = true := by
      intro c hc
      simp only [String.toList_append, String.toList_ofList, List.mem_append,
        List.mem_replicate] at hc
      rcases hc with hc | ⟨-, rfl⟩
      · simp at hc
        subst hc
        decide
      · decide
    exact List.dropWhile_append_of_pos hspaces

theorem Stops.nil : Stops [] := by simp [Stops]

theorem Stops.comma (rest : List Char) : Stops (',' :: rest) := by simp [Stops]

/-- A closing bracket may stand on a line of its own. -/
theorem Stops.lineBreak (style : Style) (level : Nat) {c : Char} (hc : c = ']' ∨ c = '\x7d')
    (rest : List Char) : Stops ((style.lineBreak level).toList ++ c :: rest) := by
  unfold Style.lineBreak
  split
  · rcases hc with rfl | rfl <;> simp [Stops]
  · simp [Stops, isSpace]

/-- Blanks before a value do not matter. -/
theorem readValue_congr {cs ds : List Char} (h : skipSpace cs = skipSpace ds) (fuel : Nat) :
    readValue fuel cs = readValue fuel ds := by
  cases fuel with
  | zero => rfl
  | succ fuel => simp only [readValue, h]

theorem readItems_congr {cs ds : List Char} (h : skipSpace cs = skipSpace ds) (fuel : Nat) :
    readItems fuel cs = readItems fuel ds := by
  cases fuel with
  | zero => rfl
  | succ fuel => simp only [readItems, readValue_congr h]

theorem readMembers_congr {cs ds : List Char} (h : skipSpace cs = skipSpace ds) (fuel : Nat) :
    readMembers fuel cs = readMembers fuel ds := by
  cases fuel with
  | zero => rfl
  | succ fuel => simp only [readMembers, h]

section

variable (style : Style) (level : Nat)

theorem toList_writeItems (item : Json) (more : List Json) :
    (writeItems style level (item :: more)).toList = ',' :: ((style.lineBreak level).toList ++
      ((writeAt style level item).toList ++ (writeItems style level more).toList)) := by
  simp [writeItems]

theorem toList_writeMembers (name : String) (value : Json) (more : List (String × Json)) :
    (writeMembers style level ((name, value) :: more)).toList =
      ',' :: ((style.lineBreak level).toList ++ ((style.text name).toList ++ (style.colon.toList ++
        ((writeAt style level value).toList ++ (writeMembers style level more).toList)))) := by
  simp [writeMembers]

theorem toList_writeAt_list (item : Json) (more : List Json) :
    (writeAt style level (.list (item :: more))).toList =
      '[' :: ((style.lineBreak (level + 1)).toList ++ ((writeAt style (level + 1) item).toList ++
        ((writeItems style (level + 1) more).toList ++
          ((style.lineBreak level).toList ++ [']'])))) := by
  simp [writeAt]

theorem toList_writeAt_object (name : String) (value : Json) (more : List (String × Json)) :
    (writeAt style level (.object ((name, value) :: more))).toList =
      '\x7b' :: ((style.lineBreak (level + 1)).toList ++ ((style.text name).toList ++
        (style.colon.toList ++ ((writeAt style (level + 1) value).toList ++
          ((writeMembers style (level + 1) more).toList ++
            ((style.lineBreak level).toList ++ ['\x7d'])))))) := by
  simp [writeAt]

end

/-- A value is read back at every level of indentation. -/
def ReadsBack (style : Style) (j : Json) : Prop :=
  ∀ level fuel rest, (writeAt style level j).toList.length ≤ fuel → Stops rest →
    readValue (fuel + 1) ((writeAt style level j).toList ++ rest) = some (j, rest)

section

variable {style : Style} {level fuel : Nat}

theorem readItems_last {item : Json} (hitem : ReadsBack style item)
    (hfuel : (writeAt style level item).toList.length ≤ fuel) {tail rest : List Char}
    (htail : Stops tail) (hclose : skipSpace tail = ']' :: rest) :
    readItems (fuel + 2) ((writeAt style level item).toList ++ tail) = some ([item], rest) := by
  simp [readItems, hitem level fuel tail hfuel htail, hclose]

theorem readItems_next {item : Json} (hitem : ReadsBack style item)
    (hfuel : (writeAt style level item).toList.length ≤ fuel) (tail : List Char) :
    readItems (fuel + 2) ((writeAt style level item).toList ++ ',' :: tail) =
      (readItems (fuel + 1) tail).map fun p => (item :: p.1, p.2) := by
  rw [readItems, hitem level fuel _ hfuel (.comma tail)]
  simp only [Option.bind_eq_bind, Option.bind_some, skipSpace_cons (c := ',') rfl]
  cases readItems (fuel + 1) tail <;> rfl

/-- The items of a list, from one on. -/
theorem readItems_written {item : Json} {more : List Json}
    (hitem : ReadsBack style item) (hmore : ∀ j ∈ more, ReadsBack style j)
    (hfuel : (writeAt style (level + 1) item).toList.length +
      (writeItems style (level + 1) more).toList.length ≤ fuel) (rest : List Char) :
    readItems (fuel + 2) ((writeAt style (level + 1) item).toList ++
      ((writeItems style (level + 1) more).toList ++
        ((style.lineBreak level).toList ++ ']' :: rest))) = some (item :: more, rest) := by
  induction more generalizing item fuel with
  | nil =>
    refine readItems_last hitem (by omega) (.lineBreak _ _ (.inl rfl) _) ?_
    exact (skipSpace_lineBreak style level _).trans (skipSpace_cons rfl rest)
  | cons next more ih =>
    obtain ⟨hnext, hmore⟩ := List.forall_mem_cons.1 hmore
    simp only [toList_writeItems, List.length_cons, List.length_append] at hfuel
    obtain ⟨fuel, rfl⟩ : ∃ f, fuel = f + 1 := ⟨fuel - 1, by omega⟩
    simp only [toList_writeItems, List.cons_append, List.append_assoc]
    rw [readItems_next hitem (by omega), readItems_congr (skipSpace_lineBreak style (level + 1) _),
      ih hnext hmore (by omega)]
    rfl

/-- What follows a colon is the value. -/
theorem readValue_colon (style : Style) (fuel : Nat) (rest : List Char) :
    ∃ cs, style.colon.toList ++ rest = ':' :: cs ∧ readValue fuel cs = readValue fuel rest := by
  unfold Style.colon
  split
  · exact ⟨' ' :: rest, rfl, readValue_congr (by simp [skipSpace, isSpace]) fuel⟩
  · exact ⟨rest, rfl, rfl⟩

theorem readMembers_last (name : String) {value : Json} (hvalue : ReadsBack style value)
    (hfuel : (writeAt style level value).toList.length ≤ fuel) {tail rest : List Char}
    (htail : Stops tail) (hclose : skipSpace tail = '\x7d' :: rest) :
    readMembers (fuel + 2) ((style.text name).toList ++
      (style.colon.toList ++ ((writeAt style level value).toList ++ tail))) =
        some ([(name, value)], rest) := by
  obtain ⟨cs, hcolon, hcs⟩ :=
    readValue_colon style (fuel + 1) ((writeAt style level value).toList ++ tail)
  simp [readMembers, toList_text, skipSpace_cons (c := '"') rfl, readText_escapes, hcolon,
    skipSpace_cons (c := ':') rfl, hcs, hvalue level fuel tail hfuel htail, hclose]

theorem readMembers_next (name : String) {value : Json} (hvalue : ReadsBack style value)
    (hfuel : (writeAt style level value).toList.length ≤ fuel) (tail : List Char) :
    readMembers (fuel + 2) ((style.text name).toList ++
      (style.colon.toList ++ ((writeAt style level value).toList ++ ',' :: tail))) =
        (readMembers (fuel + 1) tail).map fun p => ((name, value) :: p.1, p.2) := by
  obtain ⟨cs, hcolon, hcs⟩ :=
    readValue_colon style (fuel + 1) ((writeAt style level value).toList ++ ',' :: tail)
  rw [readMembers]
  simp only [toList_text, List.cons_append, List.append_assoc,
    skipSpace_cons (c := '"') rfl, List.nil_append, readText_escapes, Option.bind_eq_bind,
    Option.bind_some, hcolon, skipSpace_cons (c := ':') rfl, hcs,
    hvalue level fuel _ hfuel (.comma tail), skipSpace_cons (c := ',') rfl, String.ofList_toList]
  cases readMembers (fuel + 1) tail <;> rfl

/-- The members of an object, from one on. -/
theorem readMembers_written (name : String) {value : Json} {more : List (String × Json)}
    (hvalue : ReadsBack style value) (hmore : ∀ m ∈ more, ReadsBack style m.2)
    (hfuel : (writeAt style (level + 1) value).toList.length +
      (writeMembers style (level + 1) more).toList.length ≤ fuel) (rest : List Char) :
    readMembers (fuel + 2) ((style.text name).toList ++ (style.colon.toList ++
      ((writeAt style (level + 1) value).toList ++ ((writeMembers style (level + 1) more).toList ++
        ((style.lineBreak level).toList ++ '\x7d' :: rest))))) =
      some ((name, value) :: more, rest) := by
  induction more generalizing name value fuel with
  | nil =>
    refine readMembers_last name hvalue (by omega) (.lineBreak _ _ (.inr rfl) _) ?_
    exact (skipSpace_lineBreak style level _).trans (skipSpace_cons rfl rest)
  | cons next more ih =>
    obtain ⟨nextName, nextValue⟩ := next
    obtain ⟨hnext : ReadsBack style nextValue, hmore⟩ := List.forall_mem_cons.1 hmore
    simp only [toList_writeMembers, List.length_cons, List.length_append] at hfuel
    obtain ⟨fuel, rfl⟩ : ∃ f, fuel = f + 1 := ⟨fuel - 1, by omega⟩
    simp only [toList_writeMembers, List.cons_append, List.append_assoc]
    rw [readMembers_next name hvalue (by omega),
      readMembers_congr (skipSpace_lineBreak style (level + 1) _),
      ih nextName hnext hmore (by omega)]
    rfl

end

theorem exists_writeNumber_eq_cons (n : Int) :
    ∃ c cs, (writeNumber (.ofInt n)).toList = c :: cs ∧ (c.isDigit = true ∨ c = '-') := by
  obtain ⟨d, ds, hdigits, hd⟩ := exists_toDigits_eq_cons n.natAbs
  rw [toList_writeNumber, hdigits]
  by_cases hn : n < 0
  · exact ⟨'-', d :: ds, by simp [hn], .inr rfl⟩
  · exact ⟨d, ds, by simp [hn], .inl hd⟩

theorem isSpace_of_number {c : Char} (hc : c.isDigit = true ∨ c = '-') : isSpace c = false := by
  rw [← Bool.not_eq_true]
  intro h
  simp only [isSpace, Bool.or_eq_true, beq_iff_eq] at h
  obtain ((rfl | rfl) | rfl) | rfl := h <;> exact absurd hc (by decide)

/-- Text that starts like a number is read as one. -/
theorem readValue_number {c : Char} (hc : c.isDigit = true ∨ c = '-') (fuel : Nat)
    (rest : List Char) :
    readValue (fuel + 1) (c :: rest) =
      (readNumber (c :: rest)).map fun p => (.number p.1, p.2) := by
  rw [readValue, skipSpace_cons (isSpace_of_number hc)]
  split
  case h_7 => rfl
  all_goals
    rename_i heq
    obtain ⟨rfl, -⟩ := List.cons.inj heq
    exact absurd hc (by decide)

/-- No value starts like the end of a list. -/
theorem exists_writeAt_eq_cons (style : Style) (level : Nat) {j : Json} (h : Whole j) :
    ∃ c cs, (writeAt style level j).toList = c :: cs ∧ isSpace c = false ∧ c ≠ ']' := by
  cases h with
  | null => exact ⟨'n', _, by simp [writeAt]; rfl, rfl, by decide⟩
  | bool b =>
    cases b
    · exact ⟨'f', _, by simp [writeAt]; rfl, rfl, by decide⟩
    · exact ⟨'t', _, by simp [writeAt]; rfl, rfl, by decide⟩
  | int n =>
    obtain ⟨c, cs, hcs, hc⟩ := exists_writeNumber_eq_cons n
    refine ⟨c, cs, by rw [← hcs, int, writeAt], isSpace_of_number hc, ?_⟩
    rintro rfl
    exact absurd hc (by decide)
  | text s => exact ⟨'"', _, by rw [writeAt, toList_text]; rfl, rfl, by decide⟩
  | @list items _ =>
    cases items with
    | nil => exact ⟨'[', _, by simp [writeAt]; rfl, rfl, by decide⟩
    | cons item more => exact ⟨'[', _, toList_writeAt_list style level item more, rfl, by decide⟩
  | @object members _ =>
    cases members with
    | nil => exact ⟨'\x7b', _, by simp [writeAt]; rfl, rfl, by decide⟩
    | cons m more =>
      exact ⟨'\x7b', _, toList_writeAt_object style level m.1 m.2 more, rfl, by decide⟩

theorem skipSpace_skipSpace (cs : List Char) : skipSpace (skipSpace cs) = skipSpace cs :=
  List.dropWhile_idempotent isSpace cs

theorem readValue_items {c : Char} {cs rest : List Char} (h : skipSpace rest = c :: cs)
    (hc : c ≠ ']') (fuel : Nat) :
    readValue (fuel + 1) ('[' :: rest) = (readItems fuel rest).map fun p => (.list p.1, p.2) := by
  rw [readValue, skipSpace_cons rfl, ← readItems_congr (skipSpace_skipSpace rest)]
  simp only [h]
  split
  next heq => exact absurd (List.cons.inj heq).1 hc
  next => rfl

theorem readValue_members {c : Char} {cs rest : List Char} (h : skipSpace rest = c :: cs)
    (hc : c ≠ '\x7d') (fuel : Nat) :
    readValue (fuel + 1) ('\x7b' :: rest) =
      (readMembers fuel rest).map fun p => (.object p.1, p.2) := by
  rw [readValue, skipSpace_cons rfl, ← readMembers_congr (skipSpace_skipSpace rest)]
  simp only [h]
  split
  next heq => exact absurd (List.cons.inj heq).1 hc
  next => rfl

theorem readsBack (style : Style) {j : Json} (h : Whole j) : ReadsBack style j := by
  induction h with
  | null =>
    intro level fuel rest _ _
    simp [writeAt, readValue, skipSpace_cons (c := 'n') rfl]
  | bool b =>
    intro level fuel rest _ _
    cases b
    · simp [writeAt, readValue, skipSpace_cons (c := 'f') rfl]
    · simp [writeAt, readValue, skipSpace_cons (c := 't') rfl]
  | int n =>
    intro level fuel rest _ hrest
    obtain ⟨c, cs, hcs, hc⟩ := exists_writeNumber_eq_cons n
    have hread := readNumber_digits (decide (n < 0)) n.natAbs hrest
    rw [← List.append_assoc, ← toList_writeNumber] at hread
    rw [int, writeAt, hcs, List.cons_append, readValue_number hc, ← List.cons_append, ← hcs, hread]
    rfl
  | text s =>
    intro level fuel rest _ _
    simp [writeAt, toList_text, readValue, skipSpace_cons (c := '"') rfl, readText_escapes]
  | @list items hwhole ih =>
    intro level fuel rest hfuel _
    cases items with
    | nil =>
      simp [writeAt, readValue, skipSpace_cons (c := '[') rfl, skipSpace_cons (c := ']') rfl]
    | cons item more =>
      obtain ⟨hitem, hmore⟩ := List.forall_mem_cons.1 ih
      simp only [toList_writeAt_list, List.length_cons, List.length_append] at hfuel
      obtain ⟨fuel, rfl⟩ : ∃ f, fuel = f + 2 := ⟨fuel - 2, by omega⟩
      obtain ⟨c, cs, hcs, hspace, hclose⟩ :=
        exists_writeAt_eq_cons style (level + 1) (hwhole item List.mem_cons_self)
      simp only [toList_writeAt_list, List.cons_append, List.append_assoc, List.nil_append]
      rw [readValue_items (by rw [skipSpace_lineBreak, hcs]; exact skipSpace_cons hspace _) hclose,
        readItems_congr (skipSpace_lineBreak style (level + 1) _),
        readItems_written hitem hmore (by omega)]
      rfl
  | @object members _ ih =>
    intro level fuel rest hfuel _
    cases members with
    | nil =>
      simp [writeAt, readValue, skipSpace_cons (c := '\x7b') rfl, skipSpace_cons (c := '\x7d') rfl]
    | cons m more =>
      obtain ⟨name, value⟩ := m
      obtain ⟨hvalue : ReadsBack style value, hmore⟩ := List.forall_mem_cons.1 ih
      simp only [toList_writeAt_object, List.length_cons, List.length_append] at hfuel
      obtain ⟨fuel, rfl⟩ : ∃ f, fuel = f + 2 := ⟨fuel - 2, by omega⟩
      simp only [toList_writeAt_object, List.cons_append, List.append_assoc, List.nil_append]
      rw [readValue_members (by rw [skipSpace_lineBreak, toList_text]; exact skipSpace_cons rfl _)
          (by decide), readMembers_congr (skipSpace_lineBreak style (level + 1) _),
        readMembers_written name hvalue hmore (by omega)]
      rfl

/-- A document whose numbers are whole is what its text is read as. -/
theorem read?_write (style : Style) {j : Json} (h : Whole j) : read? (write style j) = some j := by
  have hread := readsBack style h 0 (write style j).length []
    (String.length_toList (s := write style j)).le .nil
  rw [List.append_nil] at hread
  change readValue ((write style j).length + 1) (write style j).toList = some (j, []) at hread
  rw [read?, hread]
  rfl

end Json
end ClassAtlas
