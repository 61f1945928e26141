import ClassAtlas.Proofs.Json.RoundTrip
import ClassAtlas.Proofs.Text.Pieces
import ClassAtlas.Proofs.Toml.Document
import ClassAtlas.Toml.Reader
import ClassAtlas.Toml.Value

/-!
Documents are read back from the text they are written as. Each value is read back in front of
anything that ends a value, and each statement in front of any other.
-/
namespace ClassAtlas.Toml

variable {edition : Edition}

/-! Texts -/

/-- An escape by number is read on its own, whatever follows it. -/
theorem quotedChars_numbered {a b c d ch : Char} (h : numbered? [a, b, c, d] = some ch)
    (rest : List Char) :
    quotedChars edition ('\\' :: 'u' :: a :: b :: c :: d :: rest) =
      (quotedChars edition rest).map fun p => (ch :: p.1, p.2) := by
  rw [quotedChars, h]
  cases quotedChars edition rest <;> rfl

theorem quotedChars_simple {c ch : Char} (h : simpleEscape? edition c = some ch) (rest : List Char) :
    quotedChars edition ('\\' :: c :: rest) =
      (quotedChars edition rest).map fun p => (ch :: p.1, p.2) := by
  have hletter : ∀ letter, simpleEscape? edition letter = none → c ≠ letter := by
    rintro letter hnone rfl
    rw [hnone] at h
    cases h
  have hu := hletter 'u' rfl
  have hU := hletter 'U' rfl
  have hx := hletter 'x' rfl
  rw [quotedChars, h]
  · cases quotedChars edition rest <;> rfl
  · intros; contradiction
  · intros; contradiction
  · intros; contradiction

theorem quotedChars_plain {c : Char} (hquote : c ≠ '"') (hescape : c ≠ '\\')
    (h : isForbidden c = false) (rest : List Char) :
    quotedChars edition (c :: rest) = (quotedChars edition rest).map fun p => (c :: p.1, p.2) := by
  rw [quotedChars, if_neg (by simp [h])]
  · exact hquote
  · intros; contradiction
  · intros; contradiction
  · intros; contradiction
  · intros; contradiction

/-- The numbers of control characters are written with four digits. -/
theorem hex4_control {n : Nat} (h : n < 0x20 ∨ n = 0x7f) :
    ∃ a b c d, (Text.hex 4 n).toList = [a, b, c, d] ∧
      numbered? [a, b, c, d] = some (Char.ofNat n) := by
  have hall : ∀ n ∈ List.range 0x20 ++ [0x7f], (Text.hex 4 n).toList.length = 4 ∧
      numbered? (Text.hex 4 n).toList = some (Char.ofNat n) := by decide +kernel
  obtain ⟨hlength, hvalue⟩ := hall n (by simp; omega)
  obtain ⟨a, b, c, d, hfour⟩ := List.length_eq_four.1 hlength
  rw [hfour] at hvalue
  exact ⟨a, b, c, d, hfour, hvalue⟩

/-- What stands for a character is read as that character. -/
theorem quotedChars_escaped (c : Char) (rest : List Char) :
    quotedChars edition ((escaped .escaped c).toList ++ rest) =
      (quotedChars edition rest).map fun p => (c :: p.1, p.2) := by
  have hsimple : ∀ n letter, c.toNat = n → simpleEscape? edition letter = some (Char.ofNat n) →
      quotedChars edition ('\\' :: letter :: rest) =
        (quotedChars edition rest).map fun p => (c :: p.1, p.2) := by
    intro n letter hn hletter
    rw [quotedChars_simple hletter, ← hn, Char.ofNat_toNat]
  unfold escaped
  split
  next h => exact hsimple _ '"' h rfl
  next h => exact hsimple _ '\\' h rfl
  next h => exact hsimple _ 'b' h rfl
  next h => exact hsimple _ 't' h rfl
  next h => exact hsimple _ 'n' h rfl
  next h => exact hsimple _ 'f' h rfl
  next h => exact hsimple _ 'r' h rfl
  next hquote hescape _ _ _ _ _ =>
    split
    next hcontrol =>
      have hquote : c ≠ '"' := fun h => hquote (h ▸ rfl)
      have hescape : c ≠ '\\' := fun h => hescape (h ▸ rfl)
      have hforbidden : isForbidden c = false := by
        simp only [isControl, Bool.not_eq_true', Bool.or_eq_false_iff] at hcontrol
        simp [isForbidden, hcontrol]
      rw [String.toList_singleton]
      exact quotedChars_plain hquote hescape hforbidden rest
    next hcontrol =>
      simp only [isControl, Bool.not_eq_true', Bool.not_eq_false, Bool.or_eq_true,
        decide_eq_true_eq, beq_iff_eq] at hcontrol
      obtain ⟨x, y, z, w, hdigits, hvalue⟩ := hex4_control hcontrol
      rw [Char.ofNat_toNat] at hvalue
      rw [String.toList_append, hdigits]
      exact quotedChars_numbered hvalue rest

/-- The characters of a text between its quotes. -/
def inQuotes (s : String) : List Char := s.toList.flatMap fun c => (escaped .escaped c).toList

theorem writeText_append (s : String) (rest : List Char) :
    (writeText .escaped s).toList ++ rest = '"' :: (inQuotes s ++ '"' :: rest) := by
  have hstyle : (Quoting.escaped == Quoting.literal && isLiteral s) = false := rfl
  rw [writeText, hstyle, inQuotes]
  simp [List.flatMap_map]

theorem quotedChars_inQuotes (s : String) (rest : List Char) :
    quotedChars edition (inQuotes s ++ '"' :: rest) = some (s.toList, rest) := by
  rw [inQuotes]
  induction s.toList with
  | nil => rw [List.flatMap_nil, List.nil_append, quotedChars]
  | cons c cs ih =>
    rw [List.flatMap_cons, List.append_assoc, quotedChars_escaped, ih]
    rfl

/-! Values -/

/-- What may follow a value. -/
def Ends (rest : List Char) : Prop := ∀ c ∈ rest.head?, endsScalar c = true

/-- A value in written form: it is read back in front of anything that ends it, and no blank stands
before it. -/
structure Reads (edition : Edition) (written : String) (value : Value) : Prop where
  starts : ∀ c ∈ written.toList.head?, isInlineBlank c = false
  back : ∀ {fuel : Nat} {rest : List Char}, written.length < fuel → Ends rest →
    value? edition fuel (written.toList ++ rest) = some (value, rest)

theorem text?_writeText {s : String} {rest : List Char} (h : Ends rest) :
    text? edition ((writeText .escaped s).toList ++ rest) = some (s, rest) := by
  have hread : quotedChars edition (inQuotes s ++ '"' :: rest) = some (s.toList, rest) :=
    quotedChars_inQuotes s rest
  rw [writeText_append, text?, hread]
  · simp
  · -- two more quotes would be an empty text and a quote behind it
    intro more hquotes
    rw [hquotes, quotedChars] at hread
    obtain ⟨-, rfl⟩ := Prod.mk.inj (Option.some.inj hread)
    exact absurd (h '"' rfl) (by decide)

theorem value?_writeText (s : String) {fuel : Nat} {rest : List Char} (hfuel : 0 < fuel)
    (h : Ends rest) :
    value? edition fuel ((writeText .escaped s).toList ++ rest) = some (.text s, rest) := by
  obtain ⟨fuel, rfl⟩ := Nat.exists_eq_add_one.2 hfuel
  have htext : text? edition ((writeText .escaped s).toList ++ rest) = some (s, rest) :=
    text?_writeText h
  rw [writeText_append] at htext ⊢
  rw [value?]
  · simp [htext]
  · intros; contradiction
  · intros; contradiction

theorem reads_text (s : String) : Reads edition (writeText .escaped s) (.text s) where
  starts := by
    rw [← List.append_nil (writeText .escaped s).toList, writeText_append]
    rintro c ⟨⟩
    rfl
  back hfuel hrest := value?_writeText s (Nat.zero_lt_of_lt hfuel) hrest

theorem bare?_run {run rest : List Char} {v : Value} (hrun : run.all (!endsScalar ·) = true)
    (hdate : isDate run = false) (hv : scalar? edition.isNewer run = some v) (h : Ends rest) :
    bare? edition (run ++ rest) = some (v, rest) := by
  have htake : (run ++ rest).takeWhile (!endsScalar ·) = run := by
    rw [List.takeWhile_append_of_pos (List.all_eq_true.1 hrun)]
    cases rest with
    | nil => simp
    | cons c rest => simp [h c rfl]
  simp only [bare?, htake, List.drop_left, hdate, hv]
  rfl

theorem reads_bare {written : String} {first : Char} {more : List Char} {v : Value}
    (hwritten : written.toList = first :: more) (hfirst : first ∉ ['[', '\x7b', '"', '\'', ' ', '\t'])
    (hrun : (first :: more).all (!endsScalar ·) = true) (hdate : isDate (first :: more) = false)
    (hv : scalar? edition.isNewer (first :: more) = some v) : Reads edition written v := by
  simp only [List.mem_cons, List.not_mem_nil, or_false, not_or] at hfirst
  obtain ⟨hlist, htable, hquote, hliteral, hblank, htab⟩ := hfirst
  refine ⟨?_, ?_⟩
  · rw [hwritten]
    rintro c ⟨⟩
    simp [isInlineBlank, hblank, htab]
  · intro fuel rest hfuel hrest
    obtain ⟨fuel, rfl⟩ : ∃ n, fuel = n + 1 := Nat.exists_eq_add_one.2 (by omega)
    have hbare := bare?_run hrun hdate hv hrest
    rw [hwritten, List.cons_append, value?]
    · rw [List.cons_append] at hbare
      simp [hquote, hliteral, hbare]
    · exact hlist
    · exact htable

theorem reads_bool (b : Bool) : Reads edition (writeBool b) (.bool b) := by
  cases b with
  | true => exact reads_bare rfl (by decide) rfl rfl rfl
  | false => exact reads_bare rfl (by decide) rfl rfl rfl

theorem endsScalar_of_isDigit {c : Char} (h : c.isDigit = true) : endsScalar c = false := by
  rw [Bool.eq_false_iff]
  intro hends
  simp only [endsScalar, isInlineBlank, Bool.or_eq_true, beq_iff_eq, List.contains_eq_mem,
    decide_eq_true_eq, List.mem_cons, List.not_mem_nil, or_false] at hends
  rcases hends with (rfl | rfl) | rfl | rfl | rfl | rfl | rfl | rfl <;> exact absurd h (by decide)

theorem dash_mem_of_isDate {cs : List Char} (h : isDate cs = true) : '-' ∈ cs := by
  unfold isDate at h
  split at h
  · simp
  · cases h

/-- A number as it is written. -/
structure Decimal (first : Char) (more : List Char) : Prop where
  digits : ∀ c ∈ first :: more, c.isDigit = true
  zero : first = '0' → more = []

theorem exists_decimal (n : Nat) :
    ∃ first more, Nat.toDigits 10 n = first :: more ∧ Decimal first more := by
  obtain ⟨first, more, hdigits, -⟩ := Json.exists_toDigits_eq_cons n
  refine ⟨first, more, hdigits, ?_, ?_⟩
  · intro c hc
    exact Nat.isDigit_of_mem_toDigits (by decide) (by decide) (hdigits ▸ hc)
  · rintro rfl
    by_contra hmore
    have hlength := List.length_pos_iff.2 hmore
    refine Json.head?_toDigits (n := n) ?_ (by rw [hdigits]; rfl)
    rw [hdigits, List.length_cons]
    omega

theorem Decimal.ne {first : Char} {more : List Char} (h : Decimal first more) {c : Char}
    (hc : c.isDigit = false) : first ≠ c := by
  rintro rfl
  rw [h.digits first List.mem_cons_self] at hc
  cases hc

theorem Decimal.wholePart?_eq {first : Char} {more : List Char} (h : Decimal first more) {n : Nat}
    (hn : Text.digitsValue? 10 (first :: more) = some n) : wholePart? (first :: more) = some n := by
  have hscore : '_' ∉ first :: more := fun hmem => absurd (h.digits _ hmem) (by decide)
  have hgrouped : groupedDigits? 10 (first :: more) = some n := by
    rw [groupedDigits?, Text.pieces_of_not_mem hscore]
    simpa using hn
  unfold wholePart?
  split
  next hcs =>
    obtain ⟨rfl, rfl⟩ := List.cons.inj hcs
    exact absurd (h.zero rfl) (List.cons_ne_nil _ _)
  next => exact hgrouped

theorem Decimal.int?_eq {first : Char} {more : List Char} (h : Decimal first more) {n : Nat}
    (hn : Text.digitsValue? 10 (first :: more) = some n) (hbound : n < 0x8000000000000000) :
    int? (first :: more) = some n := by
  have hsign : splitSign (first :: more) = (none, first :: more) := by
    unfold splitSign
    split
    next hcs => exact absurd (List.cons.inj hcs).1 (h.ne (by decide))
    next hcs => exact absurd (List.cons.inj hcs).1 (h.ne (by decide))
    next => rfl
  -- a number in another base starts with a zero and goes on
  have hbase : ∀ {letter : Char} {digits : List Char}, first :: more ≠ '0' :: letter :: digits := by
    intro letter digits hcs
    obtain ⟨rfl, rfl⟩ := List.cons.inj hcs
    exact absurd (h.zero rfl) (List.cons_ne_nil _ _)
  simp only [int?, hsign]
  split
  next hcs => exact absurd (Prod.mk.inj hcs).2 hbase
  next hcs => exact absurd (Prod.mk.inj hcs).2 hbase
  next hcs => exact absurd (Prod.mk.inj hcs).2 hbase
  next hcs => cases (Prod.mk.inj hcs).1
  next hcs =>
    obtain ⟨-, rfl⟩ := Prod.mk.inj hcs
    rw [h.wholePart?_eq hn, Option.map_some, Option.filter_some]
    simpa using hbound

theorem reads_int {n : Nat} (h : n < 0x8000000000000000) : Reads edition (toString (n : Int)) (.int n) := by
  obtain ⟨first, more, hdigits, hdecimal⟩ := exists_decimal n
  have hvalue : Text.digitsValue? 10 (first :: more) = some n :=
    hdigits ▸ Text.digitsValue?_toDigits n
  have hwritten : (toString (n : Int)).toList = first :: more := by
    rw [← hdigits]
    exact (congrArg String.toList Nat.repr_eq_ofList_toDigits).trans String.toList_ofList
  refine reads_bare hwritten ?_ ?_ ?_ ?_
  · simp only [List.mem_cons, List.not_mem_nil, or_false, not_or]
    refine ⟨?_, ?_, ?_, ?_, ?_, ?_⟩ <;> exact hdecimal.ne (by decide)
  · rw [List.all_eq_true]
    intro c hc
    rw [endsScalar_of_isDigit (hdecimal.digits c hc)]
    rfl
  · rw [Bool.eq_false_iff]
    intro hdate
    exact absurd (hdecimal.digits _ (dash_mem_of_isDate hdate)) (by decide)
  · have hword : ∀ letter rest, letter.isDigit = false →
        (first :: more == letter :: rest) = false := by
      intro letter rest hletter
      simp [hdecimal.ne hletter]
    have htrue : (first :: more == "true".toList) = false := hword 't' _ (by decide)
    have hfalse : (first :: more == "false".toList) = false := hword 'f' _ (by decide)
    rw [scalar?, htrue, hfalse, hdecimal.int?_eq hvalue h]
    rfl

/-! Lists of texts -/

/-- No layout stands before a character that is none. -/
theorem skipLayout_of_head {c : Char} (h : c ∉ ['\n', '\r', ' ', '\t', '#']) (rest : List Char) :
    skipLayout false (c :: rest) = some (c :: rest) := by
  simp only [List.mem_cons, List.not_mem_nil, or_false, not_or] at h
  obtain ⟨hbreak, hreturn, hblank, htab, hcomment⟩ := h
  rw [skipLayout]
  · simp [isInlineBlank, hblank, htab, hcomment]
  · exact hbreak
  · intros; contradiction

theorem skipLayout_writeText (s : String) (rest : List Char) :
    skipLayout false ((writeText .escaped s).toList ++ rest) =
      some ((writeText .escaped s).toList ++ rest) := by
  rw [writeText_append]
  exact skipLayout_of_head (by decide) _

/-- Texts as they stand between brackets. -/
def inBrackets (texts : List String) : List Char :=
  (Text.join ", " (texts.map (writeText .escaped))).toList

theorem inBrackets_cons (s next : String) (more : List String) :
    inBrackets (s :: next :: more) =
      (writeText .escaped s).toList ++ ',' :: ' ' :: inBrackets (next :: more) := by
  rw [inBrackets, List.map_cons, List.map_cons, Text.toList_join_cons]
  rfl

theorem skipLayout_inBrackets (s : String) (more : List String) (rest : List Char) :
    skipLayout false (inBrackets (s :: more) ++ rest) = some (inBrackets (s :: more) ++ rest) := by
  cases more with
  | nil =>
    rw [inBrackets, List.map_singleton, Text.join_singleton]
    exact skipLayout_writeText s rest
  | cons next more =>
    rw [inBrackets_cons, List.append_assoc]
    exact skipLayout_writeText s _

theorem length_le_inBrackets (texts : List String) : texts.length ≤ (inBrackets texts).length := by
  have htext : ∀ s, 1 ≤ (writeText .escaped s).toList.length := by
    intro s
    rw [← List.append_nil (writeText .escaped s).toList, writeText_append]
    simp
  induction texts with
  | nil => exact Nat.zero_le _
  | cons s more ih =>
    have hs := htext s
    cases more with
    | nil => simpa [inBrackets] using hs
    | cons next more =>
      simp only [inBrackets_cons, List.length_append, List.length_cons] at ih ⊢
      omega

theorem ends_cons {c : Char} (h : endsScalar c = true) (rest : List Char) : Ends (c :: rest) := by
  rintro d ⟨⟩
  exact h

section Items

variable {fuel : Nat} {cs text rest : List Char} {item : Value}

theorem items?_last (hcs : skipLayout false cs = some ('"' :: text))
    (hitem : value? edition fuel ('"' :: text) = some (item, ']' :: rest)) :
    items? edition (fuel + 1) cs = some ([item], rest) := by
  have hnext : skipLayout false (']' :: rest) = some (']' :: rest) :=
    skipLayout_of_head (by decide) rest
  simp [items?, hcs, hitem, hnext]

theorem items?_more {items : List Value} {rest' : List Char}
    (hcs : skipLayout false cs = some ('"' :: text))
    (hitem : value? edition fuel ('"' :: text) = some (item, ',' :: rest))
    (hitems : items? edition fuel rest = some (items, rest')) :
    items? edition (fuel + 1) cs = some (item :: items, rest') := by
  have hnext : skipLayout false (',' :: rest) = some (',' :: rest) :=
    skipLayout_of_head (by decide) rest
  simp [items?, hcs, hitem, hnext, hitems]

end Items

/-- Items are read one after the other, each behind the layout in front of it. -/
theorem items?_inBrackets {s : String} {more : List String} {fuel : Nat}
    (hfuel : more.length + 1 < fuel) {cs rest : List Char}
    (hcs : skipLayout false cs = some (inBrackets (s :: more) ++ ']' :: rest)) :
    items? edition fuel cs = some ((s :: more).map .text, rest) := by
  induction more generalizing s fuel cs with
  | nil =>
    obtain ⟨fuel, rfl⟩ : ∃ n, fuel = n + 1 := Nat.exists_eq_add_one.2 (by omega)
    rw [List.length_nil] at hfuel
    have hitem : value? edition fuel ((writeText .escaped s).toList ++ ']' :: rest) =
        some (.text s, ']' :: rest) := value?_writeText s (by omega) (ends_cons (by decide) rest)
    rw [inBrackets, List.map_singleton, Text.join_singleton, writeText_append] at hcs
    rw [writeText_append] at hitem
    exact items?_last hcs hitem
  | cons next more ih =>
    obtain ⟨fuel, rfl⟩ : ∃ n, fuel = n + 1 := Nat.exists_eq_add_one.2 (by omega)
    rw [List.length_cons] at hfuel
    rw [inBrackets_cons, List.append_assoc, List.cons_append, List.cons_append] at hcs
    generalize htail : ' ' :: (inBrackets (next :: more) ++ ']' :: rest) = tail at hcs
    have hlayout : skipLayout false tail = some (inBrackets (next :: more) ++ ']' :: rest) := by
      rw [← htail, ← skipLayout_inBrackets next more (']' :: rest)]
      rfl
    have hitem : value? edition fuel ((writeText .escaped s).toList ++ ',' :: tail) =
        some (.text s, ',' :: tail) := value?_writeText s (by omega) (ends_cons (by decide) tail)
    rw [writeText_append] at hcs hitem
    exact items?_more hcs hitem (ih (by omega) hlayout)

theorem reads_texts {texts : List String} (h : texts ≠ []) :
    Reads edition (writeTexts .escaped texts) (.list (texts.map .text)) := by
  obtain ⟨s, more, rfl⟩ := List.exists_cons_of_ne_nil h
  have hwritten : (writeTexts .escaped (s :: more)).toList = '[' :: (inBrackets (s :: more) ++ [']']) := by
    simp [writeTexts, inBrackets]
  refine ⟨?_, ?_⟩
  · rw [hwritten]
    rintro c ⟨⟩
    rfl
  · intro fuel rest hfuel hrest
    have hlength := length_le_inBrackets (s :: more)
    rw [← String.length_toList, hwritten, List.length_cons, List.length_append] at hfuel
    rw [List.length_cons] at hlength
    obtain ⟨fuel, rfl⟩ : ∃ n, fuel = n + 1 := Nat.exists_eq_add_one.2 (by omega)
    have hitems : items? edition fuel (inBrackets (s :: more) ++ ']' :: rest) =
        some ((s :: more).map .text, rest) :=
      items?_inBrackets (by omega) (skipLayout_inBrackets s more (']' :: rest))
    rw [hwritten, List.cons_append, List.append_assoc, List.singleton_append, value?, hitems]
    rfl

/-! Statements -/

/-- A key that is written without quotes. -/
def IsBareKey (key : String) : Prop := key ≠ "" ∧ key.toList.all isKeyChar = true

instance : DecidablePred IsBareKey := fun _ => inferInstanceAs (Decidable (_ ∧ _))

theorem IsBareKey.exists_cons {key : String} (h : IsBareKey key) :
    ∃ first more, key.toList = first :: more ∧ isKeyChar first = true := by
  cases hchars : key.toList with
  | nil => exact absurd (String.toList_eq_nil_iff.1 hchars) h.1
  | cons first more =>
    refine ⟨first, more, rfl, List.all_eq_true.1 h.2 first ?_⟩
    rw [hchars]
    exact List.mem_cons_self

theorem ne_of_isKeyChar {c other : Char} (h : isKeyChar c = true) (hother : isKeyChar other = false) :
    c ≠ other := by
  rintro rfl
  rw [h] at hother
  cases hother

theorem keyPart?_bare {key : String} (h : IsBareKey key) {rest : List Char}
    (hrest : ∀ c ∈ rest.head?, isKeyChar c = false) :
    keyPart? edition (key.toList ++ rest) = some (key, rest) := by
  have htake : (key.toList ++ rest).takeWhile isKeyChar = key.toList := by
    rw [List.takeWhile_append_of_pos (List.all_eq_true.1 h.2)]
    cases rest with
    | nil => simp
    | cons c rest => simp [hrest c rfl]
  obtain ⟨first, more, hchars, hfirst⟩ := h.exists_cons
  have hquote : first ≠ '"' := ne_of_isKeyChar hfirst (by decide)
  have hliteral : first ≠ '\'' := ne_of_isKeyChar hfirst (by decide)
  have hempty : key.toList.isEmpty = false := by rw [hchars]; rfl
  rw [keyPart?]
  · simp [htake, hempty]
  · intro tail htail
    rw [hchars] at htail
    exact hquote (List.cons.inj htail).1
  · intro tail htail
    rw [hchars] at htail
    exact hliteral (List.cons.inj htail).1

theorem keyPath?_bare {key : String} (h : IsBareKey key) {rest next : List Char}
    (hrest : ∀ c ∈ rest.head?, isKeyChar c = false) (hnext : skipBlanks rest = next)
    (hdot : next.head? ≠ some '.') (fuel : Nat) :
    keyPath? edition (fuel + 1) (key.toList ++ rest) = some ([key], next) := by
  obtain ⟨first, more, hchars, hfirst⟩ := h.exists_cons
  have hskip : skipBlanks (key.toList ++ rest) = key.toList ++ rest := by
    have hblank : first ≠ ' ' := ne_of_isKeyChar hfirst (by decide)
    have htab : first ≠ '\t' := ne_of_isKeyChar hfirst (by decide)
    rw [hchars]
    exact List.dropWhile_cons_of_neg (by simp [isInlineBlank, hblank, htab])
  rw [keyPath?, hskip, keyPart?_bare h hrest]
  simp only [Option.bind_eq_bind, Option.bind_some, hnext]
  split
  · next tail => exact absurd rfl hdot
  · rfl

theorem assignment_append (key written : String) (rest : List Char) :
    (assignment key written).toList ++ rest =
      key.toList ++ ' ' :: '=' :: ' ' :: (written.toList ++ '\n' :: rest) := by
  simp [assignment]

/-- A value stands behind the blank that follows the sign. -/
theorem Reads.skipBlanks_eq {written : String} {value : Value} (h : Reads edition written value)
    (rest : List Char) :
    skipBlanks (' ' :: (written.toList ++ '\n' :: rest)) = written.toList ++ '\n' :: rest := by
  have hstarts := h.starts
  rw [skipBlanks, List.dropWhile_cons_of_pos rfl]
  cases hchars : written.toList with
  | nil => rfl
  | cons c more =>
    rw [hchars] at hstarts
    exact List.dropWhile_cons_of_neg (by simp [hstarts c rfl])

theorem statement?_assignment {key written : String} {value : Value} (hkey : IsBareKey key)
    (h : Reads edition written value) (rest : List Char) :
    statement? edition ((assignment key written).toList ++ rest) =
      some (.assign [key] value, rest) := by
  have hblanks := h.skipBlanks_eq rest
  rw [assignment_append]
  generalize htail : ' ' :: (written.toList ++ '\n' :: rest) = tail at hblanks
  generalize hfuel : (key.toList ++ ' ' :: '=' :: tail).length = fuel
  have hpath : keyPath? edition (fuel + 1) (key.toList ++ ' ' :: '=' :: tail) =
      some ([key], '=' :: tail) := by
    refine keyPath?_bare hkey ?_ rfl ?_ fuel
    · rintro c ⟨⟩
      rfl
    · rintro ⟨⟩
  have hvalue : value? edition (fuel + 1) (written.toList ++ '\n' :: rest) =
      some (value, '\n' :: rest) := by
    refine h.back ?_ (ends_cons (by decide) rest)
    rw [← hfuel, ← htail, ← String.length_toList]
    simp only [List.length_append, List.length_cons]
    omega
  obtain ⟨first, more, hchars, hfirst⟩ := hkey.exists_cons
  have hbracket : first ≠ '[' := ne_of_isKeyChar hfirst (by decide)
  rw [hchars, List.cons_append] at hpath hfuel ⊢
  rw [statement?]
  · simp [hfuel, hpath, hblanks, hvalue, endLine]
  · exact fun _ hcs => hbracket (List.cons.inj hcs).1
  · exact fun _ hcs => hbracket (List.cons.inj hcs).1

theorem statement?_itemHeader {key : String} (hkey : IsBareKey key) (rest : List Char) :
    statement? edition ('[' :: '[' :: (key.toList ++ ']' :: ']' :: '\n' :: rest)) =
      some (.itemHeader [key], rest) := by
  have hpath : ∀ fuel, keyPath? edition (fuel + 1) (key.toList ++ ']' :: ']' :: '\n' :: rest) =
      some ([key], ']' :: ']' :: '\n' :: rest) := by
    refine fun fuel => keyPath?_bare hkey ?_ rfl ?_ fuel
    · rintro c ⟨⟩
      rfl
    · rintro ⟨⟩
  rw [statement?, hpath]
  rfl

/-- A line, with the layout in front of it, that holds one statement. -/
def Line (edition : Edition) (written : String) (statement : Statement) : Prop :=
  ∀ rest, ∃ cs, cs ≠ [] ∧ skipLayout false (written.toList ++ rest) = some cs ∧
    statement? edition cs = some (statement, rest)

theorem Line.ne_empty {written : String} {statement : Statement}
    (h : Line edition written statement) : written ≠ "" := by
  rintro rfl
  obtain ⟨cs, hne, hskip, -⟩ := h []
  exact hne (Option.some.inj hskip).symm

theorem line_assignment {key written : String} {value : Value} (hkey : IsBareKey key)
    (h : Reads edition written value) : Line edition (assignment key written) (.assign [key] value) := by
  intro rest
  refine ⟨_, ?_, ?_, statement?_assignment hkey h rest⟩
  all_goals
    obtain ⟨first, more, hchars, hfirst⟩ := hkey.exists_cons
    rw [assignment_append, hchars, List.cons_append]
  · exact List.cons_ne_nil _ _
  · refine skipLayout_of_head ?_ _
    simp only [List.mem_cons, List.not_mem_nil, or_false, not_or]
    refine ⟨?_, ?_, ?_, ?_, ?_⟩ <;> exact ne_of_isKeyChar hfirst (by decide)

theorem line_indented {key written : String} {value : Value} (hkey : IsBareKey key)
    (h : Reads edition written value) :
    Line edition ("  " ++ assignment key written) (.assign [key] value) := by
  intro rest
  obtain ⟨cs, hne, hskip, hread⟩ := line_assignment hkey h rest
  refine ⟨cs, hne, ?_, hread⟩
  rw [← hskip, String.toList_append]
  rfl

theorem line_itemHeader {key : String} (hkey : IsBareKey key) :
    Line edition ("\n[[" ++ key ++ "]]\n") (.itemHeader [key]) := by
  intro rest
  refine ⟨_, List.cons_ne_nil _ _, ?_, statement?_itemHeader hkey rest⟩
  simp [skipLayout, isInlineBlank]

/-- A document is read line by line. -/
theorem statements?_lines {lines : List (String × Statement)}
    (h : ∀ l ∈ lines, Line edition l.1 l.2) {fuel : Nat} (hfuel : lines.length < fuel) :
    statements? edition fuel (lines.flatMap (·.1.toList)) = some (lines.map (·.2)) := by
  induction lines generalizing fuel with
  | nil =>
    obtain ⟨fuel, rfl⟩ := Nat.exists_eq_add_one.2 hfuel
    rfl
  | cons l lines ih =>
    obtain ⟨fuel, rfl⟩ : ∃ n, fuel = n + 1 := Nat.exists_eq_add_one.2 (by omega)
    obtain ⟨hl, hlines⟩ := List.forall_mem_cons.1 h
    obtain ⟨cs, hne, hskip, hread⟩ := hl (lines.flatMap (·.1.toList))
    obtain ⟨c, cs, rfl⟩ := List.exists_cons_of_ne_nil hne
    rw [List.length_cons] at hfuel
    have hrest : statements? edition fuel (lines.flatMap (·.1.toList)) = some (lines.map (·.2)) :=
      ih hlines (by omega)
    rw [List.flatMap_cons, statements?, hskip]
    simp [hread, hrest]

theorem length_le_flatMap {lines : List (String × Statement)}
    (h : ∀ l ∈ lines, Line edition l.1 l.2) :
    lines.length ≤ (lines.flatMap (·.1.toList)).length := by
  induction lines with
  | nil => exact Nat.zero_le _
  | cons l lines ih =>
    obtain ⟨hl, hlines⟩ := List.forall_mem_cons.1 h
    have hlength : 0 < l.1.toList.length := by
      rw [List.length_pos_iff, ne_eq, String.toList_eq_nil_iff]
      exact hl.ne_empty
    have := ih hlines
    rw [List.flatMap_cons, List.length_append, List.length_cons]
    omega

theorem read?_lines {lines : List (String × Statement)} (h : ∀ l ∈ lines, Line edition l.1 l.2) :
    read? edition (String.join (lines.map (·.1))) = tableOf? (lines.map (·.2)) := by
  have htext : (String.join (lines.map (·.1))).toList = lines.flatMap (·.1.toList) := by
    simp [List.flatMap_map]
  rw [read?, htext, statements?_lines h (Nat.lt_succ_of_le (length_le_flatMap h)), Option.bind_some]

/-! Documents -/

/-- A key with its value, as it is written and as it is read. -/
structure Entry where
  key : String
  written : String
  value : Value

namespace Entry

/-- An entry that can be read. -/
def Sound (edition : Edition) (e : Entry) : Prop := IsBareKey e.key ∧ Reads edition e.written e.value

def text (e : Entry) : String := assignment e.key e.written

def pair (e : Entry) : String × Value := (e.key, e.value)

end Entry

/-- The text of values and of tables in a list under a key. -/
def documentText (plain : List Entry) (key : String) (tables : List (List Entry)) : String :=
  String.join (plain.map Entry.text) ++
    String.join (tables.map fun t =>
      "\n[[" ++ key ++ "]]\n" ++ String.join (t.map fun e => "  " ++ e.text))

/-- The lines of such a text. -/
def documentLines (plain : List Entry) (key : String) (tables : List (List Entry)) :
    List (String × Statement) :=
  plain.map (fun e => (e.text, .assign [e.key] e.value)) ++
    tables.flatMap fun t => ("\n[[" ++ key ++ "]]\n", .itemHeader [key]) ::
      t.map fun e => ("  " ++ e.text, .assign [e.key] e.value)

theorem join_documentLines (plain : List Entry) (key : String) (tables : List (List Entry)) :
    String.join ((documentLines plain key tables).map (·.1)) = documentText plain key tables := by
  apply String.toList_injective
  simp [documentLines, documentText, List.map_flatMap, List.flatMap_map, List.flatMap_assoc]

theorem statements_documentLines (plain : List Entry) (key : String) (tables : List (List Entry)) :
    (documentLines plain key tables).map (·.2) =
      assigns (plain.map Entry.pair) ++ adds key (tables.map (List.map Entry.pair)) := by
  simp [documentLines, assigns, adds, Entry.pair, List.map_flatMap, List.flatMap_map, Function.comp_def]

theorem line_documentLines {plain : List Entry} {key : String} {tables : List (List Entry)}
    (hplain : ∀ e ∈ plain, e.Sound edition) (hkey : IsBareKey key)
    (htables : ∀ t ∈ tables, ∀ e ∈ t, e.Sound edition) :
    ∀ l ∈ documentLines plain key tables, Line edition l.1 l.2 := by
  intro l hl
  rcases List.mem_append.1 hl with hl | hl
  · obtain ⟨e, he, rfl⟩ := List.mem_map.1 hl
    exact line_assignment (hplain e he).1 (hplain e he).2
  · obtain ⟨t, ht, hl⟩ := List.mem_flatMap.1 hl
    rcases List.mem_cons.1 hl with rfl | hl
    · exact line_itemHeader hkey
    · obtain ⟨e, he, rfl⟩ := List.mem_map.1 hl
      exact line_indented (htables t ht e he).1 (htables t ht e he).2

/-- Values and tables in a list are read back. -/
theorem read?_documentText {plain : List Entry} {key : String} {tables : List (List Entry)}
    (hplain : ∀ e ∈ plain, e.Sound edition) (hkey : IsBareKey key)
    (htables : ∀ t ∈ tables, ∀ e ∈ t, e.Sound edition)
    (hkeys : (plain.map (·.key) ++ [key]).Nodup) (hne : tables ≠ [])
    (hdistinct : ∀ t ∈ tables, (t.map (·.key)).Nodup) :
    read? edition (documentText plain key tables) =
      some (plain.map Entry.pair ++ [(key, .list (tables.map fun t => .table (t.map Entry.pair)))]) := by
  rw [← join_documentLines, read?_lines (line_documentLines hplain hkey htables),
    statements_documentLines, tableOf?_assigns_adds]
  · simp
  · simpa [Entry.pair, Function.comp_def] using hkeys
  · simpa using hne
  · rw [List.forall_mem_map]
    simpa [Entry.pair, Function.comp_def] using hdistinct

end ClassAtlas.Toml
