import ClassAtlas.ClassFile.TypeName
import Mathlib

/-!
The texts that are read as types, each with the form it is turned into, as rules of their own. Reading
takes exactly the texts that the rules give, wherever they stand and whatever follows them; so a text
keeps its form exactly if it is none of them as a whole.
-/
namespace ClassAtlas.ClassFile

/-- The characters that mean something in the text of a class. -/
def classMarks : List Char := ['/', '.', ';', '<', '\x00']

mutual

/-- A text and the type that it stands for, in source form. -/
inductive TypeText : List Char → List Char → Prop where
  | base {c : Char} {name : String} (h : Signature.baseType? c = some name) :
      TypeText [c] name.toList
  | var {name : List Char} (h : ';' ∉ name) : TypeText ('T' :: (name ++ [';'])) name
  | array {text form : List Char} (h : TypeText text form) :
      TypeText ('[' :: text) (form ++ ['[', ']'])
  | cls {text form : List Char} (h : ClassText text form) : TypeText ('L' :: text) form

/-- The text of a class after its letter, with the semicolon. -/
inductive ClassText : List Char → List Char → Prop where
  | stop : ClassText [';'] []
  | slash {text form : List Char} (h : ClassText text form) : ClassText ('/' :: text) ('.' :: form)
  | dot {text form : List Char} (h : ClassText text form) : ClassText ('.' :: text) ('$' :: form)
  | arguments {inside text form : List Char} {forms : List (List Char)}
      (hinside : ArgumentText inside forms) (h : ClassText text form) :
      ClassText ('<' :: (inside ++ text))
        ('<' :: List.intercalate [',', ' '] forms ++ '>' :: form)
  | char {c : Char} {text form : List Char} (hc : c ∉ classMarks) (h : ClassText text form) :
      ClassText (c :: text) (c :: form)

/-- The text of type arguments after the opening bracket, with the closing one, and their forms. -/
inductive ArgumentText : List Char → List (List Char) → Prop where
  | stop : ArgumentText ['>'] []
  | any {text : List Char} {forms : List (List Char)} (h : ArgumentText text forms) :
      ArgumentText ('*' :: text) (['?'] :: forms)
  | upper {type form text : List Char} {forms : List (List Char)} (htype : TypeText type form)
      (h : ArgumentText text forms) :
      ArgumentText ('+' :: (type ++ text)) (("? extends ".toList ++ form) :: forms)
  | lower {type form text : List Char} {forms : List (List Char)} (htype : TypeText type form)
      (h : ArgumentText text forms) :
      ArgumentText ('-' :: (type ++ text)) (("? super ".toList ++ form) :: forms)
  | exact {type form text : List Char} {forms : List (List Char)} (htype : TypeText type form)
      (h : ArgumentText text forms) : ArgumentText (type ++ text) (form :: forms)

end

namespace Signature

/-- The characters that begin something else than a type among arguments. -/
def argumentMarks : List Char := ['>', '*', '+', '-', '\x00']

theorem isEnd_eq_false {c : Char} (h : c ≠ '\x00') : isEnd c = false := by
  rw [isEnd, beq_eq_false_iff_ne]
  intro hzero
  exact h (Char.ext (UInt32.toNat.inj hzero))

theorem readArguments_type {fuel : Nat} {c : Char} {cs rest rest' t : List Char}
    {args : List (List Char)} (hc : c ∉ argumentMarks)
    (ht : readType fuel (c :: cs) = some (t, rest))
    (hargs : readArguments fuel rest = some (args, rest')) :
    readArguments (fuel + 1) (c :: cs) = some (t :: args, rest') := by
  have hmark : ∀ mark ∈ argumentMarks, c = mark → False := fun mark hmark heq => hc (heq ▸ hmark)
  rw [readArguments, if_neg (by simp [isEnd_eq_false (hmark '\x00' (by decide))])]
  · simp [ht, hargs]
  all_goals exact hmark _ (by decide)

/-- The name of a type variable goes up to the first semicolon. -/
theorem takeWhile_semicolon {name : List Char} (h : ';' ∉ name) (rest : List Char) :
    (name ++ ';' :: rest).takeWhile (· != ';') = name ∧
      (name ++ ';' :: rest).dropWhile (· != ';') = ';' :: rest := by
  induction name with
  | nil => simp
  | cons c name ih =>
    simp only [List.mem_cons, not_or] at h
    simp [Ne.symm h.1, ih h.2]

/-- One part was read, and its form is made into a longer one. -/
theorem mapForm_eq_some {α β γ : Type} {g : α → β} {part : Option (α × γ)} {form : β} {rest : γ}
    (h : part.map (fun p => (g p.1, p.2)) = some (form, rest)) :
    ∃ a, part = some (a, rest) ∧ form = g a := by
  obtain ⟨⟨a, after⟩, hpart, heq⟩ := Option.map_eq_some_iff.1 h
  obtain ⟨rfl, rfl⟩ := Prod.mk.inj heq
  exact ⟨a, hpart, rfl⟩

/-- Two parts were read one after the other, and their forms are put together. -/
theorem joinForms_eq_some {α β δ γ : Type} {g : α → β → δ} {first : Option (α × γ)}
    {second : γ → Option (β × γ)} {form : δ} {rest : γ}
    (h : (first.bind fun p => (second p.2).bind fun q => some (g p.1 q.1, q.2)) = some (form, rest)) :
    ∃ a middle b, first = some (a, middle) ∧ second middle = some (b, rest) ∧ form = g a b := by
  obtain ⟨⟨a, middle⟩, hfirst, h⟩ := Option.bind_eq_some_iff.1 h
  obtain ⟨⟨b, after⟩, hsecond, heq⟩ := Option.bind_eq_some_iff.1 h
  obtain ⟨rfl, rfl⟩ := Prod.mk.inj (Option.some.inj heq)
  exact ⟨a, middle, b, hfirst, hsecond, rfl⟩

end Signature

theorem TypeText.head {text form : List Char} (h : TypeText text form) :
    ∃ c cs, text = c :: cs ∧ c ∉ Signature.argumentMarks := by
  cases h with
  | @base c name hbase =>
    refine ⟨c, [], rfl, ?_⟩
    intro hmark
    simp only [Signature.argumentMarks, List.mem_cons, List.not_mem_nil, or_false] at hmark
    rcases hmark with rfl | rfl | rfl | rfl | rfl <;> simp [Signature.baseType?] at hbase
  | var hname => exact ⟨'T', _, rfl, by decide⟩
  | array h => exact ⟨'[', _, rfl, by decide⟩
  | cls h => exact ⟨'L', _, rfl, by decide⟩

theorem ArgumentText.ne_nil {text : List Char} {forms : List (List Char)}
    (h : ArgumentText text forms) : text ≠ [] := by
  cases h with
  | exact htype h =>
    obtain ⟨c, cs, rfl, -⟩ := htype.head
    simp
  | _ => simp

-- A type among arguments takes a step of its own before its first character is read, so the depth is
-- counted twice for each character.
mutual

theorem TypeText.read : ∀ (fuel : Nat) {text form : List Char} (rest : List Char),
    TypeText text form → 2 * text.length ≤ fuel →
    Signature.readType fuel (text ++ rest) = some (form, rest)
  | 0, text, form, rest, h, hfuel => by
    obtain ⟨c, cs, rfl, -⟩ := h.head
    simp at hfuel
  | fuel + 1, text, form, rest, h, hfuel => by
    cases h with
    | base hbase => simp [Signature.readType, hbase]
    | @var name hname =>
      have hcut := Signature.takeWhile_semicolon hname rest
      simp [Signature.readType, Signature.baseType?, hcut]
    | @array text form h =>
      have helement := TypeText.read fuel rest h (by simp at hfuel; omega)
      simp [Signature.readType, Signature.baseType?, helement]
    | @cls text form h =>
      have hclass := ClassText.read fuel rest h (by simp at hfuel; omega)
      simpa [Signature.readType, Signature.baseType?] using hclass

theorem ClassText.read : ∀ (fuel : Nat) {text form : List Char} (rest : List Char),
    ClassText text form → 2 * text.length ≤ fuel →
    Signature.readClass fuel (text ++ rest) = some (form, rest)
  | 0, text, form, rest, h, hfuel => by cases h <;> simp at hfuel
  | fuel + 1, text, form, rest, h, hfuel => by
    cases h with
    | stop => simp [Signature.readClass, Signature.isEnd]
    | @slash text form h =>
      have hmore := ClassText.read fuel rest h (by simp at hfuel; omega)
      simp [Signature.readClass, Signature.isEnd, hmore]
    | @dot text form h =>
      have hmore := ClassText.read fuel rest h (by simp at hfuel; omega)
      simp [Signature.readClass, Signature.isEnd, hmore]
    | @arguments inside text form forms hinside h =>
      simp only [List.length_cons, List.length_append] at hfuel
      have hargs := ArgumentText.read fuel (text ++ rest) hinside (by omega)
      have hmore := ClassText.read fuel rest h (by omega)
      simp [Signature.readClass, Signature.isEnd, hargs, hmore]
    | @char c text form hc h =>
      have hmore := ClassText.read fuel rest h (by simp at hfuel; omega)
      simp only [classMarks, List.mem_cons, List.not_mem_nil, or_false, not_or] at hc
      obtain ⟨hslash, hdot, hsemicolon, hless, hend⟩ := hc
      simp [Signature.readClass, Signature.isEnd_eq_false hend, hmore]

theorem ArgumentText.read : ∀ (fuel : Nat) {text : List Char} {forms : List (List Char)}
    (rest : List Char), ArgumentText text forms → 2 * text.length ≤ fuel →
    Signature.readArguments fuel (text ++ rest) = some (forms, rest)
  | 0, text, forms, rest, h, hfuel => absurd (List.length_eq_zero_iff.1 (by omega)) h.ne_nil
  | fuel + 1, text, forms, rest, h, hfuel => by
    cases h with
    | stop => simp [Signature.readArguments, Signature.isEnd]
    | @any text forms h =>
      have hmore := ArgumentText.read fuel rest h (by simp at hfuel; omega)
      simp [Signature.readArguments, Signature.isEnd, hmore]
    | @upper type form text forms htype h =>
      simp only [List.length_cons, List.length_append] at hfuel
      have htype := TypeText.read fuel (text ++ rest) htype (by omega)
      have hmore := ArgumentText.read fuel rest h (by omega)
      simp [Signature.readArguments, Signature.isEnd, htype, hmore]
    | @lower type form text forms htype h =>
      simp only [List.length_cons, List.length_append] at hfuel
      have htype := TypeText.read fuel (text ++ rest) htype (by omega)
      have hmore := ArgumentText.read fuel rest h (by omega)
      simp [Signature.readArguments, Signature.isEnd, htype, hmore]
    | @exact type form text forms htype h =>
      obtain ⟨c, cs, rfl, hc⟩ := htype.head
      have hpos := List.length_pos_iff.2 h.ne_nil
      simp only [List.length_cons, List.length_append] at hfuel
      have hread := TypeText.read fuel (text ++ rest) htype (by simp only [List.length_cons]; omega)
      have hmore := ArgumentText.read fuel rest h (by omega)
      rw [List.append_assoc]
      exact Signature.readArguments_type hc hread hmore

end

-- The other way round, by the depth that is left: what is taken is given by the rules.
mutual

theorem typeText_of_read : ∀ (fuel : Nat) {cs form rest : List Char},
    Signature.readType fuel cs = some (form, rest) → ∃ text, cs = text ++ rest ∧ TypeText text form
  | 0, cs, form, rest, h => by simp [Signature.readType] at h
  | fuel + 1, [], form, rest, h => by simp [Signature.readType] at h
  | fuel + 1, c :: cs, form, rest, h => by
    unfold Signature.readType at h
    split at h
    · next name hbase =>
      simp only [Option.some.injEq, Prod.mk.injEq] at h
      obtain ⟨rfl, rfl⟩ := h
      exact ⟨[c], rfl, .base hbase⟩
    · split at h
      · obtain ⟨text, rfl, htext⟩ := classText_of_read fuel h
        exact ⟨_, rfl, .cls htext⟩
      · split at h
        · next semicolon after hdrop =>
          simp only [Option.some.injEq, Prod.mk.injEq] at h
          obtain ⟨rfl, rfl⟩ := h
          have hcut := List.takeWhile_append_dropWhile (p := (· != ';')) (l := cs)
          have hhead : semicolon = ';' := by
            have := List.head_dropWhile_not (p := (· != ';')) (l := cs) (by simp [hdrop])
            simpa [hdrop] using this
          rw [hdrop, hhead] at hcut
          refine ⟨'T' :: (cs.takeWhile (· != ';') ++ [';']), by simp [hcut], .var ?_⟩
          intro hmem
          simpa using List.mem_takeWhile_imp hmem
        · cases h
      · obtain ⟨t, hread, rfl⟩ := Signature.mapForm_eq_some (g := (· ++ ['[', ']'])) h
        obtain ⟨text, rfl, htext⟩ := typeText_of_read fuel hread
        exact ⟨_, rfl, .array htext⟩
      · cases h

theorem classText_of_read : ∀ (fuel : Nat) {cs form rest : List Char},
    Signature.readClass fuel cs = some (form, rest) → ∃ text, cs = text ++ rest ∧ ClassText text form
  | 0, cs, form, rest, h => by simp [Signature.readClass] at h
  | fuel + 1, [], form, rest, h => by simp [Signature.readClass] at h
  | fuel + 1, c :: cs, form, rest, h => by
    unfold Signature.readClass at h
    split at h
    · cases h
    · next hend =>
      split at h
      · simp only [Option.some.injEq, Prod.mk.injEq] at h
        obtain ⟨rfl, rfl⟩ := h
        exact ⟨[';'], rfl, .stop⟩
      · obtain ⟨t, hread, rfl⟩ := Signature.mapForm_eq_some (g := ('.' :: ·)) h
        obtain ⟨text, rfl, htext⟩ := classText_of_read fuel hread
        exact ⟨_, rfl, .slash htext⟩
      · obtain ⟨t, hread, rfl⟩ := Signature.mapForm_eq_some (g := ('$' :: ·)) h
        obtain ⟨text, rfl, htext⟩ := classText_of_read fuel hread
        exact ⟨_, rfl, .dot htext⟩
      · obtain ⟨args, middle, t, hargs, hread, rfl⟩ := Signature.joinForms_eq_some
          (g := fun args t => '<' :: List.intercalate [',', ' '] args ++ '>' :: t) h
        obtain ⟨inside, rfl, hinside⟩ := argumentText_of_read fuel hargs
        obtain ⟨text, rfl, htext⟩ := classText_of_read fuel hread
        exact ⟨'<' :: (inside ++ text), by simp, .arguments hinside htext⟩
      · next hsemicolon hslash hdot hless =>
        obtain ⟨t, hread, rfl⟩ := Signature.mapForm_eq_some (g := (c :: ·)) h
        obtain ⟨text, rfl, htext⟩ := classText_of_read fuel hread
        refine ⟨_, rfl, .char ?_ htext⟩
        simp only [classMarks, List.mem_cons, List.not_mem_nil, or_false, not_or]
        refine ⟨hslash, hdot, hsemicolon, hless, ?_⟩
        rintro rfl
        simp [Signature.isEnd] at hend

theorem argumentText_of_read : ∀ (fuel : Nat) {cs rest : List Char} {forms : List (List Char)},
    Signature.readArguments fuel cs = some (forms, rest) →
    ∃ text, cs = text ++ rest ∧ ArgumentText text forms
  | 0, cs, rest, forms, h => by simp [Signature.readArguments] at h
  | fuel + 1, [], rest, forms, h => by simp [Signature.readArguments] at h
  | fuel + 1, c :: cs, rest, forms, h => by
    unfold Signature.readArguments at h
    split at h
    · cases h
    · split at h
      · simp only [Option.some.injEq, Prod.mk.injEq] at h
        obtain ⟨rfl, rfl⟩ := h
        exact ⟨['>'], rfl, .stop⟩
      · obtain ⟨args, hargs, rfl⟩ := Signature.mapForm_eq_some (g := (['?'] :: ·)) h
        obtain ⟨text, rfl, htext⟩ := argumentText_of_read fuel hargs
        exact ⟨_, rfl, .any htext⟩
      · obtain ⟨t, middle, args, hread, hargs, rfl⟩ := Signature.joinForms_eq_some
          (g := fun t args => ("? extends ".toList ++ t) :: args) h
        obtain ⟨type, rfl, htype⟩ := typeText_of_read fuel hread
        obtain ⟨text, rfl, htext⟩ := argumentText_of_read fuel hargs
        exact ⟨'+' :: (type ++ text), by simp, .upper htype htext⟩
      · obtain ⟨t, middle, args, hread, hargs, rfl⟩ := Signature.joinForms_eq_some
          (g := fun t args => ("? super ".toList ++ t) :: args) h
        obtain ⟨type, rfl, htype⟩ := typeText_of_read fuel hread
        obtain ⟨text, rfl, htext⟩ := argumentText_of_read fuel hargs
        exact ⟨'-' :: (type ++ text), by simp, .lower htype htext⟩
      · obtain ⟨t, middle, args, hread, hargs, rfl⟩ := Signature.joinForms_eq_some
          (g := List.cons) h
        obtain ⟨type, htext, htype⟩ := typeText_of_read fuel hread
        obtain ⟨text, rfl, hmore⟩ := argumentText_of_read fuel hargs
        exact ⟨type ++ text, by simp [htext], .exact htype hmore⟩

end

theorem typeText_of_read_whole {fuel : Nat} {text form : List Char}
    (h : Signature.readType fuel text = some (form, [])) : TypeText text form := by
  obtain ⟨whole, rfl, hwhole⟩ := typeText_of_read fuel h
  rwa [List.append_nil]

/-- A text is read as a whole exactly if the rules give it, and two steps a character are enough. -/
theorem typeText_iff_read {text form : List Char} {fuel : Nat} (hfuel : 2 * text.length ≤ fuel) :
    TypeText text form ↔ Signature.readType fuel text = some (form, []) := by
  constructor
  · intro h
    have hread := h.read fuel [] hfuel
    rwa [List.append_nil] at hread
  · exact typeText_of_read_whole

instance (text form : List Char) : Decidable (TypeText text form) :=
  decidable_of_iff _ (typeText_iff_read (Nat.le_refl (2 * text.length))).symm

theorem typeText_iff_exists_read {text form : List Char} :
    TypeText text form ↔ ∃ fuel, Signature.readType fuel text = some (form, []) :=
  ⟨fun h => ⟨_, (typeText_iff_read (Nat.le_refl _)).1 h⟩, fun ⟨_, h⟩ => typeText_of_read_whole h⟩

theorem typeName_of_typeText {text form : List Char} (h : TypeText text form) :
    typeName (String.ofList text) = String.ofList form := by
  have hread := (typeText_iff_read (Nat.le_add_right (2 * text.length) 2)).1 h
  simp [typeName, hread]

/-- A text that the rules do not give stays as it is. -/
theorem typeName_of_not_typeText {s : String} (h : ∀ form, ¬ TypeText s.toList form) :
    typeName s = s := by
  unfold typeName
  split
  · next form hread => exact absurd (typeText_of_read_whole hread) (h form)
  · rfl

end ClassAtlas.ClassFile
