import ClassAtlas.Proofs.Distinct
import ClassAtlas.Text.Regex

/-!
What an expression matches. Following all ways through an expression at once finds a match exactly if
one of the ways passes over a part of the text. Escaped and plain characters are read as themselves.
-/
namespace ClassAtlas.Text.Regex

/-! The ways through an expression -/

/-- An expression passes over the front of a text, from a place that may be the start of it all. A
piece that is repeated may be left at any time, and may take one character more. -/
inductive Passes : Bool → Regex → List Char → Prop where
  | done (atStart : Bool) (text : List Char) : Passes atStart [] text
  | hold {atStart : Bool} {p : Piece} {more : Regex} {text : List Char}
      (hp : p.atom.holds atStart text.isEmpty = true) (h : Passes atStart more text) :
      Passes atStart (p :: more) text
  | leave {atStart : Bool} {p : Piece} {more : Regex} {text : List Char}
      (hp : p.repeated = true) (h : Passes atStart more text) : Passes atStart (p :: more) text
  | take {atStart : Bool} {p : Piece} {more : Regex} {c : Char} {text : List Char}
      (hc : p.atom.takes c = true) (hp : p.repeated = false) (h : Passes false more text) :
      Passes atStart (p :: more) (c :: text)
  | again {atStart : Bool} {p : Piece} {more : Regex} {c : Char} {text : List Char}
      (hc : p.atom.takes c = true) (hp : p.repeated = true) (h : Passes false (p :: more) text) :
      Passes atStart (p :: more) (c :: text)

theorem self_mem_settle (atStart atEnd : Bool) (r : Regex) : r ∈ settle atStart atEnd r := by
  cases r <;> simp [settle]

theorem mem_settle_cons {atStart atEnd : Bool} {p : Piece} {more r : Regex} :
    r ∈ settle atStart atEnd (p :: more) ↔ r = p :: more ∨
      (p.repeated = true ∨ p.atom.holds atStart atEnd = true) ∧ r ∈ settle atStart atEnd more := by
  rw [settle, List.mem_cons]
  split
  · next h => simp_all
  · next h => simp_all

/-- What is left without taking a character can be passed over from the same place. -/
theorem Passes.of_settle {atStart : Bool} {r rest : Regex} {text : List Char}
    (hmem : rest ∈ settle atStart text.isEmpty r) (h : Passes atStart rest text) :
    Passes atStart r text := by
  induction r with
  | nil =>
    obtain rfl : rest = [] := by simpa [settle] using hmem
    exact h
  | cons p more ih =>
    rcases mem_settle_cons.1 hmem with rfl | ⟨hrepeated | hholds, hmore⟩
    · exact h
    · exact .leave hrepeated (ih hmore)
    · exact .hold hholds (ih hmore)

theorem Passes.of_feed? {atStart : Bool} {r rest : Regex} {c : Char} {text : List Char}
    (hfeed : feed? c r = some rest) (h : Passes false rest text) : Passes atStart r (c :: text) := by
  cases r with
  | nil => cases hfeed
  | cons p more =>
    simp only [feed?] at hfeed
    split at hfeed
    · next htakes =>
      split at hfeed
      · next hrepeated =>
        cases hfeed
        exact .again htakes hrepeated h
      · next hrepeated =>
        cases hfeed
        exact .take htakes (by simpa using hrepeated) h
    · cases hfeed

/-- A way through an expression takes no character at all, or takes one after some pieces are left or
hold. -/
theorem passes_iff {atStart : Bool} {r : Regex} {text : List Char} :
    Passes atStart r text ↔ [] ∈ settle atStart text.isEmpty r ∨
      ∃ c rest, text = c :: rest ∧
        ∃ left ∈ settle atStart false r, ∃ next, feed? c left = some next ∧ Passes false next rest := by
  constructor
  · intro h
    induction h with
    | done atStart text => exact .inl (by simp [settle])
    | @hold atStart p more text hp h ih =>
      rcases ih with hnil | ⟨c, rest, rfl, left, hleft, hfeed⟩
      · exact .inl (mem_settle_cons.2 (.inr ⟨.inr hp, hnil⟩))
      · exact .inr ⟨c, rest, rfl, left, mem_settle_cons.2 (.inr ⟨.inr hp, hleft⟩), hfeed⟩
    | @leave atStart p more text hp h ih =>
      rcases ih with hnil | ⟨c, rest, rfl, left, hleft, hfeed⟩
      · exact .inl (mem_settle_cons.2 (.inr ⟨.inl hp, hnil⟩))
      · exact .inr ⟨c, rest, rfl, left, mem_settle_cons.2 (.inr ⟨.inl hp, hleft⟩), hfeed⟩
    | @take atStart p more c text hc hp h _ =>
      exact .inr ⟨c, text, rfl, p :: more, self_mem_settle _ _ _, more, by simp [feed?, hc, hp], h⟩
    | @again atStart p more c text hc hp h _ =>
      exact .inr ⟨c, text, rfl, p :: more, self_mem_settle _ _ _, p :: more,
        by simp [feed?, hc, hp], h⟩
  · rintro (hnil | ⟨c, rest, rfl, left, hleft, next, hfeed, h⟩)
    · exact .of_settle hnil (.done _ _)
    · exact .of_settle hleft (.of_feed? hfeed h)

/-- The search finds what one of its threads passes over, and what the expression passes over further
on. -/
theorem search_iff (r : Regex) (atStart : Bool) (threads : List Regex) (text : List Char) :
    search r atStart threads text = true ↔
      (∃ t ∈ threads, Passes atStart t text) ∨
        ∃ c front rest, text = c :: front ++ rest ∧ Passes false r rest := by
  induction text generalizing atStart threads with
  | nil =>
    simp only [search, List.contains_iff_mem, List.mem_flatMap]
    constructor
    · rintro ⟨t, ht, hnil⟩
      exact .inl ⟨t, ht, passes_iff.2 (.inl hnil)⟩
    · rintro (⟨t, ht, hpasses⟩ | ⟨c, front, rest, hempty, -⟩)
      · rcases passes_iff.1 hpasses with hnil | ⟨c, rest, hempty, -⟩
        · exact ⟨t, ht, hnil⟩
        · cases hempty
      · cases hempty
  | cons c text ih =>
    simp only [search, Bool.or_eq_true, List.contains_iff_mem, List.mem_flatMap, ih, List.mem_cons,
      List.mem_eraseDups, List.mem_filterMap]
    constructor
    · rintro (⟨t, ht, hnil⟩ | ⟨t, rfl | ⟨left, ⟨t', ht', hleft⟩, hfeed⟩, hpasses⟩ |
        ⟨c', front, rest, rfl, hpasses⟩)
      · exact .inl ⟨t, ht, passes_iff.2 (.inl hnil)⟩
      · exact .inr ⟨c, [], text, rfl, hpasses⟩
      · exact .inl ⟨t', ht', passes_iff.2 (.inr ⟨c, text, rfl, left, hleft, t, hfeed, hpasses⟩)⟩
      · exact .inr ⟨c, c' :: front, rest, rfl, hpasses⟩
    · rintro (⟨t, ht, hpasses⟩ | ⟨c', front, rest, htext, hpasses⟩)
      · rcases passes_iff.1 hpasses with hnil | ⟨c', rest, htext, left, hleft, next, hfeed, h⟩
        · exact .inl ⟨t, ht, hnil⟩
        · cases htext
          exact .inr (.inl ⟨next, .inr ⟨left, ⟨t, ht, hleft⟩, hfeed⟩, h⟩)
      · cases htext
        cases front with
        | nil => exact .inr (.inl ⟨r, .inl rfl, hpasses⟩)
        | cons c' front => exact .inr (.inr ⟨c', front, rest, rfl, hpasses⟩)

/-- An expression matches a text exactly if it passes over a part of it. -/
theorem isMatch_iff {r : Regex} {s : String} : isMatch r s = true ↔
    ∃ front rest, s.toList = front ++ rest ∧ Passes front.isEmpty r rest := by
  rw [isMatch, search_iff]
  constructor
  · rintro (⟨t, ht, hpasses⟩ | ⟨c, front, rest, htext, hpasses⟩)
    · obtain rfl := List.mem_singleton.1 ht
      exact ⟨[], s.toList, rfl, hpasses⟩
    · exact ⟨c :: front, rest, htext, hpasses⟩
  · rintro ⟨front, rest, htext, hpasses⟩
    cases front with
    | nil => exact .inl ⟨r, List.mem_singleton_self r, htext ▸ hpasses⟩
    | cons c front => exact .inr ⟨c, front, rest, htext, hpasses⟩

/-! Passing over one piece -/

theorem passes_start {atStart : Bool} {more : Regex} {text : List Char} :
    Passes atStart (⟨.start, false⟩ :: more) text ↔ atStart = true ∧ Passes atStart more text := by
  constructor
  · intro h
    cases h with
    | hold hp h => exact ⟨hp, h⟩
    | leave hp h => cases hp
    | take hc hp h => cases hc
    | again hc hp h => cases hp
  · rintro ⟨hstart, h⟩
    exact .hold hstart h

theorem passes_stop {atStart : Bool} {text : List Char} :
    Passes atStart [⟨.stop, false⟩] text ↔ text = [] := by
  constructor
  · intro h
    cases h with
    | hold hp h => exact List.isEmpty_iff.1 hp
    | leave hp h => cases hp
    | take hc hp h => cases hc
    | again hc hp h => cases hp
  · rintro rfl
    exact .hold rfl (.done _ _)

theorem passes_char {atStart : Bool} {a : Char} {more : Regex} {text : List Char} :
    Passes atStart (⟨.char a, false⟩ :: more) text ↔
      ∃ rest, text = a :: rest ∧ Passes false more rest := by
  constructor
  · intro h
    cases h with
    | hold hp h => cases hp
    | leave hp h => cases hp
    | take hc hp h => exact ⟨_, congrArg (· :: _) (beq_iff_eq.1 hc).symm, h⟩
    | again hc hp h => cases hp
  · rintro ⟨rest, rfl, h⟩
    exact .take (beq_self_eq_true a) rfl h

/-- A repeated mark for any character takes in a run without line breaks. -/
theorem passes_anyRun {atStart : Bool} {more : Regex} {text : List Char} :
    Passes atStart (⟨.any, true⟩ :: more) text ↔ Passes atStart more text ∨
      ∃ c rest, text = c :: rest ∧ c ≠ '\n' ∧ Passes false (⟨.any, true⟩ :: more) rest := by
  constructor
  · intro h
    cases h with
    | hold hp h => cases hp
    | leave hp h => exact .inl h
    | take hc hp h => cases hp
    | again hc hp h => exact .inr ⟨_, _, rfl, bne_iff_ne.1 hc, h⟩
  · rintro (h | ⟨c, rest, rfl, hc, h⟩)
    · exact .leave rfl h
    · exact .again (bne_iff_ne.2 hc) rfl h

/-! Reading what is written -/

theorem token?_of_plain {c : Char} (h : c ∉ metaChars) : token? c = some (.atom (.char c)) := by
  unfold token?
  split <;> first | exact absurd (by decide) h | rw [if_neg (by simp [h])]

theorem tokens?_cons {c : Char} {t : Token} (hne : c ≠ '\\') (h : token? c = some t)
    (rest : List Char) : tokens? (c :: rest) = (tokens? rest).map (t :: ·) := by
  rw [tokens?, h]
  · cases tokens? rest <;> rfl
  · simp [hne]

theorem tokens?_plain {c : Char} (h : c ∉ metaChars) (rest : List Char) :
    tokens? (c :: rest) = (tokens? rest).map (.atom (.char c) :: ·) := by
  refine tokens?_cons ?_ (token?_of_plain h) rest
  rintro rfl
  exact h (by decide)

theorem escaped?_of_meta {c : Char} (h : c ∈ metaChars) : escaped? c = some (.atom (.char c)) := by
  have hall : metaChars.all (fun c => escaped? c == some (.atom (.char c))) = true := by decide
  exact beq_iff_eq.1 (List.all_eq_true.1 hall c h)

theorem tokens?_escaped {c : Char} (h : c ∈ metaChars) (rest : List Char) :
    tokens? ('\\' :: c :: rest) = (tokens? rest).map (.atom (.char c) :: ·) := by
  rw [tokens?, escaped?_of_meta h]
  cases tokens? rest <;> rfl

/-- An atom stands once where no repetition follows. -/
theorem ofTokens?_atom {tokens : List Token} (h : tokens.head? ≠ some .star) (a : Atom) :
    ofTokens? (.atom a :: tokens) = (ofTokens? tokens).map (⟨a, false⟩ :: ·) := by
  cases tokens with
  | nil => rfl
  | cons t tokens =>
    cases t with
    | atom b => rfl
    | star => exact absurd rfl h

end ClassAtlas.Text.Regex
