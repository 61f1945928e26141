import ClassAtlas.Proofs.ClassFile.Signature
import ClassAtlas.Proofs.Source.Preamble

/-!
Types as they are written in a source file. A class is written by a simple name, which the package
and the imports of the file give a meaning, or by its qualified name, and white space may stand
between all lexemes. Main statement: the text of a written type is that of its signature if and only
if no word that its qualified names are written in is taken for something else. That is so wherever
no white space stands beside the dots of a qualified name.
-/
namespace ClassAtlas.Source

open ClassFile (FieldType Arguments Lexeme BaseType Bound Divider IsPlain)

/-! Written types -/

/-- A simple name that is looked up: a capital letter of ASCII, then its letters, its digits, `_`
and `$`. -/
structure SimpleName where
  text : String
  capital : text.toList.head?.any Char.isUpper = true := by decide
  chars : text.toList.all (fun c => c.isAlphanum || c == '_' || c == '$') = true := by decide
  deriving DecidableEq

/-- White space between two lexemes. -/
structure Gap where
  chars : List Char
  blank : chars.all Text.isBlankChar = true := by decide
  deriving DecidableEq

/-- A further part of a qualified name, with the white space around its dot. -/
structure Selection where
  before : Gap
  after : Gap
  part : Identifier
  deriving DecidableEq

/-- A qualified name as it is written. -/
structure QualifiedName where
  first : Identifier
  rest : List Selection
  deriving DecidableEq

namespace QualifiedName

def text (q : QualifiedName) : List Char :=
  q.first.text.toList ++
    q.rest.flatMap fun s => s.before.chars ++ '.' :: (s.after.chars ++ s.part.text.toList)

/-- The name without white space. -/
def full (q : QualifiedName) : List Char :=
  q.first.text.toList ++ q.rest.flatMap fun s => '.' :: s.part.text.toList

/-- The runs of characters that are looked at as names. -/
def words (q : QualifiedName) : List String :=
  (q.text.splitOnP fun c => !Scope.isNameChar c).map String.ofList

/-- Nothing comes between the characters of the name, and there is a dot among them. -/
structure Tight (q : QualifiedName) : Prop where
  dotted : q.rest ≠ []
  nameChars : q.text.all Scope.isNameChar = true

end QualifiedName

/-- A class as it is written. -/
inductive ClassUse where
  | simple (name : SimpleName)
  | qualified (name : QualifiedName)
  deriving DecidableEq

namespace ClassUse

def text : ClassUse → List Char
  | .simple name => name.text.toList
  | .qualified name => name.text

/-- The full name of the class. -/
def full (p : Preamble) : ClassUse → List Char
  | .simple name => (p.meaning name.text).toList
  | .qualified name => name.full

end ClassUse

/-- A lexeme as it is written. -/
def lexemeText : Lexeme ClassUse → List Char
  | .name use => use.text
  | .base type => type.word.toList
  | .bound b => b.word.toList
  | .mark m => [m.char]

/-- Lexemes that would run together. -/
def isWord : Lexeme ClassUse → Bool
  | .mark _ => false
  | _ => true

theorem exists_mark {lexeme : Lexeme ClassUse} (h : isWord lexeme = false) :
    ∃ m, lexeme = .mark m := by
  cases lexeme with
  | mark m => exact ⟨m, rfl⟩
  | name use => cases h
  | base type => cases h
  | bound b => cases h

/-- Lexemes one after the other, with white space anywhere between them and always between words. -/
inductive LaidOut : List (Lexeme ClassUse) → List Char → Prop where
  | nil (gap : Gap) : LaidOut [] gap.chars
  | cons {lexeme : Lexeme ClassUse} {rest : List (Lexeme ClassUse)} {text more : List Char}
    (gap : Gap) (hmore : LaidOut rest more)
    (hapart : isWord lexeme = true → rest.head?.any isWord = true →
      more.head?.any Text.isBlankChar = true)
    (htext : text = gap.chars ++ (lexemeText lexeme ++ more)) : LaidOut (lexeme :: rest) text

/-! The scanner -/

namespace Scope

/-- The code points of white space. -/
def blankCodes : List Nat :=
  [9, 10, 11, 12, 13, 0x20, 0x85, 0xa0, 0x1680, 0x2000, 0x2001, 0x2002, 0x2003, 0x2004, 0x2005,
    0x2006, 0x2007, 0x2008, 0x2009, 0x200a, 0x2028, 0x2029, 0x202f, 0x205f, 0x3000]

theorem isNameChar_of_blank {c : Char} (h : Text.isBlankChar c = true) : isNameChar c = false := by
  have hcode : c.toNat ∈ blankCodes := by
    by_cases hspace : c = ' '
    · subst hspace
      decide
    · simp only [Text.isBlankChar, Bool.or_eq_true, Bool.and_eq_true, decide_eq_true_eq,
        beq_iff_eq, hspace, or_false] at h
      simp only [blankCodes, List.mem_cons, List.not_mem_nil, or_false]
      omega
  have hall : ∀ n ∈ blankCodes, isNameChar (Char.ofNat n) = false := by decide +kernel
  rw [← Char.ofNat_toNat c]
  exact hall _ hcode

theorem isBlankChar_of_name {c : Char} (h : isNameChar c = true) : Text.isBlankChar c = false := by
  rw [Bool.eq_false_iff]
  intro hblank
  rw [isNameChar_of_blank hblank] at h
  cases h

theorem isNameChar_mark (m : Divider) : isNameChar m.char = false := by
  cases m <;> decide

theorem toNat_lt_of_isAlphanum {c : Char} (h : c.isAlphanum = true) : c.toNat < 0x80 := by
  simp only [Char.isAlphanum, Char.isAlpha, Char.isUpper, Char.isLower, Char.isDigit,
    Bool.or_eq_true, Bool.and_eq_true, decide_eq_true_eq, UInt32.le_iff_toNat_le, ge_iff_le] at h
  have hval : c.toNat = c.val.toNat := rfl
  have hZ : 'Z'.val.toNat = 90 := rfl
  have hz : 'z'.val.toNat = 122 := rfl
  have h9 : '9'.val.toNat = 57 := rfl
  omega

theorem isNameChar_of_isAlphanum {c : Char} (h : c.isAlphanum = true) : isNameChar c = true := by
  have hlt := toNat_lt_of_isAlphanum h
  rw [Char.isAlphanum] at h
  rw [isNameChar, Text.isLetter, Text.isDigit, if_pos hlt, if_pos hlt, Bool.or_assoc, h,
    Bool.or_true]

variable (s : Scope)

/-- What stands for a character that is in no name. -/
def otherChars (c : Char) : List Char :=
  if Text.isBlankChar c then [] else if c == ',' then [',', ' '] else [c]

theorem typeChars_nil (word : List Char) : s.typeChars word [] = s.typeWord word.reverse := rfl

theorem typeChars_name {c : Char} (h : isNameChar c = true) (word rest : List Char) :
    s.typeChars word (c :: rest) = s.typeChars (c :: word) rest := by
  rw [typeChars, if_pos h]

theorem typeChars_other {c : Char} (h : isNameChar c = false) (word rest : List Char) :
    s.typeChars word (c :: rest) =
      s.typeWord word.reverse ++ (otherChars c ++ s.typeChars [] rest) := by
  rw [typeChars, if_neg (by rw [h]; exact Bool.false_ne_true), List.append_assoc]
  rfl

theorem typeWord_nil : s.typeWord [] = [] := rfl

theorem typeChars_append (word text : List Char) {rest : List Char}
    (h : rest.head?.any isNameChar = false) :
    s.typeChars word (text ++ rest) = s.typeChars word text ++ s.typeChars [] rest := by
  -- the word under way ends with `text`, as `rest` does not go on with it
  induction text generalizing word with
  | nil =>
    cases rest with
    | nil =>
      rw [List.append_nil, typeChars_nil s [], List.reverse_nil, typeWord_nil, List.append_nil]
    | cons c rest =>
      have hc : isNameChar c = false := h
      rw [List.nil_append, typeChars_other s hc, typeChars_other s hc, typeChars_nil]
      rfl
  | cons c text ih =>
    rw [List.cons_append]
    cases hc : isNameChar c with
    | true => rw [typeChars_name s hc, typeChars_name s hc, ih]
    | false =>
      rw [typeChars_other s hc, typeChars_other s hc, ih, List.append_assoc, List.append_assoc]

theorem typeChars_word (word text : List Char) (h : ∀ c ∈ text, isNameChar c = true) :
    s.typeChars word text = s.typeWord (word.reverse ++ text) := by
  induction text generalizing word with
  | nil => rw [typeChars_nil, List.append_nil]
  | cons c text ih =>
    obtain ⟨hc, htext⟩ := List.forall_mem_cons.1 h
    rw [typeChars_name s hc, ih _ htext, List.reverse_cons, List.append_assoc,
      List.singleton_append]

theorem typeChars_gap (gap : Gap) (rest : List Char) :
    s.typeChars [] (gap.chars ++ rest) = s.typeChars [] rest := by
  obtain ⟨chars, hblank⟩ := gap
  induction chars with
  | nil => rfl
  | cons c chars ih =>
    obtain ⟨hc, hchars⟩ := List.forall_mem_cons.1 (List.all_eq_true.1 hblank)
    rw [List.cons_append, typeChars_other s (isNameChar_of_blank hc), otherChars, if_pos hc]
    exact ih (List.all_eq_true.2 hchars)

theorem typeChars_mark (m : Divider) (rest : List Char) (name : ClassUse → List Char) :
    s.typeChars [] (m.char :: rest) = Lexeme.form name (.mark m) ++ s.typeChars [] rest := by
  rw [typeChars_other s (isNameChar_mark m)]
  cases m <;> rfl

theorem typeChars_base (type : BaseType) :
    s.typeChars [] type.word.toList = type.word.toList := by
  have hword : type.word.toList.all Char.isAlphanum = true := by cases type <;> decide
  rw [typeChars_word s _ _ fun c hc => isNameChar_of_isAlphanum (List.all_eq_true.1 hword c hc)]
  cases type <;> rfl

theorem typeChars_bound (b : Bound) :
    s.typeChars [] b.word.toList = ' ' :: b.word.toList ++ [' '] := by
  have hword : b.word.toList.all Char.isAlphanum = true := by cases b <;> decide
  rw [typeChars_word s _ _ fun c hc => isNameChar_of_isAlphanum (List.all_eq_true.1 hword c hc)]
  cases b <;> rfl

/-- A lexeme that stands alone. -/
theorem typeChars_lexeme (lexeme : Lexeme ClassUse) :
    s.typeChars [] (lexemeText lexeme) = lexeme.form fun use => s.typeChars [] use.text := by
  cases lexeme with
  | name use => rfl
  | base type => exact typeChars_base s type
  | bound b => exact typeChars_bound s b
  | mark m =>
    rw [lexemeText, typeChars_mark s m [] fun use => s.typeChars [] use.text, typeChars_nil]
    exact List.append_nil _

theorem head?_gap {gap : Gap} {rest : List Char} (h : rest.head?.any isNameChar = false) :
    (gap.chars ++ rest).head?.any isNameChar = false := by
  obtain ⟨chars, hblank⟩ := gap
  cases chars with
  | nil => exact h
  | cons c chars => exact isNameChar_of_blank (List.all_eq_true.1 hblank c List.mem_cons_self)

/-- What follows a word does not go on with it. -/
theorem head?_laidOut {lexemes : List (Lexeme ClassUse)} {text : List Char}
    (h : LaidOut lexemes text)
    (hapart : lexemes.head?.any isWord = true → text.head?.any Text.isBlankChar = true) :
    text.head?.any isNameChar = false := by
  cases h with
  | nil gap =>
    rw [← List.append_nil gap.chars]
    exact head?_gap rfl
  | @cons lexeme rest _ more gap hmore _ htext =>
    cases hword : isWord lexeme with
    | true =>
      have hblank := hapart hword
      cases text with
      | nil => rfl
      | cons c text => exact isNameChar_of_blank hblank
    | false =>
      obtain ⟨m, rfl⟩ := exists_mark hword
      rw [htext]
      exact head?_gap (isNameChar_mark m)

theorem typeChars_laidOut {lexemes : List (Lexeme ClassUse)} {text : List Char}
    (h : LaidOut lexemes text) :
    s.typeChars [] text = lexemes.flatMap (Lexeme.form fun use => s.typeChars [] use.text) := by
  induction h with
  | nil gap =>
    rw [← List.append_nil gap.chars, typeChars_gap]
    rfl
  | @cons lexeme rest text more gap hmore hapart htext ih =>
    rw [htext, typeChars_gap, List.flatMap_cons, ← ih]
    -- a mark ends itself, and a word is ended by what is laid out after it
    cases hword : isWord lexeme with
    | true =>
      rw [typeChars_append s _ _ (head?_laidOut hmore (hapart hword)), typeChars_lexeme]
    | false =>
      obtain ⟨m, rfl⟩ := exists_mark hword
      exact s.typeChars_mark m more _

end Scope

/-! Texts that stay or get longer -/

/-- A text that comes out where another is expected: it is never shorter, and it is the expected one
if and only if `kept` holds. -/
structure Lengthens (expected out : List Char) (kept : Prop) : Prop where
  length_le : expected.length ≤ out.length
  eq_iff : out = expected ↔ kept

namespace Lengthens

variable {a b a' b' : List Char} {P Q : Prop}

theorem refl (a : List Char) : Lengthens a a True := ⟨le_rfl, iff_of_true rfl trivial⟩

theorem congr (h : Lengthens a b P) (hPQ : P ↔ Q) : Lengthens a b Q :=
  ⟨h.length_le, h.eq_iff.trans hPQ⟩

/-- Lengths decide where texts that follow each other are divided. -/
theorem append (h : Lengthens a b P) (h' : Lengthens a' b' Q) :
    Lengthens (a ++ a') (b ++ b') (P ∧ Q) := by
  have hle := h.length_le
  have hle' := h'.length_le
  refine ⟨by simp only [List.length_append]; omega, ?_⟩
  rw [← h.eq_iff, ← h'.eq_iff]
  constructor
  · intro heq
    -- neither part can be too long without the other being too short
    have hlength := congrArg List.length heq
    simp only [List.length_append] at hlength
    exact List.append_inj heq (by omega)
  · rintro ⟨rfl, rfl⟩
    rfl

theorem append_left (c : List Char) (h : Lengthens a b P) : Lengthens (c ++ a) (c ++ b) P :=
  ((refl c).append h).congr (and_iff_right trivial)

theorem flatMap {α : Type} {f g : α → List Char} {P : α → Prop} {l : List α}
    (h : ∀ x ∈ l, Lengthens (f x) (g x) (P x)) :
    Lengthens (l.flatMap f) (l.flatMap g) (∀ x ∈ l, P x) := by
  induction l with
  | nil => exact (refl []).congr (iff_of_true trivial (by simp))
  | cons x l ih =>
    obtain ⟨hx, hl⟩ := List.forall_mem_cons.1 h
    exact (hx.append (ih hl)).congr List.forall_mem_cons.symm

end Lengthens

theorem isPlain_of_isIdentifierChar {c : Char} (h : isIdentifierChar c = true) : IsPlain c := by
  have hmark := (isIdentifierChar_iff.1 h).2
  refine ⟨?_, ?_, ?_, ?_⟩
  · exact fun hc => hmark (hc ▸ by decide)
  · exact fun hc => hmark (hc ▸ by decide)
  · exact fun hc => hmark (hc ▸ by decide)
  · intro hzero
    have hc : c = '\x00' := Char.ext (UInt32.toNat.inj hzero)
    exact hmark (hc ▸ by decide)

/-- Words that are no names, wherever they stand. -/
def boundWords : List String := [Bound.upper.word, Bound.lower.word]

namespace Scope

theorem typeWord_of_bound (s : Scope) {word : String} (h : word ∈ boundWords) :
    s.typeWord word.toList = ' ' :: word.toList ++ [' '] := by
  simp only [boundWords, List.mem_cons, List.not_mem_nil, or_false] at h
  rcases h with rfl | rfl <;> rfl

theorem typeWord_of_not_bound (s : Scope) {word : String} (h : word ∉ boundWords) :
    s.typeWord word.toList = (s.typeName word).toList := by
  have hbound : (word.toList == "extends".toList || word.toList == "super".toList) = false := by
    simp only [boundWords, List.mem_cons, List.not_mem_nil, or_false, not_or] at h
    rw [Bool.or_eq_false_iff, beq_eq_false_iff_ne, beq_eq_false_iff_ne]
    exact ⟨fun heq => h.1 (String.toList_injective heq),
      fun heq => h.2 (String.toList_injective heq)⟩
  rw [typeWord, hbound, String.ofList_toList]
  cases hword : word.toList with
  | nil =>
    obtain rfl : word = "" := String.toList_eq_nil_iff.1 hword
    rfl
  | cons c rest => rfl

end Scope

namespace Preamble

variable (p : Preamble)

theorem lengthens_meaning (name : String) :
    Lengthens name.toList (p.meaning name).toList (¬ p.Places name) := by
  rcases p.meaning_cases name with ⟨⟨front, hfront⟩, hplaces⟩ | ⟨hsame, hplaces⟩
  · have hlength : (p.meaning name).toList.length = front.length + name.toList.length + 1 := by
      rw [hfront, List.length_append, List.length_cons, Nat.add_assoc]
    refine ⟨by omega, iff_of_false (fun hsame => ?_) (not_not_intro hplaces)⟩
    rw [hsame] at hlength
    omega
  · rw [hsame]
    exact (Lengthens.refl _).congr (iff_of_true trivial hplaces)

/-- Words that are taken for something else in a qualified name: for a bound, or for the simple name
of another class. -/
def Misreads (word : String) : Prop :=
  word ∈ boundWords ∨
    '.' ∉ word.toList ∧ Scope.startsWithCapital word = true ∧ p.Places word

instance (word : String) : Decidable (p.Misreads word) :=
  inferInstanceAs (Decidable (_ ∨ _ ∧ _ ∧ _))

theorem not_misreads_of_dot {word : String} (h : '.' ∈ word.toList) : ¬ p.Misreads word := by
  rintro (hbound | ⟨hdot, -⟩)
  · simp only [boundWords, List.mem_cons, List.not_mem_nil, or_false] at hbound
    rcases hbound with rfl | rfl <;> exact absurd h (by decide)
  · exact hdot h

theorem lengthens_typeWord (word : String) :
    Lengthens word.toList (p.scope.typeWord word.toList) (¬ p.Misreads word) := by
  by_cases hbound : word ∈ boundWords
  · have hlength : (p.scope.typeWord word.toList).length = word.toList.length + 2 := by
      simp [Scope.typeWord_of_bound _ hbound]
    refine ⟨by omega, iff_of_false (fun heq => ?_) (not_not_intro (.inl hbound))⟩
    rw [heq] at hlength
    omega
  · rw [Scope.typeWord_of_not_bound _ hbound, Misreads, or_iff_right hbound]
    by_cases hlooked : '.' ∉ word.toList ∧ Scope.startsWithCapital word = true
    · rw [p.typeName_scope hlooked.1 hlooked.2, ← and_assoc, and_iff_right hlooked]
      exact p.lengthens_meaning word
    · have hsame : p.scope.typeName word = word := by
        rw [Scope.typeName, if_pos]
        simpa [Text.containsChar, or_iff_not_imp_left] using hlooked
      rw [hsame, ← and_assoc]
      exact (Lengthens.refl _).congr (iff_of_true trivial fun h => hlooked h.1)

/-- White space left out, a text stays as it is if and only if none of its words is misread. -/
theorem lengthens_typeChars {text : List Char} (hcomma : ',' ∉ text) (word : List Char) :
    Lengthens (word.reverse ++ text.filter fun c => !Text.isBlankChar c)
      (p.scope.typeChars word text)
      (∀ w ∈ text.splitOnPPrepend (fun c => !Scope.isNameChar c) word,
        ¬ p.Misreads (String.ofList w)) := by
  have hwords : ∀ word : List Char, Lengthens word.reverse (p.scope.typeWord word.reverse)
      (¬ p.Misreads (String.ofList word.reverse)) := by
    intro word
    have hword := p.lengthens_typeWord (String.ofList word.reverse)
    rwa [String.toList_ofList] at hword
  induction text generalizing word with
  | nil =>
    rw [List.splitOnPPrepend_nil, List.forall_mem_singleton, List.filter_nil, List.append_nil]
    exact hwords word
  | cons c text ih =>
    obtain ⟨hc, htext⟩ := not_or.1 (List.mem_cons.not.1 hcomma)
    cases hname : Scope.isNameChar c with
    | true =>
      have hblank := Scope.isBlankChar_of_name hname
      have hrest := ih htext (c :: word)
      rw [List.reverse_cons, List.append_assoc, List.singleton_append] at hrest
      rw [Scope.typeChars_name _ hname, List.splitOnPPrepend_cons_neg (by simp [hname]),
        List.filter_cons_of_pos (by simp [hblank])]
      exact hrest
    | false =>
      have hother : Scope.otherChars c ++ (text.filter fun c => !Text.isBlankChar c) =
          (c :: text).filter fun c => !Text.isBlankChar c := by
        cases hblank : Text.isBlankChar c <;> simp [Scope.otherChars, hblank, Ne.symm hc]
      rw [Scope.typeChars_other _ hname, ← hother, List.splitOnPPrepend_cons_pos (by simp [hname]),
        List.forall_mem_cons]
      exact (hwords word).append ((ih htext []).append_left _)

end Preamble

/-! Classes as they are written -/

namespace Gap

theorem filter_chars (gap : Gap) : (gap.chars.filter fun c => !Text.isBlankChar c) = [] := by
  rw [List.filter_eq_nil_iff]
  intro c hc
  simp [List.all_eq_true.1 gap.blank c hc]

end Gap

theorem Identifier.filter_text (name : Identifier) :
    (name.text.toList.filter fun c => !Text.isBlankChar c) = name.text.toList := by
  rw [List.filter_eq_self]
  intro c hc
  simp [(isIdentifierChar_iff.1 (name.isIdentifierChar_of_mem hc)).1]

namespace QualifiedName

theorem filter_text (q : QualifiedName) :
    (q.text.filter fun c => !Text.isBlankChar c) = q.full := by
  have hdot : Text.isBlankChar '.' = false := by decide
  rw [text, List.filter_append, q.first.filter_text, full]
  simp [List.filter_flatMap, Gap.filter_chars, Identifier.filter_text, hdot]

/-- White space, dots and identifiers are all there is. -/
theorem mem_text {q : QualifiedName} {c : Char} (h : c ∈ q.text) :
    Text.isBlankChar c = true ∨ c = '.' ∨ isIdentifierChar c = true := by
  simp only [text, List.mem_append, List.mem_flatMap, List.mem_cons] at h
  rcases h with h | ⟨s, -, h | h | h | h⟩
  · exact .inr (.inr (q.first.isIdentifierChar_of_mem h))
  · exact .inl (List.all_eq_true.1 s.before.blank c h)
  · exact .inr (.inl h)
  · exact .inl (List.all_eq_true.1 s.after.blank c h)
  · exact .inr (.inr (s.part.isIdentifierChar_of_mem h))

theorem comma_not_mem_text (q : QualifiedName) : ',' ∉ q.text := by
  intro h
  rcases mem_text h with h | h | h
  · exact absurd h (by decide)
  · exact absurd h (by decide)
  · exact absurd h (by decide)

/-- A tight name is one word with a dot. -/
theorem Tight.not_misreads {q : QualifiedName} (h : q.Tight) (p : Preamble) :
    ∀ word ∈ q.words, ¬ p.Misreads word := by
  have hwords : q.words = [String.ofList q.text] := by
    rw [words, List.splitOnP_eq_singleton]
    · rfl
    · intro c hc
      simp [List.all_eq_true.1 h.nameChars c hc]
  rw [hwords, List.forall_mem_singleton]
  refine p.not_misreads_of_dot ?_
  obtain ⟨s, hs⟩ := List.exists_mem_of_ne_nil _ h.dotted
  simp only [String.toList_ofList, text, List.mem_append, List.mem_flatMap]
  exact .inr ⟨s, hs, .inr List.mem_cons_self⟩

end QualifiedName

namespace SimpleName

theorem isNameChar_of_mem (name : SimpleName) {c : Char} (h : c ∈ name.text.toList) :
    Scope.isNameChar c = true := by
  have hc := List.all_eq_true.1 name.chars c h
  simp only [Bool.or_eq_true, beq_iff_eq] at hc
  rcases hc with (hc | rfl) | rfl
  · exact Scope.isNameChar_of_isAlphanum hc
  · decide
  · decide

theorem isIdentifierChar_of_mem (name : SimpleName) {c : Char} (h : c ∈ name.text.toList) :
    isIdentifierChar c = true := by
  have hblank : Text.isBlankChar c = false := Scope.isBlankChar_of_name (name.isNameChar_of_mem h)
  have hreserved : reservedChars.all
      (fun c => !(c.isAlphanum || c == '_' || c == '$')) = true := by decide
  refine isIdentifierChar_iff.2 ⟨hblank, fun hmem => ?_⟩
  have hnone := List.all_eq_true.1 hreserved c hmem
  rw [List.all_eq_true.1 name.chars c h] at hnone
  cases hnone

theorem startsWithCapital_text (name : SimpleName) : Scope.startsWithCapital name.text = true := by
  have hall : ∀ n < 0x80, (Char.ofNat n).isUpper = true →
      (String.utf8EncodeChar (Char.ofNat n)).head?.any Scope.isCapitalByte = true := by
    decide +kernel
  have hcapital := name.capital
  cases hname : name.text.toList with
  | nil =>
    rw [hname] at hcapital
    cases hcapital
  | cons c rest =>
    rw [hname] at hcapital
    have hupper : c.isUpper = true := hcapital
    have hlt : c.toNat < 0x80 :=
      Scope.toNat_lt_of_isAlphanum (by simp [Char.isAlphanum, Char.isAlpha, hupper])
    have hbyte := hall c.toNat hlt (by rwa [Char.ofNat_toNat])
    rw [Char.ofNat_toNat] at hbyte
    rw [Scope.startsWithCapital, Text.Utf8.encode, hname, List.flatMap_cons]
    cases hbytes : String.utf8EncodeChar c with
    | nil =>
      rw [hbytes] at hbyte
      cases hbyte
    | cons b bytes =>
      rw [hbytes] at hbyte
      exact hbyte

theorem typeChars_text (p : Preamble) (name : SimpleName) :
    p.scope.typeChars [] name.text.toList = (p.meaning name.text).toList := by
  have hcapital := name.startsWithCapital_text
  have hdot : '.' ∉ name.text.toList := fun hmem =>
    (isIdentifierChar_iff.1 (name.isIdentifierChar_of_mem hmem)).2 (by decide)
  have hbound : name.text ∉ boundWords := by
    intro hmem
    simp only [boundWords, List.mem_cons, List.not_mem_nil, or_false] at hmem
    rcases hmem with heq | heq <;> exact absurd (heq ▸ hcapital) (by decide)
  rw [Scope.typeChars_word _ _ _ fun c hc => name.isNameChar_of_mem hc, List.reverse_nil,
    List.nil_append, Scope.typeWord_of_not_bound _ hbound, p.typeName_scope hdot hcapital]

end SimpleName

namespace ClassUse

/-- No word of the name is misread. -/
def Kept (p : Preamble) : ClassUse → Prop
  | .simple _ => True
  | .qualified name => ∀ word ∈ name.words, ¬ p.Misreads word

theorem lengthens_text (p : Preamble) (use : ClassUse) :
    Lengthens (use.full p) (p.scope.typeChars [] use.text) (use.Kept p) := by
  cases use with
  | simple name =>
    rw [text, name.typeChars_text]
    exact .refl _
  | qualified name =>
    have htext := p.lengthens_typeChars name.comma_not_mem_text []
    rw [List.reverse_nil, List.nil_append, name.filter_text] at htext
    refine htext.congr ?_
    rw [Kept, QualifiedName.words, List.forall_mem_map]
    rfl

theorem isPlain_full (p : Preamble) (use : ClassUse) : ∀ c ∈ use.full p, IsPlain c := by
  intro c hc
  have hchar : c = '.' ∨ isIdentifierChar c = true := by
    cases use with
    | simple name => exact p.mem_meaning (fun c hc => name.isIdentifierChar_of_mem hc) hc
    | qualified name =>
      rw [full, ← name.filter_text, List.mem_filter] at hc
      rcases name.mem_text hc.1 with h | h
      · simp [h] at hc
      · exact h
  rcases hchar with rfl | hchar
  · decide
  · exact isPlain_of_isIdentifierChar hchar

end ClassUse

theorem lengthens_lexeme (p : Preamble) (lexeme : Lexeme ClassUse) :
    Lengthens (lexeme.form (ClassUse.full p))
      (lexeme.form fun use => p.scope.typeChars [] use.text)
      (∀ use, lexeme = .name use → use.Kept p) := by
  cases lexeme with
  | name use => exact (use.lengthens_text p).congr (by simp)
  | base type => exact (Lengthens.refl _).congr (by simp)
  | bound b => exact (Lengthens.refl _).congr (by simp)
  | mark m => cases m <;> exact (Lengthens.refl _).congr (by simp)

theorem typeText_eq_iff_kept (p : Preamble) (t : FieldType ClassUse) {text : String}
    (h : LaidOut t.lexemes text.toList) :
    p.scope.typeText text = ClassFile.typeName (String.ofList (t.signature (ClassUse.full p))) ↔
      ∀ use, Lexeme.name use ∈ t.lexemes → use.Kept p := by
  have hforms := Lengthens.flatMap fun lexeme (_ : lexeme ∈ t.lexemes) => lengthens_lexeme p lexeme
  rw [Scope.typeText, Scope.typeChars_laidOut _ h,
    ClassFile.typeName_signature (ClassUse.isPlain_full p), FieldType.form, String.ofList_inj,
    hforms.eq_iff]
  constructor
  · exact fun hkept use huse => hkept _ huse use rfl
  · rintro hkept lexeme hlexeme use rfl
    exact hkept use hlexeme

/-- The text of a written type is that of its signature if and only if no word of its qualified
names is misread; none is, where qualified names are written without white space. -/
theorem typeText_eq_typeName_iff (p : Preamble) (t : FieldType ClassUse) {text : String}
    (h : LaidOut t.lexemes text.toList) :
    (p.scope.typeText text = ClassFile.typeName (String.ofList (t.signature (ClassUse.full p))) ↔
      ∀ q, Lexeme.name (.qualified q) ∈ t.lexemes → ∀ word ∈ q.words, ¬ p.Misreads word) ∧
    ((∀ q, Lexeme.name (.qualified q) ∈ t.lexemes → q.Tight) →
      p.scope.typeText text =
        ClassFile.typeName (String.ofList (t.signature (ClassUse.full p)))) := by
  have hkept : (∀ use, Lexeme.name use ∈ t.lexemes → use.Kept p) ↔
      ∀ q, Lexeme.name (.qualified q) ∈ t.lexemes → ∀ word ∈ q.words, ¬ p.Misreads word := by
    constructor
    · exact fun hkept q hq => hkept (.qualified q) hq
    · rintro hwords (name | q) huse
      · trivial
      · exact hwords q huse
  rw [typeText_eq_iff_kept p t h, hkept]
  exact ⟨Iff.rfl, fun htight q hq => (htight q hq).not_misreads p⟩

/-- A file of a package, with one import. -/
def ordersPreamble : Preamble where
  package := [⟨"com", by decide, by decide⟩, ⟨"acme", by decide, by decide⟩]
  imports := [⟨[⟨"java", by decide, by decide⟩, ⟨"util", by decide, by decide⟩],
    ⟨"List", by decide, by decide⟩, by decide⟩]

def noGap : Gap := ⟨[], rfl⟩

def blankGap : Gap := ⟨[' '], rfl⟩

/-- A qualified name with the same white space around each of its dots. -/
def listName (gap : Gap) : QualifiedName :=
  ⟨⟨"java", by decide, by decide⟩,
    [⟨gap, gap, ⟨"util", by decide, by decide⟩⟩, ⟨gap, gap, ⟨"List", by decide, by decide⟩⟩]⟩

def orderName : ClassUse := .simple ⟨"Order", by decide, by decide⟩

/-- The type of lists of what is above arrays of orders. -/
def ordersType (gap : Gap) : FieldType ClassUse :=
  .named (.qualified (listName gap)) (.bounded .lower (.array (.named orderName .nil)) .nil)

theorem laidOut_ordersType (gap : Gap) :
    LaidOut (ordersType gap).lexemes ((listName gap).text ++ "< ?super Order [] >".toList) := by
  have harray : LaidOut [.mark .opening, .mark .closing, .mark .greater] " [] >".toList :=
    .cons blankGap (.cons noGap (.cons blankGap (.nil noGap) (by decide) rfl) (by decide) rfl)
      (by decide) rfl
  have hbound : LaidOut (.mark .query :: .bound .lower :: .name orderName ::
      [.mark .opening, .mark .closing, .mark .greater]) " ?super Order [] >".toList :=
    .cons blankGap (.cons noGap (.cons blankGap harray (by decide) rfl) (by decide) rfl)
      (by decide) rfl
  exact .cons noGap (.cons noGap hbound (by decide) rfl) (fun _ h => absurd h (by decide)) rfl

/-- With no white space in it the qualified name is read as it is written. -/
theorem typeText_eq_typeName_ordersType :
    ordersPreamble.scope.typeText "java.util.List< ?super Order [] >" =
      ClassFile.typeName "Ljava/util/List<-[Lcom/acme/Order;>;" := by
  have hlaidOut : LaidOut (ordersType noGap).lexemes "java.util.List< ?super Order [] >".toList :=
    laidOut_ordersType noGap
  refine (typeText_eq_typeName_iff ordersPreamble (ordersType noGap) hlaidOut).2 ?_
  intro q hq
  have hlexemes : (ordersType noGap).lexemes =
      [.name (.qualified (listName noGap)), .mark .less, .mark .query, .bound .lower,
        .name orderName, .mark .opening, .mark .closing, .mark .greater] := rfl
  obtain rfl : q = listName noGap := by simpa [hlexemes, orderName] using hq
  exact ⟨by decide, by decide⟩

/-- With white space in it, its last part is taken for an import. -/
theorem typeText_ne_typeName_ordersType :
    LaidOut (ordersType blankGap).lexemes "java . util . List< ?super Order [] >".toList ∧
      ordersPreamble.scope.typeText "java . util . List< ?super Order [] >" =
        "java.util.java.util.List<? super com.acme.Order[]>" ∧
      ClassFile.typeName
          (String.ofList ((ordersType blankGap).signature (ClassUse.full ordersPreamble))) =
        "java.util.List<? super com.acme.Order[]>" :=
  ⟨laidOut_ordersType blankGap, rfl, rfl⟩

end ClassAtlas.Source
