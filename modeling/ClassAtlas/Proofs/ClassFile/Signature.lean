import ClassAtlas.Proofs.ClassFile.Names

/-!
The types of fields as trees, over any way to name a class. A tree has a signature, which stands in
a class file, and lexemes, which stand in a source file. Main statement: the text that a signature
is turned into is that of the lexemes, each in its fixed form.
-/
namespace ClassAtlas.ClassFile

/-- The types that are neither classes nor arrays. -/
inductive BaseType where
  | byte | char | double | float | int | long | short | boolean
  deriving DecidableEq, Repr

def BaseType.letter : BaseType → Char
  | .byte => 'B'
  | .char => 'C'
  | .double => 'D'
  | .float => 'F'
  | .int => 'I'
  | .long => 'J'
  | .short => 'S'
  | .boolean => 'Z'

def BaseType.word : BaseType → String
  | .byte => "byte"
  | .char => "char"
  | .double => "double"
  | .float => "float"
  | .int => "int"
  | .long => "long"
  | .short => "short"
  | .boolean => "boolean"

/-- Whether a wildcard stands for the types below a type or for those above it. -/
inductive Bound where
  | upper | lower
  deriving DecidableEq, Repr

def Bound.letter : Bound → Char
  | .upper => '+'
  | .lower => '-'

def Bound.word : Bound → String
  | .upper => "extends"
  | .lower => "super"

mutual

/-- The type of a field; `α` says how classes are named. -/
inductive FieldType (α : Type) where
  | base (type : BaseType)
  | array (element : FieldType α)
  | named (name : α) (arguments : Arguments α)

/-- The arguments of a class: wildcards without a bound, types, and wildcards with a bound. A class
without arguments is written without brackets. -/
inductive Arguments (α : Type) where
  | nil
  | any (rest : Arguments α)
  | exact (type : FieldType α) (rest : Arguments α)
  | bounded (bound : Bound) (type : FieldType α) (rest : Arguments α)

end

variable {α β : Type}

/-- What stands between brackets, if there are arguments. -/
def Arguments.between (opening closing : β) : Arguments α → List β → List β
  | .nil, _ => []
  | _, inside => opening :: inside ++ [closing]

theorem Arguments.between_of_ne_nil {args : Arguments α} (h : args ≠ .nil) (opening closing : β)
    (inside : List β) : args.between opening closing inside = opening :: inside ++ [closing] := by
  cases args with
  | nil => exact absurd rfl h
  | any rest => rfl
  | exact type rest => rfl
  | bounded bound type rest => rfl

mutual

/-- The signature of a type, given the dotted names of its classes. -/
def FieldType.signature (name : α → List Char) : FieldType α → List Char
  | .base type => [type.letter]
  | .array element => '[' :: element.signature name
  | .named a args =>
    'L' :: ((name a).map fun c => if c = '.' then '/' else c) ++
      args.between '<' '>' (args.signature name) ++ [';']

def Arguments.signature (name : α → List Char) : Arguments α → List Char
  | .nil => []
  | .any rest => '*' :: rest.signature name
  | .exact type rest => type.signature name ++ rest.signature name
  | .bounded bound type rest => bound.letter :: type.signature name ++ rest.signature name

end

/-- The characters that divide a written type. -/
inductive Divider where
  | less | greater | opening | closing | comma | query
  deriving DecidableEq, Repr

def Divider.char : Divider → Char
  | .less => '<'
  | .greater => '>'
  | .opening => '['
  | .closing => ']'
  | .comma => ','
  | .query => '?'

/-- What a written type consists of. -/
inductive Lexeme (α : Type) where
  | name (a : α)
  | base (type : BaseType)
  | bound (b : Bound)
  | mark (m : Divider)
  deriving DecidableEq, Repr

/-- The form of a lexeme in the text of a type, where blanks have fixed places. -/
def Lexeme.form (name : α → List Char) : Lexeme α → List Char
  | .name a => name a
  | .base type => type.word.toList
  | .bound b => ' ' :: b.word.toList ++ [' ']
  | .mark .comma => [',', ' ']
  | .mark m => [m.char]

mutual

/-- The lexemes of a type, in their order. -/
def FieldType.lexemes : FieldType α → List (Lexeme α)
  | .base type => [.base type]
  | .array element => element.lexemes ++ [.mark .opening, .mark .closing]
  | .named a args =>
    .name a :: args.between (.mark .less) (.mark .greater)
      (List.intercalate [.mark .comma] args.lexemes)

/-- The lexemes of each argument. -/
def Arguments.lexemes : Arguments α → List (List (Lexeme α))
  | .nil => []
  | .any rest => [.mark .query] :: rest.lexemes
  | .exact type rest => type.lexemes :: rest.lexemes
  | .bounded bound type rest => (.mark .query :: .bound bound :: type.lexemes) :: rest.lexemes

end

/-- The text of a type. -/
def FieldType.form (name : α → List Char) (t : FieldType α) : List Char :=
  t.lexemes.flatMap (Lexeme.form name)

/-- The texts of the arguments. -/
def Arguments.forms (name : α → List Char) (args : Arguments α) : List (List Char) :=
  args.lexemes.map (List.flatMap (Lexeme.form name))

theorem flatMap_intercalate (f : α → List β) (separator : List α) (parts : List (List α)) :
    (List.intercalate separator parts).flatMap f =
      List.intercalate (separator.flatMap f) (parts.map (List.flatMap f)) := by
  induction parts with
  | nil => rfl
  | cons first more ih =>
    cases more with
    | nil => simp [List.intercalate]
    | cons next more =>
      simp only [List.map_cons, List.intercalate_cons_cons, List.flatMap_append] at ih ⊢
      rw [ih]

theorem FieldType.form_named (name : α → List Char) (a : α) {args : Arguments α} (h : args ≠ .nil) :
    (FieldType.named a args).form name =
      name a ++ ('<' :: List.intercalate [',', ' '] (args.forms name) ++ ['>']) := by
  simp [FieldType.form, FieldType.lexemes, Arguments.between_of_ne_nil h, flatMap_intercalate,
    Lexeme.form, Arguments.forms, Divider.char]

theorem BaseType.baseType?_letter (type : BaseType) :
    Signature.baseType? type.letter = some type.word := by
  cases type <;> rfl

mutual

theorem typeText_signature {name : α → List Char} (hplain : ∀ a, ∀ c ∈ name a, IsPlain c) :
    ∀ t : FieldType α, TypeText (t.signature name) (t.form name)
  | .base type => by
    simpa [FieldType.signature, FieldType.form, FieldType.lexemes, Lexeme.form]
      using TypeText.base type.baseType?_letter
  | .array element => by
    have helement := (typeText_signature hplain element).array
    simpa [FieldType.signature, FieldType.form, FieldType.lexemes, Lexeme.form, Divider.char]
      using helement
  | .named a args => by
    by_cases hnil : args = .nil
    · subst hnil
      have hclass := (ClassText.stop.slashed (name a) (hplain a))
      simpa [FieldType.signature, FieldType.form, FieldType.lexemes, Lexeme.form, Arguments.between]
        using TypeText.cls hclass
    · have hargs := ClassText.arguments (argumentText_signature hplain args) .stop
      rw [FieldType.form_named name a hnil]
      simpa [FieldType.signature, Arguments.between_of_ne_nil hnil]
        using TypeText.cls (hargs.slashed (name a) (hplain a))

theorem argumentText_signature {name : α → List Char} (hplain : ∀ a, ∀ c ∈ name a, IsPlain c) :
    ∀ args : Arguments α, ArgumentText (args.signature name ++ ['>']) (args.forms name)
  | .nil => .stop
  | .any more => (argumentText_signature hplain more).any
  | .exact type more => by
    have hexact := (argumentText_signature hplain more).exact (typeText_signature hplain type)
    simpa [Arguments.signature, Arguments.forms, Arguments.lexemes, FieldType.form] using hexact
  | .bounded .upper type more => by
    have hupper := (argumentText_signature hplain more).upper (typeText_signature hplain type)
    simpa [Arguments.signature, Bound.letter, Arguments.forms, Arguments.lexemes, Lexeme.form,
      Divider.char, Bound.word, FieldType.form] using hupper
  | .bounded .lower type more => by
    have hlower := (argumentText_signature hplain more).lower (typeText_signature hplain type)
    simpa [Arguments.signature, Bound.letter, Arguments.forms, Arguments.lexemes, Lexeme.form,
      Divider.char, Bound.word, FieldType.form] using hlower

end

/-- The text of a signature is that of its type. -/
theorem typeName_signature {name : α → List Char} (hplain : ∀ a, ∀ c ∈ name a, IsPlain c)
    (t : FieldType α) :
    typeName (String.ofList (t.signature name)) = String.ofList (t.form name) :=
  typeName_of_typeText (typeText_signature hplain t)

end ClassAtlas.ClassFile
