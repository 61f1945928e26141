import ClassAtlas.Proofs.ClassFile.Signature

/-!
Generic types as trees: base types, arrays, type variables, and classes in packages, where an inner
class may follow one with arguments and have arguments of its own. Each has a signature and a source
form. Main statement: the signature of every tree is turned into its source form, and a text is left
alone exactly if it is not read to its end.
-/
namespace ClassAtlas.ClassFile

/-- No characters that mean something in a signature. -/
def Unmarked (chars : List Char) : Prop := ∀ c ∈ chars, c ∉ classMarks

instance : DecidablePred Unmarked := fun chars => List.decidableBAll _ chars

/-- A name as it stands in a signature. -/
structure Identifier where
  chars : List Char
  unmarked : Unmarked chars

mutual

inductive GenericType where
  | void
  | base (type : BaseType)
  | array (element : GenericType)
  | var (name : Identifier)
  | cls (package : List Identifier) (segments : Segments)

/-- A class after its package: its own name, after the classes around it from the outermost on. -/
inductive Segments where
  | last (name : Identifier) (arguments : TypeArguments)
  | around (name : Identifier) (arguments : TypeArguments) (inner : Segments)

/-- The arguments of a class; one without arguments is written without brackets. -/
inductive TypeArguments where
  | nil
  | any (rest : TypeArguments)
  | exact (type : GenericType) (rest : TypeArguments)
  | bounded (bound : Bound) (type : GenericType) (rest : TypeArguments)

end

/-- What stands between the brackets of arguments, with them; nothing if there are no arguments. -/
def TypeArguments.enclose : TypeArguments → List Char → List Char
  | .nil, _ => []
  | _, inside => '<' :: inside ++ ['>']

theorem TypeArguments.enclose_of_ne_nil {args : TypeArguments} (h : args ≠ .nil)
    (inside : List Char) : args.enclose inside = '<' :: inside ++ ['>'] := by
  cases args with
  | nil => exact absurd rfl h
  | any rest => rfl
  | exact type rest => rfl
  | bounded bound type rest => rfl

/-- The parts of a package, each with a mark behind it. -/
def packageText (mark : Char) (package : List Identifier) : List Char :=
  package.flatMap fun part => part.chars ++ [mark]

mutual

def GenericType.signature : GenericType → List Char
  | .void => ['V']
  | .base type => [type.letter]
  | .array element => '[' :: element.signature
  | .var name => 'T' :: (name.chars ++ [';'])
  | .cls package segments => 'L' :: (packageText '/' package ++ (segments.signature ++ [';']))

def Segments.signature : Segments → List Char
  | .last name args => name.chars ++ args.enclose args.signature
  | .around name args inner => name.chars ++ args.enclose args.signature ++ '.' :: inner.signature

def TypeArguments.signature : TypeArguments → List Char
  | .nil => []
  | .any rest => '*' :: rest.signature
  | .exact type rest => type.signature ++ rest.signature
  | .bounded bound type rest => bound.letter :: type.signature ++ rest.signature

end

mutual

def GenericType.sourceForm : GenericType → List Char
  | .void => "void".toList
  | .base type => type.word.toList
  | .array element => element.sourceForm ++ ['[', ']']
  | .var name => name.chars
  | .cls package segments => packageText '.' package ++ segments.sourceForm

def Segments.sourceForm : Segments → List Char
  | .last name args => name.chars ++ args.enclose (List.intercalate [',', ' '] args.sourceForms)
  | .around name args inner =>
    name.chars ++ args.enclose (List.intercalate [',', ' '] args.sourceForms) ++
      '$' :: inner.sourceForm

/-- The source form of each argument. -/
def TypeArguments.sourceForms : TypeArguments → List (List Char)
  | .nil => []
  | .any rest => ['?'] :: rest.sourceForms
  | .exact type rest => type.sourceForm :: rest.sourceForms
  | .bounded bound type rest =>
    ("? ".toList ++ bound.word.toList ++ ' ' :: type.sourceForm) :: rest.sourceForms

end

theorem ClassText.identifier {text form : List Char} (h : ClassText text form) (name : Identifier) :
    ClassText (name.chars ++ text) (name.chars ++ form) := by
  obtain ⟨chars, hunmarked⟩ := name
  induction chars with
  | nil => exact h
  | cons c chars ih =>
    obtain ⟨hc, hmore⟩ := List.forall_mem_cons.1 hunmarked
    exact (ih hmore).char hc

theorem ClassText.package {text form : List Char} (h : ClassText text form)
    (package : List Identifier) :
    ClassText (packageText '/' package ++ text) (packageText '.' package ++ form) := by
  induction package with
  | nil => exact h
  | cons part package ih =>
    have hpart := ih.slash.identifier part
    simpa [packageText] using hpart

/-- Arguments in the text of a class, if there are any. -/
theorem ClassText.enclose {text form : List Char} (h : ClassText text form) {args : TypeArguments}
    (hargs : ArgumentText (args.signature ++ ['>']) args.sourceForms) :
    ClassText (args.enclose args.signature ++ text)
      (args.enclose (List.intercalate [',', ' '] args.sourceForms) ++ form) := by
  by_cases hnil : args = .nil
  · subst hnil
    exact h
  · have hclass := ClassText.arguments hargs h
    simpa [TypeArguments.enclose_of_ne_nil hnil] using hclass

mutual

/-- The rules give the signature of every tree, with its source form. -/
theorem GenericType.typeText : ∀ t : GenericType, TypeText t.signature t.sourceForm
  | .void => .base rfl
  | .base type => .base type.baseType?_letter
  | .array element => element.typeText.array
  | .var name => .var fun hmem => name.unmarked ';' hmem (by decide)
  | .cls package segments => by
    have hclass := (segments.classText .stop).package package
    rw [List.append_nil] at hclass
    exact .cls hclass

theorem Segments.classText : ∀ (segments : Segments) {text form : List Char}, ClassText text form →
    ClassText (segments.signature ++ text) (segments.sourceForm ++ form)
  | .last name args, text, form, h => by
    have hname := (h.enclose args.argumentText).identifier name
    simpa [Segments.signature, Segments.sourceForm] using hname
  | .around name args inner, text, form, h => by
    have hname := ((inner.classText h).dot.enclose args.argumentText).identifier name
    simpa [Segments.signature, Segments.sourceForm] using hname

theorem TypeArguments.argumentText : ∀ args : TypeArguments,
    ArgumentText (args.signature ++ ['>']) args.sourceForms
  | .nil => .stop
  | .any rest => rest.argumentText.any
  | .exact type rest => by
    have hexact := rest.argumentText.exact type.typeText
    rwa [← List.append_assoc] at hexact
  | .bounded .upper type rest => by
    have hupper := rest.argumentText.upper type.typeText
    simpa [TypeArguments.signature, TypeArguments.sourceForms, Bound.letter, Bound.word] using hupper
  | .bounded .lower type rest => by
    have hlower := rest.argumentText.lower type.typeText
    simpa [TypeArguments.signature, TypeArguments.sourceForms, Bound.letter, Bound.word] using hlower

end

/-- Turning signatures into source form is exact. Every generic type comes out of its signature in its
source form. A text that is read to its end, at whatever depth, comes out as what was read, and these
texts are those of the rules; every other text stays as it is. -/
theorem typeName_is_exact :
    (∀ t : GenericType, typeName (String.ofList t.signature) = String.ofList t.sourceForm) ∧
    ∀ s : String,
      (∀ form, TypeText s.toList form ↔
        ∃ depth, Signature.readType depth s.toList = some (form, [])) ∧
      (∀ form, TypeText s.toList form → typeName s = String.ofList form) ∧
      ((∀ form depth, Signature.readType depth s.toList ≠ some (form, [])) → typeName s = s) := by
  refine ⟨fun t => typeName_of_typeText t.typeText, fun s => ⟨?_, ?_, ?_⟩⟩
  · exact fun form => typeText_iff_exists_read
  · intro form h
    have hname := typeName_of_typeText h
    rwa [String.ofList_toList] at hname
  · intro hnever
    refine typeName_of_not_typeText fun form h => ?_
    obtain ⟨depth, hread⟩ := typeText_iff_exists_read.1 h
    exact hnever form depth hread

/-- An array of an inner class, where the class around it has arguments of every kind. -/
def cellsOfBooks : GenericType :=
  .array (.cls [⟨"org".toList, by decide⟩, ⟨"demo".toList, by decide⟩]
    (.around ⟨"Book".toList, by decide⟩
      (.exact (.var ⟨"K".toList, by decide⟩) (.bounded .upper (.array (.base .int))
        (.bounded .lower (.cls [⟨"java".toList, by decide⟩] (.last ⟨"Number".toList, by decide⟩ .nil))
          (.any .nil))))
      (.around ⟨"Line".toList, by decide⟩ .nil
        (.last ⟨"Cell".toList, by decide⟩ (.exact (.var ⟨"U".toList, by decide⟩) .nil)))))

/-- The cells above come out of their signature. A class with one semicolon too many is read, but not
to its end, and stays as it is. -/
theorem typeName_is_exact_cellsOfBooks :
    typeName "[Lorg/demo/Book<TK;+[I-Ljava/Number;*>.Line.Cell<TU;>;" =
      "org.demo.Book<K, ? extends int[], ? super java.Number, ?>$Line$Cell<U>[]" ∧
    TypeText "[[TKey;".toList "Key[][]".toList ∧ typeName "[[TKey;" = "Key[][]" ∧
    (∀ form depth, Signature.readType depth "Ljava/Number;;".toList ≠ some (form, [])) ∧
    typeName "Ljava/Number;;" = "Ljava/Number;;" := by
  obtain ⟨htrees, htexts⟩ := typeName_is_exact
  have hcells : "[Lorg/demo/Book<TK;+[I-Ljava/Number;*>.Line.Cell<TU;>;" =
      String.ofList cellsOfBooks.signature := by decide +kernel
  have hform : String.ofList cellsOfBooks.sourceForm =
      "org.demo.Book<K, ? extends int[], ? super java.Number, ?>$Line$Cell<U>[]" := by decide +kernel
  have hkeys : TypeText "[[TKey;".toList "Key[][]".toList := by decide +kernel
  have hnever : ∀ form depth,
      Signature.readType depth "Ljava/Number;;".toList ≠ some (form, []) := by
    intro form depth hread
    have hall := (typeText_iff_read (Nat.le_refl _)).1 (typeText_of_read_whole hread)
    have hpart : Signature.readType (2 * "Ljava/Number;;".toList.length) "Ljava/Number;;".toList =
        some ("java.Number".toList, [';']) := by decide +kernel
    rw [hpart] at hall
    cases hall
  refine ⟨?_, hkeys, (htexts _).2.1 _ hkeys, hnever, (htexts _).2.2 hnever⟩
  rw [hcells, htrees, hform]

end ClassAtlas.ClassFile
