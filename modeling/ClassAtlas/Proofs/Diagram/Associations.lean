import ClassAtlas.Diagram.Structure
import ClassAtlas.Proofs.ClassFile.Signature
import ClassAtlas.Proofs.Graph.Frame
import ClassAtlas.Proofs.Graph.Order
import ClassAtlas.Proofs.Scan.InjectionTarget
import ClassAtlas.Proofs.Source.TypeText

/-!
The associations of entity diagrams. Both ends of each are entities of the diagram, in either form of
it. The type of a field is a text, from which the class and its arguments are read back: the text that
a class file gives for a class with arguments leads to the first of them that is an entity.
-/
namespace ClassAtlas.Diagram

open ClassFile (FieldType Arguments typeName)
open Source (isIdentifierChar isIdentifierChar_iff mem_dottedName reservedChars)

/-! Types as they are written -/

/-- A class in a package, named as an import names it. -/
abbrev ClassName := Source.Import

/-- An argument of a class: anything, a class, or what is below a class. -/
inductive Argument where
  | any
  | exact (name : ClassName)
  | below (name : ClassName)

/-- The class that an argument names. -/
def Argument.name? : Argument → Option ClassName
  | .any => none
  | .exact name => some name
  | .below name => some name

/-- Arguments as a type has them. -/
def argumentsOf : List Argument → Arguments ClassName
  | [] => .nil
  | .any :: more => .any (argumentsOf more)
  | .exact name :: more => .exact (.named name .nil) (argumentsOf more)
  | .below name :: more => .bounded .upper (.named name .nil) (argumentsOf more)

/-- The text of a type, made from its signature. -/
def typeOf (name : ClassName) (args : List Argument) : String :=
  typeName (String.ofList ((FieldType.named name (argumentsOf args)).signature (·.text.toList)))

/-- The classes of a type, in the order in which they are written. -/
def classesOf (name : ClassName) (args : List Argument) : List String :=
  (name :: args.filterMap Argument.name?).map (·.text)

theorem mem_text {name : ClassName} {c : Char} (h : c ∈ name.text.toList) :
    Text.isBlankChar c = false ∧ ∀ mark ∈ reservedChars, mark ≠ '.' → c ≠ mark := by
  rcases mem_dottedName h with rfl | hc
  · exact ⟨by decide, fun _ _ hmark => hmark.symm⟩
  · obtain ⟨hblank, hreserved⟩ := isIdentifierChar_iff.1 hc
    exact ⟨hblank, fun mark hmark _ heq => hreserved (heq ▸ hmark)⟩

theorem not_mem_text {name : ClassName} {mark : Char}
    (h : mark ∈ reservedChars ∧ mark ≠ '.' := by decide) : mark ∉ name.text.toList :=
  fun hmem => (mem_text hmem).2 mark h.1 h.2 rfl

theorem isPlain_text (name : ClassName) : ∀ c ∈ name.text.toList, ClassFile.IsPlain c := by
  intro c hc
  rcases mem_dottedName hc with rfl | hc
  · decide
  · exact Source.isPlain_of_isIdentifierChar hc

theorem trim_text (name : ClassName) : Text.trim name.text = name.text :=
  Text.trim_of_no_blank fun _ hc => (mem_text hc).1

theorem text_ne_empty (name : ClassName) : name.text ≠ "" :=
  Source.dottedName_ne_empty (by simp)

/-- The text of an argument. -/
def Argument.text : Argument → String
  | .any => "?"
  | .exact name => name.text
  | .below name => "? extends " ++ name.text

theorem forms_argumentsOf (args : List Argument) :
    (argumentsOf args).forms (·.text.toList) = args.map (·.text.toList) := by
  induction args with
  | nil => rfl
  | cons arg more ih =>
    rw [List.map_cons, ← ih]
    cases arg with
    | any =>
      simp [argumentsOf, Arguments.forms, Arguments.lexemes, ClassFile.Lexeme.form,
        ClassFile.Divider.char, Argument.text]
    | exact name =>
      simp [argumentsOf, Arguments.forms, Arguments.lexemes, FieldType.lexemes, Arguments.between,
        ClassFile.Lexeme.form, Argument.text]
    | below name =>
      simp [argumentsOf, Arguments.forms, Arguments.lexemes, FieldType.lexemes, Arguments.between,
        ClassFile.Lexeme.form, ClassFile.Divider.char, ClassFile.Bound.word, Argument.text]

theorem typeOf_nil (name : ClassName) : typeOf name [] = name.text := by
  rw [typeOf, ClassFile.typeName_signature isPlain_text]
  simp [argumentsOf, FieldType.form, FieldType.lexemes, Arguments.between, ClassFile.Lexeme.form]

/-- Arguments as they stand inside the brackets. -/
def argumentList (args : List Argument) : List Char :=
  List.intercalate [',', ' '] (args.map (·.text.toList))

theorem typeOf_cons (name : ClassName) (first : Argument) (more : List Argument) :
    typeOf name (first :: more) =
      String.ofList (name.text.toList ++ '<' :: (argumentList (first :: more) ++ ['>'])) := by
  have hargs : argumentsOf (first :: more) ≠ .nil := by cases first <;> exact nofun
  rw [typeOf, ClassFile.typeName_signature isPlain_text, FieldType.form_named _ _ hargs,
    forms_argumentsOf, argumentList, List.cons_append]

/-! Types as they are read -/

/-- What stands between the first opening and the last closing bracket. -/
theorem argumentText?_brackets {front inside : List Char} (h : '<' ∉ front) :
    argumentText? (String.ofList (front ++ '<' :: (inside ++ ['>']))) =
      some (String.ofList inside) := by
  have hfront : ∀ c ∈ front, (c != '<') = true := fun c hc => by
    simpa using ne_of_mem_of_not_mem hc h
  have hinner : (front ++ '<' :: (inside ++ ['>'])).dropWhile (· != '<') =
      '<' :: (inside ++ ['>']) := by
    rw [List.dropWhile_append_of_pos hfront]
    rfl
  simp only [argumentText?, String.toList_ofList, hinner]
  simp

theorem argumentText?_of_not_mem {type : String} (h : '<' ∉ type.toList) :
    argumentText? type = none := by
  simp [argumentText?, h]

theorem normalizeType_append (name : ClassName) {tail : List Char}
    (h : tail = [] ∨ ∃ more, tail = '<' :: more) :
    Graph.normalizeType (String.ofList (name.text.toList ++ tail)) = name.text := by
  have hmarks : ∀ mark ∈ Graph.typeMarks, mark ∉ name.text.toList := by
    intro mark hmark
    simp only [Graph.typeMarks, List.mem_cons, List.not_mem_nil, or_false] at hmark
    rcases hmark with rfl | rfl | rfl | rfl <;> exact not_mem_text
  have hdot : '.' ∈ name.text.toList := by
    rw [name.toList_text]
    simp
  rw [Graph.normalizeType_of_dotted hmarks hdot h, String.ofList_toList, trim_text]

theorem normalizeType_text (name : ClassName) : Graph.normalizeType name.text = name.text := by
  have hname := normalizeType_append name (.inl rfl)
  rwa [List.append_nil, String.ofList_toList] at hname

theorem trim_argument (arg : Argument) : Text.trim arg.text = arg.text := by
  cases arg with
  | any => decide +kernel
  | exact name => exact trim_text name
  | below name =>
    have hlast : name.text.toList.getLast?.any Text.isBlankChar = false := by
      cases h : name.text.toList.getLast? with
      | none => rfl
      | some c => exact (mem_text (List.mem_of_getLast? h)).1
    have hne : name.text.toList ≠ [] := by simpa using text_ne_empty name
    apply Text.trim_of_ends
    · rw [Argument.text, String.toList_append]
      rfl
    · rwa [Argument.text, String.toList_append, List.getLast?_append_of_ne_nil _ hne]

theorem comma_not_mem_argument (arg : Argument) : ',' ∉ arg.text.toList := by
  cases arg with
  | any => simp [Argument.text]
  | exact name =>
    have hname : ',' ∉ name.text.toList := not_mem_text
    exact hname
  | below name =>
    have hname : ',' ∉ name.text.toList := not_mem_text
    simp [Argument.text, hname]

/-- The class that an argument leads to, or no name. -/
def Argument.target (arg : Argument) : String := (arg.name?.map (·.text)).getD ""

theorem normalizeType_argument (arg : Argument) :
    Graph.normalizeType (Text.dropStart arg.text "? extends ") = arg.target := by
  cases arg with
  | any => decide +kernel
  | exact name =>
    have hquery : '?' ∉ name.text.toList := not_mem_text
    have hstart : Text.startsWith name.text "? extends " = false := by
      rw [Text.startsWith, Bool.eq_false_iff]
      intro hstart
      exact hquery ((List.isPrefixOf_iff_prefix.1 hstart).subset (by simp))
    rw [Argument.text, Text.dropStart, hstart]
    exact normalizeType_text name
  | below name =>
    have hdrop : Text.dropStart (Argument.below name).text "? extends " = name.text := by
      rw [Argument.text, Text.dropStart, Text.startsWith, String.toList_append,
        if_pos (List.isPrefixOf_iff_prefix.2 (List.prefix_append _ _)), ← String.length_toList,
        List.drop_left, String.ofList_toList]
    rw [hdrop]
    exact normalizeType_text name

theorem pieces_argumentList (first : Argument) (more : List Argument) :
    Text.pieces ',' (argumentList (first :: more)) =
      first.text.toList :: more.map fun arg => [' '] ++ arg.text.toList := by
  rw [argumentList, List.map_cons, Text.pieces_intercalate ?_ (by decide), List.map_map]
  · rfl
  · rw [← List.map_cons (f := fun arg : Argument => arg.text.toList), List.forall_mem_map]
    exact fun arg _ => comma_not_mem_argument arg

/-- The text of a type leads back to its class and to those of its arguments. -/
theorem namedClasses_typeOf (name : ClassName) (args : List Argument) :
    namedClasses (typeOf name args) = name.text :: args.map Argument.target := by
  cases args with
  | nil =>
    rw [typeOf_nil, namedClasses, argumentText?_of_not_mem not_mem_text, normalizeType_text]
    rfl
  | cons first more =>
    rw [typeOf_cons, namedClasses, argumentText?_brackets not_mem_text,
      normalizeType_append name (.inr ⟨_, rfl⟩)]
    simp only [Text.splitOn, String.toList_ofList, pieces_argumentList, List.map_cons, List.map_map,
      Function.comp_def, Text.trim_blank_append, String.ofList_toList, trim_argument,
      normalizeType_argument]

/-! Entities -/

/-- A class of this name is drawn as an entity. -/
def IsEntity (g : ClassGraph) (name : String) : Prop := ∃ c ∈ entities g, c.name = name

theorem mem_entities {g : ClassGraph} {c : Graph.Class} :
    c ∈ entities g ↔ (∃ key, (key, c) ∈ g.classMap.entries) ∧ c.entity = true := by
  simp [entities, ClassGraph.sortedClasses, KeyMap.values]

theorem isEntity_iff_class? {g : ClassGraph} (h : g.WellKeyed) {name : String} :
    IsEntity g name ↔ (g.class? name).any (·.entity) = true := by
  constructor
  · rintro ⟨c, hc, rfl⟩
    obtain ⟨⟨key, hentry⟩, hentity⟩ := mem_entities.1 hc
    obtain rfl : c.name = key := h.classes _ hentry
    rw [ClassGraph.class?, (KeyMap.get?_eq_some_iff _ _ _).2 hentry]
    exact hentity
  · intro hany
    obtain ⟨c, hc, hentity⟩ := (Option.any_eq_true _ _).1 hany
    have hentry := (KeyMap.get?_eq_some_iff _ _ _).1 hc
    exact ⟨c, mem_entities.2 ⟨⟨name, hentry⟩, hentity⟩, h.classes _ hentry⟩

theorem isEntityName_iff {g : ClassGraph} (h : g.WellKeyed) {name : String} :
    isEntityName g name = true ↔ name ≠ "" ∧ IsEntity g name := by
  rw [isEntityName, Bool.and_eq_true, ← isEntity_iff_class? h]
  simp

/-- The first of some names with a property. -/
def FirstOf (p : String → Prop) (names : List String) (name : String) : Prop :=
  ∃ before after, names = before ++ name :: after ∧ p name ∧ ∀ other ∈ before, ¬ p other

theorem find?_targets {p : String → Bool} (h : p "" = false) (name : ClassName)
    (args : List Argument) :
    (name.text :: args.map Argument.target).find? p = (classesOf name args).find? p := by
  have hargs : (args.map Argument.target).find? p =
      ((args.filterMap Argument.name?).map (·.text)).find? p := by
    induction args with
    | nil => rfl
    | cons arg more ih =>
      cases arg with
      | any => simpa [Argument.target, Argument.name?, h] using ih
      | exact name => simp [Argument.target, Argument.name?, List.find?_cons, ih]
      | below name => simp [Argument.target, Argument.name?, List.find?_cons, ih]
  rw [classesOf, List.map_cons, List.find?_cons, List.find?_cons, hargs]

theorem ne_empty_of_mem_classesOf {name : ClassName} {args : List Argument} {n : String}
    (h : n ∈ classesOf name args) : n ≠ "" := by
  obtain ⟨named, -, rfl⟩ := List.mem_map.1 h
  exact text_ne_empty named

theorem entityTarget?_typeOf (g : ClassGraph) (name : ClassName) (args : List Argument) :
    entityTarget? g (typeOf name args) = (classesOf name args).find? (isEntityName g) := by
  rw [entityTarget?, namedClasses_typeOf, find?_targets rfl]

theorem isEntityName_iff_of_mem {g : ClassGraph} (h : g.WellKeyed) {name : ClassName}
    {args : List Argument} {n : String} (hn : n ∈ classesOf name args) :
    isEntityName g n = true ↔ IsEntity g n :=
  (isEntityName_iff h).trans (and_iff_right (ne_empty_of_mem_classesOf hn))

theorem entityTarget?_eq_some_iff {g : ClassGraph} (h : g.WellKeyed) {name : ClassName}
    {args : List Argument} {target : String} :
    entityTarget? g (typeOf name args) = some target ↔
      FirstOf (IsEntity g) (classesOf name args) target := by
  rw [entityTarget?_typeOf, List.find?_eq_some_iff_append]
  constructor
  · rintro ⟨htarget, before, after, hsplit, hbefore⟩
    refine ⟨before, after, hsplit, ((isEntityName_iff h).1 htarget).2, fun other hother hentity => ?_⟩
    have hmem : other ∈ classesOf name args := hsplit ▸ List.mem_append_left _ hother
    have hname := hbefore other hother
    rw [(isEntityName_iff_of_mem h hmem).2 hentity] at hname
    cases hname
  · rintro ⟨before, after, hsplit, htarget, hbefore⟩
    have hmem : target ∈ classesOf name args :=
      hsplit ▸ List.mem_append_right _ List.mem_cons_self
    refine ⟨(isEntityName_iff_of_mem h hmem).2 htarget, before, after, hsplit, ?_⟩
    intro other hother
    rw [Bool.not_eq_true', Bool.eq_false_iff]
    exact fun hname => hbefore other hother ((isEntityName_iff h).1 hname).2

theorem entityTarget?_eq_none_iff {g : ClassGraph} (h : g.WellKeyed) {name : ClassName}
    {args : List Argument} :
    entityTarget? g (typeOf name args) = none ↔ ∀ n ∈ classesOf name args, ¬ IsEntity g n := by
  rw [entityTarget?_typeOf, List.find?_eq_none]
  exact forall₂_congr fun n hn => not_congr (isEntityName_iff_of_mem h hn)

/-! Diagrams -/

/-- The association that a field of a class is drawn as. -/
def association? (g : ClassGraph) (c : Graph.Class) (f : Graph.Field) : Option Association :=
  if f.relationship then (entityTarget? g f.type).map fun target => ⟨c.name, target, f.name⟩
  else none

theorem classAssociations_eq (g : ClassGraph) (c : Graph.Class) :
    classAssociations g c = c.fields.items.filterMap (association? g c) := by
  rw [classAssociations, List.filterMap_filter]
  rfl

theorem isEntity_of_mem_associations {g : ClassGraph} (h : g.WellKeyed) {a : Association}
    (ha : a ∈ associations g) : IsEntity g a.source ∧ IsEntity g a.target := by
  obtain ⟨c, hc, ha⟩ := List.mem_flatMap.1 ha
  obtain ⟨f, -, hf⟩ := List.mem_filterMap.1 ha
  obtain ⟨target, htarget, rfl⟩ := Option.map_eq_some_iff.1 hf
  exact ⟨⟨c, hc, rfl⟩, ((isEntityName_iff h).1 (List.find?_some htarget)).2⟩

/-- How diagrams are written: what comes first, the line that declares an entity, the lines that
describe it, the line of an association, and what comes last. -/
structure Style where
  top : List String
  heading : String → String
  body : Graph.Class → List String
  line : Association → String
  bottom : List String

/-- The text of a diagram. -/
def Style.draw (style : Style) (classes : List Graph.Class) (drawn : List Association) : String :=
  textOf (style.top ++ classes.flatMap (fun c => style.heading c.name :: style.body c) ++
    drawn.map style.line ++ style.bottom)

def plantUml : Style where
  top := ["@startuml", "hide circle", "skinparam linetype ortho"]
  heading name := "entity " ++ shownName name ++ " \x7b"
  body c := c.fields.items.map entityFieldLine ++ ["\x7d"]
  line a := shownName a.source ++ " --> " ++ shownName a.target ++ " : " ++ a.field
  bottom := ["@enduml"]

def mermaid : Style where
  top := ["erDiagram"]
  heading name := "  " ++ Mermaid.identifier name ++ " \x7b"
  body c := (c.fields.items.map fun f =>
    "    " ++ Mermaid.typeName f.type ++ " " ++ Mermaid.identifier f.name) ++ ["  \x7d"]
  line a := "  " ++ Mermaid.identifier a.source ++ " ||--o\x7b " ++ Mermaid.identifier a.target ++
    " : " ++ Mermaid.identifier a.field
  bottom := []

theorem entityDiagram_eq (g : ClassGraph) :
    entityDiagram g = plantUml.draw (entities g) (associations g) := rfl

theorem mermaid_entityDiagram_eq (g : ClassGraph) :
    Mermaid.entityDiagram g = mermaid.draw (entities g) (associations g) := by
  rw [Style.draw, mermaid, List.append_nil]
  rfl

/-- Both diagrams draw the same associations, between entities that they declare. Each field has at
most one of them. A relationship whose type is a class with arguments leads to the first entity among
the class and its arguments, and to none if there is no such entity. -/
theorem associations_resolve_to_entities {g : ClassGraph} (h : g.WellKeyed) :
    ∃ drawn : List Association,
      entityDiagram g = plantUml.draw (entities g) drawn ∧
      Mermaid.entityDiagram g = mermaid.draw (entities g) drawn ∧
      (∀ a ∈ drawn, IsEntity g a.source ∧ IsEntity g a.target) ∧
      ∃ share : Graph.Class → Graph.Field → Option Association,
        drawn = (entities g).flatMap (fun c => c.fields.items.filterMap (share c)) ∧
        ∀ c f, (f.relationship = false → share c f = none) ∧
          ∀ name args, f.relationship = true → f.type = typeOf name args →
            (∀ target, share c f = some ⟨c.name, target, f.name⟩ ↔
              FirstOf (IsEntity g) (classesOf name args) target) ∧
            (share c f = none ↔ ∀ n ∈ classesOf name args, ¬ IsEntity g n) := by
  refine ⟨associations g, entityDiagram_eq g, mermaid_entityDiagram_eq g,
    fun a ha => isEntity_of_mem_associations h ha, association? g, ?_, ?_⟩
  · rw [associations, funext (classAssociations_eq g)]
  · intro c f
    refine ⟨fun hf => by simp [association?, hf], ?_⟩
    intro name args hf htype
    have hassociation : association? g c f =
        (entityTarget? g (typeOf name args)).map fun target => ⟨c.name, target, f.name⟩ := by
      rw [association?, if_pos hf, htype]
    rw [hassociation, Option.map_eq_none_iff, entityTarget?_eq_none_iff h]
    refine ⟨fun target => ?_, Iff.rfl⟩
    rw [← entityTarget?_eq_some_iff h]
    simp

/-- A class in the package of a shop. -/
def inShop (simple : Source.Identifier) : ClassName where
  package := [{ text := "shop" }]
  simple

def pairsName : ClassName where
  package := [{ text := "kit" }]
  simple := { text := "Pairs" }

def relationship (name type : String) : Graph.Field := ⟨name, type, none, false, true⟩

/-- Relationships to an entity among the arguments of a class, to a class that is no entity, and to the
entity itself. -/
def orderFields : List Graph.Field :=
  [relationship "lines" "kit.Pairs<?, ? extends shop.Line>",
    relationship "buyer" "shop.Customer", relationship "earlier" "shop.Order"]

def order : Graph.Class :=
  { (default : Graph.Class) with name := "shop.Order", entity := true, fields := some orderFields }

def orderLine : Graph.Class := { (default : Graph.Class) with name := "shop.Line", entity := true }

def shop : ClassGraph :=
  ((ClassGraph.empty.addClass order).addClass orderLine).addClass
    { (default : Graph.Class) with name := "shop.Customer" }

theorem entities_shop : entities shop = [orderLine, order] := by
  have hvalues : shop.classMap.values.filter (·.entity) = [orderLine, order] := by decide +kernel
  rw [entities, ClassGraph.sortedClasses, List.mergeSort_of_pairwise (by decide +kernel), hvalues]

theorem isEntity_shop {name : String} :
    IsEntity shop name ↔ name = "shop.Line" ∨ name = "shop.Order" := by
  simp [IsEntity, entities_shop, orderLine, order, eq_comm]

theorem associations_resolve_to_entities_shop :
    shop.WellKeyed ∧ entityDiagram shop = plantUml.draw [orderLine, order]
      [⟨"shop.Order", "shop.Line", "lines"⟩, ⟨"shop.Order", "shop.Order", "earlier"⟩] := by
  have hkeyed : shop.WellKeyed :=
    (((ClassGraph.wellFormed_empty.addClass _).addClass _).addClass _).wellKeyed
  obtain ⟨drawn, hdiagram, -, -, share, hdrawn, hshare⟩ := associations_resolve_to_entities hkeyed
  have hlines : share order (relationship "lines" "kit.Pairs<?, ? extends shop.Line>") =
      some ⟨"shop.Order", "shop.Line", "lines"⟩ := by
    refine (((hshare _ _).2 pairsName [.any, .below (inShop { text := "Line" })] rfl ?_).1 _).2
      ⟨["kit.Pairs"], [], ?_, isEntity_shop.2 (.inl rfl), ?_⟩
    · decide +kernel
    · decide +kernel
    · simp [isEntity_shop]
  have hbuyer : share order (relationship "buyer" "shop.Customer") = none := by
    refine ((hshare _ _).2 (inShop { text := "Customer" }) [] rfl ?_).2.2 ?_
    · decide +kernel
    · intro n hn
      obtain rfl : n = "shop.Customer" := List.mem_singleton.1 hn
      simp [isEntity_shop]
  have hearlier : share order (relationship "earlier" "shop.Order") =
      some ⟨"shop.Order", "shop.Order", "earlier"⟩ := by
    refine (((hshare _ _).2 (inShop { text := "Order" }) [] rfl ?_).1 _).2
      ⟨[], [], ?_, isEntity_shop.2 (.inr rfl), by simp⟩
    · decide +kernel
    · decide +kernel
  have hfields : orderFields.filterMap (share order) =
      [⟨"shop.Order", "shop.Line", "lines"⟩, ⟨"shop.Order", "shop.Order", "earlier"⟩] := by
    simp [orderFields, hlines, hbuyer, hearlier]
  have hline : orderLine.fields.items = [] := rfl
  have horder : order.fields.items = orderFields := rfl
  refine ⟨hkeyed, ?_⟩
  rw [hdiagram, hdrawn, entities_shop, List.flatMap_cons, List.flatMap_singleton, hline, horder,
    hfields]
  rfl

end ClassAtlas.Diagram
