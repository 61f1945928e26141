import ClassAtlas.Proofs.ClassFile.GenericType
import ClassAtlas.Proofs.Text.Trim
import ClassAtlas.Scan.Structure

/-!
The class that an injected field points at. A field has a descriptor, which names its erased class, and
may have a signature, whose text is cut at the first bracket. The two lead to the same class exactly if
no class around the class of the field has arguments; otherwise the signature leads to the outermost
class that has some, and what stands inside it is lost.
-/
namespace ClassAtlas.ClassFile

/-- The name of a class inside its package: the classes around it come first, with a mark between. -/
def Segments.binaryName : Segments → List Char
  | .last name _ => name.chars
  | .around name _ inner => name.chars ++ '$' :: inner.binaryName

/-- The names up to the first one with arguments. -/
def Segments.front : Segments → List Char
  | .last name _ => name.chars
  | .around name .nil inner => name.chars ++ '$' :: inner.front
  | .around name _ _ => name.chars

/-- No class around has arguments. -/
def Segments.BareAround : Segments → Prop
  | .last _ _ => True
  | .around _ args inner => args = .nil ∧ inner.BareAround

theorem Segments.front_around_of_ne_nil (name : Identifier) {args : TypeArguments} (h : args ≠ .nil)
    (inner : Segments) : (Segments.around name args inner).front = name.chars := by
  cases args with
  | nil => exact absurd rfl h
  | any rest => rfl
  | exact type rest => rfl
  | bounded bound type rest => rfl

theorem Segments.unmarked_binaryName : ∀ segments : Segments, Unmarked segments.binaryName
  | .last name _ => name.unmarked
  | .around name _ inner => by
    intro c hc
    simp only [Segments.binaryName, List.mem_append, List.mem_cons] at hc
    rcases hc with hc | rfl | hc
    · exact name.unmarked c hc
    · decide
    · exact inner.unmarked_binaryName c hc

/-- The class without its arguments, under the one name that it has in the virtual machine. -/
def Segments.erased (segments : Segments) : Segments :=
  .last ⟨segments.binaryName, segments.unmarked_binaryName⟩ .nil

/-- The names up to the first arguments are the start of the binary name. -/
theorem Segments.front_prefix : ∀ segments : Segments, segments.front <+: segments.binaryName
  | .last name _ => List.prefix_rfl
  | .around name args inner => by
    by_cases hnil : args = .nil
    · subst hnil
      simpa [Segments.front, Segments.binaryName] using inner.front_prefix
    · rw [Segments.front_around_of_ne_nil name hnil]
      exact List.prefix_append _ _

theorem Segments.BareAround.front_eq : ∀ {segments : Segments}, segments.BareAround →
    segments.front = segments.binaryName
  | .last _ _, _ => rfl
  | .around name _ inner, ⟨hnil, h⟩ => by
    subst hnil
    simp only [Segments.front, Segments.binaryName, BareAround.front_eq h]

/-- Cut short, a name has fewer marks. -/
theorem Segments.count_front_lt : ∀ {segments : Segments}, ¬ segments.BareAround →
    segments.front.count '$' < segments.binaryName.count '$'
  | .last _ _, h => absurd trivial h
  | .around name args inner, h => by
    by_cases hnil : args = .nil
    · subst hnil
      have hinner := Segments.count_front_lt fun hbare => h ⟨rfl, hbare⟩
      simpa [Segments.front, Segments.binaryName] using hinner
    · rw [Segments.front_around_of_ne_nil name hnil, Segments.binaryName, List.count_append,
        List.count_cons_self]
      omega

/-- Behind the names up to the first arguments, the source form ends or opens a bracket. -/
theorem Segments.exists_tail : ∀ segments : Segments, ∃ tail,
    segments.sourceForm = segments.front ++ tail ∧ (tail = [] ∨ ∃ more, tail = '<' :: more)
  | .last name args => by
    by_cases hnil : args = .nil
    · subst hnil
      exact ⟨[], rfl, .inl rfl⟩
    · rw [Segments.sourceForm, TypeArguments.enclose_of_ne_nil hnil]
      exact ⟨_, rfl, .inr ⟨_, rfl⟩⟩
  | .around name args inner => by
    by_cases hnil : args = .nil
    · subst hnil
      obtain ⟨tail, hform, htail⟩ := inner.exists_tail
      refine ⟨tail, ?_, htail⟩
      simp [Segments.sourceForm, Segments.front, TypeArguments.enclose, hform]
    · rw [Segments.sourceForm, TypeArguments.enclose_of_ne_nil hnil,
        Segments.front_around_of_ne_nil name hnil, List.append_assoc]
      exact ⟨_, rfl, .inr ⟨_, rfl⟩⟩

/-- The dotted name of a class. -/
def binaryName (package : List Identifier) (segments : Segments) : List Char :=
  packageText '.' package ++ segments.binaryName

theorem mem_packageText {mark c : Char} {package : List Identifier}
    (h : c ∈ packageText mark package) : c = mark ∨ c ∉ classMarks := by
  simp only [packageText, List.mem_flatMap, List.mem_append, List.mem_singleton] at h
  obtain ⟨part, -, hc | hc⟩ := h
  · exact .inr (part.unmarked c hc)
  · exact .inl hc

theorem mem_binaryName {c : Char} {package : List Identifier} {segments : Segments}
    (h : c ∈ binaryName package segments) : c = '.' ∨ c ∉ classMarks := by
  rcases List.mem_append.1 h with hc | hc
  · exact mem_packageText hc
  · exact .inr (segments.unmarked_binaryName c hc)

theorem mark_mem_packageText (mark : Char) {package : List Identifier} (h : package ≠ []) :
    mark ∈ packageText mark package := by
  obtain ⟨part, hpart⟩ := List.exists_mem_of_ne_nil package h
  exact List.mem_flatMap.2 ⟨part, hpart, by simp⟩

end ClassAtlas.ClassFile

namespace ClassAtlas.Graph

open Text (trimChars trimStartChars)

theorem takeWhile_of_not_mem {cs : List Char} (h : '<' ∉ cs) : cs.takeWhile (· != '<') = cs := by
  refine List.takeWhile_eq_self_iff.2 ?_
  intro c hc
  simpa using ne_of_mem_of_not_mem hc h

theorem hasClassMarker_eq_false {cs : List Char} (hslash : '/' ∉ cs) (hsemicolon : ';' ∉ cs) :
    hasClassMarker cs = false := by
  have hlast : cs.getLast? ≠ some ';' := fun hlast => hsemicolon (List.mem_of_getLast? hlast)
  unfold hasClassMarker
  split
  · simp [hlast, hslash]
  · rfl

/-- The characters that mean something in the text of a type, dots apart. -/
def typeMarks : List Char := ['<', '/', ';', '[']

/-- A dotted name, whatever arguments follow it, points at the class of that name. -/
theorem normalizeType_of_dotted {front tail : List Char} (hfront : ∀ mark ∈ typeMarks, mark ∉ front)
    (hdot : '.' ∈ front) (htail : tail = [] ∨ ∃ more, tail = '<' :: more) :
    normalizeType (String.ofList (front ++ tail)) = Text.trim (String.ofList front) := by
  have hless : '<' ∉ front := hfront '<' (by decide)
  -- what is left before the first bracket
  obtain ⟨cs, hcut, hsub, htrim⟩ : ∃ cs, (trimChars (front ++ tail)).takeWhile (· != '<') = cs ∧
      cs.Sublist front ∧ trimChars cs = trimChars front := by
    rcases htail with rfl | ⟨more, rfl⟩
    · have hsub := Text.trimChars_sublist front
      refine ⟨trimChars front, ?_, hsub, Text.trimChars_trimChars front⟩
      rw [List.append_nil, takeWhile_of_not_mem fun hmem => hless (hsub.subset hmem)]
    · obtain ⟨rest, hrest⟩ := Text.trimChars_append (c := '<') (by decide) front more
      have hsub : (trimStartChars front).Sublist front := List.dropWhile_sublist _
      refine ⟨trimStartChars front, ?_, hsub, Text.trimChars_trimStartChars front⟩
      rw [hrest, List.takeWhile_append_of_pos, List.takeWhile_cons_of_neg (by simp),
        List.append_nil]
      intro c hc
      simpa using ne_of_mem_of_not_mem (hsub.subset hc) hless
  have hmark : ∀ mark ∈ typeMarks, mark ∉ cs := fun mark hmark hmem =>
    hfront mark hmark (hsub.subset hmem)
  have hclass : hasClassMarker cs = false :=
    hasClassMarker_eq_false (hmark '/' (by decide)) (hmark ';' (by decide))
  have hsemicolon : dropSemicolon cs = cs := by
    have hlast : cs.getLast? ≠ some ';' := fun hlast =>
      hmark ';' (by decide) (List.mem_of_getLast? hlast)
    simp [dropSemicolon, hlast]
  have hmap : (cs.map fun c => if c = '/' then '.' else c) = cs := by
    conv_rhs => rw [← List.map_id cs]
    refine List.map_congr_left ?_
    intro c hc
    exact if_neg (ne_of_mem_of_not_mem hc (hmark '/' (by decide)))
  have harray : ['[', ']'].isSuffixOf (trimChars front) = false := by
    rw [← Bool.not_eq_true, List.isSuffixOf_iff_suffix]
    intro hsuffix
    have hmem : '[' ∈ trimChars front := hsuffix.subset (by simp)
    exact hfront '[' (by decide) ((Text.trimChars_sublist front).subset hmem)
  have hcontains : (trimChars front).contains '.' = true := by
    rw [List.contains_iff_mem, ← List.count_pos_iff, Text.count_trimChars (by decide),
      List.count_pos_iff]
    exact hdot
  simp only [normalizeType, String.toList_ofList, hcut, hclass, Bool.false_eq_true, if_false,
    hsemicolon, hmap, htrim, harray, hcontains, Bool.not_true, Bool.or_false, Text.trim]

end ClassAtlas.Graph

namespace ClassAtlas.Scan

open ClassFile

/-- The class of the text of a class type: the names up to the first arguments. -/
theorem normalizeType_typeName {package : List Identifier} {segments : Segments}
    (hpackage : package ≠ []) (hbracket : '[' ∉ binaryName package segments) :
    Graph.normalizeType (typeName (String.ofList (GenericType.cls package segments).signature)) =
      Text.trim (String.ofList (packageText '.' package ++ segments.front)) := by
  obtain ⟨tail, hform, htail⟩ := segments.exists_tail
  have hprefix : packageText '.' package ++ segments.front <+: binaryName package segments :=
    (List.prefix_append_right_inj _).2 segments.front_prefix
  have hmarks : ∀ mark ∈ Graph.typeMarks, mark ∉ packageText '.' package ++ segments.front := by
    intro mark hmark hmem
    have hname := hprefix.subset hmem
    by_cases hopen : mark = '['
    · exact hbracket (hopen ▸ hname)
    · have hclass : mark ∈ classMarks ∧ mark ≠ '.' := by
        simp only [Graph.typeMarks, List.mem_cons, List.not_mem_nil, or_false, hopen] at hmark
        rcases hmark with rfl | rfl | rfl <;> decide
      exact (mem_binaryName hname).elim hclass.2 fun hout => hout hclass.1
  have hdot : '.' ∈ packageText '.' package ++ segments.front :=
    List.mem_append_left _ (mark_mem_packageText '.' hpackage)
  rw [typeName_of_typeText (GenericType.cls package segments).typeText, GenericType.sourceForm, hform,
    ← List.append_assoc]
  exact Graph.normalizeType_of_dotted hmarks hdot htail

/-- An injected field that points at a class gives an edge to it. -/
theorem injection_mem_dependencies {c : ClassFile.Class} {m : Member} (location : String)
    (hm : m ∈ declaredFields c) (hinjected : (fieldOf m).injected = true)
    (htarget : (Graph.normalizeType m.typeName).isEmpty = false) :
    ⟨c.header.name, Graph.normalizeType m.typeName, .injection, m.name⟩ ∈
      (classFacts c location).dependencies := by
  refine List.mem_append_right _ (List.mem_filterMap.2 ⟨fieldOf m, ?_, ?_⟩)
  · exact List.mem_filter.2 ⟨List.mem_map_of_mem hm, hinjected⟩
  · change (if (Graph.normalizeType m.typeName).isEmpty = true then none else _) = _
    rw [htarget]
    rfl

/-- Where a field of a class in a package points at, if its descriptor is the erasure of its signature.
The descriptor leads to the class itself, under its binary name; the signature leads to the class that
the names up to the first arguments make up, and an injection goes there. The two are the same class if
and only if no class around has arguments. Names are trimmed. -/
theorem injection_target_erased_iff (package : List Identifier) (segments : Segments) (m : Member)
    (hpackage : package ≠ []) (hbracket : '[' ∉ binaryName package segments)
    (hsignature : m.signature = String.ofList (GenericType.cls package segments).signature)
    (hdescriptor : m.descriptor =
      String.ofList (GenericType.cls package segments.erased).signature) :
    Graph.normalizeType (typeName m.descriptor) =
      Text.trim (String.ofList (binaryName package segments)) ∧
    Graph.normalizeType m.typeName =
      Text.trim (String.ofList (packageText '.' package ++ segments.front)) ∧
    (Graph.normalizeType m.typeName = Graph.normalizeType (typeName m.descriptor) ↔
      segments.BareAround) ∧
    ∀ (c : ClassFile.Class) (location : String), m ∈ declaredFields c →
      (fieldOf m).injected = true →
      ⟨c.header.name, Text.trim (String.ofList (packageText '.' package ++ segments.front)),
        .injection, m.name⟩ ∈ (classFacts c location).dependencies := by
  have herased : Graph.normalizeType (typeName m.descriptor) =
      Text.trim (String.ofList (binaryName package segments)) := by
    rw [hdescriptor]
    exact normalizeType_typeName hpackage hbracket
  have hnamed : m.typeName = typeName m.signature := by
    have hempty : m.signature.isEmpty = false := by
      rw [hsignature, GenericType.signature]
      simp
    rw [Member.typeName, hempty]
    rfl
  have htarget : Graph.normalizeType m.typeName =
      Text.trim (String.ofList (packageText '.' package ++ segments.front)) := by
    rw [hnamed, hsignature]
    exact normalizeType_typeName hpackage hbracket
  refine ⟨herased, htarget, ?_, ?_⟩
  · rw [herased, htarget]
    constructor
    · -- otherwise the shorter name has fewer marks, and trimming takes none away
      intro heq
      by_contra hbare
      have hlt := Segments.count_front_lt hbare
      have hcount := congrArg (fun s : String => s.toList.count '$') heq
      simp only [Text.trim, String.toList_ofList, Text.count_trimChars (c := '$') (by decide),
        binaryName, List.count_append] at hcount
      omega
    · intro hbare
      rw [hbare.front_eq, binaryName]
  · intro c location hm hinjected
    rw [← htarget]
    refine injection_mem_dependencies location hm hinjected ?_
    have hdot : '.' ∈ (Graph.normalizeType m.typeName).toList := by
      rw [htarget, Text.trim, String.toList_ofList, ← List.count_pos_iff,
        Text.count_trimChars (by decide), List.count_pos_iff, String.toList_ofList]
      exact List.mem_append_left _ (mark_mem_packageText '.' hpackage)
    rw [← Bool.not_eq_true, String.isEmpty_iff]
    intro hnil
    simp [hnil] at hdot

/-- An injected field for a row of a page, with some arguments of the page and of the row. -/
def rowField (page row : TypeArguments) : Member where
  access := 0
  name := "row"
  descriptor := "Lcom/acme/Page$Row;"
  signature := String.ofList (GenericType.cls [⟨"com".toList, by decide⟩, ⟨"acme".toList, by decide⟩]
    (.around ⟨"Page".toList, by decide⟩ page (.last ⟨"Row".toList, by decide⟩ row))).signature
  annotations := [⟨"javax.inject.Inject", true, []⟩]

/-- One argument, a type variable. -/
def oneVariable : TypeArguments := .exact (.var ⟨"T".toList, by decide⟩) .nil

theorem injection_target_erased_iff_row :
    (rowField .nil oneVariable).signature = "Lcom/acme/Page.Row<TT;>;" ∧
    Graph.normalizeType (rowField .nil oneVariable).typeName =
      Graph.normalizeType (typeName (rowField .nil oneVariable).descriptor) ∧
    ⟨"shop.Orders", "com.acme.Page$Row", .injection, "row"⟩ ∈
      (classFacts ⟨⟨61, 0, 1, "shop.Orders", "", []⟩, [rowField .nil oneVariable], [],
        ⟨"", "", false, []⟩⟩ "").dependencies := by
  have hrow := injection_target_erased_iff
    [⟨"com".toList, by decide⟩, ⟨"acme".toList, by decide⟩]
    (.around ⟨"Page".toList, by decide⟩ .nil (.last ⟨"Row".toList, by decide⟩ oneVariable))
    (rowField .nil oneVariable) (by simp) (by decide +kernel) rfl (by decide +kernel)
  obtain ⟨-, -, hsame, hedge⟩ := hrow
  refine ⟨by decide +kernel, hsame.2 ⟨rfl, trivial⟩, ?_⟩
  exact hedge ⟨⟨61, 0, 1, "shop.Orders", "", []⟩, [rowField .nil oneVariable], [],
    ⟨"", "", false, []⟩⟩ "" (List.mem_filter.2 ⟨List.mem_singleton_self _, rfl⟩) (by decide +kernel)

/-- With an argument of the page, the row is lost: the field points at the page. -/
theorem injection_target_outer_page :
    (rowField oneVariable .nil).signature = "Lcom/acme/Page<TT;>.Row;" ∧
    Graph.normalizeType (rowField oneVariable .nil).typeName = "com.acme.Page" ∧
    Graph.normalizeType (typeName (rowField oneVariable .nil).descriptor) = "com.acme.Page$Row" := by
  decide +kernel

end ClassAtlas.Scan
