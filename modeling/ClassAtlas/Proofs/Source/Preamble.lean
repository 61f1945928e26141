import ClassAtlas.Proofs.Text.Pieces
import ClassAtlas.Source.Scope

/-!
The package and the imports of a source file, and the class that a simple name stands for in it.
-/
namespace ClassAtlas.Source

/-- The marks of names, types and signatures. -/
def reservedChars : List Char := "./;<>[],?*\x00".toList

/-- The characters of identifiers: no white space and no mark. -/
def isIdentifierChar (c : Char) : Bool := !Text.isBlankChar c && !reservedChars.contains c

theorem isIdentifierChar_iff {c : Char} :
    isIdentifierChar c = true ↔ Text.isBlankChar c = false ∧ c ∉ reservedChars := by
  simp [isIdentifierChar]

structure Identifier where
  text : String
  nonempty : text ≠ "" := by decide
  chars : text.toList.all isIdentifierChar = true := by decide
  deriving DecidableEq

/-- The dotted name with some parts. -/
def dottedName (parts : List Identifier) : String := Text.join "." (parts.map (·.text))

/-- An import of one class. -/
structure Import where
  package : List Identifier
  simple : Identifier
  packaged : package ≠ [] := by decide
  deriving DecidableEq

def Import.text (i : Import) : String := dottedName (i.package ++ [i.simple])

/-- The package that a file belongs to, without parts if it names none, and its imports. -/
structure Preamble where
  package : List Identifier
  imports : List Import
  deriving DecidableEq

def Preamble.scope (p : Preamble) : Scope :=
  .make (dottedName p.package) (p.imports.map Import.text)

/-- The class that a simple name stands for: that of the last import with this name; without one a
class that needs no import, or else a class of the package of the file. -/
def Preamble.meaning (p : Preamble) (name : String) : String :=
  match p.imports.reverse.find? (name == ·.simple.text) with
  | some i => i.text
  | none =>
    if implicitTypes.contains name then "java.lang." ++ name
    else Text.join "." (p.package.map (·.text) ++ [name])

theorem Identifier.isIdentifierChar_of_mem (name : Identifier) {c : Char}
    (h : c ∈ name.text.toList) : isIdentifierChar c = true :=
  List.all_eq_true.1 name.chars c h

theorem mem_dottedName {parts : List Identifier} {c : Char} (h : c ∈ (dottedName parts).toList) :
    c = '.' ∨ isIdentifierChar c = true := by
  rcases Text.mem_toList_join h with h | ⟨name, hname, hc⟩
  · exact .inl (List.mem_singleton.1 h)
  · obtain ⟨part, -, rfl⟩ := List.mem_map.1 hname
    exact .inr (part.isIdentifierChar_of_mem hc)

theorem toList_join_package {package : List Identifier} (h : package ≠ []) (name : String) :
    (Text.join "." (package.map (·.text) ++ [name])).toList =
      (dottedName package).toList ++ '.' :: name.toList := by
  have hne : package.map (·.text) ≠ [] := by simpa using h
  rw [Text.toList_join_concat hne]
  rfl

theorem dottedName_ne_empty {parts : List Identifier} (h : parts ≠ []) : dottedName parts ≠ "" := by
  cases parts with
  | nil => exact absurd rfl h
  | cons first rest =>
    intro hempty
    have htext : first.text ≠ "" := first.nonempty
    have hchars : first.text.toList ≠ [] := by simpa using htext
    obtain ⟨c, hc⟩ := List.exists_mem_of_ne_nil _ hchars
    have hmem : c ∈ (dottedName (first :: rest)).toList :=
      Text.mem_toList_join_of_mem List.mem_cons_self hc
    rw [hempty] at hmem
    cases hmem

theorem Import.toList_text (i : Import) :
    i.text.toList = (dottedName i.package).toList ++ '.' :: i.simple.text.toList := by
  rw [Import.text, dottedName, List.map_append, List.map_singleton]
  exact toList_join_package i.packaged _

namespace Scope

theorem addImport_text (s : Scope) (i : Import) :
    s.addImport i.text = { s with explicit := (i.simple.text, i.text) :: s.explicit } := by
  have hchars : ∀ c ∈ i.text.toList, Text.isBlankChar c = false ∧ c ≠ '*' := by
    intro c hc
    rcases mem_dottedName hc with rfl | hc
    · decide
    · obtain ⟨hblank, hmark⟩ := isIdentifierChar_iff.1 hc
      exact ⟨hblank, fun hstar => hmark (hstar ▸ by decide)⟩
  have hstar : Text.endsWith i.text ".*" = false := by
    rw [Text.endsWith, Bool.eq_false_iff]
    intro hend
    exact (hchars '*' ((List.isSuffixOf_iff_suffix.1 hend).subset (by decide))).2 rfl
  have hdot : '.' ∉ i.simple.text.toList := fun hmem =>
    (isIdentifierChar_iff.1 (i.simple.isIdentifierChar_of_mem hmem)).2 (by decide)
  have hpackage : (dottedName i.package).isEmpty = false := by
    simpa using dottedName_ne_empty i.packaged
  rw [addImport, Text.trim_of_no_blank fun c hc => (hchars c hc).1]
  simp only [hstar, Text.beforeLast?_eq i.toList_text hdot, Text.afterLast_eq i.toList_text hdot,
    String.ofList_toList, hpackage]
  rfl

theorem foldl_addImport (imports : List Import) (s : Scope) :
    (imports.map Import.text).foldl addImport s =
      { s with
        explicit := (imports.map fun i => (i.simple.text, i.text)).reverse ++ s.explicit } := by
  induction imports generalizing s with
  | nil => rfl
  | cons i imports ih =>
    rw [List.map_cons, List.foldl_cons, addImport_text, ih]
    simp

theorem lookup_imports (imports : List Import) (name : String) :
    (imports.map fun i => (i.simple.text, i.text)).lookup name =
      (imports.find? (name == ·.simple.text)).map Import.text := by
  induction imports with
  | nil => rfl
  | cons i imports ih =>
    rw [List.map_cons, List.lookup_cons, List.find?_cons, ih]
    cases name == i.simple.text <;> rfl

end Scope

namespace Preamble

variable (p : Preamble)

theorem explicit_scope :
    p.scope.explicit = p.imports.reverse.map fun i => (i.simple.text, i.text) := by
  rw [scope, Scope.make, Scope.foldl_addImport, List.append_nil, List.map_reverse]

theorem packageName_scope : p.scope.packageName = dottedName p.package := by
  rw [scope, Scope.make, Scope.foldl_addImport]

theorem qualify_scope (name : String) :
    p.scope.qualify name = Text.join "." (p.package.map (·.text) ++ [name]) := by
  rw [Scope.qualify, packageName_scope]
  by_cases h : p.package = []
  · rw [h, List.map_nil, List.nil_append, Text.join_singleton]
    rfl
  · have hname : (dottedName p.package).isEmpty = false := by simpa using dottedName_ne_empty h
    apply String.toList_injective
    rw [toList_join_package h, hname]
    simp

/-- A simple name that starts with a capital letter is looked up. -/
theorem typeName_scope {name : String} (hdot : '.' ∉ name.toList)
    (hcapital : Scope.startsWithCapital name = true) : p.scope.typeName name = p.meaning name := by
  have hplain : (Text.containsChar name '.' || !Scope.startsWithCapital name) = false := by
    simp [Text.containsChar, hdot, hcapital]
  rw [Scope.typeName, hplain, explicit_scope, Scope.lookup_imports, meaning, qualify_scope]
  cases p.imports.reverse.find? (name == ·.simple.text) <;> rfl

/-- Whether a simple name stands for a class of some package. -/
def Places (name : String) : Prop :=
  name ∈ implicitTypes ∨ p.package ≠ [] ∨ ∃ i ∈ p.imports, i.simple.text = name

instance (name : String) : Decidable (p.Places name) := inferInstanceAs (Decidable (_ ∨ _ ∨ _))

/-- Such a name gets longer, and every other name stays as it is. -/
theorem meaning_cases (name : String) :
    ((∃ front, (p.meaning name).toList = front ++ '.' :: name.toList) ∧ p.Places name) ∨
      p.meaning name = name ∧ ¬ p.Places name := by
  unfold meaning
  cases hfind : p.imports.reverse.find? (name == ·.simple.text) with
  | some i =>
    have hname : name = i.simple.text := by simpa using List.find?_some hfind
    have hi : i ∈ p.imports := List.mem_reverse.1 (List.mem_of_find?_eq_some hfind)
    exact .inl ⟨⟨_, hname ▸ i.toList_text⟩, .inr (.inr ⟨i, hi, hname.symm⟩)⟩
  | none =>
    by_cases himplicit : implicitTypes.contains name = true
    · simp only [himplicit, if_true]
      exact .inl ⟨⟨"java.lang".toList, by simp⟩, .inl (List.contains_iff_mem.1 himplicit)⟩
    · simp only [himplicit]
      by_cases hpackage : p.package = []
      · refine .inr ⟨by simp [hpackage], ?_⟩
        rintro (h | h | ⟨i, hi, rfl⟩)
        · exact himplicit (List.contains_iff_mem.2 h)
        · exact h hpackage
        · have hnone := List.find?_eq_none.1 hfind i (List.mem_reverse.2 hi)
          exact hnone (beq_self_eq_true _)
      · exact .inl ⟨⟨_, toList_join_package hpackage name⟩, .inr (.inl hpackage)⟩

theorem mem_meaning {name : String} (hname : ∀ c ∈ name.toList, isIdentifierChar c = true)
    {c : Char} (h : c ∈ (p.meaning name).toList) : c = '.' ∨ isIdentifierChar c = true := by
  unfold meaning at h
  split at h
  · exact mem_dottedName h
  · split at h
    · rw [String.toList_append, List.mem_append] at h
      rcases h with h | h
      · have hchars : "java.lang.".toList.all (fun c => c == '.' || isIdentifierChar c) = true := by
          decide
        simpa using List.all_eq_true.1 hchars c h
      · exact .inr (hname c h)
    · rcases Text.mem_toList_join h with h | ⟨part, hpart, hc⟩
      · exact .inl (List.mem_singleton.1 h)
      · rcases List.mem_append.1 hpart with hpart | hpart
        · obtain ⟨part, -, rfl⟩ := List.mem_map.1 hpart
          exact .inr (part.isIdentifierChar_of_mem hc)
        · rw [List.mem_singleton.1 hpart] at hc
          exact .inr (hname c hc)

end Preamble

end ClassAtlas.Source
