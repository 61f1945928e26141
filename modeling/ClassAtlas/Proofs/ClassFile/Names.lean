import ClassAtlas.ClassFile.Encode
import ClassAtlas.Proofs.ClassFile.Grammar

/-!
Names of classes and of methods inside class files: a name comes back from its slashed form and from
its descriptor, and the parts of a method can be told apart when they are run together.
-/
namespace ClassAtlas.ClassFile

theorem toList_slashed (name : String) :
    (slashed name).toList = name.toList.map fun c => if c = '.' then '/' else c := by
  simp [slashed, Text.replaceChar]

theorem dotted_slashed (name : String) (h : '/' ∉ name.toList) : dotted (slashed name) = name := by
  apply String.toList_injective
  rw [dotted, Text.replaceChar, String.toList_ofList, toList_slashed, List.map_map]
  conv_rhs => rw [← List.map_id name.toList]
  refine List.map_congr_left ?_
  intro c hc
  have hslash : c ≠ '/' := ne_of_mem_of_not_mem hc h
  by_cases hdot : c = '.'
  · simp [hdot]
  · simp [hdot, hslash]

/-- Characters that may stand in the name of a type without meaning something in its descriptor. -/
def IsPlain (c : Char) : Prop := c ≠ '/' ∧ c ≠ ';' ∧ c ≠ '<' ∧ c.toNat ≠ 0

instance : DecidablePred IsPlain := fun _ => inferInstanceAs (Decidable (_ ∧ _ ∧ _ ∧ _))

/-- The name of a type without such characters. -/
def IsPlainName (name : String) : Prop := ∀ c ∈ name.toList, IsPlain c

instance : DecidablePred IsPlainName := fun name => List.decidableBAll _ name.toList

theorem IsPlain.not_mem_classMarks {c : Char} (h : IsPlain c) (hdot : c ≠ '.') :
    c ∉ classMarks := by
  obtain ⟨hslash, hsemicolon, hless, hend⟩ := h
  simp only [classMarks, List.mem_cons, List.not_mem_nil, or_false, not_or]
  refine ⟨hslash, hdot, hsemicolon, hless, ?_⟩
  rintro rfl
  exact hend rfl

/-- A slashed name in the text of a class stands for the dotted one. -/
theorem ClassText.slashed {text form : List Char} (h : ClassText text form) (name : List Char)
    (hplain : ∀ c ∈ name, IsPlain c) :
    ClassText ((name.map fun c => if c = '.' then '/' else c) ++ text) (name ++ form) := by
  induction name with
  | nil => exact h
  | cons c name ih =>
    have hmore := ih fun d hd => hplain d (List.mem_cons_of_mem _ hd)
    by_cases hdot : c = '.'
    · subst hdot
      exact hmore.slash
    · simpa [hdot] using hmore.char ((hplain c List.mem_cons_self).not_mem_classMarks hdot)

theorem typeName_classDescriptor (name : String) (h : IsPlainName name) :
    typeName (classDescriptor name) = name := by
  have hlist : (classDescriptor name).toList =
      'L' :: ((name.toList.map fun c => if c = '.' then '/' else c) ++ [';']) := by
    simp [classDescriptor, toList_slashed]
  have hname := typeName_of_typeText (.cls (ClassText.stop.slashed name.toList h))
  rw [← hlist, List.append_nil, String.ofList_toList, String.ofList_toList] at hname
  exact hname

/-- A mark splits a text in one way if it is not in the part before it. -/
theorem append_mark_inj {x : Char} {front front' rest rest' : List Char} (h : x ∉ front)
    (h' : x ∉ front') (he : front ++ x :: rest = front' ++ x :: rest') :
    front = front' ∧ rest = rest' := by
  induction front generalizing front' with
  | nil =>
    cases front' with
    | nil => simpa using he
    | cons y front' =>
      simp only [List.nil_append, List.cons_append, List.cons.injEq] at he
      exact absurd (by simp [he.1]) h'
  | cons y front ih =>
    cases front' with
    | nil =>
      simp only [List.nil_append, List.cons_append, List.cons.injEq] at he
      exact absurd (by simp [he.1]) h
    | cons z front' =>
      simp only [List.mem_cons, not_or] at h h'
      simp only [List.cons_append, List.cons.injEq] at he ⊢
      obtain ⟨h1, h2⟩ := ih h.2 h'.2 he.2
      exact ⟨⟨he.1, h1⟩, h2⟩

theorem nameAndType_inj {name name' descriptor descriptor' : String} (h : ':' ∉ name.toList)
    (h' : ':' ∉ name'.toList) (he : name ++ ":" ++ descriptor = name' ++ ":" ++ descriptor') :
    name = name' ∧ descriptor = descriptor' := by
  have hl := congrArg String.toList he
  simp only [String.toList_append, List.append_assoc] at hl
  obtain ⟨h1, h2⟩ := append_mark_inj h h' hl
  exact ⟨String.toList_injective h1, String.toList_injective h2⟩

/-- What can be called: a bracket opens the descriptor and stands nowhere before it, and the name has
no mark that divides it from its owner or its descriptor. -/
structure Callable (owner name descriptor : String) : Prop where
  owner_open : '(' ∉ owner.toList
  name_open : '(' ∉ name.toList
  name_dot : '.' ∉ name.toList
  name_colon : ':' ∉ name.toList
  descriptor_open : descriptor.toList.head? = some '('

theorem methodRef_inj {owner owner' name name' descriptor descriptor' : String}
    (h : Callable owner name descriptor) (h' : Callable owner' name' descriptor')
    (he : owner ++ "." ++ name ++ descriptor = owner' ++ "." ++ name' ++ descriptor') :
    owner = owner' ∧ name = name' ∧ descriptor = descriptor' := by
  obtain ⟨d, hd⟩ := List.head?_eq_some_iff.1 h.descriptor_open
  obtain ⟨d', hd'⟩ := List.head?_eq_some_iff.1 h'.descriptor_open
  have hl := congrArg String.toList he
  simp only [String.toList_append, hd, hd'] at hl
  -- the bracket divides the descriptor from the rest, and the last dot divides that
  have hopen : ∀ {owner name descriptor : String}, Callable owner name descriptor →
      '(' ∉ owner.toList ++ ".".toList ++ name.toList := by
    intro owner name descriptor hc hm
    simp only [List.mem_append] at hm
    rcases hm with (hm | hm) | hm
    · exact hc.owner_open hm
    · exact absurd hm (by decide)
    · exact hc.name_open hm
  obtain ⟨hfront, hrest⟩ := append_mark_inj (hopen h) (hopen h') hl
  have hreverse := congrArg List.reverse hfront
  simp only [List.reverse_append, List.append_assoc] at hreverse
  obtain ⟨hname, howner⟩ := append_mark_inj (x := '.') (by simpa using h.name_dot)
    (by simpa using h'.name_dot) hreverse
  refine ⟨String.toList_injective (List.reverse_injective howner),
    String.toList_injective (List.reverse_injective hname), String.toList_injective ?_⟩
  rw [hd, hd', hrest]

end ClassAtlas.ClassFile
