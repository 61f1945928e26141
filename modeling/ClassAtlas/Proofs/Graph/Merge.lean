import ClassAtlas.Proofs.Graph.Document
import ClassAtlas.Proofs.Graph.WellFormed

/-!
The classes of two graphs joined into one. A class of the compiled side is looked up by its name and
one of the sources by its key; in graphs that keep classes under their own names the two are the same,
so that under each key stands what both sides have under it. A class without name is dropped.
-/
namespace ClassAtlas.ClassGraph

/-- What becomes of a class of the sources, given the compiled one under its key. -/
def joinClass (compiled : Option Graph.Class) (source : Graph.Class) : Graph.Class :=
  compiled.elim { source with origin := .source } (mergeClass · source)

/-- Classes are kept under their own names, none of which is empty. -/
def KeepsNames (g : ClassGraph) : Prop := g.classMap.All fun key c => c.name = key ∧ c.name ≠ ""

/-- A side that is missing keeps names as well. -/
theorem KeepsNames.getD {side : Option ClassGraph} (h : ∀ g ∈ side, g.KeepsNames) :
    (side.getD .empty).KeepsNames := by
  cases side with
  | none => exact KeyMap.all_empty _
  | some g => exact h g rfl

theorem KeepsNames.class?_empty {g : ClassGraph} (h : g.KeepsNames) : g.class? "" = none := by
  cases hclass : g.class? "" with
  | none => rfl
  | some c =>
    obtain ⟨hkey, hname⟩ := KeyMap.All.of_get? h hclass
    exact absurd hkey hname

theorem KeepsNames.addClass {g : ClassGraph} (h : g.KeepsNames) (c : Graph.Class) :
    (g.addClass c).KeepsNames := by
  by_cases hname : c.name = ""
  · simpa [ClassGraph.addClass, hname] using h
  · rw [KeepsNames, classMap_addClass hname]
    exact KeyMap.All.insert h ⟨rfl, hname⟩

theorem KeepsNames.addSourceClass {g : ClassGraph} (h : g.KeepsNames) (e : String × Graph.Class) :
    (g.addSourceClass e).KeepsNames := by
  unfold ClassGraph.addSourceClass
  cases hfound : g.class? e.1 with
  | none => exact h.addClass _
  | some c =>
    have hc : c.name = e.1 ∧ c.name ≠ "" := KeyMap.All.of_get? h hfound
    exact KeyMap.All.insert h hc

/-- Whatever is joined, the classes stand under their own names. -/
theorem keepsNames_merge (source compiled : Option ClassGraph) : (merge source compiled).KeepsNames := by
  have hcompiled : (addCompiledClasses .empty (compiled.getD .empty)).KeepsNames :=
    List.foldlRecOn _ _ (KeyMap.all_empty _) fun _ hg c _ => hg.addClass c
  exact List.foldlRecOn (source.getD .empty).classMap.entries _ hcompiled
    fun _ hg e _ => hg.addSourceClass e

/-! What stands under a name -/

variable {key : String}

theorem class?_addClass (hkey : key ≠ "") (g : ClassGraph) (c : Graph.Class) :
    (g.addClass c).class? key = if key = c.name then some c else g.class? key := by
  by_cases hname : c.name = ""
  · rw [if_neg (hname ▸ hkey), addClass, if_pos (by simpa using hname)]
  · rw [class?, classMap_addClass hname, KeyMap.get?_insert]
    rfl

theorem class?_foldl_addClass (hkey : key ≠ "") {entries : List (String × Graph.Class)}
    (h : ∀ e ∈ entries, e.2.name = e.1) (hsorted : entries.Pairwise fun a b => a.1 < b.1)
    (g : ClassGraph) : ((entries.map (·.2)).foldl addClass g).class? key =
      (entries.lookup key).or (g.class? key) := by
  induction entries generalizing g with
  | nil => rfl
  | cons e entries ih =>
    obtain ⟨hname, hmore⟩ := List.forall_mem_cons.1 h
    obtain ⟨hfirst, hsorted⟩ := List.pairwise_cons.1 hsorted
    rw [List.map_cons, List.foldl_cons, ih hmore hsorted, KeyMap.lookup_cons_eq,
      class?_addClass hkey, hname]
    by_cases hhere : key = e.1
    · subst hhere
      simp [KeyMap.lookup_eq_none_of_lt hfirst]
    · simp [hhere]

theorem class?_addSourceClass (hkey : key ≠ "") {e : String × Graph.Class} (h : e.2.name = e.1)
    (g : ClassGraph) : (g.addSourceClass e).class? key =
      if key = e.1 then some (joinClass (g.class? e.1) e.2) else g.class? key := by
  unfold addSourceClass
  cases hfound : g.class? e.1 with
  | none =>
    have hadded := class?_addClass hkey g { e.2 with origin := .source }
    rw [show ({ e.2 with origin := .source } : Graph.Class).name = e.1 from h] at hadded
    exact hadded
  | some compiled => exact KeyMap.get?_insert _ _ _ _

theorem class?_foldl_addSourceClass (hkey : key ≠ "") {entries : List (String × Graph.Class)}
    (h : ∀ e ∈ entries, e.2.name = e.1) (hsorted : entries.Pairwise fun a b => a.1 < b.1)
    (g : ClassGraph) : (entries.foldl addSourceClass g).class? key =
      (entries.lookup key).elim (g.class? key) fun s => some (joinClass (g.class? key) s) := by
  induction entries generalizing g with
  | nil => rfl
  | cons e entries ih =>
    obtain ⟨hname, hmore⟩ := List.forall_mem_cons.1 h
    obtain ⟨hfirst, hsorted⟩ := List.pairwise_cons.1 hsorted
    rw [List.foldl_cons, ih hmore hsorted, KeyMap.lookup_cons_eq, class?_addSourceClass hkey hname]
    by_cases hhere : key = e.1
    · subst hhere
      -- the keys after this one are greater, so nothing else is joined under it
      simp [KeyMap.lookup_eq_none_of_lt hfirst]
    · simp [hhere]

/-- Under each name stands the compiled class, the class of the sources, or both joined. -/
theorem class?_merge_named {source compiled : Option ClassGraph}
    (hsource : ∀ g ∈ source, g.classMap.All fun key c => c.name = key)
    (hcompiled : ∀ g ∈ compiled, g.classMap.All fun key c => c.name = key) (hkey : key ≠ "") :
    (merge source compiled).class? key =
      ((source.getD .empty).class? key).elim ((compiled.getD .empty).class? key) fun s =>
        some (joinClass ((compiled.getD .empty).class? key) s) := by
  have hall : ∀ {side : Option ClassGraph}, (∀ g ∈ side, g.classMap.All fun key c => c.name = key) →
      (side.getD .empty).classMap.All fun key c => c.name = key := by
    intro side h
    cases side with
    | none => exact KeyMap.all_empty _
    | some g => exact h g rfl
  have hclass : (addCompiledClasses .empty (compiled.getD .empty)).class? key =
      (compiled.getD .empty).class? key := by
    rw [addCompiledClasses, KeyMap.values, class?_foldl_addClass hkey (hall hcompiled)
      (compiled.getD .empty).classMap.sorted]
    exact Option.or_none
  rw [← hclass]
  exact class?_foldl_addSourceClass hkey (hall hsource) (source.getD .empty).classMap.sorted _

/-- Where no name is empty, this is so under every key. -/
theorem class?_merge_sides {source compiled : Option ClassGraph}
    (hsource : ∀ g ∈ source, g.KeepsNames) (hcompiled : ∀ g ∈ compiled, g.KeepsNames)
    (key : String) : (merge source compiled).class? key =
      ((source.getD .empty).class? key).elim ((compiled.getD .empty).class? key) fun s =>
        some (joinClass ((compiled.getD .empty).class? key) s) := by
  by_cases hkey : key = ""
  · subst hkey
    rw [(keepsNames_merge source compiled).class?_empty, (KeepsNames.getD hsource).class?_empty,
      (KeepsNames.getD hcompiled).class?_empty]
    rfl
  · exact class?_merge_named (fun g hg e he => (hsource g hg e he).1)
      (fun g hg e he => (hcompiled g hg e he).1) hkey

theorem class?_merge {source compiled : ClassGraph} (hsource : source.WellFormed)
    (hcompiled : compiled.WellFormed) (key : String) :
    (merge (some source) (some compiled)).class? key =
      (source.class? key).elim (compiled.class? key) fun s =>
        some (joinClass (compiled.class? key) s) := by
  apply class?_merge_sides
  · rintro g ⟨⟩
    exact hsource.classes
  · rintro g ⟨⟩
    exact hcompiled.classes

end ClassAtlas.ClassGraph
