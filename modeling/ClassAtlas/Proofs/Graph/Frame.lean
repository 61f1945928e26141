import ClassAtlas.Graph.Components
import ClassAtlas.Graph.Import
import Mathlib

/-!
What the operations on a graph leave alone. Adding classes and generators changes neither calls nor
dependencies, joining two graphs keeps the calls of the compiled one and the dependencies of both,
and writing components onto classes changes nothing else.
-/
namespace ClassAtlas

/-- One list after the other. -/
theorem Listing.append_append {α : Type} (l : Listing α) (more last : List α) :
    (l.append more).append last = l.append (more ++ last) := by
  cases last with
  | nil => simp [append]
  | cons a last => cases more <;> simp [append]

@[simp] theorem Listing.append_some {α : Type} (items more : List α) :
    append (some items) more = some (items ++ more) := by
  cases more <;> simp [append]

/-- Whether the use of a generator names a class, a field and a generator. -/
def Graph.GeneratorUse.isWhole (u : Graph.GeneratorUse) : Bool :=
  !(Text.isBlank u.className || Text.isBlank u.fieldName || Text.isBlank u.generatorName)

theorem KeyMap.get?_map {α β : Type} (f : String → α → β) (m : KeyMap α) (key : String) :
    (m.map f).get? key = (m.get? key).map (f key) := by
  obtain ⟨entries, sorted⟩ := m
  simp only [KeyMap.get?, KeyMap.map]
  clear sorted
  induction entries with
  | nil => rfl
  | cons e entries ih =>
    obtain ⟨k, v⟩ := e
    rw [List.map_cons, KeyMap.lookup_cons_eq, KeyMap.lookup_cons_eq]
    by_cases h : key = k
    · simp [h]
    · simp [h, ih]

/-- A key that comes before all others is none of them. -/
theorem KeyMap.lookup_eq_none_of_lt {α : Type} {entries : List (String × α)} {key : String}
    (h : ∀ e ∈ entries, key < e.1) : entries.lookup key = none := by
  rw [List.lookup_eq_none_iff]
  intro e he
  have hne : key ≠ e.1 := fun heq => String.lt_irrefl _ (heq ▸ h e he)
  simpa using hne

theorem KeyMap.get?_eq_some_iff {α : Type} (m : KeyMap α) (key : String) (value : α) :
    m.get? key = some value ↔ (key, value) ∈ m.entries := by
  obtain ⟨entries, sorted⟩ := m
  simp only [KeyMap.get?]
  induction entries with
  | nil => simp
  | cons e entries ih =>
    obtain ⟨k, v⟩ := e
    obtain ⟨hfirst, hsorted⟩ := List.pairwise_cons.1 sorted
    rw [List.mem_cons, ← ih hsorted, KeyMap.lookup_cons_eq]
    by_cases h : key = k
    · subst h
      simp [KeyMap.lookup_eq_none_of_lt hfirst, eq_comm]
    · simp [h]

theorem KeyMap.mem_keys_iff {α : Type} (m : KeyMap α) (key : String) :
    key ∈ m.keys ↔ ∃ value, m.get? key = some value := by
  simp [KeyMap.keys, KeyMap.get?_eq_some_iff]

theorem KeyMap.contains_insert {α : Type} (m : KeyMap α) (key : String) (value : α)
    (other : String) : (m.insert key value).contains other = (other == key || m.contains other) := by
  rw [KeyMap.contains, KeyMap.get?_insert]
  by_cases h : other = key
  · simp [h]
  · simp [h, KeyMap.contains]

namespace ClassGraph

/-- What one addition leaves alone, a series of them leaves alone. -/
theorem foldl_keeps {γ : Type} (view : ClassGraph → γ) (add : ClassGraph → α → ClassGraph)
    (h : ∀ g a, view (add g a) = view g) (items : List α) (g : ClassGraph) :
    view (items.foldl add g) = view g := by
  induction items generalizing g with
  | nil => rfl
  | cons a items ih => rw [List.foldl_cons, ih, h]

/-- A series of additions to one list of a graph appends to it and leaves the rest alone. -/
theorem foldl_extends {β : Type} (get : ClassGraph → Listing β)
    (set : ClassGraph → Listing β → ClassGraph) (add : ClassGraph → α → ClassGraph)
    (part : α → List β) (hget : ∀ g l, get (set g l) = l)
    (hset : ∀ g l l', set (set g l) l' = set g l') (hself : ∀ g, set g (get g) = g)
    (hadd : ∀ g a, add g a = set g ((get g).append (part a))) (items : List α) (g : ClassGraph) :
    items.foldl add g = set g ((get g).append (items.flatMap part)) := by
  induction items generalizing g with
  | nil => exact (hself g).symm
  | cons a items ih =>
    rw [List.foldl_cons, ih, hadd, hget, hset, Listing.append_append, List.flatMap_cons]

theorem foldl_addCall (calls : List Graph.Call) (g : ClassGraph) :
    calls.foldl addCall g = { g with calls := g.calls.append calls } := by
  rw [foldl_extends ClassGraph.calls (fun g l => { g with calls := l }) addCall ([·])
    (fun _ _ => rfl) (fun _ _ _ => rfl) (fun _ => rfl) (fun _ _ => rfl), List.flatMap_singleton']

theorem foldl_addEndpoint (endpoints : List Graph.Endpoint) (g : ClassGraph) :
    endpoints.foldl addEndpoint g = { g with endpoints := g.endpoints.append endpoints } := by
  rw [foldl_extends ClassGraph.endpoints (fun g l => { g with endpoints := l }) addEndpoint ([·])
    (fun _ _ => rfl) (fun _ _ _ => rfl) (fun _ => rfl) (fun _ _ => rfl), List.flatMap_singleton']

theorem foldl_addDependency (dependency : α → Graph.Dependency) (items : List α) (g : ClassGraph) :
    items.foldl (fun g a => g.addDependency (dependency a)) g =
      { g with dependencies := g.dependencies.append (items.map dependency) } := by
  rw [foldl_extends ClassGraph.dependencies (fun g l => { g with dependencies := l })
    (fun g a => g.addDependency (dependency a)) (fun a => [dependency a]) (fun _ _ => rfl)
    (fun _ _ _ => rfl) (fun _ => rfl) (fun _ _ => rfl), List.map_eq_flatMap]

/-- Uses in which a name is missing are left out. -/
theorem foldl_addGeneratorUse (uses : List Graph.GeneratorUse) (g : ClassGraph) :
    uses.foldl addGeneratorUse g =
      { g with generatorUses := g.generatorUses.append (uses.filter (·.isWhole)) } := by
  have hadd : ∀ (g : ClassGraph) (u : Graph.GeneratorUse), g.addGeneratorUse u =
      { g with generatorUses := g.generatorUses.append ([u].filter (·.isWhole)) } := by
    intro g u
    unfold addGeneratorUse
    split
    · next h =>
      have hnot : u.isWhole = false := by rw [Graph.GeneratorUse.isWhole, h, Bool.not_true]
      rw [List.filter_cons_of_neg (by simp [hnot])]
      rfl
    · next h =>
      have hwhole : u.isWhole = true := by simpa [Graph.GeneratorUse.isWhole] using h
      rw [List.filter_cons_of_pos hwhole]
      rfl
  rw [foldl_extends ClassGraph.generatorUses (fun g l => { g with generatorUses := l }) _ _
    (fun _ _ => rfl) (fun _ _ _ => rfl) (fun _ => rfl) hadd, ← List.filter_flatMap,
    List.flatMap_singleton']

theorem addClass_eq (g : ClassGraph) (c : Graph.Class) :
    ∃ classes, g.addClass c = { g with classes } := by
  unfold addClass
  split
  · exact ⟨g.classes, rfl⟩
  · exact ⟨_, rfl⟩

theorem classMap_addClass {c : Graph.Class} (h : c.name ≠ "") (g : ClassGraph) :
    (g.addClass c).classMap = g.classMap.insert c.name c := by
  unfold addClass
  rw [if_neg (by simpa using h)]
  rfl

theorem calls_addClass (g : ClassGraph) (c : Graph.Class) : (g.addClass c).calls = g.calls := by
  obtain ⟨classes, h⟩ := g.addClass_eq c
  rw [h]

theorem dependencies_addClass (g : ClassGraph) (c : Graph.Class) :
    (g.addClass c).dependencies = g.dependencies := by
  obtain ⟨classes, h⟩ := g.addClass_eq c
  rw [h]

theorem calls_addGenerator (g : ClassGraph) (d : Graph.Generator) :
    (g.addGenerator d).calls = g.calls := by
  unfold addGenerator
  split <;> rfl

theorem calls_addGeneratorUse (g : ClassGraph) (u : Graph.GeneratorUse) :
    (g.addGeneratorUse u).calls = g.calls := by
  unfold addGeneratorUse
  split <;> rfl

theorem classMap_addGenerator (g : ClassGraph) (d : Graph.Generator) :
    (g.addGenerator d).classMap = g.classMap := by
  unfold addGenerator
  split <;> rfl

theorem classMap_addGeneratorUse (g : ClassGraph) (u : Graph.GeneratorUse) :
    (g.addGeneratorUse u).classMap = g.classMap := by
  unfold addGeneratorUse
  split <;> rfl

theorem addSourceClass_eq (g : ClassGraph) (entry : String × Graph.Class) :
    ∃ classes, g.addSourceClass entry = { g with classes } := by
  unfold addSourceClass
  split
  · exact g.addClass_eq _
  · exact ⟨_, rfl⟩

/-- Calls come from the compiled side only. -/
theorem calls_merge (source compiled : ClassGraph) :
    (merge (some source) (some compiled)).calls.items = compiled.calls.items := by
  have hsource : ∀ (g : ClassGraph) entry, (g.addSourceClass entry).calls = g.calls := by
    intro g entry
    obtain ⟨classes, h⟩ := g.addSourceClass_eq entry
    rw [h]
  simp only [merge, Option.getD_some, addDeclarations, addCompiledClasses]
  rw [Listing.items_append, foldl_keeps calls _ hsource, foldl_keeps calls _ calls_addClass]
  rfl

/-- Dependencies come from both sides, those of the compiled one first. -/
theorem dependencies_merge (source compiled : ClassGraph) :
    (merge (some source) (some compiled)).dependencies.items =
      compiled.dependencies.items ++ source.dependencies.items := by
  have hsource : ∀ (g : ClassGraph) entry, (g.addSourceClass entry).dependencies = g.dependencies := by
    intro g entry
    obtain ⟨classes, h⟩ := g.addSourceClass_eq entry
    rw [h]
  simp only [merge, Option.getD_some, addDeclarations, addCompiledClasses, Listing.items_append]
  rw [foldl_keeps dependencies _ hsource, foldl_keeps dependencies _ dependencies_addClass]
  rfl

theorem class?_annotate (g : ClassGraph) (c : Components) (key : String) :
    (g.annotate c).class? key = (g.class? key).map fun cls =>
      { cls with component := (c.componentOf? key).map Int.ofNat, inCycle := c.isCyclic key } := by
  obtain ⟨classes, _⟩ := g
  cases classes with
  | none => rfl
  | some m =>
    exact KeyMap.get?_map (fun key (cls : Graph.Class) =>
      { cls with component := (c.componentOf? key).map Int.ofNat, inCycle := c.isCyclic key }) m key

/-- A class tells the component of its key, and whether that one is cyclic. -/
theorem eq_of_class?_annotate {g : ClassGraph} {c : Components} {key : String} {cls : Graph.Class}
    (h : (g.annotate c).class? key = some cls) :
    cls.component = (c.componentOf? key).map Int.ofNat ∧ cls.inCycle = c.isCyclic key := by
  rw [class?_annotate] at h
  obtain ⟨_, -, rfl⟩ := Option.map_eq_some_iff.1 h
  exact ⟨rfl, rfl⟩

end ClassGraph
end ClassAtlas
