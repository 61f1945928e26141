import ClassAtlas.Proofs.Distinct
import ClassAtlas.Proofs.Graph.Merge

/-!
What two graphs joined into one have. Every class of either side is there. One that both sides have is
the compiled one, to which the sources add: texts and fields that it lacks go behind its own, each once
and where the sources first have it. Of two generators under a name the one of the sources stays, and
the lists of the compiled side come before those of the sources.
-/
namespace ClassAtlas

namespace Listing

variable {α : Type} [DecidableEq α]

/-- The values that are not known yet, each at its first occurrence. -/
def freshValues (known more : List α) : List α := (more.filter (· ∉ known)).eraseDups

theorem mem_freshValues {known more : List α} {a : α} :
    a ∈ freshValues known more ↔ a ∈ more ∧ a ∉ known := by
  simp [freshValues]

theorem freshValues_concat (known more : List α) (a : α) : freshValues known (more ++ [a]) =
    if a ∈ known ∨ a ∈ freshValues known more then freshValues known more
    else freshValues known more ++ [a] := by
  by_cases hknown : a ∈ known
  · simp [freshValues, hknown]
  · have hfilter : (more ++ [a]).filter (· ∉ known) = more.filter (· ∉ known) ++ [a] := by
      simp [hknown]
    rw [freshValues, hfilter, eraseDups_concat, ← freshValues]
    simp [hknown, mem_freshValues]

/-- Adding values one after the other appends the fresh ones. -/
theorem appendUnique_eq (l : Listing α) (more : List α) :
    l.appendUnique more = l.append (freshValues l.items more) := by
  induction more using List.reverseRecOn with
  | nil => rfl
  | append_singleton more a ih =>
    have hstep : l.appendUnique (more ++ [a]) =
        if a ∈ (l.appendUnique more).items then l.appendUnique more
        else (l.appendUnique more).append [a] := by
      rw [appendUnique, List.foldl_append]
      rfl
    simp only [hstep, ih, freshValues_concat, items_append, List.mem_append]
    split
    · rfl
    · rw [append_append]

end Listing

namespace ClassGraph

open Listing (freshValues mem_freshValues freshValues_concat)

/-- The names of fields that are not known yet, in the order in which they first occur. No field is
without a name. -/
def freshNames (known more : List Graph.Field) : List String :=
  freshValues ("" :: known.map (·.name)) (more.map (·.name))

/-- The first field of each name that is not known yet. -/
def freshFields (known more : List Graph.Field) : List Graph.Field :=
  (freshNames known more).filterMap fun name => more.find? (·.name == name)

/-- A name that some fields have is that of the first of them. -/
theorem exists_find?_of_mem {fields : List Graph.Field} {name : String}
    (h : name ∈ fields.map (·.name)) : ∃ f, fields.find? (·.name == name) = some f ∧ f.name = name := by
  obtain ⟨g, hg, rfl⟩ := List.mem_map.1 h
  cases hfind : fields.find? (·.name == g.name) with
  | none => exact absurd (beq_self_eq_true g.name) (List.find?_eq_none.1 hfind g hg)
  | some f => exact ⟨f, rfl, by simpa using List.find?_some hfind⟩

theorem map_name_freshFields (known more : List Graph.Field) :
    (freshFields known more).map (·.name) = freshNames known more := by
  rw [freshFields, List.map_filterMap]
  have hall : ∀ name ∈ freshNames known more,
      (more.find? (·.name == name)).map (·.name) = some name := by
    intro name hname
    obtain ⟨f, hf, rfl⟩ := exists_find?_of_mem (mem_freshValues.1 hname).1
    rw [hf]
    rfl
  rw [List.filterMap_congr hall, List.filterMap_some]

/-- One more field is fresh if it has a name that neither the known nor the earlier fields have. -/
theorem freshFields_concat (known more : List Graph.Field) (f : Graph.Field) :
    freshFields known (more ++ [f]) =
      if f.name = "" ∨ f.name ∈ known.map (·.name) ∨ f.name ∈ freshNames known more
      then freshFields known more else freshFields known more ++ [f] := by
  -- names that are fresh already have their first field before this one
  have hbefore : (freshNames known more).filterMap (fun name => (more ++ [f]).find? (·.name == name)) =
      freshFields known more := by
    apply List.filterMap_congr
    intro name hname
    obtain ⟨g, hg, -⟩ := exists_find?_of_mem (mem_freshValues.1 hname).1
    rw [List.find?_append, hg, Option.some_or]
  have hnames : freshNames known (more ++ [f]) =
      if f.name ∈ "" :: known.map (·.name) ∨ f.name ∈ freshNames known more
      then freshNames known more else freshNames known more ++ [f.name] := by
    rw [freshNames, List.map_append, List.map_singleton, freshValues_concat]
    rfl
  simp only [List.mem_cons, or_assoc] at hnames
  rw [freshFields, hnames]
  split
  · exact hbefore
  · next hfresh =>
    have hfirst : f.name ∉ more.map (·.name) := by
      intro hmem
      simp only [freshNames, mem_freshValues, List.mem_cons] at hfresh
      tauto
    have hnone : more.find? (·.name == f.name) = none := by
      simpa using hfirst
    rw [List.filterMap_append, hbefore, List.filterMap_cons_some, List.filterMap_nil]
    rw [List.find?_append, hnone, Option.none_or]
    simp

/-- Adding fields one after the other appends the fresh ones. -/
theorem addMissingFields_eq (fields : Listing Graph.Field) (more : List Graph.Field) :
    addMissingFields fields more = fields.append (freshFields fields.items more) := by
  induction more using List.reverseRecOn with
  | nil => rfl
  | append_singleton more f ih =>
    have hknown : (f.name.isEmpty || (addMissingFields fields more).items.any (·.name == f.name)) =
        true ↔ f.name = "" ∨ f.name ∈ (addMissingFields fields more).items.map (·.name) := by
      simp
    have hstep : addMissingFields fields (more ++ [f]) =
        if f.name.isEmpty || (addMissingFields fields more).items.any (·.name == f.name)
        then addMissingFields fields more else (addMissingFields fields more).append [f] := by
      rw [addMissingFields, List.foldl_append]
      rfl
    simp only [hknown] at hstep
    simp only [hstep, ih, freshFields_concat, Listing.items_append, List.map_append, List.mem_append,
      map_name_freshFields]
    split
    · rfl
    · rw [Listing.append_append]

/-- A class that both sides have: the compiled one, with what the sources add to it. -/
def unionClass (c d : Graph.Class) : Graph.Class :=
  { c with
    origin := .both
    tableName := c.tableName.or d.tableName
    annotations := c.annotations.append (freshValues c.annotations.items d.annotations.items)
    stereotypes := c.stereotypes.append (freshValues c.stereotypes.items d.stereotypes.items)
    fields := c.fields.append (freshFields c.fields.items d.fields.items) }

theorem mergeClass_eq (c d : Graph.Class) : mergeClass c d = unionClass c d := by
  simp only [mergeClass, unionClass, Listing.appendUnique_eq, addMissingFields_eq]

/-- The generator that is declared under a name. -/
def generator? (g : ClassGraph) (name : String) : Option Graph.Generator := g.generatorMap.get? name

/-- Entries are put over those that are there. -/
theorem get?_foldl_insert {entries : List (String × α)} (hsorted : entries.Pairwise fun a b => a.1 < b.1)
    (m : KeyMap α) (name : String) :
    (entries.foldl (fun m e => m.insert e.1 e.2) m).get? name =
      (entries.lookup name).or (m.get? name) := by
  induction entries generalizing m with
  | nil => rfl
  | cons e entries ih =>
    obtain ⟨key, value⟩ := e
    obtain ⟨hfirst, hsorted⟩ := List.pairwise_cons.1 hsorted
    rw [List.foldl_cons, ih hsorted, KeyMap.lookup_cons_eq]
    by_cases hkey : name = key
    · subst hkey
      -- the keys after this one are greater, so it is not declared again
      have hlater : entries.lookup name = none := KeyMap.lookup_eq_none_of_lt hfirst
      simp [hlater, KeyMap.get?_insert]
    · simp [hkey, KeyMap.get?_insert]

theorem generator?_addDeclarations (g side : ClassGraph) (name : String) :
    (g.addDeclarations side).generator? name = (side.generator? name).or (g.generator? name) :=
  get?_foldl_insert side.generatorMap.sorted g.generatorMap name

/-- What changes only classes one after the other changes only classes. -/
theorem foldl_changes_classes {add : ClassGraph → α → ClassGraph}
    (h : ∀ g a, ∃ classes, add g a = { g with classes }) (items : List α) (g : ClassGraph) :
    ∃ classes, items.foldl add g = { g with classes } := by
  induction items generalizing g with
  | nil => exact ⟨g.classes, rfl⟩
  | cons a items ih =>
    obtain ⟨classes, hstep⟩ := h g a
    obtain ⟨classes', hmore⟩ := ih (add g a)
    exact ⟨classes', by rw [List.foldl_cons, hmore, hstep]⟩

/-- Apart from the classes, a graph is put together from the lists and generators of the two sides. -/
theorem exists_merge_eq (source compiled : Option ClassGraph) : ∃ classes, merge source compiled =
    { addDeclarations (addDeclarations { empty with classes } (compiled.getD .empty))
        (source.getD .empty) with
      calls := Listing.append (some []) (compiled.getD .empty).calls.items } := by
  obtain ⟨classes, hcompiled⟩ := foldl_changes_classes addClass_eq
    (compiled.getD .empty).classMap.values empty
  obtain ⟨classes', hsource⟩ := foldl_changes_classes addSourceClass_eq
    (source.getD .empty).classMap.entries { empty with classes }
  refine ⟨classes', ?_⟩
  simp only [merge, addCompiledClasses, hcompiled, hsource]
  rfl

/-- A graph is what two sides make together. -/
structure Joined (source compiled joined : ClassGraph) : Prop where
  keys : ∀ key, key ∈ joined.classNames ↔ key ∈ source.classNames ∨ key ∈ compiled.classNames
  compiled_only : ∀ key c, compiled.class? key = some c → source.class? key = none →
    joined.class? key = some c
  source_only : ∀ key d, source.class? key = some d → compiled.class? key = none →
    joined.class? key = some { d with origin := .source }
  both : ∀ key c d, compiled.class? key = some c → source.class? key = some d →
    joined.class? key = some (unionClass c d)
  generators : ∀ name, joined.generator? name =
    (source.generator? name).or (compiled.generator? name)
  uses : joined.generatorUses = some (compiled.generatorUses.items ++ source.generatorUses.items)
  endpoints : joined.endpoints = some (compiled.endpoints.items ++ source.endpoints.items)
  dependencies : joined.dependencies = some (compiled.dependencies.items ++ source.dependencies.items)
  calls : joined.calls = some compiled.calls.items

theorem generator?_merge (source compiled : Option ClassGraph) (name : String) :
    (merge source compiled).generator? name =
      ((source.getD .empty).generator? name).or ((compiled.getD .empty).generator? name) := by
  obtain ⟨classes, h⟩ := exists_merge_eq source compiled
  rw [h]
  change (addDeclarations _ _).generator? name = _
  rw [generator?_addDeclarations, generator?_addDeclarations]
  exact congrArg _ Option.or_none

/-- Two graphs that keep classes under their own names, either of which may be missing, are joined as
`Joined` says. -/
theorem merge_joins_sides {source compiled : Option ClassGraph}
    (hsource : ∀ g ∈ source, g.KeepsNames) (hcompiled : ∀ g ∈ compiled, g.KeepsNames) :
    Joined (source.getD .empty) (compiled.getD .empty) (merge source compiled) := by
  have hclass := class?_merge_sides hsource hcompiled
  obtain ⟨classes, hlists⟩ := exists_merge_eq source compiled
  constructor
  case keys =>
    intro key
    simp only [classNames, KeyMap.mem_keys_iff]
    change (∃ c, (merge source compiled).class? key = some c) ↔
      (∃ d, (source.getD .empty).class? key = some d) ∨ ∃ c, (compiled.getD .empty).class? key = some c
    rw [hclass]
    cases (source.getD .empty).class? key <;> simp
  case compiled_only =>
    intro key c hc hs
    rw [hclass, hs, Option.elim_none, hc]
  case source_only =>
    intro key d hd hc
    rw [hclass, hd, Option.elim_some, hc]
    rfl
  case both =>
    intro key c d hc hd
    rw [hclass, hd, Option.elim_some, hc, ← mergeClass_eq]
    rfl
  case generators => exact generator?_merge source compiled
  case uses => simp [hlists, addDeclarations, empty]
  case endpoints => simp [hlists, addDeclarations, empty]
  case dependencies => simp [hlists, addDeclarations, empty]
  case calls => simp [hlists]

/-- A compiled class with an annotation that it has twice. -/
def compiledOrder : Graph.Class := { (default : Graph.Class) with
  name := "shop.Order"
  annotations := some ["Entity", "Entity"]
  fields := some [⟨"id", "long", none, false, false⟩]
  origin := .bytecode }

/-- The same class in the sources, with a table, a field without name and two fields of one name. -/
def sourceOrder : Graph.Class := { (default : Graph.Class) with
  name := "shop.Order"
  annotations := some ["Table", "Entity", "Table"]
  fields := some [⟨"", "int", none, false, false⟩, ⟨"note", "int", none, false, false⟩,
    ⟨"id", "int", none, false, false⟩, ⟨"note", "long", none, false, false⟩]
  tableName := some "orders"
  origin := .source }

/-- A side with one class and one generator. -/
def oneClass (c : Graph.Class) (d : Graph.Generator) : ClassGraph := { empty with
  classes := some (KeyMap.empty.insert c.name c)
  generators := some (KeyMap.empty.insert d.name d) }

theorem keepsNames_oneClass {c : Graph.Class} (h : c.name ≠ "") (d : Graph.Generator) :
    (oneClass c d).KeepsNames :=
  (KeyMap.all_empty _).insert ⟨rfl, h⟩

/-- Both sides of an order, and its sources alone. -/
theorem merge_joins_sides_order :
    let source := oneClass sourceOrder ⟨"orders", "order_ids", some 5, none⟩
    let compiled := oneClass compiledOrder ⟨"orders", "", none, none⟩
    source.KeepsNames ∧ compiled.KeepsNames ∧
    (merge (some source) (some compiled)).class? "shop.Order" = some { compiledOrder with
      origin := .both
      tableName := some "orders"
      annotations := some ["Entity", "Entity", "Table"]
      fields := some [⟨"id", "long", none, false, false⟩, ⟨"note", "int", none, false, false⟩] } ∧
    (merge (some source) (some compiled)).generator? "orders" =
      some ⟨"orders", "order_ids", some 5, none⟩ ∧
    (merge (some source) none).class? "shop.Order" = some sourceOrder := by
  intro source compiled
  have hsource : source.KeepsNames := keepsNames_oneClass (by decide) _
  have hcompiled : compiled.KeepsNames := keepsNames_oneClass (by decide) _
  have hsome : ∀ {side g : ClassGraph}, side.KeepsNames → g ∈ some side → g.KeepsNames := by
    rintro side g h ⟨⟩
    exact h
  have hboth := merge_joins_sides (fun _ => hsome hsource) (fun _ => hsome hcompiled)
  have halone := @merge_joins_sides (some source) none (fun _ => hsome hsource) (fun _ h => by cases h)
  refine ⟨hsource, hcompiled, ?_, ?_, ?_⟩
  · rw [hboth.both _ compiledOrder sourceOrder rfl rfl]
    decide +kernel
  · rw [hboth.generators]
    rfl
  · rw [halone.source_only _ sourceOrder rfl rfl]
    rfl

end ClassGraph
end ClassAtlas
