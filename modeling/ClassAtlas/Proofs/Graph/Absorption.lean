import ClassAtlas.Proofs.Graph.ImportOrder
import ClassAtlas.Proofs.Graph.Order
import ClassAtlas.Proofs.Graph.Union

/-!
Joining again what has been joined. A graph that came out of a join already has all that the sources
say, class by class, so that joining the sources in once more adds no text, no field, no class and no
generator; it only marks the classes of the sources as seen on both sides. This is so however often
they are joined in.
-/
namespace ClassAtlas

theorem Listing.freshValues_eq_nil {α : Type} [DecidableEq α] {known more : List α}
    (h : more ⊆ known) : freshValues known more = [] := by
  apply List.eq_nil_iff_forall_not_mem.2
  intro a ha
  obtain ⟨hmore, hnew⟩ := mem_freshValues.1 ha
  exact hnew (h hmore)

theorem Listing.subset_append_freshValues {α : Type} [DecidableEq α] (l : Listing α) (more : List α) :
    more ⊆ (l.append (freshValues l.items more)).items := by
  intro a ha
  rw [items_append, List.mem_append]
  by_cases hknown : a ∈ l.items
  · exact .inl hknown
  · exact .inr (mem_freshValues.2 ⟨ha, hknown⟩)

namespace ClassGraph

/-! One class -/

/-- A class has everything that the sources say about it. -/
structure Knows (c d : Graph.Class) : Prop where
  table : c.tableName.or d.tableName = c.tableName
  annotations : d.annotations.items ⊆ c.annotations.items
  stereotypes : d.stereotypes.items ⊆ c.stereotypes.items
  fields : d.fields.items.map (·.name) ⊆ "" :: c.fields.items.map (·.name)

/-- Such a class takes nothing from the sources but the mark that they have it, too. -/
theorem Knows.unionClass_eq {c d : Graph.Class} (h : Knows c d) :
    unionClass c d = { c with origin := .both } := by
  have hfields : freshFields c.fields.items d.fields.items = [] := by
    rw [freshFields, freshNames, Listing.freshValues_eq_nil h.fields]
    rfl
  rw [unionClass, h.table, Listing.freshValues_eq_nil h.annotations,
    Listing.freshValues_eq_nil h.stereotypes, hfields]
  rfl

theorem knows_unionClass (c d : Graph.Class) : Knows (unionClass c d) d where
  table := by
    change (c.tableName.or d.tableName).or d.tableName = c.tableName.or d.tableName
    rw [Option.or_assoc, Option.or_self]
  annotations := Listing.subset_append_freshValues c.annotations _
  stereotypes := Listing.subset_append_freshValues c.stereotypes _
  fields := by
    intro name hname
    change name ∈ "" :: (c.fields.append (freshFields c.fields.items d.fields.items)).items.map (·.name)
    rw [Listing.items_append, List.map_append, map_name_freshFields, ← List.cons_append,
      List.mem_append]
    by_cases hknown : name ∈ "" :: c.fields.items.map (·.name)
    · exact .inl hknown
    · exact .inr (Listing.mem_freshValues.2 ⟨hname, hknown⟩)

/-- A class of the sources alone is taken as it is, with whatever stands in it twice. -/
theorem knows_joinClass (compiled : Option Graph.Class) (d : Graph.Class) :
    Knows (joinClass compiled d) d := by
  cases compiled with
  | none => exact ⟨Option.or_self, fun _ h => h, fun _ h => h, fun _ h => List.mem_cons_of_mem _ h⟩
  | some c =>
    change Knows (mergeClass c d) d
    rw [mergeClass_eq]
    exact knows_unionClass c d

/-! One join -/

/-- The sources have nothing to add to the classes of a graph. -/
def Covers (g source : ClassGraph) : Prop :=
  ∀ key d, key ≠ "" → source.class? key = some d → ∃ c, g.class? key = some c ∧ Knows c d

/-- A class of the sources is marked as seen on both sides. -/
def markSeen (source : ClassGraph) (key : String) (c : Graph.Class) : Graph.Class :=
  if key ∈ source.classNames then { c with origin := .both } else c

theorem mem_classNames_iff {g : ClassGraph} {key : String} :
    key ∈ g.classNames ↔ ∃ c, g.class? key = some c :=
  KeyMap.mem_keys_iff g.classMap key

theorem KeepsNames.keyed {g : ClassGraph} (h : g.KeepsNames) :
    g.classMap.All fun key c => c.name = key :=
  fun e he => (h e he).1

variable {source compiled : Option ClassGraph}

theorem covers_merge (hsource : ∀ g ∈ source, g.classMap.All fun key c => c.name = key)
    (hcompiled : ∀ g ∈ compiled, g.classMap.All fun key c => c.name = key) :
    (merge source compiled).Covers (source.getD .empty) := by
  intro key d hkey hd
  refine ⟨joinClass ((compiled.getD .empty).class? key) d, ?_, knows_joinClass _ d⟩
  rw [class?_merge_named hsource hcompiled hkey, hd]
  rfl

/-- Joined with sources that it covers, a graph keeps its classes but for the mark. -/
theorem classMap_merge_of_covers (hsource : ∀ g ∈ source, g.classMap.All fun key c => c.name = key)
    {g : ClassGraph} (hg : g.KeepsNames) (hcovers : g.Covers (source.getD .empty)) :
    (merge source (some g)).classMap = g.classMap.map (markSeen (source.getD .empty)) := by
  apply KeyMap.ext_get?
  intro key
  rw [KeyMap.get?_map]
  change (merge source (some g)).class? key = (g.class? key).map (markSeen (source.getD .empty) key)
  by_cases hkey : key = ""
  · subst hkey
    rw [(keepsNames_merge source (some g)).class?_empty, hg.class?_empty]
    rfl
  · have hsome : ∀ h ∈ some g, h.classMap.All fun key c => c.name = key := by
      rintro h ⟨⟩
      exact hg.keyed
    rw [class?_merge_named hsource hsome hkey]
    cases hd : (source.getD .empty).class? key with
    | none =>
      have hnot : key ∉ (source.getD .empty).classNames := by
        simp [mem_classNames_iff, hd]
      have hsame : markSeen (source.getD .empty) key = id := by
        funext c
        simp [markSeen, hnot]
      rw [hsame, Option.map_id]
      rfl
    | some d =>
      obtain ⟨c, hc, hknows⟩ := hcovers key d hkey hd
      have hmem : key ∈ (source.getD .empty).classNames := mem_classNames_iff.2 ⟨d, hd⟩
      change some (joinClass (g.class? key) d) = _
      rw [hc]
      change some (mergeClass c d) = some (markSeen (source.getD .empty) key c)
      rw [mergeClass_eq, hknows.unionClass_eq, markSeen, if_pos hmem]

/-- The generators of the sources are those of the graph already. -/
theorem generatorMap_merge_merge (source compiled side : Option ClassGraph)
    (h : ∀ name, ((side.getD .empty).generator? name).or ((source.getD .empty).generator? name) =
      (source.getD .empty).generator? name) {g : ClassGraph}
    (hg : g.generatorMap = (merge source compiled).generatorMap) :
    (merge side (some g)).generatorMap = (merge source compiled).generatorMap := by
  apply KeyMap.ext_get?
  intro name
  change (merge side (some g)).generator? name = (merge source compiled).generator? name
  have hthere : g.generator? name = (merge source compiled).generator? name := by
    rw [generator?, hg, generator?]
  rw [generator?_merge, Option.getD_some, hthere, generator?_merge, ← Option.or_assoc, h]

/-! Any number of joins -/

/-- The sources joined in again, so many times. -/
def rejoin (source : Option ClassGraph) (g : ClassGraph) (n : Nat) : ClassGraph :=
  (fun g => merge source (some g))^[n] g

theorem rejoin_succ (source : Option ClassGraph) (g : ClassGraph) (n : Nat) :
    rejoin source g (n + 1) = merge source (some (rejoin source g n)) :=
  Function.iterate_succ_apply' _ n g

section Rejoin

variable (hsource : ∀ g ∈ source, g.classMap.All fun key c => c.name = key)
  (hcompiled : ∀ g ∈ compiled, g.classMap.All fun key c => c.name = key)

include hsource hcompiled

/-- Every join leaves a graph that covers the sources. -/
theorem covers_rejoin (n : Nat) : (rejoin source (merge source compiled) n).KeepsNames ∧
    (rejoin source (merge source compiled) n).Covers (source.getD .empty) := by
  induction n with
  | zero => exact ⟨keepsNames_merge source compiled, covers_merge hsource hcompiled⟩
  | succ n ih =>
    rw [rejoin_succ]
    refine ⟨keepsNames_merge source _, covers_merge hsource ?_⟩
    rintro g ⟨⟩
    exact ih.1.keyed

theorem classMap_rejoin (n : Nat) : (rejoin source (merge source compiled) (n + 1)).classMap =
    (merge source compiled).classMap.map (markSeen (source.getD .empty)) := by
  induction n with
  | zero =>
    obtain ⟨hnames, hcovers⟩ := covers_rejoin hsource hcompiled 0
    exact classMap_merge_of_covers hsource hnames hcovers
  | succ n ih =>
    obtain ⟨hnames, hcovers⟩ := covers_rejoin hsource hcompiled (n + 1)
    rw [rejoin_succ, classMap_merge_of_covers hsource hnames hcovers, ih]
    -- a second mark changes nothing
    apply KeyMap.ext_get?
    intro key
    rw [KeyMap.get?_map, KeyMap.get?_map, Option.map_map]
    congr 1
    funext c
    simp only [Function.comp_apply, markSeen]
    split <;> rfl

omit hsource hcompiled in
theorem generatorMap_rejoin (n : Nat) : (rejoin source (merge source compiled) n).generatorMap =
    (merge source compiled).generatorMap := by
  induction n with
  | zero => rfl
  | succ n ih =>
    rw [rejoin_succ]
    exact generatorMap_merge_merge source compiled source (fun _ => Option.or_self) ih

/-- A class that both sides have is marked already. -/
theorem map_markSeen : (merge source compiled).classMap.map (markSeen (source.getD .empty)) =
    (merge source compiled).classMap.map fun key c =>
      if key ∈ (source.getD .empty).classNames ∧ key ∉ (compiled.getD .empty).classNames then
        { c with origin := .both }
      else c := by
  apply KeyMap.ext_get?
  intro key
  rw [KeyMap.get?_map, KeyMap.get?_map]
  apply Option.map_congr
  intro c hc
  by_cases hboth : key ∈ (source.getD .empty).classNames ∧ key ∈ (compiled.getD .empty).classNames
  · obtain ⟨⟨d, hd⟩, e, he⟩ := hboth.imp mem_classNames_iff.1 mem_classNames_iff.1
    have hkey : key ≠ "" := by
      rintro rfl
      have hnone := (keepsNames_merge source compiled).class?_empty
      rw [class?, hc] at hnone
      cases hnone
    have hjoined := class?_merge_named hsource hcompiled hkey
    rw [class?, hc, hd, he] at hjoined
    have horigin : c.origin = .both := by
      rw [Option.some.inj hjoined]
      rfl
    rw [markSeen, if_pos hboth.1, if_neg (fun h => h.2 hboth.2), ← horigin]
  · simp only [markSeen]
    congr 1
    simp only [eq_iff_iff]
    tauto

end Rejoin

/-! The parts of what has been joined -/

/-- What comes out of a join has all its parts. -/
theorem classes_merge (source compiled : Option ClassGraph) :
    (merge source compiled).classes = some (merge source compiled).classMap := by
  have hadd : ∀ (g : ClassGraph), g.classes = some g.classMap → ∀ c,
      (g.addClass c).classes = some (g.addClass c).classMap := by
    intro g hg c
    unfold addClass
    split
    · exact hg
    · rfl
  have hcompiled : (addCompiledClasses .empty (compiled.getD .empty)).classes =
      some (addCompiledClasses .empty (compiled.getD .empty)).classMap :=
    List.foldlRecOn (motive := fun g : ClassGraph => g.classes = some g.classMap) _ _ rfl
      fun g hg c _ => hadd g hg c
  refine List.foldlRecOn (motive := fun g : ClassGraph => g.classes = some g.classMap)
    (source.getD .empty).classMap.entries _ hcompiled ?_
  intro g hg e _
  unfold addSourceClass
  split
  · exact hadd g hg _
  · rfl

theorem merge_eq (source compiled : Option ClassGraph) : merge source compiled =
    ⟨some (merge source compiled).classMap, some (merge source compiled).generatorMap,
      some ((compiled.getD .empty).generatorUses.items ++ (source.getD .empty).generatorUses.items),
      some ((compiled.getD .empty).endpoints.items ++ (source.getD .empty).endpoints.items),
      some (compiled.getD .empty).calls.items,
      some ((compiled.getD .empty).dependencies.items ++
        (source.getD .empty).dependencies.items)⟩ := by
  obtain ⟨classes, h⟩ := exists_merge_eq source compiled
  have hclasses := classes_merge source compiled
  rw [h] at hclasses ⊢
  rw [← hclasses]
  simp [addDeclarations, empty, generatorMap]

/-- A graph that has been joined is the same joined alone. -/
theorem merge_none_merge (source compiled : Option ClassGraph) :
    merge none (some (merge source compiled)) = merge source compiled := by
  have hclasses : (merge none (some (merge source compiled))).classMap =
      (merge source compiled).classMap := by
    rw [classMap_merge_of_covers (by simp) (keepsNames_merge source compiled)
      (fun key d _ hd => by cases hd)]
    apply KeyMap.ext_get?
    intro key
    rw [KeyMap.get?_map]
    exact Option.map_id'
  have hgenerators : (merge none (some (merge source compiled))).generatorMap =
      (merge source compiled).generatorMap :=
    generatorMap_merge_merge source compiled none (fun _ => rfl) rfl
  have hempty : ((none : Option ClassGraph).getD .empty) = empty := rfl
  rw [merge_eq none, hclasses, hgenerators, hempty]
  conv_rhs => rw [merge_eq source compiled]
  rw [Option.getD_some, merge_eq source compiled]
  simp [empty]

/-- The sources joined in again. A graph that has been joined stays as it is when it is joined alone.
Joined with the same sources again, it keeps its generators and its classes, but for the mark on those
that only the sources have, and no text or field is added to a class; from then on nothing changes
however often the sources are joined in. -/
theorem merge_absorbs_repetition {source compiled : Option ClassGraph}
    (hsource : ∀ g ∈ source, g.WellKeyed) (hcompiled : ∀ g ∈ compiled, g.WellKeyed)
    {joined again : ClassGraph} (hjoined : joined = merge source compiled)
    (hagain : again = merge source (some joined)) :
    merge none (some joined) = joined ∧
    again.generatorMap = joined.generatorMap ∧
    (again.classMap = joined.classMap.map fun key c =>
      if key ∈ (source.getD .empty).classNames ∧ key ∉ (compiled.getD .empty).classNames then
        { c with origin := .both }
      else c) ∧
    (∀ key, (again.class? key).map (fun c => (c.annotations, c.stereotypes, c.fields)) =
      (joined.class? key).map fun c => (c.annotations, c.stereotypes, c.fields)) ∧
    ∀ n, (rejoin source again n).classMap = again.classMap ∧
      (rejoin source again n).generatorMap = again.generatorMap := by
  subst hjoined hagain
  have hkeyed := fun g hg => (hsource g hg).classes
  have hkeyed' := fun g hg => (hcompiled g hg).classes
  have hclasses : (merge source (some (merge source compiled))).classMap =
      (merge source compiled).classMap.map (markSeen (source.getD .empty)) :=
    classMap_rejoin hkeyed hkeyed' 0
  have hgenerators : (merge source (some (merge source compiled))).generatorMap =
      (merge source compiled).generatorMap :=
    generatorMap_rejoin 1
  refine ⟨merge_none_merge source compiled, hgenerators, ?_, ?_, ?_⟩
  · rw [hclasses, map_markSeen hkeyed hkeyed']
  · intro key
    rw [class?, hclasses, KeyMap.get?_map, Option.map_map]
    congr 1
    funext c
    simp only [Function.comp_apply, markSeen]
    split <;> rfl
  · intro n
    rw [hclasses, hgenerators]
    exact ⟨classMap_rejoin hkeyed hkeyed' n, generatorMap_rejoin (n + 1)⟩

/-- A class of the sources alone, with an annotation that it has twice, a field without name and two
fields of one name. -/
def sourceNote : Graph.Class := { (default : Graph.Class) with
  name := "shop.Note"
  annotations := some ["Entity", "Entity"]
  fields := some [⟨"", "int", none, false, false⟩, ⟨"text", "int", none, false, false⟩,
    ⟨"text", "long", none, false, false⟩]
  origin := .source }

/-- An order that both sides have, and a note of the sources. -/
theorem merge_absorbs_repetition_note :
    let source := (empty.addClass sourceOrder).addClass sourceNote
    let compiled := empty.addClass compiledOrder
    let joined := merge (some source) (some compiled)
    source.WellKeyed ∧ compiled.WellKeyed ∧
    merge none (some joined) = joined ∧
    (merge (some source) (some joined)).class? "shop.Note" = some { sourceNote with origin := .both } ∧
    (merge (some source) (some joined)).class? "shop.Order" = joined.class? "shop.Order" ∧
    (rejoin (some source) (merge (some source) (some joined)) 7).classMap =
      (merge (some source) (some joined)).classMap := by
  intro source compiled joined
  have hsource : source.WellKeyed :=
    ((wellFormed_empty.addClass sourceOrder).addClass sourceNote).wellKeyed
  have hcompiled : compiled.WellKeyed := (wellFormed_empty.addClass compiledOrder).wellKeyed
  have hsome : ∀ {side g : ClassGraph}, side.WellKeyed → g ∈ some side → g.WellKeyed := by
    rintro side g h ⟨⟩
    exact h
  obtain ⟨halone, -, hclasses, -, hoften⟩ := merge_absorbs_repetition (fun _ => hsome hsource)
    (fun _ => hsome hcompiled) (rfl : joined = merge (some source) (some compiled)) rfl
  refine ⟨hsource, hcompiled, halone, ?_, ?_, (hoften 7).1⟩
  · rw [class?, hclasses, KeyMap.get?_map]
    decide +kernel
  · rw [class?, hclasses, KeyMap.get?_map]
    decide +kernel

end ClassGraph
end ClassAtlas
