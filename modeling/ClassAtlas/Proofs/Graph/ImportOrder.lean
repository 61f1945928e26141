import ClassAtlas.Graph.Import
import ClassAtlas.Proofs.Graph.Frame
import ClassAtlas.Proofs.Session

/-!
The entries of a document and the order in which they are taken. An entry goes under its own name and
not under its key, so that several may come to one name; then the last one taken stays. The order shows
in the graph if and only if two of them differ once they are filled in.
-/
namespace ClassAtlas

namespace KeyMap

variable {α β : Type}

theorem ext_get? {m n : KeyMap α} (h : ∀ key, m.get? key = n.get? key) : m = n := by
  let before : String × α → String × α → Prop := fun a b => a.1 < b.1
  have hasymm : Std.Asymm before := ⟨fun _ _ => lt_asymm⟩
  have hirrefl : Std.Irrefl before := ⟨fun _ => lt_irrefl _⟩
  have hentries : m.entries = n.entries := by
    apply List.Pairwise.eq_of_mem_iff m.sorted n.sorted
    intro e
    rw [← get?_eq_some_iff, ← get?_eq_some_iff, h]
  cases m
  cases n
  cases hentries
  rfl

theorem ofList_concat (entries : List (String × α)) (e : String × α) :
    ofList (entries ++ [e]) = (ofList entries).insert e.1 e.2 := by
  rw [ofList, List.foldl_append]
  rfl

theorem mem_of_get?_ofList {entries : List (String × α)} {key : String} {value : α}
    (h : (ofList entries).get? key = some value) : (key, value) ∈ entries := by
  induction entries using List.reverseRecOn with
  | nil => cases h
  | append_singleton entries e ih =>
    rw [ofList_concat, get?_insert] at h
    by_cases hkey : key = e.1
    · rw [if_pos hkey] at h
      cases h
      simp [hkey]
    · rw [if_neg hkey] at h
      simp [ih h]

theorem exists_get?_ofList {entries : List (String × α)} {key : String} {value : α}
    (h : (key, value) ∈ entries) : ∃ last, (ofList entries).get? key = some last := by
  induction entries using List.reverseRecOn with
  | nil => cases h
  | append_singleton entries e ih =>
    rw [ofList_concat, get?_insert]
    by_cases hkey : key = e.1
    · exact ⟨e.2, if_pos hkey⟩
    · rw [if_neg hkey]
      rcases List.mem_append.1 h with hmem | hmem
      · exact ih hmem
      · rw [List.mem_singleton] at hmem
        exact absurd (congrArg Prod.fst hmem) hkey

/-- Items that come to one key bring the same value. -/
def Agreeing (entry : β → Option (String × α)) (items : List β) : Prop :=
  ∀ a ∈ items, ∀ b ∈ items, ∀ p ∈ entry a, ∀ q ∈ entry b, p.1 = q.1 → p.2 = q.2

instance [DecidableEq α] (entry : β → Option (String × α)) (items : List β) :
    Decidable (Agreeing entry items) :=
  inferInstanceAs (Decidable (∀ a ∈ items, ∀ b ∈ items, ∀ p ∈ entry a, ∀ q ∈ entry b,
    p.1 = q.1 → p.2 = q.2))

variable {entry : β → Option (String × α)} {items : List β} {key : String} {value : α}

/-- Each item is the last one in some order, and its value is then the one that stays. -/
theorem exists_perm_get? (h : ∃ b ∈ items, entry b = some (key, value)) :
    ∃ other : List β, other.Perm items ∧ (ofList (other.filterMap entry)).get? key = some value := by
  obtain ⟨b, hb, hentry⟩ := h
  obtain ⟨before, after, rfl⟩ := List.append_of_mem hb
  refine ⟨before ++ after ++ [b], ?_, ?_⟩
  · rw [List.append_assoc]
    exact List.Perm.append_left before (List.perm_append_singleton b after)
  · have hlast : (before ++ after ++ [b]).filterMap entry =
        (before ++ after).filterMap entry ++ [(key, value)] := by
      rw [List.filterMap_append]
      simp [hentry]
    rw [hlast, ofList_concat, get?_insert, if_pos rfl]

/-- What can stay under a key are the values of the items that come to it. -/
theorem exists_perm_get?_iff :
    (∃ other : List β, other.Perm items ∧ (ofList (other.filterMap entry)).get? key = some value) ↔
      ∃ b ∈ items, entry b = some (key, value) := by
  constructor
  · rintro ⟨other, hperm, hget⟩
    obtain ⟨b, hb, hentry⟩ := List.mem_filterMap.1 (mem_of_get?_ofList hget)
    exact ⟨b, hperm.mem_iff.1 hb, hentry⟩
  · exact exists_perm_get?

theorem Agreeing.get?_eq_some_iff (h : Agreeing entry items) :
    (ofList (items.filterMap entry)).get? key = some value ↔
      (key, value) ∈ items.filterMap entry := by
  constructor
  · exact mem_of_get?_ofList
  · intro hmem
    obtain ⟨last, hget⟩ := exists_get?_ofList hmem
    obtain ⟨a, ha, hlast⟩ := List.mem_filterMap.1 (mem_of_get?_ofList hget)
    obtain ⟨b, hb, hvalue⟩ := List.mem_filterMap.1 hmem
    have heq : last = value := h a ha b hb _ hlast _ hvalue rfl
    rw [hget, heq]

theorem Agreeing.ofList_eq (h : Agreeing entry items) {other : List β} (hperm : other.Perm items) :
    ofList (other.filterMap entry) = ofList (items.filterMap entry) := by
  have hother : Agreeing entry other := fun a ha b hb =>
    h a (hperm.mem_iff.1 ha) b (hperm.mem_iff.1 hb)
  apply ext_get?
  intro key
  apply Option.ext
  intro value
  rw [hother.get?_eq_some_iff, h.get?_eq_some_iff]
  exact (hperm.filterMap entry).mem_iff

/-- A map is the same for every order of the items if and only if items that meet agree. -/
theorem ofList_perm_iff :
    (∀ other : List β, other.Perm items →
      ofList (other.filterMap entry) = ofList (items.filterMap entry)) ↔ Agreeing entry items := by
  constructor
  · intro h a ha b hb p hp q hq hkey
    -- put either item last: the map is the same, so both values are what it has under the key
    obtain ⟨first, hfirst, hp'⟩ := exists_perm_get? ⟨a, ha, hp⟩
    obtain ⟨second, hsecond, hq'⟩ := exists_perm_get? ⟨b, hb, hq⟩
    rw [h first hfirst, hkey] at hp'
    rw [h second hsecond, hp'] at hq'
    exact Option.some.inj hq'
  · exact fun h _ hperm => h.ofList_eq hperm

/-- The keys of a map are the same for every order, whatever the items bring. -/
theorem keys_ofList_perm {entries other : List (String × α)} (hperm : other.Perm entries) :
    (ofList other).keys = (ofList entries).keys := by
  have hsorted : ∀ m : KeyMap α, m.keys.Pairwise (· < ·) := fun m => List.pairwise_map.2 m.sorted
  have hmem : ∀ {l l' : List (String × α)}, l.Perm l' → ∀ {key}, key ∈ (ofList l).keys →
      key ∈ (ofList l').keys := by
    intro l l' hl key hkey
    obtain ⟨value, hget⟩ := ((ofList l).mem_keys_iff key).1 hkey
    exact ((ofList l').mem_keys_iff key).2
      (exists_get?_ofList (hl.mem_iff.1 (mem_of_get?_ofList hget)))
  apply List.Pairwise.eq_of_mem_iff (hsorted _) (hsorted _)
  exact fun key => ⟨hmem hperm, hmem hperm.symm⟩

end KeyMap

namespace Graph

/-- What the entry of a class brings, and the name it goes under. Without a name it brings nothing. -/
def classEntry (e : String × Class) : Option (String × Class) :=
  let c := e.2.completed e.1
  if c.name.isEmpty then none else some (c.name, c)

def generatorEntry (e : String × Generator) : Option (String × Generator) :=
  let d := e.2.completed e.1
  if Text.isBlank d.name then none else some (d.name, d)

theorem addClass_completed (g : ClassGraph) (m : KeyMap Class) (e : String × Class) :
    { g with classes := some m }.addClass (e.2.completed e.1) =
      { g with classes := some ((classEntry e).elim m fun p => m.insert p.1 p.2) } := by
  by_cases h : (e.2.completed e.1).name.isEmpty = true
  · simp [ClassGraph.addClass, classEntry, h]
  · simp [ClassGraph.addClass, classEntry, h, ClassGraph.classMap]

theorem addGenerator_completed (g : ClassGraph) (m : KeyMap Generator)
    (e : String × Generator) : { g with generators := some m }.addGenerator (e.2.completed e.1) =
      { g with generators := some ((generatorEntry e).elim m fun p => m.insert p.1 p.2) } := by
  by_cases h : Text.isBlank (e.2.completed e.1).name = true
  · simp [ClassGraph.addGenerator, generatorEntry, h]
  · simp [ClassGraph.addGenerator, generatorEntry, h, ClassGraph.generatorMap]

/-- Additions that put an entry into one map of a graph, or nothing, fill that map. -/
theorem foldl_fills {α β : Type} (add : ClassGraph → β → ClassGraph) (fill : KeyMap α → ClassGraph)
    (entry : β → Option (String × α))
    (hadd : ∀ m b, add (fill m) b = fill ((entry b).elim m fun e => m.insert e.1 e.2))
    (items : List β) : items.foldl add (fill .empty) = fill (.ofList (items.filterMap entry)) := by
  induction items using List.reverseRecOn with
  | nil => rfl
  | append_singleton items b ih =>
    rw [List.foldl_append, ih, List.foldl_cons, List.foldl_nil, hadd, List.filterMap_append]
    cases hentry : entry b with
    | none => simp [hentry]
    | some e =>
      have hlast : [b].filterMap entry = [e] := by simp [hentry]
      rw [hlast, KeyMap.ofList_concat]
      rfl

theorem foldl_addClass (classes : List (String × Class)) (g : ClassGraph) :
    classes.foldl (fun g e => g.addClass (e.2.completed e.1)) { g with classes := some .empty } =
      { g with classes := some (.ofList (classes.filterMap classEntry)) } :=
  foldl_fills _ (fun m => { g with classes := some m }) classEntry (addClass_completed g) classes

theorem foldl_addGenerator (generators : List (String × Generator)) (g : ClassGraph) :
    generators.foldl (fun g e => g.addGenerator (e.2.completed e.1))
        { g with generators := some .empty } =
      { g with generators := some (.ofList (generators.filterMap generatorEntry)) } :=
  foldl_fills _ (fun m => { g with generators := some m }) generatorEntry (addGenerator_completed g)
    generators

theorem imported_eq (raw : ClassGraph) (classes : List (String × Class))
    (generators : List (String × Generator)) : imported raw classes generators =
      { classes := some (.ofList (classes.filterMap classEntry))
        generators := some (.ofList (generators.filterMap generatorEntry))
        generatorUses := some (raw.generatorUses.items.filter (·.isWhole))
        endpoints := some raw.endpoints.items
        calls := some raw.calls.items
        dependencies := some raw.dependencies.items } := by
  have hclasses := foldl_addClass classes .empty
  have hgenerators := foldl_addGenerator generators
    { ClassGraph.empty with classes := some (.ofList (classes.filterMap classEntry)) }
  have hfilled := (congrArg (generators.foldl fun g e => g.addGenerator (e.2.completed e.1))
    hclasses).trans hgenerators
  refine (congrArg (fun g => { raw.generatorUses.items.foldl ClassGraph.addGeneratorUse g with
    endpoints := some raw.endpoints.items
    calls := some raw.calls.items
    dependencies := some raw.dependencies.items }) hfilled).trans ?_
  simp only [ClassGraph.foldl_addGeneratorUse, ClassGraph.empty, Listing.append_some, List.nil_append]

namespace Raw

/-- The same document with the entries of its maps taken in another order. -/
structure Reordered (other raw : Raw) : Prop where
  lists : other.lists = raw.lists
  classes : other.classes.Perm raw.classes
  generators : other.generators.Perm raw.generators

/-- Entries that come to one name are the same once they are filled in. -/
def Agrees (raw : Raw) : Prop :=
  KeyMap.Agreeing classEntry raw.classes ∧ KeyMap.Agreeing generatorEntry raw.generators

instance (raw : Raw) : Decidable raw.Agrees := inferInstanceAs (Decidable (_ ∧ _))

theorem reordered_classes {raw : Raw} {classes : List (String × Class)}
    (h : classes.Perm raw.classes) : { raw with classes }.Reordered raw := ⟨rfl, h, .refl _⟩

theorem reordered_generators {raw : Raw} {generators : List (String × Generator)}
    (h : generators.Perm raw.generators) : { raw with generators }.Reordered raw := ⟨rfl, .refl _, h⟩

theorem classMap_graph (raw : Raw) :
    raw.graph.classMap = .ofList (raw.classes.filterMap classEntry) := by
  rw [graph, imported_eq]
  rfl

theorem generatorMap_graph (raw : Raw) :
    raw.graph.generatorMap = .ofList (raw.generators.filterMap generatorEntry) := by
  rw [graph, imported_eq]
  rfl

variable {raw other : Raw}

theorem Agrees.graph_eq (h : raw.Agrees) (hother : other.Reordered raw) : other.graph = raw.graph := by
  rw [graph, graph, imported_eq, imported_eq, hother.lists, h.1.ofList_eq hother.classes,
    h.2.ofList_eq hother.generators]

theorem agrees_of_graph_eq (h : ∀ other : Raw, other.Reordered raw → other.graph = raw.graph) :
    raw.Agrees := by
  constructor
  · apply KeyMap.ofList_perm_iff.1
    intro classes hperm
    have hgraph := h { raw with classes } (reordered_classes hperm)
    have hmap := congrArg ClassGraph.classMap hgraph
    rwa [classMap_graph, classMap_graph] at hmap
  · apply KeyMap.ofList_perm_iff.1
    intro generators hperm
    have hgraph := h { raw with generators } (reordered_generators hperm)
    have hmap := congrArg ClassGraph.generatorMap hgraph
    rwa [generatorMap_graph, generatorMap_graph] at hmap

theorem exists_class?_iff (raw : Raw) (key : String) (c : Class) :
    (∃ other : Raw, other.Reordered raw ∧ other.graph.class? key = some c) ↔
      ∃ e ∈ raw.classes, classEntry e = some (key, c) := by
  rw [← KeyMap.exists_perm_get?_iff]
  constructor
  · rintro ⟨other, hother, hget⟩
    rw [ClassGraph.class?, classMap_graph] at hget
    exact ⟨other.classes, hother.classes, hget⟩
  · rintro ⟨classes, hperm, hget⟩
    refine ⟨{ raw with classes }, reordered_classes hperm, ?_⟩
    rw [ClassGraph.class?, classMap_graph]
    exact hget

theorem exists_generator?_iff (raw : Raw) (key : String) (d : Generator) :
    (∃ other : Raw, other.Reordered raw ∧ other.graph.generatorMap.get? key = some d) ↔
      ∃ e ∈ raw.generators, generatorEntry e = some (key, d) := by
  rw [← KeyMap.exists_perm_get?_iff]
  constructor
  · rintro ⟨other, hother, hget⟩
    rw [generatorMap_graph] at hget
    exact ⟨other.generators, hother.generators, hget⟩
  · rintro ⟨generators, hperm, hget⟩
    refine ⟨{ raw with generators }, reordered_generators hperm, ?_⟩
    rw [generatorMap_graph]
    exact hget

/-- The graph of a document is the same in every order of its entries if and only if entries that come
to one name agree. In general what can stay under a name are the entries that come to it, whereas which
names there are and all the lists do not depend on the order. -/
theorem graph_eq_iff_agrees (raw : Raw) :
    ((∀ other : Raw, other.Reordered raw → other.graph = raw.graph) ↔ raw.Agrees) ∧
    (∀ key c, (∃ other : Raw, other.Reordered raw ∧ other.graph.class? key = some c) ↔
      ∃ e ∈ raw.classes, classEntry e = some (key, c)) ∧
    (∀ key d, (∃ other : Raw, other.Reordered raw ∧ other.graph.generatorMap.get? key = some d) ↔
      ∃ e ∈ raw.generators, generatorEntry e = some (key, d)) ∧
    ∀ other : Raw, other.Reordered raw →
      other.graph.classNames = raw.graph.classNames ∧
      other.graph.generatorMap.keys = raw.graph.generatorMap.keys ∧
      { other.graph with classes := raw.graph.classes, generators := raw.graph.generators } =
        raw.graph := by
  refine ⟨⟨agrees_of_graph_eq, fun h _ hother => h.graph_eq hother⟩, raw.exists_class?_iff,
    raw.exists_generator?_iff, ?_⟩
  intro other hother
  refine ⟨?_, ?_, ?_⟩
  · rw [ClassGraph.classNames, ClassGraph.classNames, classMap_graph, classMap_graph]
    exact KeyMap.keys_ofList_perm (hother.classes.filterMap classEntry)
  · rw [generatorMap_graph, generatorMap_graph]
    exact KeyMap.keys_ofList_perm (hother.generators.filterMap generatorEntry)
  · rw [graph, graph, imported_eq, imported_eq, hother.lists]

/-- Two entries that come to one name, the first because of its key. They are the same class. -/
def aliasedDocument : List UInt8 := Text.Utf8.encode
  "classes:\n  shop.Order: {kind: RECORD}\n  zz: {name: shop.Order, kind: RECORD}\n"

theorem graph_eq_iff_agrees_aliasedDocument : ∃ raw, readRaw aliasedDocument = .ok raw ∧
    raw.Agrees ∧ { raw with classes := raw.classes.reverse } ≠ raw ∧
    { raw with classes := raw.classes.reverse }.graph = raw.graph := by
  have hread : (readRaw aliasedDocument).toOption.any (fun raw =>
      decide (raw.Agrees ∧ { raw with classes := raw.classes.reverse } ≠ raw)) = true := by
    decide +kernel
  obtain ⟨raw, hraw, hagrees⟩ := exists_eq_ok_of_any hread
  obtain ⟨hagrees, hne⟩ := of_decide_eq_true hagrees
  have hsame := (graph_eq_iff_agrees raw).1.2 hagrees
  exact ⟨raw, hraw, hagrees, hne, hsame _ (reordered_classes (List.reverse_perm _))⟩

/-- Two entries of one name that differ in kind. -/
def disputedDocument : List UInt8 := Text.Utf8.encode
  "classes:\n  a: {name: shop.Order, kind: INTERFACE}\n  b: {name: shop.Order}\n"

theorem graph_ne_disputedDocument : ∃ raw other : Raw, readRaw disputedDocument = .ok raw ∧
    other.Reordered raw ∧ read disputedDocument = .ok raw.graph ∧
    (raw.graph.class? "shop.Order").map Class.kind = some .class ∧
    (other.graph.class? "shop.Order").map Class.kind = some .interface := by
  have hread : (readRaw disputedDocument).toOption.any (fun raw => decide (
      (raw.graph.class? "shop.Order").map Class.kind = some .class ∧
      ({ raw with classes := raw.classes.reverse }.graph.class? "shop.Order").map Class.kind =
        some .interface)) = true := by
    decide +kernel
  obtain ⟨raw, hraw, hkinds⟩ := exists_eq_ok_of_any hread
  obtain ⟨hkind, hother⟩ := of_decide_eq_true hkinds
  refine ⟨raw, _, hraw, reordered_classes (List.reverse_perm _), ?_, hkind, hother⟩
  rw [read, hraw]
  rfl

end Raw
end Graph
end ClassAtlas
