import ClassAtlas.Graph.Adjacency
import ClassAtlas.Proofs.Distinct

/-!
What a graph that was built edge by edge holds: the endpoints of its edges and the targets of each
source, both in the order of their first occurrence and without repeats. Every step of an insertion
keeps the numbers of the nodes, the targets by numbers, the set of edges, the marks of the sources and
their count in step with these. Reachability is along the edges that were added.
-/
namespace ClassAtlas.Adjacency

/-- The endpoints of some edges, the source of an edge before its target. -/
def endpoints (edges : List (String × String)) : List String := edges.flatMap fun e => [e.1, e.2]

/-- The targets of a source, an edge that occurs twice giving its target twice. -/
def targetsOf (edges : List (String × String)) (source : String) : List String :=
  (edges.filter (·.1 = source)).map (·.2)

@[simp] theorem mem_targetsOf (edges : List (String × String)) (u w : String) :
    w ∈ targetsOf edges u ↔ (u, w) ∈ edges := by
  simp [targetsOf]

/-- The targets of a source stand in the order in which the edges to them first occur. -/
theorem pairwise_targets (edges : List (String × String)) (u : String) :
    (targetsOf edges u).eraseDups.Pairwise fun v w => edges.idxOf (u, v) < edges.idxOf (u, w) := by
  have hinj : ∀ x ∈ edges.filter (·.1 = u), ∀ y ∈ edges.filter (·.1 = u), x.2 = y.2 → x = y := by
    intro x hx y hy h
    have hx' : x.1 = u := by simpa using (List.mem_filter.1 hx).2
    have hy' : y.1 = u := by simpa using (List.mem_filter.1 hy).2
    exact Prod.ext (hx'.trans hy'.symm) h
  rw [targetsOf, eraseDups_map hinj, eraseDups_filter, List.pairwise_map]
  refine ((pairwise_idxOf_eraseDups edges).filter _).imp_of_mem ?_
  intro x y hx hy hlt
  have hx' : x.1 = u := by simpa using (List.mem_filter.1 hx).2
  have hy' : y.1 = u := by simpa using (List.mem_filter.1 hy).2
  rwa [show (u, x.2) = x from Prod.ext hx'.symm rfl, show (u, y.2) = y from Prod.ext hy'.symm rfl]

theorem mem_endpoints (edges : List (String × String)) (v : String) :
    v ∈ endpoints edges ↔ (∃ w, (v, w) ∈ edges) ∨ ∃ u, (u, v) ∈ edges := by
  simp only [endpoints, List.mem_flatMap, List.mem_cons, List.not_mem_nil, or_false, Prod.exists]
  grind

theorem source_mem_endpoints {edges : List (String × String)} {u w : String} (h : (u, w) ∈ edges) :
    u ∈ endpoints edges := (mem_endpoints edges u).2 (.inl ⟨w, h⟩)

theorem target_mem_endpoints {edges : List (String × String)} {u w : String} (h : (u, w) ∈ edges) :
    w ∈ endpoints edges := (mem_endpoints edges w).2 (.inr ⟨u, h⟩)

/-- One node leads to another along some edges; every node leads to itself. -/
def Reaches (edges : List (String × String)) : String → String → Prop :=
  Relation.ReflTransGen fun u w => (u, w) ∈ edges

theorem Reaches.single {edges : List (String × String)} {u w : String} (h : (u, w) ∈ edges) :
    Reaches edges u w := Relation.ReflTransGen.single h

theorem Reaches.mono {edges more : List (String × String)} {u v : String} (h : Reaches edges u v)
    (hsubset : edges ⊆ more) : Reaches more u v :=
  Relation.ReflTransGen.mono (fun _ _ he => hsubset he) u v h

/-- A set that no edge leaves holds whatever its members reach. -/
theorem Reaches.stays {edges : List (String × String)} {p : String → Prop}
    (hp : ∀ u w, p u → (u, w) ∈ edges → p w) {u v : String} (h : Reaches edges u v) (hu : p u) :
    p v := by
  induction h with
  | refl => exact hu
  | tail _ he ih => exact hp _ _ ih he

theorem Reaches.mem_endpoints {edges : List (String × String)} {u v : String}
    (h : Reaches edges u v) (hu : u ∈ endpoints edges) : v ∈ endpoints edges :=
  h.stays (fun _ _ _ => target_mem_endpoints) hu

/-- Whether there is an edge from one node to another. -/
def hasEdge (a : Adjacency) (source target : String) : Bool :=
  ((a.targets? source).getD []).contains target

/-! Numbers of names -/

/-- The number of a name: how many others first occur before it. -/
def numberIn (nodes : List String) (v : String) : Nat := nodes.eraseDups.idxOf v

theorem numberIn_concat {nodes : List String} {v : String} (hv : v ∈ nodes) (x : String) :
    numberIn (nodes ++ [x]) v = numberIn nodes v := by
  rw [numberIn, numberIn, eraseDups_concat]
  split
  · rfl
  · exact List.idxOf_append_of_mem (List.mem_eraseDups.2 hv)

theorem numberIn_new {nodes : List String} {v : String} (hv : v ∉ nodes) :
    numberIn (nodes ++ [v]) v = nodes.eraseDups.length := by
  rw [numberIn, eraseDups_concat, if_neg hv,
    List.idxOf_append_of_notMem (mt List.mem_eraseDups.1 hv)]
  simp

theorem numberIn_inj {nodes : List String} {v w : String} (hv : v ∈ nodes) :
    numberIn nodes v = numberIn nodes w ↔ v = w :=
  List.idxOf_inj (List.mem_eraseDups.2 hv)

/-- To change an entry at the place of an item is to change what the item is mapped to. -/
theorem modify_idxOf_map {α β : Type} [DecidableEq α] (f : α → β) (change : β → β) (x : α) {l : List α}
    (hl : l.Nodup) : (l.map f).modify (l.idxOf x) change =
      l.map fun y => if y = x then change (f y) else f y := by
  induction l with
  | nil => simp
  | cons y l ih =>
    obtain ⟨hy, hl⟩ := List.nodup_cons.1 hl
    by_cases hxy : y = x
    · subst hxy
      have hrest : l.map (fun z => if z = y then change (f z) else f z) = l.map f := by
        refine List.map_congr_left fun z hz => if_neg ?_
        rintro rfl
        exact hy hz
      simp [hrest]
    · simp [List.idxOf_cons_ne _ hxy, hxy, ih hl]

/-- The entries whose flags are set. -/
theorem filter_zipIdx {flag : String → Bool} {flags : Array Bool} (l before : List String)
    (h : flags.toList = (before ++ l).map flag) :
    ((l.zipIdx before.length).filter fun node => flags.getD node.2 false).map (·.1) =
      l.filter flag := by
  induction l generalizing before with
  | nil => rfl
  | cons v l ih =>
    have hv : flags.getD before.length false = flag v := by
      rw [Array.getD_eq_getD_getElem?, ← Array.getElem?_toList, h]
      simp
    have hrest := ih (before ++ [v]) (by simpa using h)
    rw [List.length_append, List.length_singleton] at hrest
    rw [List.zipIdx_cons, List.filter_cons, List.filter_cons, hv]
    split
    · rw [List.map_cons, hrest]
    · exact hrest

/-! What the parts of a graph are -/

/-- What the parts of a graph are when names have been added as nodes, some of them as sources, and
pairs of them as edges. All parts but the counters follow the first occurrences of names and pairs. -/
structure Holds (a : Adjacency) (nodes sources : List String) (edges : List (String × String)) :
    Prop where
  nodes_eq : a.nodes.toList = nodes.eraseDups
  numbers_eq : ∀ v, a.numbers[v]? = if v ∈ nodes then some (numberIn nodes v) else none
  outgoing_eq : a.outgoing.toList = nodes.eraseDups.map fun u =>
    ((targetsOf edges u).eraseDups.map (numberIn nodes)).toArray
  mem_linked : ∀ i j, (i, j) ∈ a.linked ↔
    ∃ e ∈ edges, numberIn nodes e.1 = i ∧ numberIn nodes e.2 = j
  linked_size : a.linked.size = edges.eraseDups.length
  isSource_eq : a.isSource.toList = nodes.eraseDups.map fun u => decide (u ∈ sources)
  sourceCount_eq : a.sourceCount = sources.eraseDups.length
  sources_subset : sources ⊆ nodes
  ends_mem : ∀ u w, (u, w) ∈ edges → u ∈ nodes ∧ w ∈ nodes

namespace Holds

variable {a : Adjacency} {nodes sources : List String} {edges : List (String × String)}

theorem size_nodes (h : a.Holds nodes sources edges) : a.nodes.size = nodes.eraseDups.length := by
  rw [← Array.length_toList, h.nodes_eq]

theorem getD_isSource (h : a.Holds nodes sources edges) {u : String} (hu : u ∈ nodes) :
    a.isSource.getD (numberIn nodes u) false = decide (u ∈ sources) := by
  rw [Array.getD_eq_getD_getElem?, ← Array.getElem?_toList, h.isSource_eq, numberIn, List.getElem?_map,
    List.getElem?_idxOf (List.mem_eraseDups.2 hu)]
  rfl

theorem getD_outgoing (h : a.Holds nodes sources edges) {u : String} (hu : u ∈ nodes) :
    a.outgoing.getD (numberIn nodes u) #[] =
      ((targetsOf edges u).eraseDups.map (numberIn nodes)).toArray := by
  rw [Array.getD_eq_getD_getElem?, ← Array.getElem?_toList, h.outgoing_eq, numberIn, List.getElem?_map,
    List.getElem?_idxOf (List.mem_eraseDups.2 hu)]
  rfl

theorem getD_nodes (h : a.Holds nodes sources edges) {u : String} (hu : u ∈ nodes) :
    a.nodes.getD (numberIn nodes u) "" = u := by
  rw [Array.getD_eq_getD_getElem?, ← Array.getElem?_toList, h.nodes_eq, numberIn,
    List.getElem?_idxOf (List.mem_eraseDups.2 hu)]
  rfl

theorem contains_linked (h : a.Holds nodes sources edges) {u w : String} (hu : u ∈ nodes)
    (hw : w ∈ nodes) :
    a.linked.contains (numberIn nodes u, numberIn nodes w) = edges.contains (u, w) := by
  rw [Bool.eq_iff_iff, Std.HashSet.contains_iff_mem, h.mem_linked, List.contains_iff_mem]
  constructor
  · rintro ⟨e, he, hu', hw'⟩
    have hfirst := ((numberIn_inj hu).1 hu'.symm)
    have hsecond := ((numberIn_inj hw).1 hw'.symm)
    rw [hfirst, hsecond]
    exact he
  · exact fun he => ⟨_, he, rfl, rfl⟩

theorem targetsOf_eq_nil (h : a.Holds nodes sources edges) {u : String} (hu : u ∉ nodes) :
    targetsOf edges u = [] := by
  rw [List.eq_nil_iff_forall_not_mem]
  intro w hw
  exact hu (h.ends_mem u w ((mem_targetsOf _ _ _).1 hw)).1

/-! What was there before changes nothing -/

/-- The numbers that are given out stay as they are. -/
theorem map_numberIn_concat (h : a.Holds nodes sources edges) (v u : String) :
    (targetsOf edges u).eraseDups.map (numberIn (nodes ++ [v])) =
      (targetsOf edges u).eraseDups.map (numberIn nodes) := by
  refine List.map_congr_left fun w hw => numberIn_concat ?_ v
  exact (h.ends_mem u w ((mem_targetsOf _ _ _).1 (List.mem_eraseDups.1 hw))).2

theorem mem_linked_concat (h : a.Holds nodes sources edges) (v : String) (i j : Nat) :
    (i, j) ∈ a.linked ↔
      ∃ e ∈ edges, numberIn (nodes ++ [v]) e.1 = i ∧ numberIn (nodes ++ [v]) e.2 = j := by
  rw [h.mem_linked]
  refine exists_congr fun e => and_congr_right fun he => ?_
  rw [numberIn_concat (h.ends_mem e.1 e.2 he).1, numberIn_concat (h.ends_mem e.1 e.2 he).2]

theorem sources_subset_concat (h : a.Holds nodes sources edges) (v : String) :
    sources ⊆ nodes ++ [v] :=
  List.Subset.trans h.sources_subset (List.subset_append_left _ _)

theorem ends_mem_concat (h : a.Holds nodes sources edges) (v u w : String) (he : (u, w) ∈ edges) :
    u ∈ nodes ++ [v] ∧ w ∈ nodes ++ [v] :=
  ⟨List.mem_append_left _ (h.ends_mem u w he).1, List.mem_append_left _ (h.ends_mem u w he).2⟩

theorem old_node (h : a.Holds nodes sources edges) {v : String} (hv : v ∈ nodes) :
    a.Holds (nodes ++ [v]) sources edges := by
  have hnodes : (nodes ++ [v]).eraseDups = nodes.eraseDups := by rw [eraseDups_concat, if_pos hv]
  exact { h with
    nodes_eq := by rw [hnodes, h.nodes_eq]
    numbers_eq := by
      intro u
      rw [h.numbers_eq, numberIn, numberIn, hnodes]
      grind
    outgoing_eq := by simp only [h.map_numberIn_concat, hnodes, h.outgoing_eq]
    mem_linked := h.mem_linked_concat v
    isSource_eq := by rw [hnodes, h.isSource_eq]
    sources_subset := h.sources_subset_concat v
    ends_mem := h.ends_mem_concat v }

theorem old_source (h : a.Holds nodes sources edges) {u : String} (hu : u ∈ sources) :
    a.Holds nodes (sources ++ [u]) edges :=
  { h with
    isSource_eq := by
      rw [h.isSource_eq]
      refine List.map_congr_left fun v _ => ?_
      grind
    sourceCount_eq := by rw [eraseDups_concat, if_pos hu, h.sourceCount_eq]
    sources_subset := List.append_subset.2 ⟨h.sources_subset, by simpa using h.sources_subset hu⟩ }

theorem targetsOf_concat (edges : List (String × String)) (u w x : String) :
    targetsOf (edges ++ [(u, w)]) x =
      if x = u then targetsOf edges x ++ [w] else targetsOf edges x := by
  by_cases hx : x = u
  · simp [targetsOf, hx]
  · simp [targetsOf, hx, Ne.symm hx]

theorem ends_mem_edge (h : a.Holds nodes sources edges) {u w : String} (hu : u ∈ nodes)
    (hw : w ∈ nodes) (x y : String) (he : (x, y) ∈ edges ++ [(u, w)]) : x ∈ nodes ∧ y ∈ nodes := by
  rcases List.mem_append.1 he with he | he
  · exact h.ends_mem x y he
  · cases List.mem_singleton.1 he
    exact ⟨hu, hw⟩

theorem old_edge (h : a.Holds nodes sources edges) {u w : String} (he : (u, w) ∈ edges) :
    a.Holds nodes sources (edges ++ [(u, w)]) := by
  obtain ⟨hu, hw⟩ := h.ends_mem u w he
  exact { h with
    outgoing_eq := by
      rw [h.outgoing_eq]
      refine List.map_congr_left fun x _ => ?_
      rw [targetsOf_concat]
      split
      · next hx =>
        subst hx
        rw [eraseDups_concat, if_pos ((mem_targetsOf _ _ _).2 he)]
      · rfl
    mem_linked := by
      have hedges : ∀ e, e ∈ edges ++ [(u, w)] ↔ e ∈ edges := by
        intro e
        rw [List.mem_append, List.mem_singleton, or_iff_left_of_imp]
        rintro rfl
        exact he
      simpa only [hedges] using h.mem_linked
    linked_size := by rw [eraseDups_concat, if_pos he, h.linked_size]
    ends_mem := h.ends_mem_edge hu hw }

/-! One insertion, part by part -/

theorem addNode_of_mem (h : a.Holds nodes sources edges) {v : String} (hv : v ∈ nodes) :
    a.addNode v = (numberIn nodes v, a) := by
  rw [addNode, h.numbers_eq, if_pos hv]

theorem addNode_new (h : a.Holds nodes sources edges) {v : String} (hv : v ∉ nodes) :
    (a.addNode v).2.Holds (nodes ++ [v]) sources edges := by
  have hnodes : (nodes ++ [v]).eraseDups = nodes.eraseDups ++ [v] := by
    rw [eraseDups_concat, if_neg hv]
  have hnone : a.numbers[v]? = none := by rw [h.numbers_eq, if_neg hv]
  simp only [Adjacency.addNode, hnone]
  exact { h with
    nodes_eq := by rw [Array.toList_push, h.nodes_eq, hnodes]
    numbers_eq := by
      intro u
      rw [Std.HashMap.getElem?_insert]
      by_cases huv : v = u
      · subst huv
        simp [numberIn_new hv, h.size_nodes]
      · rw [if_neg (by simpa using huv), h.numbers_eq]
        by_cases hu : u ∈ nodes
        · simp [hu, numberIn_concat hu]
        · simp [hu, Ne.symm huv]
    outgoing_eq := by
      simp only [h.map_numberIn_concat, hnodes, List.map_append, Array.toList_push, h.outgoing_eq,
        List.map_cons, List.map_nil, h.targetsOf_eq_nil hv]
      rfl
    mem_linked := h.mem_linked_concat v
    isSource_eq := by
      have hnot : v ∉ sources := fun hmem => hv (h.sources_subset hmem)
      rw [hnodes, Array.toList_push, h.isSource_eq, List.map_append]
      simp [hnot]
    sources_subset := h.sources_subset_concat v
    ends_mem := h.ends_mem_concat v }

/-- A name that is added is a node and has a number from then on. -/
theorem addNode (h : a.Holds nodes sources edges) (v : String) :
    (a.addNode v).1 = numberIn (nodes ++ [v]) v ∧
      (a.addNode v).2.Holds (nodes ++ [v]) sources edges := by
  by_cases hv : v ∈ nodes
  · rw [h.addNode_of_mem hv]
    exact ⟨(numberIn_concat hv v).symm, h.old_node hv⟩
  · refine ⟨?_, h.addNode_new hv⟩
    rw [Adjacency.addNode, h.numbers_eq, if_neg hv, numberIn_new hv, h.size_nodes]

theorem markSource_of_mem (h : a.Holds nodes sources edges) {u : String} (hu : u ∈ sources) :
    a.markSource (numberIn nodes u) = a := by
  rw [Adjacency.markSource, h.getD_isSource (h.sources_subset hu), decide_eq_true hu, if_pos rfl]

/-- A node that is marked is a source from then on, and is counted once. -/
theorem markSource (h : a.Holds nodes sources edges) {u : String} (hu : u ∈ nodes) :
    (a.markSource (numberIn nodes u)).Holds nodes (sources ++ [u]) edges := by
  by_cases hmem : u ∈ sources
  · rw [h.markSource_of_mem hmem]
    exact h.old_source hmem
  · rw [Adjacency.markSource, h.getD_isSource hu, decide_eq_false hmem, if_neg Bool.false_ne_true]
    exact { h with
      isSource_eq := by
        rw [Array.toList_setIfInBounds, h.isSource_eq, List.set_eq_modify, numberIn,
          modify_idxOf_map _ _ _ (nodup_eraseDups nodes)]
        refine List.map_congr_left fun v _ => ?_
        grind
      sourceCount_eq := by
        rw [eraseDups_concat, if_neg hmem, List.length_append, h.sourceCount_eq]
        rfl
      sources_subset := List.append_subset.2 ⟨h.sources_subset, by simpa using hu⟩ }

theorem link_of_mem (h : a.Holds nodes sources edges) {u w : String} (he : (u, w) ∈ edges) :
    a.link (numberIn nodes u) (numberIn nodes w) = (false, a) := by
  obtain ⟨hu, hw⟩ := h.ends_mem u w he
  rw [Adjacency.link, h.contains_linked hu hw, List.contains_iff_mem.2 he, if_pos rfl]

theorem link_new (h : a.Holds nodes sources edges) {u w : String} (hu : u ∈ nodes) (hw : w ∈ nodes)
    (he : (u, w) ∉ edges) :
    (a.link (numberIn nodes u) (numberIn nodes w)).1 = true ∧
      (a.link (numberIn nodes u) (numberIn nodes w)).2.Holds nodes sources (edges ++ [(u, w)]) := by
  have hnew : a.linked.contains (numberIn nodes u, numberIn nodes w) = false := by
    rw [h.contains_linked hu hw]
    simp [he]
  simp only [Adjacency.link, hnew, if_neg Bool.false_ne_true, true_and]
  exact { h with
    outgoing_eq := by
      rw [Array.toList_modify, h.outgoing_eq, numberIn, modify_idxOf_map _ _ _ (nodup_eraseDups nodes)]
      refine List.map_congr_left fun x _ => ?_
      rw [targetsOf_concat]
      split
      · next hx =>
        subst hx
        rw [eraseDups_concat, if_neg (mt (mem_targetsOf _ _ _).1 he)]
        simp [numberIn]
      · rfl
    mem_linked := by
      intro i j
      rw [Std.HashSet.mem_insert, h.mem_linked]
      simp only [List.mem_append, List.mem_singleton, beq_iff_eq, Prod.mk.injEq]
      grind
    linked_size := by
      rw [Std.HashSet.size_insert, if_neg (by simpa using hnew), h.linked_size, eraseDups_concat,
        if_neg he, List.length_append]
      rfl
    ends_mem := h.ends_mem_edge hu hw }

/-- Two nodes that are linked have an edge from then on, and the answer is whether it is new. -/
theorem link (h : a.Holds nodes sources edges) {u w : String} (hu : u ∈ nodes) (hw : w ∈ nodes) :
    (a.link (numberIn nodes u) (numberIn nodes w)).1 = !edges.contains (u, w) ∧
      (a.link (numberIn nodes u) (numberIn nodes w)).2.Holds nodes sources (edges ++ [(u, w)]) := by
  by_cases he : (u, w) ∈ edges
  · rw [h.link_of_mem he]
    exact ⟨by simp [he], h.old_edge he⟩
  · obtain ⟨hanswer, hholds⟩ := h.link_new hu hw he
    exact ⟨by simp [hanswer, he], hholds⟩

/-- An edge that is inserted adds its ends, marks its source and links the two. -/
theorem insertEdge (h : a.Holds nodes sources edges) (u w : String) :
    (a.insertEdge u w).1 = !edges.contains (u, w) ∧
      (a.insertEdge u w).2.Holds (nodes ++ [u] ++ [w]) (sources ++ [u]) (edges ++ [(u, w)]) := by
  have hu : u ∈ nodes ++ [u] := by simp
  obtain ⟨hstart, hadded⟩ := h.addNode u
  have hmarked := hadded.markSource hu
  rw [← hstart] at hmarked
  obtain ⟨hgoal, hboth⟩ := hmarked.addNode w
  have hlinked := hboth.link (u := u) (w := w) (by simp) (by simp)
  rw [numberIn_concat hu, ← hstart, ← hgoal] at hlinked
  exact hlinked

/-! What a graph answers -/

theorem mem_nodes (h : a.Holds nodes sources edges) (v : String) :
    v ∈ a.nodes.toList ↔ v ∈ nodes := by
  rw [h.nodes_eq, List.mem_eraseDups]

theorem nodup_nodes (h : a.Holds nodes sources edges) : a.nodes.toList.Nodup := by
  rw [h.nodes_eq]
  exact nodup_eraseDups nodes

theorem hasNode_iff (h : a.Holds nodes sources edges) (v : String) :
    a.hasNode v = true ↔ v ∈ nodes := by
  rw [hasNode, Std.HashMap.contains_iff_mem, ← Std.HashMap.isSome_getElem?_iff_mem, h.numbers_eq]
  by_cases hv : v ∈ nodes <;> simp [hv]

/-- The targets of a node, found by numbers. -/
theorem targets_eq (h : a.Holds nodes sources edges) (u : String) :
    a.targets? u = if u ∈ nodes then some (targetsOf edges u).eraseDups else none := by
  rw [targets?, h.numbers_eq]
  by_cases hu : u ∈ nodes
  · simp only [if_pos hu, Option.map_some, h.getD_outgoing hu, List.map_map]
    refine congrArg some ((List.map_congr_left fun w hw => h.getD_nodes ?_).trans (List.map_id _))
    exact (h.ends_mem u w ((mem_targetsOf _ _ _).1 (List.mem_eraseDups.1 hw))).2
  · simp [hu]

/-- The targets of a name, whether it is a node or not. -/
theorem getD_targets? (h : a.Holds nodes sources edges) (u : String) :
    (a.targets? u).getD [] = (targetsOf edges u).eraseDups := by
  rw [h.targets_eq u]
  by_cases hu : u ∈ nodes
  · simp [hu]
  · simp [hu, h.targetsOf_eq_nil hu]

theorem mem_targets? (h : a.Holds nodes sources edges) (u w : String) :
    w ∈ (a.targets? u).getD [] ↔ (u, w) ∈ edges := by
  rw [h.getD_targets?, List.mem_eraseDups, mem_targetsOf]

theorem hasEdge_iff (h : a.Holds nodes sources edges) (u w : String) :
    a.hasEdge u w = true ↔ (u, w) ∈ edges := by
  rw [hasEdge, List.contains_iff_mem, h.mem_targets?]

theorem sources_eq (h : a.Holds nodes sources edges) :
    a.sources = a.nodes.toList.filter fun u => decide (u ∈ sources) :=
  filter_zipIdx a.nodes.toList [] (by rw [h.isSource_eq, List.nil_append, h.nodes_eq])

/-- The edges of some nodes, one node after the other. -/
theorem nodup_edgesFrom (h : a.Holds nodes sources edges) {from_ : List String} (hnodup : from_.Nodup) :
    (from_.flatMap fun u => ((a.targets? u).getD []).map fun w => (u, w)).Nodup := by
  rw [List.nodup_flatMap]
  refine ⟨?_, ?_⟩
  · intro u _
    rw [h.getD_targets?]
    exact (nodup_eraseDups _).map fun _ _ he => (Prod.mk.inj he).2
  · refine hnodup.imp ?_
    intro u v hne e hu hv
    obtain ⟨w, -, rfl⟩ := List.mem_map.1 hu
    obtain ⟨w', -, heq⟩ := List.mem_map.1 hv
    exact hne (Prod.mk.inj heq).1.symm

theorem mem_edgesFrom (h : a.Holds nodes sources edges) (from_ : List String) (e : String × String) :
    e ∈ (from_.flatMap fun u => ((a.targets? u).getD []).map fun w => (u, w)) ↔
      e.1 ∈ from_ ∧ e ∈ edges := by
  simp only [List.mem_flatMap, List.mem_map, h.mem_targets?]
  constructor
  · rintro ⟨u, hu, w, he, rfl⟩
    exact ⟨hu, he⟩
  · rintro ⟨hu, he⟩
    exact ⟨e.1, hu, e.2, he, rfl⟩

/-- Every edge is a target of one node. -/
theorem sum_targets (h : a.Holds nodes sources edges) :
    (a.nodes.toList.map fun u => ((a.targets? u).getD []).length).sum = a.edgeCount := by
  have hlength := length_eq_card (h.nodup_edgesFrom h.nodup_nodes) (l := edges) fun e => by
    rw [h.mem_edgesFrom, h.mem_nodes]
    exact and_iff_right_of_imp fun he => (h.ends_mem e.1 e.2 he).1
  rw [List.length_flatMap] at hlength
  simp only [List.length_map] at hlength
  rw [hlength, edgeCount, h.linked_size]
  exact (length_eq_card (nodup_eraseDups edges) fun e => List.mem_eraseDups).symm

end Holds

/-- A graph holds some nodes and some edges between them, and its sources are where edges start. -/
def Represents (a : Adjacency) (nodes : List String) (edges : List (String × String)) : Prop :=
  a.Holds nodes (edges.map (·.1)) edges

namespace Represents

variable {a : Adjacency} {nodes : List String} {edges : List (String × String)}

theorem mem_sources (h : a.Represents nodes edges) (u : String) :
    u ∈ a.sources ↔ ∃ w, (u, w) ∈ edges := by
  rw [h.sources_eq, List.mem_filter, h.mem_nodes, decide_eq_true_eq, List.mem_map]
  constructor
  · rintro ⟨-, ⟨_, w⟩, he, rfl⟩
    exact ⟨w, he⟩
  · rintro ⟨w, he⟩
    exact ⟨(h.ends_mem u w he).1, (u, w), he, rfl⟩

theorem mem_edges (h : a.Represents nodes edges) (u w : String) :
    (u, w) ∈ a.edges ↔ (u, w) ∈ edges := by
  rw [Adjacency.edges, h.mem_edgesFrom, h.mem_sources]
  exact and_iff_right_of_imp fun he => ⟨w, he⟩

/-- Every edge is listed once. -/
theorem nodup_edges (h : a.Represents nodes edges) : a.edges.Nodup := by
  refine h.nodup_edgesFrom ?_
  rw [h.sources_eq]
  exact h.nodup_nodes.filter _

end Represents

theorem represents_empty : empty.Represents [] [] := by
  constructor <;> simp [empty]

theorem represents_addEdge {a : Adjacency} {nodes : List String} {edges : List (String × String)}
    (h : a.Represents nodes edges) (u w : String) :
    (a.addEdge u w).Represents (nodes ++ [u] ++ [w]) (edges ++ [(u, w)]) := by
  rw [Represents, List.map_append]
  exact (h.insertEdge u w).2

/-- After any insertions a graph holds exactly their endpoints and their edges. -/
theorem represents_ofEdges (edges : List (String × String)) :
    (ofEdges edges).Represents (endpoints edges) edges := by
  induction edges using List.reverseRecOn with
  | nil => exact represents_empty
  | append_singleton edges e ih =>
    have h := represents_addEdge ih e.1 e.2
    simpa [ofEdges, endpoints, List.append_assoc] using h

/-- An edge that is there already adds nothing. -/
theorem addEdge_ofEdges {edges : List (String × String)} {u w : String} (h : (u, w) ∈ edges) :
    (ofEdges edges).addEdge u w = ofEdges edges := by
  have hr : (ofEdges edges).Holds (endpoints edges) (edges.map (·.1)) edges :=
    represents_ofEdges edges
  have hsource : u ∈ edges.map (·.1) := List.mem_map.2 ⟨(u, w), h, rfl⟩
  simp only [addEdge, insertEdge, hr.addNode_of_mem (source_mem_endpoints h),
    hr.markSource_of_mem hsource, hr.addNode_of_mem (target_mem_endpoints h), hr.link_of_mem h]

theorem ofEdges_append_of_subset {edges more : List (String × String)} (h : more ⊆ edges) :
    ofEdges (edges ++ more) = ofEdges edges := by
  rw [ofEdges, List.foldl_append]
  change more.foldl _ (ofEdges edges) = _
  induction more with
  | nil => rfl
  | cons e more ih =>
    obtain ⟨he, hmore⟩ := List.cons_subset.1 h
    rw [List.foldl_cons, addEdge_ofEdges he]
    exact ih hmore

end ClassAtlas.Adjacency
