import ClassAtlas.Proofs.Graph.Adjacency

/-!
What a graph answers after any insertions. Its parts are in step: numbers and nodes, targets and the
set of edges, marks and counts. Nodes, targets and sources are lists that the inserted pairs determine,
the counts are those of distinct ends and pairs, and an insertion tells whether its pair came before.
-/
namespace ClassAtlas

/-- A list has the items of some kind, each once, and in order of their places. -/
structure ListedBy {α : Type} (place : α → Nat) (kind : α → Prop) (items : List α) : Prop where
  mem_iff : ∀ x, x ∈ items ↔ kind x
  ordered : items.Pairwise fun x y => place x < place y

namespace ListedBy

variable {α : Type} {place : α → Nat} {kind : α → Prop} {items : List α}

theorem nodup (h : ListedBy place kind items) : items.Nodup := by
  refine h.ordered.imp ?_
  rintro x _ hlt rfl
  exact lt_irrefl _ hlt

/-- There is one such list. -/
theorem iff_eq (h : ListedBy place kind items) (others : List α) :
    ListedBy place kind others ↔ others = items := by
  constructor
  · intro h'
    have hperm : others.Perm items := (List.perm_ext_iff_of_nodup h'.nodup h.nodup).2 fun x =>
      (h'.mem_iff x).trans (h.mem_iff x).symm
    exact hperm.eq_of_pairwise (fun x y _ _ hlt hgt => absurd hlt (lt_asymm hgt)) h'.ordered
      h.ordered
  · rintro rfl
    exact h

end ListedBy

namespace Adjacency

/-- The parts of a graph say the same: numbers and nodes, the set of edges and the targets of each
node, the marks of the sources and where edges start, and the counts. -/
structure InStep (a : Adjacency) : Prop where
  numbers_iff : ∀ (v : String) (i : Nat), a.numbers[v]? = some i ↔ a.nodes[i]? = some v
  outgoing_size : a.outgoing.size = a.nodes.size
  isSource_size : a.isSource.size = a.nodes.size
  linked_iff : ∀ i j, (i, j) ∈ a.linked ↔ j ∈ a.outgoing.getD i #[]
  linked_lt : ∀ i j, (i, j) ∈ a.linked → i < a.nodes.size ∧ j < a.nodes.size
  linked_size : a.linked.size = (a.outgoing.toList.map Array.size).sum
  isSource_iff : ∀ i, a.isSource.getD i false = true ↔ ∃ j, (i, j) ∈ a.linked
  sourceCount_eq : a.sourceCount = a.sources.length

namespace Represents

variable {a : Adjacency} {nodes : List String} {edges : List (String × String)}

theorem getElem?_nodes (h : a.Represents nodes edges) (i : Nat) (v : String) :
    a.nodes[i]? = some v ↔ v ∈ nodes ∧ numberIn nodes v = i := by
  rw [← Array.getElem?_toList, h.nodes_eq]
  constructor
  · intro hv
    obtain ⟨hi, rfl⟩ := List.getElem?_eq_some_iff.1 hv
    exact ⟨List.mem_eraseDups.1 (List.getElem_mem hi), (nodup_eraseDups nodes).idxOf_getElem i hi⟩
  · rintro ⟨hv, rfl⟩
    exact List.getElem?_idxOf (List.mem_eraseDups.2 hv)

theorem exists_of_lt (h : a.Represents nodes edges) {i : Nat} (hi : i < a.nodes.size) :
    ∃ u ∈ nodes, numberIn nodes u = i := by
  exact ⟨_, (h.getElem?_nodes i _).1 (Array.getElem?_eq_getElem hi)⟩

theorem numberIn_lt (h : a.Represents nodes edges) {u : String} (hu : u ∈ nodes) :
    numberIn nodes u < a.nodes.size := by
  rw [h.size_nodes]
  exact List.idxOf_lt_length_of_mem (List.mem_eraseDups.2 hu)

theorem outgoing_size (h : a.Represents nodes edges) : a.outgoing.size = a.nodes.size := by
  rw [← Array.length_toList, h.outgoing_eq, List.length_map, h.size_nodes]

theorem isSource_size (h : a.Represents nodes edges) : a.isSource.size = a.nodes.size := by
  rw [← Array.length_toList, h.isSource_eq, List.length_map, h.size_nodes]

/-- The set of edges has what the lists of targets have. -/
theorem mem_linked_iff (h : a.Represents nodes edges) (i j : Nat) :
    (i, j) ∈ a.linked ↔ j ∈ a.outgoing.getD i #[] := by
  rw [h.mem_linked]
  constructor
  · rintro ⟨⟨u, w⟩, he, rfl, rfl⟩
    rw [h.getD_outgoing (h.ends_mem u w he).1, List.mem_toArray]
    exact List.mem_map_of_mem (List.mem_eraseDups.2 ((mem_targetsOf _ _ _).2 he))
  · intro hj
    have hi : i < a.outgoing.size := by
      by_contra hge
      simp [Array.getD, hge] at hj
    obtain ⟨u, hu, rfl⟩ := h.exists_of_lt (h.outgoing_size ▸ hi)
    rw [h.getD_outgoing hu, List.mem_toArray] at hj
    obtain ⟨w, hw, rfl⟩ := List.mem_map.1 hj
    exact ⟨(u, w), (mem_targetsOf _ _ _).1 (List.mem_eraseDups.1 hw), rfl, rfl⟩

/-- The marked nodes are those at which an edge starts. -/
theorem isSource_iff (h : a.Represents nodes edges) (i : Nat) :
    a.isSource.getD i false = true ↔ ∃ j, (i, j) ∈ a.linked := by
  constructor
  · intro hmark
    have hi : i < a.isSource.size := by
      by_contra hge
      simp [Array.getD, hge] at hmark
    obtain ⟨u, hu, rfl⟩ := h.exists_of_lt (h.isSource_size ▸ hi)
    rw [h.getD_isSource hu, decide_eq_true_eq] at hmark
    obtain ⟨e, he, rfl⟩ := List.mem_map.1 hmark
    exact ⟨_, (h.mem_linked _ _).2 ⟨e, he, rfl, rfl⟩⟩
  · rintro ⟨j, hij⟩
    obtain ⟨e, he, rfl, rfl⟩ := (h.mem_linked i j).1 hij
    rw [h.getD_isSource (h.ends_mem e.1 e.2 he).1, decide_eq_true_eq]
    exact List.mem_map_of_mem he

/-- Insertions keep all parts in step. -/
theorem inStep (h : a.Represents nodes edges) : a.InStep where
  numbers_iff v i := by
    rw [h.getElem?_nodes, h.numbers_eq]
    by_cases hv : v ∈ nodes <;> simp [hv]
  outgoing_size := h.outgoing_size
  isSource_size := h.isSource_size
  linked_iff := h.mem_linked_iff
  linked_lt i j hij := by
    obtain ⟨⟨u, w⟩, he, rfl, rfl⟩ := (h.mem_linked i j).1 hij
    exact ⟨h.numberIn_lt (h.ends_mem u w he).1, h.numberIn_lt (h.ends_mem u w he).2⟩
  linked_size := by
    refine h.sum_targets.symm.trans ?_
    rw [h.outgoing_eq, List.map_map, h.nodes_eq]
    refine congrArg List.sum (List.map_congr_left fun u _ => ?_)
    simp [h.getD_targets?]
  isSource_iff := h.isSource_iff
  sourceCount_eq := by
    have hnodup : a.sources.Nodup := by
      rw [h.sources_eq]
      exact h.nodup_nodes.filter _
    rw [h.sourceCount_eq, length_eq_card (nodup_eraseDups _) fun v => List.mem_eraseDups,
      length_eq_card hnodup fun v => ?_]
    rw [h.mem_sources]
    simp

/-! What is listed and counted -/

theorem nodeCount_eq (h : a.Represents nodes edges) : a.nodeCount = nodes.toFinset.card := by
  rw [nodeCount, ← Array.length_toList]
  exact length_eq_card h.nodup_nodes h.mem_nodes

theorem edgeCount_eq (h : a.Represents nodes edges) : a.edgeCount = edges.toFinset.card := by
  rw [edgeCount, h.linked_size]
  exact length_eq_card (nodup_eraseDups edges) fun e => List.mem_eraseDups

theorem sources_eq_filter (h : a.Represents nodes edges) :
    a.sources = a.nodes.toList.filter fun v => edges.any (·.1 = v) := by
  rw [h.sources_eq]
  refine List.filter_congr fun v _ => ?_
  rw [Bool.eq_iff_iff]
  simp

theorem nodes_listed (h : a.Represents nodes edges) :
    ListedBy nodes.idxOf (· ∈ nodes) a.nodes.toList := by
  rw [h.nodes_eq]
  exact ⟨fun _ => List.mem_eraseDups, pairwise_idxOf_eraseDups nodes⟩

theorem targets_listed (h : a.Represents nodes edges) (u : String) :
    ListedBy (fun v => edges.idxOf (u, v)) (fun v => (u, v) ∈ edges) ((a.targets? u).getD []) := by
  rw [h.getD_targets?]
  refine ⟨fun v => ?_, pairwise_targets edges u⟩
  rw [List.mem_eraseDups, mem_targetsOf]

theorem targets?_eq_none (h : a.Represents nodes edges) (u : String) :
    a.targets? u = none ↔ u ∉ nodes := by
  rw [h.targets_eq]
  by_cases hu : u ∈ nodes <;> simp [hu]

end Represents

/-- One insertion: the answer is whether the pair is new, and the graph has the pair. -/
theorem insertEdge_ofEdges (earlier : List (String × String)) (e : String × String) :
    (ofEdges earlier).insertEdge e.1 e.2 = (!earlier.contains e, ofEdges (earlier ++ [e])) := by
  refine Prod.ext ((represents_ofEdges earlier).insertEdge e.1 e.2).1 ?_
  rw [ofEdges, ofEdges, List.foldl_concat]
  rfl

/-- All insertions: each is answered by the pairs before it. -/
theorem insertEdges_ofEdges (earlier edges : List (String × String)) :
    (ofEdges earlier).insertEdges edges =
      (edges.mapIdx fun i e => !(earlier ++ edges.take i).contains e, ofEdges (earlier ++ edges)) := by
  induction edges generalizing earlier with
  | nil => simp [insertEdges]
  | cons e edges ih =>
    simp only [insertEdges, insertEdge_ofEdges, ih, List.mapIdx_cons, List.take_zero,
      List.append_nil, List.take_succ_cons, List.append_assoc, List.singleton_append]

/-- A graph represents the pairs that were inserted, whatever they are, and its parts are in step. Its
nodes are the ends of the pairs as they first occur, the source of a pair before its target; the
targets of a node are those of its pairs as these first occur, and only a name that never occurred has
none to ask for; its sources are the nodes with a pair that starts there. It counts distinct ends and
distinct pairs. An insertion is answered by whether its pair came earlier. -/
theorem insertions_are_represented (edges : List (String × String)) :
    ∃ a, empty.insertEdges edges = (edges.mapIdx fun i e => !(edges.take i).contains e, a) ∧
      a.InStep ∧
      (∀ nodes, ListedBy (endpoints edges).idxOf (· ∈ endpoints edges) nodes ↔
        nodes = a.nodes.toList) ∧
      (∀ u, (a.hasNode u = true ↔ u ∈ endpoints edges) ∧
        (a.targets? u = none ↔ u ∉ endpoints edges) ∧
        ∀ targets, ListedBy (fun v => edges.idxOf (u, v)) (fun v => (u, v) ∈ edges) targets ↔
          targets = (a.targets? u).getD []) ∧
      a.sources = a.nodes.toList.filter (fun v => edges.any (·.1 = v)) ∧
      a.nodeCount = (endpoints edges).toFinset.card ∧ a.edgeCount = edges.toFinset.card := by
  have h := represents_ofEdges edges
  refine ⟨ofEdges edges, insertEdges_ofEdges [] edges, h.inStep, h.nodes_listed.iff_eq, ?_,
    h.sources_eq_filter, h.nodeCount_eq, h.edgeCount_eq⟩
  intro u
  exact ⟨h.hasNode_iff u, h.targets?_eq_none u, (h.targets_listed u).iff_eq⟩

end Adjacency
end ClassAtlas
