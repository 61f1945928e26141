import ClassAtlas.Proofs.Graph.Search

/-!
The search keeps its invariant from step to step, and each step uses up an edge or a node, so it
ends with every node closed. What it has closed by then are the classes of mutual reachability.
-/
namespace ClassAtlas.Components

open Adjacency (Reaches Represents endpoints)

variable {a : Adjacency} {nodes : List String} {edges : List (String × String)} {s : Search}
  {path : List Frame} {v w : String}

theorem mem_pending_frameOf (ha : a.Represents nodes edges) (v w : String) :
    w ∈ (frameOf a v).pending ↔ (v, w) ∈ edges := ha.mem_targets? v w

@[simp] theorem Search.index_finish (s : Search) (v : String) : (s.finish v).index = s.index := by
  unfold Search.finish
  split <;> rfl

namespace Explored

/-- The next edge of a node of the path is settled and need not be looked at again. -/
theorem advance (front : List Frame) {pending : List String}
    (h : Explored edges (front ++ ⟨v, w :: pending⟩ :: path) s) (hw : s.Settled v w) :
    Explored edges (front ++ ⟨v, pending⟩ :: path) s := by
  intro u hu x he
  rcases h u hu x he with hs | ⟨f, hf, rfl, hx⟩
  · exact .inl hs
  · simp only [List.mem_append, List.mem_cons] at hf
    rcases hf with hf | rfl | hf
    · exact .inr ⟨f, by simp [hf], rfl, hx⟩
    · rcases List.mem_cons.1 hx with rfl | hx
      · exact .inl hw
      · exact .inr ⟨⟨v, pending⟩, by simp, rfl, hx⟩
    · exact .inr ⟨f, by simp [hf], rfl, hx⟩

theorem discover (ha : a.Represents nodes edges) (h : Explored edges path s) (hv : v ∉ s.index)
    (hmem : ∀ u ∈ s.stack, u ∈ s.index) :
    Explored edges (frameOf a v :: path) (s.discover v) := by
  have hne : ∀ u ∈ s.stack, v ≠ u := by
    rintro u hu rfl
    exact hv (hmem v hu)
  intro u hu x he
  rcases List.mem_cons.1 hu with rfl | hu
  · exact .inr ⟨_, List.mem_cons_self, rfl, (mem_pending_frameOf ha u x).2 he⟩
  · rcases h u hu x he with (hx | ⟨hx, hle⟩) | ⟨f, hf, hfu, hx⟩
    · exact .inl (.inl hx)
    · refine .inl (.inr ⟨List.mem_cons_of_mem _ hx, ?_⟩)
      rw [Search.lowOf_discover, Search.indexOf_discover, if_neg (hne u hu), if_neg (hne x hx)]
      exact hle
    · exact .inr ⟨f, List.mem_cons_of_mem _ hf, hfu, hx⟩

theorem lower (h : Explored edges path s) (v : String) (bound : Nat) :
    Explored edges path (s.lower v bound) := by
  have hle : ∀ u, (s.lower v bound).lowOf u ≤ s.lowOf u := by
    intro u
    rw [Search.lowOf_lower]
    split
    · next hu => subst hu; omega
    · exact Nat.le_refl _
  intro u hu x he
  rw [Search.stack_lower] at hu
  refine (h u hu x he).imp_left ?_
  rintro (hx | ⟨hx, hlow⟩)
  · exact .inl (by simpa using hx)
  · refine .inr ⟨by simpa using hx, ?_⟩
    have := hle u
    simp only [Search.indexOf_lower]
    omega

theorem pop (h : Explored edges (⟨v, []⟩ :: path) s) : Explored edges path s := by
  intro u hu x he
  refine (h u hu x he).imp_right ?_
  rintro ⟨f, hf, hfu, hx⟩
  rcases List.mem_cons.1 hf with rfl | hf
  · simp at hx
  · exact ⟨f, hf, hfu, hx⟩

theorem close {above rest : List String} (h : Explored edges path s)
    (hc : Closes edges s above v rest) : Explored edges path (s.close v) := by
  have hstack := Search.stack_close hc.stack_eq hc.not_mem
  intro u hu x he
  rw [hstack] at hu
  refine (h u (by rw [hc.stack_eq]; simp [hu]) x he).imp_left ?_
  rintro (hx | ⟨hx, hle⟩)
  · exact .inl ((Search.mem_ids_close hc.stack_eq hc.not_mem x).2 (.inr hx))
  · by_cases hm : x ∈ above ++ [v]
    · exact .inl ((Search.mem_ids_close hc.stack_eq hc.not_mem x).2 (.inl hm))
    · refine .inr ⟨?_, hle⟩
      rw [hstack]
      rw [hc.stack_eq] at hx
      simp_all

end Explored

/-- A search under way: the invariant, what is still to be looked at, and where nodes come from. -/
structure Running (edges : List (String × String)) (path : List Frame) (s : Search) : Prop where
  invariant : Invariant edges (path.map Frame.node) s
  explored : Explored edges path s
  pending_edge : ∀ f ∈ path, ∀ w ∈ f.pending, (f.node, w) ∈ edges
  known : ∀ v ∈ s.index, v ∈ endpoints edges

namespace Running

theorem start (edges : List (String × String)) : Running edges [] .start := by
  refine ⟨⟨?_, ?_, ?_, ?_, ?_, ?_, ?_, ?_⟩, ?_, ?_, ?_⟩
  case refine_8 => constructor <;> simp [Search.start, Components.empty, componentOf?]
  all_goals simp [Search.start, Components.empty, Layered, Explored]

/-- Nothing is open once the path is empty. -/
theorem stack_eq_nil (h : Running edges [] s) : s.stack = [] := h.invariant.layered

theorem discover (ha : a.Represents nodes edges) (h : Running edges path s) (hv : v ∉ s.index)
    (hr : ∀ f ∈ path, Reaches edges f.node v) (hk : v ∈ endpoints edges) :
    Running edges (frameOf a v :: path) (s.discover v) := by
  refine ⟨?_, ?_, ?_, ?_⟩
  · refine h.invariant.discover hv ?_
    intro p hp
    obtain ⟨f, hf, rfl⟩ := List.mem_map.1 hp
    exact hr f hf
  · exact h.explored.discover ha hv fun u => h.invariant.mem_index_of_mem
  · intro f hf x hx
    rcases List.mem_cons.1 hf with rfl | hf
    · exact (mem_pending_frameOf ha v x).1 hx
    · exact h.pending_edge f hf x hx
  · intro u hu
    rcases (Search.mem_index_discover s v u).1 hu with rfl | hu
    · exact hk
    · exact h.known u hu

theorem advance (front : List Frame) {pending : List String}
    (h : Running edges (front ++ ⟨v, w :: pending⟩ :: path) s) (hw : s.Settled v w) :
    Running edges (front ++ ⟨v, pending⟩ :: path) s := by
  refine ⟨by simpa using h.invariant, h.explored.advance front hw, ?_, h.known⟩
  intro f hf x hx
  simp only [List.mem_append, List.mem_cons] at hf
  rcases hf with hf | rfl | hf
  · exact h.pending_edge f (by simp [hf]) x hx
  · exact h.pending_edge ⟨v, w :: pending⟩ (by simp) x (List.mem_cons_of_mem _ hx)
  · exact h.pending_edge f (by simp [hf]) x hx

theorem lower (h : Running edges path s) {f : Frame} (hf : f ∈ path) {bound : Nat}
    (hb : ∃ w ∈ s.stack, s.indexOf w = bound ∧ Reaches edges f.node w) :
    Running edges path (s.lower f.node bound) := by
  refine ⟨?_, h.explored.lower f.node bound, h.pending_edge, by simpa using h.known⟩
  exact h.invariant.lower (List.mem_map_of_mem hf) hb

/-- A node that is left and knows of none before itself closes with its layer. -/
theorem closes (h : Running edges (⟨v, []⟩ :: path) s) (hv : s.lowOf v = s.indexOf v) :
    ∃ above rest, Closes edges s above v rest ∧
      Layered edges s.lowOf s.indexOf (path.map Frame.node) rest := by
  have hset : ∀ u ∈ s.stack, u ∉ path.map Frame.node → ∀ w, (u, w) ∈ edges → s.Settled u w := by
    intro u hu hup w he
    rcases h.explored.pop u hu w he with hs | ⟨f, hf, rfl, -⟩
    · exact hs
    · exact absurd (List.mem_map_of_mem hf) hup
  exact h.invariant.closes hv hset

/-- Leave a node that knows of none before itself. -/
theorem close (h : Running edges (⟨v, []⟩ :: path) s) (hv : s.lowOf v = s.indexOf v) :
    Running edges path (s.close v) := by
  obtain ⟨above, rest, hc, hl⟩ := h.closes hv
  refine ⟨h.invariant.close hc hl, h.explored.pop.close hc, ?_, h.known⟩
  intro f hf
  exact h.pending_edge f (List.mem_cons_of_mem _ hf)

/-- Leave a node that knows of an earlier one, which the node before it on the path knows too. -/
theorem pop {f : Frame} (h : Running edges (⟨v, []⟩ :: f :: path) s)
    (hf : s.lowOf f.node ≤ s.lowOf v) (hv : s.lowOf v ≠ s.indexOf v) :
    Running edges (f :: path) s := by
  have hvs : v ∈ s.stack := h.invariant.layered.mem_stack (by simp)
  have hlt : s.lowOf v < s.indexOf v := lt_of_le_of_ne (h.invariant.low_le v hvs) hv
  refine ⟨h.invariant.pop hf hlt, h.explored.pop, ?_, h.known⟩
  intro g hg
  exact h.pending_edge g (List.mem_cons_of_mem _ hg)

theorem finish {f : Frame} (h : Running edges (⟨v, []⟩ :: f :: path) s)
    (hf : s.lowOf f.node ≤ s.lowOf v) : Running edges (f :: path) (s.finish v) := by
  unfold Search.finish
  split
  · next hv => exact h.close hv
  · next hv => exact h.pop hf hv

/-- Before a node is left, the node before it on the path learns what it knows. -/
theorem passUp {f : Frame} (h : Running edges (⟨v, []⟩ :: f :: path) s) :
    Running edges (⟨v, []⟩ :: f :: path) (s.lower f.node (s.lowOf v)) := by
  have hvs : v ∈ s.stack := h.invariant.layered.mem_stack (by simp)
  have hfv : Reaches edges f.node v := h.invariant.reaches_last (by simp)
  obtain ⟨w, hw, he, hr⟩ := h.invariant.low_reached v hvs
  exact h.lower (f := f) (by simp) ⟨w, hw, he, hfv.trans hr⟩

/-- Every step keeps the search running as it should. -/
theorem step (ha : a.Represents nodes edges) (h : Running edges path s) :
    Running edges (step a path s).1 (step a path s).2 := by
  fun_cases Components.step a path s with
  | case1 s => exact h
  | case2 v w pending path s hw =>
    have hvs : v ∈ s.stack := h.invariant.layered.mem_stack (by simp)
    have hvw : (v, w) ∈ edges := h.pending_edge ⟨v, w :: pending⟩ (by simp) w (by simp)
    have hwi : w ∉ s.index := by
      rw [← Search.isDiscovered_iff]
      simpa using hw
    have hreach : ∀ f ∈ ⟨v, w :: pending⟩ :: path, Reaches edges f.node w := by
      intro f hf
      exact (h.invariant.reaches_last (List.mem_map_of_mem hf)).trans (.single hvw)
    have hd := h.discover ha hwi hreach (Adjacency.target_mem_endpoints hvw)
    refine hd.advance [frameOf a w] (.inr ⟨List.mem_cons_self, ?_⟩)
    -- the new node has the greatest number so far
    have hvi := h.invariant.mem_index_of_mem hvs
    have hlow := h.invariant.low_le v hvs
    have hlt := h.invariant.index_lt v hvi
    rw [Search.lowOf_discover, Search.indexOf_discover, if_pos rfl,
      if_neg (ne_of_mem_of_not_mem hvi hwi).symm]
    omega
  | case3 v w pending path s hw hopen =>
    have hws := (h.invariant.isOpen_iff w).1 hopen
    have hvw : (v, w) ∈ edges := h.pending_edge ⟨v, w :: pending⟩ (by simp) w (by simp)
    have hl := h.lower (f := ⟨v, w :: pending⟩) (by simp) ⟨w, hws, rfl, .single hvw⟩
    refine hl.advance [] (.inr ⟨by simpa using hws, ?_⟩)
    simp [Search.lowOf_lower]
  | case4 v w pending path s hw hopen =>
    have hwi : w ∈ s.index := by
      rw [← Search.isDiscovered_iff]
      simpa using hw
    have hws := mt (h.invariant.isOpen_iff w).2 hopen
    exact h.advance [] (.inl (((h.invariant.mem_index w).1 hwi).resolve_left hws))
  | case5 v s =>
    have hv := h.invariant.low_root
    simp only [Search.finish, if_pos hv]
    exact h.close hv
  | case6 v f path s =>
    refine h.passUp.finish ?_
    have hne : f.node ≠ v := by
      have hn := h.invariant.nodup
      obtain ⟨above, rest, hs, -, -, hrest⟩ := h.invariant.layered
      rw [hs, List.nodup_append, List.nodup_cons] at hn
      exact ne_of_mem_of_not_mem (hrest.mem_stack (by simp)) hn.2.1.1
    rw [Search.lowOf_lower, Search.lowOf_lower, if_pos rfl, if_neg hne]
    exact Nat.min_le_left _ _

end Running

theorem mem_index_step (a : Adjacency) (path : List Frame) (s : Search) (h : v ∈ s.index) :
    v ∈ (step a path s).2.index := by
  fun_cases step a path s with
  | case1 s => exact h
  | case2 u w pending path s hw => exact (Search.mem_index_discover s w v).2 (.inr h)
  | case3 u w pending path s hw hopen => simpa using h
  | case4 u w pending path s hw hopen => exact h
  | case5 u s => simpa using h
  | case6 u f path s => simpa using h

/-- The edges to look at and the nodes to leave once a node is discovered. -/
def cost (a : Adjacency) (v : String) : Nat := (frameOf a v).pending.length + 1

/-- How many steps are left: for each node of the path and each node not yet discovered. -/
def work (a : Adjacency) (path : List Frame) (s : Search) : Nat :=
  (path.map fun f => f.pending.length + 1).sum +
    ((a.nodes.toList.filter (!s.isDiscovered ·)).map (cost a)).sum

/-- Discovering a node moves its cost from the undiscovered nodes to the path. -/
theorem work_discover (ha : a.Represents nodes edges) (hv : v ∈ nodes) (hi : v ∉ s.index) :
    work a (frameOf a v :: path) (s.discover v) = work a path s := by
  have hnew : a.nodes.toList.filter (!(s.discover v).isDiscovered ·) =
      (a.nodes.toList.filter (!s.isDiscovered ·)).erase v := by
    rw [(ha.nodup_nodes.filter _).erase_eq_filter, List.filter_filter]
    refine List.filter_congr ?_
    intro u _
    rw [Bool.eq_iff_iff]
    simp only [Bool.not_eq_true', ← Bool.not_eq_true, Search.isDiscovered_iff,
      Search.mem_index_discover, Bool.and_eq_true, bne_iff_ne]
    grind
  have hmem : v ∈ a.nodes.toList.filter (!s.isDiscovered ·) := by
    simp only [List.mem_filter, ha.mem_nodes, hv, true_and, Bool.not_eq_true', ← Bool.not_eq_true,
      Search.isDiscovered_iff]
    exact hi
  have hsum := List.sum_map_erase (cost a) hmem
  simp only [work, hnew, List.map_cons, List.sum_cons]
  simp only [cost] at hsum ⊢
  omega

/-- Each step does one piece of the work. -/
theorem work_step (ha : a.Represents (endpoints edges) edges) {f : Frame}
    (h : Running edges (f :: path) s) :
    work a (step a (f :: path) s).1 (step a (f :: path) s).2 + 1 = work a (f :: path) s := by
  have hsame : ∀ (t : Search), t.index = s.index → ∀ path, work a path t = work a path s := by
    intro t ht path
    simp only [work, Search.isDiscovered, ht]
  obtain ⟨v, pending⟩ := f
  cases pending with
  | nil =>
    cases path with
    | nil =>
      simp only [step]
      rw [hsame _ (s.index_finish v)]
      simp only [work, List.map_cons, List.sum_cons, List.length_nil]
      omega
    | cons p path =>
      simp only [step]
      rw [hsame _ (by simp)]
      simp only [work, List.map_cons, List.sum_cons, List.length_nil]
      omega
  | cons w pending =>
    have hshorter : work a (⟨v, pending⟩ :: path) s + 1 = work a (⟨v, w :: pending⟩ :: path) s := by
      simp only [work, List.map_cons, List.sum_cons, List.length_cons]
      omega
    have hvw : (v, w) ∈ edges := h.pending_edge ⟨v, w :: pending⟩ (by simp) w (by simp)
    simp only [step]
    split
    · next hw =>
      have hwi : w ∉ s.index := by
        rw [← Search.isDiscovered_iff]
        simpa using hw
      rw [work_discover ha (Adjacency.target_mem_endpoints hvw) hwi, hshorter]
    · split
      · rw [hsame _ (Search.index_lower _ _ _), hshorter]
      · exact hshorter

/-- With fuel for all of its work a search ends with an empty path. -/
theorem run_ends (ha : a.Represents (endpoints edges) edges) {fuel : Nat}
    (h : Running edges path s) (hf : work a path s ≤ fuel) :
    Running edges [] (run a fuel path s) ∧ ∀ v ∈ s.index, v ∈ (run a fuel path s).index := by
  induction fuel generalizing path s with
  | zero =>
    cases path with
    | nil => exact ⟨h, fun v hv => hv⟩
    | cons f path =>
      simp only [work, List.map_cons, List.sum_cons] at hf
      omega
  | succ fuel ih =>
    cases path with
    | nil => exact ⟨h, fun v hv => hv⟩
    | cons f path =>
      have hw := work_step ha h
      obtain ⟨hrun, hindex⟩ := ih (h.step ha) (by omega)
      exact ⟨hrun, fun v hv => hindex v (mem_index_step a _ s hv)⟩

/-- A graph has no more work than nodes and edges. -/
theorem work_nil_le (ha : a.Represents nodes edges) (s : Search) :
    work a [] s ≤ a.nodeCount + a.edgeCount := by
  have hsub : ((a.nodes.toList.filter (!s.isDiscovered ·)).map (cost a)).sum ≤
      (a.nodes.toList.map (cost a)).sum :=
    (List.filter_sublist.map _).sum_le_sum fun _ _ => Nat.zero_le _
  have hall : (a.nodes.toList.map (cost a)).sum = a.edgeCount + a.nodeCount := by
    have hcost : cost a = fun v => ((a.targets? v).getD []).length + 1 := rfl
    rw [hcost, List.sum_map_add, ha.sum_targets]
    simp [Adjacency.nodeCount]
  simp only [work, List.map_nil, List.sum_nil]
  omega

/-- One search finds its root and keeps what was found before. -/
theorem searchFrom_ends (ha : a.Represents (endpoints edges) edges) {fuel : Nat}
    (hf : a.nodeCount + a.edgeCount ≤ fuel) (h : Running edges [] s) (hv : v ∈ endpoints edges) :
    Running edges [] (searchFrom a fuel s v) ∧ v ∈ (searchFrom a fuel s v).index ∧
      ∀ u ∈ s.index, u ∈ (searchFrom a fuel s v).index := by
  unfold searchFrom
  split
  · next hd => exact ⟨h, (Search.isDiscovered_iff s v).1 hd, fun u hu => hu⟩
  · next hd =>
    rw [Search.isDiscovered_iff] at hd
    have hwork := work_nil_le ha s
    have hstart := h.discover ha hd (by simp) hv
    obtain ⟨hrun, hindex⟩ := run_ends ha hstart
      (show work a [frameOf a v] (s.discover v) ≤ fuel by rw [work_discover ha hv hd]; omega)
    refine ⟨hrun, hindex v ((Search.mem_index_discover s v v).2 (.inl rfl)), ?_⟩
    intro u hu
    exact hindex u ((Search.mem_index_discover s v u).2 (.inr hu))

theorem searches_end (ha : a.Represents (endpoints edges) edges) {fuel : Nat}
    (hf : a.nodeCount + a.edgeCount ≤ fuel) {roots : List String}
    (hr : ∀ v ∈ roots, v ∈ endpoints edges) (h : Running edges [] s) :
    Running edges [] (roots.foldl (searchFrom a fuel) s) ∧
      ∀ v, v ∈ s.index ∨ v ∈ roots → v ∈ (roots.foldl (searchFrom a fuel) s).index := by
  induction roots generalizing s with
  | nil => exact ⟨h, fun v hv => by simpa using hv⟩
  | cons r roots ih =>
    obtain ⟨hrun, hroot, hkeep⟩ := searchFrom_ends ha hf h (hr r (by simp))
    obtain ⟨hend, hindex⟩ := ih (fun v hv => hr v (by simp [hv])) hrun
    refine ⟨hend, ?_⟩
    rintro v (hv | hv)
    · exact hindex v (.inl (hkeep v hv))
    · rcases List.mem_cons.1 hv with rfl | hv
      · exact hindex v (.inl hroot)
      · exact hindex v (.inr hv)

/-- All searches of a graph, one after the other. -/
def searched (a : Adjacency) : Search :=
  a.sources.foldl (searchFrom a (a.nodeCount + a.edgeCount + 1)) .start

/-- The last pass places no node if every node is in a component already. -/
theorem foldl_placeAlone (placed : Std.TreeMap String Nat × Nat)
    (h : ∀ v ∈ a.nodes.toList, v ∈ placed.1) : a.nodes.foldl placeAlone placed = placed := by
  have hfold : ∀ l : List String, (∀ v ∈ l, v ∈ placed.1) → l.foldl placeAlone placed = placed := by
    intro l hl
    induction l with
    | nil => rfl
    | cons v l ih =>
      have hv := Std.TreeMap.contains_iff_mem.2 (hl v (by simp))
      rw [List.foldl_cons, placeAlone, if_pos hv]
      exact ih fun u hu => hl u (by simp [hu])
  rw [← Array.foldl_toList]
  exact hfold a.nodes.toList h

theorem compute_eq (h : ∀ v ∈ a.nodes.toList, v ∈ (searched a).found.ids) :
    compute a = (searched a).found :=
  congrArg (fun p => { (searched a).found with ids := p.1 })
    (foldl_placeAlone ((searched a).found.ids, (searched a).closed) h)

theorem sources_known (edges : List (String × String)) :
    ∀ v ∈ (Adjacency.ofEdges edges).sources, v ∈ endpoints edges := by
  intro v hv
  obtain ⟨w, hw⟩ := ((Adjacency.represents_ofEdges edges).mem_sources v).1 hv
  exact Adjacency.source_mem_endpoints hw

/-- The searches of a graph end with a component for every node. -/
theorem searched_ends (edges : List (String × String)) :
    Running edges [] (searched (.ofEdges edges)) ∧
      ∀ v, v ∈ (searched (.ofEdges edges)).found.ids ↔ v ∈ endpoints edges := by
  have ha := Adjacency.represents_ofEdges edges
  obtain ⟨hend, hindex⟩ := searches_end ha (Nat.le_succ _) (sources_known edges) (.start edges)
  change Running edges [] (searched _) at hend
  change ∀ v, _ → v ∈ (searched _).index at hindex
  have hclosed : ∀ v, v ∈ (searched (.ofEdges edges)).index ↔
      v ∈ (searched (.ofEdges edges)).found.ids := by
    intro v
    rw [hend.invariant.mem_index, hend.stack_eq_nil]
    simp
  have hsource : ∀ u w, (u, w) ∈ edges → u ∈ (searched (.ofEdges edges)).found.ids := by
    intro u w hw
    exact (hclosed u).1 (hindex u (.inr ((ha.mem_sources u).2 ⟨w, hw⟩)))
  refine ⟨hend, fun v => ⟨fun hv => hend.known v ((hclosed v).2 hv), fun hv => ?_⟩⟩
  rcases (Adjacency.mem_endpoints edges v).1 hv with ⟨w, hw⟩ | ⟨u, hu⟩
  · exact hsource v w hw
  · exact hend.invariant.correct.out u v (hsource u v hu) hu

theorem mem_searched (edges : List (String × String)) :
    ∀ v ∈ (Adjacency.ofEdges edges).nodes.toList, v ∈ (searched (.ofEdges edges)).found.ids := by
  intro v hv
  exact ((searched_ends edges).2 v).2 (((Adjacency.represents_ofEdges edges).mem_nodes v).1 hv)

/-- The components of a graph are right, and its nodes are the nodes that have one. -/
theorem compute_ofEdges (edges : List (String × String)) :
    (∃ n, (compute (.ofEdges edges)).Correct edges n) ∧
      ∀ v, v ∈ (compute (.ofEdges edges)).ids ↔ v ∈ endpoints edges := by
  obtain ⟨hend, hids⟩ := searched_ends edges
  rw [compute_eq (mem_searched edges)]
  exact ⟨⟨_, hend.invariant.correct⟩, hids⟩

/-- The nodes in the component of a node. -/
def members (c : Components) (v : String) : List String :=
  c.ids.keys.filter fun u => c.componentOf? u = c.componentOf? v

theorem mem_members (c : Components) (u v : String) :
    u ∈ c.members v ↔ ∃ id, c.componentOf? u = some id ∧ c.componentOf? v = some id := by
  simp only [members, List.mem_filter, Std.TreeMap.mem_keys, mem_ids_iff, decide_eq_true_eq]
  grind

theorem two_le_members (c : Components) (v : String) :
    2 ≤ (c.members v).length ↔ ∃ u w, u ≠ w ∧ u ∈ c.members v ∧ w ∈ c.members v := by
  have hn : (c.members v).Nodup := Std.TreeMap.nodup_keys.filter _
  rw [← List.toFinset_card_of_nodup hn]
  change 1 < _ ↔ _
  rw [Finset.one_lt_card]
  simp only [List.mem_toFinset]
  grind

/-- The components of a graph are the classes of mutual reachability along its edges: the nodes that
have one are the endpoints of edges, two nodes share one exactly if each leads to the other, and it
counts as cyclic exactly if it has two members or more. -/
theorem compute_eq_mutual_reachability (edges : List (String × String)) :
    (∀ v, (∃ id, (compute (.ofEdges edges)).componentOf? v = some id) ↔ v ∈ endpoints edges) ∧
    (∀ u v, (∃ id, (compute (.ofEdges edges)).componentOf? u = some id ∧
        (compute (.ofEdges edges)).componentOf? v = some id) ↔
      u ∈ endpoints edges ∧ Reaches edges u v ∧ Reaches edges v u) ∧
    ∀ v, (compute (.ofEdges edges)).isCyclic v = true ↔
      2 ≤ ((compute (.ofEdges edges)).members v).length := by
  obtain ⟨⟨n, hc⟩, hids⟩ := compute_ofEdges edges
  simp only [mem_ids_iff] at hids
  generalize compute (.ofEdges edges) = c at hc hids
  refine ⟨hids, ?_, ?_⟩
  · intro u v
    constructor
    · rintro ⟨id, hu, hv⟩
      exact ⟨(hids u).1 ⟨id, hu⟩, (hc.same_iff u v id id hu hv).1 rfl⟩
    · rintro ⟨hu, huv, hvu⟩
      obtain ⟨i, hi⟩ := (hids u).2 hu
      obtain ⟨j, hj⟩ := (hids v).2 (huv.mem_endpoints hu)
      have hij := (hc.same_iff u v i j hi hj).2 ⟨huv, hvu⟩
      exact ⟨i, hi, by rw [hj, hij]⟩
  · intro v
    rw [two_le_members]
    simp only [mem_members]
    cases hv : c.componentOf? v with
    | none => simp [isCyclic, hv]
    | some id =>
      simp only [isCyclic, hv, List.contains_iff_mem, hc.cyclic_iff id]
      grind

end ClassAtlas.Components
