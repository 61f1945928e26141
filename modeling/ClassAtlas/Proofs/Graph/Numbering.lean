import ClassAtlas.Proofs.Graph.Components

/-!
The numbers of components. A component closes only after everything that it leads to, so an edge never
leads to a greater number, and the numbers in use are the first ones without a gap.
-/
namespace ClassAtlas.Components

open Adjacency (Reaches Represents endpoints)

variable {a : Adjacency} {nodes : List String} {edges : List (String × String)} {s : Search}
  {path : List Frame} {v : String}

/-- The components closed so far have the numbers from one on, and no edge between them goes up. -/
structure Numbered (edges : List (String × String)) (c : Components) (closed : Nat) : Prop where
  used_iff : ∀ id, (∃ v, c.componentOf? v = some id) ↔ 1 ≤ id ∧ id ≤ closed
  descends : ∀ u w i j, (u, w) ∈ edges → c.componentOf? u = some i → c.componentOf? w = some j →
    j ≤ i

namespace Numbered

theorem start (edges : List (String × String)) : Numbered edges .empty 0 := by
  refine ⟨?_, ?_⟩
  · intro id
    simp only [componentOf?, empty, Std.TreeMap.getElem?_emptyc, reduceCtorEq, exists_const,
      false_iff]
    omega
  · intro u w i j _ hi
    simp [componentOf?, empty] at hi

/-- Closing a component takes the next number, which is greater than all before. -/
theorem close {above rest : List String} (h : s.found.Numbered edges s.closed)
    (hc : Closes edges s above v rest) (hcorrect : s.found.Correct edges s.closed) :
    (s.close v).found.Numbered edges (s.closed + 1) := by
  have hle : ∀ u id, (s.close v).found.componentOf? u = some id → id ≤ s.closed + 1 :=
    (hc.correct hcorrect).id_le
  refine ⟨?_, ?_⟩
  · intro id
    constructor
    · rintro ⟨u, hu⟩
      refine ⟨?_, hle u id hu⟩
      by_cases hm : u ∈ above ++ [v]
      · have := (hc.new_id hm).1 hu
        omega
      · exact ((h.used_iff id).1 ⟨u, (hc.old_id hm).1 hu⟩).1
    · rintro ⟨hpos, hmax⟩
      by_cases hid : id = s.closed + 1
      · exact ⟨v, (hc.new_id (by simp)).2 hid⟩
      · obtain ⟨u, hu⟩ := (h.used_iff id).2 ⟨hpos, by omega⟩
        have hm : u ∉ above ++ [v] := fun hm => hc.not_closed u hm ((mem_ids_iff _ _).2 ⟨id, hu⟩)
        exact ⟨u, (hc.old_id hm).2 hu⟩
  · intro u w i j he hi hj
    by_cases hm : u ∈ above ++ [v]
    · rw [(hc.new_id hm).1 hi]
      exact hle w j hj
    · -- an edge of a component that was closed before stays among those
      have hu := (hc.old_id hm).1 hi
      have hw := hcorrect.out u w ((mem_ids_iff _ _).2 ⟨i, hu⟩) he
      have hwm : w ∉ above ++ [v] := fun hwm => hc.not_closed w hwm hw
      exact h.descends u w i j he hu ((hc.old_id hwm).1 hj)

end Numbered

/-- Leaving a node closes a component or none. -/
theorem Running.numbered_finish (h : Running edges (⟨v, []⟩ :: path) s)
    (hn : s.found.Numbered edges s.closed) :
    (s.finish v).found.Numbered edges (s.finish v).closed := by
  unfold Search.finish
  split
  · next hv =>
    obtain ⟨above, rest, hc, -⟩ := h.closes hv
    exact hn.close hc h.invariant.correct
  · exact hn

theorem numbered_step (h : Running edges path s) (hn : s.found.Numbered edges s.closed) :
    (step a path s).2.found.Numbered edges (step a path s).2.closed := by
  fun_cases step a path s with
  | case1 s => exact hn
  | case2 v w pending path s hw => exact hn
  | case3 v w pending path s hw hopen => simpa using hn
  | case4 v w pending path s hw hopen => exact hn
  | case5 v s => exact h.numbered_finish hn
  | case6 v f path s => exact h.passUp.numbered_finish (by simpa using hn)

theorem numbered_run (ha : a.Represents nodes edges) (fuel : Nat) (h : Running edges path s)
    (hn : s.found.Numbered edges s.closed) :
    (run a fuel path s).found.Numbered edges (run a fuel path s).closed := by
  induction fuel generalizing path s with
  | zero => exact hn
  | succ fuel ih =>
    cases path with
    | nil => exact hn
    | cons f path => exact ih (h.step ha) (numbered_step h hn)

theorem numbered_searches (ha : a.Represents (endpoints edges) edges) {fuel : Nat}
    (hf : a.nodeCount + a.edgeCount ≤ fuel) {roots : List String}
    (hr : ∀ v ∈ roots, v ∈ endpoints edges) (h : Running edges [] s)
    (hn : s.found.Numbered edges s.closed) :
    (roots.foldl (searchFrom a fuel) s).found.Numbered edges
      (roots.foldl (searchFrom a fuel) s).closed := by
  induction roots generalizing s with
  | nil => exact hn
  | cons r roots ih =>
    have hroot := hr r (by simp)
    refine ih (fun v hv => hr v (by simp [hv])) (searchFrom_ends ha hf h hroot).1 ?_
    unfold searchFrom
    split
    · exact hn
    · next hd =>
      rw [Search.isDiscovered_iff] at hd
      exact numbered_run ha fuel (h.discover ha hd (by simp) hroot) hn

theorem numbered_searched (edges : List (String × String)) :
    (searched (.ofEdges edges)).found.Numbered edges (searched (.ofEdges edges)).closed :=
  numbered_searches (Adjacency.represents_ofEdges edges) (Nat.le_succ _) (sources_known edges)
    (.start edges) (.start edges)

theorem mem_values (c : Components) (id : Nat) :
    id ∈ c.ids.values ↔ ∃ v, c.componentOf? v = some id := by
  have hvalues : c.ids.values = c.ids.toList.map (·.2) := by
    change c.ids.foldr (fun _ id ids => id :: ids) [] = _
    rw [Std.TreeMap.foldr_eq_foldr_toList]
    induction c.ids.toList with
    | nil => rfl
    | cons p l ih => simp [ih]
  simp only [hvalues, List.mem_map, Prod.exists, Std.TreeMap.mem_toList_iff_getElem?_eq_some,
    exists_eq_right]
  rfl

/-- Numbers without a gap are as many as the last one says. -/
theorem Numbered.count_eq {c : Components} {closed : Nat} (h : c.Numbered edges closed) :
    c.count = closed := by
  have hnodup : (Std.TreeSet.ofList c.ids.values).toList.Nodup := by
    refine Std.TreeSet.distinct_toList.imp ?_
    rintro i j hne rfl
    exact hne Std.ReflCmp.compare_self
  have hset : (Std.TreeSet.ofList c.ids.values).toList.toFinset = Finset.Icc 1 closed := by
    ext id
    rw [List.mem_toFinset, Std.TreeSet.mem_toList, Std.TreeSet.mem_ofList, List.contains_iff_mem,
      mem_values, h.used_iff, Finset.mem_Icc]
  rw [count, ← Std.TreeSet.length_toList, ← List.toFinset_card_of_nodup hnodup, hset, Nat.card_Icc]
  rfl

/-- The numbers of the components are those from one to their count. They run against the edges: an edge
leads to the same number exactly if it can be gone back, and otherwise to a smaller one. All of them
are given by the searches, so the last pass over the nodes gives none. -/
theorem numbers_run_against_edges (edges : List (String × String)) :
    (∀ id, (∃ v, (compute (.ofEdges edges)).componentOf? v = some id) ↔
      1 ≤ id ∧ id ≤ (compute (.ofEdges edges)).count) ∧
    (∀ u w, (u, w) ∈ edges → ∃ i j, (compute (.ofEdges edges)).componentOf? u = some i ∧
      (compute (.ofEdges edges)).componentOf? w = some j ∧ j ≤ i ∧
      (j = i ↔ Reaches edges w u)) ∧
    compute (.ofEdges edges) = (searched (.ofEdges edges)).found ∧
    (Adjacency.ofEdges edges).nodes.foldl placeAlone
        ((searched (.ofEdges edges)).found.ids, (searched (.ofEdges edges)).closed) =
      ((searched (.ofEdges edges)).found.ids, (searched (.ofEdges edges)).closed) := by
  obtain ⟨hend, hids⟩ := searched_ends edges
  have hn := numbered_searched edges
  have hcorrect := hend.invariant.correct
  have hlast := foldl_placeAlone ((searched (.ofEdges edges)).found.ids,
    (searched (.ofEdges edges)).closed) (mem_searched edges)
  rw [compute_eq (mem_searched edges)]
  refine ⟨?_, ?_, rfl, hlast⟩
  · rw [hn.count_eq]
    exact hn.used_iff
  · intro u w he
    obtain ⟨i, hi⟩ := (mem_ids_iff _ _).1 ((hids u).2 (Adjacency.source_mem_endpoints he))
    obtain ⟨j, hj⟩ := (mem_ids_iff _ _).1 ((hids w).2 (Adjacency.target_mem_endpoints he))
    refine ⟨i, j, hi, hj, hn.descends u w i j he hi hj, ?_⟩
    rw [hcorrect.same_iff w u j i hj hi]
    exact and_iff_left (.single he)

end ClassAtlas.Components
