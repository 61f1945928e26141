import ClassAtlas.Graph.Components
import ClassAtlas.Proofs.Graph.Adjacency

/-!
The invariant of the depth-first search. The open nodes are cut into layers, one below each node of
the path: a node of the path reaches its layer, and no node of the layer knows of an earlier node
than the node of the path does. When a node of the path knows of none before itself, its layer and
the node itself are a whole component.
-/
namespace ClassAtlas.Components

open Adjacency (Reaches)

theorem mem_ids_iff (c : Components) (v : String) :
    v ∈ c.ids ↔ ∃ id, c.componentOf? v = some id := by
  rw [← Std.TreeMap.isSome_getElem?_iff_mem, Option.isSome_iff_exists]
  rfl

namespace Search

variable {edges : List (String × String)} {s : Search} {u v w : String}

theorem isDiscovered_iff (s : Search) (v : String) : s.isDiscovered v = true ↔ v ∈ s.index :=
  Std.TreeMap.contains_iff_mem

theorem mem_index_discover (s : Search) (v u : String) :
    u ∈ (s.discover v).index ↔ v = u ∨ u ∈ s.index := by
  simp [discover, Std.TreeMap.mem_insert]

theorem size_index_discover (s : Search) (h : v ∉ s.index) :
    (s.discover v).index.size = s.index.size + 1 := by
  simp [discover, Std.TreeMap.size_insert, Std.TreeMap.contains_iff_mem, h]

theorem indexOf_discover (s : Search) (v u : String) :
    (s.discover v).indexOf u = if v = u then s.index.size else s.indexOf u := by
  simp [discover, indexOf, Std.TreeMap.getD_insert]

theorem lowOf_discover (s : Search) (v u : String) :
    (s.discover v).lowOf u = if v = u then s.index.size else s.lowOf u := by
  simp [discover, lowOf, Std.TreeMap.getD_insert]

@[simp] theorem index_lower (s : Search) (v : String) (b : Nat) :
    (s.lower v b).index = s.index := by
  unfold lower; split <;> rfl

@[simp] theorem stack_lower (s : Search) (v : String) (b : Nat) :
    (s.lower v b).stack = s.stack := by
  unfold lower; split <;> rfl

@[simp] theorem found_lower (s : Search) (v : String) (b : Nat) :
    (s.lower v b).found = s.found := by
  unfold lower; split <;> rfl

@[simp] theorem closed_lower (s : Search) (v : String) (b : Nat) :
    (s.lower v b).closed = s.closed := by
  unfold lower; split <;> rfl

@[simp] theorem indexOf_lower (s : Search) (v : String) (b : Nat) (u : String) :
    (s.lower v b).indexOf u = s.indexOf u := by
  simp [indexOf]

theorem lowOf_lower (s : Search) (v : String) (b : Nat) (u : String) :
    (s.lower v b).lowOf u = if v = u then min b (s.lowOf v) else s.lowOf u := by
  unfold lower
  split
  · next h =>
    by_cases hu : v = u
    · subst hu
      simp [lowOf] at h ⊢
      omega
    · simp [lowOf, Std.TreeMap.getD_insert, hu]
  · next h =>
    by_cases hu : v = u
    · subst hu
      simp only [if_true]
      omega
    · simp [hu]

/-- What closing a node makes of the stack and of the components. -/
theorem takeWhile_open {above rest : List String} (hv : v ∉ above) :
    (above ++ v :: rest).takeWhile (· != v) = above ∧
      (above ++ v :: rest).dropWhile (· != v) = v :: rest := by
  induction above with
  | nil => simp
  | cons x above ih =>
    simp only [List.mem_cons, not_or] at hv
    simp [Ne.symm hv.1, ih hv.2]

theorem stack_close {above rest : List String} (hs : s.stack = above ++ v :: rest)
    (hv : v ∉ above) : (s.close v).stack = rest := by
  simp [close, hs, takeWhile_open hv]

theorem getElem?_foldl_insert (id : Nat) (members : List String) (ids : Std.TreeMap String Nat)
    (u : String) :
    (members.foldl (fun ids m => ids.insert m id) ids)[u]? =
      if u ∈ members then some id else ids[u]? := by
  induction members generalizing ids with
  | nil => simp
  | cons m members ih =>
    rw [List.foldl_cons, ih]
    by_cases hm : u ∈ members
    · simp [hm]
    · by_cases hu : m = u
      · simp [hu]
      · simp [hm, hu, Ne.symm hu, Std.TreeMap.getElem?_insert]

theorem componentOf?_close {above rest : List String} (hs : s.stack = above ++ v :: rest)
    (hv : v ∉ above) (u : String) : (s.close v).found.componentOf? u =
      if u ∈ above ++ [v] then some (s.closed + 1) else s.found.componentOf? u := by
  simp only [close, componentOf?, hs, takeWhile_open hv, getElem?_foldl_insert]

theorem mem_ids_close {above rest : List String} (hs : s.stack = above ++ v :: rest)
    (hv : v ∉ above) (u : String) :
    u ∈ (s.close v).found.ids ↔ u ∈ above ++ [v] ∨ u ∈ s.found.ids := by
  rw [mem_ids_iff, mem_ids_iff, componentOf?_close hs hv]
  by_cases hu : u ∈ above ++ [v] <;> simp only [hu, if_true, if_false] <;> simp

theorem cyclic_close {above rest : List String} (hs : s.stack = above ++ v :: rest)
    (hv : v ∉ above) (id : Nat) : id ∈ (s.close v).found.cyclic ↔
      id ∈ s.found.cyclic ∨ (above ≠ [] ∧ id = s.closed + 1) := by
  simp only [close, hs, takeWhile_open hv]
  cases above <;> simp

end Search

/-- Components that are closed under edges and right so far: two nodes share one exactly if each
reaches the other, and those with two members or more are the cyclic ones. -/
structure Correct (edges : List (String × String)) (c : Components) (closed : Nat) : Prop where
  id_le : ∀ v id, c.componentOf? v = some id → id ≤ closed
  same_iff : ∀ u v i j, c.componentOf? u = some i → c.componentOf? v = some j →
    (i = j ↔ Reaches edges u v ∧ Reaches edges v u)
  cyclic_iff : ∀ id, id ∈ c.cyclic ↔
    ∃ u v, u ≠ v ∧ c.componentOf? u = some id ∧ c.componentOf? v = some id
  out : ∀ u w, u ∈ c.ids → (u, w) ∈ edges → w ∈ c.ids

/-- The open nodes, the latest first, cut at the nodes of the path. -/
def Layered (edges : List (String × String)) (low index : String → Nat) :
    List String → List String → Prop
  | [], stack => stack = []
  | v :: path, stack => ∃ above rest, stack = above ++ v :: rest ∧
      (∀ u ∈ above, Reaches edges v u ∧ low v ≤ low u ∧ low u < index u) ∧
      (∀ p ∈ path, Reaches edges p v) ∧ Layered edges low index path rest

namespace Layered

variable {edges : List (String × String)} {low low' index index' : String → Nat}
  {path stack : List String}

theorem mem_stack (h : Layered edges low index path stack) {v : String} (hv : v ∈ path) :
    v ∈ stack := by
  induction path generalizing stack with
  | nil => simp at hv
  | cons p path ih =>
    obtain ⟨above, rest, rfl, -, -, hrest⟩ := h
    rcases List.mem_cons.1 hv with rfl | hv
    · simp
    · simp [ih hrest hv]

/-- Layers only look at the numbers of open nodes. -/
theorem congr (h : Layered edges low index path stack)
    (hl : ∀ u ∈ stack, low' u = low u) (hi : ∀ u ∈ stack, index' u = index u) :
    Layered edges low' index' path stack := by
  induction path generalizing stack with
  | nil => exact h
  | cons v path ih =>
    obtain ⟨above, rest, rfl, ha, hp, hrest⟩ := h
    refine ⟨above, rest, rfl, ?_, hp, ih hrest ?_ ?_⟩
    · intro u hu
      rw [hl u (by simp [hu]), hl v (by simp), hi u (by simp [hu])]
      exact ha u hu
    · intro u hu; exact hl u (by simp [hu])
    · intro u hu; exact hi u (by simp [hu])

/-- A node of the path may learn of an earlier node. -/
theorem lower (h : Layered edges low index path stack) (hn : stack.Nodup) {x : String}
    (hx : x ∈ path) (hle : low' x ≤ low x) (hl : ∀ u, u ≠ x → low' u = low u) :
    Layered edges low' index path stack := by
  induction path generalizing stack with
  | nil => simp at hx
  | cons v path ih =>
    obtain ⟨above, rest, rfl, ha, hp, hrest⟩ := h
    simp only [List.nodup_append, List.nodup_cons, List.mem_cons] at hn
    obtain ⟨hna, ⟨hvr, hnr⟩, hd⟩ := hn
    have hv : low' v ≤ low v := by
      by_cases hvx : v = x
      · rw [hvx]; exact hle
      · rw [hl v hvx]
    have hxa : x ∉ above := by
      intro hxa
      rcases List.mem_cons.1 hx with rfl | hx
      · exact hd x hxa x (.inl rfl) rfl
      · exact hd x hxa x (.inr (hrest.mem_stack hx)) rfl
    refine ⟨above, rest, rfl, ?_, hp, ?_⟩
    · intro u hu
      have hux : u ≠ x := ne_of_mem_of_not_mem hu hxa
      have h := ha u hu
      rw [hl u hux]
      exact ⟨h.1, by omega, h.2.2⟩
    · rcases List.mem_cons.1 hx with rfl | hx
      · exact hrest.congr (fun u hu => hl u (ne_of_mem_of_not_mem hu hvr)) (fun _ _ => rfl)
      · exact ih hrest hnr hx

end Layered

/-- What holds of the search between any two steps, given the nodes of its path. -/
structure Invariant (edges : List (String × String)) (path : List String) (s : Search) : Prop where
  mem_index : ∀ v, v ∈ s.index ↔ v ∈ s.stack ∨ v ∈ s.found.ids
  not_closed : ∀ v ∈ s.stack, v ∉ s.found.ids
  index_lt : ∀ v ∈ s.index, s.indexOf v < s.index.size
  descending : s.stack.Pairwise fun u w => s.indexOf w < s.indexOf u
  layered : Layered edges s.lowOf s.indexOf path s.stack
  low_le : ∀ v ∈ s.stack, s.lowOf v ≤ s.indexOf v
  low_reached : ∀ v ∈ s.stack, ∃ w ∈ s.stack, s.indexOf w = s.lowOf v ∧ Reaches edges v w
  correct : s.found.Correct edges s.closed

/-- An edge that needs no further look: its target is closed, or open and taken into account. -/
def Search.Settled (s : Search) (u w : String) : Prop :=
  w ∈ s.found.ids ∨ (w ∈ s.stack ∧ s.lowOf u ≤ s.indexOf w)

/-- Every edge of an open node is settled or still to be looked at. -/
def Explored (edges : List (String × String)) (path : List Frame) (s : Search) : Prop :=
  ∀ u ∈ s.stack, ∀ w, (u, w) ∈ edges → s.Settled u w ∨ ∃ f ∈ path, f.node = u ∧ w ∈ f.pending

variable {edges : List (String × String)} {s : Search} {path above rest : List String} {v : String}

theorem Correct.reaches_closed {c : Components} {n : Nat} (h : c.Correct edges n) {u w : String}
    (hr : Reaches edges u w) (hu : u ∈ c.ids) : w ∈ c.ids :=
  hr.stays h.out hu

/-- An open node and the open nodes after it are a whole component. -/
structure Closes (edges : List (String × String)) (s : Search) (above : List String) (v : String)
    (rest : List String) : Prop where
  stack_eq : s.stack = above ++ v :: rest
  not_mem : v ∉ above
  not_closed : ∀ u ∈ above ++ [v], u ∉ s.found.ids
  reached : ∀ u ∈ above ++ [v], Reaches edges v u
  reaches : ∀ u ∈ above ++ [v], Reaches edges u v
  out : ∀ u ∈ above ++ [v], ∀ w, (u, w) ∈ edges → w ∈ above ++ [v] ∨ w ∈ s.found.ids

namespace Closes

theorem new_id (h : Closes edges s above v rest) {u : String} {id : Nat} (hu : u ∈ above ++ [v]) :
    (s.close v).found.componentOf? u = some id ↔ id = s.closed + 1 := by
  rw [Search.componentOf?_close h.stack_eq h.not_mem, if_pos hu, Option.some.injEq, eq_comm]

theorem old_id (h : Closes edges s above v rest) {u : String} {id : Nat} (hu : u ∉ above ++ [v]) :
    (s.close v).found.componentOf? u = some id ↔ s.found.componentOf? u = some id := by
  rw [Search.componentOf?_close h.stack_eq h.not_mem, if_neg hu]

/-- A component is new exactly for the nodes that are closed now. -/
theorem mem_iff (h : Closes edges s above v rest) (hc : s.found.Correct edges s.closed)
    {u : String} {id : Nat} (hu : (s.close v).found.componentOf? u = some id) :
    u ∈ above ++ [v] ↔ id = s.closed + 1 := by
  constructor
  · exact fun hm => (h.new_id hm).1 hu
  · intro he
    by_contra hm
    have := hc.id_le u id ((h.old_id hm).1 hu)
    omega

/-- What was closed before does not lead to the nodes that are closed now. -/
theorem not_reaches (h : Closes edges s above v rest) (hc : s.found.Correct edges s.closed)
    {u w : String} {id : Nat} (hu : u ∉ above ++ [v])
    (hid : (s.close v).found.componentOf? u = some id) (hw : w ∈ above ++ [v]) :
    ¬Reaches edges u w := by
  intro hr
  exact h.not_closed w hw (hc.reaches_closed hr ((mem_ids_iff _ _).2 ⟨id, (h.old_id hu).1 hid⟩))

theorem same_iff (h : Closes edges s above v rest) (hc : s.found.Correct edges s.closed)
    {u w : String} {i j : Nat} (hi : (s.close v).found.componentOf? u = some i)
    (hj : (s.close v).found.componentOf? w = some j) :
    i = j ↔ Reaches edges u w ∧ Reaches edges w u := by
  have hmu := h.mem_iff hc hi
  have hmw := h.mem_iff hc hj
  by_cases hu : u ∈ above ++ [v] <;> by_cases hw : w ∈ above ++ [v]
  · rw [hmu.1 hu, hmw.1 hw]
    simp only [true_iff]
    exact ⟨(h.reaches u hu).trans (h.reached w hw), (h.reaches w hw).trans (h.reached u hu)⟩
  · have hne : i ≠ j := by rw [hmu.1 hu]; exact fun he => hw (hmw.2 he.symm)
    simp [hne, h.not_reaches hc hw hj hu]
  · have hne : i ≠ j := by rw [hmw.1 hw]; exact fun he => hu (hmu.2 he)
    simp [hne, h.not_reaches hc hu hi hw]
  · exact hc.same_iff u w i j ((h.old_id hu).1 hi) ((h.old_id hw).1 hj)

theorem cyclic_iff (h : Closes edges s above v rest) (hc : s.found.Correct edges s.closed)
    (id : Nat) : id ∈ (s.close v).found.cyclic ↔ ∃ u w, u ≠ w ∧
      (s.close v).found.componentOf? u = some id ∧ (s.close v).found.componentOf? w = some id := by
  rw [Search.cyclic_close h.stack_eq h.not_mem, hc.cyclic_iff]
  constructor
  · rintro (⟨u, w, hne, hu, hw⟩ | ⟨hne, rfl⟩)
    · have hold : ∀ x, s.found.componentOf? x = some id →
          (s.close v).found.componentOf? x = some id := by
        intro x hx
        exact (h.old_id fun hm => h.not_closed x hm ((mem_ids_iff _ _).2 ⟨id, hx⟩)).2 hx
      exact ⟨u, w, hne, hold u hu, hold w hw⟩
    · obtain ⟨u, hu⟩ := List.exists_mem_of_ne_nil above hne
      exact ⟨u, v, ne_of_mem_of_not_mem hu h.not_mem, (h.new_id (by simp [hu])).2 rfl,
        (h.new_id (by simp)).2 rfl⟩
  · rintro ⟨u, w, hne, hu, hw⟩
    by_cases hid : id = s.closed + 1
    · right
      refine ⟨?_, hid⟩
      rintro rfl
      have h1 := (h.mem_iff hc hu).2 hid
      have h2 := (h.mem_iff hc hw).2 hid
      simp only [List.nil_append, List.mem_singleton] at h1 h2
      exact hne (h1.trans h2.symm)
    · left
      exact ⟨u, w, hne, (h.old_id (mt (h.mem_iff hc hu).1 hid)).1 hu,
        (h.old_id (mt (h.mem_iff hc hw).1 hid)).1 hw⟩

/-- Closing a whole component keeps the components right. -/
theorem correct (h : Closes edges s above v rest) (hc : s.found.Correct edges s.closed) :
    (s.close v).found.Correct edges (s.close v).closed := by
  refine ⟨?_, fun u w i j => h.same_iff hc, h.cyclic_iff hc, ?_⟩
  · intro u id hid
    change id ≤ s.closed + 1
    by_cases hu : u ∈ above ++ [v]
    · exact ((h.new_id hu).1 hid).le
    · have := hc.id_le u id ((h.old_id hu).1 hid)
      omega
  · intro u w hu he
    rw [Search.mem_ids_close h.stack_eq h.not_mem] at hu ⊢
    rcases hu with hu | hu
    · exact h.out u hu w he
    · exact .inr (hc.out u w hu he)

end Closes

namespace Invariant

theorem nodup (h : Invariant edges path s) : s.stack.Nodup := by
  refine h.descending.imp ?_
  rintro u w hlt rfl
  omega

theorem mem_index_of_mem (h : Invariant edges path s) {u : String} (hu : u ∈ s.stack) :
    u ∈ s.index := (h.mem_index u).2 (.inl hu)

theorem isOpen_iff (h : Invariant edges path s) (u : String) : s.isOpen u = true ↔ u ∈ s.stack := by
  have hi := h.mem_index u
  have hc := h.not_closed u
  simp only [Search.isOpen, Bool.and_eq_true, Bool.not_eq_true', Search.isDiscovered_iff,
    ← Bool.not_eq_true, Std.TreeMap.contains_iff_mem]
  tauto

/-- The nodes of the path lead to its last node. -/
theorem reaches_last (h : Invariant edges (v :: path) s) {p : String} (hp : p ∈ v :: path) :
    Reaches edges p v := by
  obtain ⟨-, -, -, -, hr, -⟩ := h.layered
  rcases List.mem_cons.1 hp with rfl | hp
  · exact .refl
  · exact hr p hp

theorem discover (h : Invariant edges path s) (hv : v ∉ s.index)
    (hr : ∀ p ∈ path, Reaches edges p v) : Invariant edges (v :: path) (s.discover v) := by
  have hne : ∀ u ∈ s.stack, v ≠ u := by
    rintro u hu rfl
    exact hv (h.mem_index_of_mem hu)
  have hindex : ∀ u ∈ s.stack, (s.discover v).indexOf u = s.indexOf u := by
    intro u hu
    rw [Search.indexOf_discover, if_neg (hne u hu)]
  have hlow : ∀ u ∈ s.stack, (s.discover v).lowOf u = s.lowOf u := by
    intro u hu
    rw [Search.lowOf_discover, if_neg (hne u hu)]
  have hsize := Search.size_index_discover s hv
  have hself : (s.discover v).indexOf v = s.index.size := by simp [Search.indexOf_discover]
  have hselfLow : (s.discover v).lowOf v = s.index.size := by simp [Search.lowOf_discover]
  refine ⟨?_, ?_, ?_, ?_, ?_, ?_, ?_, h.correct⟩
  · intro u
    rw [Search.mem_index_discover, h.mem_index]
    change _ ↔ u ∈ v :: s.stack ∨ u ∈ s.found.ids
    rw [List.mem_cons]
    grind
  · intro u hu
    rcases List.mem_cons.1 hu with rfl | hu
    · exact fun hc => hv ((h.mem_index u).2 (.inr hc))
    · exact h.not_closed u hu
  · intro u hu
    rw [hsize, Search.indexOf_discover]
    rcases (Search.mem_index_discover s v u).1 hu with rfl | hu
    · simp
    · have := h.index_lt u hu
      split <;> omega
  · refine List.pairwise_cons.2 ⟨?_, ?_⟩
    · intro u hu
      rw [hself, hindex u hu]
      exact h.index_lt u (h.mem_index_of_mem hu)
    · refine h.descending.imp_of_mem ?_
      intro u w hu hw hlt
      rw [hindex u hu, hindex w hw]
      exact hlt
  · exact ⟨[], s.stack, rfl, by simp, hr, h.layered.congr hlow hindex⟩
  · intro u hu
    rcases List.mem_cons.1 hu with rfl | hu
    · rw [hself, hselfLow]
    · rw [hindex u hu, hlow u hu]
      exact h.low_le u hu
  · intro u hu
    rcases List.mem_cons.1 hu with rfl | hu
    · exact ⟨u, hu, by rw [hself, hselfLow], .refl⟩
    · obtain ⟨w, hw, he, hr⟩ := h.low_reached u hu
      exact ⟨w, List.mem_cons_of_mem _ hw, by rw [hindex w hw, hlow u hu, he], hr⟩

/-- A node of the path learns the number of an open node that it reaches. -/
theorem lower (h : Invariant edges path s) (hv : v ∈ path) {bound : Nat}
    (hb : ∃ w ∈ s.stack, s.indexOf w = bound ∧ Reaches edges v w) :
    Invariant edges path (s.lower v bound) := by
  have hself : (s.lower v bound).lowOf v = min bound (s.lowOf v) := by
    simp [Search.lowOf_lower]
  have hother : ∀ u, u ≠ v → (s.lower v bound).lowOf u = s.lowOf u := by
    intro u hu
    rw [Search.lowOf_lower, if_neg (Ne.symm hu)]
  have hvs := h.layered.mem_stack hv
  refine ⟨?_, ?_, ?_, ?_, ?_, ?_, ?_, ?_⟩ <;> simp only [Search.index_lower, Search.stack_lower,
    Search.found_lower, Search.closed_lower, Search.indexOf_lower]
  · exact h.mem_index
  · exact h.not_closed
  · exact h.index_lt
  · exact h.descending
  · have hi : (s.lower v bound).indexOf = s.indexOf := by funext u; simp
    rw [hi]
    exact h.layered.lower h.nodup hv (by omega) hother
  · intro u hu
    have := h.low_le u hu
    by_cases hu : u = v
    · subst hu; omega
    · rw [hother u hu]; exact this
  · intro u hu
    by_cases huv : u = v
    · subst huv
      by_cases hle : bound ≤ s.lowOf u
      · rw [hself, Nat.min_eq_left hle]
        exact hb
      · rw [hself, Nat.min_eq_right (by omega)]
        exact h.low_reached u hu
    · rw [hother u huv]
      exact h.low_reached u hu
  · exact h.correct

/-- A node that knows of an earlier one joins the layer of the node before it on the path. -/
theorem pop {p : String} (h : Invariant edges (v :: p :: path) s) (hp : s.lowOf p ≤ s.lowOf v)
    (hv : s.lowOf v < s.indexOf v) : Invariant edges (p :: path) s := by
  obtain ⟨above, rest, hs, ha, hr, lower, rest', rfl, hl, hr', hrest⟩ := h.layered
  have hpv : Reaches edges p v := hr p (by simp)
  refine { h with layered := ⟨above ++ v :: lower, rest', by simp [hs], ?_, hr', hrest⟩ }
  intro u hu
  rcases List.mem_append.1 hu with hu | hu
  · obtain ⟨h1, h2, h3⟩ := ha u hu
    exact ⟨hpv.trans h1, by omega, h3⟩
  · rcases List.mem_cons.1 hu with rfl | hu
    · exact ⟨hpv, hp, hv⟩
    · exact hl u hu

/-- The open nodes from a node on are those with its number or a greater one. -/
theorem mem_layer_iff (h : Invariant edges path s) (hs : s.stack = above ++ v :: rest) {u : String}
    (hu : u ∈ s.stack) : u ∈ above ++ [v] ↔ s.indexOf v ≤ s.indexOf u := by
  have hd := h.descending
  rw [hs] at hu hd
  simp only [List.pairwise_append, List.pairwise_cons, List.mem_cons] at hd
  obtain ⟨-, ⟨hrest, -⟩, habove⟩ := hd
  constructor
  · intro hm
    rcases List.mem_append.1 hm with hm | hm
    · exact (habove u hm v (.inl rfl)).le
    · simp_all
  · intro hle
    by_contra hm
    have hr : u ∈ rest := by simp_all
    have := hrest u hr
    omega

/-- The first node of the path knows of no node before itself. -/
theorem low_root (h : Invariant edges [v] s) : s.lowOf v = s.indexOf v := by
  obtain ⟨above, rest, hs, -, -, rfl⟩ := h.layered
  have hv : v ∈ s.stack := by simp [hs]
  obtain ⟨w, hw, he, -⟩ := h.low_reached v hv
  have hle := (h.mem_layer_iff hs hw).1 (by rw [← hs]; exact hw)
  have := h.low_le v hv
  omega

/-- A node that knows of none before itself closes with its layer, once all edges there are
settled. -/
theorem closes (h : Invariant edges (v :: path) s) (hv : s.lowOf v = s.indexOf v)
    (hset : ∀ u ∈ s.stack, u ∉ path → ∀ w, (u, w) ∈ edges → s.Settled u w) :
    ∃ above rest, Closes edges s above v rest ∧ Layered edges s.lowOf s.indexOf path rest := by
  obtain ⟨above, rest, hs, ha, -, hrest⟩ := h.layered
  have hn := h.nodup
  rw [hs, List.nodup_append, List.nodup_cons] at hn
  have hmem : ∀ u ∈ above ++ [v], u ∈ s.stack := by
    intro u hu
    rw [hs]
    simp only [List.mem_append, List.mem_cons] at hu ⊢
    tauto
  have hlow : ∀ u ∈ above ++ [v], s.indexOf v ≤ s.lowOf u := by
    intro u hu
    rcases List.mem_append.1 hu with hu | hu
    · have := (ha u hu).2.1
      omega
    · simp_all
  refine ⟨above, rest, ⟨hs, ?_, ?_, ?_, ?_, ?_⟩, hrest⟩
  · exact fun hm => hn.2.2 v hm v (by simp) rfl
  · exact fun u hu => h.not_closed u (hmem u hu)
  · intro u hu
    rcases List.mem_append.1 hu with hu | hu
    · exact (ha u hu).1
    · simp only [List.mem_singleton] at hu
      rw [hu]
      exact .refl
  · -- each node of the layer reaches an open node with a smaller number, down to the node itself
    intro u hu
    induction hk : s.indexOf u using Nat.strong_induction_on generalizing u with
    | _ k ih =>
      rcases List.mem_append.1 hu with hua | hua
      · obtain ⟨w, hw, he, hr⟩ := h.low_reached u (hmem u hu)
        have hlt := (ha u hua).2.2
        have hle := hlow u hu
        have hwl := (h.mem_layer_iff hs hw).2 (by omega)
        exact hr.trans (ih (s.indexOf w) (by omega) w hwl rfl)
      · simp only [List.mem_singleton] at hua
        rw [hua]
        exact .refl
  · intro u hu w he
    have hup : u ∉ path := by
      intro hp
      have hur := hrest.mem_stack hp
      rcases List.mem_append.1 hu with hu | hu
      · exact hn.2.2 u hu u (by simp [hur]) rfl
      · simp only [List.mem_singleton] at hu
        exact hn.2.1.1 (hu ▸ hur)
    rcases hset u (hmem u hu) hup w he with hw | ⟨hw, hle⟩
    · exact .inr hw
    · have := hlow u hu
      exact .inl ((h.mem_layer_iff hs hw).2 (by omega))

theorem close (h : Invariant edges (v :: path) s) (hc : Closes edges s above v rest)
    (hl : Layered edges s.lowOf s.indexOf path rest) : Invariant edges path (s.close v) := by
  have hstack := Search.stack_close hc.stack_eq hc.not_mem
  have hsub : ∀ u ∈ rest, u ∈ s.stack := by
    intro u hu
    rw [hc.stack_eq]
    simp [hu]
  have hd := h.descending
  rw [hc.stack_eq, List.pairwise_append, List.pairwise_cons] at hd
  have hout : ∀ u ∈ rest, u ∉ above ++ [v] := by
    intro u hu
    rw [h.mem_layer_iff hc.stack_eq (hsub u hu)]
    have := hd.2.1.1 u hu
    omega
  refine ⟨?_, ?_, h.index_lt, ?_, ?_, ?_, ?_, hc.correct h.correct⟩
  · intro u
    rw [hstack, Search.mem_ids_close hc.stack_eq hc.not_mem]
    change u ∈ s.index ↔ _
    rw [h.mem_index, hc.stack_eq]
    simp only [List.mem_append, List.mem_cons, List.not_mem_nil, or_false]
    tauto
  · intro u hu
    rw [hstack] at hu
    rw [Search.mem_ids_close hc.stack_eq hc.not_mem, not_or]
    exact ⟨hout u hu, h.not_closed u (hsub u hu)⟩
  · rw [hstack]
    exact hd.2.1.2
  · rw [hstack]
    exact hl
  · intro u hu
    rw [hstack] at hu
    exact h.low_le u (hsub u hu)
  · intro u hu
    rw [hstack] at hu ⊢
    obtain ⟨w, hw, he, hr⟩ := h.low_reached u (hsub u hu)
    refine ⟨w, ?_, he, hr⟩
    have hlt := hd.2.1.1 u hu
    have hle := h.low_le u (hsub u hu)
    have hwl : w ∉ above ++ [v] := by
      rw [h.mem_layer_iff hc.stack_eq hw]
      omega
    rw [hc.stack_eq] at hw
    simp_all

end Invariant

end ClassAtlas.Components
