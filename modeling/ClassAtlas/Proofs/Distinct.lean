import Mathlib

/-!
Lists without their repetitions, as they come about when items are added one after the other.
-/
namespace ClassAtlas

variable {α : Type} [BEq α] [LawfulBEq α]

theorem eraseDups_concat (l : List α) (x : α) :
    (l ++ [x]).eraseDups = if x ∈ l then l.eraseDups else l.eraseDups ++ [x] := by
  rw [List.eraseDups_append]
  by_cases hx : x ∈ l <;> simp [List.removeAll, hx, List.eraseDups_cons]

theorem nodup_eraseDups (l : List α) : l.eraseDups.Nodup := by
  induction l using List.reverseRecOn with
  | nil => simp
  | append_singleton l x ih =>
    rw [eraseDups_concat]
    split
    · exact ih
    · next hx => simpa [List.nodup_append, ih] using fun a ha => ne_of_mem_of_not_mem ha hx

theorem eraseDups_filter (p : α → Bool) (l : List α) :
    (l.filter p).eraseDups = l.eraseDups.filter p := by
  induction l using List.reverseRecOn with
  | nil => rfl
  | append_singleton l x ih =>
    rw [eraseDups_concat]
    by_cases hp : p x = true
    · have hfilter : (l ++ [x]).filter p = l.filter p ++ [x] := by simp [hp]
      rw [hfilter, eraseDups_concat, ih]
      by_cases hx : x ∈ l <;> simp [hx, hp]
    · have hfilter : (l ++ [x]).filter p = l.filter p := by simp [hp]
      rw [hfilter, ih]
      by_cases hx : x ∈ l <;> simp [hx, hp]

theorem eraseDups_map {β : Type} [BEq β] [LawfulBEq β] {f : α → β} {l : List α}
    (hf : ∀ x ∈ l, ∀ y ∈ l, f x = f y → x = y) : (l.map f).eraseDups = l.eraseDups.map f := by
  induction l using List.reverseRecOn with
  | nil => rfl
  | append_singleton l x ih =>
    have hmem : f x ∈ l.map f ↔ x ∈ l := by
      constructor
      · intro h
        obtain ⟨y, hy, hxy⟩ := List.mem_map.1 h
        exact hf y (by simp [hy]) x (by simp) hxy ▸ hy
      · exact List.mem_map_of_mem
    have hkept := ih fun y hy z hz => hf y (by simp [hy]) z (by simp [hz])
    rw [List.map_append, List.map_singleton, eraseDups_concat, eraseDups_concat, hkept]
    by_cases hx : x ∈ l <;> simp [hmem, hx]

/-- Without repetitions, items are in the order in which they first occur. -/
theorem pairwise_idxOf_eraseDups (l : List α) :
    l.eraseDups.Pairwise fun a b => l.idxOf a < l.idxOf b := by
  induction l using List.reverseRecOn with
  | nil => simp
  | append_singleton l x ih =>
    have hkept : l.eraseDups.Pairwise fun a b => (l ++ [x]).idxOf a < (l ++ [x]).idxOf b := by
      refine ih.imp_of_mem ?_
      intro a b ha hb hlt
      rwa [List.idxOf_append_of_mem (List.mem_eraseDups.1 ha),
        List.idxOf_append_of_mem (List.mem_eraseDups.1 hb)]
    rw [eraseDups_concat]
    split
    · exact hkept
    · next hx =>
      refine List.pairwise_append.2 ⟨hkept, List.pairwise_singleton _ _, ?_⟩
      intro a ha b hb
      obtain rfl := List.mem_singleton.1 hb
      have hmem := List.mem_eraseDups.1 ha
      have hlt := List.idxOf_lt_length_of_mem hmem
      rw [List.idxOf_append_of_mem hmem, List.idxOf_append_of_notMem hx]
      omega

/-- A list without repetitions counts the items that it shares with another. -/
theorem length_eq_card {α : Type} [DecidableEq α] {items l : List α} (hnodup : items.Nodup)
    (hmem : ∀ x, x ∈ items ↔ x ∈ l) : items.length = l.toFinset.card := by
  have hset : items.toFinset = l.toFinset := by
    ext x
    rw [List.mem_toFinset, List.mem_toFinset, hmem]
  rw [← List.toFinset_card_of_nodup hnodup, hset]

end ClassAtlas
