/-!
Finite maps from texts, kept as a list in increasing order of keys: two maps that give every key the
same value are the same map, and to list a map is to list it in order. And lists that a document may
leave out: one that is left out reads as an empty one, but it is written back as absent, so the two
are kept apart.
-/
namespace ClassAtlas

structure KeyMap (α : Type) where
  entries : List (String × α)
  sorted : entries.Pairwise (fun a b => a.1 < b.1)

namespace KeyMap

variable {α β : Type}

instance [Repr α] : Repr (KeyMap α) := ⟨fun m => reprPrec m.entries⟩

instance [BEq α] : BEq (KeyMap α) := ⟨fun m n => m.entries == n.entries⟩

instance [DecidableEq α] : DecidableEq (KeyMap α) := fun m n =>
  if h : m.entries = n.entries then
    isTrue (by cases m; cases n; cases h; rfl)
  else isFalse fun he => h (he ▸ rfl)

def empty : KeyMap α := ⟨[], .nil⟩

instance : Inhabited (KeyMap α) := ⟨empty⟩

/-- Put an entry at its place, over the one that has its key. -/
def insertEntry (key : String) (value : α) : List (String × α) → List (String × α)
  | [] => [(key, value)]
  | (k, v) :: more =>
    if key < k then (key, value) :: (k, v) :: more
    else if key = k then (key, value) :: more
    else (k, v) :: insertEntry key value more

theorem mem_insertEntry {key : String} {value : α} {entries : List (String × α)}
    {e : String × α} (h : e ∈ insertEntry key value entries) :
    e = (key, value) ∨ e ∈ entries := by
  induction entries with
  | nil => simpa [insertEntry] using h
  | cons head more ih =>
    obtain ⟨k, v⟩ := head
    simp only [insertEntry] at h
    split at h
    · simpa using h
    · split at h
      · rcases List.mem_cons.1 h with rfl | h
        · exact .inl rfl
        · exact .inr (List.mem_cons_of_mem _ h)
      · rcases List.mem_cons.1 h with rfl | h
        · exact .inr List.mem_cons_self
        · rcases ih h with h | h
          · exact .inl h
          · exact .inr (List.mem_cons_of_mem _ h)

theorem sorted_insertEntry (key : String) (value : α) {entries : List (String × α)}
    (h : entries.Pairwise (fun a b => a.1 < b.1)) :
    (insertEntry key value entries).Pairwise (fun a b => a.1 < b.1) := by
  induction entries with
  | nil => simp [insertEntry]
  | cons head more ih =>
    obtain ⟨k, v⟩ := head
    obtain ⟨hk, hm⟩ := List.pairwise_cons.1 h
    simp only [insertEntry]
    split
    · rename_i lt
      refine List.pairwise_cons.2 ⟨fun e he => ?_, h⟩
      rcases List.mem_cons.1 he with rfl | he
      · exact lt
      · exact String.lt_trans lt (hk e he)
    · rename_i nlt
      split
      · rename_i eq
        subst eq
        exact List.pairwise_cons.2 ⟨hk, hm⟩
      · rename_i ne
        refine List.pairwise_cons.2 ⟨fun e he => ?_, ih hm⟩
        rcases mem_insertEntry he with rfl | he
        · exact Decidable.byContradiction fun h' =>
            ne (String.le_antisymm (String.not_lt.1 h') (String.not_lt.1 nlt))
        · exact hk e he

def insert (m : KeyMap α) (key : String) (value : α) : KeyMap α :=
  ⟨insertEntry key value m.entries, sorted_insertEntry key value m.sorted⟩

def get? (m : KeyMap α) (key : String) : Option α := m.entries.lookup key

def contains (m : KeyMap α) (key : String) : Bool := (m.get? key).isSome

def keys (m : KeyMap α) : List String := m.entries.map (·.1)

def values (m : KeyMap α) : List α := m.entries.map (·.2)

def size (m : KeyMap α) : Nat := m.entries.length

def isEmpty (m : KeyMap α) : Bool := m.entries.isEmpty

/-- Entries put in one after the other, a later one over an earlier one with its key. -/
def ofList (entries : List (String × α)) : KeyMap α :=
  entries.foldl (fun m e => m.insert e.1 e.2) empty

/-- Change every value. -/
def map (f : String → α → β) (m : KeyMap α) : KeyMap β :=
  ⟨m.entries.map fun e => (e.1, f e.1 e.2), by
    rw [List.pairwise_map]
    exact m.sorted⟩

@[simp] theorem get?_empty (key : String) : (empty : KeyMap α).get? key = none := rfl

theorem lookup_cons_eq (key : String) (value : α) (more : List (String × α)) (other : String) :
    ((key, value) :: more).lookup other = if other = key then some value else more.lookup other := by
  by_cases h : other = key
  · simp [h]
  · have hb : (other == key) = false := by simpa using h
    simp [List.lookup_cons, h, hb]

theorem lookup_insertEntry (key : String) (value : α) (entries : List (String × α))
    (other : String) :
    (insertEntry key value entries).lookup other =
      if other = key then some value else entries.lookup other := by
  induction entries with
  | nil => simp [insertEntry, lookup_cons_eq]
  | cons head more ih =>
    obtain ⟨k, v⟩ := head
    simp only [insertEntry]
    split
    · rw [lookup_cons_eq]
    · split
      · rename_i eq
        subst eq
        by_cases h : other = key <;> simp [lookup_cons_eq, h]
      · rename_i ne
        by_cases h : other = k
        · subst h
          simp [Ne.symm ne]
        · simp [lookup_cons_eq, h, ih]

/-- Putting in a value is seen under its own key and nowhere else. -/
theorem get?_insert (m : KeyMap α) (key : String) (value : α) (other : String) :
    (m.insert key value).get? other = if other = key then some value else m.get? other :=
  lookup_insertEntry key value m.entries other

end KeyMap

/-! Lists that may be absent -/

abbrev Listing (α : Type) := Option (List α)

namespace Listing

variable {α β : Type}

def items (l : Listing α) : List α := l.getD []

@[simp] theorem items_none : items (none : Listing α) = [] := rfl

@[simp] theorem items_some (xs : List α) : items (some xs) = xs := rfl

/-- Add items at the end. Adding none leaves an absent list absent. -/
def append (l : Listing α) (more : List α) : Listing α :=
  if more.isEmpty then l else some (l.items ++ more)

@[simp] theorem items_append (l : Listing α) (more : List α) :
    (append l more).items = l.items ++ more := by
  cases more with
  | nil => simp [append]
  | cons a as => simp [append, items]

def push (l : Listing α) (a : α) : Listing α := some (l.items ++ [a])

/-- Add the values that are not there yet, each once. -/
def appendUnique [DecidableEq α] (l : Listing α) (add : List α) : Listing α :=
  add.foldl (fun l a => if a ∈ l.items then l else l.push a) l

end Listing
end ClassAtlas
