import ClassAtlas.Proofs.File.Canonical
import ClassAtlas.Proofs.File.Write

/-!
A directory and the texts in it. A text that is written under a new name comes to those that are
there already, and the entries stay in order of their names.
-/
namespace ClassAtlas

namespace KeyMap

variable {α : Type} {key : String} {entries : List (String × α)}

theorem lookup_eq_none_iff : entries.lookup key = none ↔ key ∉ entries.map (·.1) := by
  induction entries with
  | nil => simp
  | cons head more ih =>
    obtain ⟨k, v⟩ := head
    rw [lookup_cons_eq, List.map_cons, List.mem_cons, not_or, ← ih]
    by_cases h : key = k <;> simp [h]

/-- A new key goes between the others. -/
theorem insertEntry_perm (value : α) (h : key ∉ entries.map (·.1)) :
    (insertEntry key value entries).Perm ((key, value) :: entries) := by
  induction entries with
  | nil => exact .refl _
  | cons head more ih =>
    obtain ⟨k, v⟩ := head
    rw [List.map_cons, List.mem_cons, not_or] at h
    simp only [insertEntry, if_neg h.1]
    split
    · exact .refl _
    · exact ((ih h.2).cons _).trans (.swap _ _ _)

theorem lookup_of_mem {value : α} (h : (key, value) ∈ entries)
    (hdistinct : entries.Pairwise (·.1 ≠ ·.1)) : entries.lookup key = some value := by
  induction entries with
  | nil => cases h
  | cons head more ih =>
    obtain ⟨k, v⟩ := head
    obtain ⟨hhead, hmore⟩ := List.pairwise_cons.1 hdistinct
    rw [lookup_cons_eq]
    rcases List.mem_cons.1 h with heq | h
    · cases heq
      rw [if_pos rfl]
    · have hne : k ≠ key := hhead _ h
      rw [if_neg hne.symm, ih h hmore]

end KeyMap

namespace File

open Node

/-- To put a node into a directory is to put it among the entries. -/
theorem Node.at?_put {root new : Node} {names : List String} {entries : List (String × Node)}
    (h : root.at? names = some (.dir entries)) (name : String) :
    (put new root (names ++ [name])).at? names =
      some (.dir (KeyMap.insertEntry name new entries)) := by
  induction names generalizing root with
  | nil =>
    rw [at?] at h
    cases h
    simp [put, at?]
  | cons first more ih =>
    cases root with
    | dir below =>
      rw [at?] at h
      cases hnext : below.lookup first with
      | none => simp [hnext] at h
      | some next =>
        rw [hnext] at h
        rw [List.cons_append, put, at?, KeyMap.lookup_insertEntry, if_pos rfl, hnext,
          Option.getD_some]
        exact ih h
    | _ => cases h

namespace Disk

/-- The entry of a text. -/
def textEntry (t : String × String) : String × Node := (t.1, .file (Text.Utf8.encode t.2) false)

/-- A path leads to a directory with exactly these texts, in order of their names. -/
structure Holds (d : Disk) (dir : String) (names : List String) (texts : List (String × String)) :
    Prop extends d.Reaches dir names where
  node : ∃ entries, d.root.at? names = some (.dir entries) ∧ entries.Pairwise (·.1 < ·.1) ∧
    entries.Perm (texts.map textEntry)

theorem lookup_of_place? {d : Disk} {path : String} {names : List String} {node : Node}
    (hplace : d.place? path = some names) (hnode : d.root.at? names = some node) :
    d.lookup true path = .ok node := by
  rw [lookup, place?_eq_some_iff.1 hplace, hnode]
  rfl

theorem place?_of_lookup {d : Disk} {path : String} {node : Node}
    (h : d.lookup true path = .ok node) :
    ∃ names, d.place? path = some names ∧ d.root.at? names = some node := by
  unfold lookup at h
  cases hlocate : d.locate true path with
  | error reason =>
    rw [hlocate] at h
    cases h
  | ok place =>
    rw [hlocate] at h
    have hat := (locate_eq_ok_iff.1 hlocate).2.2
    obtain ⟨names, found⟩ := place
    refine ⟨names, by rw [place?, hlocate]; rfl, ?_⟩
    cases found with
    | none => cases h
    | some found =>
      cases h
      exact hat.symm

theorem readDir_eq_ok {d : Disk} {dir : String} {entries : List (String × Node)} :
    d.readDir dir = .ok entries ↔ d.lookup true dir = .ok (.dir entries) := by
  unfold readDir
  cases d.lookup true dir with
  | error reason => simp
  | ok node => cases node <;> simp

theorem holds_of_readDir {d : Disk} {dir : String} (halike : d.CleanAlike dir)
    (h : d.readDir dir = .ok []) : ∃ names, d.Holds dir names [] := by
  obtain ⟨names, hplace, hnode⟩ := place?_of_lookup (readDir_eq_ok.1 h)
  exact ⟨names, ⟨hplace, ways_eq_dir.2 ⟨[], hnode⟩, halike⟩, [], hnode, .nil, .refl _⟩

namespace Holds

variable {d : Disk} {dir : String} {names : List String} {texts : List (String × String)}

theorem perm (h : d.Holds dir names texts) {texts' : List (String × String)}
    (hperm : texts.Perm texts') : d.Holds dir names texts' := by
  obtain ⟨entries, hentries, hsorted, hsame⟩ := h.node
  exact ⟨h.toReaches, entries, hentries, hsorted, hsame.trans (hperm.map _)⟩

/-- A directory that is there is not made again. -/
theorem makeDirs (h : d.Holds dir names texts) : d.makeDirs dir = .ok d := by
  obtain ⟨entries, hentries, -⟩ := h.node
  rw [Disk.makeDirs, makeDirsWithin, lookup_of_place? h.place hentries]

/-- A text under a new name can be written, and comes to the others. -/
theorem writeText (h : d.Holds dir names texts) {name : String} (hname : Path.Proper name)
    (hnew : name ∉ texts.map (·.1)) (text : String) :
    ∃ d', d.writeText (Path.join dir name) text = .ok d' ∧
      d'.Holds dir names ((name, text) :: texts) := by
  obtain ⟨entries, hentries, hsorted, hperm⟩ := h.node
  have hfree : name ∉ entries.map (·.1) := by
    intro hmem
    have hkeys := (hperm.map (·.1)).mem_iff.1 hmem
    rw [List.map_map] at hkeys
    exact hnew hkeys
  have hnone : d.root.at? (names ++ [name]) = none := by
    rw [at?_concat hentries, KeyMap.lookup_eq_none_iff.2 hfree]
  have hways : d.root.ways (names ++ [name]) = none := ways_eq_none.2 (.inl hnone)
  have hplace := h.place?_join hname (by simp [hways])
  have htakes := takes_of_place? hplace hways
  refine ⟨d.put (names ++ [name]) (.file (Text.Utf8.encode text) false), ?_, ?_, ?_⟩
  · rw [Disk.writeText, writeFile, place?_eq_some_iff.1 hplace, hnone]
  · exact h.toReaches.congr ⟨ways_put htakes _ _, rfl⟩
  · refine ⟨_, at?_put hentries name, KeyMap.sorted_insertEntry _ _ hsorted, ?_⟩
    exact (KeyMap.insertEntry_perm _ hfree).trans (hperm.cons _)

theorem at?_of_mem (h : d.Holds dir names texts) {t : String × String} (ht : t ∈ texts) :
    d.root.at? (names ++ [t.1]) = some (.file (Text.Utf8.encode t.2) false) := by
  obtain ⟨entries, hentries, hsorted, hperm⟩ := h.node
  rw [at?_concat hentries]
  exact KeyMap.lookup_of_mem (hperm.mem_iff.2 (List.mem_map_of_mem ht)) (hsorted.imp ne_of_lt)

/-- A text of the directory is found by its name. -/
theorem lookup_join (h : d.Holds dir names texts) {t : String × String} (ht : t ∈ texts)
    (hname : Path.Proper t.1) :
    d.lookup true (Path.join dir t.1) = .ok (.file (Text.Utf8.encode t.2) false) := by
  have hfile := h.at?_of_mem ht
  have hways := ways_eq_none.2 (.inr ⟨_, _, hfile⟩)
  exact lookup_of_place? (h.place?_join hname (by simp [hways])) hfile

end Holds
end Disk
end File
end ClassAtlas
