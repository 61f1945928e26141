import ClassAtlas.File.Disk
import ClassAtlas.Proofs.File.Locate
import ClassAtlas.Proofs.File.Path

/-!
What is met below a path. All names on a disk are of some kind if those of its tree are, and a walk
from a path that starts at the root meets clean paths made of that path and of such names.
-/
namespace ClassAtlas.File

/-- All names below a node are of some kind. -/
inductive Node.Named (ok : String → Prop) : Node → Prop where
  | file (bytes : List UInt8) (executable : Bool) : Named ok (.file bytes executable)
  | link (target : String) : Named ok (.link target)
  | dir {entries : List (String × Node)} (names : ∀ e ∈ entries, ok e.1)
    (nodes : ∀ e ∈ entries, Named ok e.2) : Named ok (.dir entries)

variable {ok : String → Prop}

/-- What a directory passes on to its entries, a whole tree has. -/
theorem Node.at?_inherits {p : Node → Prop} (hp : ∀ entries, p (.dir entries) → ∀ e ∈ entries, p e.2)
    {root node : Node} (h : p root) {names : List String} (hnode : root.at? names = some node) :
    p node := by
  induction names generalizing root with
  | nil =>
    rw [Node.at?] at hnode
    exact Option.some.inj hnode ▸ h
  | cons name rest ih =>
    obtain ⟨entries, next, rfl, hmem, hbelow⟩ := Node.exists_of_at?_cons hnode
    exact ih (hp entries h _ hmem) hbelow

/-- What stands at a path has what a directory passes on to its entries, if the whole disk has it. -/
theorem Disk.lookup_inherits {p : Node → Prop}
    (hp : ∀ entries, p (.dir entries) → ∀ e ∈ entries, p e.2) {d : Disk} (h : p d.root)
    {follow : Bool} {path : String} {node : Node} (hnode : d.lookup follow path = .ok node) :
    p node := by
  unfold Disk.lookup at hnode
  cases hplace : d.locate follow path with
  | error reason =>
    rw [hplace] at hnode
    cases hnode
  | ok place =>
    rw [hplace] at hnode
    obtain ⟨names, found⟩ := place
    obtain ⟨-, -, hfound⟩ := locate_eq_ok_iff.1 hplace
    cases found with
    | none => cases hnode
    | some found =>
      cases hnode
      exact Node.at?_inherits hp h hfound.symm

theorem Node.Named.entries {entries : List (String × Node)} (h : Named ok (.dir entries)) :
    ∀ e ∈ entries, Named ok e.2 := by
  cases h with
  | dir names nodes => exact nodes

/-- What stands at a path has names of the kind that the whole disk has. -/
theorem Disk.named_lookup {d : Disk} (h : d.root.Named ok) {follow : Bool} {path : String}
    {node : Node} (hnode : d.lookup follow path = .ok node) : node.Named ok :=
  Disk.lookup_inherits (fun _ => Node.Named.entries) h hnode

/-- The paths that a walk meets below a path from the root are clean, and a character that neither
the path nor a name has does not come in. -/
theorem visits_below {c : Char} (hdot : c ≠ '.') (hslash : c ≠ '/') {node : Node}
    (hnode : node.Named (c ∉ ·.toList)) (prune : String → Bool) {path : String} (name : String)
    (hpath : Path.isAbsolute path = true) (hc : c ∉ path.toList) :
    ∀ v ∈ visits prune path name node,
      (v.path = path ∧ v.node = node) ∨ Path.Canonical v.path ∧ c ∉ v.path.toList := by
  induction hnode generalizing path name with
  | file bytes executable => simp [visits]
  | link target => simp [visits]
  | @dir entries names nodes ih =>
    have hjoin : ∀ e ∈ entries, Path.Canonical (Path.join path e.1) ∧
        c ∉ (Path.join path e.1).toList := by
      intro e he
      refine ⟨Path.canonical_join hpath e.1, fun hmem => ?_⟩
      rcases Path.mem_toList_join hpath hmem hdot hslash with h | h
      · exact hc h
      · exact names e he h
    -- over the entries in turn: a directory brings its own walk, anything else just itself
    have hin : ∀ es : List (String × Node), (∀ e ∈ es, e ∈ entries) →
        ∀ v ∈ visitsIn prune path es, Path.Canonical v.path ∧ c ∉ v.path.toList := by
      intro es
      induction es with
      | nil => simp [visitsIn]
      | cons e es ihes =>
        intro hes v hv
        obtain ⟨he, hmore⟩ := List.forall_mem_cons.1 hes
        obtain ⟨entry, below⟩ := e
        cases below with
        | file bytes executable =>
          rcases List.mem_cons.1 hv with rfl | hv
          · exact hjoin _ he
          · exact ihes hmore v hv
        | link target =>
          rcases List.mem_cons.1 hv with rfl | hv
          · exact hjoin _ he
          · exact ihes hmore v hv
        | dir inner =>
          simp only [visitsIn] at hv
          split at hv
          · exact ihes hmore v hv
          · rcases List.mem_append.1 hv with hv | hv
            · obtain ⟨hcanonical, hfree⟩ := hjoin _ he
              rcases ih _ he entry hcanonical.isAbsolute hfree v hv with ⟨hv, -⟩ | hv
              · exact hv ▸ hjoin _ he
              · exact hv
            · exact ihes hmore v hv
    intro v hv
    simp only [visits] at hv
    rcases List.mem_cons.1 hv with rfl | hv
    · exact .inl ⟨rfl, rfl⟩
    · exact .inr (hin entries (fun _ he => he) v hv)

end ClassAtlas.File
