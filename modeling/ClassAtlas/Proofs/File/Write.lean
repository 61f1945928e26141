import ClassAtlas.Proofs.File.Locate
import ClassAtlas.Proofs.Text.Utf8

/-!
Files that are written to a disk. Every path leads to the same place before and after; the text is
read from its own place, and at every other place is what was there.
-/
namespace ClassAtlas.File

namespace Node

/-- A file may be put at a place: a file is there, or nothing, but a directory to hold it. -/
inductive Takes : Node → List String → Prop where
  | file (bytes : List UInt8) (executable : Bool) : Takes (.file bytes executable) []
  | new {entries : List (String × Node)} {name : String} (h : entries.lookup name = none) :
    Takes (.dir entries) [name]
  | deeper {entries : List (String × Node)} {name : String} {node : Node} {rest : List String}
    (h : entries.lookup name = some node) (hrest : node.Takes rest) :
    Takes (.dir entries) (name :: rest)

theorem Takes.append {root node : Node} {names rest : List String} (h : node.Takes rest)
    (hnode : root.at? names = some node) : root.Takes (names ++ rest) := by
  induction names generalizing root with
  | nil =>
    rw [at?] at hnode
    cases hnode
    exact h
  | cons name names ih =>
    cases root with
    | dir entries =>
      rw [at?] at hnode
      cases hnext : entries.lookup name with
      | none => simp [hnext] at hnode
      | some next =>
        rw [hnext] at hnode
        exact .deeper hnext (ih hnode)
    | _ => cases hnode

theorem takes_of_file {root : Node} {names : List String} {bytes : List UInt8} {executable : Bool}
    (h : root.at? names = some (.file bytes executable)) : root.Takes names := by
  rw [← List.append_nil names]
  exact (Takes.file bytes executable).append h

/-- To put a file at a place changes that place only. -/
theorem kindAt_put {root : Node} {names : List String} (h : root.Takes names) (bytes : List UInt8)
    (executable : Bool) : (put (.file bytes executable) root names).kindAt =
      Function.update root.kindAt names (some (.file bytes executable)) := by
  -- on the way down one entry of each directory is replaced, and the others are not touched
  induction h with
  | file old mode =>
    funext other
    cases other <;> rfl
  | @new entries name h =>
    funext other
    cases other with
    | nil => rfl
    | cons first rest =>
      rw [put, kindAt_cons, KeyMap.lookup_insertEntry, h, put]
      by_cases hfirst : first = name
      · subst hfirst
        rw [if_pos rfl, Option.bind_some]
        cases rest with
        | nil => simp [kindAt, at?, kind]
        | cons _ _ =>
          rw [Function.update_of_ne (by simp), kindAt_cons, h]
          rfl
      · rw [if_neg hfirst, Function.update_of_ne (by simp [hfirst]), kindAt_cons]
  | @deeper entries name node below h _ ih =>
    funext other
    cases other with
    | nil => rfl
    | cons first rest =>
      rw [put, kindAt_cons, KeyMap.lookup_insertEntry, h, Option.getD_some]
      by_cases hfirst : first = name
      · subst hfirst
        rw [if_pos rfl, Option.bind_some, ih]
        by_cases hrest : rest = below
        · simp [hrest]
        · rw [Function.update_of_ne hrest, Function.update_of_ne (by simp [hrest]), kindAt_cons, h,
            Option.bind_some]
      · rw [if_neg hfirst, Function.update_of_ne (by simp [hfirst]), kindAt_cons]

theorem Takes.ways_eq_none {root : Node} {names : List String} (h : root.Takes names) :
    root.ways names = none := by
  induction h with
  | file bytes executable => rfl
  | new h => simp [ways, kindAt_cons, h]
  | deeper h _ ih => simpa [ways, kindAt_cons, h] using ih

theorem takes_of_dir {root : Node} {names : List String}
    (hdir : root.ways names = some .dir) {name : String}
    (hnext : root.ways (names ++ [name]) = none) : root.Takes (names ++ [name]) := by
  rcases ways_eq_none.1 hnext with hnode | ⟨bytes, executable, hnode⟩
  · obtain ⟨entries, hentries⟩ := ways_eq_dir.1 hdir
    rw [at?_concat hentries] at hnode
    exact (Takes.new hnode).append hentries
  · exact takes_of_file hnode

theorem ways_put {root : Node} {names : List String} (h : root.Takes names) (bytes : List UInt8)
    (executable : Bool) : (put (.file bytes executable) root names).ways = root.ways := by
  funext other
  by_cases hother : other = names
  · subst hother
    rw [h.ways_eq_none, ways, kindAt_put h, Function.update_self]
  · rw [ways, ways, kindAt_put h, Function.update_of_ne hother]

end Node

open Node

/-- Where a path leads to no directory and no link, a file can be put. -/
theorem Leads.takes {root : Node} {follow : Bool} {links : Nat} {trail path names : List String}
    (h : Leads root.ways follow links trail path names)
    (hstart : (root.at? trail.reverse).isSome ∨ path ≠ []) (hends : root.ways names = none) :
    root.Takes names := by
  have hsome : ∀ {names : List String}, root.ways names = some .dir → (root.at? names).isSome := by
    intro names hdir
    obtain ⟨entries, hentries⟩ := ways_eq_dir.1 hdir
    rw [hentries, Option.isSome_some]
  -- what is missing at the end has a parent that the path went through
  induction h with
  | done links trail =>
    rcases ways_eq_none.1 hends with hnode | ⟨bytes, executable, hnode⟩
    · simp [hnode] at hstart
    · exact takes_of_file hnode
  | here hdir _ _ ih => exact ih (.inl (hsome hdir)) hends
  | @parent links trail rest names hdir _ ih =>
    refine ih (.inl ?_) hends
    cases trail with
    | nil => exact hsome hdir
    | cons last trail =>
      have hlast := hsome hdir
      rw [List.reverse_cons, at?_append] at hlast
      exact Option.isSome_of_isSome_bind hlast
  | enter hdir hname hnext _ ih => exact ih (.inl (List.reverse_cons ▸ hsome hnext)) hends
  | @link links trail rest names name target hdir hname hnext _ _ ih =>
    refine ih (.inl ?_) hends
    split
    · rfl
    · exact hsome hdir
  | stop hdir hname hnext hfollow => rw [hnext] at hends; cases hends
  | last hdir hname hnext => exact takes_of_dir hdir hnext

namespace Disk

theorem takes_of_place? {d : Disk} {path : String} {names : List String}
    (h : d.place? path = some names) (hends : d.root.ways names = none) : d.root.Takes names := by
  obtain ⟨-, hleads, -⟩ := locate_eq_ok_iff.1 (place?_eq_some_iff.1 h)
  exact hleads.takes (.inr (by simp [Path.components, Text.splitOn, Text.pieces_ne_nil])) hends

/-- A file can be written where no directory is. -/
theorem exists_writeFile {d : Disk} {path : String} {names : List String}
    (h : d.place? path = some names) (hends : d.root.ways names = none) (bytes : List UInt8) :
    ∃ executable, d.writeFile path bytes = .ok (d.put names (.file bytes executable)) := by
  have hlocate := place?_eq_some_iff.1 h
  unfold writeFile
  rw [hlocate]
  rcases ways_eq_none.1 hends with hnode | ⟨old, executable, hnode⟩
  · rw [hnode]
    exact ⟨_, rfl⟩
  · rw [hnode]
    exact ⟨executable, rfl⟩

theorem readFile_of_kindAt {d : Disk} {path : String} {names : List String} {bytes : List UInt8}
    {executable : Bool} (hplace : d.place? path = some names)
    (hkind : d.root.kindAt names = some (.file bytes executable)) : d.readFile path = .ok bytes := by
  obtain ⟨node, hnode, hkind⟩ := Option.map_eq_some_iff.1 hkind
  have hlookup : d.lookup true path = .ok node := by
    rw [lookup, place?_eq_some_iff.1 hplace, hnode]
    rfl
  rw [readFile, hlookup]
  cases node with
  | file old mode => cases hkind; rfl
  | _ => cases hkind

/-- Paths that lead to places of their own, with a file or nothing at each of them. -/
structure Receives (d : Disk) (paths : List String) : Prop where
  free : ∀ path ∈ paths, ∃ names, d.place? path = some names ∧ d.root.ways names = none
  apart : (paths.map d.place?).Nodup

theorem receives_iff {d : Disk} {paths : List String} : d.Receives paths ↔
    (paths.all fun path => (d.place? path).any fun names => (d.root.ways names).isNone) = true ∧
      (paths.map d.place?).Nodup := by
  constructor
  · intro h
    refine ⟨List.all_eq_true.2 ?_, h.apart⟩
    intro path hpath
    obtain ⟨names, hplace, hends⟩ := h.free path hpath
    simp [hplace, hends]
  · rintro ⟨hfree, hapart⟩
    refine ⟨?_, hapart⟩
    intro path hpath
    obtain ⟨names, hplace, hends⟩ := (Option.any_eq_true _ _).1 (List.all_eq_true.1 hfree path hpath)
    exact ⟨names, hplace, Option.isNone_iff_eq_none.1 hends⟩

instance (d : Disk) (paths : List String) : Decidable (d.Receives paths) :=
  decidable_of_iff' _ receives_iff

/-- What a disk has become after texts were written to some paths: a file with its text is at the
place of each path, and at all other places is what was there. -/
structure Wrote (d d' : Disk) (texts : List (String × String)) : Prop where
  workingDir : d'.workingDir = d.workingDir
  ways : d'.root.ways = d.root.ways
  holds : ∀ t ∈ texts, ∃ names executable, d.place? t.1 = some names ∧
    d'.root.kindAt names = some (.file (Text.Utf8.encode t.2) executable)
  kept : ∀ names, some names ∉ texts.map (d.place? ·.1) → d'.root.kindAt names = d.root.kindAt names

namespace Wrote

variable {d d' : Disk} {texts : List (String × String)}

theorem nil (d : Disk) : d.Wrote d [] := ⟨rfl, rfl, by simp, fun _ _ => rfl⟩

theorem place?_eq (h : d.Wrote d' texts) : d'.place? = d.place? := place?_congr h.ways h.workingDir

theorem readFile (h : d.Wrote d' texts) {path text : String} (ht : (path, text) ∈ texts) :
    d'.readFile path = .ok (Text.Utf8.encode text) := by
  obtain ⟨names, executable, hplace, hkind⟩ := h.holds _ ht
  exact readFile_of_kindAt (h.place?_eq ▸ hplace) hkind

theorem readText (h : d.Wrote d' texts) {path text : String} (ht : (path, text) ∈ texts) :
    d'.readText path = .ok text := by
  rw [Disk.readText, h.readFile ht]
  exact congrArg Except.ok (Text.Utf8.decode_encode_self text)

theorem receives (h : d.Wrote d' texts) {paths : List String} (hpaths : d.Receives paths) :
    d'.Receives paths := by
  refine ⟨?_, ?_⟩
  · rw [h.place?_eq, h.ways]
    exact hpaths.free
  · rw [h.place?_eq]
    exact hpaths.apart

/-- What was written first stays, since what is written after it has other places. -/
theorem cons {d'' : Disk} {first : String × String} (h : d.Wrote d' [first])
    (hmore : d'.Wrote d'' texts) (hapart : d.place? first.1 ∉ texts.map (d.place? ·.1)) :
    d.Wrote d'' (first :: texts) := by
  refine ⟨hmore.workingDir.trans h.workingDir, hmore.ways.trans h.ways, ?_, ?_⟩
  · intro t ht
    rcases List.mem_cons.1 ht with rfl | ht
    · obtain ⟨names, executable, hplace, hkind⟩ := h.holds t (by simp)
      refine ⟨names, executable, hplace, ?_⟩
      rw [hmore.kept names (by rwa [h.place?_eq, ← hplace]), hkind]
    · rw [← h.place?_eq]
      exact hmore.holds t ht
  · intro names hnames
    rw [List.map_cons, List.mem_cons, not_or] at hnames
    rw [hmore.kept names (by rw [h.place?_eq]; exact hnames.2), h.kept names (by simpa using hnames.1)]

end Wrote

/-- The first of several texts is written, and the others have their places still. -/
theorem Receives.writeText {d : Disk} {path : String} {paths : List String}
    (h : d.Receives (path :: paths)) (text : String) :
    ∃ d', d.writeText path text = .ok d' ∧ d.Wrote d' [(path, text)] ∧ d'.Receives paths := by
  obtain ⟨hfirst, hfree⟩ := List.forall_mem_cons.1 h.free
  obtain ⟨names, hplace, hends⟩ := hfirst
  have htakes := takes_of_place? hplace hends
  obtain ⟨executable, hwrite⟩ := exists_writeFile hplace hends (Text.Utf8.encode text)
  have hkind := kindAt_put htakes (Text.Utf8.encode text) executable
  have hwrote : d.Wrote (d.put names (.file (Text.Utf8.encode text) executable)) [(path, text)] := by
    refine ⟨rfl, ways_put htakes _ _, ?_, ?_⟩
    · intro t ht
      obtain rfl := List.mem_singleton.1 ht
      exact ⟨names, executable, hplace, by rw [put, hkind, Function.update_self]⟩
    · intro other hother
      rw [put, hkind, Function.update_of_ne]
      rintro rfl
      exact hother (by simp [hplace])
  exact ⟨_, hwrite, hwrote, hwrote.receives ⟨hfree, (List.nodup_cons.1 h.apart).2⟩⟩

/-- What could be written has its place. -/
theorem receives_of_writeText {d d' : Disk} {path text : String}
    (h : d.writeText path text = .ok d') : d.Receives [path] := by
  have hplaced : ∀ {names : List String} {node : Option Node},
      d.locate true path = .ok ⟨names, node⟩ →
      d.place? path = some names ∧ node = d.root.at? names := by
    intro names node hlocate
    have hnode : node = d.root.at? names := (locate_eq_ok_iff.1 hlocate).2.2
    exact ⟨place?_eq_some_iff.2 (hnode ▸ hlocate), hnode⟩
  refine ⟨List.forall_mem_singleton.2 ?_, by simp⟩
  unfold writeText writeFile at h
  split at h
  next names hlocate =>
    obtain ⟨hplace, hnode⟩ := hplaced hlocate
    exact ⟨names, hplace, ways_eq_none.2 (.inl hnode.symm)⟩
  next names old executable hlocate =>
    obtain ⟨hplace, hnode⟩ := hplaced hlocate
    exact ⟨names, hplace, ways_eq_none.2 (.inr ⟨old, executable, hnode.symm⟩)⟩
  · cases h
  · cases h

theorem wrote_of_writeText {d d' : Disk} {path text : String} (h : d.writeText path text = .ok d') :
    d.Wrote d' [(path, text)] := by
  obtain ⟨found, hwrite, hwrote, -⟩ := (receives_of_writeText h).writeText text
  obtain rfl : found = d' := Except.ok.inj (hwrite.symm.trans h)
  exact hwrote

end Disk
end ClassAtlas.File
