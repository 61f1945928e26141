import ClassAtlas.File.Disk
import Mathlib

/-!
Where a path leads on a disk. Only the directories and links of a tree decide it, by the rules of
`Leads`: the way that the resolver takes is the one that these rules describe, and at its end is what
the tree has there.
-/
namespace ClassAtlas.File

/-- What a node is, without what is below it. -/
inductive Kind where
  | file (bytes : List UInt8) (executable : Bool)
  | link (target : String)
  | dir

namespace Node

def kind : Node → Kind
  | .file bytes executable => .file bytes executable
  | .link target => .link target
  | .dir _ => .dir

def kindAt (root : Node) (names : List String) : Option Kind := (root.at? names).map kind

theorem at?_append (node : Node) (names more : List String) :
    node.at? (names ++ more) = (node.at? names).bind (·.at? more) := by
  induction names generalizing node with
  | nil => rw [List.nil_append, at?, Option.bind_some]
  | cons name names ih =>
    cases node with
    | dir entries =>
      simp only [List.cons_append, at?]
      cases entries.lookup name with
      | none => rfl
      | some next => exact ih next
    | _ => rfl

theorem exists_of_at?_cons {tree node : Node} {name : String} {rest : List String}
    (h : tree.at? (name :: rest) = some node) :
    ∃ entries next, tree = .dir entries ∧ (name, next) ∈ entries ∧ next.at? rest = some node := by
  cases tree with
  | file bytes executable => cases h
  | link target => cases h
  | dir entries =>
    rw [at?] at h
    cases hnext : entries.lookup name with
    | none => simp [hnext] at h
    | some next =>
      rw [hnext] at h
      obtain ⟨l₁, l₂, hentries, -⟩ := List.lookup_eq_some_iff.1 hnext
      exact ⟨entries, next, rfl, by simp [hentries], h⟩

/-- The names below a directory are those of its entries. -/
theorem at?_concat {root : Node} {names : List String} {entries : List (String × Node)}
    (h : root.at? names = some (.dir entries)) (name : String) :
    root.at? (names ++ [name]) = entries.lookup name := by
  rw [at?_append, h, Option.bind_some, at?]
  cases entries.lookup name <;> rfl

theorem kindAt_cons (entries : List (String × Node)) (name : String) (rest : List String) :
    (Node.dir entries).kindAt (name :: rest) = (entries.lookup name).bind (·.kindAt rest) := by
  rw [kindAt, at?]
  cases entries.lookup name <;> rfl

/-- The directories and links of a tree, which a path can go through. -/
def ways (root : Node) (names : List String) : Option Kind :=
  match root.kindAt names with
  | some (.link target) => some (.link target)
  | some .dir => some .dir
  | _ => none

theorem ways_eq_dir {root : Node} {names : List String} :
    root.ways names = some .dir ↔ ∃ entries, root.at? names = some (.dir entries) := by
  cases h : root.at? names with
  | none => simp [ways, kindAt, h]
  | some node => cases node <;> simp [ways, kindAt, kind, h]

theorem ways_eq_link {root : Node} {names : List String} {target : String} :
    root.ways names = some (.link target) ↔ root.at? names = some (.link target) := by
  cases h : root.at? names with
  | none => simp [ways, kindAt, h]
  | some node => cases node <;> simp [ways, kindAt, kind, h]

theorem ways_eq_none {root : Node} {names : List String} : root.ways names = none ↔
    root.at? names = none ∨ ∃ bytes executable, root.at? names = some (.file bytes executable) := by
  cases h : root.at? names with
  | none => simp [ways, kindAt, h]
  | some node => cases node <;> simp [ways, kindAt, kind, h]

theorem ways_cases (root : Node) (names : List String) :
    root.ways names = none ∨ root.ways names = some .dir ∨
      ∃ target, root.ways names = some (.link target) := by
  unfold ways
  split
  · exact .inr (.inr ⟨_, rfl⟩)
  · exact .inr (.inl rfl)
  · exact .inl rfl

end Node

open Node

/-- A name that is neither empty nor a word for a place itself or for its parent. -/
def IsStep (name : String) : Prop := name ≠ "" ∧ name ≠ "." ∧ name ≠ ".."

/-- Where a path leads with so many links at most, in a tree with these directories and links. The
names so far are in `trail`, the last one first. -/
inductive Leads (ways : List String → Option Kind) (follow : Bool) :
    Nat → List String → List String → List String → Prop where
  | done (links : Nat) (trail : List String) : Leads ways follow links trail [] trail.reverse
  | here {links : Nat} {trail rest names : List String} {name : String}
    (hdir : ways trail.reverse = some .dir) (hname : name = "" ∨ name = ".")
    (h : Leads ways follow links trail rest names) :
    Leads ways follow links trail (name :: rest) names
  | parent {links : Nat} {trail rest names : List String} (hdir : ways trail.reverse = some .dir)
    (h : Leads ways follow links trail.tail rest names) :
    Leads ways follow links trail (".." :: rest) names
  | enter {links : Nat} {trail rest names : List String} {name : String}
    (hdir : ways trail.reverse = some .dir) (hname : IsStep name)
    (hnext : ways (trail.reverse ++ [name]) = some .dir)
    (h : Leads ways follow links (name :: trail) rest names) :
    Leads ways follow links trail (name :: rest) names
  | link {links : Nat} {trail rest names : List String} {name target : String}
    (hdir : ways trail.reverse = some .dir) (hname : IsStep name)
    (hnext : ways (trail.reverse ++ [name]) = some (.link target))
    (hfollow : follow = true ∨ rest ≠ [])
    (h : Leads ways follow links (if Path.isAbsolute target then [] else trail)
      (Path.components target ++ rest) names) :
    Leads ways follow (links + 1) trail (name :: rest) names
  /-- A link at the end, if it is not to be followed. -/
  | stop {links : Nat} {trail : List String} {name target : String}
    (hdir : ways trail.reverse = some .dir) (hname : IsStep name)
    (hnext : ways (trail.reverse ++ [name]) = some (.link target)) (hfollow : follow = false) :
    Leads ways follow links trail [name] (trail.reverse ++ [name])
  /-- Nothing is behind a file, or behind what is missing. -/
  | last {links : Nat} {trail : List String} {name : String}
    (hdir : ways trail.reverse = some .dir) (hname : IsStep name)
    (hnext : ways (trail.reverse ++ [name]) = none) :
    Leads ways follow links trail [name] (trail.reverse ++ [name])

theorem isStep_cases (name : String) : (name = "" ∨ name = ".") ∨ name = ".." ∨ IsStep name := by
  unfold IsStep
  tauto

/-! One name of a path -/

section Step

variable {root : Node} {follow : Bool} {through : List String → List String → Except Reason Place}
variable {trail rest : List String} {name target : String}

/-- Only in a directory is there a name to go on with. -/
theorem ways_of_resolveWith {place : Place}
    (h : resolveWith root follow through trail (name :: rest) = .ok place) :
    root.ways trail.reverse = some .dir := by
  unfold resolveWith at h
  split at h
  · next entries hentries => exact ways_eq_dir.2 ⟨entries, hentries⟩
  · cases h

theorem resolveWith_here (hdir : root.ways trail.reverse = some .dir)
    (hname : name = "" ∨ name = ".") :
    resolveWith root follow through trail (name :: rest) =
      resolveWith root follow through trail rest := by
  obtain ⟨entries, hentries⟩ := ways_eq_dir.1 hdir
  rw [resolveWith, hentries]
  simp [hname]

theorem resolveWith_parent (hdir : root.ways trail.reverse = some .dir) :
    resolveWith root follow through trail (".." :: rest) =
      resolveWith root follow through trail.tail rest := by
  obtain ⟨entries, hentries⟩ := ways_eq_dir.1 hdir
  rw [resolveWith, hentries]
  rfl

theorem resolveWith_enter (hdir : root.ways trail.reverse = some .dir) (hname : IsStep name)
    (hnext : root.ways (trail.reverse ++ [name]) = some .dir) :
    resolveWith root follow through trail (name :: rest) =
      resolveWith root follow through (name :: trail) rest := by
  obtain ⟨entries, hentries⟩ := ways_eq_dir.1 hdir
  obtain ⟨below, hbelow⟩ := ways_eq_dir.1 hnext
  rw [at?_concat hentries] at hbelow
  rw [resolveWith, hentries]
  simp [hname.1, hname.2.1, hname.2.2, hbelow]

theorem resolveWith_link (hdir : root.ways trail.reverse = some .dir) (hname : IsStep name)
    (hnext : root.ways (trail.reverse ++ [name]) = some (.link target))
    (hfollow : follow = true ∨ rest ≠ []) :
    resolveWith root follow through trail (name :: rest) =
      through (if Path.isAbsolute target then [] else trail) (Path.components target ++ rest) := by
  obtain ⟨entries, hentries⟩ := ways_eq_dir.1 hdir
  have hlink := ways_eq_link.1 hnext
  rw [at?_concat hentries] at hlink
  have hstop : (rest.isEmpty && !follow) = false := by
    rcases hfollow with hfollow | hrest
    · simp [hfollow]
    · simp [hrest]
  rw [resolveWith, hentries]
  simp [hname.1, hname.2.1, hname.2.2, hlink, hstop]

theorem resolveWith_stop (hdir : root.ways trail.reverse = some .dir) (hname : IsStep name)
    (hnext : root.ways (trail.reverse ++ [name]) = some (.link target)) (hfollow : follow = false) :
    resolveWith root follow through trail [name] =
      .ok ⟨trail.reverse ++ [name], root.at? (trail.reverse ++ [name])⟩ := by
  obtain ⟨entries, hentries⟩ := ways_eq_dir.1 hdir
  have hlink := ways_eq_link.1 hnext
  rw [hlink, resolveWith, hentries]
  rw [at?_concat hentries] at hlink
  simp [hname.1, hname.2.1, hname.2.2, hlink, hfollow]

theorem resolveWith_last (hdir : root.ways trail.reverse = some .dir) (hname : IsStep name)
    (hnext : root.ways (trail.reverse ++ [name]) = none) :
    resolveWith root follow through trail [name] =
      .ok ⟨trail.reverse ++ [name], root.at? (trail.reverse ++ [name])⟩ := by
  obtain ⟨entries, hentries⟩ := ways_eq_dir.1 hdir
  have hnode := at?_concat hentries name
  rw [resolveWith, hentries]
  rcases ways_eq_none.1 hnext with hends | ⟨bytes, executable, hends⟩
  · rw [hends] at hnode ⊢
    simp [hname.1, hname.2.1, hname.2.2, ← hnode]
  · rw [hends] at hnode
    simp [hname.1, hname.2.1, hname.2.2, ← hnode, resolveWith]

theorem resolveWith_behind (hdir : root.ways trail.reverse = some .dir) (hname : IsStep name)
    (hnext : root.ways (trail.reverse ++ [name]) = none) (hrest : rest ≠ []) (place : Place) :
    resolveWith root follow through trail (name :: rest) ≠ .ok place := by
  obtain ⟨entries, hentries⟩ := ways_eq_dir.1 hdir
  have hnode := at?_concat hentries name
  rw [resolveWith, hentries]
  rcases ways_eq_none.1 hnext with hends | ⟨bytes, executable, hends⟩
  · rw [hends] at hnode
    simp [hname.1, hname.2.1, hname.2.2, ← hnode, hrest]
  · obtain ⟨next, more, rfl⟩ := List.exists_cons_of_ne_nil hrest
    rw [hends] at hnode
    simp [hname.1, hname.2.1, hname.2.2, ← hnode, resolveWith, hends]

end Step

/-! Whole paths -/

theorem leads_of_resolveWith {root : Node} {follow : Bool} {links : Nat}
    {through : List String → List String → Except Reason Place}
    (hthrough : ∀ trail path place, through trail path = .ok place → ∃ fewer, links = fewer + 1 ∧
      Leads root.ways follow fewer trail path place.names ∧ place.node = root.at? place.names)
    {trail path : List String} {place : Place}
    (h : resolveWith root follow through trail path = .ok place) :
    Leads root.ways follow links trail path place.names ∧ place.node = root.at? place.names := by
  induction path generalizing trail with
  | nil =>
    rw [resolveWith_nil] at h
    cases h
    exact ⟨.done links trail, rfl⟩
  | cons name rest ih =>
    have hdir := ways_of_resolveWith h
    rcases isStep_cases name with hhere | rfl | hname
    · rw [resolveWith_here hdir hhere] at h
      exact ⟨.here hdir hhere (ih h).1, (ih h).2⟩
    · rw [resolveWith_parent hdir] at h
      exact ⟨.parent hdir (ih h).1, (ih h).2⟩
    rcases root.ways_cases (trail.reverse ++ [name]) with hnext | hnext | ⟨target, hnext⟩
    · by_cases hrest : rest = []
      · subst hrest
        rw [resolveWith_last hdir hname hnext] at h
        cases h
        exact ⟨.last hdir hname hnext, rfl⟩
      · exact absurd h (resolveWith_behind hdir hname hnext hrest place)
    · rw [resolveWith_enter hdir hname hnext] at h
      exact ⟨.enter hdir hname hnext (ih h).1, (ih h).2⟩
    · by_cases hfollow : follow = true ∨ rest ≠ []
      · rw [resolveWith_link hdir hname hnext hfollow] at h
        obtain ⟨fewer, rfl, hleads, hplace⟩ := hthrough _ _ _ h
        exact ⟨.link hdir hname hnext hfollow hleads, hplace⟩
      · obtain ⟨hstop, rfl⟩ : follow = false ∧ rest = [] := by simpa using hfollow
        rw [resolveWith_stop hdir hname hnext hstop] at h
        cases h
        exact ⟨.stop hdir hname hnext hstop, rfl⟩

theorem resolve_eq (root : Node) (follow : Bool) (links : Nat) :
    ∃ through, resolve root follow links = resolveWith root follow through := by
  cases links <;> exact ⟨_, rfl⟩

theorem Leads.resolve_eq_ok {root : Node} {follow : Bool} {links : Nat}
    {trail path names : List String} (h : Leads root.ways follow links trail path names) :
    resolve root follow links trail path = .ok ⟨names, root.at? names⟩ := by
  induction h with
  | done links trail =>
    obtain ⟨through, heq⟩ := resolve_eq root follow links
    rw [heq, resolveWith_nil]
  | @here links trail rest names name hdir hname _ ih =>
    obtain ⟨through, heq⟩ := resolve_eq root follow links
    rw [heq] at ih ⊢
    rw [resolveWith_here hdir hname, ih]
  | @parent links trail rest names hdir _ ih =>
    obtain ⟨through, heq⟩ := resolve_eq root follow links
    rw [heq] at ih ⊢
    rw [resolveWith_parent hdir, ih]
  | @enter links trail rest names name hdir hname hnext _ ih =>
    obtain ⟨through, heq⟩ := resolve_eq root follow links
    rw [heq] at ih ⊢
    rw [resolveWith_enter hdir hname hnext, ih]
  | link hdir hname hnext hfollow _ ih =>
    rw [resolve, resolveWith_link hdir hname hnext hfollow, ih]
  | @stop links trail name target hdir hname hnext hfollow =>
    obtain ⟨through, heq⟩ := resolve_eq root follow links
    rw [heq, resolveWith_stop hdir hname hnext hfollow]
  | @last links trail name hdir hname hnext =>
    obtain ⟨through, heq⟩ := resolve_eq root follow links
    rw [heq, resolveWith_last hdir hname hnext]

theorem resolve_eq_ok_iff {root : Node} {follow : Bool} {links : Nat} {trail path : List String}
    {place : Place} : resolve root follow links trail path = .ok place ↔
      Leads root.ways follow links trail path place.names ∧ place.node = root.at? place.names := by
  constructor
  · intro h
    induction links generalizing trail path place with
    | zero => exact leads_of_resolveWith (fun _ _ _ h => by cases h) h
    | succ links ih => exact leads_of_resolveWith (fun _ _ _ h => ⟨links, rfl, ih h⟩) h
  · rintro ⟨hleads, hnode⟩
    rw [hleads.resolve_eq_ok, ← hnode]

namespace Disk

/-- The names of the place that a path leads to. -/
def place? (d : Disk) (path : String) : Option (List String) :=
  (d.locate true path).toOption.map Place.names

/-- The names from which a path is followed, the last one first. -/
def origin (d : Disk) (path : String) : List String :=
  if Path.isAbsolute path then [] else d.workingDir.reverse

theorem locate_eq_ok_iff {d : Disk} {follow : Bool} {path : String} {place : Place} :
    d.locate follow path = .ok place ↔ path ≠ "" ∧
      Leads d.root.ways follow linkLimit (d.origin path) (Path.components path) place.names ∧
      place.node = d.root.at? place.names := by
  unfold locate
  by_cases hpath : path = ""
  · simp [hpath]
  · rw [if_neg (by simpa using hpath)]
    exact resolve_eq_ok_iff.trans (by simp [hpath, origin])

theorem place?_eq_some_iff {d : Disk} {path : String} {names : List String} :
    d.place? path = some names ↔ d.locate true path = .ok ⟨names, d.root.at? names⟩ := by
  unfold place?
  cases h : d.locate true path with
  | error reason => simp [Except.toOption]
  | ok place =>
    have hnode := (locate_eq_ok_iff.1 h).2.2
    obtain ⟨found, node⟩ := place
    simp only at hnode
    subst hnode
    constructor
    · rintro ⟨⟩
      rfl
    · rintro ⟨⟩
      rfl

/-- Directories, links and the working directory decide where a path leads. -/
theorem place?_congr {d d' : Disk} (hways : d'.root.ways = d.root.ways)
    (hdir : d'.workingDir = d.workingDir) : d'.place? = d.place? := by
  funext path
  refine Option.ext fun names => ?_
  simp only [place?_eq_some_iff, locate_eq_ok_iff, hways, origin, hdir]

end Disk
end ClassAtlas.File
