import ClassAtlas.File.Canonical
import ClassAtlas.Proofs.File.Locate
import ClassAtlas.Proofs.File.Tidy

/-!
Links that are followed by name. To find the real names of a path, its names are taken one by one and
each link is replaced by its target, with a look at the disk for every name; the resolver does the
same along the directories. The two go side by side, so that a file of a directory is found inside it
however the directory is reached.
-/
namespace ClassAtlas.File

open Node

/-! Ways through directories -/

theorem Node.ways_of_append {root : Node} {names more : List String}
    (h : root.ways (names ++ more) = some .dir) : root.ways names = some .dir := by
  obtain ⟨entries, hentries⟩ := ways_eq_dir.1 h
  rw [at?_append, Option.bind_eq_some_iff] at hentries
  obtain ⟨node, hnode, hmore⟩ := hentries
  cases node with
  | dir below => exact ways_eq_dir.2 ⟨below, hnode⟩
  | file bytes executable => cases more <;> cases hmore
  | link target => cases more <;> cases hmore

namespace Leads

variable {root : Node} {follow : Bool} {links : Nat} {trail path names : List String}

theorem start_dir_of_ne_nil (h : Leads root.ways follow links trail path names) (hne : path ≠ []) :
    root.ways trail.reverse = some .dir := by
  cases h with
  | done => exact absurd rfl hne
  | here hdir _ _ => exact hdir
  | parent hdir _ => exact hdir
  | enter hdir _ _ _ => exact hdir
  | link hdir _ _ _ _ => exact hdir
  | stop hdir _ _ _ => exact hdir
  | last hdir _ _ => exact hdir

theorem start_dir (h : Leads root.ways follow links trail path names)
    (hends : root.ways names = some .dir) : root.ways trail.reverse = some .dir := by
  by_cases hne : path = []
  · subst path
    cases h with
    | done => exact hends
  · exact h.start_dir_of_ne_nil hne

/-- A path to a directory, and one name more that is not that of a link. -/
theorem concat (h : Leads root.ways true links trail path names)
    (hends : root.ways names = some .dir) {name : String} (hname : IsStep name)
    (hnext : ∀ target, root.ways (names ++ [name]) ≠ some (.link target)) :
    Leads root.ways true links trail (path ++ [name]) (names ++ [name]) := by
  induction h with
  | done links trail =>
    rcases root.ways_cases (trail.reverse ++ [name]) with hnone | hdir | ⟨target, hlink⟩
    · exact .last hends hname hnone
    · apply Leads.enter hends hname hdir
      rw [← List.reverse_cons]
      exact .done links _
    · exact absurd hlink (hnext target)
  | here hdir hskip _ ih => exact .here hdir hskip (ih hends hnext)
  | parent hdir _ ih => exact .parent hdir (ih hends hnext)
  | enter hdir hstep hdir' _ ih => exact .enter hdir hstep hdir' (ih hends hnext)
  | @link links trail rest names first target hdir hstep hlink _ _ ih =>
    have hrest := ih hends hnext
    rw [List.append_assoc] at hrest
    exact .link hdir hstep hlink (.inl rfl) hrest
  | stop _ _ _ hfollow => cases hfollow
  | last _ _ hnone => rw [hnone] at hends; cases hends

theorem of_here {name : String} (hname : name = "" ∨ name = ".")
    (h : Leads root.ways follow links trail (name :: path) names) :
    Leads root.ways follow links trail path names := by
  have hstep : ¬ IsStep name := fun hstep => hname.elim hstep.1 hstep.2.1
  cases h with
  | here _ _ h => exact h
  | parent _ _ => exact absurd hname (by decide)
  | enter _ hname' _ _ => exact absurd hname' hstep
  | link _ hname' _ _ _ => exact absurd hname' hstep
  | stop _ hname' _ _ => exact absurd hname' hstep
  | last _ hname' _ => exact absurd hname' hstep

theorem parents {back : Nat} (hdir : root.ways trail.reverse = some .dir)
    (h : Leads root.ways follow links (trail.drop back) path names) :
    Leads root.ways follow links trail (List.replicate back ".." ++ path) names := by
  induction back generalizing trail with
  | zero => exact h
  | succ back ih =>
    apply Leads.parent hdir
    cases trail with
    | nil => exact ih hdir (by simpa using h)
    | cons last before =>
      rw [List.reverse_cons] at hdir
      exact ih (ways_of_append hdir) h

theorem enters {on : List String} (hon : ∀ n ∈ on, Path.Proper n)
    (hdir : root.ways (trail.reverse ++ on) = some .dir)
    (h : Leads root.ways follow links (on.reverse ++ trail) path names) :
    Leads root.ways follow links trail (on ++ path) names := by
  induction on generalizing trail with
  | nil => exact h
  | cons first more ih =>
    obtain ⟨hfirst, hmore⟩ := List.forall_mem_cons.1 hon
    have hnext : root.ways (trail.reverse ++ [first] ++ more) = some .dir := by simpa using hdir
    apply Leads.enter (ways_of_append hdir) ⟨hfirst.nonempty, hfirst.notHere, hfirst.notParent⟩
      (ways_of_append hnext)
    exact ih hmore (by simpa using hnext) (by simpa using h)

/-- One name, with nothing followed. -/
theorem single (hdir : root.ways trail.reverse = some .dir) {name : String} (hname : IsStep name) :
    Leads root.ways false links trail [name] (trail.reverse ++ [name]) := by
  rcases root.ways_cases (trail.reverse ++ [name]) with hnext | hnext | ⟨target, hnext⟩
  · exact .last hdir hname hnext
  · apply Leads.enter hdir hname hnext
    rw [← List.reverse_cons]
    exact .done links _
  · exact .stop hdir hname hnext rfl

theorem to_components {absolute : Bool} {found : List String}
    (hdir : root.ways trail.reverse = some .dir) (htidy : Path.Tidy absolute names)
    (h : Leads root.ways follow links trail names found) :
    Leads root.ways follow links trail (Path.components (Path.ofComponents absolute names)) found := by
  by_cases hne : names = []
  · subst names
    cases absolute with
    | true =>
      have hparts : Path.components (Path.ofComponents true []) = ["", ""] := by decide
      rw [hparts]
      exact .here hdir (.inl rfl) (.here hdir (.inl rfl) h)
    | false =>
      have hparts : Path.components (Path.ofComponents false []) = ["."] := by decide
      rw [hparts]
      exact .here hdir (.inr rfl) h
  · rw [Path.components_ofComponents absolute hne fun n hn => (htidy.mem hn).2]
    cases absolute with
    | true => exact .here hdir (.inl rfl) h
    | false => exact h

end Leads

theorem Path.Proper.isStep {name : String} (h : Path.Proper name) : IsStep name :=
  ⟨h.nonempty, h.notHere, h.notParent⟩

theorem IsStep.proper {name : String} (h : IsStep name) (hslash : '/' ∉ name.toList) :
    Path.Proper name :=
  ⟨h.1, h.2.1, h.2.2, hslash⟩

/-! Names side by side with the resolver -/

/-- The directory that a path starts from, the last name first. -/
def Disk.start (d : Disk) (absolute : Bool) : List String :=
  if absolute then [] else d.workingDir.reverse

/-- Two disks with the same directories and links. -/
structure Disk.SameWays (d' d : Disk) : Prop where
  ways : d'.root.ways = d.root.ways
  workingDir : d'.workingDir = d.workingDir

theorem Disk.SameWays.refl (d : Disk) : d.SameWays d := ⟨rfl, rfl⟩

/-- The names that were followed, and the real names of the directory that they lead to; both with
the last one first. There are no links on the way. -/
structure Mirrors (d : Disk) (absolute : Bool) (followed real : List String) : Prop where
  start : d.root.ways (d.start absolute).reverse = some .dir
  names : ∃ on back, followed = on ++ List.replicate back ".." ∧
    real = on ++ (d.start absolute).drop back ∧ (∀ n ∈ on, Path.Proper n) ∧
    (absolute = true → back = 0)

namespace Mirrors

variable {d : Disk} {absolute : Bool} {followed real : List String}

theorem initial (h : d.root.ways (d.start absolute).reverse = some .dir) :
    Mirrors d absolute [] (d.start absolute) :=
  ⟨h, [], 0, rfl, rfl, by simp, fun _ => rfl⟩

theorem congr {d' : Disk} (hsame : d'.SameWays d) (h : Mirrors d absolute followed real) :
    Mirrors d' absolute followed real := by
  have hstart : d'.start absolute = d.start absolute := by
    rw [Disk.start, Disk.start, hsame.workingDir]
  refine ⟨?_, ?_⟩
  · rw [hstart, hsame.ways]
    exact h.start
  · rw [hstart]
    exact h.names

theorem tidy (h : Mirrors d absolute followed real) : Path.Tidy absolute followed.reverse := by
  obtain ⟨on, back, rfl, -, hon, hroot⟩ := h.names
  refine ⟨back, on.reverse, by simp, ?_, hroot⟩
  intro n hn
  exact hon n (List.mem_reverse.1 hn)

theorem enter (h : Mirrors d absolute followed real) {name : String} (hname : Path.Proper name) :
    Mirrors d absolute (name :: followed) (name :: real) := by
  obtain ⟨on, back, rfl, rfl, hon, hroot⟩ := h.names
  exact ⟨h.start, name :: on, back, rfl, rfl, List.forall_mem_cons.2 ⟨hname, hon⟩, hroot⟩

theorem parent (h : Mirrors d absolute followed real) :
    Mirrors d absolute (Path.step absolute followed "..") real.tail := by
  obtain ⟨on, back, rfl, rfl, hon, hroot⟩ := h.names
  refine ⟨h.start, ?_⟩
  cases on with
  | nil =>
    cases absolute with
    | true =>
      rw [hroot rfl]
      exact ⟨[], 0, rfl, rfl, by simp, fun _ => rfl⟩
    | false =>
      refine ⟨[], back + 1, ?_, by simp, by simp, by simp⟩
      cases back <;> simp [Path.step, List.replicate_succ]
  | cons last before =>
    obtain ⟨hlast, hbefore⟩ := List.forall_mem_cons.1 hon
    refine ⟨before, back, ?_, rfl, hbefore, hroot⟩
    simp [Path.step, hlast.notParent]

/-- Behind a link the names go on from its directory, or from the root. -/
theorem link (h : Mirrors d absolute followed real) (hdir : d.root.ways real.reverse = some .dir)
    (target : String) :
    Mirrors d (absolute || Path.isAbsolute target)
      (if Path.isAbsolute target then [] else followed)
      (if Path.isAbsolute target then [] else real) := by
  have hroot : d.root.ways [] = some .dir := by
    rw [← List.nil_append real.reverse] at hdir
    exact ways_of_append hdir
  cases Path.isAbsolute target with
  | true => simpa [Disk.start] using (initial hroot : Mirrors d true [] (d.start true))
  | false => simpa using h

/-- With absolute names, those that were followed are the real ones. -/
theorem eq_of_absolute (h : Mirrors d true followed real) : followed = real := by
  obtain ⟨on, back, rfl, rfl, -, hroot⟩ := h.names
  simp [hroot rfl, Disk.start]

/-- Where the names that were followed lead, their text leads. -/
theorem locate_eq_ok (h : Mirrors d absolute followed real) {follow : Bool} {names : List String}
    (hleads : Leads d.root.ways follow linkLimit (d.start absolute) followed.reverse names) :
    d.locate follow (Path.ofComponents absolute followed.reverse) =
      .ok ⟨names, d.root.at? names⟩ := by
  refine Disk.locate_eq_ok_iff.2 ⟨Path.ofTidy_ne_empty h.tidy, ?_, rfl⟩
  have horigin : d.origin (Path.ofComponents absolute followed.reverse) = d.start absolute := by
    rw [Disk.origin, Path.isAbsolute_ofTidy h.tidy]
    rfl
  rw [horigin]
  exact hleads.to_components h.start h.tidy

/-- The names that were followed lead to the directory, and with one more to what is there. -/
theorem lookup (h : Mirrors d absolute followed real) (hdir : d.root.ways real.reverse = some .dir)
    {name : String} (hname : Path.Proper name) {node : Node}
    (hnode : d.root.at? (real.reverse ++ [name]) = some node) :
    d.lookup false (Path.ofComponents absolute (name :: followed).reverse) = .ok node := by
  have hmirrors := h.enter hname
  obtain ⟨on, back, rfl, rfl, hon, -⟩ := h.names
  have hleads : Leads d.root.ways false linkLimit (d.start absolute)
      (name :: (on ++ List.replicate back "..")).reverse
      ((on ++ (d.start absolute).drop back).reverse ++ [name]) := by
    have hnames : (name :: (on ++ List.replicate back "..")).reverse =
        List.replicate back ".." ++ (on.reverse ++ [name]) := by simp
    rw [hnames]
    apply Leads.parents h.start
    apply Leads.enters fun n hn => hon n (List.mem_reverse.1 hn)
    · simpa using hdir
    · rw [List.reverse_reverse]
      exact .single hdir hname.isStep
  rw [Disk.lookup, hmirrors.locate_eq_ok hleads, hnode]
  rfl

end Mirrors

/-! One name that is followed -/

section Follow

variable {d : Disk} {most : Nat} {absolute : Bool} {followed real rest : List String}
variable {name target : String}

theorem followLinks_skip (h : name = "" ∨ name = ".") :
    followLinks d most absolute followed (name :: rest) =
      followLinks d most absolute followed rest := by
  rw [followLinks]
  rcases h with rfl | rfl <;> rfl

theorem followLinks_parent :
    followLinks d most absolute followed (".." :: rest) =
      followLinks d most absolute (Path.step absolute followed "..") rest := by
  rw [followLinks]
  rfl

theorem Mirrors.followLinks_enter (h : Mirrors d absolute followed real)
    (hdir : d.root.ways real.reverse = some .dir) (hname : Path.Proper name)
    (hnext : d.root.ways (real.reverse ++ [name]) = some .dir) :
    followLinks d most absolute followed (name :: rest) =
      followLinks d most absolute (name :: followed) rest := by
  obtain ⟨entries, hentries⟩ := ways_eq_dir.1 hnext
  conv_lhs => rw [followLinks, h.lookup hdir hname hentries]
  simp [hname.nonempty, hname.notHere, hname.notParent]

theorem Mirrors.followLinks_link (h : Mirrors d absolute followed real)
    (hdir : d.root.ways real.reverse = some .dir) (hname : Path.Proper name)
    (hnext : d.root.ways (real.reverse ++ [name]) = some (.link target)) :
    followLinks d (most + 1) absolute followed (name :: rest) =
      followLinks d most (absolute || Path.isAbsolute target)
        (if Path.isAbsolute target then [] else followed) (Path.components target ++ rest) := by
  conv_lhs => rw [followLinks, h.lookup hdir hname (ways_eq_link.1 hnext)]
  simp [hname.nonempty, hname.notHere, hname.notParent]

theorem Mirrors.followLinks_file (h : Mirrors d absolute followed real)
    (hdir : d.root.ways real.reverse = some .dir) (hname : Path.Proper name) {bytes : List UInt8}
    {executable : Bool}
    (hfile : d.root.at? (real.reverse ++ [name]) = some (.file bytes executable)) :
    followLinks d most absolute followed [name] = .ok (absolute, (name :: followed).reverse) := by
  rw [followLinks, h.lookup hdir hname hfile]
  simp [hname.nonempty, hname.notHere, hname.notParent, followLinks]

end Follow

/-! All names of a path -/

/-- On every disk with these directories and links, the names that are followed go along with a path
as far as it leads; behind a file there is nothing more to follow. -/
def FollowsTo (d : Disk) (most : Nat) (absolute : Bool) (followed path names : List String) : Prop :=
  ∃ most' absolute' followed', Mirrors d absolute' followed' names.reverse ∧
    (absolute = true → absolute' = true) ∧
    ∀ d' : Disk, d'.SameWays d → d'.root.at? names ≠ none →
      ∀ more, d.root.ways names = some .dir ∨ more = [] →
        followLinks d' most absolute followed (path ++ more) =
          followLinks d' most' absolute' followed' more

theorem FollowsTo.step {d : Disk} {most most' : Nat} {absolute absolute' : Bool}
    {followed followed' path path' names : List String}
    (h : FollowsTo d most' absolute' followed' path' names)
    (habsolute : absolute = true → absolute' = true)
    (hstep : ∀ (d' : Disk) (more : List String), d'.SameWays d →
      followLinks d' most absolute followed (path ++ more) =
        followLinks d' most' absolute' followed' (path' ++ more)) :
    FollowsTo d most absolute followed path names := by
  obtain ⟨most'', absolute'', followed'', hmirrors, hroot, heq⟩ := h
  refine ⟨most'', absolute'', followed'', hmirrors, hroot ∘ habsolute, ?_⟩
  intro d' hsame hends more hmore
  rw [hstep d' more hsame, heq d' hsame hends more hmore]

theorem Leads.followsTo {d : Disk} {links : Nat} {real path names : List String}
    (h : Leads d.root.ways true links real path names) (hpath : ∀ n ∈ path, '/' ∉ n.toList)
    {most : Nat} (hlinks : links ≤ most) {absolute : Bool} {followed : List String}
    (hmirrors : Mirrors d absolute followed real) :
    FollowsTo d most absolute followed path names := by
  induction h generalizing most absolute followed with
  | done links real =>
    exact ⟨most, absolute, followed, by simpa using hmirrors, id, fun _ _ _ _ _ => rfl⟩
  | here _ hskip _ ih =>
    have hrest := (List.forall_mem_cons.1 hpath).2
    exact (ih hrest hlinks hmirrors).step id fun _ _ _ => followLinks_skip hskip
  | parent _ _ ih =>
    have hrest := (List.forall_mem_cons.1 hpath).2
    exact (ih hrest hlinks hmirrors.parent).step id fun _ _ _ => followLinks_parent
  | enter hdir hstep hnext _ ih =>
    obtain ⟨hslash, hrest⟩ := List.forall_mem_cons.1 hpath
    have hname := hstep.proper hslash
    refine (ih hrest hlinks (hmirrors.enter hname)).step id fun d' more hsame => ?_
    rw [← hsame.ways] at hdir hnext
    exact (hmirrors.congr hsame).followLinks_enter hdir hname hnext
  | @link links real rest names name target hdir hstep hnext _ _ ih =>
    obtain ⟨hslash, hrest⟩ := List.forall_mem_cons.1 hpath
    have hname := hstep.proper hslash
    obtain ⟨fewer, rfl⟩ : ∃ fewer, most = fewer + 1 := ⟨most - 1, by omega⟩
    have htarget : ∀ n ∈ Path.components target ++ rest, '/' ∉ n.toList :=
      List.forall_mem_append.2 ⟨fun _ => Path.not_mem_components, hrest⟩
    have hfollows := ih htarget (Nat.le_of_succ_le_succ hlinks) (hmirrors.link hdir target)
    refine hfollows.step (fun h => by rw [h, Bool.true_or]) fun d' more hsame => ?_
    rw [← hsame.ways] at hdir hnext
    rw [List.append_assoc]
    exact (hmirrors.congr hsame).followLinks_link hdir hname hnext
  | stop _ _ _ hfollow => cases hfollow
  | @last links real name hdir hstep hnone =>
    have hname := hstep.proper (hpath name List.mem_cons_self)
    refine ⟨most, absolute, name :: followed, by simpa using hmirrors.enter hname, id, ?_⟩
    rintro d' hsame hends more (hmore | rfl)
    · rw [hnone] at hmore
      cases hmore
    · rw [← hsame.ways] at hdir hnone
      obtain ⟨bytes, executable, hfile⟩ := (ways_eq_none.1 hnone).resolve_left hends
      rw [List.append_nil, (hmirrors.congr hsame).followLinks_file hdir hname hfile, followLinks]

/-! A name below a directory -/

theorem followLinks_components (d : Disk) (most : Nat) {absolute : Bool} {names : List String}
    (h : Path.Tidy absolute names) :
    followLinks d most absolute [] (Path.components (Path.ofComponents absolute names)) =
      followLinks d most absolute [] names := by
  by_cases hne : names = []
  · subst names
    cases absolute with
    | true =>
      have hparts : Path.components (Path.ofComponents true []) = ["", ""] := by decide
      rw [hparts, followLinks_skip (.inl rfl), followLinks_skip (.inl rfl)]
    | false =>
      have hparts : Path.components (Path.ofComponents false []) = ["."] := by decide
      rw [hparts, followLinks_skip (.inr rfl)]
  · rw [Path.components_ofComponents absolute hne fun n hn => (h.mem hn).2]
    cases absolute with
    | true => exact followLinks_skip (.inl rfl)
    | false => rfl

theorem Leads.of_components {root : Node} {follow : Bool} {links : Nat} {trail found : List String}
    {absolute : Bool} {names : List String} (htidy : Path.Tidy absolute names)
    (h : Leads root.ways follow links trail
      (Path.components (Path.ofComponents absolute names)) found) :
    Leads root.ways follow links trail names found := by
  by_cases hne : names = []
  · subst names
    cases absolute with
    | true =>
      have hparts : Path.components (Path.ofComponents true []) = ["", ""] := by decide
      rw [hparts] at h
      exact (h.of_here (.inl rfl)).of_here (.inl rfl)
    | false =>
      have hparts : Path.components (Path.ofComponents false []) = ["."] := by decide
      rw [hparts] at h
      exact h.of_here (.inr rfl)
  · rw [Path.components_ofComponents absolute hne fun n hn => (htidy.mem hn).2] at h
    cases absolute with
    | true => exact h.of_here (.inl rfl)
    | false => exact h

namespace Disk

variable {d d' : Disk} {path dir : String} {names : List String} {name : String}

/-- The text of a path without its links depends only on directories and links, and mirrors the real
names of what is there. -/
theorem exists_resolveLinks (hplace : d.place? path = some names) :
    ∃ absolute followed, Mirrors d absolute followed names.reverse ∧
      (Path.isAbsolute path = true → absolute = true) ∧
      ∀ d' : Disk, d'.SameWays d → d'.root.at? names ≠ none →
        d'.resolveLinks path = .ok (Path.ofComponents absolute followed.reverse) := by
  obtain ⟨-, hleads, -⟩ := locate_eq_ok_iff.1 (place?_eq_some_iff.1 hplace)
  have hstart := hleads.start_dir_of_ne_nil (Path.components_ne_nil path)
  obtain ⟨most, absolute, followed, hmirrors, hroot, heq⟩ :=
    hleads.followsTo (fun _ => Path.not_mem_components)
      (by decide : linkLimit ≤ canonicalLinkLimit) (Mirrors.initial hstart)
  refine ⟨absolute, followed, hmirrors, hroot, fun d' hsame hends => ?_⟩
  have hfollow := heq d' hsame hends [] (.inr rfl)
  rw [List.append_nil, followLinks] at hfollow
  rw [resolveLinks, hfollow]
  rfl

theorem resolveLinks_congr (hsame : d'.SameWays d) (hplace : d.place? path = some names)
    (hdir : d.root.ways names = some .dir) : d'.resolveLinks path = d.resolveLinks path := by
  obtain ⟨absolute, followed, -, -, hresolve⟩ := exists_resolveLinks hplace
  have hends : ∀ other : Disk, other.SameWays d → other.root.at? names ≠ none := by
    intro other hother
    rw [← hother.ways] at hdir
    obtain ⟨entries, hentries⟩ := ways_eq_dir.1 hdir
    simp [hentries]
  rw [hresolve d' hsame (hends d' hsame), hresolve d (.refl d) (hends d (.refl d))]

/-- An absolute path without its links is made of the real names. -/
theorem resolveLinks_of_absolute (habsolute : Path.isAbsolute path = true)
    (hplace : d.place? path = some names) (hends : d.root.at? names ≠ none) :
    d.resolveLinks path = .ok (Path.ofComponents true names) := by
  obtain ⟨absolute, followed, hmirrors, hroot, hresolve⟩ := exists_resolveLinks hplace
  obtain rfl := hroot habsolute
  rw [hresolve d (.refl d) hends, hmirrors.eq_of_absolute, List.reverse_reverse]

/-- The clean form of a path leads where the path does, and by the same names once links are
followed. -/
structure CleanAlike (d : Disk) (dir : String) : Prop where
  place : d.place? (Path.clean dir) = d.place? dir
  links : d.resolveLinks (Path.clean dir) = d.resolveLinks dir

theorem cleanAlike_of_clean (d : Disk) (h : Path.clean dir = dir) : d.CleanAlike dir := by
  constructor <;> rw [h]

/-- For an absolute path to something that is there, it is enough that the place is the same. -/
theorem cleanAlike_of_absolute (habsolute : Path.isAbsolute dir = true)
    (hplace : d.place? dir = some names) (hends : d.root.at? names ≠ none)
    (hclean : d.place? (Path.clean dir) = some names) : d.CleanAlike dir := by
  have hroot : Path.isAbsolute (Path.clean dir) = true := by
    rw [Path.clean, Path.isAbsolute_ofTidy (Path.tidy_cleanComponents dir), habsolute]
  constructor
  · rw [hplace, hclean]
  · rw [resolveLinks_of_absolute hroot hclean hends, resolveLinks_of_absolute habsolute hplace hends]

/-- A path to a directory that is also reached by the clean form of the path. -/
structure Reaches (d : Disk) (dir : String) (names : List String) : Prop where
  place : d.place? dir = some names
  ways : d.root.ways names = some .dir
  alike : d.CleanAlike dir

theorem reaches_of_clean {entries : List (String × Node)} (hclean : Path.clean dir = dir)
    (hplace : d.place? dir = some names) (hdir : d.root.at? names = some (.dir entries)) :
    d.Reaches dir names :=
  ⟨hplace, ways_eq_dir.2 ⟨entries, hdir⟩, cleanAlike_of_clean d hclean⟩

namespace Reaches

theorem congr (hsame : d'.SameWays d) (h : d.Reaches dir names) : d'.Reaches dir names := by
  have hplaces : d'.place? = d.place? := place?_congr hsame.ways hsame.workingDir
  have hclean := h.alike.place.trans h.place
  refine ⟨by rw [hplaces, h.place], by rw [hsame.ways, h.ways], by rw [hplaces, h.alike.place], ?_⟩
  rw [resolveLinks_congr hsame hclean h.ways, resolveLinks_congr hsame h.place h.ways, h.alike.links]

theorem ne_empty (h : d.Reaches dir names) : dir ≠ "" :=
  (locate_eq_ok_iff.1 (place?_eq_some_iff.1 h.place)).1

/-- The clean names of the path lead to the directory. -/
theorem leads (h : d.Reaches dir names) :
    Leads d.root.ways true linkLimit (d.start (Path.isAbsolute dir)) (Path.cleanComponents dir)
      names := by
  have hclean := h.alike.place.trans h.place
  obtain ⟨-, hleads, -⟩ := locate_eq_ok_iff.1 (place?_eq_some_iff.1 hclean)
  have htidy := Path.tidy_cleanComponents dir
  rw [origin, Path.clean, Path.isAbsolute_ofTidy htidy] at hleads
  exact hleads.of_components htidy

theorem place?_join (h : d.Reaches dir names) (hname : Path.Proper name)
    (hnext : ∀ target, d.root.ways (names ++ [name]) ≠ some (.link target)) :
    d.place? (Path.join dir name) = some (names ++ [name]) := by
  have htidy := Path.tidy_below dir hname
  have hcomponents := Path.components_ofComponents (Path.isAbsolute dir)
    (List.append_ne_nil_of_right_ne_nil _ (List.cons_ne_nil name [])) fun n hn => (htidy.mem hn).2
  refine place?_eq_some_iff.2
    (locate_eq_ok_iff.2 ⟨Path.join_ne_empty h.ne_empty hname, ?_, rfl⟩)
  have horigin : d.origin (Path.join dir name) = d.start (Path.isAbsolute dir) := by
    rw [origin, Path.isAbsolute_join h.ne_empty hname]
    rfl
  rw [horigin, Path.join_eq_ofComponents h.ne_empty hname, hcomponents]
  have hlast := h.leads.concat h.ways hname.isStep hnext
  split
  · exact .here (h.leads.start_dir h.ways) (.inl rfl) hlast
  · exact hlast

theorem resolveLinks_join (h : d.Reaches dir names) (hname : Path.Proper name) {bytes : List UInt8}
    {executable : Bool} (hfile : d.root.at? (names ++ [name]) = some (.file bytes executable)) :
    ∃ absolute real, Path.Tidy absolute real ∧
      d.resolveLinks dir = .ok (Path.ofComponents absolute real) ∧
      d.resolveLinks (Path.join dir name) = .ok (Path.ofComponents absolute (real ++ [name])) := by
  have htidy := Path.tidy_cleanComponents dir
  have hmost : linkLimit ≤ canonicalLinkLimit := by decide
  obtain ⟨entries, hentries⟩ := ways_eq_dir.1 h.ways
  obtain ⟨most, absolute, followed, hmirrors, -, heq⟩ := h.leads.followsTo
    (fun n hn => (htidy.mem hn).2) hmost (.initial (h.leads.start_dir h.ways))
  have hfollow := fun more => heq d (.refl d) (by simp [hentries]) more (.inl h.ways)
  refine ⟨absolute, followed.reverse, hmirrors.tidy, ?_, ?_⟩
  · rw [← h.alike.links, resolveLinks, Path.clean, Path.isAbsolute_ofTidy htidy,
      followLinks_components _ _ htidy, ← List.append_nil (Path.cleanComponents dir), hfollow,
      followLinks]
    rfl
  · rw [resolveLinks, Path.isAbsolute_join h.ne_empty hname,
      Path.join_eq_ofComponents h.ne_empty hname,
      followLinks_components _ _ (Path.tidy_below dir hname), hfollow,
      hmirrors.followLinks_file (by simpa using h.ways) hname (by simpa using hfile),
      List.reverse_cons]
    rfl

/-- The file of a directory is inside it, whatever links lead to the directory. -/
theorem isWithin_join (h : d.Reaches dir names) (hname : Path.Proper name) {bytes : List UInt8}
    {executable : Bool} (hfile : d.root.at? (names ++ [name]) = some (.file bytes executable)) :
    d.isWithin (Path.join dir name) dir = true := by
  obtain ⟨absolute, real, htidy, horigin, htarget⟩ := h.resolveLinks_join hname hfile
  have hbelow := htidy.concat hname
  have hway : Path.relative? (Path.ofComponents absolute real)
      (Path.ofComponents absolute (real ++ [name])) = some name := by
    rw [Path.relative?, Path.isAbsolute_ofTidy htidy, Path.isAbsolute_ofTidy hbelow,
      Path.cleanComponents_ofTidy htidy, Path.cleanComponents_ofTidy hbelow,
      Path.dropCommon_append]
    simp [Path.ofComponents]
  have hcanonical : d.canonical (Path.join dir name) dir = .ok name := by
    simp only [canonical, resolveOrKeep, horigin, htarget, bind, Except.bind, hway]
    rfl
  have hstart : Text.startsWith name "../" = false := by
    rw [Bool.eq_false_iff]
    intro h
    exact hname.plain ((List.isPrefixOf_iff_prefix.1 h).subset (by decide))
  simp [isWithin, hcanonical, hname.notParent, hstart]

end Reaches
end Disk
end ClassAtlas.File
