import ClassAtlas.Export.Files
import ClassAtlas.Proofs.File.Directory

/-!
A file that is fetched from a directory lies below it. Whether one path is inside another is decided
on texts, after links have been followed by name. The real names of a file go along with the text that
is found for it, and so do those of every directory that the text starts with; so a start of the text
is a directory above the file, with any links on either way.
-/
namespace ClassAtlas.File

open Node

/-! Ways back on a text -/

/-- Names that start with a way back make a text that starts with one. -/
theorem Path.startsBack_ofComponents {names : List String} (h : names.head? = some "..") :
    Path.ofComponents false names = ".." ∨
      Text.startsWith (Path.ofComponents false names) "../" = true := by
  cases names with
  | nil => cases h
  | cons first more =>
    obtain rfl : first = ".." := Option.some.inj h
    cases more with
    | nil => exact .inl (by simp [ofComponents])
    | cons next more =>
      have htext : (ofComponents false (".." :: next :: more)).toList =
          "../".toList ++ (Text.join "/" (next :: more)).toList := by
        rw [ofComponents, if_neg (by simp), if_neg (by simp), Text.toList_join_cons]
        rfl
      refine .inr (List.isPrefixOf_iff_prefix.2 ?_)
      rw [htext]
      exact List.prefix_append _ _

/-- If the way from one path to another does not start back, the names of the second are those of the
first and others. -/
theorem Path.cleanComponents_of_relative? {origin target way : String}
    (h : relative? origin target = some way) (hparent : way ≠ "..")
    (hback : Text.startsWith way "../" = false) :
    isAbsolute origin = isAbsolute target ∧ ∃ down, down.head? ≠ some ".." ∧
      cleanComponents target = cleanComponents origin ++ down := by
  obtain ⟨common, horigin, htarget⟩ := dropCommon_eq (cleanComponents origin) (cleanComponents target)
  unfold relative? at h
  generalize dropCommon (cleanComponents origin) (cleanComponents target) = rest
    at h horigin htarget
  obtain ⟨up, down⟩ := rest
  split at h
  · cases h
  next habsolute =>
  dsimp only at h horigin htarget
  split at h
  · cases h
  obtain rfl := Option.some.inj h
  have hahead : (up.map (fun _ => "..") ++ down).head? ≠ some ".." := by
    intro hhead
    rcases startsBack_ofComponents hhead with hway | hway
    · exact hparent hway
    · rw [hback] at hway
      cases hway
  refine ⟨by simpa using habsolute, down, ?_⟩
  cases up with
  | nil =>
    rw [List.append_nil] at horigin
    exact ⟨hahead, by rw [htarget, horigin]⟩
  | cons first more => exact absurd rfl hahead

/-- A path that is inside a directory has the names of the directory and then others, the first of which
is no way back. -/
theorem Disk.isWithin_eq_true {d : Disk} {path dir : String} (h : d.isWithin path dir = true) :
    ∃ target root, d.resolveOrKeep path = .ok target ∧ d.resolveOrKeep dir = .ok root ∧
      Path.isAbsolute root = Path.isAbsolute target ∧ ∃ down, down.head? ≠ some ".." ∧
        Path.cleanComponents target = Path.cleanComponents root ++ down := by
  unfold isWithin at h
  split at h
  · next way hway =>
    rw [Bool.and_eq_true, bne_iff_ne, Bool.not_eq_true'] at h
    unfold canonical at hway
    cases htarget : d.resolveOrKeep path with
    | error fault =>
      rw [htarget] at hway
      cases hway
    | ok target =>
      cases hroot : d.resolveOrKeep dir with
      | error fault =>
        rw [htarget, hroot] at hway
        cases hway
      | ok root =>
        refine ⟨target, root, rfl, rfl, ?_⟩
        rw [htarget, hroot] at hway
        cases hrelative : Path.relative? root target with
        | none => simp [bind, Except.bind, hrelative, throw, throwThe, MonadExceptOf.throw] at hway
        | some found =>
          simp only [bind, Except.bind, hrelative, pure, Except.pure, Except.ok.injEq] at hway
          subst hway
          exact Path.cleanComponents_of_relative? hrelative h.1 h.2
  · cases h

/-! Texts without links -/

theorem Path.Tidy.enter {absolute : Bool} {trail : List String} (h : Tidy absolute trail.reverse)
    {name : String} (hstep : ¬ (name.isEmpty || name == "." || name == "..") = true)
    (hslash : '/' ∉ name.toList) : Tidy absolute (name :: trail).reverse := by
  obtain ⟨⟨hempty, hhere⟩, hparent⟩ : (name ≠ "" ∧ name ≠ ".") ∧ name ≠ ".." := by
    simpa using hstep
  rw [List.reverse_cons]
  exact h.concat ⟨hempty, hhere, hparent, hslash⟩

/-- The names that are found by following links are tidy. -/
theorem tidy_of_followLinks {d : Disk} {links : Nat} {absolute found : Bool}
    {trail path names : List String} (htrail : Path.Tidy absolute trail.reverse)
    (hpath : ∀ n ∈ path, '/' ∉ n.toList)
    (h : followLinks d links absolute trail path = .ok (found, names)) : Path.Tidy found names := by
  fun_induction followLinks d links absolute trail path with
  | case1 =>
    cases h
    exact htrail
  | case2 links absolute trail name rest hplain ih =>
    obtain ⟨hname, hrest⟩ := List.forall_mem_cons.1 hpath
    exact ih (Path.step_tidy htrail hname) hrest h
  | case3 => cases h
  | case4 => cases h
  | case5 => cases h
  | case6 absolute trail name rest hstep target hlink links ih =>
    refine ih ?_ ?_ h
    · -- a target from the root starts anew, any other goes on from where the link stands
      cases Path.isAbsolute target with
      | true => exact ⟨0, [], by simp, by simp, fun _ => rfl⟩
      | false => simpa using htrail
    · intro n hn
      rcases List.mem_append.1 hn with hn | hn
      · exact Path.not_mem_components hn
      · exact hpath n (List.mem_cons_of_mem _ hn)
  | case7 links absolute trail name rest hstep bytes executable hfile hlast ih =>
    obtain ⟨hname, hrest⟩ := List.forall_mem_cons.1 hpath
    exact ih (htrail.enter hstep hname) hrest h
  | case8 => cases h
  | case9 links absolute trail name rest hstep entries hdir ih =>
    obtain ⟨hname, hrest⟩ := List.forall_mem_cons.1 hpath
    exact ih (htrail.enter hstep hname) hrest h

theorem Disk.tidy_of_resolveOrKeep {d : Disk} {path root : String}
    (h : d.resolveOrKeep path = .ok root) :
    ∃ absolute names, Path.Tidy absolute names ∧ root = Path.ofComponents absolute names := by
  have hkept : ∃ absolute names, Path.Tidy absolute names ∧
      Path.clean path = Path.ofComponents absolute names :=
    ⟨_, _, Path.tidy_cleanComponents path, rfl⟩
  unfold resolveOrKeep at h
  split at h
  · cases h
    exact hkept
  · unfold resolveLinks at h
    cases hfollow : followLinks d canonicalLinkLimit (Path.isAbsolute path) []
        (Path.components path) with
    | error fault =>
      rw [hfollow] at h
      cases h
    | ok found =>
      rw [hfollow] at h
      cases h
      exact ⟨found.1, found.2, tidy_of_followLinks ⟨0, [], rfl, by simp, fun _ => rfl⟩
        (fun _ => Path.not_mem_components) hfollow, rfl⟩

/-! Where a text without links leads -/

theorem Node.ways_of_at?_append {root : Node} {names more : List String} {node : Node}
    (hmore : more ≠ []) (h : root.at? (names ++ more) = some node) :
    root.ways names = some .dir := by
  rw [at?_append, Option.bind_eq_some_iff] at h
  obtain ⟨above, habove, hbelow⟩ := h
  obtain ⟨name, rest, rfl⟩ := List.exists_cons_of_ne_nil hmore
  cases above with
  | dir entries => exact ways_eq_dir.2 ⟨entries, habove⟩
  | file bytes executable => cases hbelow
  | link target => cases hbelow

/-- Names that stand for themselves lead along themselves, as far as there is something other than a
link. -/
theorem Leads.proper {root : Node} {links : Nat} {trail on : List String}
    (hon : ∀ n ∈ on, Path.Proper n) {node : Node} (hnode : root.at? (trail.reverse ++ on) = some node)
    (hlink : ∀ target, node ≠ .link target) :
    Leads root.ways true links trail on (trail.reverse ++ on) := by
  induction on generalizing trail with
  | nil =>
    rw [List.append_nil]
    exact .done links trail
  | cons name more ih =>
    obtain ⟨hname, hmore⟩ := List.forall_mem_cons.1 hon
    have hdir := ways_of_at?_append (List.cons_ne_nil name more) hnode
    have hsplit : trail.reverse ++ name :: more = (name :: trail).reverse ++ more := by simp
    rcases root.ways_cases (trail.reverse ++ [name]) with hnext | hnext | ⟨target, hnext⟩
    · -- behind what is no directory there are no more names
      cases more with
      | nil => exact .last hdir hname.isStep hnext
      | cons next rest =>
        rw [hsplit, List.reverse_cons] at hnode
        rw [ways_of_at?_append (List.cons_ne_nil next rest) hnode] at hnext
        cases hnext
    · rw [hsplit] at hnode ⊢
      exact .enter hdir hname.isStep hnext (ih hmore hnode)
    · cases more with
      | nil =>
        rw [ways_eq_link, hnode] at hnext
        exact absurd (Option.some.inj hnext) (hlink target)
      | cons next rest =>
        rw [hsplit, List.reverse_cons] at hnode
        rw [ways_of_at?_append (List.cons_ne_nil next rest) hnode] at hnext
        cases hnext

namespace Mirrors

variable {d : Disk} {absolute : Bool} {followed real : List String}

/-- Names that were followed lead to what they mirror. -/
theorem place? (h : Mirrors d absolute followed real) {node : Node}
    (hnode : d.root.at? real.reverse = some node) (hlink : ∀ target, node ≠ .link target) :
    d.place? (Path.ofComponents absolute followed.reverse) = some real.reverse := by
  obtain ⟨on, back, rfl, rfl, hon, -⟩ := h.names
  have hnames : (on ++ List.replicate back "..").reverse =
      List.replicate back ".." ++ on.reverse := by simp
  have hplace : (on ++ (d.start absolute).drop back).reverse =
      ((d.start absolute).drop back).reverse ++ on.reverse := by simp
  rw [hplace] at hnode
  have hleads : Leads d.root.ways true linkLimit (d.start absolute)
      (on ++ List.replicate back "..").reverse (on ++ (d.start absolute).drop back).reverse := by
    rw [hnames, hplace]
    apply Leads.parents h.start
    exact .proper (fun n hn => hon n (List.mem_reverse.1 hn)) hnode hlink
  exact Disk.place?_eq_some_iff.2 (h.locate_eq_ok hleads)

/-- The start of the names that were followed mirrors the start of the real ones, unless it ends
within the ways back. -/
theorem of_append (h : Mirrors d absolute followed real) {front down : List String}
    (hfollowed : followed.reverse = front ++ down) (hdown : down.head? ≠ some "..") :
    ∃ base, real.reverse = base ++ down ∧ Mirrors d absolute front.reverse base.reverse := by
  obtain ⟨on, back, rfl, rfl, hon, hroot⟩ := h.names
  have hsplit : List.replicate back ".." ++ on.reverse = front ++ down := by
    rw [← hfollowed, List.reverse_append, List.reverse_replicate]
  obtain ⟨kept, hfront, hkept⟩ : ∃ kept, front = List.replicate back ".." ++ kept ∧
      on.reverse = kept ++ down := by
    rcases List.append_eq_append_iff.1 hsplit with h | ⟨rest, hback, hdown'⟩
    · exact h
    · cases rest with
      | nil => exact ⟨[], by simpa using hback.symm, by simpa using hdown'.symm⟩
      | cons first more =>
        have hfirst : first = ".." :=
          List.eq_of_mem_replicate (hback ▸ List.mem_append_right _ List.mem_cons_self)
        rw [hdown', hfirst] at hdown
        exact absurd rfl hdown
  refine ⟨((d.start absolute).drop back).reverse ++ kept, by simp [hkept], h.start,
    kept.reverse, back, by simp [hfront], by simp, ?_, hroot⟩
  intro n hn
  apply hon n
  rw [← List.mem_reverse, hkept]
  exact List.mem_append_left _ (List.mem_reverse.1 hn)

end Mirrors

namespace Disk

variable {d : Disk} {path dir : String} {names : List String}

/-- What is there under a path has a text without links that mirrors its real names. -/
theorem resolveLinks_of_place? {node : Node} (hplace : d.place? path = some names)
    (hnode : d.root.at? names = some node) : ∃ absolute followed,
      Mirrors d absolute followed names.reverse ∧
        d.resolveLinks path = .ok (Path.ofComponents absolute followed.reverse) := by
  obtain ⟨absolute, followed, hmirrors, -, hresolve⟩ := exists_resolveLinks hplace
  exact ⟨absolute, followed, hmirrors, hresolve d (.refl d) (by simp [hnode])⟩

theorem isDir_eq_true : d.isDir path = true ↔ ∃ entries, d.lookup true path = .ok (.dir entries) := by
  unfold isDir
  split
  · next entries hentries => exact iff_of_true rfl ⟨entries, hentries⟩
  · next hnone => exact iff_of_false (by simp) fun ⟨entries, h⟩ => hnone entries h

/-- A file inside a directory: the text that is found for the directory leads to a place above it. -/
theorem place?_of_isWithin {bytes : List UInt8} {executable : Bool}
    (hwithin : d.isWithin path dir = true) (hplace : d.place? path = some names)
    (hfile : d.root.at? names = some (.file bytes executable)) :
    ∃ root base, d.resolveOrKeep dir = .ok root ∧ d.place? root = some base ∧ base <+: names := by
  obtain ⟨target, root, htarget, hroot, habsolute, down, hdown, hnames⟩ := isWithin_eq_true hwithin
  obtain ⟨absolute, followed, hmirrors, hresolve⟩ := resolveLinks_of_place? hplace hfile
  rw [resolveOrKeep, hresolve] at htarget
  obtain rfl := Except.ok.inj htarget
  obtain ⟨above, front, hfront, rfl⟩ := tidy_of_resolveOrKeep hroot
  rw [Path.isAbsolute_ofTidy hfront, Path.isAbsolute_ofTidy hmirrors.tidy] at habsolute
  subst habsolute
  rw [Path.cleanComponents_ofTidy hfront, Path.cleanComponents_ofTidy hmirrors.tidy] at hnames
  obtain ⟨base, hbase, hstart⟩ := hmirrors.of_append hnames hdown
  rw [List.reverse_reverse] at hbase
  refine ⟨_, base, hroot, ?_, down, hbase.symm⟩
  have hnode : ∃ node, d.root.at? base = some node ∧ ∀ target, node ≠ .link target := by
    rw [hbase] at hfile
    by_cases hlast : down = []
    · rw [hlast, List.append_nil] at hfile
      exact ⟨_, hfile, by simp⟩
    · obtain ⟨entries, hentries⟩ := ways_eq_dir.1 (ways_of_at?_append hlast hfile)
      exact ⟨_, hentries, by simp⟩
  obtain ⟨node, hnode, hlink⟩ := hnode
  rw [← List.reverse_reverse base] at hnode
  have hfound := hstart.place? hnode hlink
  rwa [List.reverse_reverse, List.reverse_reverse] at hfound

/-- The text that is found for a directory leads to it. -/
theorem place?_resolveOrKeep {entries : List (String × Node)} (hplace : d.place? dir = some names)
    (hdir : d.root.at? names = some (.dir entries)) {root : String}
    (hroot : d.resolveOrKeep dir = .ok root) : d.place? root = some names := by
  obtain ⟨absolute, followed, hmirrors, hresolve⟩ := resolveLinks_of_place? hplace hdir
  rw [resolveOrKeep, hresolve] at hroot
  obtain rfl := Except.ok.inj hroot
  rw [← List.reverse_reverse names] at hdir
  have hfound := hmirrors.place? hdir (by simp)
  rwa [List.reverse_reverse] at hfound

end Disk
end ClassAtlas.File

namespace ClassAtlas.Export

open File (Disk Path.join Path.isAbsolute)

theorem isPlainName_eq_false_iff {name : String} : isPlainName name = false ↔
    name = "" ∨ Path.isAbsolute name = true ∨ "..".toList <:+: name.toList ∨
      '/' ∈ name.toList ∨ '\\' ∈ name.toList := by
  simp only [isPlainName, Bool.not_eq_false', Bool.or_eq_true, String.isEmpty_iff, Text.contains,
    Text.occurs_iff_infix, Text.containsChar, List.contains_iff_mem, or_assoc]

theorem fileNamed_eq_ok {d : Disk} {dir name path : String} (h : fileNamed d dir name = .ok path) :
    path = Path.join dir name ∧ d.isWithin path dir = true ∧
      ∃ names bytes executable, d.place? path = some names ∧
        d.root.at? names = some (.file bytes executable) := by
  unfold fileNamed at h
  split at h
  · cases h
  dsimp only at h
  split at h
  · cases h
  next hwithin =>
  split at h
  · next bytes executable hstat =>
    obtain rfl := Except.ok.inj h
    have hlookup : d.lookup true (Path.join dir name) = .ok (.file bytes executable) := by
      unfold Disk.stat at hstat
      cases hfound : d.lookup true (Path.join dir name) with
      | error reason =>
        rw [hfound] at hstat
        cases hstat
      | ok node =>
        rw [hfound] at hstat
        cases hstat
        rfl
    obtain ⟨names, hplace, hfile⟩ := Disk.place?_of_lookup hlookup
    exact ⟨rfl, by simpa using hwithin, names, bytes, executable, hplace, hfile⟩
  · cases h
  · cases h

/-- What is fetched never leaves the directory. A path that is given out is that of the name in the
directory, and a file stands at its real names. They go on from the real names of the directory, which
are those of the text without links that is found for it; a directory that is there has these names,
and the file is below it. A name that is empty, starts at the root, or has two dots or a slash of
either kind is refused on every disk. -/
theorem fetched_files_stay_below (d : Disk) (dir name : String) :
    (∀ path, fileNamed d dir name = .ok path → path = Path.join dir name ∧
      ∃ names bytes executable root base, d.place? path = some names ∧
        d.root.at? names = some (.file bytes executable) ∧
        d.resolveOrKeep dir = .ok root ∧ d.place? root = some base ∧ base <+: names ∧
        (d.isDir dir = true → d.place? dir = some base ∧ base ≠ names)) ∧
    (name = "" ∨ Path.isAbsolute name = true ∨ "..".toList <:+: name.toList ∨
        '/' ∈ name.toList ∨ '\\' ∈ name.toList →
      ∃ message, fileNamed d dir name = .error (.ofCode .pathTraversal message)) := by
  constructor
  · intro path h
    obtain ⟨hpath, hwithin, names, bytes, executable, hplace, hfile⟩ := fileNamed_eq_ok h
    obtain ⟨root, base, hroot, hbase, hbelow⟩ := Disk.place?_of_isWithin hwithin hplace hfile
    refine ⟨hpath, names, bytes, executable, root, base, hplace, hfile, hroot, hbase, hbelow, ?_⟩
    intro hdir
    obtain ⟨entries, hentries⟩ := Disk.isDir_eq_true.1 hdir
    obtain ⟨above, habove, hnode⟩ := Disk.place?_of_lookup hentries
    have hsame := Disk.place?_resolveOrKeep habove hnode hroot
    rw [hbase] at hsame
    obtain rfl := Option.some.inj hsame
    refine ⟨habove, ?_⟩
    rintro rfl
    rw [hfile] at hnode
    cases hnode
  · intro h
    rw [fileNamed, isPlainName_eq_false_iff.2 h]
    exact ⟨_, rfl⟩

/-- A disk where a link leads to a directory, and a link in the directory leads to a file outside. -/
def linkedDisk : Disk where
  root := .dir [
    ("data", .dir [("run", .dir [("class.puml", .file [64] false), ("key", .link "../../key")])]),
    ("key", .file [1] false),
    ("runs", .link "/data")]
  workingDir := []

theorem place?_linkedDisk : linkedDisk.place? "runs/run" = some ["data", "run"] ∧
    linkedDisk.place? "runs/run/class.puml" = some ["data", "run", "class.puml"] ∧
    linkedDisk.place? "runs/run/key" = some ["key"] := by
  decide +kernel

theorem at?_linkedDisk : linkedDisk.root.at? ["data", "run"] =
      some (.dir [("class.puml", .file [64] false), ("key", .link "../../key")]) ∧
    linkedDisk.root.at? ["data", "run", "class.puml"] = some (.file [64] false) := by
  simp [linkedDisk, File.Node.at?]

theorem fileNamed_linkedDisk :
    fileNamed linkedDisk "runs/run" "class.puml" = .ok "runs/run/class.puml" := by
  obtain ⟨hplace, hbelow, -⟩ := place?_linkedDisk
  obtain ⟨hdir, hfile⟩ := at?_linkedDisk
  have hname : File.Path.Proper "class.puml" := ⟨by decide, by decide, by decide, by decide⟩
  have hreaches := Disk.reaches_of_clean (by decide +kernel) hplace hdir
  have hjoin : Path.join "runs/run" "class.puml" = "runs/run/class.puml" := by decide +kernel
  have hplain : isPlainName "class.puml" = true := by decide
  have hwithin := hreaches.isWithin_join hname hfile
  have hstat : linkedDisk.stat "runs/run/class.puml" = .ok (.file [64] false) := by
    rw [Disk.stat, Disk.lookup_of_place? hbelow hfile]
    rfl
  rw [hjoin] at hwithin
  simp [fileNamed, hplain, hjoin, hwithin, hstat]

theorem fetched_files_stay_below_linkedDisk :
    (fileNamed linkedDisk "runs/run" "class.puml" = .ok "runs/run/class.puml" ∧
      ∃ names, linkedDisk.place? "runs/run/class.puml" = some names ∧
        ["data", "run"] <+: names ∧ ["data", "run"] ≠ names) ∧
    (∀ path, fileNamed linkedDisk "runs/run" "key" ≠ .ok path) ∧
    ∃ message, fileNamed linkedDisk "runs/run" "../key" =
      .error (.ofCode .pathTraversal message) := by
  have hdir : linkedDisk.isDir "runs/run" = true := by decide +kernel
  refine ⟨⟨fileNamed_linkedDisk, ?_⟩, ?_, ?_⟩
  · obtain ⟨-, names, -, -, -, base, hplace, -, -, -, hbelow, hbase⟩ :=
      (fetched_files_stay_below linkedDisk "runs/run" "class.puml").1 _ fileNamed_linkedDisk
    obtain ⟨hfound, hne⟩ := hbase hdir
    obtain rfl := Option.some.inj (place?_linkedDisk.1.symm.trans hfound)
    exact ⟨names, hplace, hbelow, hne⟩
  · -- the link leads to a file that is not below the directory
    intro path h
    obtain ⟨rfl, names, -, -, -, base, hplace, -, -, -, hbelow, hbase⟩ :=
      (fetched_files_stay_below linkedDisk "runs/run" "key").1 path h
    obtain rfl := Option.some.inj (place?_linkedDisk.1.symm.trans (hbase hdir).1)
    have hjoin : Path.join "runs/run" "key" = "runs/run/key" := by decide +kernel
    rw [hjoin, place?_linkedDisk.2.2] at hplace
    obtain rfl := Option.some.inj hplace
    exact absurd hbelow (by decide)
  · exact (fetched_files_stay_below linkedDisk "runs/run" "../key").2
      (.inr (.inr (.inl ⟨[], "/key".toList, by decide⟩)))

end ClassAtlas.Export
