import ClassAtlas.Project.Declaration
import ClassAtlas.Proofs.File.Directory
import ClassAtlas.Proofs.File.Walk

/-!
The package that all sources are in. It is searched from the source root down, one directory read
after the other, as long as there is one way to go and no source stands beside it. On every tree this
comes to an end, at the names that are read off the tree; and a source that is not hidden is never
left beside the way.
-/
namespace ClassAtlas

namespace File.Node

/-- A tree of directories: names stand for themselves, and no two entries of a directory share one. -/
inductive Regular : Node → Prop where
  | file (bytes : List UInt8) (executable : Bool) : Regular (.file bytes executable)
  | link (target : String) : Regular (.link target)
  | dir {entries : List (String × Node)} (names : ∀ e ∈ entries, Path.Proper e.1)
    (distinct : entries.Pairwise (·.1 ≠ ·.1)) (nodes : ∀ e ∈ entries, Regular e.2) :
    Regular (.dir entries)

@[simp] theorem regular_file (bytes : List UInt8) (executable : Bool) :
    Regular (.file bytes executable) := .file bytes executable

@[simp] theorem regular_dir {entries : List (String × Node)} : Regular (.dir entries) ↔
    (∀ e ∈ entries, Path.Proper e.1) ∧ entries.Pairwise (·.1 ≠ ·.1) ∧
      ∀ e ∈ entries, Regular e.2 := by
  constructor
  · intro h
    cases h with
    | dir names distinct nodes => exact ⟨names, distinct, nodes⟩
  · rintro ⟨names, distinct, nodes⟩
    exact .dir names distinct nodes

theorem Regular.names {entries : List (String × Node)} (h : Regular (.dir entries)) :
    ∀ e ∈ entries, Path.Proper e.1 := (regular_dir.1 h).1

theorem Regular.nodes {entries : List (String × Node)} (h : Regular (.dir entries)) :
    ∀ e ∈ entries, Regular e.2 := (regular_dir.1 h).2.2

end File.Node

namespace Project

open File

/-! One directory -/

/-- A name of a source. -/
def IsSource (name : String) : Prop := ".java".toList <:+ name.toList

instance : DecidablePred IsSource := fun name =>
  inferInstanceAs (Decidable (".java".toList <:+ name.toList))

theorem IsSource.extension_eq {name : String} (h : IsSource name) (hname : Path.Proper name) :
    Path.extension name = ".java" := by
  obtain ⟨stem, hstem⟩ := h
  have hending : (Text.afterLast '/' name).toList = stem ++ '.' :: "java".toList := by
    rw [Text.afterLast_of_not_mem hname.plain]
    exact hstem.symm
  exact Path.extension_of_stem hending (by decide)

/-- The directory that the search goes on with from some entries, if it does. -/
def onlyWay? (entries : List (String × Node)) : Option (String × Node) :=
  if holdsSource entries then none
  else match entries.filter fun e => isPackageDir e.1 e.2 with
    | [e] => some e
    | _ => none

theorem onlyWay?_eq_some {entries : List (String × Node)} {e : String × Node}
    (h : onlyWay? entries = some e) :
    holdsSource entries = false ∧ (entries.filter fun e => isPackageDir e.1 e.2) = [e] := by
  unfold onlyWay? at h
  split at h
  · cases h
  · next hsource =>
    refine ⟨by simpa using hsource, ?_⟩
    split at h
    · next only honly =>
      cases h
      exact honly
    · cases h

theorem mem_of_onlyWay? {entries : List (String × Node)} {e : String × Node}
    (h : onlyWay? entries = some e) : e ∈ entries ∧ isPackageDir e.1 e.2 = true := by
  have hmem : e ∈ entries.filter fun e => isPackageDir e.1 e.2 := by
    rw [(onlyWay?_eq_some h).2]
    exact List.mem_singleton.2 rfl
  exact List.mem_filter.1 hmem

/-- Where no source stands, nothing but a directory has the name of one. -/
theorem not_isSource {entries : List (String × Node)} (h : holdsSource entries = false)
    {e : String × Node} (he : e ∈ entries) (hname : Path.Proper e.1) (hfile : e.2.isDir = false) :
    ¬ IsSource e.1 := by
  intro hsource
  have hnone := List.any_eq_false.1 h e he
  simp [isPackageDir, hfile, hsource.extension_eq hname] at hnone

/-! The names on the way, read off a tree -/

theorem pathsBelow_eq (entries : List (String × Node)) : pathsBelow entries =
    (entries.filter fun e => isPackageDir e.1 e.2).map fun e => (e.1, commonPath e.2) := by
  induction entries with
  | nil => rw [pathsBelow, List.filter_nil, List.map_nil]
  | cons e more ih =>
    obtain ⟨name, node⟩ := e
    rw [pathsBelow, ih]
    by_cases h : isPackageDir name node = true <;> simp [h]

theorem commonPath_dir (entries : List (String × Node)) : commonPath (.dir entries) =
    (onlyWay? entries).elim [] fun e => e.1 :: commonPath e.2 := by
  rw [commonPath, pathsBelow_eq, onlyWay?]
  split
  · rfl
  · generalize (entries.filter fun e => isPackageDir e.1 e.2) = ways
    rcases ways with _ | ⟨e, _ | ⟨next, more⟩⟩ <;> rfl

/-- A source with no hidden directory above it is below all names of the way. -/
theorem commonPath_prefix {tree node : Node} (htree : tree.Regular) {path : List String}
    {name : String} (hnode : tree.at? (path ++ [name]) = some node) (hfile : node.isDir = false)
    (hsource : IsSource name) (hseen : ∀ dir ∈ path, isHidden dir = false) :
    commonPath tree <+: path := by
  induction path generalizing tree with
  | nil =>
    obtain ⟨entries, found, rfl, hmem, hfound⟩ := Node.exists_of_at?_cons hnode
    rw [Node.at?] at hfound
    obtain rfl := Option.some.inj hfound
    rw [commonPath_dir]
    cases hway : onlyWay? entries with
    | none => exact List.nil_prefix
    | some e =>
      -- the source stands in the directory itself, so the search does not go on from there
      have hnone := not_isSource (onlyWay?_eq_some hway).1 hmem (htree.names _ hmem) hfile
      exact absurd hsource hnone
  | cons first rest ih =>
    obtain ⟨entries, next, rfl, hmem, hbelow⟩ := Node.exists_of_at?_cons hnode
    obtain ⟨hfirst, hrest⟩ := List.forall_mem_cons.1 hseen
    rw [commonPath_dir]
    cases hway : onlyWay? entries with
    | none => exact List.nil_prefix
    | some e =>
      -- the source is below a directory that leads on, and only one does
      have hdir : next.isDir = true := by
        cases rest <;> obtain ⟨_, _, rfl, -⟩ := Node.exists_of_at?_cons hbelow <;> rfl
      have hways : (first, next) ∈ entries.filter fun e => isPackageDir e.1 e.2 :=
        List.mem_filter.2 ⟨hmem, by simp [isPackageDir, hdir, hfirst]⟩
      rw [(onlyWay?_eq_some hway).2, List.mem_singleton] at hways
      subst hways
      exact List.cons_prefix_cons.2 ⟨rfl, ih (htree.nodes _ hmem) hbelow hrest⟩

/-! The search on a disk -/

/-- The name under which the search goes on from a path, if a directory can be read there. -/
def next? (d : Disk) (dir : String) : Option String :=
  match d.readDir dir with
  | .ok entries => (onlyWay? entries).map (·.1)
  | .error _ => none

/-- The search from a path ends after these names, one directory read for each and one at the end. -/
inductive Descends (d : Disk) : String → List String → Prop where
  | stop {dir : String} (h : next? d dir = none) : Descends d dir []
  | down {dir name : String} {rest : List String} (h : next? d dir = some name)
    (more : Descends d (Path.join dir name) rest) : Descends d dir (name :: rest)

namespace Descends

variable {d : Disk} {dir : String}

/-- There is one end at most. -/
theorem unique {way other : List String} (h : Descends d dir way) (h' : Descends d dir other) :
    way = other := by
  induction h generalizing other with
  | stop hnone =>
    cases h' with
    | stop _ => rfl
    | down hsome _ => simp [hnone] at hsome
  | down hsome _ ih =>
    cases h' with
    | stop hnone => simp [hsome] at hnone
    | down hsome' more =>
      obtain rfl := Option.some.inj (hsome.symm.trans hsome')
      rw [ih more]

theorem next?_eq_some {before after : List String} {name : String}
    (h : Descends d dir (before ++ name :: after)) :
    next? d (before.foldl Path.join dir) = some name := by
  induction before generalizing dir with
  | nil =>
    cases h with
    | down hsome _ => exact hsome
  | cons first before ih =>
    cases h with
    | down _ more => exact ih more

end Descends

theorem next?_of_readDir {d : Disk} {dir : String} {entries : List (String × Node)}
    (h : d.readDir dir = .ok entries) : next? d dir = (onlyWay? entries).map (·.1) := by
  rw [next?, h]

theorem exists_of_next? {d : Disk} {dir name : String} (h : next? d dir = some name) :
    ∃ entries node, d.readDir dir = .ok entries ∧ onlyWay? entries = some (name, node) := by
  unfold next? at h
  split at h
  · next entries hentries =>
    obtain ⟨e, he, rfl⟩ := Option.map_eq_some_iff.1 h
    exact ⟨entries, e.2, hentries, he⟩
  · cases h

theorem descends_of_not_dir {d : Disk} {dir : String} {node : Node} (hnode : node.isDir = false)
    (hlookup : d.lookup true dir = .ok node) : Descends d dir (commonPath node) := by
  cases node with
  | dir entries => cases hnode
  | file bytes executable =>
    rw [commonPath]
    · exact .stop (by simp [next?, Disk.readDir, hlookup])
    · simp
  | link target =>
    rw [commonPath]
    · exact .stop (by simp [next?, Disk.readDir, hlookup])
    · simp

/-- What is read at one path after the other is what the tree has below the first. -/
theorem descends_commonPath {d : Disk} {node : Node} (hnode : node.Regular) {dir : String}
    {names : List String} (hclean : Path.clean dir = dir) (hplace : d.place? dir = some names)
    (hat : d.root.at? names = some node) : Descends d dir (commonPath node) := by
  induction hnode generalizing dir names with
  | file bytes executable => exact descends_of_not_dir rfl (Disk.lookup_of_place? hplace hat)
  | link target => exact descends_of_not_dir rfl (Disk.lookup_of_place? hplace hat)
  | @dir entries hnames hdistinct _ ih =>
    have hread := Disk.readDir_eq_ok.2 (Disk.lookup_of_place? hplace hat)
    have hnext := next?_of_readDir hread
    rw [commonPath_dir]
    cases hway : onlyWay? entries with
    | none =>
      rw [hway] at hnext
      exact .stop hnext
    | some e =>
      rw [hway] at hnext
      obtain ⟨hmem, hdir⟩ := mem_of_onlyWay? hway
      have hbelow : d.root.at? (names ++ [e.1]) = some e.2 := by
        rw [Node.at?_concat hat]
        exact KeyMap.lookup_of_mem hmem hdistinct
      have hways : ∀ target, d.root.ways (names ++ [e.1]) ≠ some (.link target) := by
        intro target hlink
        rw [Node.ways_eq_link, hbelow] at hlink
        simp [isPackageDir, Option.some.inj hlink, Node.isDir] at hdir
      refine .down hnext (ih e hmem (Path.clean_join dir (hnames e hmem).nonempty) ?_ hbelow)
      exact (Disk.reaches_of_clean hclean hplace hat).place?_join (hnames e hmem) hways

theorem descends_basePackageParts (d : Disk) (root : String) (hd : d.root.Regular) :
    Descends d (Path.join root sourceRoot) (basePackageParts d root) := by
  unfold basePackageParts Disk.stat
  cases hlookup : d.lookup true (Path.join root sourceRoot) with
  | error reason => exact .stop (by simp [next?, Disk.readDir, hlookup])
  | ok node =>
    obtain ⟨names, hplace, hat⟩ := Disk.place?_of_lookup hlookup
    have hnode : node.Regular := Disk.lookup_inherits (fun _ => Node.Regular.nodes) hd hlookup
    exact descends_commonPath hnode (Path.clean_join root (by decide)) hplace hat

/-- The base package never hides a source. Its names lead down from the source root, and between dots
they are the package; without dots of their own they are its parts. The search for them ends on every
tree, and nowhere else. Each directory that it goes on from has one directory that is not hidden and no
source, and every source with no hidden directory above it is in the last one or below. -/
theorem base_package_holds_sources (d : Disk) (root : String) (hd : d.root.Regular) :
    basePackage d root = Text.join "." (basePackageParts d root) ∧
    (basePackageParts d root ≠ [] → (∀ name ∈ basePackageParts d root, '.' ∉ name.toList) →
      Text.splitOn '.' (basePackage d root) = basePackageParts d root) ∧
    (∀ way, Descends d (Path.join root sourceRoot) way ↔ way = basePackageParts d root) ∧
    (∀ before name after, basePackageParts d root = before ++ name :: after →
      ∃ entries, d.readDir (before.foldl Path.join (Path.join root sourceRoot)) = .ok entries ∧
        (entries.filter fun e => e.2.isDir && !isHidden e.1).map (·.1) = [name] ∧
        ∀ e ∈ entries, e.2.isDir = false → ¬ IsSource e.1) ∧
    ∀ tree path name node, d.stat (Path.join root sourceRoot) = .ok tree →
      tree.at? (path ++ [name]) = some node → node.isDir = false → IsSource name →
      (∀ dir ∈ path, isHidden dir = false) → basePackageParts d root <+: path := by
  have hdescends := descends_basePackageParts d root hd
  refine ⟨rfl, fun hne hdots => Text.splitOn_join hne hdots, ?_, ?_, ?_⟩
  · intro way
    constructor
    · exact fun h => h.unique hdescends
    · rintro rfl
      exact hdescends
  · intro before name after hparts
    rw [hparts] at hdescends
    obtain ⟨entries, node, hread, hway⟩ := exists_of_next? hdescends.next?_eq_some
    obtain ⟨hnone, honly⟩ := onlyWay?_eq_some hway
    have hentries : (Node.dir entries).Regular :=
      Disk.lookup_inherits (fun _ => Node.Regular.nodes) hd (Disk.readDir_eq_ok.1 hread)
    refine ⟨entries, hread, congrArg (List.map (·.1)) honly, ?_⟩
    intro e he hfile
    exact not_isSource hnone he (hentries.names e he) hfile
  · intro tree path name node hstat hnode hfile hsource hseen
    have hlookup : d.lookup true (Path.join root sourceRoot) = .ok tree := by
      unfold Disk.stat at hstat
      cases hfound : d.lookup true (Path.join root sourceRoot) with
      | error reason => simp [hfound, Except.mapError] at hstat
      | ok found => simpa [hfound, Except.mapError] using hstat
    have htree : tree.Regular := Disk.lookup_inherits (fun _ => Node.Regular.nodes) hd hlookup
    have hparts : basePackageParts d root = commonPath tree := by rw [basePackageParts, hstat]
    rw [hparts]
    exact commonPath_prefix htree hnode hfile hsource hseen

/-- Sources in two packages, and one in a hidden directory beside them. -/
def shopSources : Node :=
  .dir [(".old", .dir [("Order.java", .file [] false)]),
    ("org", .dir [("shop", .dir [
      ("orders", .dir [("Order.java", .file [] false)]),
      ("stock", .dir [("Item.java", .file [] false)])])])]

def shopDisk : Disk :=
  ⟨.dir [("shop", .dir [("src", .dir [("main", .dir [("java", shopSources)])])])], []⟩

theorem regular_shopDisk : shopDisk.root.Regular := by
  simp only [shopDisk, shopSources, Node.regular_dir, Node.regular_file, List.forall_mem_cons,
    List.not_mem_nil, IsEmpty.forall_iff, implies_true, and_true]
  decide

theorem stat_shopDisk : shopDisk.stat (Path.join "shop" sourceRoot) = .ok shopSources := by
  have hplace : shopDisk.place? (Path.join "shop" sourceRoot) =
      some ["shop", "src", "main", "java"] := by decide +kernel
  rw [Disk.stat, Disk.lookup_of_place? hplace rfl]
  rfl

theorem base_package_holds_sources_shopDisk :
    shopDisk.root.Regular ∧ basePackage shopDisk "shop" = "org.shop" ∧
    Descends shopDisk (Path.join "shop" sourceRoot) ["org", "shop"] ∧
    (shopSources.at? ["org", "shop", "orders", "Order.java"]).isSome = true ∧
    ["org", "shop"] <+: ["org", "shop", "orders"] := by
  have hparts : basePackageParts shopDisk "shop" = ["org", "shop"] := by
    rw [basePackageParts, stat_shopDisk]
    decide +kernel
  obtain ⟨hname, -, hsearch, -, hsources⟩ :=
    base_package_holds_sources shopDisk "shop" regular_shopDisk
  rw [hparts] at hname hsearch hsources
  refine ⟨regular_shopDisk, hname, (hsearch _).2 rfl, rfl, ?_⟩
  exact hsources shopSources ["org", "shop", "orders"] "Order.java" (.file [] false) stat_shopDisk
    rfl rfl (by decide) (by decide)

end Project
end ClassAtlas
