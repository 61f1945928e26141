import ClassAtlas.Proofs.Batch.Additions
import ClassAtlas.Proofs.File.Path
import ClassAtlas.Proofs.File.Write
import ClassAtlas.Proofs.Session
import ClassAtlas.Proofs.Toml.RoundTrip

/-!
Manifests that are loaded, saved and loaded again. What is loaded is filled in: every path is absolute,
and a number of projects at a time is set. So it means the same wherever it is saved, and the file
that it is saved to is read as the same manifest.
-/
namespace ClassAtlas.Batch

open File (Disk)

theorem mapM_eq_some {α β : Type} {f : α → Option β} {g : α → β} (items : List α)
    (h : ∀ a, f a = some (g a)) : items.mapM f = some (items.map g) := by
  rw [funext h]
  exact List.mapM_pure

/-! Projects in writing -/

namespace Project

/-- The entries of a project. Packages and a choice about dependencies are written only if there are
any. -/
def entries (p : Project) : List Toml.Entry :=
  [⟨"name", Toml.writeText .escaped p.name, .text p.name⟩,
    ⟨"path", Toml.writeText .escaped p.path, .text p.path⟩] ++
  (if p.acceptPackages.items.isEmpty then []
    else [⟨"accept_packages", Toml.writeTexts .escaped p.acceptPackages.items,
      .list (p.acceptPackages.items.map .text)⟩]) ++
  p.includeDependencies.toList.map fun b => ⟨"include_dependencies", Toml.writeBool b, .bool b⟩

/-- A project as it is read again, where an empty list of packages is missing. -/
def reread (p : Project) : Project :=
  { p with
    acceptPackages := if p.acceptPackages.items.isEmpty then none else some p.acceptPackages.items }

theorem items_reread (p : Project) : p.reread.acceptPackages.items = p.acceptPackages.items := by
  rw [reread]
  dsimp only
  split
  next h => exact (List.isEmpty_iff.1 h).symm
  next => rfl

/-- Two projects say the same, where an empty list of packages may be missing. -/
structure Agrees (p q : Project) : Prop where
  name : p.name = q.name
  path : p.path = q.path
  packages : p.acceptPackages.items = q.acceptPackages.items
  dependencies : p.includeDependencies = q.includeDependencies

theorem agrees_reread (p : Project) : p.reread.Agrees p := ⟨rfl, rfl, p.items_reread, rfl⟩

theorem sound_reread {p : Project} (h : p.Sound) : p.reread.Sound := ⟨h.named, h.directory, h.placed⟩

/-- The keys of projects. -/
def keys : List String := ["name", "path", "accept_packages", "include_dependencies"]

theorem keys_entries (p : Project) : (p.entries.map (·.key)).Sublist keys := by
  cases hpackages : p.acceptPackages.items.isEmpty <;> cases hchoice : p.includeDependencies <;>
    simp [entries, keys, hpackages, hchoice]

theorem sound_entries (p : Project) : ∀ e ∈ p.entries, e.Sound .newer := by
  have hbare : ∀ key ∈ keys, Toml.IsBareKey key := by decide +kernel
  intro e he
  refine ⟨hbare e.key (p.keys_entries.subset (List.mem_map_of_mem he)), ?_⟩
  simp only [entries, List.mem_append, List.mem_cons, List.not_mem_nil, or_false] at he
  rcases he with ((rfl | rfl) | he) | he
  · exact Toml.reads_text _
  · exact Toml.reads_text _
  · split at he
    · cases he
    next hsome =>
      obtain rfl := List.mem_singleton.1 he
      exact Toml.reads_texts (by simpa using hsome)
  · obtain ⟨b, -, rfl⟩ := List.mem_map.1 he
    exact Toml.reads_bool b

theorem projectText_eq (p : Project) : Manifest.projectText p =
    "\n[[project]]\n" ++ String.join (p.entries.map fun e => "  " ++ e.text) := by
  have hpackages : ∀ (empty : Bool) (e : Toml.Entry),
      String.join ((if empty then [] else [e]).map fun e => "  " ++ e.text) =
        if empty then "" else "  " ++ e.text := by
    intro empty e
    cases empty <;> simp
  unfold Manifest.projectText
  rw [entries, List.map_append, List.map_append, String.join_append, String.join_append, hpackages]
  cases p.includeDependencies <;>
    simp only [Toml.Entry.text, List.map_cons, List.map_nil, Option.toList, String.join_cons,
      String.join_nil, String.append_empty, String.append_assoc]

/-- The table that the entries of a project are read as. -/
def table (p : Project) : Toml.Table := p.entries.map Toml.Entry.pair

theorem member?_table (p : Project) {key : String} (hkey : key ∈ keys) :
    p.table.member? key = p.table.lookup key := by
  have hkeys : (p.table.map (·.1)).Sublist keys := by
    rw [table, List.map_map]
    exact p.keys_entries
  exact Toml.Table.member?_of_keys hkeys (by decide) (by decide +kernel) hkey

theorem name_table (p : Project) : p.table.getD? "name" Toml.Value.text? "" = some p.name := by
  rw [Toml.Table.getD?, Toml.Table.optional?, p.member?_table (by decide)]
  rfl

theorem path_table (p : Project) : p.table.getD? "path" Toml.Value.text? "" = some p.path := by
  rw [Toml.Table.getD?, Toml.Table.optional?, p.member?_table (by decide)]
  rfl

theorem acceptPackages_table (p : Project) :
    p.table.optional? "accept_packages" Toml.Value.texts? = some p.reread.acceptPackages := by
  have htexts : Toml.Value.texts? (.list (p.acceptPackages.items.map .text)) =
      some p.acceptPackages.items := by
    have htext : ∀ s, (Toml.Value.text? ∘ Toml.Value.text) s = some (id s) := fun _ => rfl
    rw [Toml.Value.texts?, Toml.Value.list?, Option.bind_some, List.mapM_map, mapM_eq_some _ htext,
      List.map_id]
  rw [Toml.Table.optional?, p.member?_table (by decide), reread]
  by_cases hpackages : p.acceptPackages.items.isEmpty = true
  · have hnone : p.table.lookup "accept_packages" = none := by
      cases hchoice : p.includeDependencies <;> simp only [table, entries, hpackages, hchoice] <;> rfl
    simp [hnone, hpackages]
  · have hsome : p.table.lookup "accept_packages" =
        some (.list (p.acceptPackages.items.map .text)) := by
      rw [table, entries, if_neg hpackages]
      rfl
    simp [hsome, hpackages, htexts]

theorem includeDependencies_table (p : Project) :
    p.table.optional? "include_dependencies" Toml.Value.bool? = some p.includeDependencies := by
  rw [Toml.Table.optional?, p.member?_table (by decide)]
  cases hpackages : p.acceptPackages.items.isEmpty <;> cases hchoice : p.includeDependencies <;>
    simp only [table, entries, hpackages, hchoice] <;> rfl

theorem projectOf?_table (p : Project) : Manifest.projectOf? p.table = some p.reread := by
  rw [Manifest.projectOf?, p.name_table, p.path_table, p.acceptPackages_table,
    p.includeDependencies_table]
  rfl

end Project

namespace Manifest

/-! What is loaded -/

/-- A usable manifest with everything filled in, so that no directory matters for it. -/
structure Settled (m : Manifest) : Prop where
  usable : m.Usable
  positive : 0 < m.maxParallel
  fits : m.maxParallel < 0x8000000000000000
  rooted : m.outputRoot = "" ∨ File.Path.isAbsolute m.outputRoot = true
  placed : ∀ p ∈ m.projects, File.Path.isAbsolute p.path = true

theorem load_eq_ok_iff {d : Disk} {path : String} {m : Manifest} :
    load d path = .ok m ↔ ∃ bytes written, d.readFile path = .ok bytes ∧
      (Toml.readBytes? .newer bytes).bind ofTable? = some written ∧ written.Usable ∧
      m = written.resolved (File.Path.parent (d.absolute path)) := by
  unfold load
  constructor
  · intro h
    dsimp only at h
    split at h
    · cases h
    · cases h
    next bytes hread =>
    split at h
    · cases h
    next written hwritten =>
    cases hvalid : written.validate with
    | error failure =>
      rw [hvalid] at h
      cases h
    | ok =>
      rw [hvalid] at h
      exact ⟨bytes, written, hread, hwritten, validate_eq_ok_iff.1 hvalid, (Except.ok.inj h).symm⟩
  · rintro ⟨bytes, written, hread, hwritten, husable, rfl⟩
    simp only [hread, hwritten, validate_eq_ok_iff.2 husable]
    rfl

theorem isAbsolute_placeIn {dir : String} (h : File.Path.isAbsolute dir = true) (path : String) :
    File.Path.isAbsolute (placeIn dir path) = true := by
  rw [placeIn]
  split
  · assumption
  · exact (File.Path.canonical_join h path).isAbsolute

theorem not_isBlank_of_isAbsolute {path : String} (h : File.Path.isAbsolute path = true) :
    Text.isBlank path = false := by
  have hhead : path.toList.head? = some '/' := by simpa [File.Path.isAbsolute] using h
  rw [Text.isBlank, List.all_eq_false]
  exact ⟨'/', List.mem_of_head? hhead, by decide⟩

theorem maxParallel_lt {bytes : List UInt8} {m : Manifest}
    (h : (Toml.readBytes? .newer bytes).bind ofTable? = some m) :
    m.maxParallel < 0x8000000000000000 := by
  obtain ⟨t, hread, htable⟩ := Option.bind_eq_some_iff.1 h
  obtain ⟨projects, -, h⟩ := Option.bind_eq_some_iff.1 htable
  obtain ⟨n, hn, h⟩ := Option.bind_eq_some_iff.1 h
  obtain ⟨root, -, h⟩ := Option.bind_eq_some_iff.1 h
  obtain ⟨all, -, h⟩ := Option.bind_eq_some_iff.1 h
  obtain rfl := Option.some.inj h
  exact Toml.lt_of_getD?_int? (Toml.fits_readBytes? hread) (by decide) hn

/-- What is loaded is filled in. -/
theorem settled_of_load {d : Disk} {path : String} {m : Manifest} (h : load d path = .ok m) :
    m.Settled := by
  obtain ⟨bytes, written, -, hwritten, husable, rfl⟩ := load_eq_ok_iff.1 h
  have hdir : File.Path.isAbsolute (File.Path.parent (d.absolute path)) = true :=
    File.Path.isAbsolute_parent
      (File.Path.isAbsolute_absolute (File.Path.isAbsolute_ofComponents _) path)
  generalize File.Path.parent (d.absolute path) = dir at hdir
  have hparallel : 0 < (written.resolved dir).maxParallel ∧
      (written.resolved dir).maxParallel < 0x8000000000000000 := by
    have hfits := maxParallel_lt hwritten
    simp only [resolved, defaultParallel]
    split <;> omega
  refine ⟨⟨?_, ?_, ?_, hparallel.1.le⟩, hparallel.1, hparallel.2, ?_, ?_⟩
  · simpa [resolved] using husable.some_project
  · simp only [resolved, List.forall_mem_map]
    intro p hp
    obtain ⟨hnamed, hdirectory, -⟩ := husable.sound p hp
    exact ⟨hnamed, hdirectory, not_isBlank_of_isAbsolute (isAbsolute_placeIn hdir p.path)⟩
  · simpa [resolved, Function.comp_def] using husable.distinct
  · simp only [resolved]
    split
    · exact .inl rfl
    · exact .inr (isAbsolute_placeIn hdir _)
  · simp only [resolved, List.forall_mem_map]
    exact fun p _ => isAbsolute_placeIn hdir p.path

theorem Settled.resolved_eq {m : Manifest} (h : m.Settled) (dir : String) : m.resolved dir = m := by
  have hpath : ∀ {path : String}, File.Path.isAbsolute path = true → placeIn dir path = path :=
    fun habsolute => if_pos habsolute
  have hprojects : (m.projects.map fun p => { p with path := placeIn dir p.path }) = m.projects := by
    refine (List.map_congr_left fun p hp => ?_).trans (List.map_id _)
    rw [hpath (h.placed p hp)]
    rfl
  have hroot : (if m.outputRoot.isEmpty then "" else placeIn dir m.outputRoot) = m.outputRoot := by
    rcases h.rooted with hempty | habsolute
    · rw [hempty]
      rfl
    · rw [hpath habsolute]
      split
      next hempty => exact (String.isEmpty_iff.1 hempty).symm
      next => rfl
  rw [resolved, hprojects, hroot, if_neg (not_le.2 h.positive)]

/-- A manifest as it is read again. -/
def reread (m : Manifest) : Manifest := { m with projects := m.projects.map Project.reread }

theorem Settled.reread {m : Manifest} (h : m.Settled) : m.reread.Settled := by
  obtain ⟨⟨hsome, hsound, hdistinct, hparallel⟩, hpositive, hfits, hrooted, hplaced⟩ := h
  refine ⟨⟨?_, ?_, ?_, hparallel⟩, hpositive, hfits, hrooted, ?_⟩
  · simpa [Manifest.reread] using hsome
  · exact List.forall_mem_map.2 fun p hp => Project.sound_reread (hsound p hp)
  · simpa [Manifest.reread, Project.reread, Function.comp_def] using hdistinct
  · exact List.forall_mem_map.2 hplaced

/-! Manifests in writing -/

/-- The entries of a manifest before its projects. -/
def entries (m : Manifest) : List Toml.Entry :=
  ⟨"max_parallel", toString m.maxParallel, .int m.maxParallel⟩ ::
    if m.outputRoot.isEmpty then []
    else [⟨"output_root", Toml.writeText .escaped m.outputRoot, .text m.outputRoot⟩]

theorem text_eq (m : Manifest) :
    m.text = Toml.documentText m.entries "project" (m.projects.map Project.entries) := by
  have hprojects : m.projects.map projectText = (m.projects.map Project.entries).map fun t =>
      "\n[[" ++ "project" ++ "]]\n" ++ String.join (t.map fun e => "  " ++ e.text) := by
    rw [List.map_map]
    exact List.map_congr_left fun p _ => p.projectText_eq
  rw [text, Toml.documentText, hprojects]
  congr 1
  apply String.toList_injective
  cases hroot : m.outputRoot.isEmpty <;> simp [entries, Toml.Entry.text, hroot]

/-- The keys of manifests. -/
def keys : List String := ["max_parallel", "output_root", "project"]

theorem keys_entries (m : Manifest) : (m.entries.map (·.key) ++ ["project"]).Sublist keys := by
  cases hroot : m.outputRoot.isEmpty <;> simp [entries, keys, hroot]

theorem Settled.sound_entries {m : Manifest} (h : m.Settled) : ∀ e ∈ m.entries, e.Sound .newer := by
  have hbare : ∀ key ∈ keys, Toml.IsBareKey key := by decide +kernel
  obtain ⟨n, hn⟩ := Int.eq_ofNat_of_zero_le h.positive.le
  have hsmall : n < 0x8000000000000000 := by
    have hfits := h.fits
    rw [hn] at hfits
    exact_mod_cast hfits
  intro e he
  refine ⟨hbare e.key (m.keys_entries.subset (List.mem_append_left _ (List.mem_map_of_mem he))), ?_⟩
  rcases List.mem_cons.1 he with rfl | he
  · dsimp only
    rw [hn]
    exact Toml.reads_int hsmall
  · split at he
    · cases he
    · obtain rfl := List.mem_singleton.1 he
      exact Toml.reads_text _

/-- The table that a manifest is read as. -/
def table (m : Manifest) : Toml.Table :=
  m.entries.map Toml.Entry.pair ++ [("project", .list (m.projects.map fun p => .table p.table))]

theorem Settled.read?_text {m : Manifest} (h : m.Settled) :
    Toml.read? .newer m.text = some m.table := by
  have hdistinct : ∀ t ∈ m.projects.map Project.entries, (t.map (·.key)).Nodup :=
    List.forall_mem_map.2 fun p _ => p.keys_entries.nodup (by decide)
  rw [text_eq, Toml.read?_documentText h.sound_entries (by decide)
    (List.forall_mem_map.2 fun p _ => p.sound_entries) (m.keys_entries.nodup (by decide))
    (by simpa using h.usable.some_project) hdistinct, List.map_map]
  rfl

theorem member?_table (m : Manifest) {key : String} (hkey : key ∈ keys) :
    m.table.member? key = m.table.lookup key := by
  have hkeys : (m.table.map (·.1)).Sublist keys := by
    rw [table, List.map_append, List.map_map]
    exact m.keys_entries
  exact Toml.Table.member?_of_keys hkeys (by decide) (by decide +kernel) hkey

theorem maxParallel_table (m : Manifest) :
    m.table.getD? "max_parallel" Toml.Value.int? 0 = some m.maxParallel := by
  rw [Toml.Table.getD?, Toml.Table.optional?, m.member?_table (by decide)]
  rfl

theorem outputRoot_table (m : Manifest) :
    m.table.getD? "output_root" Toml.Value.text? "" = some m.outputRoot := by
  rw [Toml.Table.getD?, Toml.Table.optional?, m.member?_table (by decide)]
  cases hroot : m.outputRoot.isEmpty
  · simp only [table, entries, hroot]
    rfl
  · obtain hempty : m.outputRoot = "" := String.isEmpty_iff.1 hroot
    simp only [table, entries, hempty]
    rfl

theorem projects_table (m : Manifest) :
    m.table.getD? "project" Toml.Value.tables? [] = some (m.projects.map Project.table) := by
  have htables : Toml.Value.tables? (.list (m.projects.map fun p => .table p.table)) =
      some (m.projects.map Project.table) := by
    rw [Toml.Value.tables?, Toml.Value.list?, Option.bind_some, List.mapM_map]
    exact mapM_eq_some _ fun _ => rfl
  have hlookup : m.table.lookup "project" = some (.list (m.projects.map fun p => .table p.table)) := by
    cases hroot : m.outputRoot.isEmpty <;> simp only [table, entries, hroot] <;> rfl
  rw [Toml.Table.getD?, Toml.Table.optional?, m.member?_table (by decide), hlookup]
  simp [htables]

theorem ofTable?_table (m : Manifest) : ofTable? m.table = some m.reread := by
  have hprojects : (m.projects.map Project.table).mapM projectOf? =
      some (m.projects.map Project.reread) := by
    rw [List.mapM_map]
    exact mapM_eq_some _ Project.projectOf?_table
  rw [ofTable?, m.projects_table, m.maxParallel_table, m.outputRoot_table]
  simp [hprojects, reread]

/-- The file of a manifest that is filled in is read as that manifest. -/
theorem Settled.read_text {m : Manifest} (h : m.Settled) :
    (Toml.readBytes? .newer (Text.Utf8.encode m.text)).bind ofTable? = some m.reread := by
  have hmark : Toml.withoutMark .newer (Text.Utf8.encode m.text) = Text.Utf8.encode m.text := by
    obtain ⟨more, htext⟩ : ∃ more, m.text.toList = 'm' :: more := by
      rw [text, String.toList_append, String.toList_append, List.append_assoc, Toml.assignment_append]
      exact ⟨_, rfl⟩
    rw [Text.Utf8.encode, htext]
    rfl
  rw [Toml.readBytes?, hmark, Text.Utf8.isValid_encode, Text.Utf8.decode_encode_self, h.read?_text]
  exact m.ofTable?_table

theorem exists_of_save {σ : Type} {m : Manifest} {path : String} {s s' : Session σ}
    (h : m.save path s = (.ok (), s')) : ∃ d : Disk, d.writeText path m.text = .ok s'.disk := by
  obtain ⟨d, t, -, h⟩ := Act.bind_eq_ok.1 h
  cases hmade : d.makeDirs (File.Path.parent path) with
  | error fault =>
    rw [hmade] at h
    cases h
  | ok made =>
    rw [hmade] at h
    obtain ⟨_, t', -, h⟩ := Act.bind_eq_ok.1 h
    refine ⟨made, ?_⟩
    cases hwritten : made.writeText path m.text with
    | error fault =>
      rw [hwritten] at h
      cases h
    | ok written =>
      rw [hwritten] at h
      cases h
      rfl

/-- A manifest that was loaded and is saved, under whatever path, can be loaded from there and is the
same manifest. -/
theorem loaded_manifest_survives_saving {σ : Type} {d : Disk} {path path' : String} {m : Manifest}
    {s s' : Session σ} (hload : load d path = .ok m) (hsave : m.save path' s = (.ok (), s')) :
    ∃ m', load s'.disk path' = .ok m' ∧ m'.maxParallel = m.maxParallel ∧
      m'.outputRoot = m.outputRoot ∧ List.Forall₂ Project.Agrees m'.projects m.projects := by
  have hsettled := settled_of_load hload
  obtain ⟨before, hwrite⟩ := exists_of_save hsave
  have hread : s'.disk.readFile path' = .ok (Text.Utf8.encode m.text) :=
    (File.Disk.wrote_of_writeText hwrite).readFile (by simp)
  refine ⟨m.reread, ?_, rfl, rfl, ?_⟩
  · refine load_eq_ok_iff.2 ⟨_, m.reread, hread, hsettled.read_text, hsettled.reread.usable, ?_⟩
    exact (hsettled.reread.resolved_eq _).symm
  · rw [reread, List.forall₂_map_left_iff, List.forall₂_same]
    exact fun p _ => p.agrees_reread

/-- A manifest with relative paths that leaves out how many projects are analysed at a time. -/
def relativeText : String :=
  "output_root = 'runs'\n[[project]]\nname = \"shop\"\npath = \"../shop\"\naccept_packages = []\n"

def relativeManifest : Session Unit :=
  .onDisk (.dir [("work", .dir [("batch.toml", .file (Text.Utf8.encode relativeText) false)])])

/-- The manifest with everything filled in. -/
def filledIn : Manifest := ⟨2, "/work/runs", [⟨"shop", "/shop", some [], none⟩]⟩

theorem load_relativeManifest : load relativeManifest.disk "/work/batch.toml" = .ok filledIn := by
  have hany : (load relativeManifest.disk "/work/batch.toml").toOption.any (· == filledIn) = true := by
    decide +kernel
  obtain ⟨m, hload, hm⟩ := exists_eq_ok_of_any hany
  rw [hload, beq_iff_eq.1 hm]

theorem loaded_manifest_survives_saving_elsewhere :
    load relativeManifest.disk "/work/batch.toml" = .ok filledIn ∧
    ∃ s', filledIn.save "/lists/new/batch.toml" relativeManifest = (.ok (), s') ∧
    ∃ m', load s'.disk "/lists/new/batch.toml" = .ok m' ∧ m'.maxParallel = 2 ∧
      m'.outputRoot = "/work/runs" ∧ List.Forall₂ Project.Agrees m'.projects filledIn.projects := by
  obtain ⟨⟨⟩, s', hsave⟩ := Act.exists_of_isOk (filledIn.save "/lists/new/batch.toml")
    relativeManifest (by decide +kernel)
  exact ⟨load_relativeManifest, s', hsave,
    loaded_manifest_survives_saving load_relativeManifest hsave⟩

end Manifest
end ClassAtlas.Batch
