import ClassAtlas.Classpath.Descriptor
import ClassAtlas.Proofs.File.Walk

/-!
What a fingerprint tells apart. It is taken of the paths and the bytes of what a scan reads, where a
path is closed by a zero byte and bytes are not closed at all. So as long as no file grows at its
end, and no entry turns into a file or out of one, two states of a disk with the same bytes for
their fingerprints give a scan the same class files. A file that grows can take over those that
follow it.
-/
namespace ClassAtlas

namespace Text.Utf8

/-- Only the zero character has a zero byte. -/
theorem zero_not_mem_utf8EncodeChar {c : Char} (h : c ≠ '\x00') : 0 ∉ String.utf8EncodeChar c := by
  have hval : c.val.toNat ≠ 0 := fun hzero => h (Char.ext (UInt32.toNat.inj hzero))
  have hbyte : ∀ n : Nat, 0 < n → n < 256 → (0 : UInt8) ≠ UInt8.ofNat n := by
    intro n hpos hlt heq
    have hmod : 0 = n % 256 := congrArg UInt8.toNat heq
    omega
  rw [String.utf8EncodeChar]
  split
  · simp only [List.mem_singleton]
    exact hbyte _ (by omega) (by omega)
  · split
    · simp only [List.mem_cons, List.not_mem_nil, or_false, not_or]
      exact ⟨hbyte _ (by omega) (by omega), hbyte _ (by omega) (by omega)⟩
    · split
      · simp only [List.mem_cons, List.not_mem_nil, or_false, not_or]
        exact ⟨hbyte _ (by omega) (by omega), hbyte _ (by omega) (by omega),
          hbyte _ (by omega) (by omega)⟩
      · simp only [List.mem_cons, List.not_mem_nil, or_false, not_or]
        exact ⟨hbyte _ (by omega) (by omega), hbyte _ (by omega) (by omega),
          hbyte _ (by omega) (by omega), hbyte _ (by omega) (by omega)⟩

theorem zero_not_mem_encode {s : String} (h : '\x00' ∉ s.toList) : 0 ∉ encode s := by
  intro hzero
  obtain ⟨c, hc, hmem⟩ := List.mem_flatMap.1 hzero
  exact zero_not_mem_utf8EncodeChar (fun heq => h (heq ▸ hc)) hmem

theorem encode_inj {s t : String} (h : encode s = encode t) : s = t := by
  have hbytes : s.toList.utf8Encode = t.toList.utf8Encode := congrArg List.toByteArray h
  rw [String.utf8Encode_toList, String.utf8Encode_toList] at hbytes
  exact String.toByteArray_inj.1 hbytes

end Text.Utf8

namespace Classpath

open File

/-- A text that can be closed by a zero byte. -/
def Closable (s : String) : Prop := '\x00' ∉ s.toList

instance : DecidablePred Closable := fun s => inferInstanceAs (Decidable ('\x00' ∉ s.toList))

theorem append_zero_inj {a b r t : List UInt8} (ha : 0 ∉ a) (hb : 0 ∉ b)
    (h : a ++ 0 :: r = b ++ 0 :: t) : a = b ∧ r = t := by
  induction a generalizing b with
  | nil =>
    cases b with
    | nil => exact ⟨rfl, List.tail_eq_of_cons_eq h⟩
    | cons y b => exact absurd (List.head_eq_of_cons_eq h ▸ List.mem_cons_self) hb
  | cons x a ih =>
    cases b with
    | nil => exact absurd (List.head_eq_of_cons_eq h ▸ List.mem_cons_self) ha
    | cons y b =>
      rw [List.cons_append, List.cons_append, List.cons.injEq] at h
      obtain ⟨hab, hrt⟩ := ih (fun hm => ha (List.mem_cons_of_mem _ hm))
        (fun hm => hb (List.mem_cons_of_mem _ hm)) h.2
      exact ⟨by rw [h.1, hab], hrt⟩

/-- Texts that are closed can be taken apart from what follows. -/
theorem closedText_append_inj {s t : String} {a b : List UInt8} (hs : Closable s) (ht : Closable t)
    (h : closedText s ++ a = closedText t ++ b) : s = t ∧ a = b := by
  simp only [closedText, List.append_assoc, List.singleton_append] at h
  obtain ⟨htext, hrest⟩ := append_zero_inj (Text.Utf8.zero_not_mem_encode hs)
    (Text.Utf8.zero_not_mem_encode ht) h
  exact ⟨Text.Utf8.encode_inj htext, hrest⟩

/-! Contributions one after the other -/

theorem foldl_concatenated_eq_ok {ε : Type} {parts : List (Except ε (List UInt8))}
    {done : Except ε (List UInt8)} {bytes : List UInt8} :
    parts.foldl (fun acc part => do return (← acc) ++ (← part)) done = .ok bytes ↔
      ∃ first rest, done = .ok first ∧ concatenated parts = .ok rest ∧ bytes = first ++ rest := by
  have hstart : ∀ part : Except ε (List UInt8),
      (do return (← (.ok [] : Except ε (List UInt8))) ++ (← part)) = part := by
    intro part
    cases part <;> rfl
  induction parts generalizing done bytes with
  | nil =>
    constructor
    · exact fun h => ⟨bytes, [], h, rfl, (List.append_nil _).symm⟩
    · rintro ⟨first, rest, rfl, hrest, rfl⟩
      cases hrest
      rw [List.append_nil]
      rfl
  | cons part more ih =>
    rw [List.foldl_cons, concatenated, List.foldl_cons, hstart]
    refine ih.trans ?_
    cases done with
    | error e =>
      constructor
      · rintro ⟨_, _, ⟨⟩, _⟩
      · rintro ⟨_, _, ⟨⟩, _⟩
    | ok a =>
      cases part with
      | error e =>
        constructor
        · rintro ⟨_, _, ⟨⟩, _⟩
        · rintro ⟨_, _, _, hrest, _⟩
          obtain ⟨_, _, ⟨⟩, _⟩ := ih.1 hrest
      | ok b =>
        constructor
        · rintro ⟨_, rest, ⟨⟩, hrest, rfl⟩
          exact ⟨a, b ++ rest, rfl, ih.2 ⟨b, rest, rfl, hrest, rfl⟩, List.append_assoc _ _ _⟩
        · rintro ⟨_, _, ⟨⟩, hrest, rfl⟩
          obtain ⟨_, rest, ⟨⟩, hmore, rfl⟩ := ih.1 hrest
          exact ⟨a ++ b, rest, rfl, hmore, (List.append_assoc _ _ _).symm⟩

theorem concatenated_cons_eq_ok {ε : Type} {part : Except ε (List UInt8)}
    {parts : List (Except ε (List UInt8))} {bytes : List UInt8} :
    concatenated (part :: parts) = .ok bytes ↔
      ∃ first rest, part = .ok first ∧ concatenated parts = .ok rest ∧ bytes = first ++ rest := by
  have hfirst : concatenated (part :: parts) =
      parts.foldl (fun acc part => do return (← acc) ++ (← part)) part := by
    cases part <;> rfl
  rw [hfirst, foldl_concatenated_eq_ok]

/-! What a scan reads at an entry -/

/-- The name of a path below an entry. -/
def nameBelow (place path : String) : String := (Path.relative? place path).getD ""

/-- What is read at an entry: the bytes of a file, or the class files below a directory, each under
its path. What is missing is read like an empty directory. -/
inductive Reading where
  | file (bytes : List UInt8)
  | classes (files : List (String × List UInt8))

namespace Reading

/-- What the entry adds to the bytes of a fingerprint. -/
def bytes (place : String) : Reading → List UInt8
  | .file bytes => bytes
  | .classes files => files.flatMap fun f => closedText (nameBelow place f.1) ++ f.2

/-- The class files that a walk delivers for the entry. -/
def units (place : String) : Reading → List ClassUnit
  | .file bytes => if isArchive place then unitsOf (archiveSteps place bytes) else []
  | .classes files => (files.filter fun f => isClassEntry (nameBelow place f.1)).map
      fun f => ⟨nameBelow place f.1, place, f.2⟩

end Reading

/-- Class files of some visits as they stand on a disk. -/
def FilesAt (d : Disk) (visits : List Visit) (files : List (String × List UInt8)) : Prop :=
  ∀ f ∈ files, Path.Canonical f.1 ∧ Closable f.1 ∧ f.1 ∈ visits.map (·.path) ∧
    d.readFile f.1 = .ok f.2

/-- Everything that is met at an entry. -/
def met (d : Disk) (place : String) : List Visit := (d.walk (fun _ => false) place).toOption.getD []

/-- A reading is what the disk holds at an entry. -/
inductive ReadAt (d : Disk) (place : String) : Reading → Prop where
  | file {bytes : List UInt8} (h : d.readFile place = .ok bytes) : ReadAt d place (.file bytes)
  | classes {files : List (String × List UInt8)} (hplace : d.isFile place = false)
    (hfiles : FilesAt d (met d place) files) : ReadAt d place (.classes files)

theorem ReadAt.isFile_file {d : Disk} {place : String} {bytes : List UInt8}
    (h : d.readFile place = .ok bytes) : d.isFile place = true := by
  unfold Disk.readFile at h
  unfold Disk.isFile
  split at h
  · next hlookup => simp [hlookup]
  · cases h
  · cases h

theorem nameBelow_eq {place path : String} (hplace : Path.isAbsolute place = true)
    (hpath : Path.isAbsolute path = true) :
    nameBelow place path = Path.ofComponents false (Path.way place path) := by
  rw [nameBelow, Path.relative?_eq hplace hpath]
  rfl

/-- A name below an entry can be closed, and it is not the path of an entry. -/
theorem closable_nameBelow {place path : String} (hplace : Path.isAbsolute place = true)
    (hpath : Path.Canonical path) (hclosable : Closable path) :
    Closable (nameBelow place path) ∧ Path.isAbsolute (nameBelow place path) = false := by
  rw [nameBelow_eq hplace hpath.isAbsolute]
  refine ⟨fun hzero => hclosable ?_, Path.isAbsolute_way hpath.isAbsolute⟩
  exact Path.mem_toList_way hpath hzero (by decide) (by decide)

theorem nameBelow_inj {place a b : String} (hplace : Path.isAbsolute place = true)
    (ha : Path.Canonical a) (hb : Path.Canonical b) (h : nameBelow place a = nameBelow place b) :
    a = b := by
  refine Path.relative?_inj hplace ha hb ?_
  rw [nameBelow_eq hplace ha.isAbsolute, nameBelow_eq hplace hb.isAbsolute] at h
  rw [Path.relative?_eq hplace ha.isAbsolute, Path.relative?_eq hplace hb.isAbsolute, h]

/-! The class files below a directory -/

/-- What a walk delivers as a class file has the extension of one. -/
theorem extension_of_isClassEntry {place path name : String}
    (hplace : Path.isAbsolute place = true) (hpath : path = place ∨ Path.Canonical path)
    (hname : Path.relative? place path = some name) (hentry : isClassEntry name = true) :
    Path.extension path = ".class" := by
  have hend : Text.endsWith name ".class" = true := by
    simp only [isClassEntry, Bool.and_eq_true] at hentry
    exact hentry.1.1.1
  rcases hpath with rfl | hpath
  · rw [Path.relative?_eq hplace hplace, Path.way_self] at hname
    cases hname
    exact absurd hend (by decide)
  · rw [Path.relative?_eq hplace hpath.isAbsolute] at hname
    cases hname
    exact Path.extension_of_endsWith_way hpath hend

theorem readFile_of_isDir {d : Disk} {path : String} (h : d.isDir path = true) :
    ∃ fault, d.readFile path = .error fault := by
  unfold Disk.isDir at h
  unfold Disk.readFile
  split at h
  · next hlookup => exact ⟨_, by rw [hlookup]⟩
  · cases h

/-- One visit below a directory gives the fingerprint and the walk the same file, or nothing that
the walk would deliver. -/
theorem exists_file_of_visit {d : Disk} {place : String} {v : Visit} {bytes : List UInt8}
    (hplace : Path.isAbsolute place = true) (hdir : d.isDir place = true)
    (hv : v.path = place ∨ Path.Canonical v.path ∧ Closable v.path)
    (hbytes : visitBytes d place v = .ok bytes) :
    ∃ files, FilesAt d [v] files ∧ (Reading.classes files).bytes place = bytes ∧
      (Reading.classes files).units place = unitsOf (visitSteps d place v) := by
  have hpath : v.path = place ∨ Path.Canonical v.path := hv.imp_right And.left
  unfold visitBytes at hbytes
  split at hbytes
  · next hskip =>
    cases hbytes
    refine ⟨[], by simp [FilesAt], rfl, ?_⟩
    unfold visitSteps
    split
    · rfl
    · next hnode =>
      have hext : Path.extension v.path ≠ ".class" := by
        cases hn : v.node with
        | dir entries => exact absurd hn (hnode entries)
        | file contents executable => simpa [hn, Node.isDir] using hskip
        | link target => simpa [hn, Node.isDir] using hskip
      split
      · rfl
      · next name hname =>
        rw [if_neg fun hentry => hext (extension_of_isClassEntry hplace hpath hname hentry)]
        rfl
  · next hread =>
    obtain ⟨hnode, hext⟩ : v.node.isDir = false ∧ Path.extension v.path = ".class" := by
      simpa using hread
    cases hcontents : d.readFile v.path with
    | error fault =>
      rw [hcontents] at hbytes
      cases hbytes
    | ok contents =>
      rw [hcontents] at hbytes
      cases hbytes
      rcases hv with hv | ⟨hcanonical, hclosable⟩
      · obtain ⟨fault, hfault⟩ := readFile_of_isDir hdir
        rw [← hv, hcontents] at hfault
        cases hfault
      · refine ⟨[(v.path, contents)], by simp [FilesAt, hcanonical, hclosable, hcontents],
          by simp [Reading.bytes, nameBelow], ?_⟩
        have hname := Path.relative?_eq hplace hcanonical.isAbsolute
        unfold visitSteps
        split
        · next entries hdirectory => simp [hdirectory, Node.isDir] at hnode
        · by_cases hentry :
              isClassEntry (Path.ofComponents false (Path.way place v.path)) = true <;>
            simp [hname, hentry, hcontents, Reading.units, nameBelow, unitsOf]

theorem unitsOf_append (a b : List Step) : unitsOf (a ++ b) = unitsOf a ++ unitsOf b :=
  List.filterMap_append

/-- All visits below a directory, one after the other. -/
theorem exists_files_of_visits {d : Disk} {place : String} {visits : List Visit}
    {bytes : List UInt8} (hplace : Path.isAbsolute place = true) (hdir : d.isDir place = true)
    (hvisits : ∀ v ∈ visits, v.path = place ∨ Path.Canonical v.path ∧ Closable v.path)
    (hbytes : concatenated (visits.map (visitBytes d place)) = .ok bytes) :
    ∃ files, FilesAt d visits files ∧ (Reading.classes files).bytes place = bytes ∧
      (Reading.classes files).units place = unitsOf (visits.flatMap (visitSteps d place)) := by
  induction visits generalizing bytes with
  | nil =>
    cases hbytes
    exact ⟨[], by simp [FilesAt], rfl, rfl⟩
  | cons v more ih =>
    obtain ⟨hv, hmore⟩ := List.forall_mem_cons.1 hvisits
    obtain ⟨first, rest, hfirst, hrest, rfl⟩ := concatenated_cons_eq_ok.1 hbytes
    obtain ⟨files, hfiles, rfl, hunits⟩ := exists_file_of_visit hplace hdir hv hfirst
    obtain ⟨others, hothers, rfl, hunits'⟩ := ih hmore hrest
    have hall : FilesAt d (v :: more) (files ++ others) := by
      intro f hf
      rcases List.mem_append.1 hf with hf | hf
      · obtain ⟨hcanonical, hclosable, hmet, hread⟩ := hfiles f hf
        exact ⟨hcanonical, hclosable, by simp_all, hread⟩
      · obtain ⟨hcanonical, hclosable, hmet, hread⟩ := hothers f hf
        exact ⟨hcanonical, hclosable, List.mem_cons_of_mem _ hmet, hread⟩
    refine ⟨files ++ others, hall, by simp [Reading.bytes], ?_⟩
    rw [List.flatMap_cons, unitsOf_append, ← hunits, ← hunits']
    simp [Reading.units]

/-- What an entry adds to a fingerprint and what a walk delivers for it come from one reading. -/
theorem exists_readAt {d : Disk} {place : String} {bytes : List UInt8}
    (hnames : d.root.Named Closable) (hplace : Path.isAbsolute place = true)
    (hclosable : Closable place) (hbytes : placeBytes d place = .ok bytes) :
    ∃ r, ReadAt d place r ∧ r.bytes place = bytes ∧
      r.units place = unitsOf (placeSteps d place) := by
  unfold placeBytes at hbytes
  cases hlookup : d.lookup true place with
  | error reason =>
    have hstat : d.stat place = .error ⟨"stat", place, reason⟩ := by
      rw [Disk.stat, hlookup]
      rfl
    simp only [hstat] at hbytes
    cases hbytes
    refine ⟨.classes [], .classes (by simp [Disk.isFile, hlookup]) (by simp [FilesAt]), rfl, ?_⟩
    simp [placeSteps, hstat, unitsOf, Reading.units]
  | ok node =>
    have hstat : d.stat place = .ok node := by
      rw [Disk.stat, hlookup]
      rfl
    simp only [hstat] at hbytes
    cases node with
    | link target => simp [Disk.readFile, hlookup] at hbytes
    | file contents executable =>
      have hread : d.readFile place = .ok contents := by
        simp [Disk.readFile, hlookup]
      rw [hread] at hbytes
      cases hbytes
      refine ⟨.file _, .file hread, rfl, ?_⟩
      by_cases harchive : isArchive place = true <;>
        simp [placeSteps, hstat, unitsOf, Reading.units, harchive]
    | dir entries =>
      have hdir : d.isDir place = true := by
        simp [Disk.isDir, hlookup]
      cases hwalk : d.walk (fun _ => false) place with
      | error fault =>
        rw [hwalk] at hbytes
        cases hbytes
      | ok visits =>
        rw [hwalk] at hbytes
        have hvisits : ∀ v ∈ visits, v.path = place ∨ Path.Canonical v.path ∧ Closable v.path := by
          intro v hv
          unfold Disk.walk Disk.lstat at hwalk
          cases hnode : d.lookup false place with
          | error reason =>
            rw [hnode] at hwalk
            cases hwalk
          | ok node =>
            rw [hnode] at hwalk
            cases hwalk
            exact (visits_below (by decide) (by decide) (Disk.named_lookup hnames hnode) _ _ hplace
              hclosable v hv).imp_left And.left
        obtain ⟨files, hfiles, hsame, hunits⟩ := exists_files_of_visits hplace hdir hvisits hbytes
        have hmet : met d place = visits := by
          rw [met, hwalk]
          rfl
        refine ⟨.classes files, .classes (by simp [Disk.isFile, hlookup]) (hmet ▸ hfiles),
          hsame, ?_⟩
        rw [hunits]
        simp [placeSteps, hstat, unitsOf, directorySteps, hwalk]

/-! Two states of a disk -/

/-- What follows the bytes of an entry: nothing, or the path of the next entry. -/
def Follows (rest : List UInt8) : Prop :=
  rest = [] ∨ ∃ place more, Path.isAbsolute place = true ∧ Closable place ∧
    rest = closedText place ++ more

/-- Two contents of which neither goes on after the other. -/
def NeitherExtends (a b : List UInt8) : Prop := a <+: b ∨ b <+: a → a = b

theorem NeitherExtends.split {a b rest rest' : List UInt8} (h : NeitherExtends a b)
    (heq : a ++ rest = b ++ rest') : a = b ∧ rest = rest' := by
  have hab : a = b := by
    refine h ?_
    rcases List.append_eq_append_iff.1 heq with ⟨more, hb, -⟩ | ⟨more, ha, -⟩
    · exact .inl ⟨more, hb.symm⟩
    · exact .inr ⟨more, ha.symm⟩
  subst hab
  exact ⟨rfl, List.append_cancel_left heq⟩

/-- A name below an entry is never taken for the path of the next one. -/
theorem Follows.ne_name {rest more : List UInt8} (h : Follows rest) {place path : String}
    (hplace : Path.isAbsolute place = true) (hpath : Path.Canonical path)
    (hclosable : Closable path) : rest ≠ closedText (nameBelow place path) ++ more := by
  obtain ⟨hname, hrelative⟩ := closable_nameBelow hplace hpath hclosable
  rcases h with rfl | ⟨next, after, habsolute, hnext, rfl⟩
  · simp [closedText]
  · intro heq
    obtain ⟨rfl, -⟩ := closedText_append_inj hnext hname heq
    rw [habsolute] at hrelative
    cases hrelative

variable {d₁ d₂ : Disk}

theorem bytes_classes_cons (place : String) (f : String × List UInt8)
    (files : List (String × List UInt8)) (rest : List UInt8) :
    (Reading.classes (f :: files)).bytes place ++ rest =
      closedText (nameBelow place f.1) ++
        (f.2 ++ ((Reading.classes files).bytes place ++ rest)) := by
  simp [Reading.bytes]

/-- The same bytes are the same class files, if no file goes on after its other state. -/
theorem files_eq {place : String} {files₁ files₂ : List (String × List UInt8)}
    {rest₁ rest₂ : List UInt8} (hplace : Path.isAbsolute place = true)
    {visits₁ visits₂ : List Visit} (h₁ : FilesAt d₁ visits₁ files₁) (h₂ : FilesAt d₂ visits₂ files₂)
    (hneither : ∀ v ∈ visits₁, ∀ a b, d₁.readFile v.path = .ok a → d₂.readFile v.path = .ok b →
      NeitherExtends a b)
    (hrest₁ : Follows rest₁) (hrest₂ : Follows rest₂)
    (h : (Reading.classes files₁).bytes place ++ rest₁ =
      (Reading.classes files₂).bytes place ++ rest₂) :
    files₁ = files₂ ∧ rest₁ = rest₂ := by
  induction files₁ generalizing files₂ with
  | nil =>
    cases files₂ with
    | nil => exact ⟨rfl, h⟩
    | cons g files₂ =>
      obtain ⟨hcanonical, hclosable, -⟩ := h₂ g List.mem_cons_self
      rw [bytes_classes_cons] at h
      exact absurd h (hrest₁.ne_name hplace hcanonical hclosable)
  | cons f files₁ ih =>
    obtain ⟨hcanonical, hclosable, hmet, hread⟩ := h₁ f List.mem_cons_self
    rw [bytes_classes_cons] at h
    cases files₂ with
    | nil => exact absurd h.symm (hrest₂.ne_name hplace hcanonical hclosable)
    | cons g files₂ =>
      obtain ⟨hcanonical', hclosable', -, hread'⟩ := h₂ g List.mem_cons_self
      rw [bytes_classes_cons] at h
      obtain ⟨hname, hcontents⟩ := closedText_append_inj
        (closable_nameBelow hplace hcanonical hclosable).1
        (closable_nameBelow hplace hcanonical' hclosable').1 h
      have hpath : f.1 = g.1 := nameBelow_inj hplace hcanonical hcanonical' hname
      obtain ⟨v, hv, hvpath⟩ := List.mem_map.1 hmet
      obtain ⟨hbytes, hmore⟩ := (hneither v hv f.2 g.2 (by rw [hvpath, hread])
        (by rw [hvpath, hpath, hread'])).split hcontents
      obtain ⟨hfiles, hrest⟩ := ih (fun f hf => h₁ f (List.mem_cons_of_mem _ hf))
        (fun g hg => h₂ g (List.mem_cons_of_mem _ hg)) hmore
      exact ⟨by rw [Prod.ext hpath hbytes, hfiles], hrest⟩

/-- The same bytes are the same reading of an entry. -/
theorem reading_eq {place : String} {r₁ r₂ : Reading} {rest₁ rest₂ : List UInt8}
    (hplace : Path.isAbsolute place = true) (h₁ : ReadAt d₁ place r₁) (h₂ : ReadAt d₂ place r₂)
    (hkind : d₁.isFile place = d₂.isFile place)
    (hneither : ∀ path ∈ place :: (met d₁ place).map (·.path), ∀ a b,
      d₁.readFile path = .ok a → d₂.readFile path = .ok b → NeitherExtends a b)
    (hrest₁ : Follows rest₁) (hrest₂ : Follows rest₂)
    (h : r₁.bytes place ++ rest₁ = r₂.bytes place ++ rest₂) : r₁ = r₂ ∧ rest₁ = rest₂ := by
  cases h₁ with
  | file hread₁ =>
    cases h₂ with
    | file hread₂ =>
      obtain ⟨rfl, hrest⟩ := (hneither place List.mem_cons_self _ _ hread₁ hread₂).split h
      exact ⟨rfl, hrest⟩
    | classes hplace₂ hfiles₂ =>
      rw [ReadAt.isFile_file hread₁, hplace₂] at hkind
      cases hkind
  | classes hplace₁ hfiles₁ =>
    cases h₂ with
    | file hread₂ =>
      rw [ReadAt.isFile_file hread₂, hplace₁] at hkind
      cases hkind
    | classes hplace₂ hfiles₂ =>
      obtain ⟨rfl, hrest⟩ := files_eq hplace hfiles₁ hfiles₂
        (fun v hv => hneither v.path (List.mem_cons_of_mem _ (List.mem_map_of_mem hv)))
        hrest₁ hrest₂ h
      exact ⟨rfl, hrest⟩

theorem fingerprintBytes_cons_eq_ok {d : Disk} {place : String} {entries : List String}
    {bytes : List UInt8} (h : fingerprintBytes d (place :: entries) = .ok bytes) :
    ∃ first rest, placeBytes d place = .ok first ∧ fingerprintBytes d entries = .ok rest ∧
      bytes = closedText place ++ (first ++ rest) := by
  obtain ⟨first, rest, hfirst, hrest, rfl⟩ := concatenated_cons_eq_ok.1 h
  cases hplace : placeBytes d place with
  | error fault =>
    simp only [hplace] at hfirst
    cases hfirst
  | ok contents =>
    simp only [hplace] at hfirst
    cases hfirst
    exact ⟨contents, rest, rfl, hrest, List.append_assoc _ _ _⟩

theorem follows_fingerprintBytes {d : Disk} {entries : List String} {bytes : List UInt8}
    (hentries : ∀ place ∈ entries, Path.isAbsolute place = true ∧ Closable place)
    (h : fingerprintBytes d entries = .ok bytes) : Follows bytes := by
  cases entries with
  | nil =>
    cases h
    exact .inl rfl
  | cons place entries =>
    obtain ⟨first, rest, -, -, rfl⟩ := fingerprintBytes_cons_eq_ok h
    obtain ⟨habsolute, hclosable⟩ := hentries place List.mem_cons_self
    exact .inr ⟨place, _, habsolute, hclosable, rfl⟩

/-- Equal bytes for the fingerprint mean equal class files for a scan, as long as no file that both
states read goes on after its other state, and no entry is a file in one state only. -/
theorem unitsOf_steps_eq {entries : List String} {bytes : List UInt8}
    (hnames₁ : d₁.root.Named Closable) (hnames₂ : d₂.root.Named Closable)
    (hentries : ∀ place ∈ entries, Path.isAbsolute place = true ∧ Closable place)
    (hkind : ∀ place ∈ entries, d₁.isFile place = d₂.isFile place)
    (hneither : ∀ place ∈ entries, ∀ path ∈ place :: (met d₁ place).map (·.path), ∀ a b,
      d₁.readFile path = .ok a → d₂.readFile path = .ok b → NeitherExtends a b)
    (h₁ : fingerprintBytes d₁ entries = .ok bytes) (h₂ : fingerprintBytes d₂ entries = .ok bytes) :
    unitsOf (steps d₁ entries) = unitsOf (steps d₂ entries) := by
  induction entries generalizing bytes with
  | nil => rfl
  | cons place entries ih =>
    obtain ⟨⟨hplace, hclosable⟩, hmore⟩ := List.forall_mem_cons.1 hentries
    obtain ⟨hsame, hkinds⟩ := List.forall_mem_cons.1 hkind
    obtain ⟨first₁, rest₁, hfirst₁, hrest₁, rfl⟩ := fingerprintBytes_cons_eq_ok h₁
    obtain ⟨first₂, rest₂, hfirst₂, hrest₂, heq⟩ := fingerprintBytes_cons_eq_ok h₂
    obtain ⟨r₁, hr₁, rfl, hunits₁⟩ := exists_readAt hnames₁ hplace hclosable hfirst₁
    obtain ⟨r₂, hr₂, rfl, hunits₂⟩ := exists_readAt hnames₂ hplace hclosable hfirst₂
    obtain ⟨hhere, helsewhere⟩ := List.forall_mem_cons.1 hneither
    obtain ⟨rfl, rfl⟩ := reading_eq hplace hr₁ hr₂ hsame hhere
      (follows_fingerprintBytes hmore hrest₁) (follows_fingerprintBytes hmore hrest₂)
      (List.append_cancel_left heq)
    rw [steps, steps, List.flatMap_cons, List.flatMap_cons, unitsOf_append, unitsOf_append,
      ← hunits₁, ← hunits₂]
    congr 1
    exact ih hmore hkinds helsewhere hrest₁ hrest₂

/-- A disk with one directory of classes. -/
def classesDisk (classes : List (String × Node)) : Disk := ⟨.dir [("classes", .dir classes)], []⟩

def twoClasses : List (String × Node) :=
  [("A.class", .file [1, 0] false), ("B.class", .file [2] false)]

theorem named_classesDisk {classes : List (String × Node)}
    (h : ∀ e ∈ classes, Closable e.1 ∧ e.2.isFile = true) :
    (classesDisk classes).root.Named Closable := by
  have hfile : ∀ node : Node, node.isFile = true → node.Named Closable
    | .file bytes executable, _ => .file bytes executable
  have hroot : Closable "classes" := by decide
  exact .dir (List.forall_mem_singleton.2 hroot) (List.forall_mem_singleton.2
    (.dir (fun e he => (h e he).1) fun e he => hfile e.2 (h e he).2))

/-- A note beside the classes is in neither the fingerprint nor the scan. -/
theorem unitsOf_steps_eq_noteBeside :
    unitsOf (steps (classesDisk twoClasses) ["/classes"]) =
      unitsOf (steps (classesDisk (twoClasses ++ [("NOTE", .file [3] false)])) ["/classes"]) := by
  refine unitsOf_steps_eq (named_classesDisk (by decide)) (named_classesDisk (by decide))
    (by decide) (by decide) (List.forall_mem_singleton.2 fun path hpath a b ha hb => ?_) rfl rfl
  have hsame : (classesDisk twoClasses).readFile path =
      (classesDisk (twoClasses ++ [("NOTE", .file [3] false)])).readFile path := by
    have hmet : path ∈ ["/classes", "/classes", "/classes/A.class", "/classes/B.class"] := hpath
    simp only [List.mem_cons, List.not_mem_nil, or_false] at hmet
    rcases hmet with rfl | rfl | rfl | rfl <;> rfl
  rw [hsame, hb] at ha
  cases ha
  exact fun _ => rfl

/-- A class that grows at its end by the name and the bytes of the next one, which goes away. -/
def grownClass : List (String × Node) :=
  [("A.class", .file ([1, 0] ++ closedText "B.class" ++ [2]) false)]

/-- The fingerprint stays the same where a class file takes over the one that follows it. -/
theorem fingerprint_grownClass :
    fingerprintBytes (classesDisk twoClasses) ["/classes"] =
      fingerprintBytes (classesDisk grownClass) ["/classes"] ∧
    (unitsOf (steps (classesDisk twoClasses) ["/classes"])).map (·.name) = ["A.class", "B.class"] ∧
    (unitsOf (steps (classesDisk grownClass) ["/classes"])).map (·.name) = ["A.class"] :=
  ⟨rfl, rfl, rfl⟩

end Classpath
end ClassAtlas
