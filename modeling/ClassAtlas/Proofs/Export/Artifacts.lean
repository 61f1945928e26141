import ClassAtlas.Diagram.Sequence
import ClassAtlas.Export.Files
import ClassAtlas.Proofs.Export.Tables
import ClassAtlas.Proofs.File.Directory
import ClassAtlas.Proofs.Text.Digits

/-!
The artifacts of a run: the diagrams and tables of a graph in one directory. The number in the name
of a sequence diagram tells it from all others, whatever the classes and methods are called, so that
nothing is written twice; and what the names are made of lets every artifact be fetched by its name.
-/
namespace ClassAtlas

/-! The names of sequence diagrams -/

namespace Diagram

theorem mem_plainName {name : String} {c : Char} (h : c ∈ (plainName name).toList) :
    c.isAlphanum = true ∨ c = '_' := by
  rw [plainName, String.toList_ofList] at h
  obtain ⟨old, -, rfl⟩ := List.mem_map.1 h
  by_cases hplain : isPlainChar old = true
  · rw [if_pos hplain]
    exact .inl hplain
  · rw [if_neg hplain]
    exact .inr rfl

/-- A name with its dot and what is in front of it. -/
theorem toList_sequenceFileName (i : Nat) (e : Graph.Endpoint) :
    ∃ plain : List Char, (∀ c ∈ plain, c.isAlphanum = true ∨ c = '_') ∧
      (sequenceFileName (i + 1) e).toList =
        "seq_".toList ++ ((Text.zeroPadded 2 (i + 1)).toList ++ '_' :: (plain ++ ".puml".toList)) := by
  have hnumber : twoPlaces (i + 1) = Text.zeroPadded 2 (i + 1) := by
    rw [twoPlaces, if_neg (by omega)]
    rfl
  refine ⟨(plainName (e.controllerClass ++ "_" ++ e.controllerMethod)).toList,
    fun _ => mem_plainName, ?_⟩
  simp [sequenceFileName, hnumber]

theorem not_mem_zeroPadded {width n : Nat} {c : Char} (h : c.isDigit = false) :
    c ∉ (Text.zeroPadded width n).toList := by
  intro hmem
  rw [Text.isDigit_of_mem_zeroPadded hmem] at h
  cases h

/-- Diagrams with different numbers have different names. -/
theorem sequenceFileName_inj {i j : Nat} {e e' : Graph.Endpoint}
    (h : sequenceFileName (i + 1) e = sequenceFileName (j + 1) e') : i = j := by
  obtain ⟨plain, -, hname⟩ := toList_sequenceFileName i e
  obtain ⟨plain', -, hname'⟩ := toList_sequenceFileName j e'
  rw [h, hname'] at hname
  have hrest := List.append_cancel_left hname
  -- what is in front of the first underscore is the number
  have hdigits : ∀ (n : Nat) (rest : List Char),
      ((Text.zeroPadded 2 n).toList ++ '_' :: rest).takeWhile (· != '_') =
        (Text.zeroPadded 2 n).toList := by
    intro n rest
    rw [List.takeWhile_append_of_pos]
    · simp
    · intro c hc
      have hne : c ≠ '_' := fun heq => not_mem_zeroPadded (by decide) (heq ▸ hc)
      simpa using hne
  have htake := congrArg (List.takeWhile (· != '_')) hrest
  rw [hdigits, hdigits, String.toList_inj, Text.zeroPadded_inj] at htake
  omega

end Diagram

/-! Names by which a file can be fetched -/

namespace Export

/-- A name that is not refused, and that does not stand for the directory itself. -/
structure Fetchable (name : String) : Prop where
  plain : isPlainName name = true
  notHere : name ≠ "."

theorem Fetchable.proper {name : String} (h : Fetchable name) : File.Path.Proper name := by
  have hplain := h.plain
  simp only [isPlainName, Bool.not_eq_true', Bool.or_eq_false_iff] at hplain
  obtain ⟨⟨⟨⟨hempty, -⟩, hdots⟩, hslash⟩, -⟩ := hplain
  constructor
  · simpa using hempty
  · exact h.notHere
  · rintro rfl
    cases hdots
  · simpa [Text.containsChar] using hslash

/-- A name with one dot and without slashes can be fetched, if something is in front of the dot. -/
theorem fetchable_of_stem {name : String} {stem : List Char} (hname : name.toList = stem ++ ".puml".toList)
    (hne : stem ≠ []) (hstem : ∀ c ∈ stem, c ≠ '.' ∧ c ≠ '/' ∧ c ≠ '\\') : Fetchable name := by
  have hp : 'p' ∈ name.toList := by
    rw [hname]
    exact List.mem_append_right _ (by decide)
  have habsent : ∀ c, c ∉ ".puml".toList → (∀ x ∈ stem, x ≠ c) → c ∉ name.toList := by
    intro c hc hall hmem
    rw [hname] at hmem
    rcases List.mem_append.1 hmem with hmem | hmem
    · exact hall c hmem rfl
    · exact hc hmem
  have hslash : '/' ∉ name.toList := habsent _ (by decide) fun c hc => (hstem c hc).2.1
  have hbackslash : '\\' ∉ name.toList := habsent _ (by decide) fun c hc => (hstem c hc).2.2
  have hempty : name ≠ "" := by
    rintro rfl
    cases hp
  have hhere : name ≠ "." := by
    rintro rfl
    exact absurd hp (by decide)
  have hdots : Text.contains name ".." = false := by
    rw [Bool.eq_false_iff]
    intro hoccurs
    have hcount := (Text.occurs_iff_infix.1 hoccurs).sublist.count_le '.'
    have hzero : stem.count '.' = 0 := List.count_eq_zero.2 fun hc => (hstem _ hc).1 rfl
    rw [hname, List.count_append, hzero] at hcount
    exact absurd hcount (by decide)
  have hrelative : File.Path.isAbsolute name = false := by
    obtain ⟨c, more, rfl⟩ := List.exists_cons_of_ne_nil hne
    have hc := (hstem c List.mem_cons_self).2.1
    simpa [File.Path.isAbsolute, hname] using hc
  refine ⟨?_, hhere⟩
  simp [isPlainName, hempty, hdots, hrelative, Text.containsChar, hslash, hbackslash]

theorem fetchable_sequenceFileName (i : Nat) (e : Graph.Endpoint) :
    Fetchable (Diagram.sequenceFileName (i + 1) e) := by
  obtain ⟨plain, hplain, hname⟩ := Diagram.toList_sequenceFileName i e
  have hsafe : ∀ c : Char, c.isAlphanum = true ∨ c = '_' → c ≠ '.' ∧ c ≠ '/' ∧ c ≠ '\\' := by
    intro c hc
    refine ⟨?_, ?_, ?_⟩ <;> rintro rfl <;> exact absurd hc (by decide)
  have hword : "seq_".toList.all (fun c => c.isAlphanum || c == '_') = true := by decide
  have hstem : ∀ c ∈ "seq_".toList ++ ((Text.zeroPadded 2 (i + 1)).toList ++ '_' :: plain),
      c.isAlphanum = true ∨ c = '_' := by
    intro c hc
    rw [List.mem_append, List.mem_append, List.mem_cons] at hc
    rcases hc with hc | hc | hc | hc
    · simpa using List.all_eq_true.1 hword c hc
    · exact .inl (by simp [Char.isAlphanum, Text.isDigit_of_mem_zeroPadded hc])
    · exact .inr hc
    · exact hplain c hc
  exact fetchable_of_stem (hname.trans (by simp)) (by simp) fun c hc => hsafe c (hstem c hc)

/-! All artifacts -/

/-- The diagrams and tables of a graph, each under its name. -/
def artifacts (g : ClassGraph) (options : Diagram.Options) : List (String × String) :=
  Diagram.files g options ++
    (documentFile, documentText g) :: (tables g).map fun t => (t.file, t.text)

/-- The names that do not depend on the graph. -/
def fixedNames : List String := ["class-diagram.puml", "erd.puml", "erd.mmd"] ++ outputFiles

theorem names_artifacts (g : ClassGraph) (options : Diagram.Options) :
    ∃ endpoints : List Graph.Endpoint, (artifacts g options).map (·.1) =
      ["class-diagram.puml", "erd.puml", "erd.mmd"] ++
        (endpoints.zipIdx.map fun e => Diagram.sequenceFileName (e.2 + 1) e.1) ++ outputFiles := by
  refine ⟨Diagram.sequenceEndpoints g (if options.maxSequences ≤ 0 then Diagram.defaultMaxSequences
    else options.maxSequences), ?_⟩
  simp [artifacts, Diagram.files, Diagram.sequenceDiagrams, tables, outputFiles, entityTable,
    generatorTable, endpointTable, dependencyTable, Function.comp_def]

theorem nodup_sequenceFileNames (endpoints : List Graph.Endpoint) :
    (endpoints.zipIdx.map fun e => Diagram.sequenceFileName (e.2 + 1) e.1).Nodup := by
  have hpositions : (endpoints.zipIdx.map (·.2)).Nodup := by
    rw [List.zipIdx_map_snd]
    exact List.nodup_range'
  rw [List.Nodup, List.pairwise_map] at hpositions ⊢
  exact hpositions.imp fun hne hsame => hne (Diagram.sequenceFileName_inj hsame)

theorem sequenceFileName_not_fixed (i : Nat) (e : Graph.Endpoint) :
    Diagram.sequenceFileName (i + 1) e ∉ fixedNames := by
  intro hmem
  have hfixed : fixedNames.all (fun name => !"seq_".toList.isPrefixOf name.toList) = true := by
    decide +kernel
  obtain ⟨plain, -, hname⟩ := Diagram.toList_sequenceFileName i e
  have hstart := List.all_eq_true.1 hfixed _ hmem
  rw [hname] at hstart
  simp at hstart

/-- No two artifacts have one name. -/
theorem nodup_artifacts (g : ClassGraph) (options : Diagram.Options) :
    ((artifacts g options).map (·.1)).Nodup := by
  obtain ⟨endpoints, hnames⟩ := names_artifacts g options
  have hfixed : fixedNames.Nodup := by decide +kernel
  have hsequences := nodup_sequenceFileNames endpoints
  have hapart : ∀ name ∈ endpoints.zipIdx.map fun e => Diagram.sequenceFileName (e.2 + 1) e.1,
      name ∉ fixedNames := by
    intro name hname
    obtain ⟨e, -, rfl⟩ := List.mem_map.1 hname
    exact sequenceFileName_not_fixed e.2 e.1
  rw [hnames]
  generalize (endpoints.zipIdx.map fun e => Diagram.sequenceFileName (e.2 + 1) e.1) = sequences at *
  have hperm : (["class-diagram.puml", "erd.puml", "erd.mmd"] ++ sequences ++ outputFiles).Perm
      (sequences ++ fixedNames) := by
    rw [fixedNames, ← List.append_assoc]
    exact List.perm_append_comm.append_right _
  exact hperm.nodup_iff.2 (List.nodup_append'.2 ⟨hsequences, hfixed, hapart⟩)

theorem fetchable_artifacts {g : ClassGraph} {options : Diagram.Options} {name : String}
    (h : name ∈ (artifacts g options).map (·.1)) : Fetchable name := by
  obtain ⟨endpoints, hnames⟩ := names_artifacts g options
  rw [hnames, List.mem_append, List.mem_append, or_right_comm, ← List.mem_append,
    ← fixedNames] at h
  rcases h with hfixed | hsequence
  · have hall : fixedNames.all (fun name => isPlainName name && name != ".") = true := by
      decide +kernel
    have hname := List.all_eq_true.1 hall name hfixed
    rw [Bool.and_eq_true, bne_iff_ne] at hname
    exact ⟨hname.1, hname.2⟩
  · obtain ⟨e, -, rfl⟩ := List.mem_map.1 hsequence
    exact fetchable_sequenceFileName e.2 e.1

/-! Writing and fetching -/

variable {σ : Type}

/-- Outputs under new names are all written, and come to what the directory holds. -/
theorem writeOutputs_holds (action : String) {dir : String} {names : List String}
    (files : List (String × String)) {texts : List (String × String)}
    (hfetch : ∀ f ∈ files, Fetchable f.1) (hnew : ((files ++ texts).map (·.1)).Nodup)
    (s : Session σ) (h : s.disk.Holds dir names texts) :
    ∃ d, writeOutputs action dir files s =
        (.ok (files.map fun f => File.Path.join dir f.1), { s with disk := d }) ∧
      d.Holds dir names (files ++ texts) := by
  induction files generalizing s texts with
  | nil => exact ⟨s.disk, rfl, h⟩
  | cons file files ih =>
    obtain ⟨name, text⟩ := file
    obtain ⟨hname, hfiles⟩ := List.forall_mem_cons.1 hfetch
    have hperm : ((name, text) :: files ++ texts).Perm (files ++ (name, text) :: texts) :=
      List.perm_middle.symm
    rw [(hperm.map (·.1)).nodup_iff] at hnew
    have hfree : name ∉ texts.map (·.1) := by
      rw [List.map_append, List.nodup_append'] at hnew
      exact (List.nodup_cons.1 hnew.2.1).1
    obtain ⟨d, hwrite, hd⟩ := h.writeText hname.proper hfree text
    obtain ⟨d', hrest, hd'⟩ := ih hfiles hnew { s with disk := d } hd
    refine ⟨d', ?_, hd'.perm hperm.symm⟩
    rw [writeOutputs, Act.bind_of_ok (writeOutput_run hwrite), Act.bind_of_ok hrest]
    rfl

theorem fileNamed_of_holds {d : File.Disk} {dir : String} {names : List String}
    {texts : List (String × String)} (h : d.Holds dir names texts) {t : String × String}
    (ht : t ∈ texts) (hfetch : Fetchable t.1) : fileNamed d dir t.1 = .ok (File.Path.join dir t.1) := by
  have hwithin := h.isWithin_join hfetch.proper (h.at?_of_mem ht)
  have hstat : d.stat (File.Path.join dir t.1) = .ok (.file (Text.Utf8.encode t.2) false) := by
    rw [File.Disk.stat, h.lookup_join ht hfetch.proper]
    rfl
  simp [fileNamed, hfetch.plain, hwithin, hstat]

/-- The files that a listing shows for some texts. -/
def outputFile (t : String × String) : OutputFile := ⟨t.1, (Text.Utf8.encode t.2).length⟩

theorem listFiles_of_holds {d : File.Disk} {dir : String} {names : List String}
    {texts : List (String × String)} (h : d.Holds dir names texts) :
    ∃ files, listFiles d dir = .ok files ∧ files.Pairwise (·.name < ·.name) ∧
      files.Perm (texts.map outputFile) := by
  obtain ⟨entries, hentries, hsorted, hperm⟩ := h.node
  have hread : d.readDir dir = .ok entries := by
    rw [File.Disk.readDir, File.Disk.lookup_of_place? h.place hentries]
  rw [listFiles, hread]
  refine ⟨_, rfl, ?_, ?_⟩
  · -- a file is shown under the name of its entry
    apply hsorted.filterMap
    rintro ⟨name, node⟩ ⟨name', node'⟩ hlt file hfile file' hfile'
    cases node <;> cases hfile
    cases node' <;> cases hfile'
    exact hlt
  · apply (hperm.filterMap _).trans
    rw [List.filterMap_map]
    exact .of_eq (congrFun List.filterMap_eq_map' texts)

theorem readText_of_holds {d : File.Disk} {dir : String} {names : List String}
    {texts : List (String × String)} (h : d.Holds dir names texts) {t : String × String}
    (ht : t ∈ texts) (hfetch : Fetchable t.1) : d.readText (File.Path.join dir t.1) = .ok t.2 := by
  rw [File.Disk.readText, File.Disk.readFile, h.lookup_join ht hfetch.proper]
  exact congrArg Except.ok (Text.Utf8.decode_encode_self t.2)

/-- Into a directory that holds nothing, first the diagrams and then the tables are written. -/
theorem write_artifacts (g : ClassGraph) (options : Diagram.Options) {dir : String}
    {names : List String} {s : Session σ} {d : File.Disk} (hdir : s.disk.makeDirs dir = .ok d)
    (h : d.Holds dir names []) :
    ∃ diagrams exports d₁ d₂, Diagram.write dir g options s = (.ok diagrams, { s with disk := d₁ }) ∧
      write dir g { s with disk := d₁ } = (.ok exports, { s with disk := d₂ }) ∧
      diagrams ++ exports = (artifacts g options).map (fun a => File.Path.join dir a.1) ∧
      d₂.Holds dir names (artifacts g options) := by
  have hfetch : ∀ a ∈ artifacts g options, Fetchable a.1 :=
    fun a ha => fetchable_artifacts (List.mem_map_of_mem ha)
  obtain ⟨hdiagrams, hexports⟩ := List.forall_mem_append.1 hfetch
  obtain ⟨hdocument, htables⟩ := List.forall_mem_cons.1 hexports
  have hperm : (artifacts g options).Perm ((tables g).map (fun t => (t.file, t.text)) ++
      (documentFile, documentText g) :: (Diagram.files g options ++ [])) := by
    rw [List.append_nil]
    exact List.perm_append_comm.trans List.perm_middle.symm
  have hall := (hperm.map (·.1)).nodup_iff.1 (nodup_artifacts g options)
  have hrest := hall
  rw [List.map_append, List.nodup_append'] at hrest
  obtain ⟨hfree, hfirst⟩ := List.nodup_cons.1 hrest.2.1
  obtain ⟨d₁, hrun₁, hd₁⟩ := writeOutputs_holds "write" (Diagram.files g options) hdiagrams
    hfirst { s with disk := d } h
  obtain ⟨d', hrun', hd'⟩ := hd₁.writeText hdocument.proper hfree (documentText g)
  obtain ⟨d₂, hrun₂, hd₂⟩ := writeOutputs_holds "create"
    ((tables g).map fun t => (t.file, t.text)) htables hall { s with disk := d' } hd'
  have hwrite₁ : Diagram.write dir g options s =
      (.ok ((Diagram.files g options).map fun f => File.Path.join dir f.1), { s with disk := d₁ }) := by
    rw [Diagram.write, Act.bind_of_ok (prepareDir_run hdir)]
    exact hrun₁
  have hprepare : prepareDir "export" dir { s with disk := d₁ } = (.ok (), { s with disk := d₁ }) :=
    prepareDir_run hd₁.makeDirs
  have hdocumentRun : writeOutput "write" dir documentFile (documentText g) { s with disk := d₁ } =
      (.ok (File.Path.join dir documentFile), { s with disk := d' }) := writeOutput_run hrun'
  have hwrite₂ : write dir g { s with disk := d₁ } =
      (.ok (((documentFile, documentText g) :: (tables g).map fun t => (t.file, t.text)).map
        fun f => File.Path.join dir f.1), { s with disk := d₂ }) := by
    unfold write
    rw [Act.bind_of_ok hprepare, Act.bind_of_ok hdocumentRun, Act.bind_of_ok hrun₂]
    rfl
  exact ⟨_, _, d₁, d₂, hwrite₁, hwrite₂, (List.map_append).symm, hd₂.perm hperm.symm⟩

/-- Whatever the graph and the limits are, all diagrams and tables are written into an empty
directory. No two of them have one name; each is fetched by its name and holds its text; and the
directory lists exactly these files, in order of their names. Files are written below the clean form of
the path, so this form has to lead to the directory too; a path that is joined from a place for runs
and a name is its own clean form. -/
theorem artifacts_are_kept_and_fetched (g : ClassGraph) (options : Diagram.Options) {dir : String}
    {s : Session σ} {d : File.Disk} (hdir : s.disk.makeDirs dir = .ok d)
    (hempty : d.readDir dir = .ok []) (halike : d.CleanAlike dir) :
    ((artifacts g options).map (·.1)).Nodup ∧
    ∃ diagrams exports d₁ d₂, Diagram.write dir g options s = (.ok diagrams, { s with disk := d₁ }) ∧
      write dir g { s with disk := d₁ } = (.ok exports, { s with disk := d₂ }) ∧
      diagrams ++ exports = (artifacts g options).map (fun a => File.Path.join dir a.1) ∧
      (∀ a ∈ artifacts g options, fileNamed d₂ dir a.1 = .ok (File.Path.join dir a.1) ∧
        d₂.readText (File.Path.join dir a.1) = .ok a.2) ∧
      ∃ files, listFiles d₂ dir = .ok files ∧ files.Pairwise (·.name < ·.name) ∧
        files.Perm ((artifacts g options).map fun a => ⟨a.1, (Text.Utf8.encode a.2).length⟩) := by
  have hnodup := nodup_artifacts g options
  obtain ⟨names, hholds⟩ := File.Disk.holds_of_readDir halike hempty
  obtain ⟨diagrams, exports, d₁, d₂, hwrite, hwrite', hpaths, hd₂⟩ :=
    write_artifacts g options hdir hholds
  refine ⟨hnodup, diagrams, exports, d₁, d₂, hwrite, hwrite', hpaths, ?_, listFiles_of_holds hd₂⟩
  intro a ha
  have hname := fetchable_artifacts (List.mem_map_of_mem ha)
  exact ⟨fileNamed_of_holds hd₂ ha hname, readText_of_holds hd₂ ha hname⟩

/-- A graph with an endpoint whose names would lead out of a directory. -/
def oddEndpoint : ClassGraph :=
  ClassGraph.empty.addEndpoint ⟨.http, "GET", "/x", "../a b", "..", "", "", ""⟩

/-- A disk where the directory of the runs is reached through a link. -/
def linkedRuns : Session Unit :=
  .onDisk (.dir [("real", .dir []), ("runs", .link "real")])

/-- A way to a directory of the runs that is not a clean path. -/
def roundabout : String := "/real/../runs//one/"

theorem artifacts_are_kept_and_fetched_oddEndpoint :
    ∃ diagrams exports d₁ d₂,
      Diagram.write roundabout oddEndpoint ⟨0, 0⟩ linkedRuns =
        (.ok diagrams, { linkedRuns with disk := d₁ }) ∧
      write roundabout oddEndpoint { linkedRuns with disk := d₁ } =
        (.ok exports, { linkedRuns with disk := d₂ }) ∧
      fileNamed d₂ roundabout "seq_01____a_b___.puml" =
        .ok "/runs/one/seq_01____a_b___.puml" := by
  have hdir : (linkedRuns.disk.makeDirs roundabout).toOption.any (fun d =>
      (d.readDir roundabout).toOption.any (·.isEmpty) &&
        (d.place? roundabout == some ["real", "one"] &&
          d.place? (File.Path.clean roundabout) == some ["real", "one"])) = true := by
    decide +kernel
  obtain ⟨d, hd, hmade⟩ := exists_eq_ok_of_any hdir
  rw [Bool.and_eq_true, Bool.and_eq_true, beq_iff_eq, beq_iff_eq] at hmade
  obtain ⟨hread, hplace, hclean⟩ := hmade
  obtain ⟨entries, hentries, hnone⟩ := exists_eq_ok_of_any hread
  obtain rfl := List.isEmpty_iff.1 hnone
  have hends : d.root.at? ["real", "one"] ≠ none := by
    obtain ⟨names, hfound, hnode⟩ :=
      File.Disk.place?_of_lookup (File.Disk.readDir_eq_ok.1 hentries)
    obtain rfl := Option.some.inj (hplace.symm.trans hfound)
    simp [hnode]
  have halike := File.Disk.cleanAlike_of_absolute (by decide) hplace hends hclean
  obtain ⟨-, diagrams, exports, d₁, d₂, hwrite, hwrite', -, hfetch, -⟩ :=
    artifacts_are_kept_and_fetched oddEndpoint ⟨0, 0⟩ hd hentries halike
  have hone : oddEndpoint.sortedEndpoints = oddEndpoint.endpoints.items :=
    List.mergeSort_singleton _
  have hsequence : (Diagram.sequenceEndpoints oddEndpoint 25).zipIdx.map
      (fun e => Diagram.sequenceFileName (e.2 + 1) e.1) = ["seq_01____a_b___.puml"] := by
    rw [Diagram.sequenceEndpoints, ClassGraph.httpEndpoints, hone]
    decide +kernel
  obtain ⟨e, he, hname⟩ := List.mem_map.1 (hsequence ▸ List.mem_cons_self)
  have hfile := (hfetch
    (_, Diagram.sequenceDiagram e.1 oddEndpoint.callAdjacency oddEndpoint 0)
    (List.mem_append_left _ (List.mem_append_right _ (List.mem_map.2 ⟨e, he, rfl⟩)))).1
  have hpath : File.Path.join roundabout "seq_01____a_b___.puml" =
      "/runs/one/seq_01____a_b___.puml" := by decide +kernel
  rw [hname, hpath] at hfile
  exact ⟨diagrams, exports, d₁, d₂, hwrite, hwrite', hfile⟩

end Export
end ClassAtlas
