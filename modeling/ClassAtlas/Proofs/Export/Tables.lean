import ClassAtlas.Export.Files
import ClassAtlas.Proofs.Export.Csv
import ClassAtlas.Proofs.File.Write
import ClassAtlas.Proofs.Session

/-!
The tables of a graph, written into a directory and read back from it. Where each output finds a
place of its own, all of them are written, and each table is read back as its columns and rows
whatever stands in the fields.
-/
namespace ClassAtlas.Export

variable {σ : Type}

theorem prepareDir_run {what dir : String} {s : Session σ} {d : File.Disk}
    (h : s.disk.makeDirs dir = .ok d) : prepareDir what dir s = (.ok (), { s with disk := d }) := by
  rw [prepareDir, Act.bind_of_ok (Act.disk_run s), h]
  rfl

theorem writeOutput_run {action dir name text : String} {s : Session σ} {d : File.Disk}
    (h : s.disk.writeText (File.Path.join dir name) text = .ok d) :
    writeOutput action dir name text s = (.ok (File.Path.join dir name), { s with disk := d }) := by
  rw [writeOutput, Act.bind_of_ok (Act.disk_run s), h]
  rfl

/-- Outputs that have places of their own are all written. -/
theorem writeOutputs_run (action dir : String) (files : List (String × String)) (s : Session σ)
    (h : s.disk.Receives (files.map fun f => File.Path.join dir f.1)) :
    ∃ d, writeOutputs action dir files s =
        (.ok (files.map fun f => File.Path.join dir f.1), { s with disk := d }) ∧
      s.disk.Wrote d (files.map fun f => (File.Path.join dir f.1, f.2)) := by
  induction files generalizing s with
  | nil => exact ⟨s.disk, rfl, .nil s.disk⟩
  | cons file files ih =>
    obtain ⟨name, text⟩ := file
    have hapart := (List.nodup_cons.1 h.apart).1
    obtain ⟨d, hwrite, hwrote, hmore⟩ := h.writeText text
    obtain ⟨d', hrest, hwrote'⟩ := ih { s with disk := d } hmore
    refine ⟨d', ?_, hwrote.cons hwrote' (by simpa using hapart)⟩
    rw [writeOutputs, Act.bind_of_ok (writeOutput_run hwrite), Act.bind_of_ok hrest]
    rfl

/-- The names of the outputs, the same for every graph. -/
def outputFiles : List String :=
  [documentFile, "entities.csv", "sequences.csv", "endpoints.csv", "dependencies.csv"]

/-- All rows of a table have a field for each of its columns. -/
theorem length_of_mem_rows {g : ClassGraph} {t : Table} (h : t ∈ tables g) :
    ∀ row ∈ t.rows, row.length = t.columns.length := by
  simp only [tables, List.mem_cons, List.not_mem_nil, or_false] at h
  intro row hrow
  rcases h with rfl | rfl | rfl | rfl <;>
    · obtain ⟨_, -, rfl⟩ := List.mem_map.1 hrow
      rfl

theorem read?_text {g : ClassGraph} {t : Table} (h : t ∈ tables g) :
    Csv.read? t.text = some (t.columns :: t.rows) := by
  have hcolumns : 0 < t.columns.length := by
    simp only [tables, List.mem_cons, List.not_mem_nil, or_false] at h
    rcases h with rfl | rfl | rfl | rfl <;> exact Nat.succ_pos _
  refine Csv.read?_write (List.forall_mem_cons.2 ⟨List.ne_nil_of_length_pos hcolumns, ?_⟩)
  intro row hrow
  exact List.ne_nil_of_length_pos (length_of_mem_rows h row hrow ▸ hcolumns)

/-- Every table of a graph is read back from its text as its columns and rows. Into a directory that
can be made, and where each output has a place of its own, every graph can be written, and every
table is then read back from its file. -/
theorem tables_read_back (g : ClassGraph) :
    (∀ t ∈ tables g, Csv.read? t.text = some (t.columns :: t.rows)) ∧
    ∀ {σ : Type} (dir : String) (s : Session σ) (d : File.Disk), s.disk.makeDirs dir = .ok d →
      d.Receives (outputFiles.map (File.Path.join dir)) →
      ∃ d', write dir g s = (.ok (outputFiles.map (File.Path.join dir)), { s with disk := d' }) ∧
        ∀ t ∈ tables g, ∃ text, d'.readText (File.Path.join dir t.file) = .ok text ∧
          Csv.read? text = some (t.columns :: t.rows) := by
  refine ⟨fun t ht => read?_text ht, ?_⟩
  intro σ dir s d hdir hreceives
  obtain ⟨d₁, hdocument, -, htables⟩ := hreceives.writeText (documentText g)
  obtain ⟨d', hrest, hwrote'⟩ := writeOutputs_run "create" dir
    ((tables g).map fun t : Table => (t.file, t.text)) { s with disk := d₁ } htables
  refine ⟨d', ?_, ?_⟩
  · rw [write, Act.bind_of_ok (prepareDir_run hdir), Act.bind_of_ok (writeOutput_run hdocument),
      Act.bind_of_ok hrest]
    rfl
  · intro t ht
    refine ⟨t.text, hwrote'.readText ?_, read?_text ht⟩
    exact List.mem_map.2 ⟨(t.file, t.text), List.mem_map_of_mem ht, rfl⟩

/-- A graph whose one dependency has all that means something in a table: a blank in front, a comma,
nothing, the end mark, quotes and both characters of a line break. -/
def oddFields : ClassGraph :=
  ClassGraph.empty.addDependency ⟨" a,b", "", ⟨"\\."⟩, "say \"no\"\r\n"⟩

theorem tables_read_back_oddFields : ∃ d,
    write "/out/report" oddFields (.onDisk (.dir [("out", .dir [])])) =
      (.ok (outputFiles.map (File.Path.join "/out/report")),
        { Session.onDisk (.dir [("out", .dir [])]) with disk := d }) ∧
    ∃ text, d.readText "/out/report/dependencies.csv" = .ok text ∧
      Csv.read? text = some [["fromClass", "toClass", "kind", "label"],
        [" a,b", "", "\\.", "say \"no\"\r\n"]] := by
  have hdir : ((Session.onDisk (.dir [("out", .dir [])])).disk.makeDirs "/out/report").toOption.any
      (fun d => decide (d.Receives (outputFiles.map (File.Path.join "/out/report")))) = true := by
    decide +kernel
  obtain ⟨d, hd, hreceives⟩ := exists_eq_ok_of_any hdir
  obtain ⟨d', hwrite, hread⟩ := (tables_read_back oddFields).2 "/out/report" _ d hd
    (of_decide_eq_true hreceives)
  obtain ⟨text, htext, hrows⟩ := hread (dependencyTable oddFields) (by simp [tables])
  have hpath : File.Path.join "/out/report" "dependencies.csv" = "/out/report/dependencies.csv" := by
    decide +kernel
  have hone : oddFields.sortedDependencies = oddFields.dependencies.items := List.mergeSort_singleton _
  refine ⟨d', hwrite, text, hpath ▸ htext, ?_⟩
  rw [hrows, dependencyTable, hone]
  rfl

end ClassAtlas.Export
