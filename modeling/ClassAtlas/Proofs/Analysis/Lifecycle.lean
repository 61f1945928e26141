import ClassAtlas.Analysis.Run
import ClassAtlas.ClassFile.Encode
import ClassAtlas.Proofs.Analysis.Stages
import ClassAtlas.Proofs.Store.Runs

/-!
The record of a run. A run is entered as running, and whatever happens between its start and its end
it is left as succeeded, with its graph, or as failed, with the text of the failure and no graph.
Nothing else in the registry changes.
-/
namespace ClassAtlas

open Store

/-! Failures that name their run -/

theorem Failure.details?_withDetails? (details : Json) {f : Failure} {code : Code}
    (h : f.code? = some code) :
    ∃ f', f.withDetails? details = some f' ∧ f'.details? = some details := by
  fun_induction Failure.code? f with
  | case1 code message cause old => exact ⟨_, rfl, rfl⟩
  | case2 note cause ih =>
    obtain ⟨f', hf', hdetails⟩ := ih h
    exact ⟨.wrapped note f', by simp [withDetails?, hf'], hdetails⟩
  | case3 => cases h

theorem Analysis.details?_withRunId (runId : String) {f : Failure} (h : f.details? = none) :
    (withRunId runId f).details? = some (.object [("runId", .text runId)]) := by
  unfold withRunId
  cases hcode : f.code? with
  | none => rfl
  | some code =>
    obtain ⟨f', hf', hdetails⟩ :=
      Failure.details?_withDetails? (.object [("runId", .text runId)]) hcode
    simp only [h, hf', Option.getD_some, hdetails]

namespace Analysis

/-! A registry as a part of what is outside -/

variable {σ : Type} {get : σ → Connection} {put : Connection → σ → σ}

/-- The user does not want to stop, and the registry is open with a database. -/
structure Ready (get : σ → Connection) (path : String) (db : Database) (s : Session σ) : Prop where
  patience : s.patience = .endless
  outside : get s.outside = ⟨path, some db⟩

namespace Ready

variable {path : String} {db : Database} {s : Session σ}

theorem isOpen (h : Ready get path db s) :
    (s.withOutside (get s.outside)).outside.database = some db :=
  congrArg Connection.database h.outside

theorem isLive (h : Ready get path db s) :
    (s.withOutside (get s.outside)).patience.isExhausted = false :=
  congrArg Patience.isExhausted h.patience

/-- After an operation of the registry that went as told. -/
theorem of_focus (hput : ∀ c x, get (put c x) = c) (h : Ready get path db s)
    {act : Act Connection α} {outcome : Except Failure α} {db' : Database} {t : Session Connection}
    (hrun : act (s.withOutside (get s.outside)) = (outcome, t))
    (hpatience : t.patience = s.patience.ask)
    (houtside : t.outside = ⟨(get s.outside).path, some db'⟩) :
    ∃ t', Act.focus get put act s = (outcome, t') ∧ Ready get path db' t' := by
  refine ⟨_, Act.focus_of_run hrun, ?_, ?_⟩
  · exact hpatience.trans (by rw [h.patience]; rfl)
  · exact (hput _ _).trans (by rw [houtside, h.outside])

theorem create (hput : ∀ c x, get (put c x) = c) (h : Ready get path db s) {r : Run}
    (hr : db.hasRun r.id = false) :
    ∃ r' t, (Registry.ofConnection get put).create r s = (.ok (), t) ∧ r'.id = r.id ∧
      Ready get path { db with runs := db.runs ++ [.ofRun r'] } t := by
  obtain ⟨r', t, hrun, hid, hpatience, houtside, -⟩ :=
    Connection.create_of_unused h.isOpen h.isLive hr
  obtain ⟨t', hrun', ht'⟩ := h.of_focus hput hrun hpatience houtside
  exact ⟨r', t', hrun', hid, ht'⟩

theorem finish (hput : ∀ c x, get (put c x) = c) (h : Ready get path db s) {id : String}
    (hid : db.hasRun id = true) (summary : Summary) :
    ∃ t, (Registry.ofConnection get put).finish id summary s = (.ok (), t) ∧
      Ready get path (db.changed id (·.finished s.clock summary)) t := by
  obtain ⟨t, hrun, hpatience, houtside⟩ := Connection.updating_of_hasRun h.isOpen h.isLive hid
    fun at_ row => row.finished at_ summary
  exact h.of_focus hput hrun hpatience houtside

theorem fail (hput : ∀ c x, get (put c x) = c) (h : Ready get path db s) {id : String}
    (hid : db.hasRun id = true) (message : String) :
    ∃ t, (Registry.ofConnection get put).fail id message s = (.ok (), t) ∧
      Ready get path (db.changed id (·.failedWith s.clock message)) t := by
  obtain ⟨t, hrun, hpatience, houtside⟩ := Connection.updating_of_hasRun h.isOpen h.isLive hid
    fun at_ row => row.failedWith at_ message
  exact h.of_focus hput hrun hpatience houtside

/-- A graph is saved for a run that is there, or nothing changes. -/
theorem save (hput : ∀ c x, get (put c x) = c) (h : Ready get path db s) (id : String)
    (g : ClassGraph) :
    (∃ t, (Registry.ofConnection get put).save id g s = (.ok (), t) ∧
      Ready get path (db.saved id g) t) ∨
    ∃ f t, (Registry.ofConnection get put).save id g s = (.error f, t) ∧ Ready get path db t ∧
      f.details? = none := by
  cases hsave : (Database.saveStatements id g).foldlM Database.execute db with
  | ok db' =>
    obtain ⟨-, rfl⟩ := Database.foldlM_saveStatements_eq_ok.1 hsave
    obtain ⟨t, hrun, hpatience, houtside⟩ := Connection.save_of_ok h.isOpen h.isLive hsave
    exact .inl (h.of_focus hput hrun hpatience houtside)
  | error c =>
    obtain ⟨f, t, hrun, hpatience, houtside, hdetails⟩ :=
      Connection.save_of_error h.isOpen h.isLive hsave
    have hkept : t.outside = ⟨(get s.outside).path, some db⟩ := by
      rw [houtside, h.outside]
      rfl
    obtain ⟨t', hrun', ht'⟩ := h.of_focus hput hrun hpatience hkept
    exact .inr ⟨f, t', hrun', ht', hdetails⟩

/-- A report changes nothing that matters here. -/
theorem bind_log (h : Ready get path db s) {record : Log.Record} {rest : Unit → Act σ α}
    {P : Except Failure α × Session σ → Prop} (hrest : ∀ u, Ready get path db u → P (rest () u)) :
    P ((Act.log record >>= rest) s) := by
  rw [Act.bind_of_ok (Act.log_run record s)]
  exact hrest _ ⟨h.patience, h.outside⟩

end Ready

/-! Between the two records of a run -/

/-- How the work of a run ends: with a result whose graph is saved, or with a failure and nothing
saved. -/
structure Settled (get : σ → Connection) (path : String) (db : Database) (id : String)
    (ended : Except Failure Result × Session σ) : Prop where
  saved : ∀ r, ended.1 = .ok r → Ready get path (db.saved id r.graph) ended.2 ∧ r.runId = id ∧
    r.summary.counts = countsOf r.graph
  failed : ∀ f, ended.1 = .error f → Ready get path db ended.2 ∧ f.details? = none

variable {path : String} {db : Database} {id : String}

theorem Settled.of_error {t : Session σ} {f : Failure} (ht : Ready get path db t)
    (hf : f.details? = none) : Settled get path db id (.error f, t) where
  saved _ h := nomatch h
  failed _ h := by
    cases h
    exact ⟨ht, hf⟩

/-- A stage that keeps aside comes first. -/
theorem Settled.bind {act : Act σ α} {rest : α → Act σ Result} {s : Session σ}
    (hact : Act.Made (fun _ => Act.Aside get) act) (hs : Ready get path db s)
    (hrest : ∀ a t, Ready get path db t → Settled get path db id (rest a t)) :
    Settled get path db id ((act >>= rest) s) := by
  have hkept := hact.aside s hs.patience
  have hready : Ready get path db (act s).2 := ⟨hkept.patience, hkept.outside.trans hs.outside⟩
  cases hrun : act s with
  | mk outcome t =>
    rw [hrun] at hready hkept
    cases outcome with
    | ok a =>
      rw [Act.bind_of_ok hrun]
      exact hrest a t hready
    | error f =>
      rw [Act.bind_of_error hrun]
      exact .of_error hready (hkept.details f rfl)

variable {equipment : Equipment σ}

theorem pipeline_settled (hput : ∀ c x, get (put c x) = c)
    (hregistry : equipment.registry = some (.ofConnection get put))
    (haside : equipment.Aside get) (repoRoot outputDir : String) (request : Request)
    {s : Session σ} (hs : Ready get path db s) :
    Settled get path db id (pipeline equipment id repoRoot outputDir request s) := by
  have hfind : ∀ registry ∈ equipment.registry, ∀ fingerprint,
      Act.Made (fun _ => Act.Aside get) (registry.find? fingerprint) := by
    intro registry hmem fingerprint
    rw [hregistry] at hmem
    cases hmem
    exact .given (.focus hput (Connection.aside_find? fingerprint))
  have hbuild : ∀ run ∈ equipment.build, ∀ dir args,
      Act.Made (fun _ => Act.Aside get) (run dir args) :=
    fun run hrun dir args => .given (haside.build run hrun dir args)
  have hsources : ∀ read ∈ equipment.sources, ∀ root packages,
      Act.Made (fun _ => Act.Aside get) (read root packages) :=
    fun read hread root packages => .given (haside.sources read hread root packages)
  unfold pipeline
  refine .bind (Classpath.made_resolve hbuild _ _) hs fun desc s hs => ?_
  refine .bind (made_fingerprintOf _ _) hs fun fingerprint s hs => ?_
  refine .bind (made_previousRun hfind _ _) hs fun previous s hs => ?_
  refine .bind (made_sourceGraph hsources _ _) hs fun source s hs => ?_
  refine .bind (Scan.made_scanStructure _ _) hs fun compiled s hs => ?_
  refine .bind (Scan.made_scanCalls _ _) hs fun calls s hs => ?_
  refine .bind (.log _) hs fun _ s hs => ?_
  refine .bind .checkpoint hs fun _ s hs => ?_
  refine .bind (Diagram.made_write _ _ _) hs fun diagrams s hs => ?_
  refine .bind (Export.made_write _ _) hs fun exports s hs => ?_
  simp only [hregistry]
  obtain ⟨t, hsave, ht⟩ | ⟨f, t, hsave, ht, hdetails⟩ :=
    hs.save hput id (assemble source compiled calls)
  · rw [Act.bind_of_ok hsave]
    exact ⟨fun _ hr => by cases hr; exact ⟨ht, rfl, rfl⟩, fun _ hf => nomatch hf⟩
  · rw [Act.bind_of_error hsave]
    exact .of_error ht hdetails

/-! The whole of a run -/

theorem fault?_isSome (request : Request) : request.fault?.isSome = true ↔
    Text.isBlank request.repoRoot = true ∨ Text.isBlank request.outputRoot = true := by
  unfold Request.fault?
  split
  · simp_all
  · split <;> simp_all

theorem recordStart_run (hput : ∀ c x, get (put c x) = c)
    (hregistry : equipment.registry = some (.ofConnection get put)) {s : Session σ}
    (hs : Ready get path db s) (hid : db.hasRun id = false) (repoRoot outputDir : String)
    (start : Time.Moment) (request : Request) :
    ∃ r db' t, recordStart equipment id repoRoot outputDir start request s = (.ok (), t) ∧
      r.id = id ∧ Ready get path db' t ∧ Database.Entered db r db' ∧ db'.stored = db.stored := by
  obtain ⟨r, hr, hstart⟩ : ∃ r : Run, r.id = id ∧ recordStart equipment id repoRoot outputDir
      start request = (Registry.ofConnection get put).create r := by
    unfold recordStart
    simp only [hregistry]
    refine ⟨_, ?_, rfl⟩
    rfl
  subst hr
  obtain ⟨r', t, hcreate, hr', ht⟩ := hs.create hput hid
  exact ⟨.ofRun r', _, t, by rw [hstart, hcreate], hr', ht,
    Database.entered_create (hr' ▸ hid), rfl⟩

/-- A run is entered under its new name, and nothing is saved for it yet. -/
theorem openRun_run (hput : ∀ c x, get (put c x) = c)
    (hregistry : equipment.registry = some (.ofConnection get put)) {s : Session σ}
    (hs : Ready get path db s) (hunused : db.Unused (s.identifiers s.issued)) (request : Request) :
    ∃ opening r db' u, openRun equipment request s = (.ok opening, u) ∧
      opening.runId = s.identifiers s.issued ∧ r.id = opening.runId ∧ Ready get path db' u ∧
      Database.Entered db r db' ∧ db'.snapshot? r.id = none := by
  have hticked : Ready get path db { s with issued := s.issued + 1, clock := s.clock.tick } :=
    ⟨hs.patience, hs.outside⟩
  obtain ⟨r, db', t, hstart, hid, ht, hentered, hstored⟩ := recordStart_run hput hregistry hticked
    hunused.1 (s.disk.absolute request.repoRoot)
    (File.Path.join request.outputRoot (s.identifiers s.issued)) s.clock request
  have hnone : db'.snapshot? r.id = none := by
    rw [Database.snapshot?, Database.entriesOf, hstored, hid]
    exact congrArg (List.findSome? Entry.snapshot?) hunused.2
  unfold openRun
  rw [Act.bind_of_ok (Act.disk_run s), Act.bind_of_ok (Act.freshIdentifier_run s),
    Act.bind_of_ok (Act.now_run _), Act.bind_of_ok hstart, Act.bind_of_ok (Act.log_run _ t)]
  exact ⟨_, r, db', _, rfl, rfl, hid, ⟨ht.patience, ht.outside⟩, hentered, hnone⟩

theorem recordSuccess_run (hput : ∀ c x, get (put c x) = c)
    (hregistry : equipment.registry = some (.ofConnection get put)) {s : Session σ}
    (hs : Ready get path db s) {r : Result} (hr : db.hasRun r.runId = true) (start : Time.Moment) :
    ∃ duration t, recordSuccess equipment start r s = (.ok { r with duration }, t) ∧
      Ready get path (db.changed r.runId (·.finished s.clock r.summary)) t := by
  obtain ⟨t, hfinish, ht⟩ := hs.finish hput hr r.summary
  have hattempt : Act.attempt ((Registry.ofConnection get put).finish r.runId r.summary) s =
      (.ok (.ok ()), t) := by
    rw [Act.attempt_run, hfinish]
  unfold recordSuccess
  simp only [hregistry]
  rw [Act.bind_of_ok hattempt]
  exact ⟨_, _, rfl, ht.patience, ht.outside⟩

theorem recordFailure_run (hput : ∀ c x, get (put c x) = c)
    (hregistry : equipment.registry = some (.ofConnection get put)) {s : Session σ}
    (hs : Ready get path db s) (hid : db.hasRun id = true) (f : Failure) :
    ∃ at_ t, recordFailure equipment id f s = (.ok (), t) ∧
      Ready get path (db.changed id (·.failedWith at_ f.text)) t := by
  unfold recordFailure
  simp only [hregistry]
  refine hs.bind_log (P := fun p => ∃ at_ t, p = (.ok (), t) ∧
    Ready get path (db.changed id (·.failedWith at_ f.text)) t) fun u hu => ?_
  obtain ⟨t, hfail, ht⟩ := hu.fail hput hid f.text
  have hattempt : Act.attempt (Act.patiently
      ((Registry.ofConnection get put).fail id f.text)) u =
        (.ok (.ok ()), { t with patience := .endless }) := by
    rw [Act.attempt_run, Act.patiently_run _ hu.patience, hfail]
  rw [Act.bind_of_ok hattempt]
  exact ⟨_, _, rfl, rfl, ht.outside⟩

/-- What the record of a run says once the run has ended, given how its work and the analysis came
out: there is one run more, it is no longer running, it has succeeded with the graph of the work or
failed without one and for the reason of the work, and all other runs are as before. -/
structure Recorded (db : Database) (id : String) (work outcome : Except Failure Result) (r : RunRow)
    (db' : Database) : Prop where
  own : db'.runs.filter (·.id == id) = [r]
  ended : r.status ≠ .running
  succeeded : r.status = .succeeded ↔ ∃ result, outcome = .ok result
  failed : r.status = .failed ↔ ∃ f, outcome = .error f
  result : ∀ result, outcome = .ok result → result.runId = id ∧
    (∃ made, work = .ok made ∧ result = { made with duration := result.duration }) ∧
    r.counts = ⟨result.graph.classMap.size, result.graph.endpoints.items.length,
      result.graph.dependencies.items.length, result.graph.cyclicCount⟩ ∧
    db'.load id = .ok result.graph
  failure : ∀ f, outcome = .error f → db'.snapshot? id = none ∧
    f.details? = some (.object [("runId", .text id)]) ∧
    ∃ cause, work = .error cause ∧ f = withRunId id cause ∧ r.run.error = cause.text
  otherRuns : db'.runs.filter (·.id != id) = db.runs.filter (·.id != id)
  otherRows : db'.stored.filter (·.run != id) = db.stored.filter (·.run != id)

theorem recorded_of_ok {db db' : Database} {r : RunRow} {result : Result} {at_ : Time.Moment}
    {duration : Time.Duration} (h : Database.Entered db r db') (hid : result.runId = r.id)
    (hcounts : result.summary.counts = countsOf result.graph) :
    Recorded db r.id (.ok result) (.ok { result with duration }) (r.finished at_ result.summary)
      ((db'.saved r.id result.graph).changed r.id (·.finished at_ result.summary)) := by
  have hend := (h.saved result.graph).changed (·.finished at_ result.summary) fun _ => rfl
  exact {
    own := hend.own
    ended := (by decide : Status.succeeded ≠ .running)
    succeeded := iff_of_true rfl ⟨_, rfl⟩
    failed := iff_of_false (by decide : Status.succeeded ≠ .failed) (by simp)
    result := by
      rintro _ ⟨⟩
      exact ⟨hid, ⟨result, rfl, rfl⟩, hcounts, db'.load_saved r.id result.graph⟩
    failure := by
      rintro _ ⟨⟩
    otherRuns := hend.runs
    otherRows := hend.stored }

theorem recorded_of_error {db db' : Database} {r : RunRow} {f : Failure} {at_ : Time.Moment}
    (h : Database.Entered db r db') (hnone : db'.snapshot? r.id = none) (hf : f.details? = none) :
    Recorded db r.id (.error f) (.error (withRunId r.id f)) (r.failedWith at_ f.text)
      (db'.changed r.id (·.failedWith at_ f.text)) := by
  have hend := h.changed (·.failedWith at_ f.text) fun _ => rfl
  exact {
    own := hend.own
    ended := (by decide : Status.failed ≠ .running)
    succeeded := iff_of_false (by decide : Status.failed ≠ .succeeded) (by simp)
    failed := iff_of_true rfl ⟨_, rfl⟩
    result := by
      rintro _ ⟨⟩
    failure := by
      rintro _ ⟨⟩
      exact ⟨hnone, details?_withRunId r.id hf, f, rfl, rfl, getD_nullable f.text⟩
    otherRuns := hend.runs
    otherRows := hend.stored }

/-- A run is recorded, whatever becomes of it. If the root of the repository or of the output is
blank, nothing is. Otherwise the run is entered and does its work, and there is exactly one run with
the new name afterwards, which has succeeded or failed as the work has; nothing else in the registry
has changed. -/
theorem analyze_recorded (hput : ∀ c x, get (put c x) = c)
    (hregistry : equipment.registry = some (.ofConnection get put))
    (haside : equipment.Aside get) (request : Request) {s : Session σ}
    (hlive : s.patience = .endless) (hopen : (get s.outside).database = some db)
    (hunused : db.Unused (s.identifiers s.issued)) :
    ((Text.isBlank request.repoRoot = true ∨ Text.isBlank request.outputRoot = true) →
      (analyze equipment request s).2.outside = s.outside) ∧
    (¬ (Text.isBlank request.repoRoot = true ∨ Text.isBlank request.outputRoot = true) →
      ∃ opening u r db', openRun equipment request s = (.ok opening, u) ∧
        get (analyze equipment request s).2.outside = ⟨(get s.outside).path, some db'⟩ ∧
        Recorded db (s.identifiers s.issued) (opening.work equipment request u).1
          (analyze equipment request s).1 r db') := by
  rw [← fault?_isSome]
  constructor
  · intro hblank
    obtain ⟨f, hf⟩ := Option.isSome_iff_exists.1 hblank
    simp only [analyze, hf]
    rfl
  · intro hgiven
    have hfault : request.fault? = none := by simpa using hgiven
    have hs : Ready get (get s.outside).path db s := ⟨hlive, by rw [← hopen]⟩
    obtain ⟨opening, r, db', u, hopened, hname, hid, hu, hentered, hnone⟩ :=
      openRun_run hput hregistry hs hunused request
    have hsettled : Settled get (get s.outside).path db' r.id (opening.work equipment request u) := by
      rw [Opening.work, ← hid]
      exact pipeline_settled hput hregistry haside opening.repoRoot opening.outputDir request hu
    refine ⟨opening, u, ?_⟩
    unfold analyze
    simp only [hfault]
    rw [Act.bind_of_ok hopened, Act.bind_of_ok (Act.attempt_run _ u), ← hname, ← hid]
    cases hrun : opening.work equipment request u with
    | mk outcome v =>
      rw [hrun] at hsettled
      cases outcome with
      | ok result =>
        obtain ⟨hv, hrunId, hcounts⟩ := hsettled.saved result rfl
        have hknown : (db'.saved r.id result.graph).hasRun result.runId = true := by
          rw [hrunId]
          exact (hentered.saved result.graph).hasRun
        obtain ⟨duration, w, hsuccess, hw⟩ := recordSuccess_run hput hregistry hv hknown opening.start
        rw [hrunId] at hw
        simp only [hsuccess]
        exact ⟨_, _, hopened, hw.outside, recorded_of_ok hentered hrunId hcounts⟩
      | error f =>
        obtain ⟨hv, hdetails⟩ := hsettled.failed f rfl
        obtain ⟨at_, w, hfailure, hw⟩ := recordFailure_run hput hregistry hv hentered.hasRun f
        simp only [Act.bind_of_ok hfailure]
        exact ⟨_, _, hopened, hw.outside, recorded_of_error hentered hnone hdetails⟩

/-- A build tool, a reader of sources, and a registry that is all there is outside. -/
def fullEquipment : Equipment Connection :=
  ⟨some ((Classpath.BuildTool.make "" 0 0).run Outside.shellOnly), some Source.build,
    some (.ofConnection (fun c => c) fun c _ => c)⟩

theorem aside_fullEquipment : fullEquipment.Aside fun c => c where
  build run hrun dir args := by
    cases hrun
    exact (Classpath.BuildTool.made_run _ _ dir args).aside
  sources read hread root packages := by
    cases hread
    exact (Source.made_build root packages).aside

/-- A repository with some compiled classes, and a registry with an earlier run. -/
def repository (classes : List (String × File.Node)) : Session Connection where
  disk := ⟨.dir [("repo", .dir [("target", .dir classes)])], []⟩
  environment := []
  patience := .endless
  journal := []
  clock := default
  identifiers := fun _ => "new"
  issued := 0
  outside := ⟨"runs.db", some ⟨[{ (default : RunRow) with id := "old" }], []⟩⟩

def compiledRepository : Session Connection :=
  repository [("classes", .dir [("A.class", .file (ClassFile.encode (.ofName "app.A")) false)])]

def plainRequest : Request := { (default : Request) with repoRoot := "/repo", outputRoot := "/out" }

theorem analyze_recorded_repositories :
    (∃ r db', (analyze fullEquipment plainRequest compiledRepository).2.outside =
        ⟨"runs.db", some db'⟩ ∧
      db'.runs.filter (·.id == "new") = [r] ∧ r.status = .succeeded) ∧
    ∃ opening u cause r db', openRun fullEquipment plainRequest (repository []) = (.ok opening, u) ∧
      (opening.work fullEquipment plainRequest u).1 = .error cause ∧
      (analyze fullEquipment plainRequest (repository [])).2.outside = ⟨"runs.db", some db'⟩ ∧
      db'.runs.filter (·.id == "new") = [r] ∧ r.status = .failed ∧ r.run.error = cause.text := by
  have hgiven : ¬ (Text.isBlank plainRequest.repoRoot = true ∨
      Text.isBlank plainRequest.outputRoot = true) := by decide
  obtain ⟨_, _, r, db', -, houtside, hrecorded⟩ := (analyze_recorded (fun _ _ => rfl) rfl
    aside_fullEquipment plainRequest (s := compiledRepository) rfl rfl ⟨rfl, rfl⟩).2 hgiven
  obtain ⟨opening, u, r', db'', hopened, houtside', hrecorded'⟩ := (analyze_recorded
    (fun _ _ => rfl) rfl aside_fullEquipment plainRequest (s := repository []) rfl rfl
    ⟨rfl, rfl⟩).2 hgiven
  refine ⟨⟨r, db', houtside, hrecorded.own, hrecorded.succeeded.2 ?_⟩, ?_⟩
  · obtain ⟨result, _, hrun⟩ := Act.exists_of_isOk (analyze fullEquipment plainRequest)
      compiledRepository (by decide +kernel)
    exact ⟨result, by rw [hrun]⟩
  · cases hrun : (analyze fullEquipment plainRequest (repository [])).1 with
    | error f =>
      obtain ⟨-, -, cause, hwork, -, herror⟩ := hrecorded'.failure f hrun
      exact ⟨opening, u, cause, r', db'', hopened, hwork, houtside', hrecorded'.own,
        hrecorded'.failed.2 ⟨f, hrun⟩, herror⟩
    | ok result =>
      have hfails : (analyze fullEquipment plainRequest (repository [])).1.isOk = false := by
        decide +kernel
      rw [hrun] at hfails
      cases hfails

end Analysis
end ClassAtlas
