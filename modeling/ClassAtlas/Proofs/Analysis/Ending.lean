import ClassAtlas.Proofs.Analysis.Calls
import ClassAtlas.Proofs.Analysis.Lifecycle

/-!
How a run ends, whatever its registry does and whenever the user asks to stop. A run that was entered
is either finished or reported as failed, the latter as if the user had never asked to stop. But one
that could not be finished is not reported either, and stays running.
-/
namespace ClassAtlas.Analysis

open Store

variable {σ : Type}

/-! Between the two records of a run -/

/-- Nothing but looking up and saving. -/
def Quiet (calls : List Call) : Prop := ∀ c ∈ calls, c.operation = .find ∨ c.operation = .save

theorem additive_quiet : Additive fun calls (_ _ : σ) => Quiet calls where
  nil _ _ hc := by cases hc
  append hfirst hrest c hc := (List.mem_append.1 hc).elim (hfirst c) (hrest c)

theorem quiet_singleton {c : Call} (h : c.operation = .find ∨ c.operation = .save) : Quiet [c] := by
  intro other hother
  rw [List.mem_singleton.1 hother]
  exact h

theorem pipeline_quiet (equipment : Equipment σ) (id repoRoot outputDir : String)
    (request : Request) :
    (pipeline equipment.noted id repoRoot outputDir request).Moves
      (Grown fun calls _ _ => Quiet calls) := by
  apply pipeline_moves additive_quiet
  · exact fun _ _ _ _ s => additive_quiet.nil s.outside
  · exact fun _ _ _ _ s => additive_quiet.nil s.outside
  · exact fun _ _ _ _ => quiet_singleton (.inl rfl)
  · exact fun _ _ _ _ _ => quiet_singleton (.inr rfl)

theorem runId_of_pipeline {equipment : Equipment σ} {id repoRoot outputDir : String}
    {request : Request} {s t : Session σ} {r : Result}
    (h : pipeline equipment id repoRoot outputDir request s = (.ok r, t)) : r.runId = id := by
  unfold pipeline at h
  obtain ⟨desc, _, -, h⟩ := Act.bind_eq_ok.1 h
  obtain ⟨fingerprint, _, -, h⟩ := Act.bind_eq_ok.1 h
  obtain ⟨previous, _, -, h⟩ := Act.bind_eq_ok.1 h
  obtain ⟨source, _, -, h⟩ := Act.bind_eq_ok.1 h
  obtain ⟨compiled, _, -, h⟩ := Act.bind_eq_ok.1 h
  obtain ⟨calls, _, -, h⟩ := Act.bind_eq_ok.1 h
  obtain ⟨_, _, -, h⟩ := Act.bind_eq_ok.1 h
  obtain ⟨_, _, -, h⟩ := Act.bind_eq_ok.1 h
  obtain ⟨diagrams, _, -, h⟩ := Act.bind_eq_ok.1 h
  obtain ⟨exports, _, -, h⟩ := Act.bind_eq_ok.1 h
  cases hregistry : equipment.registry with
  | some registry =>
    simp only [hregistry] at h
    obtain ⟨_, _, -, h⟩ := Act.bind_eq_ok.1 h
    cases h
    rfl
  | none =>
    simp only [hregistry] at h
    cases h
    rfl

/-! The calls of a whole run -/

/-- The calls for a run that was entered. -/
def trail (id : String) (p : Patience) (calls : List Call) (last : Call) : List Call :=
  ⟨.create, id, true, p⟩ :: calls ++ [last]

/-- The calls of an analysis, by how it ends. -/
inductive Ends (id : String) : Except Failure Result → List Call → Prop where
  | refused {f : Failure} : Ends id (.error f) []
  | notEntered {f : Failure} {p : Patience} : Ends id (.error f) [⟨.create, id, false, p⟩]
  | finished {r : Result} {p q : Patience} {calls : List Call} (hr : r.runId = id)
    (hquiet : Quiet calls) :
    Ends id (.ok r) (trail id p calls ⟨.finish, id, true, q⟩)
  | unfinished {f : Failure} {p q : Patience} {calls : List Call} (hquiet : Quiet calls) :
    Ends id (.error f) (trail id p calls ⟨.finish, id, false, q⟩)
  | failed {f : Failure} {p : Patience} {calls : List Call} (hquiet : Quiet calls)
    (reported : Bool) :
    Ends id (.error f) (trail id p calls ⟨.fail, id, reported, .endless⟩)

/-- An analysis for which no calls were noted before has ended. -/
def Ended (id : String) (ended : Except Failure Result × Session (σ × List Call)) : Prop :=
  Ends id ended.1 ended.2.outside.2

theorem Ended.of_calls {id : String} {outcome : Except Failure Result} {calls : List Call}
    {t : Session (σ × List Call)} (ht : t.outside.2 = calls) (h : Ends id outcome calls) :
    Ended id (outcome, t) := by
  rw [← ht] at h
  exact h

variable {build : Option (Classpath.Build σ)}
  {sources : Option (String → List String → Act σ ClassGraph)} {registry : Registry σ}

theorem recordSuccess_ended {id : String} {p : Patience} {calls : List Call} (hquiet : Quiet calls)
    (start : Time.Moment) {r : Result} (hr : r.runId = id) {s : Session (σ × List Call)}
    (hs : s.outside.2 = ⟨.create, id, true, p⟩ :: calls) :
    Ended id (recordSuccess (Equipment.noted ⟨build, sources, some registry⟩) start r s) := by
  unfold recordSuccess
  simp only [Equipment.noted, Option.map_some]
  cases hfinish : registry.noted.finish r.runId r.summary s with
  | mk outcome t =>
    have ht := Operation.calls_noted hfinish
    rw [hs, hr] at ht
    have hattempt : Act.attempt (registry.noted.finish r.runId r.summary) s = (.ok outcome, t) := by
      rw [Act.attempt_run, hfinish]
    rw [Act.bind_of_ok hattempt]
    cases outcome with
    | ok _ => exact .of_calls ht (.finished hr hquiet)
    | error f => exact .of_calls ht (.unfinished hquiet)

/-- A failure is reported as if the user had never asked to stop. -/
theorem recordFailure_noted (equipment : Equipment σ)
    (hregistry : equipment.registry = some registry) (id : String) (f : Failure)
    (s : Session (σ × List Call)) :
    ∃ reported t, recordFailure equipment.noted id f s = (.ok (), t) ∧
      t.outside.2 = s.outside.2 ++ [⟨.fail, id, reported, .endless⟩] := by
  unfold recordFailure
  simp only [Equipment.noted, hregistry, Option.map_some]
  rw [Act.bind_of_ok (Act.log_run _ s)]
  generalize hu : ({ s with journal := _ } : Session (σ × List Call)) = u
  cases hfail : registry.noted.fail id f.text { u with patience := .endless } with
  | mk outcome t =>
    have ht : t.outside.2 = s.outside.2 ++ [⟨.fail, id, outcome.isOk, .endless⟩] := by
      rw [Operation.calls_noted hfail, ← hu]
    have hattempt : Act.attempt (Act.patiently (registry.noted.fail id f.text)) u =
        (.ok outcome, { t with patience := u.patience }) := by
      simp only [Act.attempt, Act.patiently, hfail]
    rw [Act.bind_of_ok hattempt]
    cases outcome with
    | ok _ => exact ⟨_, _, rfl, ht⟩
    | error g => exact ⟨_, _, rfl, ht⟩

/-- A run is entered by one call, or not at all if that fails. -/
theorem openRun_noted (build : Option (Classpath.Build σ))
    (sources : Option (String → List String → Act σ ClassGraph)) (registry : Registry σ)
    (request : Request) {s : Session (σ × List Call)} (hs : s.outside.2 = []) :
    (∃ f t, openRun (Equipment.noted ⟨build, sources, some registry⟩) request s = (.error f, t) ∧
      t.outside.2 = [⟨.create, s.identifiers s.issued, false, s.patience⟩]) ∨
    ∃ opening t,
      openRun (Equipment.noted ⟨build, sources, some registry⟩) request s = (.ok opening, t) ∧
      opening.runId = s.identifiers s.issued ∧
      t.outside.2 = [⟨.create, s.identifiers s.issued, true, s.patience⟩] := by
  unfold openRun
  rw [Act.bind_of_ok (Act.disk_run s), Act.bind_of_ok (Act.freshIdentifier_run s),
    Act.bind_of_ok (Act.now_run _)]
  cases hstart : recordStart (Equipment.noted ⟨build, sources, some registry⟩)
      (s.identifiers s.issued) (s.disk.absolute request.repoRoot)
      (File.Path.join request.outputRoot (s.identifiers s.issued)) s.clock request
      { s with issued := s.issued + 1, clock := s.clock.tick } with
  | mk outcome t =>
    have ht := Operation.calls_noted hstart
    rw [hs, List.nil_append] at ht
    cases outcome with
    | error f =>
      rw [Act.bind_of_error hstart]
      exact .inl ⟨f, t, rfl, ht⟩
    | ok _ =>
      rw [Act.bind_of_ok hstart, Act.bind_of_ok (Act.log_run _ t)]
      exact .inr ⟨_, _, rfl, rfl, ht⟩

theorem analyze_ended (request : Request) {s : Session (σ × List Call)} (hs : s.outside.2 = []) :
    Ended (s.identifiers s.issued)
      (analyze (Equipment.noted ⟨build, sources, some registry⟩) request s) := by
  unfold analyze
  cases request.fault? with
  | some f => exact .of_calls hs .refused
  | none =>
    dsimp only
    obtain ⟨f, t, hopen, ht⟩ | ⟨opening, u, hopen, hname, hu⟩ :=
      openRun_noted build sources registry request hs
    · rw [Act.bind_of_error hopen]
      exact .of_calls ht .notEntered
    · rw [Act.bind_of_ok hopen, Act.bind_of_ok (Act.attempt_run _ u), ← hname]
      rw [← hname] at hu
      -- The run is entered. All calls are quiet from here to the one that records its end.
      obtain ⟨calls, hv, hquiet⟩ := pipeline_quiet ⟨build, sources, some registry⟩ opening.runId
        opening.repoRoot opening.outputDir request u
      cases hrun : opening.work (Equipment.noted ⟨build, sources, some registry⟩) request u with
      | mk outcome v =>
        rw [Opening.work] at hrun
        rw [hrun, hu] at hv
        cases outcome with
        | ok r => exact recordSuccess_ended hquiet _ (runId_of_pipeline hrun) hv
        | error f =>
          obtain ⟨reported, w, hfailure, hw⟩ :=
            recordFailure_noted ⟨build, sources, some registry⟩ rfl opening.runId f v
          rw [hv] at hw
          dsimp only
          rw [Act.bind_of_ok hfailure]
          exact .of_calls hw (.failed hquiet reported)

/-! What has become of a run -/

/-- An operation was called for a run, and succeeded or not. -/
def Called (calls : List Call) (operation : Operation) (id : String) (succeeded : Bool) : Prop :=
  ∃ c ∈ calls, c.operation = operation ∧ c.about = id ∧ c.succeeded = succeeded

instance (calls : List Call) (operation : Operation) (id : String) (succeeded : Bool) :
    Decidable (Called calls operation id succeeded) :=
  inferInstanceAs (Decidable (∃ c ∈ calls, _))

/-- How the calls of an analysis account for its run. If there is a result, the run was finished. If
there is none and a run was entered, its failure was reported, with all patience, unless finishing it
is what failed; and the run is still running exactly if either of the two failed. -/
structure Accounted (id : String) (outcome : Except Failure Result) (calls : List Call) : Prop where
  finished : ∀ r, outcome = .ok r →
    r.runId = id ∧ Called calls .finish id true ∧ recorded id calls = some .succeeded
  reported : ∀ f, outcome = .error f → Called calls .create id true →
    ((∃ c ∈ calls, c.operation = .fail ∧ c.about = id ∧ c.patience = .endless) ↔
      ¬ Called calls .finish id false)
  failed : ∀ f, outcome = .error f → Called calls .create id true →
    (recorded id calls = some .failed ↔ Called calls .fail id true)
  running : ∀ f, outcome = .error f → Called calls .create id true →
    (recorded id calls = some .running ↔
      Called calls .finish id false ∨ Called calls .fail id false)

section

variable {id : String} {p : Patience} {calls : List Call} {last : Call}

/-- Quiet calls leave it to the first and the last what becomes of a run. -/
theorem foldl_after_trail (h : Quiet calls) (before : Option Status) :
    (trail id p calls last).foldl (Call.after id) before = last.after id (some .running) := by
  have hcalls (known : Option Status) : calls.foldl (Call.after id) known = known := by
    induction calls with
    | nil => rfl
    | cons c more ih =>
      have hc : c.operation.status? = none := by
        obtain hfind | hsave := h c List.mem_cons_self
        · rw [hfind]
          rfl
        · rw [hsave]
          rfl
      rw [List.foldl_cons, Call.after_of_status? hc]
      exact ih fun other hother => h other (List.mem_cons_of_mem c hother)
  have hfirst : Call.after id before ⟨.create, id, true, p⟩ = some .running := by
    simp [Call.after, Operation.status?]
  rw [trail, List.cons_append, List.foldl_cons, List.foldl_append, hfirst, hcalls]
  rfl

/-- The calls that are not quiet are the first and the last. -/
theorem exists_mem_trail (h : Quiet calls) {operation : Operation} (hfind : operation ≠ .find)
    (hsave : operation ≠ .save) (P : Call → Prop) :
    (∃ c ∈ trail id p calls last, c.operation = operation ∧ P c) ↔
      (operation = .create ∧ P ⟨.create, id, true, p⟩) ∨ (last.operation = operation ∧ P last) := by
  constructor
  · rintro ⟨c, hc, rfl, hP⟩
    have hquiet : c ∉ calls := fun hmem => (h c hmem).elim hfind hsave
    obtain rfl | rfl : c = ⟨.create, id, true, p⟩ ∨ c = last := by simpa [trail, hquiet] using hc
    · exact .inl ⟨rfl, hP⟩
    · exact .inr ⟨rfl, hP⟩
  · rintro (⟨rfl, hP⟩ | ⟨rfl, hP⟩)
    · exact ⟨_, List.mem_cons_self, rfl, hP⟩
    · exact ⟨last, by simp [trail], rfl, hP⟩

end

theorem Ends.accounted {id : String} {outcome : Except Failure Result} {calls : List Call}
    (h : Ends id outcome calls) : Accounted id outcome calls := by
  have hstatus : Status.running ≠ .failed := by decide
  cases h with
  | refused => constructor <;> simp [Called]
  | notEntered => constructor <;> simp [Called]
  | finished hr hquiet =>
    constructor
    · rintro _ ⟨⟩
      simp [hr, Called, exists_mem_trail hquiet, recorded, foldl_after_trail hquiet, Call.after,
        Operation.status?]
    all_goals rintro _ ⟨⟩
  | unfinished hquiet =>
    constructor
    · rintro _ ⟨⟩
    all_goals
      intro f _ _
      simp [Called, exists_mem_trail hquiet, recorded, foldl_after_trail hquiet, Call.after,
        hstatus]
  | failed hquiet reported =>
    constructor
    · rintro _ ⟨⟩
    all_goals
      intro f _ _
      cases reported <;>
      simp [Called, exists_mem_trail hquiet, recorded, foldl_after_trail hquiet, Call.after,
        Operation.status?, hstatus, hstatus.symm]

/-- It does not matter what was known of a run before it was entered. -/
theorem Ends.foldl_after {id : String} {outcome : Except Failure Result} {calls : List Call}
    (h : Ends id outcome calls) (hentered : Called calls .create id true) (before : Option Status) :
    calls.foldl (Call.after id) before = recorded id calls := by
  cases h with
  | refused => simp [Called] at hentered
  | notEntered => simp [Called] at hentered
  | finished _ hquiet | unfinished hquiet | failed hquiet _ =>
    rw [recorded, foldl_after_trail hquiet, foldl_after_trail hquiet]

/-- An analysis whose calls are noted. -/
def watched (equipment : Equipment σ) (request : Request) (s : Session σ) :
    Except Failure Result × Session (σ × List Call) :=
  analyze equipment.noted request (s.withOutside (s.outside, []))

/-- A run that was entered comes to an end, whatever the registry does and whenever the user asks to
stop, unless it cannot be finished: then no failure is reported and it stays running. A registry that
shows what has become of a run shows just this. -/
theorem entered_runs_end (build : Option (Classpath.Build σ))
    (sources : Option (String → List String → Act σ ClassGraph)) (registry : Registry σ)
    (request : Request) (s : Session σ) :
    Accounted (s.identifiers s.issued) (watched ⟨build, sources, some registry⟩ request s).1
      (watched ⟨build, sources, some registry⟩ request s).2.outside.2 ∧
    ∀ status, Equipment.Shows ⟨build, sources, some registry⟩ (s.identifiers s.issued) status →
      Called (watched ⟨build, sources, some registry⟩ request s).2.outside.2 .create
        (s.identifiers s.issued) true →
      status (watched ⟨build, sources, some registry⟩ request s).2.outside.1 =
        recorded (s.identifiers s.issued)
          (watched ⟨build, sources, some registry⟩ request s).2.outside.2 := by
  have hends : Ends (s.identifiers s.issued) (watched ⟨build, sources, some registry⟩ request s).1
      (watched ⟨build, sources, some registry⟩ request s).2.outside.2 :=
    analyze_ended (s := s.withOutside (s.outside, [])) request rfl
  refine ⟨hends.accounted, ?_⟩
  intro status hshows hentered
  obtain ⟨calls, hcalls, hshown⟩ : Grown (Shown (s.identifiers s.issued) status) (s.outside, [])
      (watched ⟨build, sources, some registry⟩ request s).2.outside :=
    analyze_shown hshows request (s.withOutside (s.outside, []))
  rw [← hends.foldl_after hentered (status s.outside), hcalls]
  exact hshown

theorem shows_fullEquipment (id : String) : fullEquipment.Shows id (statusIn id) := by
  have hadditive := additive_shown id (statusIn id)
  have hmade {α : Type} {act : Act Connection α}
      (h : Act.Made (fun _ => Act.Moves (Shown id (statusIn id) [])) act) :
      act.Moves (Shown id (statusIn id) []) :=
    h.moves hadditive.nil fun _ _ _ => hadditive.append
  constructor
  · rintro run ⟨⟩ dir args
    exact hmade (Classpath.BuildTool.made_run _ _ dir args)
  · rintro read ⟨⟩ root packages
    exact hmade (Source.made_build root packages)
  · rintro registry ⟨⟩
    exact shows_ofConnection (fun _ _ => rfl) id

/-- A repository with a compiled class, and a user who asks to stop after some steps. -/
def impatientRepository (steps : Nat) : Session Connection :=
  { compiledRepository with patience := ⟨some steps⟩ }

/-- A run that is stopped when its graph is to be saved ends as failed, although the user has asked
to stop by then. -/
theorem entered_runs_end_interrupted :
    (watched fullEquipment plainRequest (impatientRepository 7)).1.isOk = false ∧
      statusIn "new" (watched fullEquipment plainRequest (impatientRepository 7)).2.outside.1 =
        some .failed := by
  have hcalls : (watched fullEquipment plainRequest (impatientRepository 7)).1.isOk = false ∧
      Called (watched fullEquipment plainRequest (impatientRepository 7)).2.outside.2 .create "new"
        true ∧
      Called (watched fullEquipment plainRequest (impatientRepository 7)).2.outside.2 .fail "new"
        true := by
    decide +kernel
  have hends := entered_runs_end fullEquipment.build fullEquipment.sources
    (.ofConnection (fun c => c) fun c _ => c) plainRequest (impatientRepository 7)
  -- Left to unification, this would run the analysis.
  have hfull : (⟨fullEquipment.build, fullEquipment.sources,
    some (.ofConnection (fun c => c) fun c _ => c)⟩ : Equipment Connection) = fullEquipment := rfl
  have hid : (impatientRepository 7).identifiers (impatientRepository 7).issued = "new" := rfl
  rw [hfull, hid] at hends
  generalize watched fullEquipment plainRequest (impatientRepository 7) = ended at hcalls hends ⊢
  obtain ⟨herror, hentered, hreported⟩ := hcalls
  obtain ⟨haccounted, hshown⟩ := hends
  refine ⟨herror, ?_⟩
  rw [hshown (statusIn "new") (shows_fullEquipment "new") hentered]
  cases houtcome : ended.1 with
  | ok r =>
    rw [houtcome] at herror
    cases herror
  | error f => exact (haccounted.failed f houtcome hentered).2 hreported

/-- A run that is stopped when it is to be finished stays running, and no failure is reported. -/
theorem unfinished_run_stays_running :
    (watched fullEquipment plainRequest (impatientRepository 8)).1.isOk = false ∧
      Called (watched fullEquipment plainRequest (impatientRepository 8)).2.outside.2 .create "new"
        true ∧
      (watched fullEquipment plainRequest (impatientRepository 8)).2.outside.2.all
        (fun c => c.operation != .fail) = true ∧
      statusIn "new" (watched fullEquipment plainRequest (impatientRepository 8)).2.outside.1 =
        some .running := by
  decide +kernel

end ClassAtlas.Analysis
