import ClassAtlas.Batch.Run
import ClassAtlas.Proofs.Batch.Additions
import ClassAtlas.Proofs.File.Tidy
import ClassAtlas.Proofs.Session

/-!
The projects of a batch do not touch each other. In whatever order they start and finish, the board
ends with one outcome for each project, which is that of its own request, and to analyse them one
after the other is one of the orders. In a usable manifest the names of projects are names of
directories side by side.
-/
namespace ClassAtlas.Batch

open File

/-! The names of a usable manifest -/

theorem proper_of_trim {name : String} (hne : Text.trim name ≠ "")
    (h : isDirectoryName (Text.trim name) = true) : Path.Proper name := by
  simp only [isDirectoryName, Bool.and_eq_true, Bool.not_eq_true', bne_iff_ne] at h
  obtain ⟨⟨⟨hslash, -⟩, hhere⟩, hparent⟩ := h
  constructor
  · rintro rfl
    exact hne rfl
  · rintro rfl
    exact hhere (by decide)
  · rintro rfl
    exact hparent (by decide)
  · intro hmem
    have htrim := Text.mem_toList_trim hmem (by decide)
    simp [Text.containsChar, htrim] at hslash

theorem Manifest.names_of_validate {m : Manifest} (h : m.validate = .ok ()) :
    (∀ p ∈ m.projects, Path.Proper p.name) ∧ m.projects.Pairwise (·.name ≠ ·.name) := by
  obtain ⟨-, hsound, hdistinct, -⟩ := validate_eq_ok_iff.1 h
  rw [List.Nodup, List.pairwise_map] at hdistinct
  constructor
  · intro p hp
    exact proper_of_trim (hsound p hp).named (hsound p hp).directory
  · exact hdistinct.imp fun hne hsame => hne (congrArg Text.trim hsame)

/-! One project -/

section

variable {σ : Type} {analyze : Analysis.Request → Act σ Analysis.Result}
  {answer : Analysis.Request → Except Failure Analysis.Result}

/-- An analysis that gives a result or a failure for each request, and does not end patience. -/
structure Answers (analyze : Analysis.Request → Act σ Analysis.Result)
    (answer : Analysis.Request → Except Failure Analysis.Result) : Prop where
  result : ∀ r s, (analyze r s).1 = answer r
  patience : ∀ r s, s.patience = .endless → (analyze r s).2.patience = .endless

/-- An outcome tells of a project what came of its analysis; how long it took is left open. -/
def Outcome.Tells (o : Outcome) (p : Project) (result : Except Failure Analysis.Result) : Prop :=
  { o with duration := ⟨0⟩ } = outcomeOf p ⟨0⟩ result

theorem tells_outcomeOf (p : Project) (duration : Time.Duration)
    (result : Except Failure Analysis.Result) : (outcomeOf p duration result).Tells p result := by
  cases result <;> rfl

theorem Outcome.Tells.project {o : Outcome} {p : Project}
    {result : Except Failure Analysis.Result} (h : o.Tells p result) : o.project = p.name := by
  have hname : (outcomeOf p ⟨0⟩ result).project = p.name := by cases result <;> rfl
  rw [← hname, ← h]

theorem beginProject_run (p : Project) {s : Session σ} (hs : s.patience = .endless) :
    ∃ t, beginProject p s = (.ok s.clock, t) ∧ t.patience = .endless := by
  have hcheck : Act.checkpoint { s with clock := s.clock.tick } =
      (.ok (), { s with clock := s.clock.tick, patience := s.patience.ask }) := by
    simp [Act.checkpoint, hs]
  rw [beginProject, Act.bind_of_ok (Act.now_run s), Act.bind_of_ok hcheck,
    Act.bind_of_ok (Act.log_run _ _)]
  exact ⟨_, rfl, by simp [hs]⟩

theorem finishProject_run (h : Answers analyze answer) (r : Analysis.Request) (p : Project)
    (start : Time.Moment) {s : Session σ} (hs : s.patience = .endless) :
    ∃ o t, finishProject analyze r p start s = (.ok o, t) ∧ t.patience = .endless ∧
      o.Tells p (answer r) := by
  have hpatience := h.patience r s hs
  rw [finishProject, Act.bind_of_ok (Act.attempt_run _ s), Act.bind_of_ok (Act.now_run _),
    ← h.result r s]
  cases (analyze r s).1 with
  | ok result => exact ⟨_, _, rfl, hpatience, tells_outcomeOf _ _ _⟩
  | error f => exact ⟨_, _, rfl, hpatience, tells_outcomeOf _ _ _⟩

/-! The board -/

namespace Board

variable {m : Manifest} {base : Analysis.Request} {b : Board}

/-- There is room for what is in progress, and every project waits, is in progress, or has its own
outcome in its place. -/
structure Sound (m : Manifest) (base : Analysis.Request)
    (answer : Analysis.Request → Except Failure Analysis.Result) (b : Board) : Prop where
  room : b.running.length ≤ m.parallel
  places : b.outcomes.length = m.projects.length
  settled : ∀ i p, m.projects[i]? = some p → i ∈ b.waiting ∨ i ∈ b.running.map (·.1) ∨
    ∃ o, b.outcomes[i]? = some o ∧ o.Tells p (answer (requestFor m base p))

theorem sound_initial : Sound m base answer (initial m) := by
  constructor
  · exact Nat.zero_le _
  · exact List.length_replicate
  · intro i p hp
    exact .inl (List.mem_range.2 (List.getElem?_eq_some_iff.1 hp).1)

namespace Sound

theorem started (h : Sound m base answer b) {i : Nat} (hroom : b.running.length < m.parallel)
    (start : Time.Moment) : Sound m base answer (b.started i start) := by
  constructor
  · exact hroom
  · exact h.places
  · intro j p hp
    by_cases hj : j = i
    · exact .inr (.inl (by simp [Board.started, hj]))
    · rcases h.settled j p hp with hwait | hrun | hdone
      · exact .inl (List.mem_filter.2 ⟨hwait, by simpa using hj⟩)
      · exact .inr (.inl (List.mem_cons_of_mem _ hrun))
      · exact .inr (.inr hdone)

theorem ended (h : Sound m base answer b) {i : Nat} {p : Project} {o : Outcome}
    (hp : m.projects[i]? = some p) (ho : o.Tells p (answer (requestFor m base p))) :
    Sound m base answer (b.ended i o) := by
  constructor
  · exact Nat.le_trans (List.length_filter_le _ _) h.room
  · exact List.length_set.trans h.places
  · intro j q hq
    by_cases hj : j = i
    · subst j
      obtain rfl : p = q := Option.some.inj (hp.symm.trans hq)
      have hlt : i < b.outcomes.length := h.places ▸ (List.getElem?_eq_some_iff.1 hp).1
      exact .inr (.inr ⟨o, List.getElem?_set_self hlt, ho⟩)
    · rcases h.settled j q hq with hwait | hrun | ⟨o', hdone, ho'⟩
      · exact .inl (List.mem_filter.2 ⟨hwait, by simpa using hj⟩)
      · obtain ⟨entry, hentry, rfl⟩ := List.mem_map.1 hrun
        exact .inr (.inl (List.mem_map_of_mem (List.mem_filter.2 ⟨hentry, by simpa using hj⟩)))
      · exact .inr (.inr ⟨o', (List.getElem?_set_ne (Ne.symm hj)).trans hdone, ho'⟩)

theorem step (hanswer : Answers analyze answer) (h : Sound m base answer b) (event : Event)
    {s : Session σ} (hs : s.patience = .endless) :
    ∃ b' t, b.step analyze m base event s = (.ok b', t) ∧ t.patience = .endless ∧
      Sound m base answer b' := by
  cases event with
  | start i =>
    cases hp : m.projects[i]? with
    | none =>
      simp only [Board.step, hp]
      exact ⟨b, s, rfl, hs, h⟩
    | some p =>
      by_cases hcan : b.canStart m i = true
      · obtain ⟨t, hbegin, ht⟩ := beginProject_run p hs
        have hroom : b.running.length < m.parallel := by
          simp only [canStart, Bool.and_eq_true, decide_eq_true_eq] at hcan
          exact hcan.2
        simp only [Board.step, hp, hcan, if_true]
        rw [Act.bind_of_ok (Act.attempt_run _ s), hbegin]
        exact ⟨_, t, rfl, ht, h.started hroom _⟩
      · simp only [Board.step, hp, hcan]
        exact ⟨b, s, rfl, hs, h⟩
  | finish i =>
    cases hp : m.projects[i]? with
    | none =>
      simp only [Board.step, hp]
      exact ⟨b, s, rfl, hs, h⟩
    | some p =>
      cases hstart : b.running.lookup i with
      | none =>
        simp only [Board.step, hp, hstart]
        exact ⟨b, s, rfl, hs, h⟩
      | some start =>
        obtain ⟨o, t, hfinish, ht, ho⟩ := finishProject_run hanswer (requestFor m base p) p start hs
        simp only [Board.step, hp, hstart]
        rw [Act.bind_of_ok hfinish]
        exact ⟨_, t, rfl, ht, h.ended hp ho⟩

theorem play (hanswer : Answers analyze answer) (h : Sound m base answer b) (events : List Event)
    {s : Session σ} (hs : s.patience = .endless) :
    ∃ b' t, play analyze m base events b s = (.ok b', t) ∧ Sound m base answer b' := by
  induction events generalizing b s with
  | nil => exact ⟨b, s, rfl, h⟩
  | cons event more ih =>
    obtain ⟨b', t, hstep, ht, hb'⟩ := h.step hanswer event hs
    rw [Board.play, Act.bind_of_ok hstep]
    exact ih hb' ht

/-- Once nothing waits and nothing is in progress, every outcome is in its place. -/
theorem outcome_of_complete (h : Sound m base answer b) (hcomplete : b.isComplete = true) {i : Nat}
    {p : Project} (hp : m.projects[i]? = some p) :
    ∃ o, b.outcomes[i]? = some o ∧ o.Tells p (answer (requestFor m base p)) := by
  obtain ⟨hwaiting, hrunning⟩ : b.waiting = [] ∧ b.running = [] := by
    simpa [isComplete] using hcomplete
  simpa [hwaiting, hrunning] using h.settled i p hp

end Sound

/-! One after the other -/

/-- Each project is finished before the next one is started. -/
def oneByOne (positions : List Nat) : List Event := positions.flatMap fun i => [.start i, .finish i]

theorem play_append (before after : List Event) (b : Board) :
    play analyze m base (before ++ after) b =
      play analyze m base before b >>= play analyze m base after := by
  induction before generalizing b with
  | nil => exact (pure_bind b _).symm
  | cons event more ih => simp only [List.cons_append, play, ih, bind_assoc]

theorem parallel_pos (m : Manifest) : 0 < m.parallel := by
  unfold Manifest.parallel Manifest.defaultParallel
  split <;> omega

/-- A project that is started and finished while no other is in progress. -/
theorem play_pair {i : Nat} {p : Project} (hp : m.projects[i]? = some p) (hwait : i ∈ b.waiting)
    (hidle : b.running = []) :
    play analyze m base [.start i, .finish i] b = do
      return b.ended i (← runProject analyze (requestFor m base p) p) := by
  have hcan : b.canStart m i = true := by simp [canStart, hwait, hidle, parallel_pos]
  funext s
  simp only [play, step, hp, hcan, if_true, runProject, bind_assoc]
  rw [Act.bind_of_ok (Act.attempt_run _ s), Act.bind_of_ok (Act.attempt_run _ s)]
  cases (beginProject p s).1 with
  | error f => simp [ended, hidle]
  | ok start =>
    have hsame : (b.started i start).ended i = b.ended i := by
      funext o
      simp [started, ended, hidle, List.filter_filter]
    have hlookup : (b.started i start).running.lookup i = some start := by simp [started]
    simp [hlookup, hsame]

/-- From a board where the projects before some position are done and the others wait. -/
theorem play_oneByOne {front rest : List Project} (hm : m.projects = front ++ rest)
    {done : List Outcome} (hdone : done.length = front.length) :
    play analyze m base (oneByOne (List.range' front.length rest.length))
        ⟨List.range' front.length rest.length, [], done ++ List.replicate rest.length .blank⟩ = do
      return ⟨[], [], done ++
        (← rest.mapM fun p => runProject analyze (requestFor m base p) p)⟩ := by
  induction rest generalizing front done with
  | nil => simp [oneByOne, play]
  | cons p more ih =>
    have hp : m.projects[front.length]? = some p := by simp [hm]
    have hnext : ∀ o : Outcome,
        ended ⟨List.range' front.length (p :: more).length, [],
          done ++ List.replicate (p :: more).length .blank⟩ front.length o =
        ⟨List.range' (front ++ [p]).length more.length, [],
          (done ++ [o]) ++ List.replicate more.length .blank⟩ := by
      intro o
      simp [ended, List.range'_succ, List.replicate_succ, ← hdone]
      intro j hle _
      omega
    have hevents : oneByOne (List.range' front.length (p :: more).length) =
        [.start front.length, .finish front.length] ++
          oneByOne (List.range' (front ++ [p]).length more.length) := by
      simp [oneByOne, List.range'_succ]
    have hstep : ∀ o : Outcome, play analyze m base
        (oneByOne (List.range' (front ++ [p]).length more.length))
        ⟨List.range' (front ++ [p]).length more.length, [],
          (done ++ [o]) ++ List.replicate more.length .blank⟩ = do
          return ⟨[], [], (done ++ [o]) ++
            (← more.mapM fun p => runProject analyze (requestFor m base p) p)⟩ := by
      intro o
      exact ih (by simp [hm]) (by simp [hdone])
    rw [hevents, play_append, play_pair hp (by simp) rfl]
    simp only [bind_assoc, pure_bind, hnext, hstep, List.mapM_cons]
    simp

/-- To analyse the projects one after the other is an order in which they can be analysed. -/
theorem run_of_play {s t : Session σ} (h : play analyze m base
      (oneByOne (List.range m.projects.length)) (initial m) s = (.ok b, t)) :
    b.isComplete = true ∧ (run analyze m base s).1 = .ok b.outcomes := by
  have hplay : play analyze m base (oneByOne (List.range m.projects.length)) (initial m) = do
      return ⟨[], [], ← m.projects.mapM fun p => runProject analyze (requestFor m base p) p⟩ := by
    simpa [initial, List.range_eq_range'] using
      play_oneByOne (List.nil_append m.projects).symm
        (rfl : ([] : List Outcome).length = ([] : List Project).length)
  rw [hplay] at h
  obtain ⟨outcomes, t', houtcomes, hlast⟩ := Act.bind_eq_ok.1 h
  cases hlast
  rw [run, Act.bind_of_ok houtcomes, Act.bind_of_ok (Act.log_run _ _)]
  exact ⟨rfl, rfl⟩

/-! Directories side by side -/

theorem outputRoot_requestFor (hm : m.outputRoot ≠ "") (p : Project) :
    (requestFor m base p).outputRoot = Path.join m.outputRoot p.name := by
  simp [requestFor, hm]

theorem names_apart {projects : List Project} (h : projects.Pairwise (·.name ≠ ·.name)) {i j : Nat}
    {p q : Project} (hp : projects[i]? = some p) (hq : projects[j]? = some q) (hne : i ≠ j) :
    p.name ≠ q.name := by
  obtain ⟨hi, rfl⟩ := List.getElem?_eq_some_iff.1 hp
  obtain ⟨hj, rfl⟩ := List.getElem?_eq_some_iff.1 hq
  rw [List.pairwise_iff_getElem] at h
  rcases Nat.lt_or_gt_of_ne hne with hlt | hlt
  · exact h i j hi hj hlt
  · exact (h j i hj hi hlt).symm

/-- In whatever order the projects of a usable manifest are started and finished, there are never
more in progress than may be, and in the end each has its own outcome in its own place: nothing that
comes of another project is in it. To analyse them one after the other is one of the orders. If there
is a common place for the results, each project has a directory of its own there. -/
theorem batch_is_isolated (hm : m.validate = .ok ()) (base : Analysis.Request)
    (hanswer : Answers analyze answer) {s : Session σ} (hs : s.patience = .endless) :
    (∀ events, ∃ b t, play analyze m base events (initial m) s = (.ok b, t) ∧
      b.running.length ≤ (if m.maxParallel ≤ 0 then 2 else m.maxParallel).toNat ∧
      b.outcomes.length = m.projects.length ∧
      (b.isComplete = true → ∀ (i : Nat) p, m.projects[i]? = some p →
        ∃ o : Outcome, b.outcomes[i]? = some o ∧ o.project = p.name ∧
          { o with duration := ⟨0⟩ } = outcomeOf p ⟨0⟩ (answer (requestFor m base p)))) ∧
    (∃ events b, (play analyze m base events (initial m) s).1 = .ok b ∧ b.isComplete = true ∧
      (run analyze m base s).1 = .ok b.outcomes) ∧
    (m.outputRoot ≠ "" →
      (∀ p ∈ m.projects, Path.parent (requestFor m base p).outputRoot = Path.clean m.outputRoot ∧
        Path.base (requestFor m base p).outputRoot = p.name) ∧
      ∀ (i j : Nat) p q, m.projects[i]? = some p → m.projects[j]? = some q → i ≠ j →
        (requestFor m base p).outputRoot ≠ (requestFor m base q).outputRoot ∧
        ∀ name name', Path.Proper name → Path.Proper name' →
          ¬ Path.Inside (Path.join (requestFor m base p).outputRoot name)
            (Path.join (requestFor m base q).outputRoot name')) := by
  have hsound : Sound m base answer (initial m) := sound_initial
  obtain ⟨hproper, hapart⟩ := m.names_of_validate hm
  refine ⟨fun events => ?_, ?_, fun hroot => ⟨fun p hp => ?_, ?_⟩⟩
  · obtain ⟨b, t, hplay, hb⟩ := hsound.play hanswer events hs
    refine ⟨b, t, hplay, hb.room, hb.places, fun hcomplete i p hp => ?_⟩
    obtain ⟨o, ho, htells⟩ := hb.outcome_of_complete hcomplete hp
    exact ⟨o, ho, htells.project, htells⟩
  · obtain ⟨b, t, hplay, -⟩ := hsound.play hanswer (oneByOne (List.range m.projects.length)) hs
    obtain ⟨hcomplete, hrun⟩ := run_of_play hplay
    exact ⟨_, b, by rw [hplay], hcomplete, hrun⟩
  · rw [outputRoot_requestFor hroot]
    exact ⟨Path.parent_join hroot (hproper p hp), Path.base_join hroot (hproper p hp)⟩
  · intro i j p q hp hq hne
    have hpp := hproper p (List.mem_of_getElem? hp)
    have hqq := hproper q (List.mem_of_getElem? hq)
    have hnames := names_apart hapart hp hq hne
    rw [outputRoot_requestFor hroot, outputRoot_requestFor hroot]
    constructor
    · intro hsame
      have hbase := Path.base_join hroot hpp
      rw [hsame, Path.base_join hroot hqq] at hbase
      exact hnames hbase.symm
    · intro name name' hname hname' hinside
      have hwithin := hinside.of_join (Path.join_ne_empty hroot hqq) hname'
      exact Path.not_inside_sibling hroot hpp hqq hnames hname hwithin

end Board
end

/-- Two projects side by side, one with a blank in front of its name. -/
def pair : Manifest :=
  ⟨0, "../results/",
    [⟨"orders", "/srv/orders", none, none⟩, ⟨" billing", "/srv/billing", none, none⟩]⟩

/-- The first of them fails, and the other one is analysed. -/
def answerPair (r : Analysis.Request) : Except Failure Analysis.Result :=
  if r.repoRoot == "/srv/orders" then .error (.plain "boom")
  else .ok ⟨"run-1", "", "", "", .empty, [], [], default, ⟨5⟩⟩

theorem Board.batch_is_isolated_pair :
    pair.validate = .ok () ∧
    (∃ (b : Board) (o : Outcome),
      (play (fun r s => (answerPair r, s)) pair default [.start 1, .start 0, .finish 0, .finish 1]
        (initial pair) (Session.onDisk (.dir []))).1 = .ok b ∧
      b.outcomes[1]? = some o ∧ o.project = " billing" ∧ o.runId = "run-1") ∧
    ¬ Path.Inside "../results/orders/run-0" "../results/ billing/run-1" := by
  have hflaw : pair.flaw? = none := by decide +kernel
  have hvalid : pair.validate = .ok () := by rw [Manifest.validate, hflaw]
  have hanswer : Answers (fun r (s : Session Unit) => (answerPair r, s)) answerPair :=
    ⟨fun _ _ => rfl, fun _ _ h => h⟩
  have hmain := batch_is_isolated hvalid default hanswer (s := Session.onDisk (.dir [])) rfl
  refine ⟨hvalid, ?_, ?_⟩
  · obtain ⟨b, t, hplay, -, -, hentries⟩ := hmain.1 [.start 1, .start 0, .finish 0, .finish 1]
    have hcomplete : b.isComplete = true := by
      have hdone : (play (fun r s => (answerPair r, s)) pair default
          [.start 1, .start 0, .finish 0, .finish 1] (initial pair)
          (Session.onDisk (.dir []))).1.toOption.all (·.isComplete) = true := by decide +kernel
      rw [hplay] at hdone
      exact hdone
    obtain ⟨o, ho, hname, htells⟩ := hentries hcomplete 1 _ rfl
    exact ⟨b, o, by rw [hplay], ho, hname, congrArg Outcome.runId htells⟩
  · have hproper : Path.Proper "run-0" ∧ Path.Proper "run-1" := by
      constructor <;> constructor <;> decide
    have hapart := ((hmain.2.2 (by decide)).2 0 1 _ _ rfl rfl (by decide)).2
    exact hapart "run-0" "run-1" hproper.1 hproper.2

end ClassAtlas.Batch
