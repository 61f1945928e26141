import ClassAtlas.Analysis.Run
import ClassAtlas.Proofs.Analysis.Stages
import ClassAtlas.Proofs.Store.Ledger

/-!
The calls that an analysis makes to its registry. They are noted, with what came of each, in a list
that is kept beside the rest of the outside. A registry shows what has become of a run if that
follows from the calls that have succeeded; an open file of runs does.
-/
namespace ClassAtlas.Analysis

open Store

variable {σ τ : Type}

inductive Operation where
  | create | find | save | finish | fail
  deriving DecidableEq, Repr

/-- A call to a registry: the run or the fingerprint that it names, whether it succeeded, and how
much patience there was when it was made. -/
structure Call where
  operation : Operation
  about : String
  succeeded : Bool
  patience : Patience
  deriving DecidableEq, Repr

/-- The call that a step makes. -/
def Operation.call (operation : Operation) (about : String) (act : Act σ α) (s : Session σ) :
    Call :=
  ⟨operation, about, (act s).1.isOk, s.patience⟩

/-- Make a call and note it. -/
def Operation.noted (operation : Operation) (about : String) (act : Act σ α) :
    Act (σ × List Call) α := fun s =>
  let (outcome, t) := act (s.withOutside s.outside.1)
  (outcome, t.withOutside
    (t.outside, s.outside.2 ++ [operation.call about act (s.withOutside s.outside.1)]))

/-- A step that makes no calls. -/
def unnoted (act : Act σ α) : Act (σ × List Call) α := Act.focus Prod.fst (fun x p => (x, p.2)) act

def Registry.noted (registry : Registry σ) : Registry (σ × List Call) where
  create r := Operation.create.noted r.id (registry.create r)
  find? fingerprint := Operation.find.noted fingerprint (registry.find? fingerprint)
  save id g := Operation.save.noted id (registry.save id g)
  finish id s := Operation.finish.noted id (registry.finish id s)
  fail id message := Operation.fail.noted id (registry.fail id message)

def Equipment.noted (equipment : Equipment σ) : Equipment (σ × List Call) where
  build := equipment.build.map fun run dir args => unnoted (run dir args)
  sources := equipment.sources.map fun read root packages => unnoted (read root packages)
  registry := equipment.registry.map Registry.noted

theorem Operation.calls_noted {operation : Operation} {about : String} {act : Act σ α}
    {s t : Session (σ × List Call)} {outcome : Except Failure α}
    (h : operation.noted about act s = (outcome, t)) :
    t.outside.2 = s.outside.2 ++ [⟨operation, about, outcome.isOk, s.patience⟩] := by
  cases h
  rfl

/-! Calls one after the other -/

/-- What can be said of some calls and of the rest of the outside before and after them, and of no
calls and of more calls likewise. -/
structure Additive (P : List Call → σ → σ → Prop) : Prop where
  nil : ∀ x, P [] x x
  append : ∀ {first rest x y z}, P first x y → P rest y z → P (first ++ rest) x z

/-- Some calls were added to those that are noted. -/
def Grown (P : List Call → σ → σ → Prop) (x y : σ × List Call) : Prop :=
  ∃ calls, y.2 = x.2 ++ calls ∧ P calls x.1 y.1

section

variable {P : List Call → σ → σ → Prop}

theorem Additive.refl (h : Additive P) (x : σ × List Call) : Grown P x x :=
  ⟨[], (List.append_nil _).symm, h.nil _⟩

theorem Additive.trans (h : Additive P) (x y z : σ × List Call) (hxy : Grown P x y)
    (hyz : Grown P y z) : Grown P x z := by
  obtain ⟨first, hy, hfirst⟩ := hxy
  obtain ⟨rest, hz, hrest⟩ := hyz
  exact ⟨first ++ rest, by rw [hz, hy, List.append_assoc], h.append hfirst hrest⟩

theorem moves_unnoted {act : Act σ α} (h : act.Moves (P [])) : (unnoted act).Moves (Grown P) :=
  fun s => ⟨[], (List.append_nil _).symm, h (s.withOutside s.outside.1)⟩

/-- Something holds of every call that a step makes. -/
def Operation.Obeys (P : List Call → σ → σ → Prop) (operation : Operation) (about : String)
    (act : Act σ α) : Prop :=
  ∀ s, P [operation.call about act s] s.outside (act s).2.outside

theorem Operation.Obeys.moves {operation : Operation} {about : String} {act : Act σ α}
    (h : operation.Obeys P about act) : (operation.noted about act).Moves (Grown P) :=
  fun s => ⟨_, rfl, h (s.withOutside s.outside.1)⟩

/-- What holds of the steps between the two records of a run holds of all of them together. -/
theorem pipeline_moves (hP : Additive P) {equipment : Equipment σ}
    (hbuild : ∀ run ∈ equipment.build, ∀ dir args, (run dir args).Moves (P []))
    (hsources : ∀ read ∈ equipment.sources, ∀ root packages, (read root packages).Moves (P []))
    (hfind : ∀ registry ∈ equipment.registry, ∀ fingerprint,
      Operation.find.Obeys P fingerprint (registry.find? fingerprint))
    (hsave : ∀ registry ∈ equipment.registry, ∀ id g,
      Operation.save.Obeys P id (registry.save id g))
    (id repoRoot outputDir : String) (request : Request) :
    (pipeline equipment.noted id repoRoot outputDir request).Moves (Grown P) := by
  refine (made_pipeline ?_ ?_ ?_ ?_ id repoRoot outputDir request).moves hP.refl hP.trans
  · intro run hrun dir args
    obtain ⟨plain, hplain, rfl⟩ := Option.map_eq_some_iff.1 hrun
    exact .given (moves_unnoted (hbuild plain hplain dir args))
  · intro read hread root packages
    obtain ⟨plain, hplain, rfl⟩ := Option.map_eq_some_iff.1 hread
    exact .given (moves_unnoted (hsources plain hplain root packages))
  · intro registry hregistry fingerprint
    obtain ⟨plain, hplain, rfl⟩ := Option.map_eq_some_iff.1 hregistry
    exact .given (hfind plain hplain fingerprint).moves
  · intro registry hregistry id g
    obtain ⟨plain, hplain, rfl⟩ := Option.map_eq_some_iff.1 hregistry
    exact .given (hsave plain hplain id g).moves

end

/-! What becomes of a run -/

/-- What a run is once an operation on it has succeeded. -/
def Operation.status? : Operation → Option Status
  | .create => some .running
  | .find => none
  | .save => none
  | .finish => some .succeeded
  | .fail => some .failed

/-- What a run is after a call. One that fails changes nothing. -/
def Call.after (id : String) (before : Option Status) (c : Call) : Option Status :=
  if c.succeeded && c.about == id then c.operation.status?.or before else before

/-- What some calls have made of a run. -/
def recorded (id : String) (calls : List Call) : Option Status :=
  calls.foldl (Call.after id) none

theorem Call.after_of_status? {id : String} {before : Option Status} {c : Call}
    (h : c.operation.status? = none) : c.after id before = before := by
  simp [after, h]

/-- What is shown of a run after some calls is what they have made of it. -/
def Shown (id : String) (status : σ → Option Status) (calls : List Call) (x y : σ) : Prop :=
  status y = calls.foldl (Call.after id) (status x)

theorem additive_shown (id : String) (status : σ → Option Status) :
    Additive (Shown id status) where
  nil _ := rfl
  append {first rest x y z} hfirst hrest := by
    unfold Shown
    rw [List.foldl_append, ← hfirst]
    exact hrest

/-- A registry that shows what has become of a run. -/
structure Registry.Shows (registry : Registry σ) (id : String) (status : σ → Option Status) :
    Prop where
  create : ∀ r, r.status = .running →
    Operation.create.Obeys (Shown id status) r.id (registry.create r)
  find : ∀ fingerprint,
    Operation.find.Obeys (Shown id status) fingerprint (registry.find? fingerprint)
  save : ∀ other g, Operation.save.Obeys (Shown id status) other (registry.save other g)
  finish : ∀ other s, Operation.finish.Obeys (Shown id status) other (registry.finish other s)
  fail : ∀ other message,
    Operation.fail.Obeys (Shown id status) other (registry.fail other message)

/-- A registry that shows what has become of a run, with a build tool and a reader of sources that do
not touch it. -/
structure Equipment.Shows (equipment : Equipment σ) (id : String) (status : σ → Option Status) :
    Prop where
  build : ∀ run ∈ equipment.build, ∀ dir args, (run dir args).Moves (Shown id status [])
  sources : ∀ read ∈ equipment.sources, ∀ root packages,
    (read root packages).Moves (Shown id status [])
  registry : ∀ registry ∈ equipment.registry, registry.Shows id status

section

open Act

variable {equipment : Equipment σ} {id : String} {status : σ → Option Status}

theorem recordStart_shown (h : equipment.Shows id status) (runId repoRoot outputDir : String)
    (start : Time.Moment) (request : Request) :
    (recordStart equipment.noted runId repoRoot outputDir start request).Moves
      (Grown (Shown id status)) := by
  unfold recordStart Equipment.noted
  cases hregistry : equipment.registry with
  | none => exact fun _ => (additive_shown id status).refl _
  | some registry => exact ((h.registry registry hregistry).create _ rfl).moves

theorem openRun_shown (h : equipment.Shows id status) (request : Request) :
    (openRun equipment.noted request).Moves (Grown (Shown id status)) := by
  have hadditive := additive_shown id status
  unfold openRun
  refine .bind hadditive.trans (.still hadditive.refl fun _ => rfl) fun disk => ?_
  refine .bind hadditive.trans (.still hadditive.refl fun _ => rfl) fun runId => ?_
  refine .bind hadditive.trans (.still hadditive.refl fun _ => rfl) fun start => ?_
  refine .bind hadditive.trans (recordStart_shown h _ _ _ _ _) fun _ => ?_
  exact .still hadditive.refl fun _ => rfl

theorem recordSuccess_shown (h : equipment.Shows id status) (start : Time.Moment) (r : Result) :
    (recordSuccess equipment.noted start r).Moves (Grown (Shown id status)) := by
  have hadditive := additive_shown id status
  unfold recordSuccess Equipment.noted
  cases hregistry : equipment.registry with
  | none => exact .still hadditive.refl fun _ => rfl
  | some registry =>
    have hfinish := ((h.registry registry hregistry).finish r.runId r.summary).moves
    refine .bind hadditive.trans (.attempt hfinish) fun outcome => ?_
    cases outcome with
    | ok _ => exact .still hadditive.refl fun _ => rfl
    | error f => exact .still hadditive.refl fun _ => rfl

theorem recordFailure_shown (h : equipment.Shows id status) (runId : String) (f : Failure) :
    (recordFailure equipment.noted runId f).Moves (Grown (Shown id status)) := by
  have hadditive := additive_shown id status
  unfold recordFailure Equipment.noted
  refine .bind hadditive.trans (.still hadditive.refl fun _ => rfl) fun _ => ?_
  cases hregistry : equipment.registry with
  | none => exact .still hadditive.refl fun _ => rfl
  | some registry =>
    have hfail := ((h.registry registry hregistry).fail runId f.text).moves
    refine .bind hadditive.trans (.attempt (.patiently hfail)) fun outcome => ?_
    cases outcome with
    | ok _ => exact .still hadditive.refl fun _ => rfl
    | error g => exact .still hadditive.refl fun _ => rfl

/-- What is shown of a run after an analysis is what its calls have made of it. -/
theorem analyze_shown (h : equipment.Shows id status) (request : Request) :
    (analyze equipment.noted request).Moves (Grown (Shown id status)) := by
  have hadditive := additive_shown id status
  have hpipeline (runId repoRoot outputDir : String) :=
    pipeline_moves hadditive h.build h.sources
      (fun registry hregistry => (h.registry registry hregistry).find)
      (fun registry hregistry => (h.registry registry hregistry).save)
      runId repoRoot outputDir request
  unfold analyze
  cases request.fault? with
  | some f => exact .still hadditive.refl fun _ => rfl
  | none =>
    refine .bind hadditive.trans (openRun_shown h request) fun opening => ?_
    refine .bind hadditive.trans (.attempt (hpipeline _ _ _)) fun outcome => ?_
    cases outcome with
    | ok r => exact recordSuccess_shown h _ r
    | error f =>
      exact .bind hadditive.trans (recordFailure_shown h _ f) fun _ =>
        .still hadditive.refl fun _ => rfl

end

/-! An open file of runs -/

/-- What an open file of runs says of a run. -/
def statusIn (id : String) (c : Connection) : Option Status :=
  c.database.bind fun db => (db.run? id).map (·.status)

theorem shown_of_error {id about : String} {status : σ → Option Status} {operation : Operation}
    {act : Act σ α} {s t : Session σ} {f : Failure} (h : act s = (.error f, t))
    (ht : t.outside = s.outside) :
    Shown id status [operation.call about act s] s.outside (act s).2.outside := by
  rw [Shown, h, ht, Operation.call, h]
  rfl

theorem shown_of_ok {id about : String} {status : σ → Option Status} {operation : Operation}
    {made : Status} (hoperation : operation.status? = some made) {act : Act σ α} {s t : Session σ}
    {a : α} (h : act s = (.ok a, t)) (hown : about = id → status t.outside = some made)
    (hother : about ≠ id → status t.outside = status s.outside) :
    Shown id status [operation.call about act s] s.outside (act s).2.outside := by
  rw [Shown, h, Operation.call, h, List.foldl_cons, List.foldl_nil, Call.after]
  by_cases habout : about = id
  · simp [habout, hoperation, hown habout, Except.isOk, Except.toBool]
  · simp [habout, hother habout]

/-- An operation that is refused if the file is closed or the user has asked to stop, and otherwise
goes as told. -/
theorem shown_of_open {id about : String} {operation : Operation} {act : Act Connection α}
    (hrefused : ∀ s, s.outside.database = none ∨ s.patience.isExhausted = true →
      ∃ f t, act s = (.error f, t) ∧ t.outside = s.outside)
    (hopen : ∀ s db, s.outside.database = some db → s.patience.isExhausted = false →
      Shown id (statusIn id) [operation.call about act s] s.outside (act s).2.outside) :
    operation.Obeys (Shown id (statusIn id)) about act := by
  intro s
  by_cases h : s.outside.database = none ∨ s.patience.isExhausted = true
  · obtain ⟨f, t, hrun, ht⟩ := hrefused s h
    exact shown_of_error hrun ht
  · obtain ⟨hdb, hlive⟩ := not_or.1 h
    obtain ⟨db, hdb⟩ := Option.ne_none_iff_exists'.1 hdb
    exact hopen s db hdb (by simpa using hlive)

theorem shown_create (id : String) {r : Run} (hr : r.status = .running) :
    Operation.create.Obeys (Shown id (statusIn id)) r.id (Connection.create r) := by
  refine shown_of_open ?_ ?_
  · intro s hs
    obtain ⟨r', clock, hstarted, -⟩ := Connection.started_run r s
    obtain ⟨f, hopened⟩ := Connection.opened_of_refused (s := { s with clock }) hs
      (Connection.during "failed to create run")
    rw [Connection.create, Act.bind_of_ok hstarted, Act.bind_of_error hopened]
    exact ⟨f, _, rfl, rfl⟩
  · intro s db hopen hlive
    cases hhas : db.hasRun r.id with
    | true =>
      obtain ⟨f, t, hrun, -, houtside⟩ := Connection.create_of_hasRun hopen hlive hhas
      exact shown_of_error hrun houtside
    | false =>
      obtain ⟨r', t, hrun, hid, -, houtside, hstatus, -⟩ :=
        Connection.create_of_unused hopen hlive hhas
      have hafter : statusIn id t.outside =
          ((db.run? id).or (if r'.id = id then some (.ofRun r') else none)).map (·.status) := by
        rw [houtside]
        exact congrArg (Option.map (·.status)) (db.run?_concat (.ofRun r') id)
      rw [hid] at hafter
      refine shown_of_ok rfl hrun ?_ ?_
      · rintro rfl
        have hnone : db.run? r.id = none := by simpa [Database.hasRun] using hhas
        rw [hafter, hnone, if_pos rfl]
        simp [RunRow.ofRun, hstatus, hr]
      · intro hne
        rw [hafter, if_neg hne, Option.or_none, statusIn, hopen]
        rfl

/-- An operation that changes what is said of one run. -/
theorem shown_updating (id about : String) {operation : Operation} {made : Status}
    (hoperation : operation.status? = some made)
    {change : Time.Moment → RunRow → RunRow} (hid : ∀ at_ row, (change at_ row).id = row.id)
    (hmade : ∀ at_ row, (change at_ row).status = made) :
    operation.Obeys (Shown id (statusIn id)) about (Connection.updating about change) := by
  refine shown_of_open ?_ ?_
  · intro s hs
    obtain ⟨f, hopened⟩ := Connection.opened_of_refused (s := { s with clock := s.clock.tick }) hs
      (Connection.during "failed to update run")
    rw [Connection.updating, Act.bind_of_ok (Act.now_run s), Act.bind_of_error hopened]
    exact ⟨f, _, rfl, rfl⟩
  · intro s db hopen hlive
    cases hhas : db.hasRun about with
    | false =>
      obtain ⟨f, t, hrun, -, houtside⟩ := Connection.updating_of_unknown hopen hlive hhas change
      exact shown_of_error hrun houtside
    | true =>
      obtain ⟨t, hrun, -, houtside⟩ := Connection.updating_of_hasRun hopen hlive hhas change
      have hafter : statusIn id t.outside =
          (Function.update db.run? about ((db.run? about).map (change s.clock)) id).map
            (·.status) := by
        rw [houtside, ← Database.run?_changed db about (hid s.clock)]
        rfl
      refine shown_of_ok hoperation hrun ?_ ?_
      · rintro rfl
        obtain ⟨row, hrow⟩ := Option.isSome_iff_exists.1 hhas
        rw [hafter, Function.update_self, hrow]
        exact congrArg some (hmade s.clock row)
      · intro hne
        rw [hafter, Function.update_of_ne (Ne.symm hne), statusIn, hopen]
        rfl

theorem shown_find (id fingerprint : String) :
    Operation.find.Obeys (Shown id (statusIn id)) fingerprint (Connection.find? fingerprint) := by
  refine shown_of_open ?_ ?_
  · intro s hs
    obtain ⟨f, hopened⟩ := Connection.opened_of_refused hs (Connection.during "failed to read run")
    rw [Connection.find?, Act.bind_of_error hopened]
    exact ⟨f, s, rfl, rfl⟩
  · intro s db hopen hlive
    rw [Shown, List.foldl_cons, List.foldl_nil, Call.after_of_status? rfl, Connection.find?,
      Act.bind_of_ok (Connection.opened_run hopen hlive _)]
    rfl

theorem shown_save (id other : String) (g : ClassGraph) :
    Operation.save.Obeys (Shown id (statusIn id)) other (Connection.save other g) := by
  refine shown_of_open ?_ ?_
  · intro s hs
    obtain ⟨f, hopened⟩ := Connection.opened_of_refused hs fun cause =>
      Connection.during "failed to save graph" (.wrapped "failed to begin transaction" cause)
    rw [Connection.save, Act.bind_of_error hopened]
    exact ⟨f, s, rfl, rfl⟩
  · intro s db hopen hlive
    rw [Shown, List.foldl_cons, List.foldl_nil, Call.after_of_status? rfl]
    cases hsave : (Database.saveStatements other g).foldlM Database.execute db with
    | ok db' =>
      obtain ⟨-, rfl⟩ := Database.foldlM_saveStatements_eq_ok.1 hsave
      obtain ⟨t, hrun, -, houtside⟩ := Connection.save_of_ok hopen hlive hsave
      rw [hrun, houtside, statusIn, statusIn, hopen]
      rfl
    | error c =>
      obtain ⟨f, t, hrun, -, houtside, -⟩ := Connection.save_of_error hopen hlive hsave
      rw [hrun, houtside]

theorem shows_ofConnection {get : σ → Connection} {put : Connection → σ → σ}
    (hput : ∀ c x, get (put c x) = c) (id : String) :
    (Registry.ofConnection get put).Shows id fun x => statusIn id (get x) := by
  -- An operation on a part of the outside does to that part what it does to a whole.
  have hfocus {α : Type} {operation : Operation} {about : String} {act : Act Connection α}
      (h : operation.Obeys (Shown id (statusIn id)) about act) :
      operation.Obeys (Shown id fun x => statusIn id (get x)) about (Act.focus get put act) := by
    intro s
    have hact := h (s.withOutside (get s.outside))
    exact (congrArg (statusIn id) (hput _ _)).trans hact
  exact {
    create := fun r hr => hfocus (shown_create id hr)
    find := fun fingerprint => hfocus (shown_find id fingerprint)
    save := fun other g => hfocus (shown_save id other g)
    finish := fun other _ => hfocus (shown_updating id other rfl (fun _ _ => rfl) fun _ _ => rfl)
    fail := fun other _ => hfocus (shown_updating id other rfl (fun _ _ => rfl) fun _ _ => rfl) }

end ClassAtlas.Analysis
