import ClassAtlas.Session

/-!
Steps of an analysis one after the other. A step that keeps aside leaves a part of what is outside
as it was, does not use up patience that is endless, and fails without details. Steps that keep
aside do so together, whatever they do to the disk, the reports and the rest of the outside.
-/
namespace ClassAtlas

variable {σ τ α β : Type}

/-- A session that nothing stops and that has nothing but a disk. -/
def Session.onDisk (root : File.Node) : Session Unit where
  disk := ⟨root, []⟩
  environment := []
  patience := .endless
  journal := []
  clock := default
  identifiers := fun _ => ""
  issued := 0
  outside := ()

@[simp] theorem Patience.isExhausted_endless : endless.isExhausted = false := rfl

@[simp] theorem Patience.ask_endless : endless.ask = endless := rfl

theorem exists_eq_ok_of_any {ε : Type} {x : Except ε α} {p : α → Bool}
    (h : x.toOption.any p = true) : ∃ a, x = .ok a ∧ p a = true := by
  cases x with
  | error e => cases h
  | ok a => exact ⟨a, rfl, h⟩

namespace Act

theorem bind_run (act : Act σ α) (f : α → Act σ β) (s : Session σ) :
    (act >>= f) s = ExceptT.bindCont f (act s).1 (act s).2 := rfl

theorem bind_of_ok {act : Act σ α} {s t : Session σ} {a : α} (h : act s = (.ok a, t))
    (f : α → Act σ β) : (act >>= f) s = f a t := by
  rw [bind_run, h]
  rfl

theorem bind_of_error {act : Act σ α} {s t : Session σ} {e : Failure} (h : act s = (.error e, t))
    (f : α → Act σ β) : (act >>= f) s = (.error e, t) := by
  rw [bind_run, h]
  rfl

theorem bind_eq_ok {act : Act σ α} {f : α → Act σ β} {s s' : Session σ} {b : β} :
    (act >>= f) s = (.ok b, s') ↔ ∃ a t, act s = (.ok a, t) ∧ f a t = (.ok b, s') := by
  cases h : act s with
  | mk outcome t =>
    cases outcome with
    | error e =>
      rw [bind_of_error h]
      constructor
      · rintro ⟨⟩
      · rintro ⟨_, _, ⟨⟩, _⟩
    | ok a =>
      rw [bind_of_ok h]
      constructor
      · exact fun hf => ⟨a, t, rfl, hf⟩
      · rintro ⟨_, _, ⟨⟩, hf⟩
        exact hf

theorem exists_of_isOk (act : Act σ α) (s : Session σ) (h : (act s).1.isOk = true) :
    ∃ a s', act s = (.ok a, s') := by
  cases hact : act s with
  | mk outcome s' =>
    cases outcome with
    | error e =>
      rw [hact] at h
      exact absurd h (by simp [Except.isOk, Except.toBool])
    | ok a => exact ⟨a, s', rfl⟩

theorem exists_ok_of_any (act : Act σ α) (s : Session σ) (p : α → Bool)
    (h : (act s).1.toOption.any p = true) : ∃ a s', act s = (.ok a, s') ∧ p a = true := by
  obtain ⟨a, hok, ha⟩ := exists_eq_ok_of_any h
  exact ⟨a, (act s).2, Prod.ext hok rfl, ha⟩

theorem session_run (s : Session σ) : session s = (.ok s, s) := rfl

theorem disk_run (s : Session σ) : disk s = (.ok s.disk, s) := rfl

theorem log_run (r : Log.Record) (s : Session σ) :
    log r s = (.ok (), { s with journal := s.journal ++ [r] }) := rfl

theorem now_run (s : Session σ) : now s = (.ok s.clock, { s with clock := s.clock.tick }) := rfl

theorem freshIdentifier_run (s : Session σ) :
    freshIdentifier s = (.ok (s.identifiers s.issued), { s with issued := s.issued + 1 }) := rfl

theorem attempt_run (act : Act σ α) (s : Session σ) :
    attempt act s = (.ok (act s).1, (act s).2) := rfl

theorem describing_of_ok {act : Act σ α} {s t : Session σ} {a : α} (h : act s = (.ok a, t))
    (describe : Failure → Failure) : describing describe act s = (.ok a, t) := by
  simp only [describing, h]
  rfl

theorem describing_of_error {act : Act σ α} {s t : Session σ} {f : Failure}
    (h : act s = (.error f, t)) (describe : Failure → Failure) :
    describing describe act s = (.error (describe f), t) := by
  simp only [describing, h]
  rfl

theorem patiently_run (act : Act σ α) {s : Session σ} (hs : s.patience = .endless) :
    patiently act s = ((act s).1, { (act s).2 with patience := .endless }) := by
  obtain ⟨disk, environment, patience, journal, clock, identifiers, issued, outside⟩ := s
  cases hs
  rfl

theorem focus_of_run {get : σ → τ} {put : τ → σ → σ} {act : Act τ α} {s : Session σ}
    {outcome : Except Failure α} {t : Session τ}
    (h : act (s.withOutside (get s.outside)) = (outcome, t)) :
    focus get put act s = (outcome, t.withOutside (put t.outside s.outside)) := by
  simp only [focus, h]

/-- A step that gives a value and does nothing but report. -/
def Reports (act : Act σ α) (s : Session σ) (a : α) : Prop :=
  ∃ journal, act s = (.ok a, { s with journal })

theorem Reports.pure (a : α) (s : Session σ) : (Pure.pure a : Act σ α).Reports s a :=
  ⟨s.journal, rfl⟩

theorem Reports.disk (s : Session σ) : (Act.disk : Act σ File.Disk).Reports s s.disk := ⟨s.journal, rfl⟩

theorem Reports.log (r : Log.Record) (s : Session σ) : (Act.log r).Reports s () := ⟨_, rfl⟩

theorem Reports.bind {act : Act σ α} {f : α → Act σ β} {s : Session σ} {a : α} {b : β}
    (h : act.Reports s a) (hf : ∀ journal, (f a).Reports { s with journal } b) :
    (act >>= f).Reports s b := by
  obtain ⟨journal, hact⟩ := h
  obtain ⟨journal', hnext⟩ := hf journal
  exact ⟨journal', (bind_of_ok hact f).trans hnext⟩

/-- What a step gives and leaves behind, if it keeps aside from a part of the outside. -/
structure KeptAside (view : σ → τ) (s : Session σ) (result : Except Failure α × Session σ) :
    Prop where
  patience : result.2.patience = .endless
  outside : view result.2.outside = view s.outside
  details : ∀ f, result.1 = .error f → f.details? = none

theorem KeptAside.ok {view : σ → τ} {s t : Session σ} {a : α} (hpatience : t.patience = .endless)
    (houtside : view t.outside = view s.outside) : KeptAside view s (.ok a, t) :=
  ⟨hpatience, houtside, fun _ h => by cases h⟩

/-- A step that keeps aside from a part of the outside, while the user does not want to stop. -/
def Aside (view : σ → τ) (act : Act σ α) : Prop :=
  ∀ s, s.patience = .endless → KeptAside view s (act s)

namespace Aside

variable {view : σ → τ}

theorem pure (a : α) : Aside view (pure a : Act σ α) := fun _ hs => .ok hs rfl

theorem bind {act : Act σ α} {f : α → Act σ β} (hact : Aside view act)
    (hf : ∀ a, Aside view (f a)) : Aside view (act >>= f) := by
  intro s hs
  have hfirst := hact s hs
  cases h : act s with
  | mk outcome t =>
    rw [h] at hfirst
    cases outcome with
    | error e =>
      rw [bind_of_error h]
      exact ⟨hfirst.patience, hfirst.outside, fun f hf => by cases hf; exact hfirst.details e rfl⟩
    | ok a =>
      rw [bind_of_ok h]
      have hrest := hf a t hfirst.patience
      exact ⟨hrest.patience, hrest.outside.trans hfirst.outside, hrest.details⟩

theorem session : Aside view (session : Act σ (Session σ)) := fun _ hs => .ok hs rfl

theorem disk : Aside view (disk : Act σ File.Disk) := fun _ hs => .ok hs rfl

theorem setDisk (d : File.Disk) : Aside view (setDisk d) := fun _ hs => .ok hs rfl

theorem log (r : Log.Record) : Aside view (log r) := fun _ hs => .ok hs rfl

theorem logAll (rs : List Log.Record) : Aside view (logAll rs) := fun _ hs => .ok hs rfl

theorem fail {f : Failure} (h : f.details? = none) : Aside view (fail f : Act σ α) :=
  fun _ hs => ⟨hs, rfl, fun _ hf => by cases hf; exact h⟩

theorem checkpoint : Aside view checkpoint := by
  intro s hs
  have hrun : Act.checkpoint s = (.ok (), s) := by
    obtain ⟨disk, environment, patience, journal, clock, identifiers, issued, outside⟩ := s
    cases hs
    rfl
  rw [hrun]
  exact .ok hs rfl

/-- A failure that is handed on as a value has no details to show. -/
theorem attempt {act : Act σ α} (h : Aside view act) : Aside view (attempt act) :=
  fun s hs => .ok (h s hs).patience (h s hs).outside

theorem focus {get : σ → τ} {put : τ → σ → σ} (hput : ∀ c x, get (put c x) = c) {act : Act τ α}
    (h : Aside id act) : Aside get (focus get put act) := by
  intro s hs
  have hact := h (s.withOutside (get s.outside)) hs
  exact ⟨hact.patience, (hput _ _).trans hact.outside, hact.details⟩

end Aside

/-- Steps that are put together from the basic ones and from steps of a kind that is given. What the
basic steps and the given ones do not do, such a step does not do either. -/
inductive Made (given : (α : Type) → Act σ α → Prop) : {α : Type} → Act σ α → Prop where
  | given {α : Type} {act : Act σ α} (h : given α act) : Made given act
  | pure {α : Type} (a : α) : Made given (Pure.pure a : Act σ α)
  | bind {α β : Type} {act : Act σ α} {f : α → Act σ β} (hact : Made given act)
    (hf : ∀ a, Made given (f a)) : Made given (act >>= f)
  | session : Made given Act.session
  | disk : Made given Act.disk
  | setDisk (d : File.Disk) : Made given (Act.setDisk d)
  | log (r : Log.Record) : Made given (Act.log r)
  | logAll (rs : List Log.Record) : Made given (Act.logAll rs)
  | fail {α : Type} {f : Failure} (h : f.details? = none) : Made given (Act.fail f : Act σ α)
  | checkpoint : Made given Act.checkpoint
  | attempt {α : Type} {act : Act σ α} (h : Made given act) : Made given (Act.attempt act)

/-- Steps that are made of ones that keep aside keep aside. -/
theorem Made.aside {view : σ → τ} {act : Act σ α} (h : Made (fun _ => Aside view) act) :
    Aside view act := by
  induction h with
  | given h => exact h
  | pure a => exact .pure a
  | bind _ _ hact hf => exact .bind hact hf
  | session => exact .session
  | disk => exact .disk
  | setDisk d => exact .setDisk d
  | log r => exact .log r
  | logAll rs => exact .logAll rs
  | fail h => exact .fail h
  | checkpoint => exact .checkpoint
  | attempt _ h => exact .attempt h

/-- A step that leaves what is outside in a relation to what it was, whether it succeeds or not and
whenever the user asks to stop. -/
def Moves (R : σ → σ → Prop) (act : Act σ α) : Prop := ∀ s, R s.outside (act s).2.outside

namespace Moves

variable {R : σ → σ → Prop}

theorem bind (htrans : ∀ x y z, R x y → R y z → R x z) {act : Act σ α} {f : α → Act σ β}
    (hact : Moves R act) (hf : ∀ a, Moves R (f a)) : Moves R (act >>= f) := by
  intro s
  have hfirst := hact s
  cases h : act s with
  | mk outcome t =>
    rw [h] at hfirst
    cases outcome with
    | error e =>
      rw [bind_of_error h]
      exact hfirst
    | ok a =>
      rw [bind_of_ok h]
      exact htrans _ _ _ hfirst (hf a t)

/-- A step that does not touch the outside. -/
theorem still (hrefl : ∀ x, R x x) {act : Act σ α} (h : ∀ s, (act s).2.outside = s.outside) :
    Moves R act := by
  intro s
  rw [h s]
  exact hrefl _

theorem attempt {act : Act σ α} (h : Moves R act) : Moves R (attempt act) := h

theorem patiently {act : Act σ α} (h : Moves R act) : Moves R (patiently act) :=
  fun s => h { s with patience := .endless }

end Moves

/-- Steps that are made of ones that move the outside along a relation do so too. -/
theorem Made.moves {R : σ → σ → Prop} (hrefl : ∀ x, R x x)
    (htrans : ∀ x y z, R x y → R y z → R x z) {act : Act σ α}
    (h : Made (fun _ => Moves R) act) : Moves R act := by
  induction h with
  | given h => exact h
  | bind _ _ hact hf => exact .bind htrans hact hf
  | attempt _ h => exact .attempt h
  | checkpoint =>
    apply Moves.still hrefl
    intro s
    unfold Act.checkpoint
    split <;> rfl
  | _ => exact .still hrefl fun _ => rfl

end Act
end ClassAtlas
