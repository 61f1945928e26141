import ClassAtlas.Proofs.Store.Runs
import ClassAtlas.Proofs.Text.Pieces
import ClassAtlas.Proofs.Time.Stamp

/-!
The registry of runs against a plain map from names to what is known of a run. The map is changed by
what the registry is asked to do, and not by how the registry keeps its rows: packages joined to one
text, times as texts, nothing in place of an empty text. After every history of changes, each answer
of the registry is the answer of the map.
-/
namespace ClassAtlas.Store

/-! What a history makes of a ledger -/

/-- A change that the registry is asked for. -/
inductive Change where
  | create (r : Run)
  | finish (id : String) (s : Summary)
  | fail (id message : String)

def Change.act : Change → Act Connection Unit
  | .create r => Connection.create r
  | .finish id s => Connection.finish id s
  | .fail id message => Connection.fail id message

/-- The session after changes one after the other, whether they succeed or not. -/
def Connection.perform (history : List Change) (s : Session Connection) : Session Connection :=
  history.foldl (fun s c => (c.act s).2) s

/-- What is known of a run apart from its end, with its start in universal time. -/
structure Facts where
  id : String
  repoRoot : String
  packages : List String
  status : Status
  start : Time.Moment
  outputDir : String
  fingerprint : String
  counts : Counts
  error : String
  deriving DecidableEq, Repr

def Run.facts (r : Run) : Facts :=
  ⟨r.id, r.repoRoot, r.acceptPackages.items, r.status, r.startedAt.toUtc, r.outputDir,
    r.fingerprint, r.counts, r.error⟩

namespace Facts

/-- A run as it is entered. Without a status it is running. -/
def entered (r : Run) : Facts :=
  { r.facts with
    status := if r.status.word.isEmpty then .running else r.status
    counts := .zero
    error := "" }

def finished (f : Facts) (s : Summary) : Facts :=
  { f with
    status := .succeeded
    outputDir := s.outputDir
    fingerprint := s.fingerprint
    counts := s.counts
    error := "" }

def failedWith (f : Facts) (message : String) : Facts :=
  { f with status := .failed, error := message }

/-- The later start comes first; runs that started together are in order of their names. -/
def Before (a b : Facts) : Prop :=
  b.start.precedes a.start = true ∨ a.start = b.start ∧ a.id < b.id

/-- A run that succeeded over the classes of a fingerprint. -/
def Offers (f : Facts) (fingerprint : String) : Prop :=
  f.status = .succeeded ∧ f.fingerprint = fingerprint

end Facts

/-- What is known of the run of each name, if there is one. -/
abbrev Ledger := String → Option Facts

namespace Ledger

/-- A run is entered under a new name, and ended under a known one. -/
def accepts (l : Ledger) : Change → Bool
  | .create r => (l r.id).isNone
  | .finish id _ => (l id).isSome
  | .fail id _ => (l id).isSome

/-- What a change makes of a ledger that accepts it. -/
def put (l : Ledger) : Change → Ledger
  | .create r => Function.update l r.id (some (.entered r))
  | .finish id s => Function.update l id ((l id).map (·.finished s))
  | .fail id message => Function.update l id ((l id).map (·.failedWith message))

/-- A change that is not accepted changes nothing. -/
def after (l : Ledger) (c : Change) : Ledger := if l.accepts c then l.put c else l

def ofHistory (history : List Change) : Ledger := history.foldl after fun _ => none

/-- All runs of a ledger, in order. -/
structure Lists (l : Ledger) (all : List Facts) : Prop where
  order : all.Pairwise Facts.Before
  mem : ∀ id f, l id = some f ↔ f ∈ all ∧ f.id = id

/-- A latest run with a fingerprint, or nothing if there is none. -/
def Latest (l : Ledger) (fingerprint : String) : Option Facts → Prop
  | none => ∀ id f, l id = some f → ¬ f.Offers fingerprint
  | some best => l best.id = some best ∧ best.Offers fingerprint ∧
      ∀ id f, l id = some f → f.Offers fingerprint → best.start.precedes f.start = false

end Ledger

/-- A run is entered with its start, which has a year of four digits, and with packages that can be
told apart once they are joined by commas. -/
def Change.Plain : Change → Prop
  | .create r => r.startedAt.isZero = false ∧ r.startedAt.FourDigitYear ∧
      ∀ package ∈ r.acceptPackages.items, package ≠ "" ∧ ',' ∉ package.toList
  | .finish _ _ => True
  | .fail _ _ => True

instance : DecidablePred Change.Plain
  | .create _ => inferInstanceAs (Decidable (_ ∧ _ ∧ _))
  | .finish _ _ => .isTrue trivial
  | .fail _ _ => .isTrue trivial

/-! What is kept of a run can be read back -/

theorem readPackages_packagesText {packages : List String}
    (h : ∀ package ∈ packages, package ≠ "" ∧ ',' ∉ package.toList) :
    readPackages (packagesText packages) = packages := by
  cases packages with
  | nil => rfl
  | cons first more =>
    have hsplit := Text.splitOn_join (List.cons_ne_nil first more) fun name hname => (h name hname).2
    have hfirst := (h first List.mem_cons_self).1
    obtain ⟨c, hc⟩ := List.exists_mem_of_ne_nil _ (mt String.toList_eq_nil_iff.1 hfirst)
    have htext : packagesText (first :: more) ≠ "" := by
      intro hempty
      have hmem : c ∈ (packagesText (first :: more)).toList :=
        Text.mem_toList_join_of_mem List.mem_cons_self hc
      rw [hempty] at hmem
      exact List.not_mem_nil hmem
    rw [readPackages, if_neg (by simpa using htext)]
    exact hsplit

namespace RunRow

/-- A row whose start is kept as a text from which it can be read. -/
structure Dated (row : RunRow) : Prop where
  year : row.run.startedAt.FourDigitYear
  stamp : row.startedAt = row.run.startedAt.stamp

theorem run_ofRun {r : Run} (h : r.startedAt.FourDigitYear) :
    (ofRun r).run.startedAt = r.startedAt.toUtc := by
  simp [run, ofRun, Time.Moment.ofStamp?_stamp h]

theorem dated_ofRun {r : Run} (h : r.startedAt.FourDigitYear) : (ofRun r).Dated := by
  have hread := run_ofRun h
  constructor
  · rw [hread]
    exact ⟨h.year, h.nanos⟩
  · rw [hread]
    rfl

theorem facts_ofRun {r : Run} (h : (Change.create r).Plain) : (ofRun r).run.facts = .entered r := by
  obtain ⟨-, hyear, hpackages⟩ := h
  have hitems : (ofRun r).run.acceptPackages.items = r.acceptPackages.items :=
    readPackages_packagesText hpackages
  simp only [Run.facts, run_ofRun hyear, hitems]
  simp [run, ofRun, Facts.entered, Run.facts, Time.Moment.toUtc]

theorem facts_finished (row : RunRow) (at_ : Time.Moment) (s : Summary) :
    (row.finished at_ s).run.facts = row.run.facts.finished s := by
  simp [run, finished, Run.facts, Facts.finished]

theorem facts_failedWith (row : RunRow) (at_ : Time.Moment) (message : String) :
    (row.failedWith at_ message).run.facts = row.run.facts.failedWith message := by
  simp [run, failedWith, Run.facts, Facts.failedWith]

/-- The order of the rows, told by what is known of the runs. -/
theorem before_of_precedes {a b : RunRow} (ha : a.Dated) (hb : b.Dated) (hid : a.id ≠ b.id)
    (h : a.precedes b = true) : a.run.facts.Before b.run.facts := by
  simp only [precedes, Bool.or_eq_true, Bool.and_eq_true, decide_eq_true_eq, beq_iff_eq] at h
  rw [ha.stamp, hb.stamp] at h
  rcases h with hlater | ⟨hsame, hle⟩
  · exact .inl ((Time.Moment.stamp_lt_iff hb.year ha.year).1 hlater)
  · exact .inr ⟨(Time.Moment.stamp_inj ha.year hb.year).1 hsame, lt_of_le_of_ne hle hid⟩

theorem precedes_total (a b : RunRow) : (a.precedes b || b.precedes a) = true := by
  simp only [precedes, Bool.or_eq_true, Bool.and_eq_true, decide_eq_true_eq, beq_iff_eq]
  rcases lt_trichotomy a.startedAt b.startedAt with h | h | h
  · exact .inr (.inl h)
  · exact (le_total a.id b.id).imp (fun hle => .inr ⟨h, hle⟩) fun hle => .inr ⟨h.symm, hle⟩
  · exact .inl (.inl h)

theorem precedes_trans (a b c : RunRow) (hab : a.precedes b = true) (hbc : b.precedes c = true) :
    a.precedes c = true := by
  simp only [precedes, Bool.or_eq_true, Bool.and_eq_true, decide_eq_true_eq, beq_iff_eq] at *
  rcases hab with hab | ⟨hab, hle⟩
  · rcases hbc with hbc | ⟨hbc, -⟩
    · exact .inl (hbc.trans hab)
    · exact .inl (hbc ▸ hab)
  · rw [hab]
    rcases hbc with hbc | ⟨hbc, hle'⟩
    · exact .inl hbc
    · exact .inr ⟨hbc, hle.trans hle'⟩

end RunRow

/-! One step of the registry -/

namespace Database

/-- The registry holds what a ledger tells, each run under a name of its own. -/
structure Refines (db : Database) (l : Ledger) : Prop where
  names : (db.runs.map (·.id)).Nodup
  dated : ∀ row ∈ db.runs, row.Dated
  facts : ∀ id, l id = (db.run? id).map (·.run.facts)

theorem id_of_run? {db : Database} {id : String} {row : RunRow} (h : db.run? id = some row) :
    row.id = id := by
  simpa using List.find?_some h

/-- A change that keeps names is seen at its own name only. -/
theorem run?_changed (db : Database) (id : String) {change : RunRow → RunRow}
    (hid : ∀ row, (change row).id = row.id) :
    (db.changed id change).run? = Function.update db.run? id ((db.run? id).map change) := by
  funext other
  have hkeep : (fun row : RunRow => (if row.id == id then change row else row).id == other) =
      fun row => row.id == other := by
    funext row
    split <;> simp [hid]
  have hfind : (db.changed id change).run? other =
      (db.run? other).map fun row => if row.id == id then change row else row := by
    simp only [run?, changed, List.find?_map, Function.comp_def, hkeep]
  rw [hfind]
  by_cases h : other = id
  · subst other
    rw [Function.update_self]
    cases hrun : db.run? id with
    | none => rfl
    | some row => simp [id_of_run? hrun]
  · rw [Function.update_of_ne h]
    cases hrun : db.run? other with
    | none => rfl
    | some row => simp [id_of_run? hrun, h]

namespace Refines

variable {db : Database} {l : Ledger}

theorem empty : Refines .empty fun _ => none :=
  ⟨List.nodup_nil, fun _ h => absurd h List.not_mem_nil, fun _ => rfl⟩

theorem hasRun (h : Refines db l) (id : String) : db.hasRun id = (l id).isSome := by
  simp [Database.hasRun, h.facts]

theorem create (h : Refines db l) {r : Run} (hplain : (Change.create r).Plain)
    (hnew : db.hasRun r.id = false) :
    Refines { db with runs := db.runs ++ [.ofRun r] } (l.put (.create r)) := by
  have hnone : db.run? r.id = none := by simpa [Database.hasRun] using hnew
  constructor
  · rw [List.map_append, List.nodup_append]
    refine ⟨h.names, List.nodup_singleton _, ?_⟩
    rintro id hid _ (hr | ⟨_, ⟨⟩⟩) rfl
    obtain ⟨row, hrow, hname⟩ := List.mem_map.1 hid
    exact absurd (hasRun_iff.2 ⟨row, hrow, hname⟩) (by simp [RunRow.ofRun, hnew])
  · intro row hrow
    rcases List.mem_append.1 hrow with hrow | hrow
    · exact h.dated row hrow
    · rw [List.mem_singleton.1 hrow]
      exact RunRow.dated_ofRun hplain.2.1
  · intro id
    have hown : (RunRow.ofRun r).id = r.id := rfl
    rw [run?_concat, hown]
    by_cases hid : id = r.id
    · subst id
      simp [Ledger.put, hnone, RunRow.facts_ofRun hplain]
    · simp [Ledger.put, hid, Ne.symm hid, h.facts]

theorem changed (h : Refines db l) (id : String) {change : RunRow → RunRow} {seen : Facts → Facts}
    (hid : ∀ row, (change row).id = row.id) (hstart : ∀ row, (change row).startedAt = row.startedAt)
    (hseen : ∀ row, (change row).run.facts = seen row.run.facts) :
    Refines (db.changed id change) (Function.update l id ((l id).map seen)) := by
  constructor
  · have hkeep : ∀ row : RunRow, (if row.id == id then change row else row).id = row.id := by
      intro row
      split <;> simp [hid]
    simp only [Database.changed, List.map_map, Function.comp_def, hkeep]
    exact h.names
  · intro row hrow
    obtain ⟨old, hold, rfl⟩ := List.mem_map.1 hrow
    have hdated := h.dated old hold
    split
    · have hrun : (change old).run.startedAt = old.run.startedAt := by simp [RunRow.run, hstart]
      exact ⟨hrun ▸ hdated.year, by rw [hstart, hrun]; exact hdated.stamp⟩
    · exact hdated
  · intro other
    rw [run?_changed db id hid]
    by_cases hother : other = id
    · subst other
      simp [h.facts, Function.comp_def, hseen]
    · simp [hother, h.facts]

/-! What the registry answers -/

theorem get (h : Refines db l) (id : String) : (db.get id).toOption.map Run.facts = l id := by
  rw [h.facts, Database.get]
  cases db.run? id <;> rfl

theorem mem_iff (h : Refines db l) (id : String) (f : Facts) :
    l id = some f ↔ ∃ row ∈ db.runs, row.id = id ∧ row.run.facts = f := by
  rw [h.facts, Option.map_eq_some_iff]
  constructor
  · rintro ⟨row, hrow, hf⟩
    exact ⟨row, List.mem_of_find?_eq_some hrow, id_of_run? hrow, hf⟩
  · rintro ⟨row, hrow, rfl, hf⟩
    cases hfound : db.run? row.id with
    | none => exact absurd (beq_self_eq_true row.id) (List.find?_eq_none.1 hfound row hrow)
    | some other =>
      have hsame : other = row := List.inj_on_of_nodup_map h.names
        (List.mem_of_find?_eq_some hfound) hrow (id_of_run? hfound)
      exact ⟨other, rfl, hsame ▸ hf⟩

theorem lists (h : Refines db l) :
    l.Lists ((db.runs.mergeSort RunRow.precedes).map (·.run.facts)) := by
  have hperm := List.mergeSort_perm db.runs RunRow.precedes
  have hnames : (db.runs.mergeSort RunRow.precedes).Pairwise (·.id ≠ ·.id) :=
    List.pairwise_map.1 ((hperm.map RunRow.id).nodup_iff.2 h.names)
  have hdated : ∀ row ∈ db.runs.mergeSort RunRow.precedes, row.Dated :=
    fun row hrow => h.dated row (hperm.mem_iff.1 hrow)
  have horder := List.pairwise_mergeSort RunRow.precedes_trans RunRow.precedes_total db.runs
  constructor
  · rw [List.pairwise_map]
    apply (horder.and hnames).imp_of_mem
    intro a b ha hb hab
    exact RunRow.before_of_precedes (hdated a ha) (hdated b hb) hab.2 hab.1
  · intro id f
    rw [h.mem_iff, List.mem_map]
    constructor
    · rintro ⟨row, hrow, hid, rfl⟩
      exact ⟨⟨row, hperm.mem_iff.2 hrow, rfl⟩, hid⟩
    · rintro ⟨⟨row, hrow, rfl⟩, hid⟩
      exact ⟨row, hperm.mem_iff.1 hrow, hid, rfl⟩

end Refines

/-- Going through the rows keeps one with the latest start. -/
theorem foldl_laterRun (best : RunRow) (rows : List RunRow) :
    ∃ last, rows.foldl laterRun (some best) = some last ∧ last ∈ best :: rows ∧
      ∀ row ∈ best :: rows, ¬ last.startedAt < row.startedAt := by
  induction rows generalizing best with
  | nil =>
    refine ⟨best, rfl, List.mem_cons_self, ?_⟩
    intro row hrow
    rw [List.mem_singleton.1 hrow]
    exact lt_irrefl _
  | cons row more ih =>
    by_cases hlater : best.startedAt < row.startedAt
    · obtain ⟨last, hlast, hmem, hmax⟩ := ih row
      refine ⟨last, by simpa [laterRun, hlater] using hlast, List.mem_cons_of_mem _ hmem, ?_⟩
      apply List.forall_mem_cons.2 ⟨?_, hmax⟩
      intro hbest
      exact hmax row List.mem_cons_self (hbest.trans hlater)
    · obtain ⟨last, hlast, hmem, hmax⟩ := ih best
      refine ⟨last, by simpa [laterRun, hlater] using hlast, ?_, ?_⟩
      · rcases List.mem_cons.1 hmem with rfl | hmem
        · exact List.mem_cons_self
        · exact List.mem_cons_of_mem _ (List.mem_cons_of_mem _ hmem)
      · obtain ⟨hbest, hmore⟩ := List.forall_mem_cons.1 hmax
        have hrow : ¬ last.startedAt < row.startedAt := fun hrow =>
          hlater (lt_of_le_of_lt (not_lt.1 hbest) hrow)
        exact List.forall_mem_cons.2 ⟨hbest, List.forall_mem_cons.2 ⟨hrow, hmore⟩⟩

/-- A text that is not empty is kept as it is. -/
theorem offers_iff {row : RunRow} {fingerprint : String} (h : fingerprint ≠ "") :
    row.run.facts.Offers fingerprint ↔
      (row.fingerprint == some fingerprint && row.status == .succeeded) = true := by
  have hkept : row.fingerprint.getD "" = fingerprint ↔ row.fingerprint = some fingerprint := by
    cases row.fingerprint with
    | none => simp [Ne.symm h]
    | some text => simp
  simp [Facts.Offers, Run.facts, RunRow.run, hkept, and_comm]

theorem Refines.find? {db : Database} {l : Ledger} (h : Refines db l) {fingerprint : String}
    (hne : fingerprint ≠ "") : l.Latest fingerprint ((db.find? fingerprint).map Run.facts) := by
  unfold Database.find?
  have hmem : ∀ row, row ∈ (db.runs.filter fun row =>
      row.fingerprint == some fingerprint && row.status == .succeeded) ↔
        row ∈ db.runs ∧ row.run.facts.Offers fingerprint := by
    intro row
    rw [List.mem_filter, offers_iff hne]
  generalize (db.runs.filter fun row =>
      row.fingerprint == some fingerprint && row.status == .succeeded) = rows at hmem ⊢
  cases rows with
  | nil =>
    intro id f hf hoffers
    obtain ⟨row, hrow, -, rfl⟩ := (h.mem_iff id f).1 hf
    exact List.not_mem_nil ((hmem row).2 ⟨hrow, hoffers⟩)
  | cons first more =>
    obtain ⟨last, hlast, hin, hmax⟩ := foldl_laterRun first more
    obtain ⟨hrow, hoffers⟩ := (hmem last).1 hin
    have hfold : (first :: more).foldl laterRun none = some last := hlast
    rw [hfold]
    refine ⟨(h.mem_iff _ _).2 ⟨last, hrow, rfl, rfl⟩, hoffers, ?_⟩
    intro id f hf hother
    obtain ⟨row, hrow', -, rfl⟩ := (h.mem_iff id f).1 hf
    have hnot := hmax row ((hmem row).2 ⟨hrow', hother⟩)
    have hdated := h.dated last hrow
    have hdated' := h.dated row hrow'
    rw [hdated.stamp, hdated'.stamp, Time.Moment.stamp_lt_iff hdated.year hdated'.year] at hnot
    exact Bool.eq_false_iff.2 hnot

end Database

/-! Histories -/

namespace Connection

/-- A session that nothing stops, with an open registry that holds what a ledger tells. -/
structure Keeps (s : Session Connection) (l : Ledger) : Prop where
  patience : s.patience = .endless
  held : ∃ db, s.outside.database = some db ∧ db.Refines l

/-- What a change does: it succeeds exactly if the ledger accepts it, and otherwise changes nothing. -/
structure Follows (s : Session Connection) (l : Ledger) (c : Change) : Prop where
  keeps : Keeps (c.act s).2 (l.after c)
  accepted : (c.act s).1.isOk = l.accepts c
  refused : l.accepts c = false → (c.act s).2.outside = s.outside

namespace Keeps

variable {s : Session Connection} {l : Ledger}

theorem isLive (h : Keeps s l) : s.patience.isExhausted = false := by
  rw [h.patience]
  rfl

theorem opened_run (h : Keeps s l) : ∃ db, db.Refines l ∧
    ∀ describe, opened describe s = (.ok db, s) := by
  obtain ⟨db, hopen, hrefines⟩ := h.held
  refine ⟨db, hrefines, fun describe => ?_⟩
  have hsame : { s with patience := s.patience.ask } = s := by
    rw [h.patience, Patience.ask_endless, ← h.patience]
  rw [Connection.opened_run hopen h.isLive, hsame]

theorem followed (h : Keeps s l) {c : Change} {db : Database} {t : Session Connection}
    (hok : l.accepts c = true) (hrun : c.act s = (.ok (), t))
    (hpatience : t.patience = s.patience.ask)
    (houtside : t.outside = ⟨s.outside.path, some db⟩) (hdb : db.Refines (l.put c)) :
    Follows s l c := by
  constructor
  · rw [hrun, Ledger.after, if_pos hok]
    exact ⟨by rw [hpatience, h.patience]; rfl, db, by rw [houtside], hdb⟩
  · rw [hrun, hok]
    rfl
  · intro hnot
    rw [hok] at hnot
    cases hnot

theorem refused (h : Keeps s l) {c : Change} {f : Failure} {t : Session Connection}
    (hnot : l.accepts c = false) (hrun : c.act s = (.error f, t))
    (hpatience : t.patience = s.patience.ask) (houtside : t.outside = s.outside) :
    Follows s l c := by
  obtain ⟨db, hopen, hrefines⟩ := h.held
  constructor
  · rw [hrun, Ledger.after, if_neg (by simp [hnot])]
    exact ⟨by rw [hpatience, h.patience]; rfl, db, by rw [houtside, hopen], hrefines⟩
  · rw [hrun, hnot]
    rfl
  · intro _
    rw [hrun, houtside]

theorem step (h : Keeps s l) {c : Change} (hc : c.Plain) : Follows s l c := by
  obtain ⟨db, hopen, hrefines⟩ := h.held
  have hlive := h.isLive
  cases c with
  | create r =>
    have hknown := hrefines.hasRun r.id
    cases hhas : db.hasRun r.id with
    | false =>
      obtain ⟨r', t, hrun, -, hpatience, houtside, -, hsame⟩ :=
        create_of_unused hopen hlive hhas
      rw [hsame hc.1] at houtside
      exact h.followed (by simp [Ledger.accepts, ← Option.not_isSome, ← hknown, hhas]) hrun hpatience
        houtside (hrefines.create hc hhas)
    | true =>
      obtain ⟨f, t, hrun, hpatience, houtside⟩ := create_of_hasRun hopen hlive hhas
      exact h.refused (by simp [Ledger.accepts, ← Option.not_isSome, ← hknown, hhas]) hrun hpatience
        houtside
  | finish id summary =>
    have hknown := hrefines.hasRun id
    cases hhas : db.hasRun id with
    | false =>
      obtain ⟨f, t, hrun, hpatience, houtside⟩ :=
        updating_of_unknown hopen hlive hhas fun at_ row => row.finished at_ summary
      exact h.refused (hknown.symm.trans hhas) hrun hpatience houtside
    | true =>
      obtain ⟨t, hrun, hpatience, houtside⟩ :=
        updating_of_hasRun hopen hlive hhas fun at_ row => row.finished at_ summary
      exact h.followed (hknown.symm.trans hhas) hrun hpatience houtside
        (hrefines.changed id (fun _ => rfl) (fun _ => rfl) fun _ => RunRow.facts_finished _ _ _)
  | fail id message =>
    have hknown := hrefines.hasRun id
    cases hhas : db.hasRun id with
    | false =>
      obtain ⟨f, t, hrun, hpatience, houtside⟩ :=
        updating_of_unknown hopen hlive hhas fun at_ row => row.failedWith at_ message
      exact h.refused (hknown.symm.trans hhas) hrun hpatience houtside
    | true =>
      obtain ⟨t, hrun, hpatience, houtside⟩ :=
        updating_of_hasRun hopen hlive hhas fun at_ row => row.failedWith at_ message
      exact h.followed (hknown.symm.trans hhas) hrun hpatience houtside
        (hrefines.changed id (fun _ => rfl) (fun _ => rfl) fun _ => RunRow.facts_failedWith _ _ _)

theorem perform {history : List Change} (h : Keeps s l) (hplain : ∀ c ∈ history, c.Plain) :
    Keeps (perform history s) (history.foldl Ledger.after l) := by
  induction history generalizing s l with
  | nil => exact h
  | cons c more ih =>
    obtain ⟨hc, hmore⟩ := List.forall_mem_cons.1 hplain
    exact ih (h.step hc).keeps hmore

end Keeps

/-- After every history of an empty registry, the next change succeeds exactly if the ledger of the
history accepts it and otherwise changes nothing; a run is told as in the ledger; the runs are listed
in order; and the run of a fingerprint is a latest one that succeeded. -/
theorem registry_refines_ledger {s : Session Connection} (hopen : s.outside.database = some .empty)
    (hpatience : s.patience = .endless) {history : List Change} (hhistory : ∀ c ∈ history, c.Plain) :
    let t := perform history s
    let l := Ledger.ofHistory history
    (∀ c : Change, c.Plain → (c.act t).1.isOk = l.accepts c ∧
      (l.accepts c = false → (c.act t).2.outside = t.outside)) ∧
    (∀ id, (get id t).1.toOption.map Run.facts = l id) ∧
    (∃ all, l.Lists all ∧ ∀ limit : Int, ∃ runs, (list limit t).1 = .ok runs ∧
      runs.map Run.facts = all.take (if limit ≤ 0 then 20 else limit.toNat)) ∧
    (∀ fingerprint ≠ "", ∃ found, (find? fingerprint t).1 = .ok found ∧
      l.Latest fingerprint (found.map Run.facts)) := by
  intro t l
  have hkeeps : Keeps t l := Keeps.perform ⟨hpatience, _, hopen, .empty⟩ hhistory
  obtain ⟨db, hrefines, hopened⟩ := hkeeps.opened_run
  refine ⟨fun c hc => ?_, fun id => ?_, ⟨_, hrefines.lists, fun limit => ?_⟩,
    fun fingerprint hne => ?_⟩
  · have hstep := hkeeps.step hc
    exact ⟨hstep.accepted, hstep.refused⟩
  · rw [get, Act.bind_of_ok (hopened _), ← hrefines.get id]
    rfl
  · rw [list, Act.bind_of_ok (hopened _)]
    refine ⟨db.list limit, rfl, ?_⟩
    rw [Database.list, List.map_map, ← List.map_take]
    rfl
  · rw [find?, Act.bind_of_ok (hopened _)]
    exact ⟨_, rfl, hrefines.find? hne⟩

/-- Of two runs that start together one is entered again, succeeds and then fails; another one that
fails was never entered. -/
def twoEnds : List Change :=
  let run : Run :=
    { (default : Run) with
      id := "first"
      acceptPackages := some ["org.a", "org.b"]
      startedAt := ⟨1700000000, 250, 3600⟩ }
  [.create run, .create { run with id := "second" }, .create run,
    .finish "first" ⟨"out", "abc", ⟨3, 2, 1, 0⟩⟩, .fail "first" "late", .fail "third" "unknown"]

theorem registry_refines_ledger_twoEnds :
    (∀ c ∈ twoEnds, c.Plain) ∧
      (get "first" (perform twoEnds
        ((Session.onDisk (.dir [])).withOutside ⟨"runs.db", some .empty⟩))).1.toOption.map Run.facts =
        some ⟨"first", "", ["org.a", "org.b"], .failed, ⟨1700000000, 250, 0⟩, "out", "abc",
          ⟨3, 2, 1, 0⟩, "late"⟩ := by
  have hplain : ∀ c ∈ twoEnds, c.Plain := by decide +kernel
  refine ⟨hplain, ?_⟩
  rw [(registry_refines_ledger rfl rfl hplain).2.1 "first"]
  decide +kernel

end Connection
end ClassAtlas.Store
