import ClassAtlas.Proofs.Store.Save

/-!
The runs of a registry one by one: what it is to enter a run, and to change one. An open registry
that nothing stops enters a run whose name is new, and changes one that is there.
-/
namespace ClassAtlas.Store

@[simp] theorem getD_nullable (s : String) : (nullable s).getD "" = s := by
  by_cases h : s = "" <;> simp [nullable, h]

namespace Database

/-- A name that no run and no row of the registry has. -/
def Unused (db : Database) (id : String) : Prop := db.hasRun id = false ∧ db.entriesOf id = []

/-- A registry with one run more, and otherwise as it was. -/
structure Entered (db : Database) (r : RunRow) (db' : Database) : Prop where
  own : db'.runs.filter (·.id == r.id) = [r]
  runs : db'.runs.filter (·.id != r.id) = db.runs.filter (·.id != r.id)
  stored : db'.stored.filter (·.run != r.id) = db.stored.filter (·.run != r.id)

theorem hasRun_iff {db : Database} {id : String} :
    db.hasRun id = true ↔ ∃ r ∈ db.runs, r.id = id := by
  simp [hasRun, run?]

theorem Entered.hasRun {db db' : Database} {r : RunRow} (h : Entered db r db') :
    db'.hasRun r.id = true := by
  have hr : r ∈ db'.runs.filter (·.id == r.id) := by
    rw [h.own]
    exact List.mem_singleton_self r
  exact hasRun_iff.2 ⟨r, (List.mem_filter.1 hr).1, rfl⟩

theorem create_of_unused {db : Database} {r : Run} (h : db.hasRun r.id = false) :
    db.create r = .ok { db with runs := db.runs ++ [.ofRun r] } := by
  simp [create, h]

/-- A run that comes last is found if there is no other of its name. -/
theorem run?_concat (db : Database) (row : RunRow) (id : String) :
    ({ db with runs := db.runs ++ [row] } : Database).run? id =
      (db.run? id).or (if row.id = id then some row else none) := by
  rw [run?, List.find?_append, List.find?_singleton, run?]
  simp only [beq_iff_eq]

theorem entered_create {db : Database} {r : Run} (h : db.hasRun r.id = false) :
    Entered db (.ofRun r) { db with runs := db.runs ++ [.ofRun r] } := by
  have hnone : db.runs.filter (·.id == r.id) = [] := by
    rw [List.filter_eq_nil_iff]
    intro other hother hid
    rw [← Bool.not_eq_true, hasRun_iff] at h
    exact h ⟨other, hother, by simpa using hid⟩
  have hid : (RunRow.ofRun r).id = r.id := rfl
  constructor <;> simp [hid, hnone]

theorem Entered.saved {db db' : Database} {r : RunRow} (h : Entered db r db') (g : ClassGraph) :
    Entered db r (db'.saved r.id g) :=
  ⟨h.own, h.runs, (db'.stored_saved r.id g).trans h.stored⟩

/-- A registry with the run of a name changed. -/
def changed (db : Database) (id : String) (change : RunRow → RunRow) : Database :=
  { db with runs := db.runs.map fun r => if r.id == id then change r else r }

theorem update_of_hasRun {db : Database} {id : String} (h : db.hasRun id = true)
    (change : RunRow → RunRow) : db.update id change = .ok (db.changed id change) := by
  simp [update, h, changed]

theorem update_of_unknown {db : Database} {id : String} (h : db.hasRun id = false)
    (change : RunRow → RunRow) : db.update id change = .error (unknownRun id) := by
  simp [update, h]

theorem Entered.changed {db db' : Database} {r : RunRow} (h : Entered db r db')
    (change : RunRow → RunRow) (hid : ∀ r, (change r).id = r.id) :
    Entered db (change r) (db'.changed r.id change) := by
  have hkeep : ∀ other : RunRow,
      (if other.id == r.id then change other else other).id = other.id := by
    intro other
    split
    · exact hid other
    · rfl
  constructor
  · calc (db'.changed r.id change).runs.filter (·.id == (change r).id)
        = (db'.runs.filter (·.id == r.id)).map fun o => if o.id == r.id then change o else o := by
          simp only [Database.changed, List.filter_map, Function.comp_def, hkeep, hid]
      _ = [change r] := by simp [h.own]
  · calc (db'.changed r.id change).runs.filter (·.id != (change r).id)
        = (db'.runs.filter (·.id != r.id)).map fun o => if o.id == r.id then change o else o := by
          simp only [Database.changed, List.filter_map, Function.comp_def, hkeep, hid]
      _ = db'.runs.filter (·.id != r.id) := by
          refine (List.map_congr_left fun o ho => ?_).trans (List.map_id _)
          have hne : o.id ≠ r.id := by simpa using (List.mem_filter.1 ho).2
          simp [hne]
      _ = db.runs.filter (·.id != (change r).id) := by rw [h.runs, hid]
  · rw [hid]
    exact h.stored

end Database

namespace Connection

theorem started_run (r : Run) (s : Session Connection) :
    ∃ r' clock, started r s = (.ok r', { s with clock }) ∧ r'.id = r.id ∧ r'.status = r.status ∧
      (r.startedAt.isZero = false → r' = r) := by
  unfold started
  split
  · next hzero => exact ⟨_, _, rfl, rfl, rfl, fun h => by simp [h] at hzero⟩
  · exact ⟨r, s.clock, rfl, rfl, rfl, fun _ => rfl⟩

theorem create_of_unused {s : Session Connection} {db : Database} {r : Run}
    (hopen : s.outside.database = some db) (hlive : s.patience.isExhausted = false)
    (h : db.hasRun r.id = false) :
    ∃ r' t, create r s = (.ok (), t) ∧ r'.id = r.id ∧ t.patience = s.patience.ask ∧
      t.outside = ⟨s.outside.path, some { db with runs := db.runs ++ [.ofRun r'] }⟩ ∧
      r'.status = r.status ∧ (r.startedAt.isZero = false → r' = r) := by
  obtain ⟨r', clock, hstarted, hid, hstatus, hsame⟩ := started_run r s
  have hopened := opened_run (s := { s with clock }) hopen hlive
  rw [create, Act.bind_of_ok hstarted, Act.bind_of_ok (hopened _),
    Database.create_of_unused (hid ▸ h)]
  exact ⟨r', _, rfl, hid, rfl, rfl, hstatus, hsame⟩

theorem create_of_hasRun {s : Session Connection} {db : Database} {r : Run}
    (hopen : s.outside.database = some db) (hlive : s.patience.isExhausted = false)
    (h : db.hasRun r.id = true) :
    ∃ f t, create r s = (.error f, t) ∧ t.patience = s.patience.ask ∧ t.outside = s.outside := by
  obtain ⟨r', clock, hstarted, hid, -⟩ := started_run r s
  have hopened := opened_run (s := { s with clock }) hopen hlive
  rw [create, Act.bind_of_ok hstarted, Act.bind_of_ok (hopened _), Database.create,
    if_pos (hid ▸ h)]
  exact ⟨_, _, rfl, rfl, rfl⟩

/-- Change the run with a name. A run is finished and reported as failed in this way. -/
def updating (id : String) (change : Time.Moment → RunRow → RunRow) : Act Connection Unit := do
  let at_ ← Act.now
  let db ← opened (during "failed to update run")
  replace (← Act.lift (db.update id (change at_)))

theorem updating_of_hasRun {s : Session Connection} {db : Database} {id : String}
    (hopen : s.outside.database = some db) (hlive : s.patience.isExhausted = false)
    (h : db.hasRun id = true) (change : Time.Moment → RunRow → RunRow) :
    ∃ t, updating id change s = (.ok (), t) ∧ t.patience = s.patience.ask ∧
      t.outside = ⟨s.outside.path, some (db.changed id (change s.clock))⟩ := by
  have hopened := opened_run (s := { s with clock := s.clock.tick }) hopen hlive
  rw [updating, Act.bind_of_ok (Act.now_run s), Act.bind_of_ok (hopened _),
    Database.update_of_hasRun h]
  exact ⟨_, rfl, rfl, rfl⟩

theorem updating_of_unknown {s : Session Connection} {db : Database} {id : String}
    (hopen : s.outside.database = some db) (hlive : s.patience.isExhausted = false)
    (h : db.hasRun id = false) (change : Time.Moment → RunRow → RunRow) :
    ∃ f t, updating id change s = (.error f, t) ∧ t.patience = s.patience.ask ∧
      t.outside = s.outside := by
  have hopened := opened_run (s := { s with clock := s.clock.tick }) hopen hlive
  rw [updating, Act.bind_of_ok (Act.now_run s), Act.bind_of_ok (hopened _),
    Database.update_of_unknown h]
  exact ⟨_, _, rfl, rfl, rfl⟩

theorem aside_find? (fingerprint : String) : Act.Aside id (find? fingerprint) := by
  intro s hs
  by_cases hrefused : s.outside.database = none
  · have hopened : opened (during "failed to read run") s =
        (.error (during "failed to read run" (.plain "sql: database is closed")), s) := by
      rw [opened, Act.bind_of_ok (Act.session_run s), hrefused]
      rfl
    rw [find?, Act.bind_of_error hopened]
    exact ⟨hs, rfl, fun _ hf => by cases hf; rfl⟩
  · obtain ⟨db, hopen⟩ := Option.ne_none_iff_exists'.1 hrefused
    rw [find?, Act.bind_of_ok (opened_run hopen (by rw [hs]; rfl) _)]
    exact ⟨by rw [hs]; rfl, rfl, fun _ hf => by cases hf⟩

end Connection
end ClassAtlas.Store
