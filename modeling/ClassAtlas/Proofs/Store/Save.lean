import ClassAtlas.Proofs.Graph.Document
import ClassAtlas.Proofs.Session
import ClassAtlas.Store.Connection
import Mathlib.Data.List.Nodup

/-!
Saving a graph. The rows that were saved for the run before go first, and the rows of the graph come
one after the other; each needs its run to be there and its key to be free. So a graph is saved
exactly if its run is known and its classes and generators have names of their own. What was done
before a row is refused is taken back.
-/
namespace ClassAtlas.Store

theorem Table.mem_all (t : Table) : t ∈ all := by
  cases t <;> decide

theorem Snapshot.restore_ofGraph (g : ClassGraph) : (ofGraph g).restore = .ok g := by
  obtain ⟨content, hread, hcontent⟩ := Option.map_eq_some_iff.1 (g.read?_write .guarded)
  simp [restore, ofGraph, hread, hcontent]

namespace Entry

/-! What the rows of a graph are -/

theorem filterMap_mapIdx {α β : Type} (f : Nat → α → Entry) (view : Entry → Option β) (l : List α) :
    (l.mapIdx f).filterMap view = l.zipIdx.filterMap fun p => view (f p.2 p.1) := by
  rw [List.mapIdx_eq_zipIdx_map, List.filterMap_map]
  rfl

/-- The classes among the rows of a graph. -/
theorem class?_ofGraph (g : ClassGraph) : (ofGraph g).filterMap class? = g.sortedClasses := by
  have hclass (c : Graph.Class) : (ofClass c).filterMap class? = [c] := by
    simp [ofClass, class?, filterMap_mapIdx]
  simp [ofGraph, filterMap_mapIdx, List.filterMap_flatMap, hclass, class?, Function.comp_def]

/-- The one snapshot among the rows of a graph. -/
theorem snapshot?_ofGraph (g : ClassGraph) :
    (ofGraph g).findSome? snapshot? = some (.ofGraph g) := by
  have hclass (c : Graph.Class) : (ofClass c).filterMap snapshot? = [] := by
    rw [ofClass, List.filterMap_cons, filterMap_mapIdx]
    simp [snapshot?]
  have hclasses : (g.sortedClasses.flatMap ofClass).filterMap snapshot? = [] := by
    rw [List.filterMap_flatMap]
    simp [hclass]
  rw [← List.head?_filterMap, ofGraph]
  simp only [List.filterMap_append, hclasses, filterMap_mapIdx, List.filterMap_map]
  simp [snapshot?, Function.comp_def]

/-! The keys of the rows of a graph -/

/-- Rows with numbers have their numbers as keys. -/
theorem keys_mapIdx {α : Type} {row : Nat → α → Entry} {key : Nat → Key}
    (h : ∀ i a, (row i a).key? = some (key i)) (l : List α) :
    (l.mapIdx row).filterMap key? = (List.range l.length).map key := by
  have hfilter : l.zipIdx.filterMap (fun p => (row p.2 p.1).key?) =
      (l.zipIdx.map Prod.snd).map key := by
    simp only [h, List.filterMap_eq_map', List.map_map]
    rfl
  rw [filterMap_mapIdx, hfilter, List.zipIdx_map_snd, List.range_eq_range']

/-- The keys of the rows of a class: its name, and with it the places of its fields. -/
theorem keys_ofClass (c : Graph.Class) : (ofClass c).filterMap key? =
    .class_ c.name :: (List.range c.fields.items.length).map (.field c.name) := by
  rw [ofClass, List.filterMap_cons, keys_mapIdx (fun _ _ => rfl)]
  rfl

theorem nodup_keys_classes (cs : List Graph.Class) :
    ((cs.flatMap ofClass).filterMap key?).Nodup ↔ (cs.map (·.name)).Nodup := by
  induction cs with
  | nil => simp
  | cons c cs ih =>
    have hown : ((ofClass c).filterMap key?).Nodup := by
      rw [keys_ofClass]
      refine List.nodup_cons.2 ⟨by simp, List.nodup_range.map fun i j h => ?_⟩
      injection h
    -- the rows of two classes clash exactly if the classes have one name
    have hclash : ((ofClass c).filterMap key?).Disjoint ((cs.flatMap ofClass).filterMap key?) ↔
        c.name ∉ cs.map (·.name) := by
      rw [List.filterMap_flatMap]
      simp only [keys_ofClass]
      constructor
      · intro hdisjoint hname
        obtain ⟨d, hd, hname⟩ := List.mem_map.1 hname
        refine hdisjoint List.mem_cons_self (List.mem_flatMap.2 ⟨d, hd, ?_⟩)
        simp [hname]
      · intro hname key hc hcs
        obtain ⟨d, hd, hkey⟩ := List.mem_flatMap.1 hcs
        have hne : c.name ≠ d.name := fun h => hname (List.mem_map.2 ⟨d, hd, h.symm⟩)
        cases key <;> simp_all
    rw [List.flatMap_cons, List.filterMap_append, List.nodup_append', ih, List.map_cons,
      List.nodup_cons, hclash]
    tauto

/-- The keys of the rows of a graph that do not belong to a class. -/
def plainKeys (g : ClassGraph) : List Key :=
  (List.range g.sortedDependencies.length).map .dependency ++
    ((List.range g.sortedEndpoints.length).map .endpoint ++
      ((g.sortedGenerators.map (·.name)).map .generator ++ [.snapshot]))

theorem keys_ofGraph (g : ClassGraph) : (ofGraph g).filterMap key? =
    (g.sortedClasses.flatMap ofClass).filterMap key? ++ plainKeys g := by
  have hdependencies : (g.sortedDependencies.mapIdx dependency).filterMap key? =
      (List.range g.sortedDependencies.length).map .dependency := keys_mapIdx (fun _ _ => rfl) _
  have hendpoints : (g.sortedEndpoints.mapIdx endpoint).filterMap key? =
      (List.range g.sortedEndpoints.length).map .endpoint := keys_mapIdx (fun _ _ => rfl) _
  have hgenerators : (g.sortedGenerators.map generator).filterMap key? =
      (g.sortedGenerators.map (·.name)).map .generator := by
    simp [Function.comp_def, key?, List.filterMap_eq_map']
  have huses : (g.generatorUses.items.map generatorUse).filterMap key? = [] := by
    simp [key?]
  simp only [ofGraph, List.filterMap_append, hdependencies, hendpoints, hgenerators, huses,
    List.append_assoc, plainKeys]
  rfl

theorem nodup_plainKeys (g : ClassGraph) :
    (plainKeys g).Nodup ↔ (g.sortedGenerators.map (·.name)).Nodup := by
  have hdependencies : ((List.range g.sortedDependencies.length).map Key.dependency).Nodup :=
    List.nodup_range.map fun _ _ h => by injection h
  have hendpoints : ((List.range g.sortedEndpoints.length).map Key.endpoint).Nodup :=
    List.nodup_range.map fun _ _ h => by injection h
  have hgenerators : ((g.sortedGenerators.map (·.name)).map Key.generator).Nodup ↔
      (g.sortedGenerators.map (·.name)).Nodup :=
    List.nodup_map_iff fun _ _ h => by injection h
  simp only [plainKeys, List.nodup_append', hdependencies, hendpoints, hgenerators]
  simp [List.Disjoint]

/-- The rows of a graph have keys of their own exactly if its classes and its generators have names
of their own. -/
theorem nodup_keys_ofGraph (g : ClassGraph) : ((ofGraph g).filterMap key?).Nodup ↔
    (g.classMap.values.map (·.name)).Nodup ∧ (g.generatorMap.values.map (·.name)).Nodup := by
  have hclasses : (g.sortedClasses.map (·.name)).Nodup ↔
      (g.classMap.values.map (·.name)).Nodup :=
    ((List.mergeSort_perm _ _).map _).nodup_iff
  have hgenerators : (g.sortedGenerators.map (·.name)).Nodup ↔
      (g.generatorMap.values.map (·.name)).Nodup :=
    ((List.mergeSort_perm _ _).map _).nodup_iff
  have hdisjoint : ((g.sortedClasses.flatMap ofClass).filterMap key?).Disjoint (plainKeys g) := by
    rw [List.filterMap_flatMap]
    simp only [keys_ofClass]
    intro key hclass hplain
    obtain ⟨c, -, hkey⟩ := List.mem_flatMap.1 hclass
    cases key <;> simp_all [plainKeys]
  rw [keys_ofGraph, List.nodup_append', nodup_keys_classes, nodup_plainKeys, hclasses, hgenerators]
  simp [hdisjoint]

end Entry

namespace Database

/-- The keys that a run has used. -/
def keysOf (db : Database) (id : String) : List Key := (db.entriesOf id).filterMap Entry.key?

theorem hasKey_iff {db : Database} {id : String} {key : Key} :
    db.hasKey id key = true ↔ key ∈ db.keysOf id := by
  simp [hasKey, keysOf, entriesOf, and_assoc]

/-- Rows of a run put behind all others. -/
def append (db : Database) (id : String) (entries : List Entry) : Database :=
  { db with stored := db.stored ++ entries.map (⟨id, ·⟩) }

@[simp] theorem hasRun_append (db : Database) (id other : String) (entries : List Entry) :
    (db.append id entries).hasRun other = db.hasRun other := rfl

@[simp] theorem entriesOf_append (db : Database) (id : String) (entries : List Entry) :
    (db.append id entries).entriesOf id = db.entriesOf id ++ entries := by
  simp [entriesOf, append, List.filter_map, Function.comp_def]

theorem keysOf_append (db : Database) (id : String) (entries : List Entry) :
    (db.append id entries).keysOf id = db.keysOf id ++ entries.filterMap Entry.key? := by
  simp [keysOf]

theorem append_append (db : Database) (id : String) (first more : List Entry) :
    (db.append id first).append id more = db.append id (first ++ more) := by
  simp [append]

/-! One row after the other -/

theorem execute_insert_eq_ok {db db' : Database} {id : String} {e : Entry} :
    db.execute (.insert id e) = .ok db' ↔
      db.hasRun id = true ∧ (∀ key ∈ e.key?, key ∉ db.keysOf id) ∧ db.append id [e] = db' := by
  simp only [execute]
  split
  · next hrun => simp_all
  · next hrun =>
    have hkeys : e.key?.any (db.hasKey id) = true ↔ ¬ ∀ key ∈ e.key?, key ∉ db.keysOf id := by
      cases e.key? <;> simp [hasKey_iff]
    split
    · next hany => simp_all
    · next hany => simp_all [append]

/-- Rows go in one after the other exactly if their run is there and no key comes twice. -/
theorem foldlM_insert_eq_ok {db db' : Database} {id : String} {entries : List Entry}
    (hkeys : (db.keysOf id).Nodup) :
    (entries.map (.insert id)).foldlM execute db = .ok db' ↔
      (entries ≠ [] → db.hasRun id = true) ∧
        (db.keysOf id ++ entries.filterMap Entry.key?).Nodup ∧ db.append id entries = db' := by
  induction entries generalizing db with
  | nil => simp [append, hkeys, pure, Except.pure]
  | cons e more ih =>
    have hbind : ((e :: more).map (.insert id)).foldlM execute db = .ok db' ↔
        ∃ next, db.execute (.insert id e) = .ok next ∧
          (more.map (.insert id)).foldlM execute next = .ok db' := by
      rw [List.map_cons, List.foldlM_cons]
      cases db.execute (.insert id e) <;> simp [bind, Except.bind]
    have hfirst : (db.keysOf id ++ [e].filterMap Entry.key?).Nodup ↔
        ∀ key ∈ e.key?, key ∉ db.keysOf id := by
      cases hkey : e.key? with
      | none => simp [hkey, hkeys]
      | some key =>
        simp only [List.filterMap_cons, hkey, List.filterMap_nil, List.nodup_append', hkeys,
          List.nodup_singleton, List.disjoint_singleton, true_and, Option.mem_def,
          Option.some.injEq, forall_eq']
    have hall : db.keysOf id ++ (e :: more).filterMap Entry.key? =
        (db.append id [e]).keysOf id ++ more.filterMap Entry.key? := by
      rw [keysOf_append, List.append_assoc, ← List.filterMap_append]
      rfl
    rw [hbind, hall]
    constructor
    · rintro ⟨next, hexecute, hmore⟩
      obtain ⟨hrun, hfree, rfl⟩ := execute_insert_eq_ok.1 hexecute
      rw [ih (by rw [keysOf_append]; exact hfirst.2 hfree)] at hmore
      obtain ⟨-, hnodup, rfl⟩ := hmore
      exact ⟨fun _ => hrun, hnodup, by rw [append_append]; rfl⟩
    · rintro ⟨hrun, hnodup, rfl⟩
      have hnext : ((db.append id [e]).keysOf id).Nodup := (List.nodup_append'.1 hnodup).1
      have hfree := hfirst.1 (by rwa [keysOf_append] at hnext)
      refine ⟨db.append id [e],
        execute_insert_eq_ok.2 ⟨hrun (List.cons_ne_nil _ _), hfree, rfl⟩, ?_⟩
      exact (ih hnext).2 ⟨fun _ => hrun (List.cons_ne_nil _ _), hnodup, by rw [append_append]; rfl⟩

/-- What was saved for a run, taken away. -/
def clear (db : Database) (id : String) : Database :=
  { db with stored := db.stored.filter (·.run != id) }

@[simp] theorem hasRun_clear (db : Database) (id other : String) :
    (db.clear id).hasRun other = db.hasRun other := rfl

@[simp] theorem entriesOf_clear (db : Database) (id : String) :
    (db.clear id).entriesOf id = [] := by
  simp [entriesOf, clear]

theorem foldlM_delete (db : Database) (id : String) (tables : List Table) :
    (tables.map (.delete · id)).foldlM execute db = .ok { db with
      stored := db.stored.filter fun row =>
        !(row.run == id && tables.contains row.entry.table) } := by
  induction tables generalizing db with
  | nil => simp [pure, Except.pure]
  | cons table more ih =>
    have hfirst : db.execute (.delete table id) = .ok { db with
        stored := db.stored.filter fun row => !(row.run == id && row.entry.table == table) } := rfl
    rw [List.map_cons, List.foldlM_cons, hfirst]
    refine (ih _).trans ?_
    congr 2
    rw [List.filter_filter]
    refine List.filter_congr fun row _ => ?_
    by_cases hrun : row.run = id <;> by_cases htable : row.entry.table = table <;>
      simp [hrun, htable]

/-- The rows of a graph in place of what was saved for the run before. -/
def saved (db : Database) (id : String) (g : ClassGraph) : Database :=
  (db.clear id).append id (Entry.ofGraph g)

/-- A graph is saved exactly if its run is there and its classes and generators have names of their
own. -/
theorem foldlM_saveStatements_eq_ok {db db' : Database} {id : String} {g : ClassGraph} :
    (saveStatements id g).foldlM execute db = .ok db' ↔
      (db.hasRun id = true ∧ (g.classMap.values.map (·.name)).Nodup ∧
        (g.generatorMap.values.map (·.name)).Nodup) ∧ db.saved id g = db' := by
  have hclear : (Table.all.map (.delete · id)).foldlM execute db = .ok (db.clear id) := by
    rw [foldlM_delete]
    simp [clear, Table.mem_all, bne]
  have hkeys : (db.clear id).keysOf id = [] := by
    simp [keysOf]
  have hnonempty : Entry.ofGraph g ≠ [] := by
    simp [Entry.ofGraph]
  rw [saveStatements, List.foldlM_append, hclear]
  change ((Entry.ofGraph g).map (.insert id)).foldlM execute (db.clear id) = .ok db' ↔ _
  rw [foldlM_insert_eq_ok (by rw [hkeys]; exact List.nodup_nil), hkeys, List.nil_append,
    Entry.nodup_keys_ofGraph, hasRun_clear, saved]
  simp [hnonempty, and_assoc]

/-! What is found afterwards -/

@[simp] theorem runs_saved (db : Database) (id : String) (g : ClassGraph) :
    (db.saved id g).runs = db.runs := rfl

@[simp] theorem entriesOf_saved (db : Database) (id : String) (g : ClassGraph) :
    (db.saved id g).entriesOf id = Entry.ofGraph g := by
  simp [saved]

/-- The rows of the other runs stay as they were. -/
theorem stored_saved (db : Database) (id : String) (g : ClassGraph) :
    (db.saved id g).stored.filter (·.run != id) = db.stored.filter (·.run != id) := by
  simp [saved, clear, append, List.filter_map, Function.comp_def]

theorem load_saved (db : Database) (id : String) (g : ClassGraph) :
    (db.saved id g).load id = .ok g := by
  rw [load, snapshot?, entriesOf_saved, Entry.snapshot?_ofGraph]
  exact Snapshot.restore_ofGraph g

theorem mem_entities_saved {db : Database} {id : String} {g : ClassGraph} {name : String} :
    name ∈ (db.saved id g).entities id ↔
      ∃ c ∈ g.classMap.values, c.entity = true ∧ c.name = name := by
  simp [entities, Entry.class?_ofGraph, ClassGraph.sortedClasses, and_assoc]

theorem nodup_entities_saved {db : Database} {id : String} {g : ClassGraph}
    (h : (g.classMap.values.map (·.name)).Nodup) : ((db.saved id g).entities id).Nodup := by
  rw [entities, entriesOf_saved, Entry.class?_ofGraph]
  have hsorted : (g.sortedClasses.map (·.name)).Nodup :=
    (((List.mergeSort_perm _ _).map _).nodup_iff).2 h
  exact (List.mergeSort_perm _ _).nodup_iff.2 (hsorted.sublist (List.filter_sublist.map _))

end Database

namespace Connection

/-- A session in which the registry holds something else. -/
def holding (db : Database) (s : Session Connection) : Session Connection :=
  { s with outside := { s.outside with database := some db } }

theorem holding_self {s : Session Connection} {db : Database} (h : s.outside.database = some db) :
    holding db s = s := by
  obtain ⟨disk, environment, patience, journal, clock, identifiers, issued, path, database⟩ := s
  cases h
  rfl

theorem opened_run {s : Session Connection} {db : Database} (hopen : s.outside.database = some db)
    (hlive : s.patience.isExhausted = false) (describe : Failure → Failure) :
    opened describe s = (.ok db, { s with patience := s.patience.ask }) := by
  have hcheck : Act.checkpointFor describe s = (.ok (), { s with patience := s.patience.ask }) := by
    simp [Act.checkpointFor, hlive]
  rw [opened, Act.bind_of_ok (Act.session_run s)]
  simp only [hopen]
  rw [Act.bind_of_ok hcheck]
  rfl

/-- A registry that is closed, or that one no longer waits for, cannot be asked. -/
theorem opened_of_refused {s : Session Connection}
    (h : s.outside.database = none ∨ s.patience.isExhausted = true)
    (describe : Failure → Failure) : ∃ f, opened describe s = (.error f, s) := by
  rw [opened, Act.bind_of_ok (Act.session_run s)]
  cases hopen : s.outside.database with
  | none => exact ⟨_, rfl⟩
  | some db =>
    have hexhausted : s.patience.isExhausted = true := by
      simpa [hopen] using h
    have hcheck : Act.checkpointFor describe s = (.error (describe .cancelled), s) := by
      simp [Act.checkpointFor, hexhausted]
    exact ⟨_, Act.bind_of_error hcheck _⟩

theorem execute_of_ok {s : Session Connection} {db next : Database} {statement : Statement}
    (hopen : s.outside.database = some db) (h : db.execute statement = .ok next) :
    execute statement s = (.ok (), holding next s) := by
  rw [execute, Act.bind_of_ok (Act.session_run s)]
  simp only [hopen, h]
  rfl

theorem execute_of_error {s : Session Connection} {db : Database} {statement : Statement}
    {c : Database.Conflict} (hopen : s.outside.database = some db)
    (h : db.execute statement = .error c) :
    execute statement s = (.error (.plain c.message), s) := by
  rw [execute, Act.bind_of_ok (Act.session_run s)]
  simp only [hopen, h]
  rfl

theorem executeAll_of_ok {statements : List Statement} {s : Session Connection}
    {db db' : Database} (hopen : s.outside.database = some db)
    (h : statements.foldlM Database.execute db = .ok db') :
    executeAll statements s = (.ok (), holding db' s) := by
  induction statements generalizing s db with
  | nil =>
    cases h
    rw [holding_self hopen]
    rfl
  | cons statement more ih =>
    rw [List.foldlM_cons] at h
    cases hexecute : db.execute statement with
    | error c =>
      rw [hexecute] at h
      cases h
    | ok next =>
      rw [hexecute] at h
      rw [executeAll, Act.bind_of_ok (execute_of_ok hopen hexecute)]
      exact ih rfl h

/-- The first statement that is refused ends the row of statements. -/
theorem executeAll_of_error {statements : List Statement} {s : Session Connection}
    {db : Database} {c : Database.Conflict} (hopen : s.outside.database = some db)
    (h : statements.foldlM Database.execute db = .error c) :
    ∃ reached, executeAll statements s = (.error (.plain c.message), holding reached s) := by
  induction statements generalizing s db with
  | nil => cases h
  | cons statement more ih =>
    rw [List.foldlM_cons] at h
    cases hexecute : db.execute statement with
    | error c' =>
      rw [hexecute] at h
      cases h
      rw [executeAll, Act.bind_of_error (execute_of_error hopen hexecute)]
      exact ⟨db, by rw [holding_self hopen]⟩
    | ok next =>
      rw [hexecute] at h
      rw [executeAll, Act.bind_of_ok (execute_of_ok hopen hexecute)]
      exact ih rfl h

theorem transaction_of_ok {act : Act Connection α} {s t : Session Connection} {a : α}
    (h : act s = (.ok a, t)) : transaction act s = (.ok a, t) := by
  simp only [transaction, h]

theorem transaction_of_error {act : Act Connection α} {s t : Session Connection} {f : Failure}
    (h : act s = (.error f, t)) :
    transaction act s = (.error f, { t with outside := s.outside }) := by
  simp only [transaction, h]

theorem save_of_ok {id : String} {g : ClassGraph} {s : Session Connection} {db db' : Database}
    (hopen : s.outside.database = some db) (hlive : s.patience.isExhausted = false)
    (hsave : (Database.saveStatements id g).foldlM Database.execute db = .ok db') :
    ∃ t, save id g s = (.ok (), t) ∧ t.patience = s.patience.ask ∧
      t.outside = { s.outside with database := some db' } := by
  have hall := transaction_of_ok
    (executeAll_of_ok (s := { s with patience := s.patience.ask }) hopen hsave)
  rw [save, Act.bind_of_ok (opened_run hopen hlive _), Act.bind_of_ok (Act.describing_of_ok hall _),
    Act.log_run]
  exact ⟨_, rfl, rfl, rfl⟩

theorem save_of_error {id : String} {g : ClassGraph} {s : Session Connection} {db : Database}
    {c : Database.Conflict} (hopen : s.outside.database = some db)
    (hlive : s.patience.isExhausted = false)
    (hsave : (Database.saveStatements id g).foldlM Database.execute db = .error c) :
    ∃ f t, save id g s = (.error f, t) ∧ t.patience = s.patience.ask ∧ t.outside = s.outside ∧
      f.details? = none := by
  obtain ⟨reached, hrefused⟩ :=
    executeAll_of_error (s := { s with patience := s.patience.ask }) hopen hsave
  rw [save, Act.bind_of_ok (opened_run hopen hlive _),
    Act.bind_of_error (Act.describing_of_error (transaction_of_error hrefused) _)]
  exact ⟨_, _, rfl, rfl, rfl, rfl⟩

/-- Whatever the reason for which a graph is not saved, the registry is as it was. -/
theorem outside_save_of_error {id : String} {g : ClassGraph} {s t : Session Connection}
    {f : Failure} (h : save id g s = (.error f, t)) : t.outside = s.outside := by
  by_cases hrefused : s.outside.database = none ∨ s.patience.isExhausted = true
  · obtain ⟨f', hopened⟩ := opened_of_refused hrefused fun cause =>
      during "failed to save graph" (.wrapped "failed to begin transaction" cause)
    rw [save, Act.bind_of_error hopened] at h
    cases h
    rfl
  · obtain ⟨hdb, hlive⟩ := not_or.1 hrefused
    obtain ⟨db, hopen⟩ := Option.ne_none_iff_exists'.1 hdb
    rw [Bool.not_eq_true] at hlive
    cases hsave : (Database.saveStatements id g).foldlM Database.execute db with
    | ok db' =>
      obtain ⟨_, hok, -⟩ := save_of_ok hopen hlive hsave
      cases hok.symm.trans h
    | error c =>
      obtain ⟨_, _, herror, -, houtside, -⟩ := save_of_error hopen hlive hsave
      cases herror.symm.trans h
      exact houtside

theorem load_run {s : Session Connection} {db : Database} (hopen : s.outside.database = some db)
    (hlive : s.patience.isExhausted = false) (id : String) : (load id s).1 = db.load id := by
  rw [load, Act.bind_of_ok (opened_run hopen hlive _)]
  rfl

theorem entities_run {s : Session Connection} {db : Database}
    (hopen : s.outside.database = some db) (hlive : s.patience.isExhausted = false)
    (id : String) : (entities id s).1 = .ok (db.entities id) := by
  rw [entities, Act.bind_of_ok (opened_run hopen hlive _)]
  rfl

/-- A registry that can be asked saves a graph exactly if its run is there and its classes and
generators have names of their own. -/
theorem save_eq_ok_iff {id : String} {g : ClassGraph} {s : Session Connection} {db : Database}
    (hopen : s.outside.database = some db) (hlive : s.patience.isExhausted = false) :
    (save id g s).1 = .ok () ↔ db.hasRun id = true ∧ (g.classMap.values.map (·.name)).Nodup ∧
      (g.generatorMap.values.map (·.name)).Nodup := by
  constructor
  · intro hok
    cases hsave : (Database.saveStatements id g).foldlM Database.execute db with
    | ok db' => exact (Database.foldlM_saveStatements_eq_ok.1 hsave).1
    | error c =>
      obtain ⟨_, _, herror, -⟩ := save_of_error hopen hlive hsave
      rw [herror] at hok
      cases hok
  · intro hfit
    obtain ⟨_, hok, -⟩ :=
      save_of_ok hopen hlive (Database.foldlM_saveStatements_eq_ok.2 ⟨hfit, rfl⟩)
    rw [hok]

theorem outside_save_of_ok {id : String} {g : ClassGraph} {s : Session Connection} {db : Database}
    (hopen : s.outside.database = some db) (hlive : s.patience.isExhausted = false)
    (hok : (save id g s).1 = .ok ()) :
    (save id g s).2.outside = { s.outside with database := some (db.saved id g) } := by
  have hfit := (save_eq_ok_iff hopen hlive).1 hok
  obtain ⟨_, hrun, -, houtside⟩ :=
    save_of_ok hopen hlive (Database.foldlM_saveStatements_eq_ok.2 ⟨hfit, rfl⟩)
  rw [hrun, houtside]

/-- Saving a graph is all or nothing, and what is saved is the graph. If it is not saved, nothing
has changed. A registry that can be asked saves it exactly if its run is there and its classes and
generators have names of their own. Then whoever asks later gets the graph back, and the names of
its entities, each once; the runs and the rows of all other runs are what they were. -/
theorem save_all_or_nothing (id : String) (g : ClassGraph) (s : Session Connection) :
    (∀ f, (save id g s).1 = .error f → (save id g s).2.outside = s.outside) ∧
    ∀ db, s.outside.database = some db → s.patience.isExhausted = false →
      ((save id g s).1 = .ok () ↔ db.hasRun id = true ∧ (g.classMap.values.map (·.name)).Nodup ∧
        (g.generatorMap.values.map (·.name)).Nodup) ∧
      ((save id g s).1 = .ok () →
        (∀ later : Session Connection, later.outside = (save id g s).2.outside →
          later.patience.isExhausted = false →
            (load id later).1 = .ok g ∧
            ∃ names, (entities id later).1 = .ok names ∧ names.Nodup ∧
              ∀ name, name ∈ names ↔ ∃ c ∈ g.classMap.values, c.entity = true ∧ c.name = name) ∧
        ∃ db', (save id g s).2.outside = { s.outside with database := some db' } ∧
          db'.runs = db.runs ∧
          db'.stored.filter (·.run != id) = db.stored.filter (·.run != id)) := by
  refine ⟨fun f hf => outside_save_of_error (f := f) (Prod.ext hf rfl), fun db hopen hlive => ?_⟩
  refine ⟨save_eq_ok_iff hopen hlive, fun hok => ?_⟩
  have houtside := outside_save_of_ok hopen hlive hok
  obtain ⟨-, hnames, -⟩ := (save_eq_ok_iff hopen hlive).1 hok
  refine ⟨fun later hlater hasked => ?_, db.saved id g, houtside, rfl, db.stored_saved id g⟩
  have hdb : later.outside.database = some (db.saved id g) := by
    rw [hlater, houtside]
  refine ⟨by rw [load_run hdb hasked, Database.load_saved],
    (db.saved id g).entities id, entities_run hdb hasked id, Database.nodup_entities_saved hnames,
    fun name => Database.mem_entities_saved⟩

/-- Two runs, one of them saved before. -/
def twoRuns : Database :=
  let order : Graph.Class := { (default : Graph.Class) with name := "app.Order", entity := true }
  ⟨[{ (default : RunRow) with id := "first" }, { (default : RunRow) with id := "second" }],
    [⟨"first", .class_ order⟩, ⟨"second", .class_ order⟩]⟩

def twoRunsOpen : Session Connection where
  disk := default
  environment := []
  patience := .endless
  journal := []
  clock := default
  identifiers := fun _ => ""
  issued := 0
  outside := ⟨"runs.db", some twoRuns⟩

/-- An entity, an ordinary class and no list of dependencies. -/
def itemGraph : ClassGraph :=
  let item : Graph.Class := { (default : Graph.Class) with name := "app.Item", entity := true }
  let tool : Graph.Class := { (default : Graph.Class) with name := "app.Tool", fields := some [] }
  { ClassGraph.empty with
    classes := some (.ofList [("app.Item", item), ("app.Tool", tool)]), dependencies := none }

/-- The same class under two keys. -/
def clashingGraph : ClassGraph :=
  let item : Graph.Class := { (default : Graph.Class) with name := "app.Item" }
  { ClassGraph.empty with classes := some (.ofList [("a", item), ("b", item)]) }

theorem save_all_or_nothing_twoRuns :
    ((save "first" itemGraph twoRunsOpen).1 = .ok () ∧
      (load "first" { twoRunsOpen with
        outside := (save "first" itemGraph twoRunsOpen).2.outside }).1 = .ok itemGraph) ∧
    (save "first" clashingGraph twoRunsOpen).1 ≠ .ok () ∧
      (save "first" clashingGraph twoRunsOpen).2.outside = ⟨"runs.db", some twoRuns⟩ := by
  have hitem := (save_all_or_nothing "first" itemGraph twoRunsOpen).2 twoRuns rfl rfl
  have hclash := save_all_or_nothing "first" clashingGraph twoRunsOpen
  have hsaved := hitem.1.2 (by decide)
  have hrefused : (save "first" clashingGraph twoRunsOpen).1 ≠ .ok () := fun hok =>
    absurd ((hclash.2 twoRuns rfl rfl).1.1 hok) (by decide)
  have hlater := (hitem.2 hsaved).1
    { twoRunsOpen with outside := (save "first" itemGraph twoRunsOpen).2.outside } rfl rfl
  refine ⟨⟨hsaved, hlater.1⟩, hrefused, ?_⟩
  cases hrun : (save "first" clashingGraph twoRunsOpen).1 with
  | ok u => exact absurd hrun hrefused
  | error f => exact hclash.1 f hrun

end Connection
end ClassAtlas.Store
