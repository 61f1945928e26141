import ClassAtlas.Failure
import ClassAtlas.Graph.Basic
import ClassAtlas.Graph.Document
import ClassAtlas.Json.Reader
import ClassAtlas.Json.Writer
import ClassAtlas.Store.Run
import ClassAtlas.Text.Quoted

/-!
The registry of runs with the graphs that were saved for them. A graph is saved as rows of several
tables, each row under the run that it belongs to, and as a snapshot of the whole. Every operation is
a function from one state to the next; one that fails has no next state.
-/
namespace ClassAtlas.Store

/-- A failure of the registry with its cause. -/
def Database.failure (action : String) (cause : String) : Failure :=
  .because .storeFailed action (.plain cause)

/-- The text of a whole graph in encoded form; what a damaged one held is lost. -/
structure Snapshot where
  encoding : String
  content : Option String
  deriving DecidableEq, Repr, Inhabited

/-- The encoding that snapshots are written in. -/
def snapshotEncoding : String := "zstd+json"

namespace Snapshot

def ofGraph (g : ClassGraph) : Snapshot := ⟨snapshotEncoding, some (g.toJson.write .guarded)⟩

def restore (s : Snapshot) : Except Failure ClassGraph :=
  if s.encoding != snapshotEncoding then
    .error (.ofCode .storeFailed ("unsupported snapshot encoding " ++ Text.quoted s.encoding))
  else match s.content with
    | none =>
      .error (Database.failure "failed to restore snapshot"
        "failed to decompress snapshot: invalid input: magic number mismatch")
    | some text =>
      match Json.read? text with
      | some content => .ok (ClassGraph.ofJson content)
      | none =>
        .error (Database.failure "failed to restore snapshot"
          "failed to decode snapshot: unexpected end of JSON input")

end Snapshot

inductive Table where
  | classes
  | classFields
  | dependencies
  | endpoints
  | sequences
  | sequenceUses
  | snapshots
  deriving DecidableEq, Repr

namespace Table

/-- The tables that hold what is saved for a run. -/
def all : List Table :=
  [.classes, .classFields, .dependencies, .endpoints, .sequences, .sequenceUses, .snapshots]

def name : Table → String
  | .classes => "classes"
  | .classFields => "class_fields"
  | .dependencies => "dependencies"
  | .endpoints => "endpoints"
  | .sequences => "sequences"
  | .sequenceUses => "sequence_usages"
  | .snapshots => "snapshots"

/-- The columns that tell the rows of a table apart. -/
def keyColumns : Table → List String
  | .classes => ["run_id", "name"]
  | .classFields => ["run_id", "class_name", "position"]
  | .dependencies => ["run_id", "position"]
  | .endpoints => ["run_id", "position"]
  | .sequences => ["run_id", "generator_name"]
  | .sequenceUses => []
  | .snapshots => ["run_id"]

end Table

/-- A row of a table, apart from the run that it belongs to. -/
inductive Entry where
  | class_ (c : Graph.Class)
  | field (className : String) (position : Nat) (f : Graph.Field)
  | dependency (position : Nat) (d : Graph.Dependency)
  | endpoint (position : Nat) (e : Graph.Endpoint)
  | generator (d : Graph.Generator)
  | generatorUse (u : Graph.GeneratorUse)
  | snapshot (s : Snapshot)
  deriving DecidableEq, Repr

/-- What two rows of one run must not share. -/
inductive Key where
  | class_ (name : String)
  | field (className : String) (position : Nat)
  | dependency (position : Nat)
  | endpoint (position : Nat)
  | generator (name : String)
  | snapshot
  deriving DecidableEq, Repr

namespace Entry

def table : Entry → Table
  | .class_ _ => .classes
  | .field _ _ _ => .classFields
  | .dependency _ _ => .dependencies
  | .endpoint _ _ => .endpoints
  | .generator _ => .sequences
  | .generatorUse _ => .sequenceUses
  | .snapshot _ => .snapshots

/-- The key of a row. The uses of generators have none and may repeat. -/
def key? : Entry → Option Key
  | .class_ c => some (.class_ c.name)
  | .field className position _ => some (.field className position)
  | .dependency position _ => some (.dependency position)
  | .endpoint position _ => some (.endpoint position)
  | .generator d => some (.generator d.name)
  | .generatorUse _ => none
  | .snapshot _ => some .snapshot

def class? : Entry → Option Graph.Class
  | .class_ c => some c
  | _ => none

def snapshot? : Entry → Option Snapshot
  | .snapshot s => some s
  | _ => none

/-- The rows of a class: itself and its fields in order. -/
def ofClass (c : Graph.Class) : List Entry := .class_ c :: c.fields.items.mapIdx (.field c.name)

/-- The rows of a graph in the order in which they are written. -/
def ofGraph (g : ClassGraph) : List Entry :=
  g.sortedClasses.flatMap ofClass ++
    (g.sortedDependencies.mapIdx .dependency ++ g.sortedEndpoints.mapIdx .endpoint) ++
    (g.sortedGenerators.map .generator ++ g.generatorUses.items.map .generatorUse) ++
    [.snapshot (.ofGraph g)]

end Entry

/-- A row under its run. -/
structure Stored where
  run : String
  entry : Entry
  deriving DecidableEq, Repr

/-- A change to one table. -/
inductive Statement where
  | delete (table : Table) (run : String)
  | insert (run : String) (entry : Entry)

/-- The runs in the order in which they were recorded, and the rows of all tables in the order in
which they were written. -/
structure Database where
  runs : List RunRow
  stored : List Stored
  deriving Inhabited

namespace Database

def empty : Database := ⟨[], []⟩

/-- A rule that a change would break. -/
inductive Conflict where
  | runExists
  | unknownRun
  | sameKey (table : Table)
  deriving DecidableEq, Repr

def Conflict.message : Conflict → String
  | .runExists => "constraint failed: UNIQUE constraint failed: runs.id (1555)"
  | .unknownRun => "constraint failed: FOREIGN KEY constraint failed (787)"
  | .sameKey table => "constraint failed: UNIQUE constraint failed: " ++
      Text.join ", " (table.keyColumns.map (table.name ++ "." ++ ·)) ++ " (1555)"

def run? (db : Database) (id : String) : Option RunRow := db.runs.find? (·.id == id)

def hasRun (db : Database) (id : String) : Bool := (db.run? id).isSome

def unknownRun (id : String) : Failure := .ofCode .runNotFound ("run not found: " ++ id)

def create (db : Database) (r : Run) : Except Failure Database :=
  if db.hasRun r.id then .error (failure "failed to create run" Conflict.runExists.message)
  else .ok { db with runs := db.runs ++ [.ofRun r] }

/-- Change the run with a name. -/
def update (db : Database) (id : String) (change : RunRow → RunRow) : Except Failure Database :=
  if db.hasRun id then
    .ok { db with runs := db.runs.map fun r => if r.id == id then change r else r }
  else .error (unknownRun id)

def finish (db : Database) (id : String) (at_ : Time.Moment) (s : Summary) :
    Except Failure Database :=
  db.update id (·.finished at_ s)

def fail (db : Database) (id : String) (at_ : Time.Moment) (message : String) :
    Except Failure Database :=
  db.update id (·.failedWith at_ message)

def get (db : Database) (id : String) : Except Failure Run :=
  match db.run? id with
  | some row => .ok row.run
  | none => .error (unknownRun id)

def defaultLimit : Nat := 20

/-- The latest runs first; a limit that is not positive means the default. -/
def list (db : Database) (limit : Int) : List Run :=
  ((db.runs.mergeSort RunRow.precedes).take
    (if limit ≤ 0 then defaultLimit else limit.toNat)).map RunRow.run

/-- The later of two runs, the first one if they started together. -/
def laterRun (best : Option RunRow) (row : RunRow) : Option RunRow :=
  match best with
  | none => some row
  | some b => if b.startedAt < row.startedAt then some row else some b

/-- The latest run that succeeded over the same classes. What is not kept equals nothing. -/
def find? (db : Database) (fingerprint : String) : Option Run :=
  ((db.runs.filter fun row => row.fingerprint == some fingerprint && row.status == .succeeded).foldl
    laterRun none).map RunRow.run

/-- The rows of a run, in the order in which they were written. -/
def entriesOf (db : Database) (id : String) : List Entry :=
  (db.stored.filter (·.run == id)).map (·.entry)

/-- Whether a row of the run has the key already. -/
def hasKey (db : Database) (id : String) (key : Key) : Bool :=
  db.stored.any fun row => row.run == id && row.entry.key? == some key

/-- Carry out one change. A row needs a run that is there, and a key that is not. -/
def execute (db : Database) : Statement → Except Conflict Database
  | .delete table id => .ok { db with
      stored := db.stored.filter fun row => !(row.run == id && row.entry.table == table) }
  | .insert id entry =>
    if !db.hasRun id then .error .unknownRun
    else if entry.key?.any (db.hasKey id) then .error (.sameKey entry.table)
    else .ok { db with stored := db.stored ++ [⟨id, entry⟩] }

/-- The changes that put a graph in place of what was saved for the run before. -/
def saveStatements (id : String) (g : ClassGraph) : List Statement :=
  Table.all.map (.delete · id) ++ (Entry.ofGraph g).map (.insert id)

def snapshot? (db : Database) (id : String) : Option Snapshot :=
  (db.entriesOf id).findSome? Entry.snapshot?

/-- The graph of a run, from its snapshot. -/
def load (db : Database) (id : String) : Except Failure ClassGraph :=
  match db.snapshot? id with
  | none => .error (.ofCode .runNotFound ("no snapshot for run " ++ id))
  | some snapshot => snapshot.restore

def asciiLower (s : String) : List Char := s.toList.map Char.toLower

/-- Order without regard to the case of plain letters, then exactly. -/
def byPlainName (a b : String) : Bool :=
  decide (asciiLower a < asciiLower b) ||
    (!decide (asciiLower b < asciiLower a) && decide (a ≤ b))

/-- The names of the entities that were saved for a run. -/
def entities (db : Database) (id : String) : List String :=
  ((((db.entriesOf id).filterMap Entry.class?).filter (·.entity)).map (·.name)).mergeSort byPlainName

/-- Change the snapshot of a run, if it has one. -/
def updateSnapshot (db : Database) (id : String) (change : Snapshot → Snapshot) : Database :=
  { db with stored := db.stored.map fun row =>
      match row.entry with
      | .snapshot s => if row.run == id then { row with entry := .snapshot (change s) } else row
      | _ => row }

end Database
end ClassAtlas.Store
