import ClassAtlas.Session
import ClassAtlas.Store.Document

/-!
A registry that is open: its file, and what is in it. Changes are written back when it is closed.
-/
namespace ClassAtlas.Store

structure Connection where
  path : String
  /-- What the registry holds; nothing once it is closed. -/
  database : Option Database
  deriving Inhabited

/-- The registry in a file that may or may not be there. -/
def readDatabase (d : File.Disk) (path : String) : Except Failure Database :=
  match d.readFile path with
  | .ok bytes =>
    match Database.ofBytes? bytes with
    | some db => .ok db
    | none => .error (Database.failure "failed to set pragma" "file is not a database (26)")
  | .error fault =>
    if fault.reason == .noEntry then .ok .empty
    else .error (Database.failure "failed to set pragma" "unable to open database file (14)")

/-- Open the registry in a file, which is made if it is not there. -/
def connect (path : String) : Act σ Connection := do
  match (← Act.disk).makeDirs (File.Path.parent path) with
  | .error fault => Act.fail (Database.failure "failed to create store directory" fault.message)
  | .ok d =>
    Act.setDisk d
    let db ← Act.lift (readDatabase d path)
    if !d.exists_ path then
      Act.log (Log.info "Creating analysis store" [("path", .text path)])
      match d.writeFile path db.toBytes with
      | .ok d => Act.setDisk d
      | .error fault => Act.fail (Database.failure "failed to set pragma" fault.message)
    return ⟨path, some db⟩

namespace Connection

/-- Write the registry back to its file and close it. -/
def close : Act Connection Unit := fun s =>
  match s.outside.database with
  | none => (.ok (), s)
  | some db =>
    let disk := match s.disk.writeFile s.outside.path db.toBytes with
      | .ok d => d
      | .error _ => s.disk
    (.ok (), { s with disk, outside := { s.outside with database := none } })

/-- What the registry holds. A closed one cannot be asked, and neither can one when the user has asked
to stop. -/
def opened (describe : Failure → Failure) : Act Connection Database := do
  match (← Act.session).outside.database with
  | none => Act.fail (describe (.plain "sql: database is closed"))
  | some db =>
    Act.checkpointFor describe
    return db

def replace (db : Database) : Act Connection Unit := fun s =>
  (.ok (), { s with outside := { s.outside with database := some db } })

def during (action : String) (cause : Failure) : Failure := .because .storeFailed action cause

/-- A run without a start starts now. -/
def started (r : Run) : Act Connection Run := do
  if r.startedAt.isZero then return { r with startedAt := (← Act.now).toUtc } else return r

def create (r : Run) : Act Connection Unit := do
  let r ← started r
  let db ← opened (during "failed to create run")
  replace (← Act.lift (db.create r))
  Act.log (Log.debug "Created run" [("runId", .text r.id)])

def finish (id : String) (s : Summary) : Act Connection Unit := do
  let at_ ← Act.now
  let db ← opened (during "failed to update run")
  replace (← Act.lift (db.finish id at_ s))

def fail (id message : String) : Act Connection Unit := do
  let at_ ← Act.now
  let db ← opened (during "failed to update run")
  replace (← Act.lift (db.fail id at_ message))

def get (id : String) : Act Connection Run := do
  let db ← opened (during "failed to read run")
  Act.lift (db.get id)

def find? (fingerprint : String) : Act Connection (Option Run) := do
  return (← opened (during "failed to read run")).find? fingerprint

def list (limit : Int) : Act Connection (List Run) := do
  return (← opened (during "failed to list runs")).list limit

/-- Carry out one change at once. -/
def execute (statement : Statement) : Act Connection Unit := do
  match (← Act.session).outside.database with
  | none => Act.fail (.plain "sql: database is closed")
  | some db =>
    match db.execute statement with
    | .ok db => replace db
    | .error conflict => Act.fail (.plain conflict.message)

def executeAll : List Statement → Act Connection Unit
  | [] => pure ()
  | statement :: more => do
    execute statement
    executeAll more

/-- Take back everything that was done to the registry if a step fails. -/
def transaction (act : Act Connection α) : Act Connection α := fun s =>
  match act s with
  | (.ok a, t) => (.ok a, t)
  | (.error f, t) => (.error f, { t with outside := s.outside })

/-- Put a graph in place of what was saved for the run before. -/
def save (id : String) (g : ClassGraph) : Act Connection Unit := do
  let _ ← opened fun cause =>
    during "failed to save graph" (.wrapped "failed to begin transaction" cause)
  Act.describing (during "failed to save graph")
    (transaction (executeAll (Database.saveStatements id g)))
  Act.log (Log.debug "Saved graph" [("runId", .text id), ("classes", Log.count g.classMap.size),
    ("snapshotBytes", Log.count (Text.Utf8.size (g.toJson.write .guarded)))])

def load (id : String) : Act Connection ClassGraph := do
  let db ← opened (during "failed to read snapshot")
  Act.lift (db.load id)

def entities (id : String) : Act Connection (List String) := do
  return (← opened (during "failed to query entities")).entities id

end Connection
end ClassAtlas.Store
