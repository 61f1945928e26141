import ClassAtlas.Json.Reader
import ClassAtlas.Json.Writer
import ClassAtlas.Store.Database
import ClassAtlas.Text.Utf8

/-!
The registry as the bytes of a file, and the rows of a saved graph, table by table, each with its
columns.
-/
namespace ClassAtlas.Store

def Counts.toJson (c : Counts) : Json := .object [("classes", .int c.classes),
  ("endpoints", .int c.endpoints), ("dependencies", .int c.dependencies), ("cyclic", .int c.cyclic)]

def Counts.ofJson (j : Json) : Counts :=
  let count (name : String) : Int := (j.intMember? name).getD 0
  ⟨count "classes", count "endpoints", count "dependencies", count "cyclic"⟩

def RunRow.toJson (row : RunRow) : Json := .object [("id", .text row.id),
  ("repoRoot", .text row.repoRoot), ("acceptPackages", .text row.acceptPackages),
  ("status", .text row.status.word), ("startedAt", .text row.startedAt),
  ("completedAt", .ofOption .text row.completedAt), ("outputDir", .ofOption .text row.outputDir),
  ("fingerprint", .ofOption .text row.fingerprint), ("counts", row.counts.toJson),
  ("error", .ofOption .text row.error)]

def RunRow.ofJson (j : Json) : RunRow where
  id := j.textMember "id"
  repoRoot := j.textMember "repoRoot"
  acceptPackages := j.textMember "acceptPackages"
  status := ⟨j.textMember "status"⟩
  startedAt := j.textMember "startedAt"
  completedAt := j.textMember? "completedAt"
  outputDir := j.textMember? "outputDir"
  fingerprint := j.textMember? "fingerprint"
  counts := ((j.member? "counts").map Counts.ofJson).getD .zero
  error := j.textMember? "error"

def Snapshot.toJson (s : Snapshot) : Json :=
  .object [("encoding", .text s.encoding), ("content", .ofOption .text s.content)]

def Snapshot.ofJson (j : Json) : Snapshot := ⟨j.textMember "encoding", j.textMember? "content"⟩

/-- A row as its table, its place in it where it has one, and what it holds. -/
def Entry.toJson (e : Entry) : Json :=
  let members (more : List (String × Json)) : Json := .object (("table", .text e.table.name) :: more)
  match e with
  | .class_ c => members [("value", c.toJson)]
  | .field className position f =>
    members [("class", .text className), ("position", .nat position), ("value", f.toJson)]
  | .dependency position d => members [("position", .nat position), ("value", d.toJson)]
  | .endpoint position e => members [("position", .nat position), ("value", e.toJson)]
  | .generator d => members [("value", d.toJson)]
  | .generatorUse u => members [("value", u.toJson)]
  | .snapshot s => members [("value", s.toJson)]

def Entry.ofJson (table : Table) (j : Json) : Entry :=
  let value := (j.member? "value").getD .null
  let position := ((j.intMember? "position").getD 0).toNat
  match table with
  | .classes => .class_ (.ofJson value)
  | .classFields => .field (j.textMember "class") position (.ofJson value)
  | .dependencies => .dependency position (.ofJson value)
  | .endpoints => .endpoint position (.ofJson value)
  | .sequences => .generator (.ofJson value)
  | .sequenceUses => .generatorUse (.ofJson value)
  | .snapshots => .snapshot (.ofJson value)

def Stored.toJson (row : Stored) : Json :=
  .object [("run", .text row.run), ("entry", row.entry.toJson)]

/-- A row of a table that there is. -/
def Stored.ofJson? (j : Json) : Option Stored := do
  let entry ← j.member? "entry"
  let table ← Table.all.find? (·.name == entry.textMember "table")
  return ⟨j.textMember "run", .ofJson table entry⟩

/-- The mark that a file of runs starts with. -/
def fileMark : String := "class atlas 1\n"

def Database.toBytes (db : Database) : List UInt8 :=
  Text.Utf8.encode (fileMark ++ (Json.object [("runs", .list (db.runs.map (·.toJson))),
    ("stored", .list (db.stored.map (·.toJson)))]).write .compact)

/-- Read a file of runs. An empty file holds none; other bytes may be no such file. -/
def Database.ofBytes? (bytes : List UInt8) : Option Database :=
  if bytes.isEmpty then some .empty
  else
    let text := Text.Utf8.decode bytes
    if !Text.startsWith text fileMark then none
    else do
      let j ← Json.read? (Text.dropStart text fileMark)
      return ⟨(j.listMember RunRow.ofJson "runs").items,
        (j.listMember Stored.ofJson? "stored").items.filterMap id⟩

/-! Rows of tables -/

abbrev Row := List (String × Json)

/-- An empty text is stored as nothing. -/
def storedText (s : String) : Json := if s.isEmpty then .null else .text s

def storedBool (b : Bool) : Json := .nat (if b then 1 else 0)

def joined (items : Listing String) : Json := .text (Text.join "|" items.items)

def classRow (run : String) (c : Graph.Class) : Row := [
  ("run_id", .text run), ("name", .text c.name), ("package_name", .text c.packageName),
  ("simple_name", .text c.simpleName), ("kind", .text c.kind.word),
  ("super_class", storedText c.superClass), ("stereotypes", joined c.stereotypes),
  ("entity", storedBool c.entity), ("table_name", .ofOption .text c.tableName),
  ("origin", .text c.origin.word), ("scc_id", .ofOption .int c.component),
  ("in_cycle", storedBool c.inCycle), ("location", storedText c.location)]

def fieldRow (run class_ : String) (position : Nat) (f : Graph.Field) : Row := [
  ("run_id", .text run), ("class_name", .text class_), ("position", .nat position),
  ("name", .text f.name), ("type", .text f.type), ("annotations", joined f.annotations),
  ("injected", storedBool f.injected), ("relationship", storedBool f.relationship)]

def dependencyRow (run : String) (position : Nat) (d : Graph.Dependency) : Row := [
  ("run_id", .text run), ("position", .nat position), ("from_class", .text d.source),
  ("to_class", .text d.target), ("kind", .text d.kind.word), ("label", storedText d.label)]

def endpointRow (run : String) (position : Nat) (e : Graph.Endpoint) : Row := [
  ("run_id", .text run), ("position", .nat position), ("type", .text e.kind.word),
  ("http_method", storedText e.httpMethod), ("path", .text e.path),
  ("controller_class", .text e.controllerClass), ("controller_method", .text e.controllerMethod),
  ("produces", storedText e.produces), ("consumes", storedText e.consumes),
  ("framework", .text e.framework)]

def generatorRow (run : String) (d : Graph.Generator) : Row := [
  ("run_id", .text run), ("generator_name", .text d.name),
  ("sequence_name", storedText d.sequenceName),
  ("allocation_size", .ofOption .int d.allocationSize),
  ("initial_value", .ofOption .int d.initialValue)]

def generatorUseRow (run : String) (u : Graph.GeneratorUse) : Row := [
  ("run_id", .text run), ("class_name", .text u.className), ("field_name", .text u.fieldName),
  ("generator_name", .text u.generatorName)]

def Table.ofName? (name : String) : Option Table := Table.all.find? (·.name == name)

def Entry.row (run : String) : Entry → Row
  | .class_ c => classRow run c
  | .field className position f => fieldRow run className position f
  | .dependency position d => dependencyRow run position d
  | .endpoint position e => endpointRow run position e
  | .generator d => generatorRow run d
  | .generatorUse u => generatorUseRow run u
  | .snapshot s => [("run_id", .text run), ("encoding", .text s.encoding)]

/-- The order of rows in one table: by name and position where the key has them, else as written. -/
def Entry.precedes (a b : Entry) : Bool :=
  match a, b with
  | .class_ c, .class_ d => decide (c.name ≤ d.name)
  | .field c i _, .field d j _ => decide (c < d) || (c == d && decide (i ≤ j))
  | .dependency i _, .dependency j _ => decide (i ≤ j)
  | .endpoint i _, .endpoint j _ => decide (i ≤ j)
  | .generator c, .generator d => decide (c.name ≤ d.name)
  | _, _ => true

/-- The rows of a table that belong to a run, in order of its key. -/
def Database.rows (db : Database) (run : String) (table : Table) : List Row :=
  (((db.entriesOf run).filter (·.table == table)).mergeSort Entry.precedes).map (Entry.row run)

end ClassAtlas.Store
