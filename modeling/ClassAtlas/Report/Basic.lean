import ClassAtlas.Decimal.Layout
import ClassAtlas.Export.Files
import ClassAtlas.Json.Writer
import ClassAtlas.Store.Document
import ClassAtlas.Text.Utf8
import ClassAtlas.Time.Moment

/-!
What a command reports at its end, as a document for programs or as a text for people.
-/
namespace ClassAtlas.Report

/-! Sizes, and texts cut to a width -/

/-- The letters of the units above the byte. -/
def unitLetters : List Char := ['K', 'M', 'G', 'T', 'P', 'E']

/-- The largest unit of which a number of bytes is at least one, and its size. -/
def unitFor (bytes : Nat) : List Char → Nat → Char × Nat
  | [], size => ('B', size)
  | [letter], size => (letter, size)
  | letter :: more, size => if bytes / size < 1024 then (letter, size) else unitFor bytes more (size * 1024)

/-- A whole number as far as a double-precision number holds it. -/
def held (n : Nat) : Nat :=
  match Decimal.Binary64.ofFraction false n 1 with
  | .finite _ m q => if 0 ≤ q then m * Nat.pow 2 q.toNat else m / Nat.pow 2 (-q).toNat
  | _ => n

/-- A number of bytes: below 1024 as it is, above it with one place in the largest unit that fits. -/
def byteSize (bytes : Int) : String :=
  if bytes < 1024 then toString bytes ++ " B"
  else
    let (letter, size) := unitFor bytes.toNat unitLetters 1024
    Decimal.fixed 1 (held bytes.toNat) size ++ " " ++ String.singleton letter ++ "iB"

/-- A text of at most so many bytes; a longer one is cut and marked. -/
def truncated (s : String) (width : Nat) : String :=
  if Text.Utf8.size s ≤ width then s else Text.Utf8.takeBytes (width - 1) s ++ "~"

end ClassAtlas.Report

/-! Reports -/
namespace ClassAtlas

namespace Report

structure Analysis where
  runId : String
  outputDir : String
  fingerprint : String
  previousRun : String
  counts : Store.Counts
  files : Listing String
  durationMs : Int

structure BatchProject where
  name : String
  runId : String
  outputDir : String
  classes : Int
  endpoints : Int
  durationMs : Int
  error : String

structure Batch where
  projects : Listing BatchProject
  failed : Int

structure File where
  name : String
  size : Int

end Report

inductive Report where
  | analysis (a : Report.Analysis)
  | batch (b : Report.Batch)
  | runs (runs : Listing Store.Run)
  | run (r : Store.Run) (entities : Listing String)
  | files (runId dir : String) (files : Listing Report.File)
  | document (j : Json)

namespace Report

/-- A member that is left out when there is no such moment. -/
def optionalMoment (name : String) (m : Option Time.Moment) : List (String × Json) :=
  match m with
  | none => []
  | some m => [(name, .text m.preciseText)]

def runJson (r : Store.Run) : Json :=
  .object ([("id", .text r.id), ("repoRoot", .text r.repoRoot),
      ("acceptPackages", .ofListing .text r.acceptPackages), ("status", .text r.status.word),
      ("startedAt", .text r.startedAt.preciseText)] ++
    optionalMoment "completedAt" r.completedAt ++ Json.optionalText "outputDir" r.outputDir ++
    Json.optionalText "fingerprint" r.fingerprint ++
    [("classCount", .int r.counts.classes), ("endpointCount", .int r.counts.endpoints),
      ("dependencyCount", .int r.counts.dependencies), ("cycleCount", .int r.counts.cyclic)] ++
    Json.optionalText "error" r.error)

def Analysis.toJson (a : Analysis) : Json :=
  .object ([("runId", .text a.runId), ("outputDir", .text a.outputDir)] ++
    Json.optionalText "fingerprint" a.fingerprint ++ Json.optionalText "previousRun" a.previousRun ++
    [("classes", .int a.counts.classes), ("endpoints", .int a.counts.endpoints),
      ("dependencies", .int a.counts.dependencies), ("cyclicClasses", .int a.counts.cyclic),
      ("files", .ofListing .text a.files), ("durationMs", .int a.durationMs)])

def BatchProject.toJson (p : BatchProject) : Json :=
  .object ([("name", .text p.name)] ++ Json.optionalText "runId" p.runId ++
    Json.optionalText "outputDir" p.outputDir ++
    [("classes", .int p.classes), ("endpoints", .int p.endpoints), ("durationMs", .int p.durationMs)] ++
    Json.optionalText "error" p.error)

def File.toJson (f : File) : Json := .object [("name", .text f.name), ("size", .int f.size)]

def toJson : Report → Json
  | .analysis a => a.toJson
  | .batch b => .object [("projects", .ofListing BatchProject.toJson b.projects), ("failed", .int b.failed)]
  | .runs rs => .object [("runs", .ofListing runJson rs)]
  | .run r entities => .object [("run", runJson r), ("entities", .ofListing .text entities)]
  | .files runId dir fs =>
    .object [("runId", .text runId), ("dir", .text dir), ("files", .ofListing File.toJson fs)]
  | .document j => j.sorted

/-- Lines one under the other, without empty ones at the end. -/
def block (lines : List String) : String := Text.dropTrailing '\n' (String.join (lines.map (· ++ "\n")))

def analysisText (a : Analysis) : String :=
  block (["Run " ++ a.runId ++ " completed in " ++ (Time.Duration.ofMillis a.durationMs).text,
      "  Classes:      " ++ toString a.counts.classes,
      "  Endpoints:    " ++ toString a.counts.endpoints,
      "  Dependencies: " ++ toString a.counts.dependencies,
      "  In cycles:    " ++ toString a.counts.cyclic] ++
    (if a.previousRun.isEmpty then [] else ["  Unchanged since run " ++ a.previousRun]) ++
    ["", "Output: " ++ a.outputDir] ++ a.files.items.map ("  " ++ ·))

/-- One line of the table of a batch. -/
def batchLine (name status classes endpoints last : String) : String :=
  Text.padRight 24 name ++ " " ++ Text.padRight 8 status ++ " " ++ Text.padLeft 8 classes ++ " " ++
    Text.padLeft 9 endpoints ++ "  " ++ last ++ "\n"

def projectLine (p : BatchProject) : String :=
  let name := truncated p.name 24
  if p.error.isEmpty then batchLine name "OK" (toString p.classes) (toString p.endpoints) p.runId
  else batchLine name "FAILED" "-" "-" p.error

def batchText (b : Batch) : String :=
  batchLine "PROJECT" "STATUS" "CLASSES" "ENDPOINTS" "RUN" ++
    String.join (b.projects.items.map projectLine) ++
    "\n" ++ toString b.projects.items.length ++ " project(s), " ++ toString b.failed ++ " failed"

/-- One line of the table of runs. -/
def runLine (id status started classes endpoints : String) : String :=
  Text.padRight 36 id ++ " " ++ Text.padRight 9 status ++ " " ++ Text.padRight 20 started ++ " " ++
    Text.padLeft 8 classes ++ " " ++ Text.padLeft 9 endpoints

def runsText (runs : List Store.Run) : String :=
  if runs.isEmpty then "No runs recorded."
  else block (runLine "ID" "STATUS" "STARTED" "CLASSES" "ENDPOINTS" :: runs.map fun r =>
    runLine r.id r.status.word (r.startedAt.toUtc.dateTime " ") (toString r.counts.classes)
      (toString r.counts.endpoints))

def runText (r : Store.Run) (entities : List String) : String :=
  let unlessEmpty (label s : String) : List String := if s.isEmpty then [] else [label ++ s]
  block (["Run:          " ++ r.id, "Status:       " ++ r.status.word, "Repository:   " ++ r.repoRoot] ++
    (if r.acceptPackages.items.isEmpty then []
      else ["Packages:     " ++ Text.join ", " r.acceptPackages.items]) ++
    ["Started:      " ++ r.startedAt.toUtc.text] ++
    (match r.completedAt with
      | none => []
      | some m => ["Completed:    " ++ m.toUtc.text ++ " (" ++
          (Time.Duration.clamped (m.since r.startedAt)).roundedToMillis.text ++ ")"]) ++
    unlessEmpty "Error:        " r.error ++ unlessEmpty "Output:       " r.outputDir ++
    ["Classes:      " ++ toString r.counts.classes, "Endpoints:    " ++ toString r.counts.endpoints,
      "Dependencies: " ++ toString r.counts.dependencies,
      "In cycles:    " ++ toString r.counts.cyclic] ++
    (if entities.isEmpty then []
      else ["", "Entities (" ++ toString entities.length ++ "):"] ++ entities.map ("  " ++ ·)))

def fileLine (f : File) : String :=
  "  " ++ Text.padRight 40 f.name ++ " " ++ Text.padLeft 10 (byteSize f.size)

/-- The report as a document. -/
def documentText (r : Report) : String := r.toJson.write .indented

/-- The report for people. -/
def text : Report → String
  | .analysis a => analysisText a
  | .batch b => batchText b
  | .runs rs => runsText rs.items
  | .run r entities => runText r entities.items
  | .files _ dir fs => block (dir :: fs.items.map fileLine)
  | .document j => documentText (.document j)

/-- The report in a form given by its name. -/
def write (r : Report) (form : String) : Except Failure String :=
  if form == "json" then .ok r.documentText
  else if form == "human" then .ok r.text
  else .error (.plain ("unsupported format: " ++ form))

end Report
end ClassAtlas
