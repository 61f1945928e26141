import ClassAtlas.Collections
import ClassAtlas.Text.Basic
import ClassAtlas.Time.Moment

/-!
The record of one analysis run, and the texts that are kept of it.
-/
namespace ClassAtlas.Store

/-- How far a run has come, by its word. -/
structure Status where
  word : String
  deriving DecidableEq, Repr, Inhabited

def Status.running : Status := ⟨"RUNNING"⟩

def Status.succeeded : Status := ⟨"SUCCEEDED"⟩

def Status.failed : Status := ⟨"FAILED"⟩

/-- What an analysis found, in numbers. -/
structure Counts where
  classes : Int
  endpoints : Int
  dependencies : Int
  cyclic : Int
  deriving DecidableEq, Repr, Inhabited

def Counts.zero : Counts := ⟨0, 0, 0, 0⟩

structure Run where
  id : String
  repoRoot : String
  acceptPackages : Listing String
  status : Status
  startedAt : Time.Moment
  completedAt : Option Time.Moment
  outputDir : String
  fingerprint : String
  counts : Counts
  error : String
  deriving DecidableEq, Repr, Inhabited

/-- What is recorded when a run succeeds. -/
structure Summary where
  outputDir : String
  fingerprint : String
  counts : Counts
  deriving DecidableEq, Repr, Inhabited

/-- A list of packages is kept as one text with commas. -/
def packagesText (packages : List String) : String := Text.join "," packages

def readPackages (text : String) : List String :=
  if text.isEmpty then [] else Text.splitOn ',' text

/-- An empty text is kept as nothing. -/
def nullable (s : String) : Option String := if s.isEmpty then none else some s

/-- A run as it is kept: its packages as one text, its times as texts that are in order of time, and
nothing in place of an empty text. -/
structure RunRow where
  id : String
  repoRoot : String
  acceptPackages : String
  status : Status
  startedAt : String
  completedAt : Option String
  outputDir : Option String
  fingerprint : Option String
  counts : Counts
  error : Option String
  deriving DecidableEq, Repr, Inhabited

namespace RunRow

/-- A run as it is first recorded. Without a status it is running. -/
def ofRun (r : Run) : RunRow where
  id := r.id
  repoRoot := r.repoRoot
  acceptPackages := packagesText r.acceptPackages.items
  status := if r.status.word.isEmpty then .running else r.status
  startedAt := r.startedAt.stamp
  completedAt := none
  outputDir := nullable r.outputDir
  fingerprint := nullable r.fingerprint
  counts := .zero
  error := none

def finished (row : RunRow) (at_ : Time.Moment) (s : Summary) : RunRow :=
  { row with
    status := .succeeded
    completedAt := some at_.stamp
    outputDir := nullable s.outputDir
    fingerprint := nullable s.fingerprint
    counts := s.counts
    error := none }

def failedWith (row : RunRow) (at_ : Time.Moment) (message : String) : RunRow :=
  { row with status := .failed, completedAt := some at_.stamp, error := nullable message }

/-- What is known of a run from what is kept. A time that cannot be read is none. -/
def run (row : RunRow) : Run where
  id := row.id
  repoRoot := row.repoRoot
  acceptPackages := some (readPackages row.acceptPackages)
  status := row.status
  startedAt := (Time.Moment.ofStamp? row.startedAt).getD .zero
  completedAt := row.completedAt.bind Time.Moment.ofStamp?
  outputDir := row.outputDir.getD ""
  fingerprint := row.fingerprint.getD ""
  counts := row.counts
  error := row.error.getD ""

/-- Later runs first, those of one moment by their names. -/
def precedes (a b : RunRow) : Bool :=
  decide (b.startedAt < a.startedAt) || (a.startedAt == b.startedAt && decide (a.id ≤ b.id))

end RunRow
end ClassAtlas.Store
