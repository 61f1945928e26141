import ClassAtlas.Analysis.Run
import ClassAtlas.Batch.Manifest
import ClassAtlas.Settings.Basic

/-!
The analysis of all projects of a manifest. A project that fails does not stop the others, and the
outcomes are in the order of the manifest. Side by side, each project is started and finished at some
time, in any order and no more than so many at a time, and its outcome goes to its own place on a
board. To analyse the projects one after the other is one of these orders.
-/
namespace ClassAtlas.Batch

structure Outcome where
  project : String
  runId : String
  outputDir : String
  counts : Store.Counts
  duration : Time.Duration
  failure : Option Failure

/-- What is asked for a project: what is asked for all of them, but for what the project says itself.
A graph that takes the place of sources belongs to one repository only. -/
def requestFor (m : Manifest) (base : Analysis.Request) (p : Project) : Analysis.Request :=
  { base with
    repoRoot := p.path
    sourceGraph := ""
    acceptPackages := if p.acceptPackages.items.isEmpty then base.acceptPackages else p.acceptPackages
    includeDependencies := p.includeDependencies.getD base.includeDependencies
    outputRoot := if m.outputRoot.isEmpty then
        File.Path.joinAll [p.path, Settings.stateDir, "runs"]
      else File.Path.join m.outputRoot p.name }

variable {σ : Type}

/-- The outcome of an analysis. -/
def outcomeOf (p : Project) (duration : Time.Duration) : Except Failure Analysis.Result → Outcome
  | .ok r => ⟨p.name, r.runId, r.outputDir, r.summary.counts, duration, none⟩
  | .error f => ⟨p.name, "", "", .zero, duration, some f⟩

/-- Start a project, and give back when. If the user has asked to stop it is not started. -/
def beginProject (p : Project) : Act σ Time.Moment := do
  let start ← Act.now
  Act.checkpoint
  Act.log (Log.info "Analysing project" [("project", .text p.name), ("path", .text p.path)])
  return start

/-- Analyse a project that has been started. -/
def finishProject (analyze : Analysis.Request → Act σ Analysis.Result) (request : Analysis.Request)
    (p : Project) (start : Time.Moment) : Act σ Outcome := do
  let result ← Act.attempt (analyze request)
  let finish ← Act.now
  match result with
  | .error f =>
    Act.log (Log.warn "Project analysis failed"
      [("project", .text p.name), ("error", .failure f.text)])
  | .ok _ => pure ()
  return outcomeOf p ⟨finish.since start⟩ result

/-- Analyse one project. -/
def runProject (analyze : Analysis.Request → Act σ Analysis.Result) (request : Analysis.Request)
    (p : Project) : Act σ Outcome := do
  match ← Act.attempt (beginProject p) with
  | .error f => return outcomeOf p ⟨0⟩ (.error f)
  | .ok start => finishProject analyze request p start

/-- Analyse all projects, one after the other. -/
def run (analyze : Analysis.Request → Act σ Analysis.Result) (m : Manifest)
    (base : Analysis.Request) : Act σ (List Outcome) := do
  let outcomes ← m.projects.mapM fun p => runProject analyze (requestFor m base p) p
  Act.log (Log.info "Batch complete" [("projects", .int outcomes.length),
    ("failed", .int (outcomes.filter (·.failure.isSome)).length)])
  return outcomes

/-! Side by side -/

/-- How many projects may be in progress at a time. -/
def Manifest.parallel (m : Manifest) : Nat :=
  (if m.maxParallel ≤ 0 then defaultParallel else m.maxParallel).toNat

/-- What happens to a project, by its position in the manifest. -/
inductive Event where
  | start (position : Nat)
  | finish (position : Nat)
  deriving DecidableEq, Repr

/-- What stands on the board before a project is finished. -/
def Outcome.blank : Outcome := ⟨"", "", "", .zero, ⟨0⟩, none⟩

/-- How far a batch has come: the projects that wait, those in progress with their starts, and a
place for the outcome of each project. -/
structure Board where
  waiting : List Nat
  running : List (Nat × Time.Moment)
  outcomes : List Outcome

namespace Board

/-- All projects wait. -/
def initial (m : Manifest) : Board :=
  ⟨List.range m.projects.length, [], List.replicate m.projects.length .blank⟩

/-- Nothing waits and nothing is in progress. -/
def isComplete (b : Board) : Bool := b.waiting.isEmpty && b.running.isEmpty

/-- Whether a project waits and there is room for one more in progress. -/
def canStart (b : Board) (m : Manifest) (i : Nat) : Bool :=
  b.waiting.contains i && decide (b.running.length < m.parallel)

def started (b : Board) (i : Nat) (start : Time.Moment) : Board :=
  { b with waiting := b.waiting.filter (· != i), running := (i, start) :: b.running }

def ended (b : Board) (i : Nat) (o : Outcome) : Board where
  waiting := b.waiting.filter (· != i)
  running := b.running.filter (·.1 != i)
  outcomes := b.outcomes.set i o

variable {σ : Type}

/-- One event. One that cannot happen now does nothing. -/
def step (analyze : Analysis.Request → Act σ Analysis.Result) (m : Manifest)
    (base : Analysis.Request) (b : Board) : Event → Act σ Board
  | .start i =>
    match m.projects[i]? with
    | none => return b
    | some p =>
      if b.canStart m i then do
        match ← Act.attempt (beginProject p) with
        | .error f => return b.ended i (outcomeOf p ⟨0⟩ (.error f))
        | .ok start => return b.started i start
      else return b
  | .finish i =>
    match m.projects[i]?, b.running.lookup i with
    | some p, some start => do
      return b.ended i (← finishProject analyze (requestFor m base p) p start)
    | _, _ => return b

/-- One event after the other. -/
def play (analyze : Analysis.Request → Act σ Analysis.Result) (m : Manifest)
    (base : Analysis.Request) : List Event → Board → Act σ Board
  | [], b => return b
  | event :: more, b => do
    play analyze m base more (← b.step analyze m base event)

end Board
end ClassAtlas.Batch
