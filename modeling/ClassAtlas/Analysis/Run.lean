import ClassAtlas.Classpath.Descriptor
import ClassAtlas.Classpath.Resolve
import ClassAtlas.Collections
import ClassAtlas.Diagram.Sequence
import ClassAtlas.Export.Files
import ClassAtlas.Graph.Components
import ClassAtlas.Graph.Document
import ClassAtlas.Graph.Import
import ClassAtlas.Scan.Calls
import ClassAtlas.Scan.Structure
import ClassAtlas.Session
import ClassAtlas.Store.Connection
import ClassAtlas.Store.Run
import ClassAtlas.Time.Moment

/-!
One complete analysis: find the classes, scan them, merge in what is known from sources, find cycles,
write diagrams and tables, and keep a record of the run. A run is recorded as running first and ends
as succeeded or failed. The registry of the runs is kept in an open file.
-/
namespace ClassAtlas.Analysis

/-! What is asked for, and what is delivered -/

structure Request where
  repoRoot : String
  acceptPackages : Listing String
  includeDependencies : Bool
  excludeJars : Listing String
  autoCompile : Bool
  maxCallDepth : Int
  /-- Whether sources are read; a graph given by hand takes their place. -/
  scanSources : Bool
  sourceGraph : String
  outputRoot : String
  deriving DecidableEq, Repr, Inhabited

def Request.toJson (r : Request) : Json :=
  .object [("repoRoot", .text r.repoRoot), ("acceptPackages", .ofListing .text r.acceptPackages),
    ("includeDependencies", .bool r.includeDependencies),
    ("excludeJars", .ofListing .text r.excludeJars), ("autoCompile", .bool r.autoCompile),
    ("maxCallDepth", .int r.maxCallDepth), ("scanSources", .bool r.scanSources),
    ("sourceGraph", .text r.sourceGraph), ("outputRoot", .text r.outputRoot)]

def Request.ofJson (j : Json) : Request :=
  ⟨j.textMember "repoRoot", j.textsMember "acceptPackages", j.boolMember "includeDependencies",
    j.textsMember "excludeJars", j.boolMember "autoCompile", (j.intMember? "maxCallDepth").getD 0,
    j.boolMember "scanSources", j.textMember "sourceGraph", j.textMember "outputRoot"⟩

structure Result where
  runId : String
  outputDir : String
  fingerprint : String
  /-- The latest earlier run over the same classes, if there is one. -/
  previousRun : String
  graph : ClassGraph
  diagrams : List String
  exports : List String
  summary : Store.Summary
  duration : Time.Duration

/-- Where runs are recorded. Every operation may fail. -/
structure Registry (σ : Type) where
  create : Store.Run → Act σ Unit
  find? : String → Act σ (Option Store.Run)
  save : String → ClassGraph → Act σ Unit
  finish : String → Store.Summary → Act σ Unit
  fail : String → String → Act σ Unit

/-! The registry in an open file -/

/-- The operations on an open file of runs that is a part of what is outside. -/
def Registry.ofConnection (get : σ → Store.Connection) (put : Store.Connection → σ → σ) :
    Registry σ where
  create r := Act.focus get put (Store.Connection.create r)
  find? fingerprint := Act.focus get put (Store.Connection.find? fingerprint)
  save id g := Act.focus get put (Store.Connection.save id g)
  finish id s := Act.focus get put (Store.Connection.finish id s)
  fail id message := Act.focus get put (Store.Connection.fail id message)

/-! The analysis -/

/-- What an analysis works with: a build tool, a reader of sources and a registry, each if there is
one. -/
structure Equipment (σ : Type) where
  build : Option (Classpath.Build σ)
  sources : Option (String → List String → Act σ ClassGraph)
  registry : Option (Registry σ)

variable {σ : Type}

/-- The other side of the merge: a graph given by hand, or the sources, or nothing. -/
def sourceGraph (equipment : Equipment σ) (repoRoot : String) (request : Request) :
    Act σ ClassGraph := do
  if !request.sourceGraph.isEmpty then
    let path := if File.Path.isAbsolute request.sourceGraph then request.sourceGraph
      else File.Path.join repoRoot request.sourceGraph
    match Graph.load (← Act.disk) path with
    | .ok g => return g
    | .error cause => Act.fail (.because .invalidConfig "cannot load source graph" cause)
  else match equipment.sources with
    | some read =>
      if request.scanSources then read repoRoot request.acceptPackages.items
      else return ClassGraph.empty
    | none => return ClassGraph.empty

/-- The latest earlier run over the same classes. -/
def previousRun (equipment : Equipment σ) (runId fingerprint : String) : Act σ String := do
  match equipment.registry with
  | none => return ""
  | some registry =>
    if fingerprint.isEmpty then return ""
    else match ← Act.attempt (registry.find? fingerprint) with
      | .error f =>
        Act.log (Log.warn "Failed to look up earlier runs"
          [("runId", .text runId), ("error", .failure f.text)])
        return ""
      | .ok none => return ""
      | .ok (some earlier) =>
        Act.log (Log.info "Classpath unchanged since an earlier run"
          [("runId", .text runId), ("previousRun", .text earlier.id)])
        return earlier.id

/-- The fingerprint of a classpath; empty if it cannot be taken. -/
def fingerprintOf (runId : String) (desc : Classpath.Descriptor) : Act σ String := do
  match Classpath.fingerprint (← Act.disk) desc with
  | .ok fingerprint => return fingerprint
  | .error f =>
    Act.log (Log.warn "Failed to fingerprint classpath"
      [("runId", .text runId), ("error", .failure f.text)])
    return ""

/-- The graph of a project: what is compiled, with its calls, merged with what its sources say, and
with its cycles marked. -/
def assemble (source compiled : ClassGraph) (calls : Scan.CallGraph) : ClassGraph :=
  (ClassGraph.merge (some source) (some (calls.addTo compiled))).withComponents

def countsOf (g : ClassGraph) : Store.Counts :=
  ⟨g.classMap.size, g.endpoints.items.length, g.dependencies.items.length, g.cyclicCount⟩

/-- Everything between the two records of a run. -/
def pipeline (equipment : Equipment σ) (runId repoRoot outputDir : String) (request : Request) :
    Act σ Result := do
  let desc ← Classpath.resolve equipment.build
    ⟨request.includeDependencies, request.excludeJars.items, request.autoCompile⟩ repoRoot
  let fingerprint ← fingerprintOf runId desc
  let previousRun ← previousRun equipment runId fingerprint
  let source ← sourceGraph equipment repoRoot request
  let compiled ← Scan.scanStructure desc request.acceptPackages.items
  let calls ← Scan.scanCalls desc request.acceptPackages.items
  let graph := assemble source compiled calls
  Act.log (Log.debug "Graph assembled" [("runId", .text runId),
    ("sourceClasses", Log.count source.classMap.size),
    ("bytecodeClasses", Log.count compiled.classMap.size),
    ("components", Log.count (Components.compute graph.dependencyAdjacency).count)])
  Act.checkpoint
  let diagrams ← Diagram.write outputDir graph ⟨request.maxCallDepth, 0⟩
  let exports ← Export.write outputDir graph
  match equipment.registry with
  | some registry => registry.save runId graph
  | none => pure ()
  return {
    runId, outputDir, fingerprint, previousRun, graph, diagrams, exports
    summary := ⟨outputDir, fingerprint, countsOf graph⟩
    duration := ⟨0⟩ }

/-- Name the run in a failure. One that has no code becomes an internal one. -/
def withRunId (runId : String) (f : Failure) : Failure :=
  let details : Json := .object [("runId", .text runId)]
  match f.code?, f.details? with
  | none, _ => .coded .internal "analysis failed" (some f) (some details)
  | some _, some _ => f
  | some _, none => (f.withDetails? details).getD f

/-- Record a failure, even if the user has asked to stop. -/
def recordFailure (equipment : Equipment σ) (runId : String) (f : Failure) : Act σ Unit := do
  Act.log (Log.error "Analysis failed" [("runId", .text runId), ("error", .failure f.text)])
  match equipment.registry with
  | none => pure ()
  | some registry =>
    match ← Act.attempt (Act.patiently (registry.fail runId f.text)) with
    | .ok () => pure ()
    | .error g =>
      Act.log (Log.warn "Failed to record run failure"
        [("runId", .text runId), ("error", .failure g.text)])

/-- Record the end of a run that went well. -/
def recordSuccess (equipment : Equipment σ) (start : Time.Moment) (r : Result) : Act σ Result := do
  match equipment.registry with
  | none => pure ()
  | some registry =>
    match ← Act.attempt (registry.finish r.runId r.summary) with
    | .ok () => pure ()
    | .error f => Act.fail (withRunId r.runId f)
  let duration : Time.Duration := ⟨(← Act.now).since start⟩
  Act.log (Log.info "Analysis complete" [("runId", .text r.runId),
    ("classes", .int r.summary.counts.classes), ("endpoints", .int r.summary.counts.endpoints),
    ("dependencies", .int r.summary.counts.dependencies), ("cyclic", .int r.summary.counts.cyclic),
    ("output", .text r.outputDir), ("duration", .duration duration.roundedToMillis)])
  return { r with duration }

/-- What is missing in a request. -/
def Request.fault? (request : Request) : Option Failure :=
  if Text.isBlank request.repoRoot then
    some (.ofCode .invalidConfig "repository root is required")
  else if Text.isBlank request.outputRoot then
    some (.ofCode .invalidConfig "output root is required")
  else none

/-- Record the start of a run. -/
def recordStart (equipment : Equipment σ) (runId repoRoot outputDir : String)
    (start : Time.Moment) (request : Request) : Act σ Unit :=
  match equipment.registry with
  | none => pure ()
  | some registry => registry.create {
      id := runId, repoRoot, acceptPackages := request.acceptPackages, status := .running
      startedAt := start.toUtc, completedAt := none, outputDir, fingerprint := "", counts := .zero
      error := "" }

/-- A run that is entered: its name, where it reads, where it writes, and when it started. -/
structure Opening where
  runId : String
  repoRoot : String
  outputDir : String
  start : Time.Moment

/-- Name a run and enter it. -/
def openRun (equipment : Equipment σ) (request : Request) : Act σ Opening := do
  let repoRoot := (← Act.disk).absolute request.repoRoot
  let runId ← Act.freshIdentifier
  let outputDir := File.Path.join request.outputRoot runId
  let start ← Act.now
  recordStart equipment runId repoRoot outputDir start request
  Act.log (Log.info "Starting analysis" [("runId", .text runId), ("repo", .text repoRoot),
    ("accept", .text (Text.join "," request.acceptPackages.items))])
  return ⟨runId, repoRoot, outputDir, start⟩

/-- The work of a run that is entered. -/
def Opening.work (opening : Opening) (equipment : Equipment σ) (request : Request) : Act σ Result :=
  pipeline equipment opening.runId opening.repoRoot opening.outputDir request

/-- Analyse a project. -/
def analyze (equipment : Equipment σ) (request : Request) : Act σ Result := do
  match request.fault? with
  | some f => Act.fail f
  | none =>
    let opening ← openRun equipment request
    match ← Act.attempt (opening.work equipment request) with
    | .ok result => recordSuccess equipment opening.start result
    | .error f =>
      recordFailure equipment opening.runId f
      Act.fail (withRunId opening.runId f)

end ClassAtlas.Analysis
