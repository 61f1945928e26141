import ClassAtlas.Analysis.Run
import ClassAtlas.Batch.Run
import ClassAtlas.Classpath.Resolve
import ClassAtlas.CommandLine.Command
import ClassAtlas.Log.Writer
import ClassAtlas.Project.Declaration
import ClassAtlas.Report.Basic
import ClassAtlas.Settings.Load
import ClassAtlas.Source.Build

/-!
What each command does. A command prints to its output, and what it reports on the way is shown when
it is over.
-/
namespace ClassAtlas.CommandLine

/-- What a command has at hand: the open registry, what it has printed, and how its reports are
shown. -/
structure Console where
  connection : Store.Connection
  output : List UInt8
  logger : Log.Logger

namespace Console

/-- Nothing printed and nothing open. Reports are shown from the level of information on. -/
def fresh : Console := ⟨default, [], .make .line .info⟩

end Console

abbrev Step := Act Console

def print (text : String) : Step Unit := fun s =>
  (.ok (), { s with outside := { s.outside with output := s.outside.output ++ Text.Utf8.encode text } })

def printLine (text : String) : Step Unit := print (text ++ "\n")

def printBytes (bytes : List UInt8) : Step Unit := fun s =>
  (.ok (), { s with outside := { s.outside with output := s.outside.output ++ bytes } })

/-- A step on the open registry. -/
def onRegistry (act : Act Store.Connection α) : Step α :=
  Act.focus (·.connection) (fun c s => { s with connection := c }) act

/-- Run a step, and another one behind it whatever happens. -/
def finally_ (act : Step α) (after : Step Unit) : Step α := fun s =>
  let (outcome, s) := act s
  let (_, s) := after s
  (outcome, s)

/-- What a command works with: a repository, its settings and what it declares. -/
structure Workplace where
  repoRoot : String
  settings : Settings
  declaration : Option Project.Declaration

/-- The repository that is asked for, or else the working directory. -/
def repoRoot (given : Given) : Step String := do
  let d ← Act.disk
  let asked := given.text "repo" ""
  return if asked.isEmpty then d.workingPath else d.absolute asked

/-- The way in which reports are shown: flags go before the settings. -/
def loggerFor (given : Given) (settings : Settings) : Log.Logger :=
  let asked := given.text "log-format" ""
  .make (.ofName (if asked.isEmpty then settings.logging.format else asked))
    (.ofVerbosity (given.count "verbose") (given.isOn "quiet") (.ofName settings.logging.level))

/-- Look around in the repository. -/
def workplace (given : Given) : Step Workplace := do
  let root ← repoRoot given
  let s ← Act.session
  match Settings.load s.disk s.environment root with
  | .error cause => Act.fail (.because .invalidConfig "failed to load configuration" cause)
  | .ok settings =>
    match Project.Declaration.load s.disk root with
    | .error cause =>
      Act.fail (.because .invalidConfig ("failed to load " ++ Project.Declaration.fileName) cause)
    | .ok declaration =>
      let settings := match declaration with
        | some f => f.apply settings
        | none => settings
      fun s => (.ok ⟨root, settings, declaration⟩,
        { s with outside := { s.outside with logger := loggerFor given settings } })

def checkSettings (w : Workplace) : Step Unit :=
  match w.settings.flaw? with
  | none => return ()
  | some flaw => Act.fail (.because .invalidConfig "invalid configuration" flaw.toFailure)

/-- Open the registry of a repository. -/
def openRegistry (w : Workplace) : Step Unit := do
  let c ← Store.connect (w.settings.storePathIn w.repoRoot)
  fun s => (.ok (), { s with outside := { s.outside with connection := c } })

/-- Run a step with the registry open. -/
def withRegistry (given : Given) (act : Step α) : Step α := do
  openRegistry (← workplace given)
  finally_ act (onRegistry Store.Connection.close)

/-- A list that is absent when it is empty. -/
def unlessEmpty (l : Listing String) : Listing String := if l.items.isEmpty then none else l

def requestOf (w : Workplace) : Analysis.Request :=
  let s := w.settings
  ⟨w.repoRoot, unlessEmpty s.analysis.acceptPackages, s.analysis.includeDependencies,
    unlessEmpty s.excludeJars, s.compile.autoCompile, s.analysis.maxCallDepth, s.analysis.scanSources,
    (w.declaration.map (·.sourceGraphIn w.repoRoot)).getD "", s.outputRootIn w.repoRoot⟩

/-- Run a step with everything that analyses need. If runs are kept, the registry is open meanwhile. -/
def withAnalysis (programs : Outside.Programs) (w : Workplace) (keep : Bool)
    (act : (Analysis.Request → Step Analysis.Result) → Step α) : Step α := do
  let compile := w.settings.compile
  let tool := Classpath.BuildTool.make compile.executable compile.maxRuntimeSeconds compile.maxHeapMb
  let sources := if w.settings.analysis.scanSources then some Source.build else none
  if keep && w.settings.store.enabled then
    openRegistry w
    let registry := Analysis.Registry.ofConnection Console.connection
      fun c s => { s with connection := c }
    finally_ (act (Analysis.analyze ⟨some (tool.run programs), sources, some registry⟩))
      (onRegistry Store.Connection.close)
  else act (Analysis.analyze ⟨some (tool.run programs), sources, none⟩)

/-- Settings with the flags of an analysis in their place. -/
def applyFlags (d : File.Disk) (given : Given) (s : Settings) : Settings :=
  let output := given.text "output" ""
  { s with
    analysis := { s.analysis with
      acceptPackages := ((given.texts? "accept").map some).getD s.analysis.acceptPackages
      includeDependencies := (given.switch? "include-deps").getD s.analysis.includeDependencies
      maxCallDepth := (given.number? "max-depth").getD s.analysis.maxCallDepth
      scanSources := s.analysis.scanSources && !given.isOn "no-sources" }
    compile := { s.compile with
      autoCompile := (given.switch? "auto-compile").getD s.compile.autoCompile
      maxRuntimeSeconds := (given.number? "build-timeout").getD s.compile.maxRuntimeSeconds }
    excludeJars := ((given.texts? "exclude-jar").map some).getD s.excludeJars
    outputRoot := if output.isEmpty then s.outputRoot else d.absolute output }

def printReport (r : Report) (form : String) : Step Unit := do
  printLine (← Act.lift (r.write form))

def analysisReport (r : Analysis.Result) : Report :=
  .analysis ⟨r.runId, r.outputDir, r.fingerprint, r.previousRun, r.summary.counts,
    some ((r.exports ++ r.diagrams).map File.Path.base), r.duration.millis⟩

def analyze (programs : Outside.Programs) (given : Given) : Step Unit := do
  let w ← workplace given
  let d ← Act.disk
  let w := { w with settings := applyFlags d given w.settings }
  checkSettings w
  withAnalysis programs w (!given.isOn "no-store") fun run => do
    let graph := given.text "source-graph" ""
    let request := requestOf w
    let result ← run (if graph.isEmpty then request else { request with sourceGraph := d.absolute graph })
    printReport (analysisReport result) (given.text "format" "human")

def batchReport (outcomes : List Batch.Outcome) : Report.Batch :=
  ⟨some (outcomes.map fun o => ⟨o.project, o.runId, o.outputDir, o.counts.classes, o.counts.endpoints,
      o.duration.millis, (o.failure.map Failure.text).getD ""⟩),
    (outcomes.filter (·.failure.isSome)).length⟩

def batchRun (programs : Outside.Programs) (given : Given) (path : String) : Step Unit := do
  let w ← workplace given
  checkSettings w
  let m ← Act.lift (Batch.Manifest.load (← Act.disk) path)
  let parallel := (given.number? "parallel").getD 0
  let m := if parallel > 0 then { m with maxParallel := parallel } else m
  withAnalysis programs w (!given.isOn "no-store") fun run => do
    let outcomes ← Batch.run run m (requestOf w)
    let report := batchReport outcomes
    printReport (.batch report) (given.text "format" "human")
    if report.failed > 0 then
      Act.fail (.ofCode .internal
        (toString report.failed ++ " of " ++ toString outcomes.length ++ " project(s) failed"))

def batchAdd (given : Given) (manifest name path : String) : Step Unit := do
  let d ← Act.disk
  let m ← if d.exists_ manifest then Act.lift (Batch.Manifest.load d manifest) else pure .empty
  let place := d.absolute path
  let (m, outcome) := m.add ⟨name, place, given.texts? "accept", none⟩
  match outcome with
  | .error cause => Act.fail (.because .invalidConfig "cannot add project" cause)
  | .ok () =>
    m.save manifest
    printLine ("Added " ++ name ++ " (" ++ place ++ ") to " ++ manifest)

def initialise (given : Given) : Step Unit := do
  let root ← repoRoot given
  let d ← Act.disk
  let declarationPath := File.Path.join root Project.Declaration.fileName
  let settingsPath := File.Path.joinAll [root, Settings.stateDir, "config.json"]
  let force := given.isOn "force"
  if !force && d.exists_ declarationPath then
    printLine "codevision already initialized."
    printLine ("Declaration at: " ++ declarationPath)
    printLine "\nRun 'codevision init --force' to reinitialize."
  else
    let explained (what : String) (act : Step Unit) : Step Unit := do
      match ← Act.attempt act with
      | .ok () => return ()
      | .error cause => Act.fail (.because .internal ("failed to write " ++ what) cause)
    let found := Project.Declaration.detect d root
    explained Project.Declaration.fileName (found.write declarationPath)
    if force || !(← Act.disk).exists_ settingsPath then
      explained "config file" (Settings.standard.save root)
    printLine "codevision initialized successfully!"
    printLine ("Declaration written to: " ++ declarationPath)
    if !found.build.isEmpty then printLine ("  Build tool: " ++ found.build)
    if !found.acceptPackages.items.isEmpty then
      printLine ("  Accepted packages: [" ++ Text.join " " found.acceptPackages.items ++ "]")
    let modules := Project.modules (← Act.disk) root
    if !modules.isEmpty then
      printLine ("  Modules: " ++ toString modules.length ++
        " (analyze each with --repo, or list them in a batch manifest)")
    printLine ("Configuration at: " ++ settingsPath)
    printLine "\nNext steps:"
    printLine ("  1. Review accept_packages in " ++ Project.Declaration.fileName)
    printLine "  2. Run 'codevision analyze'"

/-- The outcome of an operation on files. -/
def orFault (outcome : Except File.Fault α) : Step α := Act.lift (outcome.mapError File.Fault.toFailure)

/-- Copy a file to a place, or to the output. The place is cleared before it is filled, so a file
copied onto itself is empty afterwards. -/
def copyFile (source target : String) : Step Unit := do
  let d ← Act.disk
  let bytes ← orFault (d.readFile source)
  if target.isEmpty then printBytes bytes
  else
    let cleared ← orFault (d.writeFile target [])
    Act.setDisk cleared
    let bytes ← orFault (cleared.readFile source)
    Act.setDisk (← orFault (cleared.writeFile target bytes))

def showRuns (given : Given) : Step Unit := withRegistry given do
  let runs ← onRegistry (Store.Connection.list ((given.number? "limit").getD 20))
  printReport (.runs (if runs.isEmpty then none else some runs)) (given.text "format" "human")

def showRun (given : Given) (id : String) : Step Unit := withRegistry given do
  let run ← onRegistry (Store.Connection.get id)
  let entities ← onRegistry (Store.Connection.entities run.id)
  printReport (.run run (some entities)) (given.text "format" "human")

def showFiles (given : Given) (id : String) : Step Unit := withRegistry given do
  let run ← onRegistry (Store.Connection.get id)
  let files ← Act.lift (Export.listFiles (← Act.disk) run.outputDir)
  printReport (.files run.id run.outputDir (some (files.map fun f => ⟨f.name, f.size⟩)))
    (given.text "format" "human")

def exportFile (given : Given) (id name : String) : Step Unit := withRegistry given do
  let run ← onRegistry (Store.Connection.get id)
  let path ← Act.lift (Export.fileNamed (← Act.disk) run.outputDir name)
  copyFile path (given.text "output" "")

def showGraph (given : Given) (id : String) : Step Unit := withRegistry given do
  let g ← onRegistry (Store.Connection.load id)
  printLine (g.toJson.write .indented)

/-- The commands below a command, for someone who asks. -/
def helpText (c : Command) : String :=
  "Usage: " ++ c.path ++ " [flags]" ++
    (if c.children.isEmpty then "" else " [command]\n\nCommands:") ++
    String.join (c.children.map fun (name, _) => "\n  " ++ name)

/-- Carry out what arguments ask for. -/
def Intent.execute (programs : Outside.Programs) : Intent → Step Unit
  | .help c => printLine (helpText c)
  | .showVersion => printLine ("codevision version " ++ Version.current.number)
  | .run .analyze given _ => analyze programs given
  | .run .batchRun given [path] => batchRun programs given path
  | .run .batchAdd given [manifest, name, path] => batchAdd given manifest name path
  | .run .initialise given _ => initialise given
  | .run .runsList given _ => showRuns given
  | .run .runsShow given [id] => showRun given id
  | .run .runsFiles given [id] => showFiles given id
  | .run .runsExport given [id, name] => exportFile given id name
  | .run .runsGraph given [id] => showGraph given id
  | .run .version _ _ => printLine Version.current.full
  | .run c _ _ => printLine (helpText c)

/-- What a run of the program leaves behind. -/
structure Result where
  output : List UInt8
  complaints : String
  status : Nat

/-- The complaint about a failure. -/
def complaint : Except Failure Unit → String
  | .ok () => ""
  | .error f => f.report

/-- Run the program with arguments. -/
def execute (programs : Outside.Programs) (arguments : List String) (s : Session Console) :
    Result × Session Console :=
  let start : Step Unit := do
    match readIntent arguments with
    | .error fault => Act.fail (.plain fault.message)
    | .ok intent => intent.execute programs
  let (outcome, s) := start { s with journal := [] }
  let reports := String.join (s.journal.filterMap (s.outside.logger.write? s.clock))
  (⟨s.outside.output, reports ++ complaint outcome, if outcome.isOk then 0 else 1⟩, s)

end ClassAtlas.CommandLine
