import ClassAtlas.Classpath.Descriptor
import ClassAtlas.Outside.Program
import ClassAtlas.Session
import ClassAtlas.Text.Lower
import ClassAtlas.Text.Regex
import ClassAtlas.Time.Moment

/-!
The classpath of a project: its compiled classes, built first if they are missing and may be built,
and the archives that its build tool lists, but for those that a pattern excludes. The build tool is
run as a program of its own, and its output goes to the reports line by line.
-/
namespace ClassAtlas.Classpath

/-! The build tool -/

/-- Run the build tool in a directory with arguments. -/
abbrev Build (σ : Type) := String → List String → Act σ Unit

structure BuildTool where
  executable : String
  timeout : Time.Duration
  heapMb : Int
  deriving DecidableEq, Repr

namespace BuildTool

/-- No build is given less time than this. -/
def minTimeout : Time.Duration := .ofSeconds 30

def make (executable : String) (maxSeconds heapMb : Int) : BuildTool :=
  let timeout := Time.Duration.ofSeconds maxSeconds
  ⟨if executable.isEmpty then "mvn" else executable,
    if timeout.nanos < minTimeout.nanos then minTimeout else timeout, heapMb⟩

/-- The environment of the tool: a heap size is handed on if there is one. -/
def environment (tool : BuildTool) (inherited : List (String × String)) : List (String × String) :=
  if 0 < tool.heapMb then ("MAVEN_OPTS", "-Xmx" ++ toString tool.heapMb ++ "m") :: inherited
  else inherited

/-- A line without the carriage return at its end. -/
def plainLine (line : String) : String := Text.dropTail line "\r"

def run (tool : BuildTool) (programs : Outside.Programs) : Build σ := fun dir args => do
  let command := tool.executable ++ " " ++ Text.join " " args
  Act.log (Log.info "Running build tool" [("command", .text command), ("dir", .text dir)])
  let s ← Act.session
  let outcome := programs s.disk ⟨tool.executable, args, dir, tool.environment s.environment⟩
  Act.logAll ((Text.lines outcome.output).map fun line =>
    Log.debug (plainLine line) [("tool", .text "mvn")])
  let failed (reason : String) : Act σ Unit :=
    Act.fail (.because .buildFailed (command ++ " failed") (.plain reason))
  match outcome.exit with
  | .success => pure ()
  | .status code => failed s!"exit status {code}"
  | .signal name => failed ("signal: " ++ name)
  | .notStarted reason => failed reason

end BuildTool

/-! Patterns for file names -/

namespace Glob

/-- The expression for a pattern: a star stands for any characters on one line, everything else for
itself, and nothing comes before or behind. -/
def expression (pattern : String) : String :=
  "^" ++ Text.replace (Text.Regex.quote pattern) "\\*" ".*" ++ "$"

/-- The expressions for patterns without regard to case; blank patterns are passed over. -/
def compile (patterns : List String) : List Text.Regex :=
  ((patterns.map fun pattern => Text.lower (Text.trim pattern)).filter (!·.isEmpty)).filterMap
    fun pattern => Text.Regex.read? (expression pattern)

def matchesAny (globs : List Text.Regex) (name : String) : Bool :=
  let name := Text.lower name
  globs.any (·.isMatch name)

/-- Whether a name matches a pattern. -/
def isMatch (pattern name : String) : Bool := matchesAny (compile [pattern]) name

end Glob

/-! The classpath -/

structure Options where
  includeDependencies : Bool
  excludeJars : List String
  autoCompile : Bool
  deriving DecidableEq, Repr, Inhabited

/-- The directories of compiled classes that the usual tools write, the preferred one first. -/
def classesDirs : List String := ["target/classes", "build/classes/java/main"]

def dependencyListPath : String := "target/classpath.txt"

def compileArguments : List String := ["-q", "-DskipTests", "compile"]

def dependencyArguments : List String :=
  ["-q", "-DincludeScope=compile", "-DoutputFile=" ++ dependencyListPath,
    "dependency:build-classpath"]

/-- The compiled classes of a project, if they are there. -/
def locateClasses? (d : File.Disk) (root : String) : Option String :=
  (classesDirs.map (File.Path.join root)).find? d.isDir

/-- There is something at the path, and it is not a directory. -/
def isBuildFile (d : File.Disk) (path : String) : Bool := d.exists_ path && !d.isDir path

variable {σ : Type}

/-- The way to build a project, if it may be built. -/
def builder? (d : File.Disk) (build : Option (Build σ)) (options : Options) (root : String) :
    Option (Build σ) :=
  if options.autoCompile && isBuildFile d (File.Path.join root "pom.xml") then build else none

/-- The archives that the dependency list names. Without a list there are none. -/
def listedDependencies (root : String) : Act σ (List String) := do
  let path := File.Path.join root dependencyListPath
  match (← Act.disk).readText path with
  | .error fault =>
    Act.log (Log.warn "Dependency list unavailable, scanning compiled classes only"
      [("path", .text path), ("error", .failure fault.message)])
    return []
  | .ok content =>
    let found := readDependencyList content
    if found.isEmpty then Act.log (Log.warn "Dependency list is empty" [("path", .text path)])
    return found

/-- The archives that no pattern excludes. -/
def keepDependencies (globs : List Text.Regex) : List String → Act σ (List String)
  | [] => return []
  | path :: more => do
    if Glob.matchesAny globs (File.Path.base path) then
      Act.log (Log.debug "Excluded dependency" [("path", .text path)])
      keepDependencies globs more
    else return path :: (← keepDependencies globs more)

/-- Find the compiled classes, building them if they are missing and may be built. -/
def findClasses (build : Option (Build σ)) (options : Options) (root : String) :
    Act σ (Option String) := do
  let d ← Act.disk
  match locateClasses? d root, builder? d build options root with
  | some dir, _ => return some dir
  | none, none => return none
  | none, some build =>
    Act.log (Log.info "Compiled classes missing, running build" [("root", .text root)])
    build root compileArguments
    return locateClasses? (← Act.disk) root

def dependencies (build : Option (Build σ)) (options : Options) (root : String) :
    Act σ (List String) := do
  match builder? (← Act.disk) build options root with
  | some build => build root dependencyArguments
  | none => pure ()
  keepDependencies (Glob.compile options.excludeJars) (← listedDependencies root)

def resolve (build : Option (Build σ)) (options : Options) (repoRoot : String) :
    Act σ Descriptor := do
  let root := (← Act.disk).absolute repoRoot
  match ← findClasses build options root with
  | none =>
    Act.fail (.ofCode .classesNotFound
      ("no compiled classes under " ++ root ++ " (looked for " ++
        Text.join " and " classesDirs ++ ")"))
  | some dir =>
    let archives ← if options.includeDependencies then dependencies build options root else pure []
    let desc := Descriptor.make root dir (dir :: archives)
    Act.log (Log.info "Classpath resolved"
      [("classes", .text dir), ("entries", Log.count desc.entries.length)])
    return desc

end ClassAtlas.Classpath
