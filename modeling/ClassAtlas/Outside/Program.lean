import ClassAtlas.File.Disk
import ClassAtlas.Outside.Shell
import ClassAtlas.Text.Quoted

/-!
Programs that are started from here. What starting one does is a function of the command, the
directory and the environment, so that an analysis which runs a build tool is still a value.
-/
namespace ClassAtlas.Outside

/-- A program to be started. -/
structure Command where
  executable : String
  arguments : List String
  directory : String
  environment : List (String × String)

inductive Exit where
  | success
  | status (code : Nat)
  | signal (name : String)
  | notStarted (reason : String)
  deriving DecidableEq, Repr

/-- What a program printed and how it ended. -/
structure Outcome where
  output : String
  exit : Exit
  deriving DecidableEq, Repr

/-- Which programs there are, given the disk. -/
abbrev Programs := File.Disk → Command → Outcome

def shellPath : String := "/bin/sh"

/-- The directories in which programs are looked for. -/
def searchPath (environment : List (String × String)) : List String :=
  Text.splitOn ':' ((environment.lookup "PATH").getD "")

/-- The file that a name without slashes stands for. -/
def findProgram? (d : File.Disk) (environment : List (String × String)) (name : String) :
    Option String :=
  (searchPath environment).map (File.Path.join · name) |>.find? fun path =>
    match d.lookup true path with
    | .ok (.file _ true) => true
    | _ => false

/-- The first line of a file that is a script for the interpreter. -/
def scriptMark : String := "#!" ++ shellPath

/-- The script that an executable file holds, or else why it cannot be run. -/
def scriptIn (d : File.Disk) (path : String) : Except String String :=
  match d.lookup true path with
  | .error reason => .error reason.text
  | .ok (.file bytes true) =>
    let text := Text.Utf8.decode bytes
    if Text.trim (Text.before '\n' text) == scriptMark then .ok text else .error "exec format error"
  | .ok _ => .error "permission denied"

/-- Run a script in the place of a command. -/
def runScript (d : File.Disk) (c : Command) (name : String) (arguments : List String)
    (script : String) : Outcome :=
  let directory := if c.directory.isEmpty then d.workingPath else d.absolute c.directory
  let (output, ending) := Shell.runScript ⟨name, arguments, directory, c.environment⟩ script
  ⟨output, match ending with
    | .status 0 => .success
    | .status code => .status code
    | .signal name => .signal name⟩

/-- Why a command cannot be started in its directory. -/
def directoryFault? (d : File.Disk) (c : Command) (path : String) : Option String :=
  if c.directory.isEmpty then none
  else match d.stat c.directory with
    | .error fault => some ({ fault with action := "chdir" }).message
    | .ok stat => if stat.isDir then none else some ("fork/exec " ++ path ++ ": not a directory")

/-- A world in which the command interpreter is the only program, and its scripts can be run. -/
def shellOnly : Programs := fun d c =>
  let located :=
    if Text.containsChar c.executable '/' then some c.executable
    else findProgram? d c.environment c.executable
  match located with
  | none =>
    ⟨"", .notStarted
      ("exec: " ++ Text.quoted c.executable ++ ": executable file not found in $PATH")⟩
  | some path =>
    match directoryFault? d c path with
    | some fault => ⟨"", .notStarted fault⟩
    | none =>
      if path != shellPath then
        let place := if File.Path.isAbsolute path then path else File.Path.join c.directory path
        match scriptIn d place with
        | .ok script => runScript d c path c.arguments script
        | .error reason => ⟨"", .notStarted ("fork/exec " ++ path ++ ": " ++ reason)⟩
      else match c.arguments with
        | "-c" :: script :: name :: arguments => runScript d c name arguments script
        | ["-c", script] => runScript d c shellPath [] script
        | [] => ⟨"", .success⟩
        | name :: _ =>
          ⟨"/bin/sh: 0: cannot open " ++ name ++ ": No such file\n", .status 2⟩

end ClassAtlas.Outside
