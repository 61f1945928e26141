import ClassAtlas.CommandLine.Execute
import Std.Time.DateTime.Timestamp

/-!
The program itself. It reads what is on the real disk into a value, runs the command on it, prints
what the command printed, and writes back what the command has changed.
-/
namespace ClassAtlas.Main

/-- What stands under a name on the real disk. -/
partial def readNode (entry : IO.FS.DirEntry) : IO File.Node := do
  match (← entry.path.symlinkMetadata).type with
  | .dir =>
    let entries ← entry.path.readDir
    let nodes ← entries.toList.mapM fun e => do return (e.fileName, ← readNode e)
    return .dir (nodes.mergeSort fun a b => a.1 ≤ b.1)
  | .symlink => return .link (← IO.FS.realPath entry.path).toString
  | .file => return .file (← IO.FS.readBinFile entry.path).toList false
  | .other => return .file [] false

/-- A place on the real disk, put into a disk that is a value. A place that is not there is passed
over. -/
def addPlace (d : File.Disk) (path : String) : IO File.Disk := do
  match d.locate true path, d.makeDirs (File.Path.parent path) with
  | .ok ⟨_, some _⟩, _ => return d
  | _, .error _ => return d
  | _, .ok parents =>
    try
      let node ← readNode ⟨File.Path.parent path, File.Path.base path⟩
      return parents.put (File.Path.cleanComponents path) node
    catch _ => return d

/-- The places that arguments may be about: what they name, and the projects of a manifest. -/
def placesNamed (d : File.Disk) (arguments : List String) : List String :=
  arguments.flatMap fun argument =>
    match Batch.Manifest.load d argument with
    | .ok m => m.projects.map (·.path)
    | .error _ => [d.absolute argument]

/-- Write what is new or different in one tree than in another. -/
partial def writeNode (path : String) (old : Option File.Node) : File.Node → IO Unit
  | .dir entries => do
    let before ← match old with
      | some (.dir entries) => pure entries
      | _ => do
        IO.FS.createDirAll path
        pure []
    for (name, node) in entries do
      writeNode (path ++ "/" ++ name) (before.lookup name) node
  | .file bytes _ => do
    let unchanged := match old with
      | some (.file earlier _) => earlier == bytes
      | _ => false
    if !unchanged then IO.FS.writeBinFile path (ByteArray.mk bytes.toArray)
  | .link _ => return ()

/-- A number that nobody else is likely to have, as a start for the names of runs. -/
def randomStart : IO Nat := do
  return (← IO.getRandomBytes 15).toList.foldl (fun n b => n * 256 + b.toNat) 0

/-- The name of a run for a number. -/
def identifier (n : Nat) : String :=
  let digits := (Text.hex 30 (n % Nat.pow 16 30)).toList
  let part (start size : Nat) : String := String.ofList ((digits.drop start).take size)
  part 0 8 ++ "-" ++ part 8 4 ++ "-4" ++ part 12 3 ++ "-8" ++ part 15 3 ++ "-" ++ part 18 12

def now : IO Time.Moment := do
  let nanos := (← Std.Time.Timestamp.now).toNanosecondsSinceUnixEpoch.toInt
  return ⟨nanos.fdiv 1000000000, (nanos.fmod 1000000000).toNat, 0⟩

/-- The variables of the environment that the program looks at. -/
def environment : IO (List (String × String)) := do
  let found ← ("PATH" :: Settings.overrideNames).mapM fun name => do
    return (← IO.getEnv name).map (name, ·)
  return found.filterMap id

end ClassAtlas.Main

open ClassAtlas in
/-- Run the program. -/
def main (arguments : List String) : IO UInt32 := do
  let here := (← IO.currentDir).toString
  let empty : File.Disk := ⟨.dir [], File.Path.cleanComponents here⟩
  let disk ← Main.addPlace empty here
  let disk ← (Main.placesNamed disk arguments).foldlM Main.addPlace disk
  let start ← Main.randomStart
  let session : Session CommandLine.Console :=
    ⟨disk, ← Main.environment, .endless, [], ← Main.now, fun n => Main.identifier (start + n), 0, .fresh⟩
  let (result, session) := CommandLine.execute Outside.shellOnly arguments session
  Main.writeNode "" (some disk.root) session.disk.root
  (← IO.getStdout).write (ByteArray.mk result.output.toArray)
  (← IO.getStderr).putStr result.complaints
  return UInt32.ofNat result.status
