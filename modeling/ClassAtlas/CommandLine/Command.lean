import ClassAtlas.CommandLine.Flag
import ClassAtlas.Text.Lower
import ClassAtlas.Text.Utf8

/-!
The commands of the program, and which of them arguments ask for; and the version of the program, as
it names itself.
-/
namespace ClassAtlas

structure Version where
  number : String
  commit : String
  date : String
  deriving DecidableEq, Repr

namespace Version

def current : Version := ⟨"0.4.0", "unknown", "unknown"⟩

/-- The number, with the first seven bytes of the commit when it is known. -/
def brief (v : Version) : String :=
  if v.commit != "unknown" && Text.Utf8.size v.commit > 7 then
    v.number ++ " (" ++ Text.Utf8.takeBytes 7 v.commit ++ ")"
  else v.number

def full (v : Version) : String :=
  "codevision version " ++ v.number ++ "\nCommit: " ++ v.commit ++ "\nBuilt: " ++ v.date

end Version
end ClassAtlas

/-! The commands -/
namespace ClassAtlas.CommandLine

inductive Command where
  | program | analyze | batch | batchRun | batchAdd | initialise | runs | runsList | runsShow | runsFiles
  | runsExport | runsGraph | version
  deriving DecidableEq, Repr

namespace Command

/-- The commands below a command, by their names. -/
def children : Command → List (String × Command)
  | .program => [("analyze", .analyze), ("batch", .batch), ("init", .initialise), ("runs", .runs),
      ("version", .version)]
  | .batch => [("run", .batchRun), ("add", .batchAdd)]
  | .runs => [("list", .runsList), ("show", .runsShow), ("files", .runsFiles), ("export", .runsExport),
      ("graph", .runsGraph)]
  | _ => []

/-- The words that lead to a command. -/
def path : Command → String
  | .program => "codevision"
  | .analyze => "codevision analyze"
  | .batch => "codevision batch"
  | .batchRun => "codevision batch run"
  | .batchAdd => "codevision batch add"
  | .initialise => "codevision init"
  | .runs => "codevision runs"
  | .runsList => "codevision runs list"
  | .runsShow => "codevision runs show"
  | .runsFiles => "codevision runs files"
  | .runsExport => "codevision runs export"
  | .runsGraph => "codevision runs graph"
  | .version => "codevision version"

/-- Flags that every command has. -/
def sharedFlags : List Flag :=
  [⟨"verbose", some 'v', .count⟩, ⟨"quiet", some 'q', .switch⟩, ⟨"log-format", none, .text⟩,
    ⟨"repo", some 'C', .text⟩]

/-- Flags that only one command has. -/
def ownFlags : Command → List Flag
  | .analyze => [⟨"format", none, .text⟩, ⟨"accept", none, .texts⟩, ⟨"include-deps", none, .switch⟩,
      ⟨"exclude-jar", none, .texts⟩, ⟨"auto-compile", none, .switch⟩, ⟨"build-timeout", none, .number⟩,
      ⟨"max-depth", none, .number⟩, ⟨"source-graph", none, .text⟩, ⟨"output", some 'o', .text⟩,
      ⟨"no-store", none, .switch⟩, ⟨"no-sources", none, .switch⟩]
  | .batchRun => [⟨"format", none, .text⟩, ⟨"parallel", none, .number⟩, ⟨"no-store", none, .switch⟩]
  | .batchAdd => [⟨"accept", none, .texts⟩]
  | .initialise => [⟨"force", some 'f', .switch⟩]
  | .runsList => [⟨"format", none, .text⟩, ⟨"limit", none, .number⟩]
  | .runsShow => [⟨"format", none, .text⟩]
  | .runsFiles => [⟨"format", none, .text⟩]
  | .runsExport => [⟨"output", some 'o', .text⟩]
  | _ => []

def flags (c : Command) : List Flag := c.ownFlags ++ sharedFlags

/-- The flags that ask about the program instead of running it. -/
def questions (c : Command) : List Flag :=
  ⟨"help", some 'h', .switch⟩ :: (if c = .program then [⟨"version", none, .switch⟩] else [])

/-- How many arguments a command takes; none if it only holds others. -/
def arity? : Command → Option Nat
  | .program => none
  | .batch => none
  | .runs => none
  | .batchRun => some 1
  | .batchAdd => some 3
  | .runsShow => some 1
  | .runsFiles => some 1
  | .runsExport => some 2
  | .runsGraph => some 1
  | _ => some 0

end Command

/-- Whether an argument is a flag whose value is the next argument. A flag that is not known counts as
one. -/
def takesNext (flags : List Flag) (argument : String) : Bool :=
  !Text.containsChar argument '=' && match argument.toList with
    | '-' :: '-' :: name => !(flags.any fun f => f.name == String.ofList name && f.lone?.isSome)
    | ['-', letter] => !(flags.any fun f => f.letter == some letter && f.lone?.isSome)
    | _ => false

/-- The arguments that are neither flags nor values of flags. -/
def plainArguments (flags : List Flag) : Nat → List String → List String
  | 0, _ => []
  | _, [] => []
  | fuel + 1, argument :: more =>
    if argument == "--" then []
    else if takesNext flags argument then
      if more.length ≤ 1 then [] else plainArguments flags fuel (more.drop 1)
    else if !argument.isEmpty && !Text.startsWith argument "-" then
      argument :: plainArguments flags fuel more
    else plainArguments flags fuel more

/-- Arguments without the first that is a given word and no value of a flag. -/
def withoutWord (flags : List Flag) (word : String) : Nat → List String → List String
  | 0, arguments => arguments
  | _, [] => []
  | fuel + 1, argument :: more =>
    if argument == "--" then argument :: more
    else if takesNext flags argument then
      match more with
      | [] => [argument]
      | value :: more => argument :: value :: withoutWord flags word fuel more
    else if !Text.startsWith argument "-" && argument == word then more
    else argument :: withoutWord flags word fuel more

/-- The command that arguments lead to from another, and the arguments that are left for it. -/
def findCommand : Nat → Command → List String → Command × List String
  | 0, c, arguments => (c, arguments)
  | depth + 1, c, arguments =>
    match plainArguments c.flags arguments.length arguments with
    | [] => (c, arguments)
    | word :: _ =>
      match c.children.lookup word with
      | none => (c, arguments)
      | some child => findCommand depth child (withoutWord c.flags word arguments.length arguments)

/-- The next row of the table of distances, for one more byte. -/
def distanceRow (c : UInt8) (left : Nat) : List UInt8 → List Nat → List Nat
  | d :: ds, diagonal :: above :: row =>
    let here := min (min (left + 1) (above + 1)) (if c == d then diagonal else diagonal + 1)
    here :: distanceRow c here ds (above :: row)
  | _, _ => []

/-- How many bytes must be changed, added or left out to get from one word to another. -/
def distance (a b : String) : Nat :=
  let a := Text.Utf8.encode a
  let b := Text.Utf8.encode b
  let first := List.range (b.length + 1)
  ((a.foldl (fun (row, n) c => ((n + 1) :: distanceRow c (n + 1) b row, n + 1)) (first, 0)).1.getLast?).getD 0

/-- The commands that an unknown word may have meant. -/
def similarCommands (word : String) : List String :=
  let lower := Text.lower word
  (Command.program.children.map (·.1) ++ ["completion"]).filter fun name =>
    distance lower name ≤ 2 || Text.startsWith name lower

/-- What arguments ask for. -/
inductive Intent where
  | help (command : Command)
  | showVersion
  | run (command : Command) (given : Given) (arguments : List String)
  deriving DecidableEq, Repr

/-- Words that ask about the commands. -/
def helpWords : List String := ["help", "completion"]

/-- What arguments ask for, or what is wrong with them. -/
def readIntent (arguments : List String) : Except Fault Intent := do
  let (command, arguments) := findCommand 3 .program arguments
  if command = .program then
    match plainArguments command.flags arguments.length arguments with
    | word :: _ =>
      if helpWords.contains word then return .help .program
      else throw (.unknownCommand word command.path (similarCommands word))
    | [] => pure ()
  let (given, left) ←
    readArguments (command.questions ++ command.flags) (arguments.length + 1) [] arguments
  if given.isOn "help" then return .help command
  else if given.isOn "version" then return .showVersion
  else match command.arity? with
    | none => return .help command
    | some 0 =>
      match left with
      | [] => return .run command given []
      | word :: _ => throw (.unknownCommand word command.path [])
    | some n =>
      if left.length = n then return .run command given left
      else throw (.argumentCount n left.length)

end ClassAtlas.CommandLine
