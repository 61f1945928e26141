import ClassAtlas.Text.Basic

/-!
A command interpreter for short scripts: simple commands of words, joined by `;`, `&&` and `||`, with
quotes, variables and comments. Everything it prints goes to one stream.
-/
namespace ClassAtlas.Outside.Shell

/-- How a command follows the one before it. -/
inductive Joint where
  | always
  | ifSuccess
  | ifFailure
  deriving DecidableEq, Repr

/-- Part of a word: plain characters, or the value of a variable. -/
inductive Piece where
  | plain (text : List Char)
  | variable (name : String) (quoted : Bool)
  deriving DecidableEq, Repr

inductive Token where
  | word (pieces : List Piece)
  | joint (joint : Joint)
  | lineEnd
  deriving DecidableEq, Repr

def isNameChar (c : Char) : Bool := c.isAlphanum || c == '_'

/-- A variable after its dollar sign, and what follows. -/
def takeVariable (quoted : Bool) (cs : List Char) : Piece × List Char :=
  match cs with
  | '\x7b' :: rest =>
    (.variable (String.ofList (rest.takeWhile (· != '\x7d'))) quoted,
      (rest.dropWhile (· != '\x7d')).drop 1)
  | c :: rest =>
    if c.isDigit || ['?', '$', '#', '@', '*'].contains c then
      (.variable (String.singleton c) quoted, rest)
    else takeNamed (c :: rest)
  | [] => (.plain ['$'], [])
where
  takeNamed (cs : List Char) : Piece × List Char :=
    let name := cs.takeWhile isNameChar
    if name.isEmpty then (.plain ['$'], cs)
    else (.variable (String.ofList name) quoted, cs.dropWhile isNameChar)

/-- The inside of double quotes, up to the closing one. -/
def takeQuoted : Nat → List Char → List Piece × List Char
  | 0, cs => ([], cs)
  | _ + 1, [] => ([], [])
  | fuel + 1, c :: rest =>
    match c, rest with
    | '"', rest => ([], rest)
    | '\\', e :: rest =>
      let (pieces, after) := takeQuoted fuel rest
      if e == '"' || e == '\\' || e == '$' then (.plain [e] :: pieces, after)
      else (.plain ['\\', e] :: pieces, after)
    | '$', rest =>
      let (piece, rest) := takeVariable true rest
      let (pieces, after) := takeQuoted fuel rest
      (piece :: pieces, after)
    | c, rest =>
      let (pieces, after) := takeQuoted fuel rest
      (.plain [c] :: pieces, after)

def isBreak (c : Char) : Bool := c == ' ' || c == '\t' || c == '\n' || c == ';' || c == '&' || c == '|'

/-- The pieces of a word up to the next break. -/
def takeWord : Nat → List Char → List Piece × List Char
  | 0, cs => ([], cs)
  | _ + 1, [] => ([], [])
  | fuel + 1, c :: rest =>
    if c == '>' && rest.head? == some '&' then
      let (pieces, after) := takeWord fuel (rest.drop 1)
      (.plain ['>', '&'] :: pieces, after)
    else if isBreak c then ([], c :: rest)
    else match c, rest with
      | '\'', rest =>
        let (pieces, after) := takeWord fuel ((rest.dropWhile (· != '\'')).drop 1)
        (.plain (rest.takeWhile (· != '\'')) :: pieces, after)
      | '"', rest =>
        let (quoted, rest) := takeQuoted fuel rest
        let (pieces, after) := takeWord fuel rest
        (.plain [] :: quoted ++ pieces, after)
      | '\\', e :: rest =>
        let (pieces, after) := takeWord fuel rest
        (.plain [e] :: pieces, after)
      | '$', rest =>
        let (piece, rest) := takeVariable false rest
        let (pieces, after) := takeWord fuel rest
        (piece :: pieces, after)
      | c, rest =>
        let (pieces, after) := takeWord fuel rest
        (.plain [c] :: pieces, after)

def tokens : Nat → List Char → List Token
  | 0, _ => []
  | _ + 1, [] => []
  | fuel + 1, c :: rest =>
    match c, rest with
    | '&', '&' :: rest => .joint .ifSuccess :: tokens fuel rest
    | '|', '|' :: rest => .joint .ifFailure :: tokens fuel rest
    | c, rest =>
      if c == ';' then .joint .always :: tokens fuel rest
      else if c == '\n' then .lineEnd :: tokens fuel rest
      else if c == '#' then tokens fuel (rest.dropWhile (· != '\n'))
      else if isBreak c then tokens fuel rest
      else
        let (pieces, after) := takeWord (rest.length + 2) (c :: rest)
        .word pieces :: tokens fuel after

/-- A command: the line it ends on, how it follows the one before it, and its words. -/
structure Command where
  line : Nat
  joint : Joint
  words : List (List Piece)

def commands : List Token → Nat → Joint → List (List Piece) → List Command
  | [], line, joint, words => if words.isEmpty then [] else [⟨line, joint, words.reverse⟩]
  | .word pieces :: more, line, joint, words => commands more line joint (pieces :: words)
  | .joint next :: more, line, joint, words =>
    if words.isEmpty then commands more line joint []
    else ⟨line, joint, words.reverse⟩ :: commands more line next []
  | .lineEnd :: more, line, joint, words =>
    if words.isEmpty then commands more (line + 1) joint []
    else ⟨line, joint, words.reverse⟩ :: commands more (line + 1) .always []

/-- What a script is started with: its own name, its arguments, where it works, and the environment. -/
structure Setting where
  name : String
  arguments : List String
  directory : String
  environment : List (String × String)

/-- How a script ended. -/
inductive Ending where
  | status (code : Nat)
  | signal (name : String)
  deriving DecidableEq, Repr

structure State where
  setting : Setting
  bindings : List (String × String)
  output : String
  status : Nat
  ending : Option Ending

/-- The number by which a script knows itself. -/
def ownNumber : String := "1"

def State.value (s : State) (name : String) : String :=
  match name with
  | "?" => toString s.status
  | "$" => ownNumber
  | "#" => toString s.setting.arguments.length
  | "@" => Text.join " " s.setting.arguments
  | "*" => Text.join " " s.setting.arguments
  | "0" => s.setting.name
  | name =>
    match Text.decimal? name with
    | some n => (s.setting.arguments[n - 1]?).getD ""
    | none => (s.bindings.lookup name).getD ""

/-- The text of a word, with its variables filled in. -/
def State.expand (s : State) (pieces : List Piece) : String :=
  String.join (pieces.map fun
    | .plain text => String.ofList text
    | .variable name _ => s.value name)

/-- The words that a word stands for: a variable outside quotes falls into the words of its value. -/
def State.expandWord (s : State) : List Piece → List String
  | [.variable name false] => Text.words (s.value name)
  | pieces => [s.expand pieces]

/-- The character that a letter stands for behind a backslash. -/
def escaped? : Char → Option Char
  | 'n' => some '\n'
  | 't' => some '\t'
  | 'r' => some '\r'
  | '\\' => some '\\'
  | 'a' => some '\x07'
  | 'b' => some '\x08'
  | 'v' => some '\x0b'
  | 'f' => some '\x0c'
  | _ => none

/-- A text with its escapes read. -/
def unescaped : List Char → List Char
  | '\\' :: c :: rest =>
    match escaped? c with
    | some e => e :: unescaped rest
    | none => '\\' :: c :: unescaped rest
  | c :: rest => c :: unescaped rest
  | [] => []

/-- A formatted text: escapes are read, and each placeholder takes the next argument. The arguments
that are left over come with it. -/
def formatted : List Char → List String → List Char × List String
  | [], args => ([], args)
  | '%' :: '%' :: rest, args => ((formatted rest args).map ('%' :: ·) id)
  | '%' :: 's' :: rest, args => (formatted rest args.tail).map ((args.headD "").toList ++ ·) id
  | '%' :: 'd' :: rest, args => (formatted rest args.tail).map ((args.headD "0").toList ++ ·) id
  | '\\' :: c :: rest, args =>
    match escaped? c with
    | some e => (formatted rest args).map (e :: ·) id
    | none => (formatted rest args).map (['\\', c] ++ ·) id
  | c :: rest, args => (formatted rest args).map (c :: ·) id

/-- A format is used again as long as it takes arguments and some are left. -/
def formattedAll : Nat → List Char → List String → List Char
  | 0, _, _ => []
  | fuel + 1, format, args =>
    let (text, left) := formatted format args
    if left.isEmpty || left.length == args.length then text else text ++ formattedAll fuel format left

/-- The name of a signal, by its number or its short name. -/
def signal? : String → Option String
  | "-1" => some "hangup"
  | "-HUP" => some "hangup"
  | "-2" => some "interrupt"
  | "-INT" => some "interrupt"
  | "-9" => some "killed"
  | "-KILL" => some "killed"
  | "-15" => some "terminated"
  | "-TERM" => some "terminated"
  | _ => none

/-- Words that only say where output goes; all of it goes to the one stream. -/
def isRedirection (word : String) : Bool := [">&2", "1>&2", "2>&1"].contains word

/-- A word of the form `name=value`. -/
def assignment? (word : String) : Option (String × String) :=
  let name := Text.before '=' word
  if Text.containsChar word '=' && !name.isEmpty && name.toList.all isNameChar then
    some (name, String.ofList (word.toList.drop (name.length + 1)))
  else none

def State.print (s : State) (text : String) : State :=
  { s with output := s.output ++ text, status := 0 }

/-- Print a complaint about a line. -/
def State.complain (s : State) (line : Nat) (text : String) (status : Nat) : State :=
  { s.print (s.setting.name ++ ": " ++ toString line ++ ": " ++ text ++ "\n") with status }

/-- Run one command. -/
def State.run (s : State) (line : Nat) (words : List String) : State :=
  let echo (args : List String) : String :=
    String.ofList (unescaped (Text.join " " args).toList)
  match words.filter (!isRedirection ·) with
  | [] => s
  | "echo" :: "-n" :: args => s.print (echo args)
  | "echo" :: args => s.print (echo args ++ "\n")
  | "printf" :: format :: args =>
    s.print (String.ofList (formattedAll (args.length + 1) format.toList args))
  | "pwd" :: _ => s.print (s.setting.directory ++ "\n")
  | "true" :: _ => { s with status := 0 }
  | ":" :: _ => { s with status := 0 }
  | "false" :: _ => { s with status := 1 }
  | ["exit"] => { s with ending := some (.status s.status) }
  | "exit" :: code :: _ =>
    match Text.decimal? code with
    | some n => { s with ending := some (.status (n % 256)) }
    | none =>
      { s.complain line ("exit: Illegal number: " ++ code) 2 with ending := some (.status 2) }
  | ["kill", number] =>
    if number == ownNumber then { s with ending := some (.signal "terminated") } else { s with status := 1 }
  | ["kill", name, number] =>
    match signal? name with
    | some signal =>
      if number == ownNumber then { s with ending := some (.signal signal) } else { s with status := 1 }
    | none => { s with status := 2 }
  | "export" :: args =>
    { s with bindings := args.filterMap assignment? ++ s.bindings, status := 0 }
  | name :: args =>
    match assignment? name, args with
    | some binding, [] => { s with bindings := binding :: s.bindings, status := 0 }
    | _, _ => s.complain line (name ++ ": not found") 127

def State.step (s : State) (command : Command) : State :=
  let wanted := match command.joint with
    | .always => true
    | .ifSuccess => s.status == 0
    | .ifFailure => s.status != 0
  if s.ending.isSome || !wanted then s else s.run command.line (command.words.flatMap s.expandWord)

/-- What a script prints, and how it ends. -/
def runScript (setting : Setting) (script : String) : String × Ending :=
  let cs := script.toList
  let s := (commands (tokens (cs.length + 1) cs) 1 .always []).foldl State.step
    ⟨setting, ("PWD", setting.directory) :: setting.environment, "", 0, none⟩
  (s.output, s.ending.getD (.status s.status))

end ClassAtlas.Outside.Shell
