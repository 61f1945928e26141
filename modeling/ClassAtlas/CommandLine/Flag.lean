import ClassAtlas.Text.Integer
import ClassAtlas.Text.Quoted
import ClassAtlas.Text.Utf8

/-!
Flags of a command, their values, and how they are read from arguments. A long flag has its value
behind an equals sign or in the next argument; flags of one letter may stand together. A value that
is a list is one record with commas: a value in it may stand in quotes, and a quote inside it is then
written twice.
-/
namespace ClassAtlas.Text

/-! One record of values -/

/-- Why a text is no record. A place is a line and the number of a byte in it. -/
inductive RecordFault where
  | missing
  | bareQuote (start line column : Nat)
  | badQuote (start line column : Nat)
  deriving DecidableEq, Repr

def RecordFault.message : RecordFault → String
  | .missing => "EOF"
  | .bareQuote start line column => place start line column ++ "bare \" in non-quoted field"
  | .badQuote start line column => place start line column ++ "extraneous or missing \" in quoted-field"
where
  place (start line column : Nat) : String :=
    (if start == line then "" else "record on line " ++ toString start ++ "; ") ++
      "parse error on line " ++ toString line ++ ", column " ++ toString column ++ ": "

/-- Where in a value a reader of records is. -/
inductive RecordState where
  | start | bare | quoted
  /-- Behind a quote that ends the value, or is the first of two. -/
  | closing
  deriving DecidableEq, Repr

/-- Read on from a place inside a record. The value so far is in reverse. -/
def readFields (start : Nat) (state : RecordState) (line column : Nat) (field : List Char)
    (done : List String) : List Char → Except RecordFault (List String)
  | [] =>
    if state == .quoted then .error (.badQuote start line column)
    else .ok (done ++ [String.ofList field.reverse])
  | c :: rest =>
    let width := (String.utf8EncodeChar c).length
    let finished := done ++ [String.ofList field.reverse]
    match state with
    | .quoted =>
      if c == '"' then readFields start .closing line (column + 1) field done rest
      else if c == '\n' && !rest.isEmpty then
        readFields start .quoted (line + 1) 1 (c :: field) done rest
      else readFields start .quoted line (column + width) (c :: field) done rest
    | .closing =>
      if c == '"' then readFields start .quoted line (column + 1) (c :: field) done rest
      else if c == ',' then readFields start .start line (column + 1) [] finished rest
      else if c == '\n' then .ok finished
      else .error (.badQuote start line (column - 1))
    | _ =>
      if c == ',' then readFields start .start line (column + 1) [] finished rest
      else if c == '\n' then .ok finished
      else if c == '"' then
        if state == .start then readFields start .quoted line (column + 1) field done rest
        else .error (.bareQuote start line column)
      else readFields start .bare line (column + width) (c :: field) done rest

/-- The first record of a text. Empty lines in front of it are skipped. -/
def readRecord (s : String) : Except RecordFault (List String) :=
  let s := dropTail (replace s "\r\n" "\n") "\r"
  let body := s.toList.dropWhile (· == '\n')
  let line := s.toList.length - body.length + 1
  if body.isEmpty then .error .missing else readFields line .start line 1 [] [] body

end ClassAtlas.Text

/-! Flags -/
namespace ClassAtlas.CommandLine

inductive Kind where
  | switch | count | text | number | texts
  deriving DecidableEq, Repr

structure Flag where
  name : String
  letter : Option Char
  kind : Kind
  deriving DecidableEq, Repr

/-- The value of a flag that stands alone; none if it needs one. -/
def Flag.lone? (f : Flag) : Option String :=
  match f.kind with
  | .switch => some "true"
  | .count => some "+1"
  | _ => none

/-- How a message names a flag. -/
def Flag.shown (f : Flag) : String :=
  match f.letter with
  | some c => "-" ++ String.singleton c ++ ", --" ++ f.name
  | none => "--" ++ f.name

inductive Value where
  | switch (on : Bool)
  | count (n : Int)
  | text (s : String)
  | number (n : Int)
  | texts (items : List String)
  deriving DecidableEq, Repr

/-- The flags that were given, each with its value in the end. -/
abbrev Given := List (String × Value)

namespace Given

def put (g : Given) (name : String) (v : Value) : Given :=
  if g.any (·.1 == name) then g.map fun (n, old) => if n == name then (n, v) else (n, old)
  else g ++ [(name, v)]

def isOn (g : Given) (name : String) : Bool := g.lookup name == some (.switch true)

def switch? (g : Given) (name : String) : Option Bool :=
  match g.lookup name with
  | some (.switch on) => some on
  | _ => none

def count (g : Given) (name : String) : Int :=
  match g.lookup name with
  | some (.count n) => n
  | _ => 0

def text (g : Given) (name default : String) : String :=
  match g.lookup name with
  | some (.text s) => s
  | _ => default

def number? (g : Given) (name : String) : Option Int :=
  match g.lookup name with
  | some (.number n) => some n
  | _ => none

def texts? (g : Given) (name : String) : Option (List String) :=
  match g.lookup name with
  | some (.texts items) => some items
  | _ => none

end Given

/-- What is wrong with arguments. -/
inductive Fault where
  | unknownCommand (name path : String) (similar : List String)
  | unknownFlag (name : String)
  | unknownLetter (letter : Char) (letters : String)
  | missingValue (name : String)
  | missingLetterValue (letter : Char) (letters : String)
  | badFlag (argument : String)
  | badValue (value : String) (flag : Flag) (reason : String)
  | argumentCount (expected received : Nat)
  deriving DecidableEq, Repr

def Fault.message : Fault → String
  | .unknownCommand name path similar =>
    "unknown command " ++ Text.quoted name ++ " for " ++ Text.quoted path ++
      (if similar.isEmpty then ""
        else "\n\nDid you mean this?\n" ++ String.join (similar.map fun s => "\t" ++ s ++ "\n"))
  | .unknownFlag name => "unknown flag: --" ++ name
  | .unknownLetter letter letters =>
    "unknown shorthand flag: " ++ Text.quotedChar letter ++ " in -" ++ letters
  | .missingValue name => "flag needs an argument: --" ++ name
  | .missingLetterValue letter letters =>
    "flag needs an argument: " ++ Text.quotedChar letter ++ " in -" ++ letters
  | .badFlag argument => "bad flag syntax: " ++ argument
  | .badValue value flag reason =>
    "invalid argument " ++ Text.quoted value ++ " for " ++ Text.quoted flag.shown ++ " flag: " ++ reason
  | .argumentCount expected received =>
    "accepts " ++ toString expected ++ " arg(s), received " ++ toString received

/-- That a text cannot be read as something. -/
def unreadable (reader value reason : String) : String :=
  "strconv." ++ reader ++ ": parsing " ++ Text.quoted value ++ ": " ++ reason

def readNumber (value : String) : Except String Int :=
  (Text.readInteger value).mapError fun fault => unreadable "ParseInt" value fault.message

/-- The value of a flag after it is given once more. Lists grow. -/
def Flag.read (f : Flag) (old : Option Value) (value : String) : Except String Value :=
  match f.kind with
  | .switch =>
    match Text.truth? value with
    | some on => .ok (.switch on)
    | none => .error (unreadable "ParseBool" value "invalid syntax")
  | .count =>
    match value, old with
    | "+1", some (.count n) => .ok (.count (n + 1))
    | "+1", _ => .ok (.count 1)
    | _, _ => (readNumber value).map .count
  | .text => .ok (.text value)
  | .number => (readNumber value).map .number
  | .texts =>
    let items := if value.isEmpty then .ok [] else (Text.readRecord value).mapError (·.message)
    match old with
    | some (.texts earlier) => items.map fun more => .texts (earlier ++ more)
    | _ => items.map .texts

def Flag.set (f : Flag) (g : Given) (value : String) : Except Fault Given :=
  match f.read (g.lookup f.name) value with
  | .ok v => .ok (g.put f.name v)
  | .error reason => .error (.badValue value f reason)

/-- The first byte of a text, as a character. -/
def firstByte (cs : List Char) : Char :=
  match cs with
  | [] => Char.ofNat 0
  | c :: _ => Char.ofNat (((String.utf8EncodeChar c).head?.map UInt8.toNat).getD 0)

/-- Read flags of one letter that stand together. A flag that needs a value takes the rest of them, or
else the next argument. -/
def readLetters (flags : List Flag) (next : List String) (g : Given) :
    List Char → Except Fault (Given × List String)
  | [] => .ok (g, next)
  | c :: rest =>
    match flags.find? (·.letter == some c) with
    | none => .error (.unknownLetter (firstByte (c :: rest)) (String.ofList (c :: rest)))
    | some flag =>
      match rest, flag.lone?, next with
      | '=' :: v :: value, _, _ => (flag.set g (String.ofList (v :: value))).map (·, next)
      | _, some value, _ => do readLetters flags next (← flag.set g value) rest
      | v :: value, none, _ => (flag.set g (String.ofList (v :: value))).map (·, next)
      | [], none, value :: more => (flag.set g value).map (·, more)
      | [], none, [] => .error (.missingLetterValue (firstByte [c]) (String.singleton c))

/-- Read a flag by its name, with its value. -/
def readLong (flags : List Flag) (next : List String) (g : Given) (argument : String) :
    Except Fault (Given × List String) :=
  let body := argument.toList.drop 2
  if body.head?.any fun c => c == '-' || c == '=' then .error (.badFlag argument)
  else
    let name := String.ofList (body.takeWhile (· != '='))
    match flags.find? (·.name == name) with
    | none => .error (.unknownFlag name)
    | some flag =>
      match body.dropWhile (· != '='), flag.lone?, next with
      | _ :: value, _, _ => (flag.set g (String.ofList value)).map (·, next)
      | [], some value, _ => (flag.set g value).map (·, next)
      | [], none, value :: more => (flag.set g value).map (·, more)
      | [], none, [] => .error (.missingValue name)

/-- Read arguments: the flags, and what is left. Behind two dashes there are no more flags. -/
def readArguments (flags : List Flag) :
    Nat → Given → List String → Except Fault (Given × List String)
  | 0, g, _ => .ok (g, [])
  | _, g, [] => .ok (g, [])
  | fuel + 1, g, argument :: more =>
    match argument.toList with
    | ['-', '-'] => .ok (g, more)
    | '-' :: '-' :: _ => do
      let (g, more) ← readLong flags more g argument
      readArguments flags fuel g more
    | '-' :: letter :: letters => do
      let (g, more) ← readLetters flags more g (letter :: letters)
      readArguments flags fuel g more
    | _ => (readArguments flags fuel g more).map fun (g, left) => (g, argument :: left)

end ClassAtlas.CommandLine
