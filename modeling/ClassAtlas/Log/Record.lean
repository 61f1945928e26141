import ClassAtlas.Decimal.Binary64
import ClassAtlas.Text.Basic
import ClassAtlas.Text.Lower
import ClassAtlas.Time.Moment

/-!
What the program reports while it works: a level, a message, and values under names.
-/
namespace ClassAtlas.Log

/-- Levels are numbers, so that there is room between and beyond the four that have names. -/
structure Level where
  value : Int
  deriving DecidableEq, Repr, Inhabited

namespace Level

def debug : Level := ⟨-4⟩

def info : Level := ⟨0⟩

def warn : Level := ⟨4⟩

def error : Level := ⟨8⟩

/-- Above everything that is ever reported. -/
def silent : Level := ⟨100⟩

/-- The named level at or below a level. -/
def name (l : Level) : String :=
  if l.value < 0 then "debug"
  else if l.value < 4 then "info"
  else if l.value < 8 then "warn"
  else "error"

/-- The named level in capitals, with the distance from it. -/
def capitals (l : Level) : String :=
  let from_ (name : String) (base : Int) : String :=
    let d := l.value - base
    if d == 0 then name else if d < 0 then name ++ toString d else name ++ "+" ++ toString d
  if l.value < 0 then from_ "DEBUG" (-4)
  else if l.value < 4 then from_ "INFO" 0
  else if l.value < 8 then from_ "WARN" 4
  else from_ "ERROR" 8

/-- A level by its name; a name that is none means info. -/
def ofName (s : String) : Level :=
  match Text.lower (Text.trim s) with
  | "debug" => debug
  | "warn" => warn
  | "warning" => warn
  | "error" => error
  | _ => info

/-- The level asked for by switches, or else the one that is set. -/
def ofVerbosity (verbosity : Int) (quiet : Bool) (fallback : Level) : Level :=
  if quiet then silent
  else if verbosity == 0 then fallback
  else if verbosity == 1 then info
  else debug

end Level

inductive Value where
  | none
  | text (value : String)
  | int (value : Int)
  | bool (value : Bool)
  | number (value : Decimal.Binary64)
  | duration (value : Time.Duration)
  | moment (value : Time.Moment)
  | failure (message : String)
  | list (items : List Value)
  | group (members : List (String × Value))
  deriving Repr, Inhabited, BEq

namespace Value

def isEmptyGroup : Value → Bool
  | .group [] => true
  | _ => false

/-- A group of members; groups in it without members are no members. -/
def ofMembers (members : List (String × Value)) : Value := .group (members.filter (!·.2.isEmptyGroup))

end Value

structure Record where
  level : Level
  message : String
  values : List (String × Value)
  deriving Repr, Inhabited, BEq

def debug (message : String) (values : List (String × Value)) : Record := ⟨.debug, message, values⟩

def info (message : String) (values : List (String × Value)) : Record := ⟨.info, message, values⟩

def warn (message : String) (values : List (String × Value)) : Record := ⟨.warn, message, values⟩

def error (message : String) (values : List (String × Value)) : Record := ⟨.error, message, values⟩

/-- A number of things. -/
def count (n : Nat) : Value := .int n

end ClassAtlas.Log
