import ClassAtlas.Text.Basic
import ClassAtlas.Text.Lower

/-!
Values of a settings document, and what a reader of settings takes out of them. A member is found
whatever the case of its letters; one that is missing has a default, one of the wrong kind makes the
whole document unfit. Texts, lists of texts and truth values can be written, too.
-/
namespace ClassAtlas.Toml

inductive Value where
  | text (s : String)
  | int (n : Int)
  /-- A number with a fraction or an exponent, as it is written. -/
  | float (written : String)
  | bool (b : Bool)
  /-- A date, a time of day or both, as it is written. -/
  | moment (written : String)
  | list (items : List Value)
  | table (entries : List (String × Value))
  deriving Inhabited

abbrev Table := List (String × Value)

namespace Value

def text? : Value → Option String
  | .text s => some s
  | _ => none

def int? : Value → Option Int
  | .int n => some n
  | _ => none

def bool? : Value → Option Bool
  | .bool b => some b
  | _ => none

def list? : Value → Option (List Value)
  | .list items => some items
  | _ => none

def table? : Value → Option Table
  | .table entries => some entries
  | _ => none

def texts? (v : Value) : Option (List String) := v.list?.bind (·.mapM text?)

def tables? (v : Value) : Option (List Table) := v.list?.bind (·.mapM table?)

end Value

namespace Table

/-- The member of a name, whatever the case of its letters; of several the last. -/
def member? (t : Table) (name : String) : Option Value :=
  (t.reverse.find? fun (key, _) => Text.lower key == Text.lower name).map (·.2)

/-- A member that may be missing; `none` if it is of the wrong kind. -/
def optional? (t : Table) (name : String) (read : Value → Option α) : Option (Option α) :=
  match t.member? name with
  | none => some none
  | some value => (read value).map some

/-- A member with a default; `none` if it is of the wrong kind. -/
def getD? (t : Table) (name : String) (read : Value → Option α) (default : α) : Option α :=
  (t.optional? name read).map (·.getD default)

end Table

/-! Writing -/

/-- How texts are written: always with escapes, or without them where the text allows it. -/
inductive Quoting where
  | escaped | literal
  deriving DecidableEq, Repr

def isControl (c : Char) : Bool := c.toNat < 0x20 || c.toNat == 0x7f

/-- A character of a text with escapes. Where texts are written without escapes if possible, numbers
of characters have capital digits. -/
def escaped (quoting : Quoting) (c : Char) : String :=
  match c.toNat with
  | 0x22 => "\\\""
  | 0x5c => "\\\\"
  | 8 => "\\b"
  | 9 => "\\t"
  | 10 => "\\n"
  | 12 => "\\f"
  | 13 => "\\r"
  | n =>
    if !isControl c then String.singleton c
    else "\\u" ++ (match quoting with
      | .escaped => Text.hex 4 n
      | .literal => Text.hexUpper 4 n)

/-- Whether a text can be written without escapes. -/
def isLiteral (s : String) : Bool := s.toList.all fun c => c != '\'' && (!isControl c || c == '\t')

def writeText (quoting : Quoting) (s : String) : String :=
  if quoting == .literal && isLiteral s then "'" ++ s ++ "'"
  else "\"" ++ String.join (s.toList.map (escaped quoting)) ++ "\""

def writeTexts (quoting : Quoting) (texts : List String) : String :=
  "[" ++ Text.join ", " (texts.map (writeText quoting)) ++ "]"

def writeBool (b : Bool) : String := if b then "true" else "false"

def assignment (key value : String) : String := key ++ " = " ++ value ++ "\n"

end ClassAtlas.Toml
