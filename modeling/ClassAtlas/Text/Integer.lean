import ClassAtlas.Text.Basic

/-!
Whole numbers of 64 bits as people type them: in base ten, or in another base behind a mark, with
underscores between digits.
-/
namespace ClassAtlas.Text

/-- Why a text is no such number. -/
inductive IntegerFault where
  | syntaxError | outOfRange
  deriving DecidableEq, Repr

def IntegerFault.message : IntegerFault → String
  | .syntaxError => "invalid syntax"
  | .outOfRange => "value out of range"

/-- The base that the start of a number stands for, and the digits behind it. A zero alone in front
means base eight. -/
def splitBase : List Char → Nat × List Char
  | '0' :: mark :: digit :: rest =>
    match mark.toLower with
    | 'b' => (2, digit :: rest)
    | 'o' => (8, digit :: rest)
    | 'x' => (16, digit :: rest)
    | _ => (8, mark :: digit :: rest)
  | '0' :: rest => (8, rest)
  | cs => (10, cs)

/-- The value of digits in a base. Underscores are passed over, and the first thing that is wrong
counts. -/
def readDigits (base : Nat) : Nat → List Char → Except IntegerFault Nat
  | n, [] => .ok n
  | n, '_' :: rest => readDigits base n rest
  | n, c :: rest =>
    match hexDigit? c with
    | none => .error .syntaxError
    | some d =>
      if base ≤ d then .error .syntaxError
      else if Nat.pow 2 64 ≤ n * base + d then .error .outOfRange
      else readDigits base (n * base + d) rest

/-- Whether every underscore stands between digits; the mark of a base counts as one. -/
def separatesDigits (afterDigit : Bool) : List Char → Bool
  | [] => true
  | '_' :: rest => afterDigit && rest.head?.any (· != '_') && separatesDigits false rest
  | _ :: rest => separatesDigits true rest

def hasBaseMark : List Char → Bool
  | '0' :: mark :: _ => ['b', 'o', 'x'].contains mark.toLower
  | _ => false

/-- A number without sign. -/
def readNatural (cs : List Char) : Except IntegerFault Nat :=
  if cs.isEmpty then .error .syntaxError
  else
    let (base, digits) := splitBase cs
    match readDigits base 0 digits with
    | .error fault => .error fault
    | .ok n =>
      let marked := hasBaseMark cs
      if digits.contains '_' && !separatesDigits marked (if marked then cs.drop 2 else cs) then
        .error .syntaxError
      else .ok n

def readInteger (s : String) : Except IntegerFault Int :=
  let (negative, cs) := match s.toList with
    | '-' :: rest => (true, rest)
    | '+' :: rest => (false, rest)
    | cs => (false, cs)
  match readNatural cs with
  | .error fault => .error fault
  | .ok n =>
    if negative then if n ≤ Nat.pow 2 63 then .ok (-(n : Int)) else .error .outOfRange
    else if n < Nat.pow 2 63 then .ok n else .error .outOfRange

/-- A truth value in one of its usual spellings. -/
def truth? (s : String) : Option Bool :=
  if ["1", "t", "T", "TRUE", "true", "True"].contains s then some true
  else if ["0", "f", "F", "FALSE", "false", "False"].contains s then some false
  else none

end ClassAtlas.Text
