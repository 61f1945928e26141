import ClassAtlas.Text.Basic
import ClassAtlas.Toml.Value

/-!
Numbers, truth values, dates and times, each read from a run of characters without blanks.
-/
namespace ClassAtlas.Toml

/-- Digits of a base. Single underscores may stand between them. -/
def groupedDigits? (base : Nat) (cs : List Char) : Option Nat :=
  let groups := Text.pieces '_' cs
  if groups.any List.isEmpty then none else Text.digitsValue? base groups.flatten

/-- Digits in base ten without a leading zero. -/
def wholePart? (cs : List Char) : Option Nat :=
  match cs with
  | '0' :: _ :: _ => none
  | _ => groupedDigits? 10 cs

def splitSign : List Char → Option Char × List Char
  | '+' :: rest => (some '+', rest)
  | '-' :: rest => (some '-', rest)
  | cs => (none, cs)

/-- A whole number of 64 bits. -/
def int? (cs : List Char) : Option Int :=
  let n : Option Int := match splitSign cs with
    | (none, '0' :: 'x' :: digits) => (groupedDigits? 16 digits).map Int.ofNat
    | (none, '0' :: 'o' :: digits) => (groupedDigits? 8 digits).map Int.ofNat
    | (none, '0' :: 'b' :: digits) => (groupedDigits? 2 digits).map Int.ofNat
    | (some '-', digits) => (wholePart? digits).map fun n => -(n : Int)
    | (_, digits) => (wholePart? digits).map Int.ofNat
  n.filter fun n => -(Nat.pow 2 63 : Int) ≤ n && n < (Nat.pow 2 63 : Int)

def isExponent (cs : List Char) : Bool := (groupedDigits? 10 (splitSign cs).2).isSome

/-- Whether characters are a number with a fraction, an exponent or both, or a number beyond all
others. -/
def isFloat (cs : List Char) : Bool :=
  let unsigned := (splitSign cs).2
  if unsigned == "inf".toList || unsigned == "nan".toList then true
  else
    let isMark (c : Char) : Bool := c == 'e' || c == 'E'
    let mantissa := unsigned.takeWhile (!isMark ·)
    let exponent := (unsigned.dropWhile (!isMark ·)).drop 1
    let whole := mantissa.takeWhile (· != '.')
    let fraction := (mantissa.dropWhile (· != '.')).drop 1
    let hasExponent := unsigned.any isMark
    let hasFraction := mantissa.contains '.'
    (wholePart? whole).isSome && (hasExponent || hasFraction) &&
      (!hasExponent || isExponent exponent) && (!hasFraction || (groupedDigits? 10 fraction).isSome)

/-- A number of two digits within bounds. -/
def twoDigits (low high : Nat) : List Char → Bool
  | [a, b] => a.isDigit && b.isDigit && ((Text.digitsValue? 10 [a, b]).any fun n => low ≤ n && n ≤ high)
  | _ => false

/-- The days of a month. -/
def daysIn (year month : Nat) : Nat :=
  if [4, 6, 9, 11].contains month then 30
  else if month != 2 then 31
  else if year % 4 == 0 && (year % 100 != 0 || year % 400 == 0) then 29 else 28

def isDate : List Char → Bool
  | [a, b, c, d, '-', e, f, '-', g, h] =>
    let year := (Text.digitsValue? 10 [a, b, c, d]).getD 0
    let month := (Text.digitsValue? 10 [e, f]).getD 0
    [a, b, c, d].all Char.isDigit && twoDigits 1 12 [e, f] && twoDigits 1 (daysIn year month) [g, h]
  | _ => false

/-- What may follow the seconds: nothing, or a point and digits. -/
def isSecondFraction : List Char → Bool
  | [] => true
  | '.' :: digits => !digits.isEmpty && digits.all Char.isDigit
  | _ => false

/-- A time of day. The newer form of documents may leave out the seconds. -/
def isTimeOfDay (newer : Bool) : List Char → Bool
  | a :: b :: ':' :: c :: d :: rest =>
    twoDigits 0 23 [a, b] && twoDigits 0 59 [c, d] && match rest with
      | [] => newer
      | ':' :: e :: f :: fraction => twoDigits 0 59 [e, f] && isSecondFraction fraction
      | _ => false
  | _ => false

/-- The part of a time in front of its distance from universal time; `none` if that is wrong. -/
def beforeOffset? (cs : List Char) : Option (List Char) :=
  let isSign (c : Char) : Bool := c == '+' || c == '-'
  if cs.getLast?.any fun c => c == 'Z' || c == 'z' then some cs.dropLast
  else if cs.any isSign then
    match (cs.dropWhile (!isSign ·)).drop 1 with
    | [a, b, ':', c, d] =>
      if twoDigits 0 23 [a, b] && twoDigits 0 59 [c, d] then some (cs.takeWhile (!isSign ·)) else none
    | _ => none
  else some cs

/-- A date, a time of day, or both with a letter or a blank between them. -/
def isMoment (newer : Bool) (cs : List Char) : Bool :=
  isDate cs || isTimeOfDay newer cs ||
    (isDate (cs.take 10) && ((cs.drop 10).head?.any fun c => c == 'T' || c == 't' || c == ' ') &&
      ((beforeOffset? (cs.drop 11)).any (isTimeOfDay newer)))

/-- The value of a run of characters. -/
def scalar? (newer : Bool) (cs : List Char) : Option Value :=
  if cs == "true".toList then some (.bool true)
  else if cs == "false".toList then some (.bool false)
  else match int? cs with
    | some n => some (.int n)
    | none =>
      if isFloat cs then some (.float (String.ofList cs))
      else if isMoment newer cs then some (.moment (String.ofList cs))
      else none

end ClassAtlas.Toml
