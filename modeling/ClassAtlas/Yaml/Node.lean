import ClassAtlas.Decimal.Binary64
import ClassAtlas.Text.Basic

/-!
Documents of nested lists and maps over scalars, each with the line it starts on. What a scalar stands
for depends on its text and on whether it was quoted.
-/
namespace ClassAtlas.Yaml

inductive Node where
  | scalar (line : Nat) (quoted : Bool) (text : String)
  | list (line : Nat) (items : List Node)
  | map (line : Nat) (entries : List (Node × Node))
  deriving Repr, Inhabited

def Node.line : Node → Nat
  | .scalar line _ _ => line
  | .list line _ => line
  | .map line _ => line

/-- What a scalar stands for. -/
inductive Meaning where
  | null
  | bool (value : Bool)
  | int (value : Int)
  | number (value : Decimal.Binary64)
  | date
  | text
  deriving Repr

/-- The tag that names the kind of a meaning. -/
def Meaning.tag : Meaning → String
  | .null => "!!null"
  | .bool _ => "!!bool"
  | .int _ => "!!int"
  | .number _ => "!!float"
  | .date => "!!timestamp"
  | .text => "!!str"

/-- Digits in a base that a mark in front of them may give. -/
def basedDigits? (cs : List Char) : Option Nat :=
  match cs with
  | '0' :: 'x' :: ds => Text.digitsValue? 16 ds
  | '0' :: 'X' :: ds => Text.digitsValue? 16 ds
  | '0' :: 'b' :: ds => Text.digitsValue? 2 ds
  | '0' :: 'B' :: ds => Text.digitsValue? 2 ds
  | '0' :: 'o' :: ds => Text.digitsValue? 8 ds
  | '0' :: 'O' :: ds => Text.digitsValue? 8 ds
  | '0' :: d :: ds => Text.digitsValue? 8 (d :: ds)
  | ds => Text.digitsValue? 10 ds

/-- A whole number of at most 64 bits; only one without a sign may use all of them. -/
def wholeNumber? (cs : List Char) : Option Int :=
  match cs with
  | '-' :: ds => do
    let n ← basedDigits? ds
    if n ≤ Nat.pow 2 63 then some (-(n : Int)) else none
  | '+' :: ds => do
    let n ← basedDigits? ds
    if n < Nat.pow 2 63 then some (n : Int) else none
  | ds => do
    let n ← basedDigits? ds
    if n < Nat.pow 2 64 then some (n : Int) else none

/-- Digits with a point and an exponent, unless the number is too large. -/
def decimalNumber? (cs : List Char) : Option Decimal.Binary64 :=
  let (negative, cs) := match cs with
    | '-' :: cs => (true, cs)
    | '+' :: cs => (false, cs)
    | cs => (false, cs)
  let whole := cs.takeWhile Char.isDigit
  let rest := cs.dropWhile Char.isDigit
  let (fraction, rest) := match rest with
    | '.' :: rest => (rest.takeWhile Char.isDigit, rest.dropWhile Char.isDigit)
    | rest => ([], rest)
  let exponent? : Option Int := match rest with
    | [] => some 0
    | e :: rest =>
      if e != 'e' && e != 'E' then none
      else match rest with
        | '-' :: ds => (Text.digitsValue? 10 ds).map fun n => -(n : Int)
        | '+' :: ds => (Text.digitsValue? 10 ds).map fun n => (n : Int)
        | ds => (Text.digitsValue? 10 ds).map fun n => (n : Int)
  if whole.isEmpty && fraction.isEmpty then none
  else do
    let exponent ← exponent?
    let digits ← Text.digitsValue? 10 (whole ++ fraction)
    match Decimal.Binary64.ofDecimal negative digits (exponent - fraction.length) with
    | .infinite _ => none
    | x => some x

/-- A year of four digits, a month and a day. -/
def isDate (s : String) : Bool :=
  match (Text.splitOn '-' s).map fun part => (part.length, Text.decimal? part) with
  | [(4, some _), (m, some month), (d, some day)] =>
    m ≤ 2 && d ≤ 2 && 1 ≤ month && month ≤ 12 && 1 ≤ day && day ≤ 31
  | _ => false

def meaningOf (quoted : Bool) (s : String) : Meaning :=
  if quoted then .text
  else if ["", "~", "null", "Null", "NULL"].contains s then .null
  else if ["true", "True", "TRUE"].contains s then .bool true
  else if ["false", "False", "FALSE"].contains s then .bool false
  else if [".nan", ".NaN", ".NAN"].contains s then .number .nan
  else if [".inf", ".Inf", ".INF", "+.inf", "+.Inf", "+.INF"].contains s then .number (.infinite false)
  else if ["-.inf", "-.Inf", "-.INF"].contains s then .number (.infinite true)
  else match s.toList with
    | [] => .null
    | c :: cs =>
      if c == '.' then ((decimalNumber? (c :: cs)).map Meaning.number).getD .text
      else if c.isDigit || c == '+' || c == '-' then
        if isDate s then .date
        else
          let plain := (c :: cs).filter (· != '_')
          match wholeNumber? plain, decimalNumber? plain with
          | some n, _ => .int n
          | none, some x => .number x
          | none, none => .text
      else .text

end ClassAtlas.Yaml
