import ClassAtlas.Decimal.Layout

/-!
JSON documents as values. An object keeps its members in the order written; of two members with one
name the later one counts. A number is kept as it is written, as whole digits and a power of ten.
-/
namespace ClassAtlas

/-- A number of a document: `digits * 10 ^ scale`, with its sign. -/
structure Json.Number where
  negative : Bool
  digits : Nat
  scale : Int
  deriving DecidableEq, Repr, Inhabited

inductive Json where
  | null
  | bool (value : Bool)
  | number (value : Json.Number)
  | text (value : String)
  | list (items : List Json)
  | object (members : List (String × Json))
  deriving Repr, Inhabited, BEq

namespace Json

def Number.ofInt (n : Int) : Number := ⟨decide (n < 0), n.natAbs, 0⟩

def Number.toBinary64 (n : Number) : Decimal.Binary64 :=
  Decimal.Binary64.ofDecimal n.negative n.digits n.scale

/-- The whole number that is written, if it is one. -/
def Number.toInt? (n : Number) : Option Int :=
  let signed (k : Nat) : Int := if n.negative then -(k : Int) else k
  if 0 ≤ n.scale then some (signed (n.digits * Nat.pow 10 n.scale.toNat))
  else
    let unit := Nat.pow 10 (-n.scale).toNat
    if n.digits % unit == 0 then some (signed (n.digits / unit)) else none

/-- The number with the fewest digits that a double-precision number is read back from; none for one
that no document can hold. -/
def Number.ofBinary64? : Decimal.Binary64 → Option Number
  | .finite negative 0 _ => some ⟨negative, 0, if negative then -1 else 0⟩
  | .finite negative m q =>
    let d := Decimal.shortest m q
    some ⟨negative, d.digits.foldl (fun n d => n * 10 + d) 0, d.point - d.digits.length⟩
  | _ => none

/-- The number as far as double precision holds it. -/
def Number.held (n : Number) : Number := (ofBinary64? n.toBinary64).getD n

def int (n : Int) : Json := .number (Number.ofInt n)

def nat (n : Nat) : Json := int n

def texts (items : List String) : Json := .list (items.map .text)

def ofOption (f : α → Json) : Option α → Json
  | none => .null
  | some a => f a

/-- The member of an object with a name, the last one if there are several. -/
def member? (j : Json) (name : String) : Option Json :=
  match j with
  | .object members => (members.reverse.find? (·.1 == name)).map (·.2)
  | _ => none

def asText? : Json → Option String
  | .text s => some s
  | _ => none

def asBool? : Json → Option Bool
  | .bool b => some b
  | _ => none

def asInt? : Json → Option Int
  | .number n => n.toInt?
  | _ => none

def asList? : Json → Option (List Json)
  | .list items => some items
  | _ => none

def asObject? : Json → Option (List (String × Json))
  | .object members => some members
  | _ => none

end Json
end ClassAtlas
