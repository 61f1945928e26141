/-!
Double-precision numbers as exact values. A finite number is a whole mantissa times a power of two,
so every question about it is a question about natural numbers.
-/
namespace ClassAtlas.Decimal

/-- A double-precision number: a finite value is `mantissa * 2 ^ exponent`, with the sign apart so
that zero has two. A finite mantissa has at most 53 bits, and all 53 unless the exponent is least. -/
inductive Binary64 where
  | nan
  | infinite (negative : Bool)
  | finite (negative : Bool) (mantissa : Nat) (exponent : Int)
  deriving DecidableEq, Repr, Inhabited

namespace Binary64

/-- The least exponent of a finite number. -/
def leastExponent : Int := -1074

def ofBits (bits : UInt64) : Binary64 :=
  let n := bits.toNat
  let negative := n / Nat.pow 2 63 == 1
  let biased : Nat := n / Nat.pow 2 52 % 2048
  let fraction := n % Nat.pow 2 52
  if biased == 2047 then if fraction == 0 then .infinite negative else .nan
  else if biased == 0 then .finite negative fraction leastExponent
  else .finite negative (Nat.pow 2 52 + fraction) ((biased : Int) - 1075)

/-- Shift a mantissa left until it has 53 bits. -/
def widen : Nat → Nat → Int → Nat × Int
  | 0, m, q => (m, q)
  | k + 1, m, q => if m == 0 || Nat.pow 2 52 ≤ m then (m, q) else widen k (2 * m) (q - 1)

/-- A single-precision number, which every double-precision format holds exactly. -/
def ofBits32 (bits : UInt32) : Binary64 :=
  let n := bits.toNat
  let negative := n / Nat.pow 2 31 == 1
  let biased : Nat := n / Nat.pow 2 23 % 256
  let fraction := n % Nat.pow 2 23
  if biased == 255 then if fraction == 0 then .infinite negative else .nan
  else if biased == 0 && fraction == 0 then .finite negative 0 leastExponent
  else
    let (m, q) := if biased == 0 then (fraction, (-149 : Int))
      else (Nat.pow 2 23 + fraction, (biased : Int) - 150)
    let (m, q) := widen 53 m q
    .finite negative m q

/-- The quotient of two whole numbers, rounded to the nearest, a half to the even neighbour. -/
def roundQuotient (num den : Nat) : Nat :=
  let q := num / den
  let r := num % den
  if 2 * r > den || (2 * r == den && q % 2 == 1) then q + 1 else q

/-- The number of bits of a whole number. -/
def bitLength (n : Nat) : Nat := if n == 0 then 0 else n.log2 + 1

/-- The double-precision number nearest to a fraction. -/
def ofFraction (negative : Bool) (num den : Nat) : Binary64 :=
  if num == 0 then .finite negative 0 leastExponent
  else
    let guess : Int := (bitLength num : Int) - (bitLength den : Int) - 53
    let scaled (q : Int) : Nat × Nat :=
      if 0 ≤ q then (num, den * Nat.pow 2 q.toNat) else (num * Nat.pow 2 (-q).toNat, den)
    let pick (q : Int) : Nat :=
      let (a, b) := scaled q
      roundQuotient a b
    let low := scaled guess
    let q := if low.1 / low.2 < Nat.pow 2 53 then guess else guess + 1
    let q := if (scaled q).1 / (scaled q).2 < Nat.pow 2 52 then q - 1 else q
    let q := max q leastExponent
    let m := pick q
    let (m, q) := if m == Nat.pow 2 53 then (Nat.pow 2 52, q + 1) else (m, q)
    if q > 971 then .infinite negative else .finite negative m q

/-- The double-precision number nearest to `digits * 10 ^ scale`. -/
def ofDecimal (negative : Bool) (digits : Nat) (scale : Int) : Binary64 :=
  if 0 ≤ scale then
    if scale > 400 && digits != 0 then .infinite negative
    else ofFraction negative (digits * Nat.pow 10 scale.toNat) 1
  else if scale < -5000 then .finite negative 0 leastExponent
  else ofFraction negative digits (Nat.pow 10 (-scale).toNat)

/-- The whole part, toward zero; `none` for what is not finite. -/
def truncate? : Binary64 → Option Int
  | .finite negative m q =>
    let size : Nat := if 0 ≤ q then m * Nat.pow 2 q.toNat else m / Nat.pow 2 (-q).toNat
    some (if negative then -(size : Int) else size)
  | _ => none

def isZero : Binary64 → Bool
  | .finite _ 0 _ => true
  | _ => false

end Binary64
end ClassAtlas.Decimal
