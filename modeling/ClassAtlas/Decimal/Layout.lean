import ClassAtlas.Decimal.Binary64
import ClassAtlas.Text.Basic

/-!
Decimal texts of double-precision numbers. The digits are the fewest that read back as the same
number, and among those the nearest: the reals that read back as `m * 2 ^ q` form an interval around
it, and each grid of decimals with one more digit is searched until one of the two neighbours of the
number lies inside. They are laid out with a plain point while the exponent is small, with an exponent
mark otherwise.
-/
namespace ClassAtlas.Decimal

/-! The fewest digits -/

/-- Decimal digits with a point: the value is `0.d₁d₂… * 10 ^ point`. -/
structure Digits where
  digits : List Nat
  point : Int
  deriving DecidableEq, Repr, Inhabited

/-- The interval of the reals that read back, and the number itself, over one common denominator. -/
structure Interval where
  low : Nat
  value : Nat
  high : Nat
  denominator : Nat
  closed : Bool

/-- The interval around `m * 2 ^ q`. Below a power of two the neighbours are half as far apart. -/
def Interval.around (m : Nat) (q : Int) : Interval :=
  let below := if m == Nat.pow 2 52 && q != Binary64.leastExponent then 1 else 2
  let (up, den) : Nat × Nat :=
    if q ≥ 2 then (Nat.pow 2 (q - 2).toNat, 1) else (1, Nat.pow 2 (2 - q).toNat)
  ⟨(4 * m - below) * up, 4 * m * up, (4 * m + 2) * up, den, m % 2 == 0⟩

/-- Whether `n * num / den` lies in the interval. -/
def Interval.holds (i : Interval) (n num den : Nat) : Bool :=
  let x := n * num * i.denominator
  if i.closed then i.low * den ≤ x && x ≤ i.high * den
  else i.low * den < x && x < i.high * den

/-- The unit `10 ^ e` as a fraction. -/
def unit (e : Int) : Nat × Nat := if 0 ≤ e then (Nat.pow 10 e.toNat, 1) else (1, Nat.pow 10 (-e).toNat)

/-- The neighbour of the number on the grid of multiples of `10 ^ e` that reads back, the nearer of
two, the even one of two equally near. -/
def Interval.neighbour? (i : Interval) (e : Int) : Option Nat :=
  let (num, den) := unit e
  let floor := i.value * den / (i.denominator * num)
  let below := i.holds floor num den
  let above := i.holds (floor + 1) num den
  let rest := 2 * (i.value * den - floor * num * i.denominator)
  match below, above with
  | true, false => some floor
  | false, true => some (floor + 1)
  | true, true =>
    if rest < num * i.denominator then some floor
    else if rest == num * i.denominator then
      some (if floor % 2 == 0 then floor else floor + 1)
    else some (floor + 1)
  | false, false => none

/-- The least `k` with `value < 10 ^ k`, searched from a guess below it. -/
def Interval.magnitude (i : Interval) : Nat → Int → Int
  | 0, k => k
  | fuel + 1, k =>
    let (num, den) := unit k
    if i.value * den < num * i.denominator then k else i.magnitude fuel (k + 1)

def digitsOf (n : Nat) : List Nat :=
  (Nat.toDigits 10 n).map fun c => c.toNat - '0'.toNat

def dropTrailingZeros (ds : List Nat) : List Nat := (ds.reverse.dropWhile (· == 0)).reverse

/-- Search the grids of `n`, `n + 1`, … significant digits. Seventeen always suffice. -/
def Interval.search (i : Interval) (k : Int) : Nat → Nat → Digits
  | 0, _ => ⟨[], k⟩
  | fuel + 1, n =>
    match i.neighbour? (k - n) with
    | some v =>
      let ds := digitsOf v
      ⟨dropTrailingZeros ds, k - n + ds.length⟩
    | none => i.search k fuel (n + 1)

/-- The shortest digits of a positive number `m * 2 ^ q`. -/
def shortest (m : Nat) (q : Int) : Digits :=
  let i := Interval.around m q
  let guess : Int := (((Binary64.bitLength m : Int) + q) * 30103).fdiv 100000 - 2
  i.search (i.magnitude 6 guess) 20 1

/-! Their layout -/

/-- The decisions of a number format. -/
structure Layout where
  /-- Least decimal exponent that is written with a plain point. -/
  plainFrom : Int
  /-- First decimal exponent that is written with an exponent mark again. -/
  plainUpTo : Int
  /-- Least number of digits of a negative and of a positive exponent. -/
  exponentWidth : Bool → Nat

/-- Texts of numbers for people: an exponent of two digits below `0.0001` and from a million on. -/
def Layout.general : Layout := ⟨-4, 6, fun _ => 2⟩

/-- Numbers in documents: an exponent only below a millionth and from `1e+21` on. -/
def Layout.document : Layout := ⟨-6, 21, fun negative => if negative then 1 else 2⟩

/-- Numbers without exponents, however large or small. -/
def Layout.plain : Layout := ⟨-1000, 1000, fun _ => 2⟩

def digitText (ds : List Nat) : String := String.join (ds.map toString)

/-- Digits around a plain point, with zeros filled in on either side. -/
def plainText (d : Digits) : String :=
  let n : Int := d.digits.length
  if d.point ≤ 0 then "0." ++ digitText (List.replicate (-d.point).toNat 0) ++ digitText d.digits
  else if n ≤ d.point then digitText d.digits ++ digitText (List.replicate (d.point - n).toNat 0)
  else digitText (d.digits.take d.point.toNat) ++ "." ++ digitText (d.digits.drop d.point.toNat)

/-- One digit before the point, and an exponent with its sign. -/
def exponentText (width : Bool → Nat) (d : Digits) : String :=
  let e := d.point - 1
  let head := digitText (d.digits.take 1)
  let tail := digitText (d.digits.drop 1)
  let mantissa := if tail.isEmpty then head else head ++ "." ++ tail
  let negative := decide (e < 0)
  mantissa ++ (if negative then "e-" else "e+") ++ Text.zeroPadded (width negative) e.natAbs

def Layout.write (l : Layout) : Binary64 → String
  | .nan => "NaN"
  | .infinite negative => if negative then "-Inf" else "+Inf"
  | .finite negative 0 _ => if negative then "-0" else "0"
  | .finite negative m q =>
    let d := shortest m q
    let e := d.point - 1
    let body := if e < l.plainFrom || l.plainUpTo ≤ e then exponentText l.exponentWidth d
      else plainText d
    if negative then "-" ++ body else body

/-- A fraction with a fixed number of places, a half going to the even neighbour. -/
def fixed (places num den : Nat) : String :=
  let n := Binary64.roundQuotient (num * Nat.pow 10 places) den
  let whole := toString (n / Nat.pow 10 places)
  if places == 0 then whole else whole ++ "." ++ Text.zeroPadded places (n % Nat.pow 10 places)

end ClassAtlas.Decimal
