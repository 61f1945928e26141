import ClassAtlas.Text.Basic

/-!
Points in time to the nanosecond, with the zone they were given in, spans of time, and the texts of
both.
-/
namespace ClassAtlas.Time

/-- A point in time: seconds since 1970 in universal time, nanoseconds within the second, and the
offset of the local clock in seconds. -/
structure Moment where
  seconds : Int
  nanos : Nat
  offset : Int
  deriving DecidableEq, Repr, Inhabited

def isLeapYear (year : Int) : Bool := year % 4 == 0 && (year % 100 != 0 || year % 400 == 0)

/-- The number of days of a month. -/
def daysIn (year : Int) (month : Nat) : Nat :=
  if month = 2 then if isLeapYear year then 29 else 28
  else if month = 4 ∨ month = 6 ∨ month = 9 ∨ month = 11 then 30
  else 31

/-- The day number of a date, counted from 1970-01-01. Years start in March, so that a leap day is
the last one. -/
def dayNumber (year : Int) (month day : Nat) : Int :=
  let y := if month ≤ 2 then year - 1 else year
  let era := y.fdiv 400
  let yearOfEra := y - era * 400
  let monthFromMarch : Int := (month + 9) % 12
  let dayOfYear := (153 * monthFromMarch + 2).fdiv 5 + (day : Int) - 1
  let dayOfEra := yearOfEra * 365 + yearOfEra.fdiv 4 - yearOfEra.fdiv 100 + dayOfYear
  era * 146097 + dayOfEra - 719468

/-- The date of a day number. -/
def dateOf (days : Int) : Int × Nat × Nat :=
  let z := days + 719468
  let era := z.fdiv 146097
  let dayOfEra := z - era * 146097
  let yearOfEra :=
    (dayOfEra - dayOfEra.fdiv 1460 + dayOfEra.fdiv 36524 - dayOfEra.fdiv 146096).fdiv 365
  let dayOfYear := dayOfEra - (365 * yearOfEra + yearOfEra.fdiv 4 - yearOfEra.fdiv 100)
  let monthFromMarch := (5 * dayOfYear + 2).fdiv 153
  let day := dayOfYear - (153 * monthFromMarch + 2).fdiv 5 + 1
  let month := if monthFromMarch < 10 then monthFromMarch + 3 else monthFromMarch - 9
  let year := yearOfEra + era * 400 + (if month ≤ 2 then 1 else 0)
  (year, month.toNat, day.toNat)

namespace Moment

def toUtc (m : Moment) : Moment := { m with offset := 0 }

/-- The first moment of the year one, which stands for none at all. -/
def zero : Moment := ⟨-62135596800, 0, 0⟩

def isZero (m : Moment) : Bool := m.seconds == zero.seconds && m.nanos == zero.nanos

/-- Before another, whatever the zones. -/
def precedes (a b : Moment) : Bool :=
  a.seconds < b.seconds || (a.seconds == b.seconds && a.nanos < b.nanos)

/-- Nanoseconds from one moment to another. -/
def since (later earlier : Moment) : Int :=
  (later.seconds - earlier.seconds) * 1000000000 + ((later.nanos : Int) - earlier.nanos)

/-- A millisecond later. -/
def tick (m : Moment) : Moment :=
  let nanos := m.nanos + 1000000
  { m with seconds := m.seconds + nanos / 1000000000, nanos := nanos % 1000000000 }

/-- Date and time of day on the local clock, joined by a mark. -/
def dateTime (m : Moment) (mark : String) : String :=
  let local_ := m.seconds + m.offset
  let days := local_.fdiv 86400
  let rest := (local_ - days * 86400).toNat
  let (year, month, day) := dateOf days
  let year := if year < 0 then "-" ++ Text.zeroPadded 4 year.natAbs
    else Text.zeroPadded 4 year.toNat
  year ++ "-" ++ Text.zeroPadded 2 month ++ "-" ++ Text.zeroPadded 2 day ++ mark ++
    Text.zeroPadded 2 (rest / 3600) ++ ":" ++ Text.zeroPadded 2 (rest / 60 % 60) ++ ":" ++
    Text.zeroPadded 2 (rest % 60)

/-- The zone: `Z` for universal time, else the offset in hours and minutes. -/
def zone (m : Moment) : String :=
  if m.offset == 0 then "Z"
  else
    let n := m.offset.natAbs / 60
    (if m.offset < 0 then "-" else "+") ++ Text.zeroPadded 2 (n / 60) ++ ":" ++
      Text.zeroPadded 2 (n % 60)

/-- The fraction of a second with nine digits. -/
def fraction (m : Moment) : String := Text.zeroPadded 9 m.nanos

/-- To the second. -/
def text (m : Moment) : String := m.dateTime "T" ++ m.zone

/-- To the nanosecond, without zeros at the end of the fraction. -/
def preciseText (m : Moment) : String :=
  let digits := Text.dropTrailing '0' m.fraction
  m.dateTime "T" ++ (if digits.isEmpty then "" else "." ++ digits) ++ m.zone

/-- In universal time to the nanosecond, always with nine digits. Such texts are in order of time as
long as the year has four digits. -/
def stamp (m : Moment) : String := m.toUtc.dateTime "T" ++ "." ++ m.fraction ++ "Z"

/-- Digits of a fixed width at the front. -/
def takeNumber? (width : Nat) (cs : List Char) : Option (Nat × List Char) :=
  let front := cs.take width
  if front.length == width && front.all Char.isDigit then
    (Text.digitsValue? 10 front).map (·, cs.drop width)
  else none

def takeChar? (c : Char) : List Char → Option (List Char)
  | d :: rest => if c = d then some rest else none
  | [] => none

/-- The fraction of a second, zero when there is none; digits after the ninth are dropped. -/
def takeFraction (cs : List Char) : Nat × List Char :=
  match cs with
  | '.' :: rest =>
    let digits := rest.takeWhile Char.isDigit
    if digits.isEmpty then (0, cs)
    else
      let nine := (digits ++ List.replicate 9 '0').take 9
      ((Text.digitsValue? 10 nine).getD 0, rest.dropWhile Char.isDigit)
  | _ => (0, cs)

def takeZone? (cs : List Char) : Option Int :=
  match cs with
  | ['Z'] => some 0
  | sign :: rest => do
    let direction : Int ← if sign == '+' then some 1 else if sign == '-' then some (-1) else none
    let (hours, rest) ← takeNumber? 2 rest
    let rest ← takeChar? ':' rest
    let (minutes, rest) ← takeNumber? 2 rest
    if rest.isEmpty && hours < 24 && minutes < 60 then
      some (direction * (hours * 3600 + minutes * 60 : Nat))
    else none
  | [] => none

/-- A date and time of day at the front, in seconds on its clock. -/
def takeDateTime? (cs : List Char) : Option (Int × List Char) := do
  let (year, cs) ← takeNumber? 4 cs
  let (month, cs) ← takeNumber? 2 (← takeChar? '-' cs)
  let (day, cs) ← takeNumber? 2 (← takeChar? '-' cs)
  let (hour, cs) ← takeNumber? 2 (← takeChar? 'T' cs)
  let (minute, cs) ← takeNumber? 2 (← takeChar? ':' cs)
  let (second, cs) ← takeNumber? 2 (← takeChar? ':' cs)
  if 1 ≤ month && month ≤ 12 && 1 ≤ day && day ≤ daysIn year month && hour < 24 && minute < 60 &&
      second < 60 then
    some (dayNumber year month day * 86400 + (hour * 3600 + minute * 60 + second : Nat), cs)
  else none

/-- A date and time of day with a zone, as `text` and `preciseText` write it. -/
def read? (s : String) : Option Moment := do
  let (seconds, cs) ← takeDateTime? s.toList
  let (nanos, cs) := takeFraction cs
  let offset ← takeZone? cs
  some ⟨seconds - offset, nanos, offset⟩

/-- A moment from the text that `stamp` writes. -/
def ofStamp? (s : String) : Option Moment := do
  let (seconds, cs) ← takeDateTime? s.toList
  let (nanos, cs) ← takeNumber? 9 (← takeChar? '.' cs)
  if cs = ['Z'] then some ⟨seconds, nanos, 0⟩ else none

end Moment

/-! Spans of time, counted in nanoseconds -/

structure Duration where
  nanos : Int
  deriving DecidableEq, Repr, Inhabited

namespace Duration

/-- A number of nanoseconds of 64 bits; a larger one wraps around. -/
def wrapped (nanos : Int) : Duration := ⟨nanos.bmod (Nat.pow 2 64)⟩

def ofSeconds (n : Int) : Duration := wrapped (n * 1000000000)

def ofMillis (n : Int) : Duration := wrapped (n * 1000000)

/-- A number of nanoseconds of 64 bits; instead of a larger one the largest. -/
def clamped (nanos : Int) : Duration := ⟨max (-(Nat.pow 2 63 : Int)) (min nanos ((Nat.pow 2 63 : Int) - 1))⟩

def millis (d : Duration) : Int := d.nanos.tdiv 1000000

/-- To the nearest millisecond, a half away from zero. -/
def roundedToMillis (d : Duration) : Duration :=
  let millis : Int := (d.nanos.natAbs + 500000) / 1000000
  clamped ((if d.nanos < 0 then -millis else millis) * 1000000)

/-- A number with a decimal fraction of so many digits, without zeros at its end. -/
def withFraction (whole fraction digits : Nat) : String :=
  let places := Text.dropTrailing '0' (Text.zeroPadded digits fraction)
  toString whole ++ (if places.isEmpty then "" else "." ++ places)

/-- The largest unit below a second in which the span is at least one, or hours, minutes and
seconds. -/
def text (d : Duration) : String :=
  let n := d.nanos.natAbs
  let body :=
    if n == 0 then "0s"
    else if n < 1000 then toString n ++ "ns"
    else if n < 1000000 then withFraction (n / 1000) (n % 1000) 3 ++ "µs"
    else if n < 1000000000 then withFraction (n / 1000000) (n % 1000000) 6 ++ "ms"
    else
      let seconds := n / 1000000000
      let tail := withFraction (seconds % 60) (n % 1000000000) 9 ++ "s"
      if seconds < 60 then tail
      else if seconds < 3600 then toString (seconds / 60) ++ "m" ++ tail
      else toString (seconds / 3600) ++ "h" ++ toString (seconds / 60 % 60) ++ "m" ++ tail
  if d.nanos < 0 then "-" ++ body else body

end Duration
end ClassAtlas.Time
