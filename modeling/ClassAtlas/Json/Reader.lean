import ClassAtlas.Json.Basic

/-!
Documents read from text. A reader takes what it needs from the front of the characters and returns
the rest; the whole text must be one document between blanks.
-/
namespace ClassAtlas.Json

def isSpace (c : Char) : Bool := c == ' ' || c == '\t' || c == '\n' || c == '\r'

def skipSpace (cs : List Char) : List Char := cs.dropWhile isSpace

/-- The value of four hexadecimal digits. -/
def hex4? (a b c d : Char) : Option Nat := Text.digitsValue? 16 [a, b, c, d]

def isHighSurrogate (n : Nat) : Bool := 0xd800 ≤ n && n < 0xdc00

def isLowSurrogate (n : Nat) : Bool := 0xdc00 ≤ n && n < 0xe000

def replacement : Char := Char.ofNat 0xfffd

/-- The character that an escape of one letter stands for. -/
def simpleEscape? : Char → Option Char
  | '"' => some '"'
  | '\\' => some '\\'
  | '/' => some '/'
  | 'b' => some (Char.ofNat 8)
  | 'f' => some (Char.ofNat 12)
  | 'n' => some '\n'
  | 'r' => some '\r'
  | 't' => some '\t'
  | _ => none

/-- The characters of a text up to its closing quote, and what follows. A surrogate without its
partner becomes the replacement character. -/
def readText : List Char → Option (List Char × List Char)
  | [] => none
  | '"' :: rest => some ([], rest)
  | '\\' :: 'u' :: a :: b :: c :: d :: '\\' :: 'u' :: e :: f :: g :: h :: rest => do
    let high ← hex4? a b c d
    match hex4? e f g h with
    | some low =>
      if isHighSurrogate high && isLowSurrogate low then
        let (cs, rest) ← readText rest
        some (Char.ofNat (0x10000 + (high - 0xd800) * 1024 + (low - 0xdc00)) :: cs, rest)
      else
        let (cs, rest) ← readText ('\\' :: 'u' :: e :: f :: g :: h :: rest)
        some ((if 0xd800 ≤ high && high < 0xe000 then replacement else Char.ofNat high) :: cs, rest)
    | none => none
  | '\\' :: 'u' :: a :: b :: c :: d :: rest => do
    let n ← hex4? a b c d
    let (cs, rest) ← readText rest
    some ((if 0xd800 ≤ n && n < 0xe000 then replacement else Char.ofNat n) :: cs, rest)
  | '\\' :: c :: rest => do
    let e ← simpleEscape? c
    let (cs, rest) ← readText rest
    some (e :: cs, rest)
  | c :: rest =>
    if c.toNat < 0x20 then none
    else do
      let (cs, rest) ← readText rest
      some (c :: cs, rest)

@[simp] theorem readText_quote (rest : List Char) : readText ('"' :: rest) = some ([], rest) := by
  rw [readText]

def span (p : Char → Bool) (cs : List Char) : List Char × List Char :=
  (cs.takeWhile p, cs.dropWhile p)

/-- The exponent of a number, zero when it has none. -/
def readExponent : List Char → Option (Int × List Char)
  | c :: rest =>
    if c == 'e' || c == 'E' then
      let (negative, rest) : Bool × List Char := match rest with
        | '-' :: rest => (true, rest)
        | '+' :: rest => (false, rest)
        | rest => (false, rest)
      let (ds, rest) := span Char.isDigit rest
      if ds.isEmpty then none
      else do
        let n ← Text.digitsValue? 10 ds
        some (if negative then -(n : Int) else n, rest)
    else some (0, c :: rest)
  | [] => some (0, [])

/-- A number: no leading zeros, and digits on both sides of a point. -/
def readNumber (cs : List Char) : Option (Number × List Char) := do
  let (negative, cs) : Bool × List Char := match cs with
    | '-' :: rest => (true, rest)
    | rest => (false, rest)
  let (whole, cs) := span Char.isDigit cs
  if whole.isEmpty || (whole.length > 1 && whole.head? == some '0') then none
  else
    let (fraction, cs) ← match cs with
      | '.' :: rest =>
        let (ds, rest) := span Char.isDigit rest
        if ds.isEmpty then none else some (ds, rest)
      | rest => some ([], rest)
    let (exponent, cs) ← readExponent cs
    let n ← Text.digitsValue? 10 (whole ++ fraction)
    some (⟨negative, n, exponent - fraction.length⟩, cs)

mutual

/-- A document at the front of the characters. The count bounds how deep it may nest. -/
def readValue : Nat → List Char → Option (Json × List Char)
  | 0, _ => none
  | fuel + 1, cs =>
    match skipSpace cs with
    | 'n' :: 'u' :: 'l' :: 'l' :: rest => some (.null, rest)
    | 't' :: 'r' :: 'u' :: 'e' :: rest => some (.bool true, rest)
    | 'f' :: 'a' :: 'l' :: 's' :: 'e' :: rest => some (.bool false, rest)
    | '"' :: rest => (readText rest).map fun (s, rest) => (.text (String.ofList s), rest)
    | '[' :: rest =>
      match skipSpace rest with
      | ']' :: rest => some (.list [], rest)
      | rest => (readItems fuel rest).map fun (items, rest) => (.list items, rest)
    | '\x7b' :: rest =>
      match skipSpace rest with
      | '\x7d' :: rest => some (.object [], rest)
      | rest => (readMembers fuel rest).map fun (members, rest) => (.object members, rest)
    | cs => (readNumber cs).map fun (n, rest) => (.number n, rest)

/-- The items of a list, the closing bracket included. -/
def readItems : Nat → List Char → Option (List Json × List Char)
  | 0, _ => none
  | fuel + 1, cs => do
    let (item, rest) ← readValue fuel cs
    match skipSpace rest with
    | ',' :: rest =>
      let (items, rest) ← readItems fuel rest
      some (item :: items, rest)
    | ']' :: rest => some ([item], rest)
    | _ => none

/-- The members of an object, the closing brace included. -/
def readMembers : Nat → List Char → Option (List (String × Json) × List Char)
  | 0, _ => none
  | fuel + 1, cs =>
    match skipSpace cs with
    | '"' :: rest => do
      let (name, rest) ← readText rest
      match skipSpace rest with
      | ':' :: rest =>
        let (value, rest) ← readValue fuel rest
        match skipSpace rest with
        | ',' :: rest =>
          let (members, rest) ← readMembers fuel rest
          some ((String.ofList name, value) :: members, rest)
        | '\x7d' :: rest => some ([(String.ofList name, value)], rest)
        | _ => none
      | _ => none
    | _ => none

end

/-- The document that a text holds, if it holds one and nothing else. -/
def read? (s : String) : Option Json :=
  match readValue (s.length + 1) s.toList with
  | some (j, rest) => if (skipSpace rest).isEmpty then some j else none
  | none => none

end ClassAtlas.Json
