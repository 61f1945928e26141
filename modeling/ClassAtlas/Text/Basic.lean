/-!
Texts are strings, and every rule about them is stated on their characters. The operations here
are the ones the other modules share: pieces between separators, replacement of a run, the part
before or after a mark, padding, decimal or hexadecimal digits, and trimming and splitting at white
space.
-/
namespace ClassAtlas.Text

/-- Whether `part` occurs in a text as a contiguous run. -/
def occurs (part : List Char) : List Char → Bool
  | [] => part.isEmpty
  | c :: rest => part.isPrefixOf (c :: rest) || occurs part rest

def startsWith (s start : String) : Bool := start.toList.isPrefixOf s.toList

def endsWith (s tail : String) : Bool := tail.toList.isSuffixOf s.toList

def contains (s part : String) : Bool := occurs part.toList s.toList

def containsChar (s : String) (c : Char) : Bool := s.toList.contains c

/-- The pieces of a text between the occurrences of a character. There is always one. -/
def pieces (sep : Char) : List Char → List (List Char)
  | [] => [[]]
  | c :: rest =>
    if c = sep then [] :: pieces sep rest
    else match pieces sep rest with
      | [] => [[c]]
      | piece :: more => (c :: piece) :: more

theorem pieces_ne_nil (sep : Char) (cs : List Char) : pieces sep cs ≠ [] := by
  cases cs with
  | nil => simp [pieces]
  | cons c rest =>
    simp only [pieces]
    split
    · simp
    · split <;> simp

def splitOn (sep : Char) (s : String) : List String := (pieces sep s.toList).map String.ofList

def join (sep : String) (parts : List String) : String := String.intercalate sep parts

/-- Replace every run `old`, found left to right without overlap. The count is how many characters
of a run already replaced are still to be passed over. -/
def replaceRuns (old new : List Char) : Nat → List Char → List Char
  | _, [] => []
  | k + 1, _ :: rest => replaceRuns old new k rest
  | 0, c :: rest =>
    if old.isPrefixOf (c :: rest) then new ++ replaceRuns old new (old.length - 1) rest
    else c :: replaceRuns old new 0 rest

/-- Replace every occurrence of a non-empty run. -/
def replace (s old new : String) : String :=
  if old.isEmpty then s else String.ofList (replaceRuns old.toList new.toList 0 s.toList)

def replaceChar (s : String) (old new : Char) : String :=
  String.ofList (s.toList.map fun c => if c = old then new else c)

/-- The part before the first mark, or the whole text when it has none. -/
def before (mark : Char) (s : String) : String :=
  String.ofList (s.toList.takeWhile (· != mark))

/-- The part after the last mark, or the whole text when it has none. -/
def afterLast (mark : Char) (s : String) : String :=
  String.ofList (s.toList.reverse.takeWhile (· != mark)).reverse

/-- The part before the last mark, if there is one. -/
def beforeLast? (mark : Char) (s : String) : Option String :=
  match s.toList.reverse.dropWhile (· != mark) with
  | [] => none
  | _ :: rest => some (String.ofList rest.reverse)

/-- Drop one leading run, if the text starts with it. -/
def dropStart (s start : String) : String :=
  if startsWith s start then String.ofList (s.toList.drop start.length) else s

/-- Drop one trailing run, if the text ends with it. -/
def dropTail (s tail : String) : String :=
  if endsWith s tail then String.ofList (s.toList.take (s.length - tail.length)) else s

/-- Drop every trailing occurrence of a character. -/
def dropTrailing (c : Char) (s : String) : String :=
  String.ofList (s.toList.reverse.dropWhile (· = c)).reverse

/-- Drop every leading occurrence of a character. -/
def dropLeading (c : Char) (s : String) : String :=
  String.ofList (s.toList.dropWhile (· = c))

/-- Pad with blanks on the right up to a number of characters. -/
def padRight (width : Nat) (s : String) : String :=
  s ++ String.ofList (List.replicate (width - s.length) ' ')

/-- Pad with blanks on the left up to a number of characters. -/
def padLeft (width : Nat) (s : String) : String :=
  String.ofList (List.replicate (width - s.length) ' ') ++ s

/-- A number in decimal, with leading zeros up to a number of digits. -/
def zeroPadded (width n : Nat) : String :=
  let digits := Nat.toDigits 10 n
  String.ofList (List.replicate (width - digits.length) '0' ++ digits)

/-- A number in lower-case hexadecimal, with leading zeros up to a number of digits. -/
def hex (width n : Nat) : String :=
  let digits := Nat.toDigits 16 n
  String.ofList (List.replicate (width - digits.length) '0' ++ digits)

/-- A number in upper-case hexadecimal, with leading zeros up to a number of digits. -/
def hexUpper (width n : Nat) : String := String.ofList ((hex width n).toList.map Char.toUpper)

/-- The value of one hexadecimal digit. -/
def hexDigit? (c : Char) : Option Nat :=
  if '0' ≤ c ∧ c ≤ '9' then some (c.toNat - '0'.toNat)
  else if 'a' ≤ c ∧ c ≤ 'f' then some (c.toNat - 'a'.toNat + 10)
  else if 'A' ≤ c ∧ c ≤ 'F' then some (c.toNat - 'A'.toNat + 10)
  else none

/-- The value of a run of digits in a base up to sixteen; `none` on a foreign character. -/
def digitsValue? (base : Nat) (cs : List Char) : Option Nat :=
  cs.foldl (fun acc c => do
    let n ← acc
    let d ← hexDigit? c
    if d < base then some (n * base + d) else none) (some 0)

/-- A decimal number without sign: one digit at least and nothing else. -/
def decimal? (s : String) : Option Nat :=
  if s.isEmpty then none else digitsValue? 10 s.toList

/-- The lines of a text, without the empty line that a final line break would leave. -/
def lines (s : String) : List String :=
  match (splitOn '\n' s).reverse with
  | "" :: rest => rest.reverse
  | parts => parts.reverse

/-! White space in the sense of the Unicode property -/

/-- The characters that count as white space. The zero-width space is not one of them. -/
def isBlankChar (c : Char) : Bool :=
  (9 ≤ c.toNat && c.toNat ≤ 13) || c == ' ' || c.toNat == 0x85 || c.toNat == 0xa0 ||
    c.toNat == 0x1680 || (0x2000 ≤ c.toNat && c.toNat ≤ 0x200a) || c.toNat == 0x2028 ||
    c.toNat == 0x2029 || c.toNat == 0x202f || c.toNat == 0x205f || c.toNat == 0x3000

def trimStartChars (cs : List Char) : List Char := cs.dropWhile isBlankChar

def trimEndChars (cs : List Char) : List Char := (cs.reverse.dropWhile isBlankChar).reverse

def trimChars (cs : List Char) : List Char := trimEndChars (trimStartChars cs)

def trim (s : String) : String := String.ofList (trimChars s.toList)

/-- A text of white space only. -/
def isBlank (s : String) : Bool := s.toList.all isBlankChar

/-- The maximal runs without white space. -/
def wordsOf : List Char → List Char → List (List Char)
  | [], [] => []
  | [], word => [word.reverse]
  | c :: rest, word =>
    if isBlankChar c then
      if word.isEmpty then wordsOf rest [] else word.reverse :: wordsOf rest []
    else wordsOf rest (c :: word)

def words (s : String) : List String := (wordsOf s.toList []).map String.ofList

end ClassAtlas.Text
