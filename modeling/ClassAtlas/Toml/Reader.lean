import ClassAtlas.Text.Utf8
import ClassAtlas.Toml.Document
import ClassAtlas.Toml.Scalar

/-!
Reading a settings document. Every function takes the characters that are left and gives back what it
has read with the characters behind it; `none` says that the document is wrong.
-/
namespace ClassAtlas.Toml

/-- The two forms of documents. In the newer one a table in braces may run over several lines, and
there are two more escapes. -/
inductive Edition where
  | older | newer
  deriving DecidableEq, Repr

def Edition.isNewer (e : Edition) : Bool := e == .newer

def isInlineBlank (c : Char) : Bool := c == ' ' || c == '\t'

/-- Control characters that stand nowhere in a document. -/
def isForbidden (c : Char) : Bool := (c.toNat < 0x20 && c != '\t') || c.toNat == 0x7f

def skipBlanks (cs : List Char) : List Char := cs.dropWhile isInlineBlank

/-- Skip the rest of a line that holds nothing but a comment. -/
def endLine (inComment : Bool) : List Char → Option (List Char)
  | [] => some []
  | '\n' :: rest => some rest
  | '\r' :: '\n' :: rest => some rest
  | c :: rest =>
    if inComment then if isForbidden c then none else endLine true rest
    else if isInlineBlank c then endLine false rest
    else if c == '#' then endLine true rest
    else none

/-- Skip blanks, line breaks and comments. -/
def skipLayout (inComment : Bool) : List Char → Option (List Char)
  | [] => some []
  | '\n' :: rest => skipLayout false rest
  | '\r' :: '\n' :: rest => skipLayout false rest
  | c :: rest =>
    if inComment then if isForbidden c then none else skipLayout true rest
    else if isInlineBlank c then skipLayout false rest
    else if c == '#' then skipLayout true rest
    else some (c :: rest)

/-- Escapes of one letter. -/
def simpleEscape? (edition : Edition) : Char → Option Char
  | 'b' => some (Char.ofNat 8)
  | 't' => some '\t'
  | 'n' => some '\n'
  | 'f' => some (Char.ofNat 12)
  | 'r' => some '\r'
  | '"' => some '"'
  | '\\' => some '\\'
  | 'e' => if edition.isNewer then some (Char.ofNat 27) else none
  | _ => none

/-- The character of a number in hexadecimal. -/
def numbered? (digits : List Char) : Option Char := do
  let n ← Text.digitsValue? 16 digits
  if n.isValidChar then some (Char.ofNat n) else none

/-- A text behind its first quote, with escapes. -/
def quotedChars (edition : Edition) : List Char → Option (List Char × List Char)
  | [] => none
  | '"' :: rest => some ([], rest)
  | '\\' :: 'u' :: a :: b :: c :: d :: rest => do
    let ch ← numbered? [a, b, c, d]
    let (chars, rest) ← quotedChars edition rest
    some (ch :: chars, rest)
  | '\\' :: 'U' :: a :: b :: c :: d :: e :: f :: g :: h :: rest => do
    let ch ← numbered? [a, b, c, d, e, f, g, h]
    let (chars, rest) ← quotedChars edition rest
    some (ch :: chars, rest)
  | '\\' :: 'x' :: a :: b :: rest => do
    let ch ← if edition.isNewer then numbered? [a, b] else none
    let (chars, rest) ← quotedChars edition rest
    some (ch :: chars, rest)
  | '\\' :: c :: rest => do
    let ch ← simpleEscape? edition c
    let (chars, rest) ← quotedChars edition rest
    some (ch :: chars, rest)
  | c :: rest =>
    if isForbidden c then none
    else (quotedChars edition rest).map fun (chars, rest) => (c :: chars, rest)

/-- A text behind its first quote, without escapes. -/
def literalChars : List Char → Option (List Char × List Char)
  | [] => none
  | '\'' :: rest => some ([], rest)
  | c :: rest =>
    if isForbidden c then none
    else (literalChars rest).map fun (chars, rest) => (c :: chars, rest)

/-- Behind three closing quotes: up to two more belong to the text. -/
def closingQuotes (quote : Char) (rest : List Char) : Option (List Char × List Char) :=
  let extra := rest.takeWhile (· == quote)
  if extra.length ≤ 2 then some (extra, rest.drop extra.length) else none

/-- Whether only blanks stand in front of the next line break. -/
def blankToBreak (cs : List Char) : Bool :=
  match skipBlanks cs with
  | '\n' :: _ => true
  | '\r' :: '\n' :: _ => true
  | _ => false

/-- A text of several lines, with escapes. A backslash at the end of a line takes away all blanks and
line breaks that follow. -/
def longQuotedChars (edition : Edition) (joining : Bool) : List Char → Option (List Char × List Char)
  | [] => none
  | '"' :: '"' :: '"' :: rest => closingQuotes '"' rest
  | '\\' :: 'u' :: a :: b :: c :: d :: rest => do
    let ch ← numbered? [a, b, c, d]
    let (chars, rest) ← longQuotedChars edition false rest
    some (ch :: chars, rest)
  | '\\' :: 'U' :: a :: b :: c :: d :: e :: f :: g :: h :: rest => do
    let ch ← numbered? [a, b, c, d, e, f, g, h]
    let (chars, rest) ← longQuotedChars edition false rest
    some (ch :: chars, rest)
  | '\\' :: 'x' :: a :: b :: rest => do
    let ch ← if edition.isNewer then numbered? [a, b] else none
    let (chars, rest) ← longQuotedChars edition false rest
    some (ch :: chars, rest)
  | '\\' :: c :: rest =>
    if blankToBreak (c :: rest) then longQuotedChars edition true rest
    else do
      let ch ← simpleEscape? edition c
      let (chars, rest) ← longQuotedChars edition false rest
      some (ch :: chars, rest)
  | c :: rest =>
    if joining && (isInlineBlank c || c == '\n' || c == '\r') then longQuotedChars edition true rest
    else if isForbidden c && c != '\n' && !(c == '\r' && rest.head? == some '\n') then none
    else (longQuotedChars edition false rest).map fun (chars, rest) => (c :: chars, rest)

/-- A text of several lines, without escapes. -/
def longLiteralChars : List Char → Option (List Char × List Char)
  | [] => none
  | '\'' :: '\'' :: '\'' :: rest => closingQuotes '\'' rest
  | c :: rest =>
    if isForbidden c && c != '\n' && !(c == '\r' && rest.head? == some '\n') then none
    else (longLiteralChars rest).map fun (chars, rest) => (c :: chars, rest)

/-- A line break right behind the opening quotes is no part of the text. -/
def skipBreak : List Char → List Char
  | '\n' :: rest => rest
  | '\r' :: '\n' :: rest => rest
  | cs => cs

/-- A text in quotes of any kind; `none` in front of anything else. -/
def text? (edition : Edition) : List Char → Option (String × List Char)
  | '"' :: '"' :: '"' :: rest =>
    (longQuotedChars edition false (skipBreak rest)).map fun (chars, rest) => (String.ofList chars, rest)
  | '"' :: rest => (quotedChars edition rest).map fun (chars, rest) => (String.ofList chars, rest)
  | '\'' :: '\'' :: '\'' :: rest =>
    (longLiteralChars (skipBreak rest)).map fun (chars, rest) => (String.ofList chars, rest)
  | '\'' :: rest => (literalChars rest).map fun (chars, rest) => (String.ofList chars, rest)
  | _ => none

def isKeyChar (c : Char) : Bool := c.isAlphanum || c == '_' || c == '-'

/-- One part of a key: bare or in quotes. -/
def keyPart? (edition : Edition) : List Char → Option (String × List Char)
  | '"' :: rest => (quotedChars edition rest).map fun (chars, rest) => (String.ofList chars, rest)
  | '\'' :: rest => (literalChars rest).map fun (chars, rest) => (String.ofList chars, rest)
  | cs =>
    let bare := cs.takeWhile isKeyChar
    if bare.isEmpty then none else some (String.ofList bare, cs.drop bare.length)

/-- A key: parts with dots between them. The blanks behind it are skipped. -/
def keyPath? (edition : Edition) : Nat → List Char → Option (List String × List Char)
  | 0, _ => none
  | fuel + 1, cs => do
    let (part, rest) ← keyPart? edition (skipBlanks cs)
    match skipBlanks rest with
    | '.' :: rest =>
      let (path, rest) ← keyPath? edition fuel rest
      some (part :: path, rest)
    | rest => some ([part], rest)

/-- Characters that end a value without quotes. -/
def endsScalar (c : Char) : Bool :=
  isInlineBlank c || ['\n', '\r', ',', ']', '\x7d', '#'].contains c

/-- A value without quotes or brackets. A blank may stand between a date and a time. -/
def bare? (edition : Edition) (cs : List Char) : Option (Value × List Char) :=
  let run := cs.takeWhile (!endsScalar ·)
  let rest := cs.drop run.length
  let (run, rest) := match isDate run, rest with
    | true, ' ' :: c :: more =>
      if c.isDigit then
        let time := (c :: more).takeWhile (!endsScalar ·)
        (run ++ ' ' :: time, (c :: more).drop time.length)
      else (run, rest)
    | _, _ => (run, rest)
  (scalar? edition.isNewer run).map (·, rest)

/-- Skip what may stand between the parts of a table in braces. -/
def skipInTable (edition : Edition) (cs : List Char) : Option (List Char) :=
  if edition.isNewer then skipLayout false cs else some (skipBlanks cs)

mutual

def value? (edition : Edition) : Nat → List Char → Option (Value × List Char)
  | 0, _ => none
  | fuel + 1, cs =>
    match cs with
    | [] => none
    | '[' :: rest => (items? edition fuel rest).map fun (items, rest) => (.list items, rest)
    | '\x7b' :: rest => do
      let (entries, rest) ← entries? edition fuel true rest
      let table ← inlineTable? entries
      some (table, rest)
    | c :: _ =>
      if c == '"' || c == '\'' then (text? edition cs).map fun (s, rest) => (.text s, rest)
      else bare? edition cs

/-- The items of a list behind its bracket, over any number of lines. -/
def items? (edition : Edition) : Nat → List Char → Option (List Value × List Char)
  | 0, _ => none
  | fuel + 1, cs => do
    match ← skipLayout false cs with
    | ']' :: rest => some ([], rest)
    | cs =>
      let (item, rest) ← value? edition fuel cs
      match ← skipLayout false rest with
      | ',' :: rest => (items? edition fuel rest).map fun (items, rest) => (item :: items, rest)
      | ']' :: rest => some ([item], rest)
      | _ => none

/-- The entries of a table behind its brace. -/
def entries? (edition : Edition) : Nat → Bool → List Char →
    Option (List (List String × Value) × List Char)
  | 0, _, _ => none
  | fuel + 1, mayEnd, cs => do
    match ← skipInTable edition cs with
    | '\x7d' :: rest => if mayEnd then some ([], rest) else none
    | cs =>
      let (path, rest) ← keyPath? edition fuel cs
      match rest with
      | '=' :: rest =>
        let (value, rest) ← value? edition fuel (skipBlanks rest)
        match ← skipInTable edition rest with
        | ',' :: rest =>
          (entries? edition fuel edition.isNewer rest).map fun (entries, rest) =>
            ((path, value) :: entries, rest)
        | '\x7d' :: rest => some ([(path, value)], rest)
        | _ => none
      | _ => none

end

/-- One statement with the rest of its line. -/
def statement? (edition : Edition) (cs : List Char) : Option (Statement × List Char) := do
  let fuel := cs.length + 1
  match cs with
  | '[' :: '[' :: rest =>
    let (path, rest) ← keyPath? edition fuel rest
    match rest with
    | ']' :: ']' :: rest => (endLine false rest).map (.itemHeader path, ·)
    | _ => none
  | '[' :: rest =>
    let (path, rest) ← keyPath? edition fuel rest
    match rest with
    | ']' :: rest => (endLine false rest).map (.header path, ·)
    | _ => none
  | _ =>
    let (path, rest) ← keyPath? edition fuel cs
    match rest with
    | '=' :: rest =>
      let (value, rest) ← value? edition fuel (skipBlanks rest)
      (endLine false rest).map (.assign path value, ·)
    | _ => none

def statements? (edition : Edition) : Nat → List Char → Option (List Statement)
  | 0, _ => none
  | fuel + 1, cs => do
    match ← skipLayout false cs with
    | [] => some []
    | cs =>
      let (statement, rest) ← statement? edition cs
      (statements? edition fuel rest).map (statement :: ·)

/-- The table of a document. -/
def read? (edition : Edition) (text : String) : Option Table :=
  (statements? edition (text.toList.length + 1) text.toList).bind tableOf?

/-- The bytes of a file behind a mark of its encoding, which the newer edition passes over. -/
def withoutMark (edition : Edition) (bytes : List UInt8) : List UInt8 :=
  match edition, bytes with
  | .newer, 0xef :: 0xbb :: 0xbf :: rest => rest
  | .newer, 0xff :: 0xfe :: rest => rest
  | .newer, 0xfe :: 0xff :: rest => rest
  | _, bytes => bytes

/-- The table of a document in a file. -/
def readBytes? (edition : Edition) (bytes : List UInt8) : Option Table :=
  let bytes := withoutMark edition bytes
  if Text.Utf8.isValid bytes then read? edition (Text.Utf8.decode bytes) else none

end ClassAtlas.Toml
