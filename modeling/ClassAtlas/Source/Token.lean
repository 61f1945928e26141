import ClassAtlas.Text.Basic
import ClassAtlas.Text.Utf8

/-!
Source text as tokens. A token keeps the blanks before it, so that the text of a run of tokens is
what was written. The value of a text literal is found from its escapes; those for a byte may leave a
value that is no well-formed text, and such bytes read as the replacement character.
-/
namespace ClassAtlas.Source

inductive TokenKind where
  | word
  | number
  | text
  | character
  | comment
  | mark
  deriving DecidableEq, Repr

structure Token where
  gap : List Char
  chars : List Char
  kind : TokenKind
  deriving DecidableEq, Repr

namespace Token

def isComment (t : Token) : Bool := t.kind == .comment

/-- Whether the token is a mark of one character. -/
def isMark (t : Token) (c : Char) : Bool := t.kind == .mark && t.chars == [c]

def isWord (t : Token) (word : String) : Bool := t.kind == .word && t.chars == word.toList

def text (t : Token) : String := String.ofList t.chars

def opens (t : Token) : Bool := t.isMark '(' || t.isMark '[' || t.isMark '\x7b'

def closes (t : Token) : Bool := t.isMark ')' || t.isMark ']' || t.isMark '\x7d'

end Token

/-- What was written from the first token of a run to the last. -/
def writtenText : List Token → String
  | [] => ""
  | t :: more => String.ofList (t.chars ++ more.flatMap fun t => t.gap ++ t.chars)

def isWordChar (c : Char) : Bool :=
  c.isAlphanum || c == '_' || c == '$' || (c.toNat ≥ 0x80 && !Text.isBlankChar c)

/-- A comment up to the mark that closes it. -/
def takeComment : List Char → List Char × List Char
  | [] => ([], [])
  | '*' :: '/' :: rest => (['*', '/'], rest)
  | c :: rest =>
    let (inside, after) := takeComment rest
    (c :: inside, after)

/-- A literal up to the quote that closes it; a backslash protects the character after it. -/
def takeLiteral (quote : Char) : List Char → List Char × List Char
  | [] => ([], [])
  | '\\' :: c :: rest =>
    let (inside, after) := takeLiteral quote rest
    ('\\' :: c :: inside, after)
  | c :: rest =>
    if c == quote then ([c], rest)
    else
      let (inside, after) := takeLiteral quote rest
      (c :: inside, after)

/-- A text of several lines up to the three quotes that close it. -/
def takeBlock : List Char → List Char × List Char
  | [] => ([], [])
  | '\\' :: c :: rest =>
    let (inside, after) := takeBlock rest
    ('\\' :: c :: inside, after)
  | '"' :: '"' :: '"' :: rest => (['"', '"', '"'], rest)
  | c :: rest =>
    let (inside, after) := takeBlock rest
    (c :: inside, after)

/-- The first token of a text that does not start with a blank, and what follows it. -/
def takeToken : List Char → (List Char × TokenKind) × List Char
  | '/' :: '/' :: rest =>
    (('/' :: '/' :: rest.takeWhile (· != '\n'), .comment), rest.dropWhile (· != '\n'))
  | '/' :: '*' :: rest =>
    let (inside, after) := takeComment rest
    (('/' :: '*' :: inside, .comment), after)
  | '"' :: '"' :: '"' :: rest =>
    let (inside, after) := takeBlock rest
    (('"' :: '"' :: '"' :: inside, .text), after)
  | '"' :: rest =>
    let (inside, after) := takeLiteral '"' rest
    (('"' :: inside, .text), after)
  | '\'' :: rest =>
    let (inside, after) := takeLiteral '\'' rest
    (('\'' :: inside, .character), after)
  | c :: rest =>
    if c.isDigit then
      ((c :: rest.takeWhile (fun c => isWordChar c || c == '.'), .number),
        rest.dropWhile fun c => isWordChar c || c == '.')
    else if isWordChar c then ((c :: rest.takeWhile isWordChar, .word), rest.dropWhile isWordChar)
    else (([c], .mark), rest)
  | [] => (([], .mark), [])

/-- The tokens of a text. Every token takes a character, so as many steps as there are characters are
enough. -/
def tokensWithin : Nat → List Char → List Token
  | 0, _ => []
  | fuel + 1, cs =>
    let gap := cs.takeWhile Text.isBlankChar
    match cs.dropWhile Text.isBlankChar with
    | [] => []
    | c :: rest =>
      let ((chars, kind), after) := takeToken (c :: rest)
      ⟨gap, chars, kind⟩ :: tokensWithin fuel after

def tokens (text : String) : List Token :=
  let cs := text.toList
  tokensWithin cs.length cs

/-! Values of literals -/

/-- Escapes of one letter. -/
def simpleEscape? : Char → Option UInt8
  | 'a' => some 7
  | 'b' => some 8
  | 'f' => some 12
  | 'n' => some 10
  | 'r' => some 13
  | 't' => some 9
  | 'v' => some 11
  | '\\' => some 92
  | '"' => some 34
  | _ => none

/-- The character with a number, if there is one. -/
def charOf? (n : Nat) : Option Char := if n.isValidChar then some (Char.ofNat n) else none

/-- The bytes of an escape behind its backslash, and what follows it. -/
def escape? : List Char → Option (List UInt8 × List Char)
  | 'x' :: a :: b :: rest => do
    let n ← Text.digitsValue? 16 [a, b]
    return ([UInt8.ofNat n], rest)
  | 'u' :: a :: b :: c :: d :: rest => do
    let ch ← charOf? (← Text.digitsValue? 16 [a, b, c, d])
    return (Text.Utf8.encode (String.singleton ch), rest)
  | 'U' :: a :: b :: c :: d :: e :: f :: g :: h :: rest => do
    let ch ← charOf? (← Text.digitsValue? 16 [a, b, c, d, e, f, g, h])
    return (Text.Utf8.encode (String.singleton ch), rest)
  | c :: rest =>
    match simpleEscape? c with
    | some b => some ([b], rest)
    | none => do
      let n ← Text.digitsValue? 8 (c :: rest.take 2)
      if rest.length < 2 || n > 255 then none else some ([UInt8.ofNat n], rest.drop 2)
  | [] => none

/-- The bytes of a literal behind its first quote; the last quote must end the text. -/
def literalBytes? : Nat → List Char → Option (List UInt8)
  | 0, _ => none
  | _ + 1, [] => none
  | fuel + 1, c :: rest =>
    if c == '"' then if rest.isEmpty then some [] else none
    else if c == '\n' then none
    else if c == '\\' then do
      let (bytes, rest) ← escape? rest
      return bytes ++ (← literalBytes? fuel rest)
    else do return Text.Utf8.encode (String.singleton c) ++ (← literalBytes? fuel rest)

/-- The value of a literal. One with an escape that means nothing here stands for what is written
between its quotes. -/
def literalValue (written : List Char) : String :=
  match literalBytes? (written.length + 1) (written.drop 1) with
  | some bytes => Text.Utf8.decode bytes
  | none => Text.dropLeading '"' (Text.dropTrailing '"' (String.ofList written))

end ClassAtlas.Source
