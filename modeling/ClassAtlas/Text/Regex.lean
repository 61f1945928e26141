import ClassAtlas.Text.Basic

/-!
Regular expressions, as far as they are a row of pieces: single characters, marks that stand for a
character or a place, and repetitions of one of these. Alternatives, groups, classes and other ways to
repeat are not read. A text is searched for a match by following all ways through the expression at
once, character by character.
-/
namespace ClassAtlas.Text

namespace Regex

inductive Atom where
  | char (c : Char)
  /-- Any character but a line break. -/
  | any
  /-- The start of the text. -/
  | start
  /-- The end of the text. -/
  | stop
  deriving DecidableEq, Repr

/-- An atom that stands there once, or any number of times. -/
structure Piece where
  atom : Atom
  repeated : Bool
  deriving DecidableEq, Repr

inductive Token where
  | atom (a : Atom)
  /-- What comes before is repeated. -/
  | star
  deriving DecidableEq, Repr

end Regex

abbrev Regex := List Regex.Piece

namespace Regex

/-! How expressions are written -/

/-- The characters that have a meaning of their own. -/
def metaChars : List Char := "\\.+*?()|[]\x7b\x7d^$".toList

/-- An expression that is matched by a text itself. -/
def quote (s : String) : String :=
  String.ofList (s.toList.flatMap fun c => if metaChars.contains c then ['\\', c] else [c])

/-- What a character stands for. The brackets that close something stand for themselves where nothing
is open. -/
def token? : Char → Option Token
  | '.' => some (.atom .any)
  | '^' => some (.atom .start)
  | '$' => some (.atom .stop)
  | '*' => some .star
  | c =>
    if metaChars.contains c && c != ']' && c != '\x7d' then none else some (.atom (.char c))

/-- What a character behind a backslash stands for: any mark stands for itself. -/
def escaped? (c : Char) : Option Token :=
  if c.toNat < 128 && !c.isAlphanum then some (.atom (.char c)) else none

def tokens? : List Char → Option (List Token)
  | [] => some []
  | '\\' :: c :: rest => do return (← escaped? c) :: (← tokens? rest)
  | c :: rest => do return (← token? c) :: (← tokens? rest)

/-- There has to be something that can be repeated, and it is repeated once. -/
def ofTokens? : List Token → Option Regex
  | [] => some []
  | .star :: _ => none
  | .atom a :: .star :: rest => (ofTokens? rest).map (⟨a, true⟩ :: ·)
  | .atom a :: rest => (ofTokens? rest).map (⟨a, false⟩ :: ·)

def read? (expression : String) : Option Regex := (tokens? expression.toList).bind ofTokens?

/-! How texts are searched -/

/-- Whether an atom stands for a character. -/
def Atom.takes : Atom → Char → Bool
  | .char a, c => a == c
  | .any, c => c != '\n'
  | .start, _ => false
  | .stop, _ => false

/-- Whether an atom stands for a place. -/
def Atom.holds (atStart atEnd : Bool) : Atom → Bool
  | .char _ => false
  | .any => false
  | .start => atStart
  | .stop => atEnd

/-- What may be left of an expression at a place when no character is taken. -/
def settle (atStart atEnd : Bool) : Regex → List Regex
  | [] => [[]]
  | p :: more =>
    (p :: more) ::
      if p.repeated || p.atom.holds atStart atEnd then settle atStart atEnd more else []

/-- What is left of an expression when its first piece takes a character. -/
def feed? (c : Char) : Regex → Option Regex
  | [] => none
  | p :: more =>
    if p.atom.takes c then some (if p.repeated then p :: more else more) else none

/-- Whether a text is matched from here on by what is left in one of the threads, or further on by the
expression, which has a new thread at every place. -/
def search (r : Regex) (atStart : Bool) (threads : List Regex) : List Char → Bool
  | [] => (threads.flatMap (settle atStart true)).contains []
  | c :: rest =>
    let settled := threads.flatMap (settle atStart false)
    settled.contains [] || search r false (r :: (settled.filterMap (feed? c)).eraseDups) rest

/-- Whether an expression matches a part of a text. -/
def isMatch (r : Regex) (s : String) : Bool := search r true [r] s.toList

end Regex
end ClassAtlas.Text
