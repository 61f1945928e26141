import ClassAtlas.Yaml.Node

/-!
Reading the first document of a text: block lists and maps by indentation, lists and maps in brackets,
plain and quoted scalars, and comments. Every function takes the place it starts at and gives back the
place behind what it has read; `none` says that the text is no such document.
-/
namespace ClassAtlas.Yaml

/-- A place in a text. -/
structure Place where
  line : Nat
  column : Nat
  rest : List Char

namespace Place

/-- The place behind the next character. -/
def next (p : Place) : Place :=
  match p.rest with
  | [] => p
  | '\n' :: rest => ⟨p.line + 1, 0, rest⟩
  | _ :: rest => ⟨p.line, p.column + 1, rest⟩

/-- The place behind some characters of the same line. -/
def skip (p : Place) (n : Nat) : Place := ⟨p.line, p.column + n, p.rest.drop n⟩

def atEnd (p : Place) : Bool := p.rest.isEmpty

end Place

def isInlineBlank (c : Char) : Bool := c == ' ' || c == '\t'

/-- Whether a blank, a line break or the end stands next. -/
def isGap (cs : List Char) : Bool := cs.head?.all fun c => isInlineBlank c || c == '\n'

/-- Skip blanks of a line. -/
def skipBlanks (p : Place) : Place := p.skip (p.rest.takeWhile isInlineBlank).length

/-- Whether the rest of the line holds nothing. -/
def atLineEnd (p : Place) : Bool :=
  match (skipBlanks p).rest with
  | [] => true
  | c :: _ => c == '\n' || c == '#'

/-- Skip blanks, comments and line breaks. In a block no line may be indented by tabs. -/
def nextContent (inBlock : Bool) : Nat → Bool → Place → Option Place
  | 0, _, p => some p
  | fuel + 1, fresh, p =>
    match p.rest with
    | [] => some p
    | c :: rest =>
      if c == ' ' then nextContent inBlock fuel fresh p.next
      else if c == '\t' then
        if inBlock && fresh then none else nextContent inBlock fuel fresh p.next
      else if c == '#' then
        nextContent inBlock fuel fresh (p.skip (1 + (rest.takeWhile (· != '\n')).length))
      else if c == '\n' then nextContent inBlock fuel true p.next
      else some p

def nextInBlock (p : Place) : Option Place := nextContent true (p.rest.length + 1) (p.column == 0) p

def nextInFlow (p : Place) : Option Place := nextContent false (p.rest.length + 1) false p

/-- Characters that no plain scalar starts with. -/
def isIndicator (c : Char) : Bool :=
  ['-', '?', ':', ',', '[', ']', '\x7b', '\x7d', '#', '&', '*', '!', '|', '>', '\'', '"', '%', '@',
    Char.ofNat 0x60].contains c

def startsPlain (inFlow : Bool) : List Char → Bool
  | [] => false
  | c :: rest =>
    !(isGap (c :: rest) || isIndicator c) || (c == '-' && !(rest.head?.any isInlineBlank)) ||
      (!inFlow && (c == '?' || c == ':') && !isGap rest)

def isFlowMark (c : Char) : Bool := [',', '?', '[', ']', '\x7b', '\x7d'].contains c

/-- The part of a plain scalar on one line, blanks at its end included. -/
def plainChars (inFlow : Bool) : Bool → List Char → List Char
  | _, [] => []
  | afterBlank, c :: rest =>
    if c == '\n' || (c == ':' && isGap rest) || (c == '#' && afterBlank) ||
        (inFlow && isFlowMark c) then []
    else c :: plainChars inFlow (isInlineBlank c) rest

def dropTrailingBlanks (cs : List Char) : List Char :=
  (cs.reverse.dropWhile isInlineBlank).reverse

/-- Line breaks inside a scalar: one alone is a blank, of several the first is dropped. -/
def foldedBreaks (breaks : Nat) : List Char :=
  if breaks ≤ 1 then [' '] else List.replicate (breaks - 1) '\n'

/-- The next line with something on it, the number of line breaks to it included. -/
def nextLine : Nat → Nat → Place → Nat × Place
  | 0, breaks, p => (breaks, p)
  | fuel + 1, breaks, p =>
    let q := skipBlanks p
    match q.rest with
    | '\n' :: _ => nextLine fuel (breaks + 1) q.next
    | _ => (breaks, q)

/-- A plain scalar, over as many lines as are indented more than what it belongs to. -/
def plainScalar (inFlow : Bool) (parent : Int) : Nat → Place → List Char × Place
  | 0, p => ([], p)
  | fuel + 1, p =>
    let chars := plainChars inFlow false p.rest
    let text := dropTrailingBlanks chars
    let after := p.skip text.length
    match (p.skip chars.length).rest with
    | '\n' :: _ =>
      let (breaks, q) := nextLine (p.rest.length + 1) 0 (p.skip chars.length)
      if q.atEnd || q.rest.head? == some '#' || (!inFlow && (q.column : Int) ≤ parent) ||
          (plainChars inFlow true q.rest).isEmpty then (text, after)
      else
        let (more, last) := plainScalar inFlow parent fuel q
        (text ++ foldedBreaks breaks ++ more, last)
    | _ => (text, after)

/-- Escapes of one letter. -/
def simpleEscape? : Char → Option Char
  | '0' => some (Char.ofNat 0)
  | 'a' => some (Char.ofNat 7)
  | 'b' => some (Char.ofNat 8)
  | 't' => some '\t'
  | 'n' => some '\n'
  | 'v' => some (Char.ofNat 11)
  | 'f' => some (Char.ofNat 12)
  | 'r' => some '\r'
  | 'e' => some (Char.ofNat 27)
  | ' ' => some ' '
  | '"' => some '"'
  | '/' => some '/'
  | '\\' => some '\\'
  | 'N' => some (Char.ofNat 0x85)
  | '_' => some (Char.ofNat 0xa0)
  | 'L' => some (Char.ofNat 0x2028)
  | 'P' => some (Char.ofNat 0x2029)
  | _ => none

/-- How many digits an escape by number has. -/
def escapeWidth? : Char → Option Nat
  | 'x' => some 2
  | 'u' => some 4
  | 'U' => some 8
  | _ => none

/-- The character of an escape behind its backslash, and how much it takes. -/
def escape? : List Char → Option (Char × Nat)
  | [] => none
  | c :: rest =>
    match escapeWidth? c with
    | some width => do
      let n ← Text.digitsValue? 16 (rest.take width)
      if rest.length < width || !n.isValidChar then none else some (Char.ofNat n, width + 1)
    | none => (simpleEscape? c).map (·, 1)

/-- A quoted scalar behind its first quote. -/
def quotedScalar (double : Bool) : Nat → Place → Option (List Char × Place)
  | 0, _ => none
  | fuel + 1, p =>
    match p.rest with
    | [] => none
    | '\n' :: _ =>
      let (breaks, q) := nextLine (p.rest.length + 1) 0 p
      (quotedScalar double fuel q).map fun (more, last) => (foldedBreaks breaks ++ more, last)
    | c :: rest =>
      let keep (chars : List Char) (width : Nat) : Option (List Char × Place) :=
        (quotedScalar double fuel (p.skip width)).map fun (more, last) => (chars ++ more, last)
      if isInlineBlank c then
        let blanks := (c :: rest).takeWhile isInlineBlank
        if (p.skip blanks.length).rest.head? == some '\n' then keep [] blanks.length
        else keep blanks blanks.length
      else if double then
        if c == '"' then some ([], p.next)
        else if c == '\\' then
          if rest.head? == some '\n' then
            let (breaks, q) := nextLine (p.rest.length + 1) 0 (p.skip 1)
            (quotedScalar double fuel q).map fun (more, last) =>
              (List.replicate (breaks - 1) '\n' ++ more, last)
          else (escape? rest).bind fun (ch, width) => keep [ch] (width + 1)
        else keep [c] 1
      else if c == '\'' then
        if rest.head? == some '\'' then keep ['\''] 2 else some ([], p.next)
      else keep [c] 1

def quotedNode (p : Place) : Option (Node × Place) :=
  (quotedScalar (p.rest.head? == some '"') (p.rest.length + 1) p.next).map fun (chars, last) =>
    (.scalar p.line true (String.ofList chars), last)

def plainNode (inFlow : Bool) (parent : Int) (p : Place) : Option (Node × Place) :=
  if !startsPlain inFlow p.rest then none
  else
    let (chars, last) := plainScalar inFlow parent (p.rest.length + 1) p
    some (.scalar p.line false (String.ofList chars), last)

def startsQuoted (p : Place) : Bool := p.rest.head? == some '"' || p.rest.head? == some '\''

/-- The value that is left out. -/
def nullNode (p : Place) : Node := .scalar p.line false ""

mutual

/-- What stands inside brackets: a scalar, or brackets again. -/
def flowNode : Nat → Place → Option (Node × Place)
  | 0, _ => none
  | fuel + 1, p =>
    match p.rest.head? with
    | some '[' => (flowItems fuel true p.next).map fun (items, last) => (.list p.line items, last)
    | some '\x7b' => (flowPairs fuel true p.next).map fun (pairs, last) => (.map p.line pairs, last)
    | _ => if startsQuoted p then quotedNode p else plainNode true (-1) p

/-- A value behind a colon, if there is one; a mark may follow at once. -/
def flowValue : Nat → Place → Option (Node × Place)
  | 0, _ => none
  | fuel + 1, p => do
    let q ← nextInFlow p
    if q.rest.head?.all fun c => [',', ']', '\x7d'].contains c then some (nullNode q, q)
    else flowNode fuel q

/-- The items of a list in brackets. An item may be a map of one entry. -/
def flowItems : Nat → Bool → Place → Option (List Node × Place)
  | 0, _, _ => none
  | fuel + 1, mayEnd, p => do
    let p ← nextInFlow p
    if p.rest.head? == some ']' then if mayEnd then some ([], p.next) else none
    else
      let (item, q) ← flowNode fuel p
      let q ← nextInFlow q
      let (item, q) ←
        if q.rest.head? == some ':' then
          (flowValue fuel q.next).map fun (value, last) => (.map item.line [(item, value)], last)
        else some (item, q)
      let q ← nextInFlow q
      match q.rest.head? with
      | some ',' => (flowItems fuel true q.next).map fun (items, last) => (item :: items, last)
      | some ']' => some ([item], q.next)
      | _ => none

/-- The entries of a map in brackets. -/
def flowPairs : Nat → Bool → Place → Option (List (Node × Node) × Place)
  | 0, _, _ => none
  | fuel + 1, mayEnd, p => do
    let p ← nextInFlow p
    if p.rest.head? == some '\x7d' then if mayEnd then some ([], p.next) else none
    else
      let (key, q) ← flowNode fuel p
      let q ← nextInFlow q
      let (value, q) ←
        if q.rest.head? == some ':' then flowValue fuel q.next else some (nullNode q, q)
      let q ← nextInFlow q
      match q.rest.head? with
      | some ',' => (flowPairs fuel true q.next).map fun (pairs, last) => ((key, value) :: pairs, last)
      | some '\x7d' => some ([(key, value)], q.next)
      | _ => none

end

/-- A value on one line or, inside quotes and brackets, on several. -/
def inlineNode (parent : Int) (p : Place) : Option (Node × Place) :=
  if startsQuoted p then quotedNode p
  else if p.rest.head? == some '[' || p.rest.head? == some '\x7b' then flowNode (p.rest.length + 1) p
  else plainNode false parent p

/-- The part of a line that could be the key of an entry. -/
def keyNode (p : Place) : Option (Node × Place) :=
  if startsQuoted p || p.rest.head? == some '[' || p.rest.head? == some '\x7b' then
    (inlineNode (-1) p).filter fun (_, q) => q.line == p.line
  else if startsPlain false p.rest then
    let chars := dropTrailingBlanks (plainChars false false p.rest)
    some (.scalar p.line false (String.ofList chars), p.skip chars.length)
  else none

/-- The key of an entry and the place behind its colon. -/
def entryKey? (p : Place) : Option (Node × Place) := do
  let (key, q) ← keyNode p
  let q := skipBlanks q
  match q.rest with
  | ':' :: rest => if isGap rest then some (key, q.next) else none
  | _ => none

def startsItem (p : Place) : Bool :=
  match p.rest with
  | '-' :: rest => isGap rest
  | _ => false

/-- A value that must end with its line. -/
def wholeLine (parent : Int) (p : Place) : Option (Node × Place) :=
  (inlineNode parent p).filter fun (_, q) => atLineEnd q

mutual

/-- A block: a list, a map, or a value. -/
def blockNode : Nat → Int → Place → Option (Node × Place)
  | 0, _, _ => none
  | fuel + 1, parent, p =>
    if startsItem p then
      (blockItems fuel p.column p).map fun (items, last) => (.list p.line items, last)
    else if (entryKey? p).isSome then
      (blockEntries fuel p.column p).map fun (entries, last) => (.map p.line entries, last)
    else wholeLine parent p

/-- The items of a list at a column. -/
def blockItems : Nat → Nat → Place → Option (List Node × Place)
  | 0, _, _ => none
  | fuel + 1, column, p => do
    let q := p.next
    let q := q.skip (q.rest.takeWhile (· == ' ')).length
    let (item, q) ←
      if atLineEnd q then do
        let r ← nextInBlock q
        if r.atEnd || r.column ≤ column then some (nullNode q, q) else blockNode fuel column r
      else if q.rest.head? == some '\t' then none
      else blockNode fuel column q
    let r ← nextInBlock q
    if r.atEnd || r.column < column then some ([item], r)
    else if r.column > column then none
    else if startsItem r then
      (blockItems fuel column r).map fun (items, last) => (item :: items, last)
    else some ([item], r)

/-- The entries of a map at a column. A list that is a value may stand at the same column. -/
def blockEntries : Nat → Nat → Place → Option (List (Node × Node) × Place)
  | 0, _, _ => none
  | fuel + 1, column, p => do
    let (key, q) ← entryKey? p
    let (value, q) ←
      if atLineEnd q then do
        let r ← nextInBlock q
        if r.atEnd then some (nullNode q, q)
        else if r.column > column then blockNode fuel column r
        else if r.column == column && startsItem r then
          (blockItems fuel column r).map fun (items, last) => (.list r.line items, last)
        else some (nullNode q, q)
      else wholeLine column (skipBlanks q)
    let r ← nextInBlock q
    if r.atEnd || r.column < column then some ([(key, value)], r)
    else if r.column > column then none
    else (blockEntries fuel column r).map fun (entries, last) => ((key, value) :: entries, last)

end

/-- Whether a line separates documents. -/
def isSeparator (mark : String) (line : String) : Bool :=
  Text.startsWith line mark && isGap (line.toList.drop 3)

def isEmptyLine (line : String) : Bool :=
  (line.toList.dropWhile isInlineBlank).head?.all (· == '#')

/-- The lines in front of the first document are emptied. -/
def openDocument : List String → List String
  | [] => []
  | line :: more =>
    if isSeparator "---" line then ("   " ++ String.ofList (line.toList.drop 3)) :: more
    else if isEmptyLine line || Text.startsWith line "%" then "" :: openDocument more
    else line :: more

/-- The lines of the first document. -/
def firstDocument (lines : List String) : List String :=
  (openDocument lines).takeWhile fun line => !isSeparator "---" line && !isSeparator "..." line

/-- Characters that may stand in a document. -/
def isAllowed (c : Char) : Bool :=
  let n := c.toNat
  n == 9 || n == 10 || n == 13 || (0x20 ≤ n && n ≤ 0x7e) || n == 0x85 || (0xa0 ≤ n && n != 0xfeff &&
    n != 0xfffe && n != 0xffff)

def unifyBreaks (s : String) : String := Text.replace (Text.replace s "\r\n" "\n") "\r" "\n"

/-- Read the first document of a text. -/
def read? (text : String) : Option Node := do
  let text := Text.dropStart text (String.singleton (Char.ofNat 0xfeff))
  if !text.toList.all isAllowed then none
  else
    let body := Text.join "\n" (firstDocument (Text.splitOn '\n' (unifyBreaks text)))
    let p ← nextInBlock ⟨1, 0, body.toList⟩
    if p.atEnd then some (nullNode p)
    else
      let (node, q) ← blockNode (p.rest.length + 1) (-1) p
      let r ← nextInBlock q
      if r.atEnd then some node else none

end ClassAtlas.Yaml
