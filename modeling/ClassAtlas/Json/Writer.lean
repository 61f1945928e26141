import ClassAtlas.Json.Basic

/-!
Documents as text, either on one line or with one member or item to a line. The members are written
in the order they stand in. A document can be brought into one form first: members in the order of
their names, each name once, and numbers of double precision.
-/
namespace ClassAtlas.Json

/-- The decisions of a writer. -/
structure Style where
  /-- Whether the angle brackets and the ampersand are escaped, so that a text can stand in markup. -/
  guardMarkup : Bool
  /-- Whether a backspace and a form feed have escapes of one letter. -/
  shortControls : Bool
  /-- How many blanks a level is indented by, when members stand on lines of their own. -/
  indent : Option Nat

/-- One line, nothing escaped that need not be. -/
def Style.compact : Style := ⟨false, false, none⟩

/-- One line, safe inside markup. -/
def Style.guarded : Style := ⟨true, true, none⟩

/-- Lines indented by two blanks, safe inside markup. -/
def Style.indented : Style := ⟨true, true, some 2⟩

def Style.escape (style : Style) (c : Char) : String :=
  match c with
  | '"' => "\\\""
  | '\\' => "\\\\"
  | '\n' => "\\n"
  | '\r' => "\\r"
  | '\t' => "\\t"
  | c =>
    let n := c.toNat
    if style.shortControls && n == 8 then "\\b"
    else if style.shortControls && n == 12 then "\\f"
    else if n < 0x20 || n == 0x2028 || n == 0x2029 then "\\u" ++ Text.hex 4 n
    else if style.guardMarkup && (c == '<' || c == '>' || c == '&') then "\\u" ++ Text.hex 4 n
    else String.singleton c

def Style.text (style : Style) (s : String) : String :=
  "\"" ++ String.join (s.toList.map style.escape) ++ "\""

/-- A whole number digit by digit, any other by the fewest digits that read back. -/
def writeNumber (n : Number) : String :=
  if n.scale == 0 && !(n.negative && n.digits == 0) then
    (if n.negative then "-" else "") ++ toString n.digits
  else Decimal.Layout.document.write n.toBinary64

/-- The line break before an item at a level, if items stand on lines of their own. -/
def Style.lineBreak (style : Style) (level : Nat) : String :=
  match style.indent with
  | none => ""
  | some width => "\n" ++ String.ofList (List.replicate (width * level) ' ')

def Style.colon (style : Style) : String := if style.indent.isSome then ": " else ":"

mutual

def writeAt (style : Style) (level : Nat) : Json → String
  | .null => "null"
  | .bool b => if b then "true" else "false"
  | .number n => writeNumber n
  | .text s => style.text s
  | .list [] => "[]"
  | .list (item :: more) =>
    "[" ++ style.lineBreak (level + 1) ++ writeAt style (level + 1) item ++
      writeItems style (level + 1) more ++ style.lineBreak level ++ "]"
  | .object [] => "\x7b\x7d"
  | .object ((name, value) :: more) =>
    "\x7b" ++ style.lineBreak (level + 1) ++ style.text name ++ style.colon ++
      writeAt style (level + 1) value ++ writeMembers style (level + 1) more ++
      style.lineBreak level ++ "\x7d"

def writeItems (style : Style) (level : Nat) : List Json → String
  | [] => ""
  | item :: more =>
    "," ++ style.lineBreak level ++ writeAt style level item ++ writeItems style level more

def writeMembers (style : Style) (level : Nat) : List (String × Json) → String
  | [] => ""
  | (name, value) :: more =>
    "," ++ style.lineBreak level ++ style.text name ++ style.colon ++
      writeAt style level value ++ writeMembers style level more

end

def write (style : Style) (j : Json) : String := writeAt style 0 j

/-! One form -/

/-- Put a member in its place by its name, instead of one that has the name already. -/
def placeMember (name : String) (value : Json) : List (String × Json) → List (String × Json)
  | [] => [(name, value)]
  | (other, v) :: more =>
    if name < other then (name, value) :: (other, v) :: more
    else if name == other then (name, value) :: more
    else (other, v) :: placeMember name value more

mutual

def sorted : Json → Json
  | .list items => .list (sortedItems items)
  | .object members => .object (sortedMembers members [])
  | .number n => .number n.held
  | j => j

def sortedItems : List Json → List Json
  | [] => []
  | j :: more => sorted j :: sortedItems more

def sortedMembers : List (String × Json) → List (String × Json) → List (String × Json)
  | [], done => done
  | (name, j) :: more, done => sortedMembers more (placeMember name (sorted j) done)

end

end ClassAtlas.Json
