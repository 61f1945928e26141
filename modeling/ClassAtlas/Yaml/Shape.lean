import ClassAtlas.Json.Basic
import ClassAtlas.Text.Quoted
import ClassAtlas.Text.Utf8
import ClassAtlas.Yaml.Node

/-!
What a document should look like, and how it fails to. A document without complaints is turned into a
plain one of the same shape.
-/
namespace ClassAtlas.Yaml

/-- The expected form of a node. The name of a form is what complaints call it. -/
inductive Shape where
  | text (name : String)
  | bool
  | int
  | list (name : String) (item : Shape)
  | map (name : String) (value : Shape)
  | record (name : String) (members : List (String × Shape))
  deriving Inhabited

def Shape.name : Shape → String
  | .text name => name
  | .bool => "bool"
  | .int => "int"
  | .list name _ => name
  | .map name _ => name
  | .record name _ => name

def Shape.item : Shape → Shape
  | .list _ item => item
  | .map _ value => value
  | _ => .text "string"

/-- The form of a member; none if it is unknown. -/
def Shape.member? (shape : Shape) (key : String) : Option Shape :=
  match shape with
  | .map _ value => some value
  | .record _ members => members.lookup key
  | _ => none

/-- The words that stand for truth values where one is expected. -/
def boolWord? (s : String) : Option Bool :=
  if ["y", "Y", "yes", "Yes", "YES", "on", "On", "ON"].contains s then some true
  else if ["n", "N", "no", "No", "NO", "off", "Off", "OFF"].contains s then some false
  else none

/-- The least whole number of 64 bits. -/
def leastInt : Int := -(Nat.pow 2 63 : Int)

/-- A number as a whole one of 64 bits, cut off at the point. -/
def wholeOf? : Meaning → Option Int
  | .int n => if n < (Nat.pow 2 63 : Int) then some n else none
  | .number .nan => none
  | .number (.infinite negative) => if negative then some leastInt else none
  | .number x => (x.truncate?).bind fun n =>
      let bound : Int := Nat.pow 2 63
      if n > bound then none else if n == bound || n < leastInt then some leastInt else some n
  | _ => none

/-- The value of a scalar where a form is expected; none if it does not fit. -/
def scalarJson? (shape : Shape) (quoted : Bool) (s : String) : Option Json :=
  match meaningOf quoted s with
  | .null => some .null
  | meaning =>
    match shape with
    | .text _ => some (.text s)
    | .bool =>
      match meaning with
      | .bool b => some (.bool b)
      | .text => (boolWord? s).map .bool
      | _ => none
    | .int => (wholeOf? meaning).map .int
    | _ => none

def shownValue (s : String) : String :=
  let shown := if Text.Utf8.size s > 10 then Text.Utf8.takeBytes 7 s ++ "..." else s
  let tick := String.singleton (Char.ofNat 0x60)
  " " ++ tick ++ shown ++ tick

/-- That a node is not what is expected. -/
def mismatch (line : Nat) (found expected : String) : String :=
  "line " ++ toString line ++ ": cannot unmarshal " ++ found ++ " into " ++ expected

def keyText : Node → String
  | .scalar _ _ text => text
  | _ => ""

def sameKind : Node → Node → Bool
  | .scalar _ _ _, .scalar _ _ _ => true
  | .list _ _, .list _ _ => true
  | .map _ _, .map _ _ => true
  | _, _ => false

/-- That a key stands twice, for each pair of places. -/
def repeatedKeys : List Node → List String
  | [] => []
  | key :: more =>
    (more.filter fun other => sameKind key other && keyText key == keyText other).map (fun other =>
      "line " ++ toString other.line ++ ": mapping key " ++ Text.quoted (keyText other) ++
        " already defined at line " ++ toString key.line) ++ repeatedKeys more

/-- The text of a key; none for one that is no text. -/
def keyText? : Node → Option String
  | .scalar _ quoted text =>
    match meaningOf quoted text with
    | .null => none
    | _ => some text
  | _ => none

/-- What is wrong with a key. -/
def keyComplaints : Node → List String
  | .scalar _ _ _ => []
  | .list line _ => [mismatch line "!!seq" "string"]
  | .map line _ => [mismatch line "!!map" "string"]

def takesEntries : Shape → Bool
  | .map _ _ => true
  | .record _ _ => true
  | _ => false

def takesItems : Shape → Bool
  | .list _ _ => true
  | _ => false

mutual

/-- Everything that is wrong with a node, in the order of the document. -/
def complaints (shape : Shape) : Node → List String
  | .scalar line quoted text =>
    if (scalarJson? shape quoted text).isSome then []
    else [mismatch line ((meaningOf quoted text).tag ++ shownValue text) shape.name]
  | .list line items =>
    if takesItems shape then itemComplaints shape.item items
    else [mismatch line "!!seq" shape.name]
  | .map line entries =>
    match repeatedKeys (entries.map (·.1)) with
    | [] => if takesEntries shape then entryComplaints shape entries
      else [mismatch line "!!map" shape.name]
    | repeated => repeated

def itemComplaints (shape : Shape) : List Node → List String
  | [] => []
  | node :: more => complaints shape node ++ itemComplaints shape more

def entryComplaints (shape : Shape) : List (Node × Node) → List String
  | [] => []
  | (key, value) :: more =>
    keyComplaints key ++
      (match (keyText? key).bind shape.member? with
        | some member => complaints member value
        | none => []) ++
      entryComplaints shape more

end

mutual

/-- A node as a plain document. -/
def toJson (shape : Shape) : Node → Json
  | .scalar _ quoted text => (scalarJson? shape quoted text).getD .null
  | .list _ items => .list (itemsJson shape.item items)
  | .map _ entries => .object (entriesJson shape entries)

/-- The items of a list; those that are left out are none. -/
def itemsJson (shape : Shape) : List Node → List Json
  | [] => []
  | node :: more =>
    match toJson shape node with
    | .null => itemsJson shape more
    | json => json :: itemsJson shape more

def entriesJson (shape : Shape) : List (Node × Node) → List (String × Json)
  | [] => []
  | (key, value) :: more =>
    match keyText? key with
    | none => entriesJson shape more
    | some name =>
      match shape.member? name with
      | some member => (name, toJson member value) :: entriesJson shape more
      | none => entriesJson shape more

end
end ClassAtlas.Yaml
