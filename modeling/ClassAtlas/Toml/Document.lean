import ClassAtlas.Toml.Value

/-!
A document as a list of statements, and the table that they make up. A header opens a table, a double
header adds one to a list of tables, and an assignment puts a value under a key of the table that is
open. Nothing may be said twice: a table has one header, a key one value, and what stands in brackets
or braces is complete.
-/
namespace ClassAtlas.Toml

inductive Statement where
  | header (path : List String)
  | itemHeader (path : List String)
  | assign (path : List String) (value : Value)
  deriving Inhabited

/-- How a table has come about: as the place of a table inside it, by its own header, or by a key
with dots. -/
inductive Origin where
  | implied | headed | dotted
  deriving DecidableEq, Repr

inductive Item where
  | value (v : Value)
  | table (origin : Origin) (entries : List (String × Item))
  /-- A list of tables, the open one first. -/
  | tables (items : List (List (String × Item)))
  deriving Inhabited

abbrev Items := List (String × Item)

namespace Items

/-- Replace the item of a key, or put a new one at the end. -/
def update (key : String) (change : Option Item → Option Item) : Items → Option Items
  | [] => (change none).map fun item => [(key, item)]
  | (name, item) :: more =>
    if name == key then (change (some item)).map fun item => (name, item) :: more
    else (update key change more).map ((name, item) :: ·)

/-- Change the table at a path of headers. Tables on the way are made if they are missing, and of a
list of tables the open one is taken. -/
def within : List String → (Items → Option Items) → Items → Option Items
  | [], change, items => change items
  | key :: path, change, items => items.update key fun
    | none => (within path change []).map (.table .implied)
    | some (.table origin entries) => (within path change entries).map (.table origin)
    | some (.tables (last :: earlier)) =>
      (within path change last).map fun last => .tables (last :: earlier)
    | some _ => none

/-- Put a value under a key with dots. Only tables that such keys have made are entered. -/
def assign (value : Value) : List String → Items → Option Items
  | [], _ => none
  | [key], items => items.update key fun
    | none => some (.value value)
    | some _ => none
  | key :: path, items => items.update key fun
    | none => (assign value path []).map (.table .dotted)
    | some (.table .dotted entries) => (assign value path entries).map (.table .dotted)
    | some _ => none

def openTable : Option Item → Option Item
  | none => some (.table .headed [])
  | some (.table .implied entries) => some (.table .headed entries)
  | some _ => none

def openItem : Option Item → Option Item
  | none => some (.tables [[]])
  | some (.tables items) => some (.tables ([] :: items))
  | some _ => none

/-- Change the item at a path of headers. -/
def atPath (change : Option Item → Option Item) (path : List String) (items : Items) : Option Items :=
  match path.getLast? with
  | none => none
  | some key => within path.dropLast (·.update key change) items

end Items

mutual

def Item.toValue : Item → Value
  | .value v => v
  | .table _ entries => .table (Items.toTable entries)
  | .tables items => .list (Items.toTables items).reverse

def Items.toTable : List (String × Item) → Table
  | [] => []
  | (key, item) :: more => (key, item.toValue) :: Items.toTable more

def Items.toTables : List (List (String × Item)) → List Value
  | [] => []
  | entries :: more => .table (Items.toTable entries) :: Items.toTables more

end

/-- Carry out statements, with the table at a path open. -/
def carryOut : List Statement → List String → Items → Option Items
  | [], _, items => some items
  | .header path :: more, _, items =>
    (items.atPath Items.openTable path).bind (carryOut more path)
  | .itemHeader path :: more, _, items =>
    (items.atPath Items.openItem path).bind (carryOut more path)
  | .assign path value :: more, current, items =>
    (items.within current (·.assign value path)).bind (carryOut more current)

/-- The table that statements make up; `none` if they contradict each other. -/
def tableOf? (statements : List Statement) : Option Table :=
  (carryOut statements [] []).map Items.toTable

/-- A table in braces. -/
def inlineTable? (entries : List (List String × Value)) : Option Value :=
  (tableOf? (entries.map fun (path, value) => .assign path value)).map .table

end ClassAtlas.Toml
