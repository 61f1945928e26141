import ClassAtlas.Graph.Basic
import ClassAtlas.Text.Basic

/-!
The diagrams of what a graph is made of. The class diagram shows every class with its tags and
fields, and every dependency as an arrow. The entity diagrams, in two notations, show the entities
with their fields, and an association for every relationship that leads to an entity.
-/
namespace ClassAtlas.Diagram

/-! Names as diagrams show them -/

/-- What has no name is shown as unknown. -/
def shownName (name : String) : String := if name.isEmpty then "Unknown" else name

def isPlainChar (c : Char) : Bool := c.isAlphanum

/-- A name of letters, digits and underscores only. -/
def plainName (name : String) : String :=
  String.ofList (name.toList.map fun c => if isPlainChar c then c else '_')

/-! The class diagram -/

def cycleTag : String := "CYCLE"

/-- The tags of a class; one on a cycle has one more. -/
def classTags (c : Graph.Class) : List String :=
  c.stereotypes.items ++ if c.inCycle then [cycleTag] else []

def classFieldLine (f : Graph.Field) : String :=
  "  " ++ (if f.injected then "*" else "") ++ f.name ++ " : " ++ f.type

def classLines (c : Graph.Class) : List String :=
  let tags := classTags c
  ["class " ++ shownName c.name ++
      (if tags.isEmpty then "" else " <<" ++ Text.join ", " tags ++ ">>") ++ " \x7b"] ++
    c.fields.items.map classFieldLine ++ ["\x7d"]

/-- The arrow of a dependency. What is extended or implemented stands in front. -/
def arrow (d : Graph.Dependency) : String :=
  let source := shownName d.source
  let target := shownName d.target
  if d.kind == .extends then target ++ " <|-- " ++ source
  else if d.kind == .implements then target ++ " <|.. " ++ source
  else if [.call, .injection, .field].contains d.kind then source ++ " --> " ++ target
  else source ++ " ..> " ++ target

def dependencyLine (d : Graph.Dependency) : String :=
  arrow d ++ if d.label.isEmpty then "" else " : " ++ d.label

/-- A dependency is drawn if both of its ends have names. -/
def isDrawn (d : Graph.Dependency) : Bool := !d.source.isEmpty && !d.target.isEmpty

/-- Lines of text, each closed by a line break. -/
def textOf (lines : List String) : String := String.join (lines.map (· ++ "\n"))

def classDiagram (g : ClassGraph) : String :=
  textOf (["@startuml", "set namespaceSeparator ."] ++ g.sortedClasses.flatMap classLines ++
    (g.sortedDependencies.filter isDrawn).map dependencyLine ++ ["@enduml"])

/-! The entity diagrams -/

def entities (g : ClassGraph) : List Graph.Class := g.sortedClasses.filter (·.entity)

structure Association where
  source : String
  target : String
  field : String
  deriving DecidableEq, Repr

/-- The text between the first opening and the last closing angle bracket, if they stand in that
order. -/
def argumentText? (type : String) : Option String :=
  let cs := type.toList
  let inner := (cs.dropWhile (· != '<')).drop 1
  if cs.contains '<' && inner.contains '>' then
    some (String.ofList ((inner.reverse.dropWhile (· != '>')).drop 1).reverse)
  else none

/-- The classes that a type names: the type itself, then its arguments. -/
def namedClasses (type : String) : List String :=
  Graph.normalizeType type :: match argumentText? type with
    | none => []
    | some inner => (Text.splitOn ',' inner).map fun arg =>
        Graph.normalizeType (Text.dropStart (Text.trim arg) "? extends ")

def isEntityName (g : ClassGraph) (name : String) : Bool :=
  !name.isEmpty && (g.class? name).any (·.entity)

/-- The first entity that a type names. -/
def entityTarget? (g : ClassGraph) (type : String) : Option String :=
  (namedClasses type).find? (isEntityName g)

def classAssociations (g : ClassGraph) (c : Graph.Class) : List Association :=
  (c.fields.items.filter (·.relationship)).filterMap fun f =>
    (entityTarget? g f.type).map fun target => ⟨c.name, target, f.name⟩

def associations (g : ClassGraph) : List Association := (entities g).flatMap (classAssociations g)

def entityFieldLine (f : Graph.Field) : String :=
  "  " ++ (if f.relationship then "ref " else "") ++ f.name ++ " : " ++ f.type

def entityLines (c : Graph.Class) : List String :=
  ["entity " ++ shownName c.name ++ " \x7b"] ++ c.fields.items.map entityFieldLine ++ ["\x7d"]

def associationLine (a : Association) : String :=
  shownName a.source ++ " --> " ++ shownName a.target ++ " : " ++ a.field

def entityDiagram (g : ClassGraph) : String :=
  textOf (["@startuml", "hide circle", "skinparam linetype ortho"] ++
    (entities g).flatMap entityLines ++ (associations g).map associationLine ++ ["@enduml"])

namespace Mermaid

def identifier (name : String) : String := if name.isEmpty then "Unknown" else plainName name

/-- Blanks are dropped, a pair of brackets becomes a word, and angle brackets become tildes. -/
def respell : List Char → List Char
  | [] => []
  | '[' :: ']' :: rest => "Array".toList ++ respell rest
  | c :: rest =>
    if c == ' ' then respell rest
    else (if c == '<' || c == '>' then '~' else c) :: respell rest

def typeName (type : String) : String :=
  if type.isEmpty then "Unknown"
  else String.ofList ((respell type.toList).map fun c => if c == '~' || isPlainChar c then c else '_')

def entityLines (c : Graph.Class) : List String :=
  ["  " ++ identifier c.name ++ " \x7b"] ++
    c.fields.items.map (fun f => "    " ++ typeName f.type ++ " " ++ identifier f.name) ++ ["  \x7d"]

def associationLine (a : Association) : String :=
  "  " ++ identifier a.source ++ " ||--o\x7b " ++ identifier a.target ++ " : " ++ identifier a.field

def entityDiagram (g : ClassGraph) : String :=
  textOf (["erDiagram"] ++ (entities g).flatMap entityLines ++
    (associations g).map associationLine)

end Mermaid
end ClassAtlas.Diagram
