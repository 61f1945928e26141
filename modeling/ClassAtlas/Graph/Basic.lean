import ClassAtlas.Collections
import ClassAtlas.Text.Basic
import ClassAtlas.Text.Lower

/-!
The graph of a code base: its classes with their fields, the identifier generators they declare and
use, the points where a request or a message enters, the calls between methods, and the
dependencies between classes. Classes and generators are kept under a key, which is their own name
unless a document says otherwise. To write a graph out, its parts are put in order: first without
regard to case, with what has no name last, and what compares equal as it was found.
-/
namespace ClassAtlas.Graph

/-! Dotted names, and the class that a declared type points at -/

/-- The package of a dotted class name. -/
def packageOf (name : String) : String := (Text.beforeLast? '.' name).getD ""

/-- The name after the package, with the enclosing classes of an inner one. -/
def simpleName (name : String) : String := Text.afterLast '.' name

/-- A class marker as descriptors have it: an `L` before a name with slashes or a semicolon. -/
def hasClassMarker (cs : List Char) : Bool :=
  match cs with
  | 'L' :: rest => !rest.isEmpty && (cs.getLast? == some ';' || cs.contains '/')
  | _ => false

/-- One semicolon at the end is not part of a name. -/
def dropSemicolon (cs : List Char) : List Char :=
  if cs.getLast? == some ';' then cs.dropLast else cs

/-- The class that a type points at: its type arguments and descriptor marks are dropped. An array,
or a name outside every package, points at none. -/
def normalizeType (raw : String) : String :=
  let cs := (Text.trimChars raw.toList).takeWhile (· != '<')
  let cs := if hasClassMarker cs then cs.drop 1 else cs
  let cs := (dropSemicolon cs).map fun c => if c = '/' then '.' else c
  let cs := Text.trimChars cs
  if ['[', ']'].isSuffixOf cs || !cs.contains '.' then "" else String.ofList cs

/-! The parts of a graph -/

/-- Where a class was seen. Documents may bring words of their own. -/
structure Origin where
  word : String
  deriving DecidableEq, Repr, Inhabited

def Origin.source : Origin := ⟨"SOURCE"⟩

def Origin.bytecode : Origin := ⟨"BYTECODE"⟩

def Origin.both : Origin := ⟨"BOTH"⟩

structure ClassKind where
  word : String
  deriving DecidableEq, Repr, Inhabited

def ClassKind.class : ClassKind := ⟨"CLASS"⟩

def ClassKind.interface : ClassKind := ⟨"INTERFACE"⟩

def ClassKind.enum : ClassKind := ⟨"ENUM"⟩

def ClassKind.record : ClassKind := ⟨"RECORD"⟩

structure EndpointKind where
  word : String
  deriving DecidableEq, Repr, Inhabited

def EndpointKind.http : EndpointKind := ⟨"HTTP"⟩

def EndpointKind.messageListener : EndpointKind := ⟨"MESSAGE_LISTENER"⟩

def EndpointKind.scheduled : EndpointKind := ⟨"SCHEDULED"⟩

structure DependencyKind where
  word : String
  deriving DecidableEq, Repr, Inhabited

def DependencyKind.extends : DependencyKind := ⟨"EXTENDS"⟩

def DependencyKind.implements : DependencyKind := ⟨"IMPLEMENTS"⟩

def DependencyKind.call : DependencyKind := ⟨"CALL"⟩

def DependencyKind.injection : DependencyKind := ⟨"INJECTION"⟩

def DependencyKind.field : DependencyKind := ⟨"FIELD"⟩

structure Field where
  name : String
  type : String
  annotations : Listing String
  injected : Bool
  relationship : Bool
  deriving DecidableEq, Repr, Inhabited

/-- A class, interface, enumeration or record. -/
structure Class where
  name : String
  packageName : String
  simpleName : String
  kind : ClassKind
  superClass : String
  interfaces : Listing String
  annotations : Listing String
  stereotypes : Listing String
  fields : Listing Field
  entity : Bool
  tableName : Option String
  origin : Origin
  component : Option Int
  inCycle : Bool
  location : String
  injectionTarget : Bool
  deriving DecidableEq, Repr, Inhabited

def Class.hasStereotype (c : Class) (tag : String) : Bool := c.stereotypes.items.contains tag

/-- The first field with a name. -/
def Class.field? (c : Class) (name : String) : Option Field :=
  c.fields.items.find? (·.name == name)

/-- The declaration of an identifier generator. -/
structure Generator where
  name : String
  sequenceName : String
  allocationSize : Option Int
  initialValue : Option Int
  deriving DecidableEq, Repr, Inhabited

/-- A field whose values a generator makes. -/
structure GeneratorUse where
  className : String
  fieldName : String
  generatorName : String
  deriving DecidableEq, Repr, Inhabited

/-- A point where the outside enters: a route, a message listener or a schedule. -/
structure Endpoint where
  kind : EndpointKind
  httpMethod : String
  path : String
  controllerClass : String
  controllerMethod : String
  produces : String
  consumes : String
  framework : String
  deriving DecidableEq, Repr, Inhabited

/-- A call from one method to another. -/
structure Call where
  callerClass : String
  callerMethod : String
  callerDescriptor : String
  calleeClass : String
  calleeMethod : String
  calleeDescriptor : String
  deriving DecidableEq, Repr, Inhabited

structure Dependency where
  source : String
  target : String
  kind : DependencyKind
  label : String
  deriving DecidableEq, Repr, Inhabited

end ClassAtlas.Graph

namespace ClassAtlas

structure ClassGraph where
  classes : Option (KeyMap Graph.Class)
  generators : Option (KeyMap Graph.Generator)
  generatorUses : Listing Graph.GeneratorUse
  endpoints : Listing Graph.Endpoint
  calls : Listing Graph.Call
  dependencies : Listing Graph.Dependency
  deriving DecidableEq, Repr

namespace ClassGraph

def empty : ClassGraph := ⟨some .empty, some .empty, some [], some [], some [], some []⟩

instance : Inhabited ClassGraph := ⟨empty⟩

def classMap (g : ClassGraph) : KeyMap Graph.Class := g.classes.getD .empty

def generatorMap (g : ClassGraph) : KeyMap Graph.Generator := g.generators.getD .empty

def class? (g : ClassGraph) (key : String) : Option Graph.Class := g.classMap.get? key

/-- The keys of the classes, in order. -/
def classNames (g : ClassGraph) : List String := g.classMap.keys

/-- Keep a class under its own name, over one that is there. A class without name is dropped. -/
def addClass (g : ClassGraph) (c : Graph.Class) : ClassGraph :=
  if c.name.isEmpty then g else { g with classes := some (g.classMap.insert c.name c) }

/-- Keep a generator under its own name. A blank name is dropped. -/
def addGenerator (g : ClassGraph) (d : Graph.Generator) : ClassGraph :=
  if Text.isBlank d.name then g
  else { g with generators := some (g.generatorMap.insert d.name d) }

/-- Note the use of a generator, if class, field and generator all have a name. -/
def addGeneratorUse (g : ClassGraph) (u : Graph.GeneratorUse) : ClassGraph :=
  if Text.isBlank u.className || Text.isBlank u.fieldName || Text.isBlank u.generatorName then g
  else { g with generatorUses := g.generatorUses.push u }

def addEndpoint (g : ClassGraph) (e : Graph.Endpoint) : ClassGraph :=
  { g with endpoints := g.endpoints.push e }

def addCall (g : ClassGraph) (c : Graph.Call) : ClassGraph := { g with calls := g.calls.push c }

def addDependency (g : ClassGraph) (d : Graph.Dependency) : ClassGraph :=
  { g with dependencies := g.dependencies.push d }

/-- How many classes take part in a cycle. -/
def cyclicCount (g : ClassGraph) : Nat := (g.classMap.values.filter (·.inCycle)).length

end ClassGraph
end ClassAtlas

/-! Orders -/
namespace ClassAtlas.ClassGraph

def byName (a b : Graph.Class) : Bool := Text.compareFold a.name b.name != .gt

def byGenerator (a b : Graph.Generator) : Bool := Text.compareFold a.name b.name != .gt

def byRoute (a b : Graph.Endpoint) : Bool :=
  (Text.compareFoldEmptyLast a.controllerClass b.controllerClass).then
    (Text.compareFoldEmptyLast a.path b.path) != .gt

def byEnds (a b : Graph.Dependency) : Bool :=
  (Text.compareFoldEmptyLast a.source b.source).then (Text.compareFoldEmptyLast a.target b.target) != .gt

def sortedClasses (g : ClassGraph) : List Graph.Class := g.classMap.values.mergeSort byName

def sortedGenerators (g : ClassGraph) : List Graph.Generator := g.generatorMap.values.mergeSort byGenerator

def sortedEndpoints (g : ClassGraph) : List Graph.Endpoint := g.endpoints.items.mergeSort byRoute

def httpEndpoints (g : ClassGraph) : List Graph.Endpoint :=
  g.sortedEndpoints.filter (·.kind == .http)

def sortedDependencies (g : ClassGraph) : List Graph.Dependency := g.dependencies.items.mergeSort byEnds

end ClassAtlas.ClassGraph
