import ClassAtlas.Graph.Basic
import ClassAtlas.Json.Basic

/-!
Graphs as documents. A text that may be missing is left out when it is empty; an absent list or map
is written as null, so that reading a document back gives the same graph.
-/
namespace ClassAtlas

/-- A member that is left out when its text is empty. -/
def Json.optionalText (name value : String) : List (String × Json) :=
  if value.isEmpty then [] else [(name, .text value)]

def Json.ofListing (f : α → Json) (l : Listing α) : Json := .ofOption (fun xs => .list (xs.map f)) l

def Json.ofKeyMap (f : α → Json) (m : KeyMap α) : Json :=
  .object (m.entries.map fun e => (e.1, f e.2))

namespace Graph

def Field.toJson (f : Field) : Json :=
  .object [("name", .text f.name), ("type", .text f.type),
    ("annotations", .ofListing .text f.annotations), ("injected", .bool f.injected),
    ("relationship", .bool f.relationship)]

def Class.toJson (c : Class) : Json :=
  .object ([("name", .text c.name), ("packageName", .text c.packageName),
      ("simpleName", .text c.simpleName), ("kind", .text c.kind.word)] ++
    Json.optionalText "superClass" c.superClass ++
    [("interfaces", .ofListing .text c.interfaces), ("annotations", .ofListing .text c.annotations),
      ("stereotypes", .ofListing .text c.stereotypes), ("fields", .ofListing Field.toJson c.fields),
      ("entity", .bool c.entity), ("tableName", .ofOption .text c.tableName),
      ("origin", .text c.origin.word), ("sccId", .ofOption .int c.component),
      ("inCycle", .bool c.inCycle)] ++
    Json.optionalText "jarOrDirectory" c.location ++
    [("injectionTarget", .bool c.injectionTarget)])

def Generator.toJson (d : Generator) : Json :=
  .object ([("generatorName", .text d.name)] ++ Json.optionalText "sequenceName" d.sequenceName ++
    [("allocationSize", .ofOption .int d.allocationSize),
      ("initialValue", .ofOption .int d.initialValue)])

def GeneratorUse.toJson (u : GeneratorUse) : Json :=
  .object [("className", .text u.className), ("fieldName", .text u.fieldName),
    ("generatorName", .text u.generatorName)]

def Endpoint.toJson (e : Endpoint) : Json :=
  .object ([("type", .text e.kind.word)] ++ Json.optionalText "httpMethod" e.httpMethod ++
    [("path", .text e.path), ("controllerClass", .text e.controllerClass),
      ("controllerMethod", .text e.controllerMethod)] ++
    Json.optionalText "produces" e.produces ++ Json.optionalText "consumes" e.consumes ++
    [("framework", .text e.framework)])

def Call.toJson (c : Call) : Json :=
  .object [("callerClass", .text c.callerClass), ("callerMethod", .text c.callerMethod),
    ("callerDescriptor", .text c.callerDescriptor), ("calleeClass", .text c.calleeClass),
    ("calleeMethod", .text c.calleeMethod), ("calleeDescriptor", .text c.calleeDescriptor)]

def Dependency.toJson (d : Dependency) : Json :=
  .object ([("fromClass", .text d.source), ("toClass", .text d.target), ("kind", .text d.kind.word)] ++
    Json.optionalText "label" d.label)

end Graph

def ClassGraph.toJson (g : ClassGraph) : Json :=
  .object [("classes", .ofOption (.ofKeyMap Graph.Class.toJson) g.classes),
    ("sequences", .ofOption (.ofKeyMap Graph.Generator.toJson) g.generators),
    ("sequenceUsages", .ofListing Graph.GeneratorUse.toJson g.generatorUses),
    ("endpoints", .ofListing Graph.Endpoint.toJson g.endpoints),
    ("methodCallEdges", .ofListing Graph.Call.toJson g.calls),
    ("dependencyEdges", .ofListing Graph.Dependency.toJson g.dependencies)]

namespace Json

/-- The text of a member, empty when it is missing. -/
def textMember (j : Json) (name : String) : String := ((j.member? name).bind asText?).getD ""

def boolMember (j : Json) (name : String) : Bool := ((j.member? name).bind asBool?).getD false

def intMember? (j : Json) (name : String) : Option Int := (j.member? name).bind asInt?

def textMember? (j : Json) (name : String) : Option String := (j.member? name).bind asText?

/-- A list member: absent when it is null or missing. -/
def listMember (f : Json → α) (j : Json) (name : String) : Listing α :=
  ((j.member? name).bind asList?).map (·.map f)

def textsMember (j : Json) (name : String) : Listing String :=
  listMember (fun item => item.asText?.getD "") j name

/-- An entry of a map, if it holds something. -/
def presentPair? (f : Json → α) : String × Json → Option (String × α)
  | (_, .null) => none
  | (key, value) => some (key, f value)

/-- The entries of a map that hold something, in order of their keys. -/
def presentEntries (f : Json → α) (members : List (String × Json)) : List (String × α) :=
  (KeyMap.ofList members).entries.filterMap (presentPair? f)

/-- A map member: absent when it is null or missing. -/
def mapMember (f : Json → α) (j : Json) (name : String) : Option (KeyMap α) :=
  ((j.member? name).bind asObject?).map fun members => KeyMap.ofList (presentEntries f members)

end Json

namespace Graph

def Field.ofJson (j : Json) : Field :=
  ⟨j.textMember "name", j.textMember "type", j.textsMember "annotations", j.boolMember "injected",
    j.boolMember "relationship"⟩

def Class.ofJson (j : Json) : Class where
  name := j.textMember "name"
  packageName := j.textMember "packageName"
  simpleName := j.textMember "simpleName"
  kind := ⟨j.textMember "kind"⟩
  superClass := j.textMember "superClass"
  interfaces := j.textsMember "interfaces"
  annotations := j.textsMember "annotations"
  stereotypes := j.textsMember "stereotypes"
  fields := Json.listMember Field.ofJson j "fields"
  entity := j.boolMember "entity"
  tableName := j.textMember? "tableName"
  origin := ⟨j.textMember "origin"⟩
  component := j.intMember? "sccId"
  inCycle := j.boolMember "inCycle"
  location := j.textMember "jarOrDirectory"
  injectionTarget := j.boolMember "injectionTarget"

def Generator.ofJson (j : Json) : Generator :=
  ⟨j.textMember "generatorName", j.textMember "sequenceName", j.intMember? "allocationSize",
    j.intMember? "initialValue"⟩

def GeneratorUse.ofJson (j : Json) : GeneratorUse :=
  ⟨j.textMember "className", j.textMember "fieldName", j.textMember "generatorName"⟩

def Endpoint.ofJson (j : Json) : Endpoint where
  kind := ⟨j.textMember "type"⟩
  httpMethod := j.textMember "httpMethod"
  path := j.textMember "path"
  controllerClass := j.textMember "controllerClass"
  controllerMethod := j.textMember "controllerMethod"
  produces := j.textMember "produces"
  consumes := j.textMember "consumes"
  framework := j.textMember "framework"

def Call.ofJson (j : Json) : Call :=
  ⟨j.textMember "callerClass", j.textMember "callerMethod", j.textMember "callerDescriptor",
    j.textMember "calleeClass", j.textMember "calleeMethod", j.textMember "calleeDescriptor"⟩

def Dependency.ofJson (j : Json) : Dependency :=
  ⟨j.textMember "fromClass", j.textMember "toClass", ⟨j.textMember "kind"⟩, j.textMember "label"⟩

end Graph

/-- A graph from a document. A collection that the document does not name is empty, one that it
names as null is absent. -/
def ClassGraph.ofJson (j : Json) : ClassGraph :=
  let named {α : Type} (name : String) (read : Json → String → Option α) (empty : α) : Option α :=
    match j.member? name with
    | none => some empty
    | some _ => read j name
  { classes := named "classes" (Json.mapMember Graph.Class.ofJson) .empty
    generators := named "sequences" (Json.mapMember Graph.Generator.ofJson) .empty
    generatorUses := named "sequenceUsages" (Json.listMember Graph.GeneratorUse.ofJson) []
    endpoints := named "endpoints" (Json.listMember Graph.Endpoint.ofJson) []
    calls := named "methodCallEdges" (Json.listMember Graph.Call.ofJson) []
    dependencies := named "dependencyEdges" (Json.listMember Graph.Dependency.ofJson) [] }

end ClassAtlas
