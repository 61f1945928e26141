import ClassAtlas.Failure
import ClassAtlas.File.Disk
import ClassAtlas.Graph.Basic
import ClassAtlas.Graph.Document
import ClassAtlas.Text.Basic
import ClassAtlas.Yaml.Reader
import ClassAtlas.Yaml.Shape

/-!
Graphs that are written by hand or by other tools, and the union of two graphs. An entry of a document
is stored under its own name; one that has none takes the key it stands under. In a union of sources
and compiled classes the compiled side wins: its classes are taken as they are, and the sources add
what it does not have.
-/
namespace ClassAtlas.Graph

open Yaml (Shape)

def textShape : Shape := .text "string"

def textsShape : Shape := .list "[]string" textShape

def fieldShape : Shape := .record "graph.FieldModel" [("name", textShape), ("type", textShape),
  ("annotations", textsShape), ("injected", .bool), ("relationship", .bool)]

def classShape : Shape := .record "graph.ClassNode" [("name", textShape),
  ("packageName", textShape), ("simpleName", textShape), ("kind", .text "graph.ClassKind"),
  ("superClass", textShape), ("interfaces", textsShape), ("annotations", textsShape),
  ("stereotypes", textsShape), ("fields", .list "[]graph.FieldModel" fieldShape), ("entity", .bool),
  ("tableName", textShape), ("origin", .text "graph.Origin"), ("sccId", .int), ("inCycle", .bool),
  ("jarOrDirectory", textShape), ("injectionTarget", .bool)]

def generatorShape : Shape := .record "graph.SequenceNode" [("generatorName", textShape),
  ("sequenceName", textShape), ("allocationSize", .int), ("initialValue", .int)]

def generatorUseShape : Shape := .record "graph.SequenceUsage" [("className", textShape),
  ("fieldName", textShape), ("generatorName", textShape)]

def endpointShape : Shape := .record "graph.EndpointNode" [("type", .text "graph.EndpointType"),
  ("httpMethod", textShape), ("path", textShape), ("controllerClass", textShape),
  ("controllerMethod", textShape), ("produces", textShape), ("consumes", textShape),
  ("framework", textShape)]

def callShape : Shape := .record "graph.MethodCallEdge" [("callerClass", textShape),
  ("callerMethod", textShape), ("callerDescriptor", textShape), ("calleeClass", textShape),
  ("calleeMethod", textShape), ("calleeDescriptor", textShape)]

def dependencyShape : Shape := .record "graph.DependencyEdge" [("fromClass", textShape),
  ("toClass", textShape), ("kind", .text "graph.DependencyKind"), ("label", textShape)]

def graphShape : Shape := .record "graph.Model" [
  ("classes", .map "map[string]*graph.ClassNode" classShape),
  ("sequences", .map "map[string]*graph.SequenceNode" generatorShape),
  ("sequenceUsages", .list "[]graph.SequenceUsage" generatorUseShape),
  ("endpoints", .list "[]graph.EndpointNode" endpointShape),
  ("methodCallEdges", .list "[]graph.MethodCallEdge" callShape),
  ("dependencyEdges", .list "[]graph.DependencyEdge" dependencyShape)]

def orElseText (text fallback : String) : String := if text.isEmpty then fallback else text

/-- A class with what it leaves out filled in. -/
def Class.completed (key : String) (c : Class) : Class :=
  let name := orElseText c.name key
  { c with
    name
    packageName := orElseText c.packageName (packageOf name)
    simpleName := orElseText c.simpleName (Graph.simpleName name)
    kind := if c.kind.word.isEmpty then .class else c.kind }

def Generator.completed (key : String) (d : Generator) : Generator :=
  { d with name := orElseText d.name key }

/-- The graph that a document describes, entry by entry. -/
def imported (raw : ClassGraph) (classes : List (String × Class))
    (generators : List (String × Generator)) : ClassGraph :=
  let g := classes.foldl (fun g (key, c) => g.addClass (c.completed key)) ClassGraph.empty
  let g := generators.foldl (fun g (key, d) => g.addGenerator (d.completed key)) g
  let g := raw.generatorUses.items.foldl ClassGraph.addGeneratorUse g
  { g with
    endpoints := some raw.endpoints.items
    calls := some raw.calls.items
    dependencies := some raw.dependencies.items }

/-- The entries of a map of a document, in order of their keys. -/
def entriesOf (f : Json → α) (j : Json) (name : String) : List (String × α) :=
  ((Json.mapMember f j name).getD .empty).entries

/-- What a document says before its entries are put under their names: its lists, and the entries of
its two maps one after the other. -/
structure Raw where
  lists : ClassGraph
  classes : List (String × Class)
  generators : List (String × Generator)
  deriving DecidableEq

/-- The graph of a document, its entries taken as they stand. -/
def Raw.graph (raw : Raw) : ClassGraph := imported raw.lists raw.classes raw.generators

/-- Read what a document says, the entries of a map in order of their keys; a failure is told in
words. -/
def readRaw (bytes : List UInt8) : Except String Raw :=
  let text := Text.Utf8.decode bytes
  if Text.isBlank text then .ok ⟨.empty, [], []⟩
  else match if Text.Utf8.isValid bytes then Yaml.read? text else none with
    | none => .error "yaml: invalid document"
    | some node =>
      match Yaml.complaints graphShape node with
      | [] =>
        let json := Yaml.toJson graphShape node
        .ok ⟨ClassGraph.ofJson json, entriesOf Class.ofJson json "classes",
          entriesOf Generator.ofJson json "sequences"⟩
      | found => .error ("yaml: unmarshal errors:\n  " ++ Text.join "\n  " found)

def read (bytes : List UInt8) : Except String ClassGraph := (readRaw bytes).map Raw.graph

/-- The same graph with all of its classes seen in sources. -/
def seenInSources (g : ClassGraph) : ClassGraph :=
  { g with classes := g.classes.map (·.map fun _ c => { c with origin := .source }) }

/-- Read a graph from a file. Whatever it says, its classes count as seen in sources. -/
def load (d : File.Disk) (path : String) : Except Failure ClassGraph :=
  match d.readFile path with
  | .error fault => .error (.wrapped "failed to read graph file" (.plain fault.message))
  | .ok bytes =>
    match read bytes with
    | .error message =>
      .error (.wrapped ("failed to parse graph file " ++ path) (.plain message))
    | .ok g => .ok (seenInSources g)

end ClassAtlas.Graph

/-! The union of two graphs -/
namespace ClassAtlas.ClassGraph

/-- Fields with a name that the class does not have yet, one after the other. -/
def addMissingFields (fields : Listing Graph.Field) (more : List Graph.Field) : Listing Graph.Field :=
  more.foldl (fun fields f =>
    if f.name.isEmpty || fields.items.any (·.name == f.name) then fields else fields.push f) fields

/-- A class seen on both sides. -/
def mergeClass (compiled source : Graph.Class) : Graph.Class :=
  { compiled with
    origin := .both
    tableName := compiled.tableName.or source.tableName
    annotations := compiled.annotations.appendUnique source.annotations.items
    stereotypes := compiled.stereotypes.appendUnique source.stereotypes.items
    fields := addMissingFields compiled.fields source.fields.items }

/-- Bring in the classes of the compiled side. -/
def addCompiledClasses (out compiled : ClassGraph) : ClassGraph :=
  compiled.classMap.values.foldl addClass out

/-- Bring in one entry of the source side, which is looked up by its key. -/
def addSourceClass (out : ClassGraph) (entry : String × Graph.Class) : ClassGraph :=
  match out.class? entry.1 with
  | none => out.addClass { entry.2 with origin := .source }
  | some compiled =>
    { out with classes := some (out.classMap.insert entry.1 (mergeClass compiled entry.2)) }

/-- Bring in generators, uses, endpoints and dependencies of one side. -/
def addDeclarations (out side : ClassGraph) : ClassGraph :=
  { out with
    generators := some (side.generatorMap.entries.foldl (fun m e => m.insert e.1 e.2)
      out.generatorMap)
    generatorUses := out.generatorUses.append side.generatorUses.items
    endpoints := out.endpoints.append side.endpoints.items
    dependencies := out.dependencies.append side.dependencies.items }

/-- Join the two sides, either of which may be missing. Calls come from the compiled side only. -/
def merge (source compiled : Option ClassGraph) : ClassGraph :=
  let sourceSide := source.getD .empty
  let compiledSide := compiled.getD .empty
  let out := addCompiledClasses .empty compiledSide
  let out := sourceSide.classMap.entries.foldl addSourceClass out
  let out := addDeclarations (addDeclarations out compiledSide) sourceSide
  { out with calls := out.calls.append compiledSide.calls.items }

end ClassAtlas.ClassGraph
