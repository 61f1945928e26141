import ClassAtlas.Diagram.Structure
import ClassAtlas.Export.Files
import ClassAtlas.Graph.Adjacency

/-!
The sequence diagram of an endpoint: the calls that are reached from its class, depth first. A call
back to a class on the way closes a loop and is not followed. With the other diagrams of a graph it
becomes a file of a directory.
-/
namespace ClassAtlas.Diagram

/-- One call of a traversal, and whether it leads back to the way here. -/
structure Message where
  caller : String
  callee : String
  closesLoop : Bool
  deriving DecidableEq, Repr

/-- A traversal shows calls and keeps note of the classes on the way to where it stands, each once. -/
abbrev Traversal := StateM (List String) (List Message)

/-- Follow a call, unless it leads back to the way here. -/
def follow (visit : String → Traversal) (class_ callee : String) : Traversal := do
  if (← get).contains callee then
    return [⟨class_, callee, true⟩]
  else
    return ⟨class_, callee, false⟩ :: (← visit callee)

/-- The calls reached from a class within a depth. The class is on the way while its own calls are
followed, and no longer. -/
def visit (calls : Adjacency) : Nat → String → Traversal
  | 0, _ => return []
  | depth + 1, class_ => do
    modify (·.insert class_)
    let shown ← ((calls.targets? class_).getD []).mapM (follow (visit calls depth) class_)
    modify (·.erase class_)
    return shown.flatten

def defaultDepth : Nat := 8

/-- A depth that is not positive means the default. -/
def effectiveDepth (depth : Int) : Nat := if depth ≤ 0 then defaultDepth else depth.toNat

/-- The component of a class, as far as it is known. -/
def componentLabel (g : ClassGraph) (class_ : String) : String :=
  match (g.class? class_).bind (·.component) with
  | some component => toString component
  | none => "?"

def callLine (caller callee : String) : String :=
  shownName caller ++ " -> " ++ shownName callee ++ " : call"

/-- The line that opens a loop, with the label of the component it runs in. -/
def loopLine (component : String) : String := "loop Cyclic dependency (SCC " ++ component ++ ")"

def messageLines (g : ClassGraph) (m : Message) : List String :=
  let call := callLine m.caller m.callee
  if m.closesLoop then [loopLine (componentLabel g m.callee), call, "end"] else [call]

/-- The calls that the diagram of an endpoint shows. -/
def endpointMessages (e : Graph.Endpoint) (calls : Adjacency) (depth : Int) : List Message :=
  ((visit calls (effectiveDepth depth) e.controllerClass).run []).1

def sequenceLines (e : Graph.Endpoint) (calls : Adjacency) (g : ClassGraph) (depth : Int) :
    List String :=
  let verb := if e.httpMethod.isEmpty then "ANY" else e.httpMethod
  ["@startuml", "actor Client",
      "Client -> " ++ shownName e.controllerClass ++ " : " ++ verb ++ " " ++ e.path] ++
    (endpointMessages e calls depth).flatMap (messageLines g) ++ ["@enduml"]

def sequenceDiagram (e : Graph.Endpoint) (calls : Adjacency) (g : ClassGraph) (depth : Int) : String :=
  textOf (sequenceLines e calls g depth)

/-- A number of at least two places. -/
def twoPlaces (n : Int) : String :=
  if n < 0 then toString n else Text.zeroPadded 2 n.toNat

def sequenceFileName (number : Int) (e : Graph.Endpoint) : String :=
  "seq_" ++ twoPlaces number ++ "_" ++
    plainName (e.controllerClass ++ "_" ++ e.controllerMethod) ++ ".puml"

/-- The endpoints that have a diagram; a negative limit is none. -/
def sequenceEndpoints (g : ClassGraph) (limit : Int) : List Graph.Endpoint :=
  if limit < 0 then g.httpEndpoints else g.httpEndpoints.take limit.toNat

/-- The sequence diagrams of a graph with their file names, numbered from one. -/
def sequenceDiagrams (g : ClassGraph) (depth limit : Int) : List (String × String) :=
  let calls := g.callAdjacency
  (sequenceEndpoints g limit).zipIdx.map fun (e, i) =>
    (sequenceFileName (i + 1) e, sequenceDiagram e calls g depth)

/-! All diagrams as files -/

structure Options where
  maxCallDepth : Int
  maxSequences : Int
  deriving DecidableEq, Repr

def defaultMaxSequences : Int := 25

/-- The diagrams with their file names. -/
def files (g : ClassGraph) (options : Options) : List (String × String) :=
  let limit := if options.maxSequences ≤ 0 then defaultMaxSequences else options.maxSequences
  [("class-diagram.puml", classDiagram g), ("erd.puml", entityDiagram g),
      ("erd.mmd", Mermaid.entityDiagram g)] ++
    sequenceDiagrams g options.maxCallDepth limit

/-- Write all diagrams, and give back their paths. -/
def write (dir : String) (g : ClassGraph) (options : Options) : Act σ (List String) := do
  Export.prepareDir "diagram" dir
  Export.writeOutputs "write" dir (files g options)

end ClassAtlas.Diagram
