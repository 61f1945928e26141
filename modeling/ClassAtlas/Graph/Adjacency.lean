import ClassAtlas.Graph.Basic
import Std.Data.HashMap
import Std.Data.HashSet

/-!
Directed graphs on names, built edge by edge. Nodes and the targets of a node are listed in the order
in which they first occurred, and an edge that is added twice counts once. A node has a number, which
is its place among the nodes. By numbers are kept the targets of each node, the set of all edges, and
whether a node is a source; every insertion has to keep these in step.
-/
namespace ClassAtlas

structure Adjacency where
  nodes : Array String
  /-- The number of each node. -/
  numbers : Std.HashMap String Nat
  /-- The numbers of the targets of each node. -/
  outgoing : Array (Array Nat)
  /-- The edges, each as the numbers of its source and its target. -/
  linked : Std.HashSet (Nat × Nat)
  /-- Whether each node was added as the source of an edge. -/
  isSource : Array Bool
  /-- How many nodes are sources. -/
  sourceCount : Nat

namespace Adjacency

def empty : Adjacency := ⟨#[], ∅, #[], ∅, #[], 0⟩

instance : Inhabited Adjacency := ⟨empty⟩

def hasNode (a : Adjacency) (node : String) : Bool := a.numbers.contains node

/-- The number of a node, which is a new one if the node is not there yet. -/
def addNode (a : Adjacency) (node : String) : Nat × Adjacency :=
  match a.numbers[node]? with
  | some number => (number, a)
  | none => (a.nodes.size,
      { a with
        nodes := a.nodes.push node
        numbers := a.numbers.insert node a.nodes.size
        outgoing := a.outgoing.push #[]
        isSource := a.isSource.push false })

/-- Mark a node as a source, and count it if it was none before. -/
def markSource (a : Adjacency) (number : Nat) : Adjacency :=
  if a.isSource.getD number false then a
  else { a with
    isSource := a.isSource.setIfInBounds number true
    sourceCount := a.sourceCount + 1 }

/-- Link two nodes, unless they are linked already, and tell whether it is a new edge. -/
def link (a : Adjacency) (source target : Nat) : Bool × Adjacency :=
  if a.linked.contains (source, target) then (false, a)
  else (true,
    { a with
      linked := a.linked.insert (source, target)
      outgoing := a.outgoing.modify source (·.push target) })

/-- Add an edge, and tell whether it is a new one. -/
def insertEdge (a : Adjacency) (source target : String) : Bool × Adjacency :=
  let start := a.addNode source
  let goal := (start.2.markSource start.1).addNode target
  goal.2.link start.1 goal.1

def addEdge (a : Adjacency) (source target : String) : Adjacency := (a.insertEdge source target).2

/-- Add edges one after the other, and tell of each whether it is a new one. -/
def insertEdges (a : Adjacency) : List (String × String) → List Bool × Adjacency
  | [] => ([], a)
  | e :: more =>
    let first := a.insertEdge e.1 e.2
    let rest := insertEdges first.2 more
    (first.1 :: rest.1, rest.2)

def ofEdges (edges : List (String × String)) : Adjacency :=
  edges.foldl (fun a e => a.addEdge e.1 e.2) empty

/-- The targets of a node in first-occurrence order; `none` if there is no such node. -/
def targets? (a : Adjacency) (node : String) : Option (List String) :=
  a.numbers[node]?.map fun number =>
    (a.outgoing.getD number #[]).toList.map fun target => a.nodes.getD target ""

/-- The nodes that an edge leaves. -/
def sources (a : Adjacency) : List String :=
  (a.nodes.toList.zipIdx.filter fun node => a.isSource.getD node.2 false).map (·.1)

def nodeCount (a : Adjacency) : Nat := a.nodes.size

def edgeCount (a : Adjacency) : Nat := a.linked.size

/-- All edges, source by source. -/
def edges (a : Adjacency) : List (String × String) :=
  a.sources.flatMap fun source => ((a.targets? source).getD []).map fun target => (source, target)

end Adjacency

namespace ClassGraph

/-- The dependencies that have both ends. -/
def dependencyAdjacency (g : ClassGraph) : Adjacency :=
  Adjacency.ofEdges ((g.dependencies.items.map fun d => (d.source, d.target)).filter fun e =>
    !e.1.isEmpty && !e.2.isEmpty)

/-- The calls between classes that have both ends. -/
def callAdjacency (g : ClassGraph) : Adjacency :=
  Adjacency.ofEdges ((g.calls.items.map fun c => (c.callerClass, c.calleeClass)).filter fun e =>
    !e.1.isEmpty && !e.2.isEmpty)

end ClassGraph
end ClassAtlas
