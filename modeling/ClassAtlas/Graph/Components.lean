import ClassAtlas.Graph.Adjacency
import Std.Data.TreeMap
import Std.Data.TreeSet

/-!
Strongly connected components, found by one depth-first search. Each node gets a number when it is
discovered and knows the least number that it can reach back to; a node that reaches back to none
before itself closes a component. Components are numbered from one in the order in which they close,
so a component comes after those that it leads to. One with two members or more is cyclic.

The search keeps its path as a list of frames, so the depth of a graph costs no stack.
-/
namespace ClassAtlas

structure Components where
  ids : Std.TreeMap String Nat
  cyclic : List Nat

namespace Components

def empty : Components := ⟨∅, []⟩

def componentOf? (c : Components) (node : String) : Option Nat := c.ids[node]?

def isCyclic (c : Components) (node : String) : Bool :=
  match c.componentOf? node with
  | some id => c.cyclic.contains id
  | none => false

/-- The number of different components. -/
def count (c : Components) : Nat := (Std.TreeSet.ofList c.ids.values).size

/-- A node on the path of the search, with the targets still to be looked at. -/
structure Frame where
  node : String
  pending : List String

structure Search where
  /-- The number of each node that was discovered. -/
  index : Std.TreeMap String Nat
  /-- The least number that a node is known to reach back to. -/
  low : Std.TreeMap String Nat
  /-- Discovered nodes whose component is not closed, the latest first. -/
  stack : List String
  /-- The components closed so far. -/
  found : Components
  /-- How many components are closed. -/
  closed : Nat

namespace Search

def start : Search := ⟨∅, ∅, [], .empty, 0⟩

def isDiscovered (s : Search) (node : String) : Bool := s.index.contains node

/-- Discovered, and in no component yet. -/
def isOpen (s : Search) (node : String) : Bool :=
  s.isDiscovered node && !s.found.ids.contains node

def indexOf (s : Search) (node : String) : Nat := s.index.getD node 0

def lowOf (s : Search) (node : String) : Nat := s.low.getD node 0

def discover (s : Search) (node : String) : Search :=
  { s with
    index := s.index.insert node s.index.size
    low := s.low.insert node s.index.size
    stack := node :: s.stack }

/-- Let a node reach back to a number, if that is less than it knows. -/
def lower (s : Search) (node : String) (bound : Nat) : Search :=
  if bound < s.lowOf node then { s with low := s.low.insert node bound } else s

/-- The open nodes from a node on form a component. -/
def close (s : Search) (node : String) : Search :=
  let members := s.stack.takeWhile (· != node) ++ [node]
  let id := s.closed + 1
  { s with
    stack := (s.stack.dropWhile (· != node)).drop 1
    found :=
      { ids := members.foldl (fun ids m => ids.insert m id) s.found.ids
        cyclic := if members.length > 1 then s.found.cyclic ++ [id] else s.found.cyclic }
    closed := id }

/-- Close a component if the node reaches back to no earlier one. -/
def finish (s : Search) (node : String) : Search :=
  if s.lowOf node = s.indexOf node then s.close node else s

end Search

def frameOf (a : Adjacency) (node : String) : Frame := ⟨node, (a.targets? node).getD []⟩

/-- One step: look at the next target of the last node of the path, or leave that node. -/
def step (a : Adjacency) : List Frame → Search → List Frame × Search
  | [], s => ([], s)
  | ⟨node, target :: pending⟩ :: path, s =>
    if !s.isDiscovered target then
      (frameOf a target :: ⟨node, pending⟩ :: path, s.discover target)
    else if s.isOpen target then (⟨node, pending⟩ :: path, s.lower node (s.indexOf target))
    else (⟨node, pending⟩ :: path, s)
  | ⟨node, []⟩ :: [], s => ([], s.finish node)
  | ⟨node, []⟩ :: parent :: path, s =>
    (parent :: path, (s.lower parent.node (s.lowOf node)).finish node)

/-- Step until the path is empty. Each step looks at an edge or leaves a node, which bounds their
number. -/
def run (a : Adjacency) : Nat → List Frame → Search → Search
  | 0, _, s => s
  | _ + 1, [], s => s
  | fuel + 1, frame :: path, s =>
    let (path, s) := step a (frame :: path) s
    run a fuel path s

/-- Search from a node, unless it was reached before. -/
def searchFrom (a : Adjacency) (fuel : Nat) (s : Search) (root : String) : Search :=
  if s.isDiscovered root then s else run a fuel [frameOf a root] (s.discover root)

/-- Give a node without a component one of its own, after the last one so far. -/
def placeAlone (placed : Std.TreeMap String Nat × Nat) (node : String) :
    Std.TreeMap String Nat × Nat :=
  if placed.1.contains node then placed
  else (placed.1.insert node (placed.2 + 1), placed.2 + 1)

/-- The components of a graph. -/
def compute (a : Adjacency) : Components :=
  let fuel := a.nodeCount + a.edgeCount + 1
  let s := a.sources.foldl (searchFrom a fuel) .start
  { s.found with ids := (a.nodes.foldl placeAlone (s.found.ids, s.closed)).1 }

end Components

namespace ClassGraph

/-- Write the component of every class onto it, found by its key. -/
def annotate (g : ClassGraph) (c : Components) : ClassGraph :=
  { g with classes := g.classes.map (·.map fun key cls =>
    { cls with
      component := (c.componentOf? key).map Int.ofNat
      inCycle := c.isCyclic key }) }

/-- The components of the dependencies, written onto the classes. -/
def withComponents (g : ClassGraph) : ClassGraph :=
  g.annotate (.compute g.dependencyAdjacency)

end ClassGraph
end ClassAtlas
