import ClassAtlas.ClassFile.Decode
import ClassAtlas.Classpath.Descriptor
import ClassAtlas.Graph.Adjacency
import ClassAtlas.Scan.Vocabulary

/-!
The calls between the classes that take part, method by method and class by class. The calls of a
class count only if all of it can be read.
-/
namespace ClassAtlas.Scan

open ClassFile (Event Member)
open Classpath (ClassUnit Descriptor)

structure CallGraph where
  calls : List Graph.Call
  /-- One edge for each pair of classes with a call from the first to the second. -/
  classes : Adjacency

def CallGraph.empty : CallGraph := ⟨[], .empty⟩

def CallGraph.ofCalls (calls : List Graph.Call) : CallGraph :=
  ⟨calls, .ofEdges (calls.map fun c => (c.callerClass, c.calleeClass))⟩

/-- The calls of a graph and one dependency for each pair of classes, added to another graph. -/
def CallGraph.addTo (c : CallGraph) (g : ClassGraph) : ClassGraph :=
  let g := c.calls.foldl ClassGraph.addCall g
  c.classes.edges.foldl (fun g e => g.addDependency ⟨e.1, e.2, .call, "call"⟩) g

/-- The calls among the events of a class, with the class and method that each stands in. -/
def callsOf (f : Filter) (caller : String) (method descriptor : String) : List Event → List Graph.Call
  | [] => []
  | .header h :: more => callsOf f h.name method descriptor more
  | .method m :: more => callsOf f caller m.name m.descriptor more
  | .call c :: more =>
    let rest := callsOf f caller method descriptor more
    if f.acceptsCall c.owner then
      ⟨caller, method, descriptor, c.owner, c.name, c.descriptor⟩ :: rest
    else rest
  | _ :: more => callsOf f caller method descriptor more

/-- The calls of a class file. -/
def unitCalls (f : Filter) (u : ClassUnit) : Except ClassFile.Fault (List Graph.Call) :=
  let trace := ClassFile.decode ⟨fun h => f.acceptsCall h.name, fun _ => true⟩ u.bytes
  trace.outcome.map fun _ => callsOf f "" "" "" trace.events

/-- What one class file does to the calls found so far, and what is reported about it. -/
def addUnitCalls (f : Filter) (c : CallGraph) (u : ClassUnit) : CallGraph × List Log.Record :=
  match unitCalls f u with
  | .error fault =>
    (c, [Log.warn "Skipping class in call graph"
      [("entry", .text u.name), ("location", .text u.location), ("error", .failure fault.message)]])
  | .ok calls =>
    (⟨c.calls ++ calls, calls.foldl (fun a e => a.addEdge e.callerClass e.calleeClass) c.classes⟩,
      [])

/-- The calls of some class files, in order. -/
def callGraphOf (f : Filter) (units : List ClassUnit) : CallGraph :=
  units.foldl (fun c u => (addUnitCalls f c u).1) .empty

/-- Scan a classpath for calls. -/
def scanCalls (desc : Descriptor) (packages : List String) : Act σ CallGraph := do
  let f := Filter.ofPackages packages
  let c ← Classpath.walk desc (fun c u => do
    let (c, notes) := addUnitCalls f c u
    Act.logAll notes
    return c) CallGraph.empty
  Act.log (Log.info "Call graph scan complete"
    [("classEdges", Log.count c.classes.edgeCount), ("methodEdges", Log.count c.calls.length)])
  return c

end ClassAtlas.Scan
