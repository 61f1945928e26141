import ClassAtlas.Proofs.ClassFile.Walk
import ClassAtlas.Proofs.Diagram.Loops

/-!
What one class file contributes to a scan. Structure and calls are read by two readers of the same
class file: one passes over the bodies of methods, the other looks into them but may stop after the
header. Where the first fails the second has nothing to report, so a class file that cannot be read
counts for nothing in both scans. A second class of a name counts for nothing in the structure; its
calls still count.
-/
namespace ClassAtlas

namespace ClassFile

/-- Whoever looks into bodies gets past the methods only where one who passes over them does, and to
the same place. -/
theorem outcome_traceMethods {interest : Interest} {pool : ConstantPool} {count index : Nat}
    {c c' : Cursor} (h : (traceMethods interest pool count index c).outcome = .ok c') :
    (traceMethods .structure pool count index c).outcome = .ok c' := by
  induction count generalizing index c with
  | zero => exact h
  | succ count ih =>
    obtain ⟨⟨⟨method, code⟩, d⟩, hmember, hrest⟩ := Trace.bind_outcome_eq_ok.1 h
    obtain ⟨_, hemit, hrest⟩ := Trace.bind_outcome_eq_ok.1 hrest
    obtain ⟨_, -, hrest⟩ := Trace.bind_outcome_eq_ok.1 hrest
    refine Trace.bind_outcome_eq_ok.2 ⟨_, hmember, Trace.bind_outcome_eq_ok.2 ⟨_, hemit, ?_⟩⟩
    have hbody : (traceBody .structure pool method code).outcome = .ok () := by
      cases code <;> rfl
    exact Trace.bind_outcome_eq_ok.2 ⟨_, hbody, ih hrest⟩

theorem outcome_traceMembers {interest : Interest} {pool : ConstantPool} {c c' : Cursor}
    (h : (traceMembers interest pool c).outcome = .ok c') :
    (traceMembers .structure pool c).outcome = .ok c' := by
  obtain ⟨⟨fieldCount, c₁⟩, hfieldCount, hrest⟩ := Trace.bind_outcome_eq_ok.1 h
  obtain ⟨c₂, hfields, hrest⟩ := Trace.bind_outcome_eq_ok.1 hrest
  obtain ⟨⟨methodCount, c₃⟩, hmethodCount, hrest⟩ := Trace.bind_outcome_eq_ok.1 hrest
  obtain ⟨c₄, hmethods, hrest⟩ := Trace.bind_outcome_eq_ok.1 hrest
  exact Trace.bind_outcome_eq_ok.2 ⟨_, hfieldCount, Trace.bind_outcome_eq_ok.2 ⟨_, hfields,
    Trace.bind_outcome_eq_ok.2 ⟨_, hmethodCount,
      Trace.bind_outcome_eq_ok.2 ⟨_, outcome_traceMethods hmethods, hrest⟩⟩⟩⟩

/-- A class file whose header is read: the header comes first, then what the reader wants. -/
theorem traceClass_of_header {interest : Interest} {pool : ConstantPool} {header : Header}
    {c d : Cursor} (h : readHeader c = .ok ((pool, header), d)) :
    traceClass interest c = (Trace.emit (.header header) >>= fun _ =>
      if interest.members header then traceMembers interest pool d else pure d) := by
  unfold traceClass
  rw [h]
  rfl

/-- Whoever gets through a class file whose structure cannot be read has stopped after the header. -/
theorem events_of_structure_error {interest : Interest} {bytes : List UInt8} {fault : Fault}
    (hstructure : (decode .structure bytes).outcome = .error fault)
    (h : (decode interest bytes).outcome = .ok ()) :
    ∃ header, (decode interest bytes).events = [.header header] := by
  rw [decode_eq] at hstructure h ⊢
  obtain ⟨c, hc, -⟩ := Trace.bind_outcome_eq_ok.1 h
  obtain ⟨⟨⟨pool, header⟩, d⟩, hheader, -⟩ := Trace.bind_outcome_eq_ok.1 hc
  change readHeader (Cursor.start bytes) = .ok ((pool, header), d) at hheader
  rw [traceClass_of_header hheader] at hc hstructure ⊢
  obtain ⟨_, -, hrest⟩ := Trace.bind_outcome_eq_ok.1 hc
  by_cases hmembers : interest.members header = true
  · rw [if_pos hmembers] at hrest
    have hall : (Trace.emit (.header header) >>= fun _ =>
        traceMembers .structure pool d).outcome = .ok c :=
      Trace.bind_outcome_eq_ok.2 ⟨(), rfl, outcome_traceMembers hrest⟩
    have hdone := hstructure.symm.trans (Trace.bind_outcome_eq_ok.2 ⟨c, hall, rfl⟩)
    cases hdone
  · rw [if_neg hmembers]
    exact ⟨header, rfl⟩

end ClassFile

/-- A node that no edge leaves is on no cycle. -/
theorem Components.isCyclic_of_sink (edges : List (String × String)) {v : String}
    (h : ∀ w, (v, w) ∉ edges) : (compute (.ofEdges edges)).isCyclic v = false := by
  obtain ⟨⟨n, hc⟩, -⟩ := compute_ofEdges edges
  have halone : ∀ u id, (compute (.ofEdges edges)).componentOf? v = some id →
      (compute (.ofEdges edges)).componentOf? u = some id → u = v := by
    intro u id hv hu
    have hreaches := ((hc.same_iff v u id id hv hu).1 rfl).1
    refine hreaches.stays (p := (· = v)) ?_ rfl
    rintro _ w rfl he
    exact absurd he (h w)
  unfold isCyclic
  cases hv : (compute (.ofEdges edges)).componentOf? v with
  | none => rfl
  | some id =>
    rw [Bool.eq_false_iff]
    intro hcyclic
    obtain ⟨u, w, hne, hu, hw⟩ := (hc.cyclic_iff id).1 (List.contains_iff_mem.1 hcyclic)
    exact hne ((halone u id hv hu).trans (halone w id hv hw).symm)

namespace Analysis

theorem dependencies_assemble (source compiled : ClassGraph) (calls : Scan.CallGraph) :
    (assemble source compiled calls).dependencies.items = compiled.dependencies.items ++
      (calls.classes.edges.map fun e => ⟨e.1, e.2, .call, "call"⟩) ++
      source.dependencies.items := by
  change (ClassGraph.merge (some source) (some (calls.addTo compiled))).dependencies.items = _
  rw [ClassGraph.dependencies_merge, calls.dependencies_addTo]

/-- The cycles of an assembled graph depend on its calls only by the classes that call each other. -/
theorem components_assemble_congr (source compiled : ClassGraph) {calls calls' : Scan.CallGraph}
    (h : calls.classes = calls'.classes) :
    Components.compute (assemble source compiled calls).dependencyAdjacency =
      Components.compute (assemble source compiled calls').dependencyAdjacency := by
  rw [ClassGraph.dependencyAdjacency, ClassGraph.dependencyAdjacency, dependencies_assemble,
    dependencies_assemble, h]

end Analysis

namespace Scan

open ClassFile (Event Fault)
open Classpath (ClassUnit Descriptor steps unitsOf)

/-- Whether a class file can be read, apart from the bodies of its methods. -/
def isReadable (u : ClassUnit) : Bool := (ClassFile.parse u.bytes).isOk

/-- The decisions of a reader of calls. -/
def callInterest (f : Filter) : ClassFile.Interest := ⟨fun h => f.acceptsCall h.name, fun _ => true⟩

/-- Whether a reader of calls gets to the end of a class file. -/
def bodiesReadable (f : Filter) (u : ClassUnit) : Bool :=
  (ClassFile.decode (callInterest f) u.bytes).outcome.isOk

/-- The calls that a reader of calls sees in a class file, up to its end or the first fault. -/
def callsSeen (f : Filter) (u : ClassUnit) : List Graph.Call :=
  callsOf f "" "" "" (ClassFile.decode (callInterest f) u.bytes).events

/-- The calls that a class file contributes: those seen in it, if it is read to its end. -/
def callsFrom (f : Filter) (u : ClassUnit) : List Graph.Call :=
  if bodiesReadable f u then callsSeen f u else []

theorem addUnitCalls_calls (f : Filter) (c : CallGraph) (u : ClassUnit) :
    (addUnitCalls f c u).1.calls = c.calls ++ callsFrom f u := by
  have hunit : unitCalls f u = (ClassFile.decode (callInterest f) u.bytes).outcome.map fun _ =>
      callsSeen f u := rfl
  unfold addUnitCalls callsFrom bodiesReadable
  rw [hunit]
  cases (ClassFile.decode (callInterest f) u.bytes).outcome with
  | error fault => exact (List.append_nil _).symm
  | ok => rfl

/-- A class file that cannot be read has no calls to contribute: either looking into its bodies
fails as well, or nobody gets to see them. -/
theorem callsFrom_of_unreadable {f : Filter} {u : ClassUnit} (h : isReadable u = false) :
    callsFrom f u = [] := by
  unfold callsFrom bodiesReadable
  cases hcalls : (ClassFile.decode (callInterest f) u.bytes).outcome with
  | error fault => rfl
  | ok =>
    cases hstructure : (ClassFile.decode .structure u.bytes).outcome with
    | ok =>
      rw [isReadable, ClassFile.parse, hstructure] at h
      cases h
    | error fault =>
      obtain ⟨header, hevents⟩ := ClassFile.events_of_structure_error hstructure hcalls
      change callsSeen f u = []
      rw [callsSeen, hevents]
      rfl

theorem exists_fault_of_bodiesReadable {f : Filter} {u : ClassUnit}
    (h : bodiesReadable f u = false) :
    ∃ fault, (ClassFile.decode (callInterest f) u.bytes).outcome = .error fault := by
  unfold bodiesReadable at h
  cases hcalls : (ClassFile.decode (callInterest f) u.bytes).outcome with
  | error fault => exact ⟨fault, rfl⟩
  | ok =>
    rw [hcalls] at h
    cases h

/-- The calls of a scan are what its class files contribute, in order. -/
theorem calls_callGraphOf (f : Filter) (units : List ClassUnit) :
    (callGraphOf f units).calls = units.flatMap (callsFrom f) := by
  have hfold : ∀ c : CallGraph, (units.foldl (fun c u => (addUnitCalls f c u).1) c).calls =
      c.calls ++ units.flatMap (callsFrom f) := by
    induction units with
    | nil => simp
    | cons u units ih =>
      intro c
      rw [List.foldl_cons, ih, addUnitCalls_calls, List.flatMap_cons, List.append_assoc]
  exact hfold .empty

theorem callGraphOf_eq_ofCalls (f : Filter) (units : List ClassUnit) :
    callGraphOf f units = .ofCalls (units.flatMap (callsFrom f)) := by
  rw [callGraphOf_eq, calls_callGraphOf]

/-- Class files that contribute no calls may be left out. -/
theorem flatMap_callsFrom_filter {f : Filter} {p : ClassUnit → Bool}
    (h : ∀ u, p u = false → callsFrom f u = []) (units : List ClassUnit) :
    (units.filter p).flatMap (callsFrom f) = units.flatMap (callsFrom f) := by
  induction units with
  | nil => rfl
  | cons u units ih =>
    cases hu : p u with
    | true => rw [List.filter_cons_of_pos hu, List.flatMap_cons, List.flatMap_cons, ih]
    | false =>
      rw [List.filter_cons_of_neg (by simp [hu]), List.flatMap_cons, h u hu, ih, List.nil_append]

theorem callGraphOf_filter_isReadable (f : Filter) (units : List ClassUnit) :
    callGraphOf f (units.filter isReadable) = callGraphOf f units := by
  rw [callGraphOf_eq_ofCalls, callGraphOf_eq_ofCalls,
    flatMap_callsFrom_filter fun _ => callsFrom_of_unreadable]

theorem callGraphOf_eq_callsSeen (f : Filter) (units : List ClassUnit) :
    callGraphOf f units = .ofCalls ((units.filter (bodiesReadable f)).flatMap (callsSeen f)) := by
  have hseen : (units.filter (bodiesReadable f)).flatMap (callsSeen f) =
      (units.filter (bodiesReadable f)).flatMap (callsFrom f) := by
    refine List.flatMap_congr fun u hu => ?_
    rw [callsFrom, if_pos (List.mem_filter.1 hu).2]
  have hrest : ∀ u, bodiesReadable f u = false → callsFrom f u = [] := by
    intro u hu
    rw [callsFrom, hu]
    rfl
  rw [callGraphOf_eq_ofCalls, hseen, flatMap_callsFrom_filter hrest]

theorem structureOf_filter_isReadable (f : Filter) (units : List ClassUnit) :
    structureOf f (units.filter isReadable) = structureOf f units := by
  rw [structureOf_eq, structureOf_eq, List.foldl_filter]
  congr 1
  funext g u
  cases h : ClassFile.parse u.bytes with
  | error fault => simp [isReadable, h, Except.isOk, Except.toBool, addUnit_of_error h]
  | ok c => simp [isReadable, h, Except.isOk, Except.toBool]

/-- Class files that cannot be read contribute nothing. Leaving them out changes neither structure
nor calls, so that a scan that is not stopped gives the graphs of the readable ones. A class file in
which looking into the bodies fails anywhere contributes no call, also if its structure can be read
and calls were seen before the fault; the others contribute the calls seen. -/
theorem unreadable_contributes_nothing (f : Filter) :
    (∀ units, structureOf f (units.filter isReadable) = structureOf f units ∧
      callGraphOf f (units.filter isReadable) = callGraphOf f units) ∧
    (∀ before u after fault,
      (ClassFile.decode (callInterest f) u.bytes).outcome = .error fault →
      callGraphOf f (before ++ u :: after) = callGraphOf f (before ++ after)) ∧
    (∀ units, callGraphOf f units =
      .ofCalls ((units.filter (bodiesReadable f)).flatMap (callsSeen f))) ∧
    ∀ {σ : Type} (packages : List String) (desc : Descriptor) (s s' : Session σ),
      f = .ofPackages packages →
      (∀ g, scanStructure desc packages s = (.ok g, s') →
        g = structureOf f ((unitsOf (steps s.disk desc.entries)).filter isReadable)) ∧
      ∀ c, scanCalls desc packages s = (.ok c, s') →
        c = callGraphOf f ((unitsOf (steps s.disk desc.entries)).filter isReadable) := by
  refine ⟨fun units => ⟨structureOf_filter_isReadable f units,
    callGraphOf_filter_isReadable f units⟩, ?_, callGraphOf_eq_callsSeen f, ?_⟩
  · intro before u after fault h
    have hu : bodiesReadable f u = false := by
      rw [bodiesReadable, h]
      rfl
    simp [callGraphOf_eq_callsSeen, hu]
  · rintro σ packages desc s s' rfl
    refine ⟨fun g h => ?_, fun c h => ?_⟩
    · rw [structureOf_filter_isReadable]
      exact scanStructure_eq_ok h
    · rw [callGraphOf_filter_isReadable]
      exact scanCalls_eq_ok h

/-- A class whose method makes a call and goes on with a byte that is no instruction. -/
def brokenBody : List UInt8 :=
  ClassFile.encode { ClassFile.ClassSpec.ofName "app.C" with
    methods := [⟨1, "run", "()V", [], [⟨0xb6, "app.B", "run", "()V"⟩,
      ⟨0xcb, "app.B", "run", "()V"⟩]⟩] }

/-- A directory with a class, one that ends after six bytes, and one with a broken body. -/
def brokenClasses : Session Unit := .onDisk (.dir [("out", .dir [
    ("A.class", .file (Diagram.callingClass "app.A" "app.B") false),
    ("B.class", .file ((Diagram.callingClass "app.B" "app.A").take 6) false),
    ("C.class", .file brokenBody false)])])

theorem unreadable_contributes_nothing_brokenClasses :
    (callsSeen ⟨[]⟩ ⟨"C.class", "/out", brokenBody⟩).length = 1 ∧
    isReadable ⟨"C.class", "/out", brokenBody⟩ = true ∧
    callGraphOf ⟨[]⟩ [⟨"C.class", "/out", brokenBody⟩] = callGraphOf ⟨[]⟩ [] ∧
    ∃ g c s t, scanStructure ⟨"", "", ["/out"]⟩ [] brokenClasses = (.ok g, s) ∧
      scanCalls ⟨"", "", ["/out"]⟩ [] brokenClasses = (.ok c, t) ∧
      g = structureOf ⟨[]⟩ [⟨"A.class", "/out", Diagram.callingClass "app.A" "app.B"⟩,
        ⟨"C.class", "/out", brokenBody⟩] ∧
      c = callGraphOf ⟨[]⟩ [⟨"A.class", "/out", Diagram.callingClass "app.A" "app.B"⟩,
        ⟨"C.class", "/out", brokenBody⟩] := by
  obtain ⟨g, s, hg⟩ := Act.exists_of_isOk (scanStructure ⟨"", "", ["/out"]⟩ []) brokenClasses
    (by decide +kernel)
  obtain ⟨c, t, hc⟩ := Act.exists_of_isOk (scanCalls ⟨"", "", ["/out"]⟩ []) brokenClasses
    (by decide +kernel)
  have hnot : bodiesReadable ⟨[]⟩ ⟨"C.class", "/out", brokenBody⟩ = false := by decide +kernel
  obtain ⟨fault, hfault⟩ := exists_fault_of_bodiesReadable hnot
  have hunits : (unitsOf (steps brokenClasses.disk ["/out"])).filter isReadable =
      [⟨"A.class", "/out", Diagram.callingClass "app.A" "app.B"⟩,
        ⟨"C.class", "/out", brokenBody⟩] := by decide +kernel
  obtain ⟨-, hdrop, -, hscan⟩ := unreadable_contributes_nothing ⟨[]⟩
  refine ⟨by decide +kernel, by decide +kernel, hdrop [] _ [] fault hfault, g, c, s, t, hg, hc,
    ?_, ?_⟩
  · exact ((hscan [] ⟨"", "", ["/out"]⟩ brokenClasses s rfl).1 g hg).trans
      (congrArg (structureOf ⟨[]⟩) hunits)
  · exact ((hscan [] ⟨"", "", ["/out"]⟩ brokenClasses t rfl).2 c hc).trans
      (congrArg (callGraphOf ⟨[]⟩) hunits)

/-- A second class of a name leaves the structure as it was. -/
theorem structureOf_concat_of_shadowed {f : Filter} {units : List ClassUnit} {u : ClassUnit}
    {c : ClassFile.Class} (hu : ClassFile.parse u.bytes = .ok c)
    (hseen : (structureOf f units).classMap.contains c.header.name = true) :
    structureOf f (units ++ [u]) = structureOf f units := by
  rw [structureOf_concat, addUnit_of_ok hu, hseen]
  simp

theorem callGraphOf_concat (f : Filter) (units : List ClassUnit) (u : ClassUnit) :
    callGraphOf f (units ++ [u]) = .ofCalls ((callGraphOf f units).calls ++ callsFrom f u) := by
  rw [callGraphOf_eq_ofCalls, calls_callGraphOf]
  simp

theorem callGraphOf_concat_eq_iff (f : Filter) (units : List ClassUnit) (u : ClassUnit) :
    callGraphOf f (units ++ [u]) = callGraphOf f units ↔ callsFrom f u = [] := by
  constructor
  · intro h
    have hcalls := congrArg CallGraph.calls h
    rw [callGraphOf_concat] at hcalls
    exact List.append_right_eq_self.1 hcalls
  · intro h
    rw [callGraphOf_concat, h, List.append_nil]
    exact (callGraphOf_eq f units).symm

/-- The classes that call each other stay the same exactly if the new calls are between classes that
call each other already. -/
theorem classes_concat_eq_iff (f : Filter) (units : List ClassUnit) (u : ClassUnit) :
    (callGraphOf f (units ++ [u])).classes = (callGraphOf f units).classes ↔
      ∀ call ∈ callsFrom f u,
        (call.callerClass, call.calleeClass) ∈ (callGraphOf f units).classes.edges := by
  let pairs (calls : List Graph.Call) : List (String × String) :=
    calls.map fun c => (c.callerClass, c.calleeClass)
  have hafter : (callGraphOf f (units ++ [u])).classes =
      .ofEdges (pairs (callGraphOf f units).calls ++ pairs (callsFrom f u)) := by
    rw [callGraphOf_concat, CallGraph.ofCalls]
    simp [pairs]
  have hbefore : (callGraphOf f units).classes = .ofEdges (pairs (callGraphOf f units).calls) :=
    congrArg CallGraph.classes (callGraphOf_eq f units)
  rw [hafter, hbefore]
  constructor
  · intro h call hcall
    rw [← h, (Adjacency.represents_ofEdges _).mem_edges]
    exact List.mem_append_right _ (List.mem_map_of_mem hcall)
  · intro h
    refine Adjacency.ofEdges_append_of_subset ?_
    intro e he
    obtain ⟨call, hcall, rfl⟩ := List.mem_map.1 he
    exact ((Adjacency.represents_ofEdges _).mem_edges _ _).1 (h call hcall)

/-- A class file after one whose class has its name and takes part. It leaves the structure as it
was, but its calls are added to those of the first: the call graph stays the same exactly if it has
none, and the pairs of classes that call each other, and with them the cycles, if they are known. -/
theorem shadowed_contributes_calls (f : Filter) {units : List ClassUnit} {u earlier : ClassUnit}
    {c first : ClassFile.Class} (hu : ClassFile.parse u.bytes = .ok c) (hearlier : earlier ∈ units)
    (hfirst : ClassFile.parse earlier.bytes = .ok first) (hpart : takesPart f first = true)
    (hname : first.header.name = c.header.name) :
    structureOf f (units ++ [u]) = structureOf f units ∧
    callGraphOf f (units ++ [u]) = .ofCalls ((callGraphOf f units).calls ++ callsFrom f u) ∧
    (callGraphOf f (units ++ [u]) = callGraphOf f units ↔ callsFrom f u = []) ∧
    ((callGraphOf f (units ++ [u])).classes = (callGraphOf f units).classes ↔
      ∀ call ∈ callsFrom f u,
        (call.callerClass, call.calleeClass) ∈ (callGraphOf f units).classes.edges) ∧
    ((callGraphOf f (units ++ [u])).classes = (callGraphOf f units).classes → ∀ source,
      Components.compute (Analysis.assemble source (structureOf f (units ++ [u]))
          (callGraphOf f (units ++ [u]))).dependencyAdjacency =
        Components.compute (Analysis.assemble source (structureOf f units)
          (callGraphOf f units)).dependencyAdjacency) := by
  have hseen := (contains_structureOf f units c.header.name).2
    ⟨earlier, hearlier, first, hfirst, hpart, hname⟩
  have hstructure := structureOf_concat_of_shadowed hu hseen
  refine ⟨hstructure, callGraphOf_concat f units u, callGraphOf_concat_eq_iff f units u,
    classes_concat_eq_iff f units u, ?_⟩
  intro hclasses source
  rw [hstructure]
  exact Analysis.components_assemble_congr source _ hclasses

/-- A class that calls nothing, and one that calls it. -/
def currentClasses : List ClassUnit :=
  [⟨"app/A.class", "/new", ClassFile.encode (.ofName "app.A")⟩,
    ⟨"app/B.class", "/new", Diagram.callingClass "app.B" "app.A"⟩]

/-- The class that calls nothing as it was before, when it called the other one. -/
def formerClass : ClassUnit := ⟨"app/A.class", "/old", Diagram.callingClass "app.A" "app.B"⟩

theorem callsFrom_formerClass : callsFrom ⟨[]⟩ formerClass =
    [⟨"app.A", "run", "()V", "app.B", "run", "()V"⟩] := by decide +kernel

theorem calls_currentClasses : (callGraphOf ⟨[]⟩ currentClasses).calls =
    [⟨"app.B", "run", "()V", "app.A", "run", "()V"⟩] := by
  rw [calls_callGraphOf]
  decide +kernel

theorem exists_formerClass : ∃ c, ClassFile.parse formerClass.bytes = .ok c ∧
    c.header.name = "app.A" := by
  have hparse : (ClassFile.parse formerClass.bytes).toOption.any
      (·.header.name == "app.A") = true := by decide +kernel
  obtain ⟨c, hc, hname⟩ := exists_eq_ok_of_any hparse
  exact ⟨c, hc, by simpa using hname⟩

theorem shadowed_contributes_calls_formerClass :
    structureOf ⟨[]⟩ (currentClasses ++ [formerClass]) = structureOf ⟨[]⟩ currentClasses ∧
    callGraphOf ⟨[]⟩ (currentClasses ++ [formerClass]) =
      .ofCalls [⟨"app.B", "run", "()V", "app.A", "run", "()V"⟩,
        ⟨"app.A", "run", "()V", "app.B", "run", "()V"⟩] := by
  obtain ⟨c, hc, hname⟩ := exists_formerClass
  have hparse : (ClassFile.parse (ClassFile.encode (.ofName "app.A"))).toOption.any
      (fun c => takesPart ⟨[]⟩ c && c.header.name == "app.A") = true := by decide +kernel
  obtain ⟨first, hfirst, hcounts⟩ := exists_eq_ok_of_any hparse
  rw [Bool.and_eq_true, beq_iff_eq] at hcounts
  have hearlier : ⟨"app/A.class", "/new", ClassFile.encode (.ofName "app.A")⟩ ∈ currentClasses :=
    List.mem_cons_self
  obtain ⟨hstructure, hcalls, -⟩ := shadowed_contributes_calls ⟨[]⟩ hc hearlier hfirst hcounts.1
    (hcounts.2.trans hname.symm)
  rw [calls_currentClasses, callsFrom_formerClass] at hcalls
  exact ⟨hstructure, hcalls⟩

/-- Neither the structure nor the calls of the classes that count have a cycle. The class that does
not count closes one. -/
theorem formerClass_closes_cycle :
    structureOf ⟨[]⟩ (currentClasses ++ [formerClass]) = structureOf ⟨[]⟩ currentClasses ∧
    callGraphOf ⟨[]⟩ (currentClasses ++ [formerClass]) ≠ callGraphOf ⟨[]⟩ currentClasses ∧
    (Components.compute (Analysis.assemble .empty (structureOf ⟨[]⟩ currentClasses)
      (callGraphOf ⟨[]⟩ currentClasses)).dependencyAdjacency).isCyclic "app.A" = false ∧
    (Components.compute (Analysis.assemble .empty (structureOf ⟨[]⟩ (currentClasses ++ [formerClass]))
      (callGraphOf ⟨[]⟩ (currentClasses ++ [formerClass]))).dependencyAdjacency).isCyclic "app.A" =
        true := by
  obtain ⟨c, hc, hname⟩ := exists_formerClass
  have hseen : (structureOf ⟨[]⟩ currentClasses).classMap.contains c.header.name = true := by
    rw [hname]
    decide +kernel
  have hstructure := structureOf_concat_of_shadowed hc hseen
  have hnone : (structureOf ⟨[]⟩ currentClasses).dependencies.items = [] := by decide +kernel
  -- without dependencies of their own, the classes depend on each other by their calls alone
  have hedges : ∀ calls u w, (u, w) ∈ (Analysis.assemble .empty (structureOf ⟨[]⟩ currentClasses)
      (.ofCalls calls)).dependencyEdges ↔ u ≠ "" ∧ w ≠ "" ∧
        ∃ call ∈ calls, call.callerClass = u ∧ call.calleeClass = w := by
    intro calls u w
    have hclasses := (Adjacency.represents_ofEdges
      (calls.map fun c => (c.callerClass, c.calleeClass))).mem_edges u w
    rw [ClassGraph.dependencyEdges, Analysis.dependencies_assemble, hnone, CallGraph.ofCalls]
    simp [hclasses, ClassGraph.empty, and_comm, and_assoc]
  refine ⟨hstructure, ?_, ?_, ?_⟩
  · rw [Ne, callGraphOf_concat_eq_iff, callsFrom_formerClass]
    simp
  · rw [callGraphOf_eq, calls_currentClasses]
    refine Components.isCyclic_of_sink (ClassGraph.dependencyEdges _) ?_
    intro w hw
    simpa using (hedges _ _ _).1 hw
  · rw [hstructure, callGraphOf_concat, calls_currentClasses, callsFrom_formerClass]
    have hforth := (hedges ([⟨"app.B", "run", "()V", "app.A", "run", "()V"⟩] ++
      [⟨"app.A", "run", "()V", "app.B", "run", "()V"⟩]) "app.A" "app.B").2 (by simp)
    have hback := (hedges ([⟨"app.B", "run", "()V", "app.A", "run", "()V"⟩] ++
      [⟨"app.A", "run", "()V", "app.B", "run", "()V"⟩]) "app.B" "app.A").2 (by simp)
    obtain ⟨_, -, -, hcyclic⟩ := Components.component_of_cycle hforth (.single hback)
    exact (hcyclic (by decide)).1

end Scan
end ClassAtlas
