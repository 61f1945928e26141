import ClassAtlas.Proofs.Scan.Contribution

/-!
Calls are kept three times: as a list between methods, as a graph between classes, and as
dependencies of the graph they are added to. The three tell the same. The list decides which edges
the graph has, the graph can be built again from the list wherever that is added, and each edge is
one dependency. Ends without a name, which would be passed over on the way, do not occur: a reader
of calls looks at no class and reports no callee that the filter does not accept.
-/
namespace ClassAtlas

namespace ClassFile

/-- A walk that reports no class of its own. -/
def Headless (t : Trace α) : Prop := ∀ h, .header h ∉ t.events

namespace Headless

theorem pure (a : α) : Headless (pure a : Trace α) := fun _ => List.not_mem_nil

theorem ofExcept (x : Except Fault α) : Headless (.ofExcept x) := fun _ => List.not_mem_nil

theorem bind {t : Trace α} {f : α → Trace β} (ht : Headless t) (hf : ∀ a, Headless (f a)) :
    Headless (t >>= f) := by
  intro h hmem
  cases hout : t.outcome with
  | error fault =>
    rw [Trace.bind_error hout] at hmem
    exact ht h hmem
  | ok a =>
    rw [Trace.bind_ok hout] at hmem
    exact (List.mem_append.1 hmem).elim (ht h) (hf a h)

end Headless

theorem headless_fields (pool : ConstantPool) (count index : Nat) (c : Cursor) :
    Headless (traceFields pool count index c) := by
  induction count generalizing index c with
  | zero => exact .pure c
  | succ count ih =>
    refine .bind (.ofExcept _) fun _ => .bind ?_ fun _ => ih _ _
    intro h hmem
    cases List.mem_singleton.1 hmem

theorem headless_body (interest : Interest) (pool : ConstantPool) (m : Member)
    (code : Option (List UInt8)) : Headless (traceBody interest pool m code) := by
  unfold traceBody
  split
  · exact .pure ()
  · split
    · intro h hmem
      obtain ⟨call, -, hcall⟩ := List.mem_map.1 hmem
      cases hcall
    · exact .pure ()

theorem headless_methods (interest : Interest) (pool : ConstantPool) (count index : Nat) (c : Cursor) :
    Headless (traceMethods interest pool count index c) := by
  induction count generalizing index c with
  | zero => exact .pure c
  | succ count ih =>
    refine .bind (.ofExcept _) fun _ => .bind ?_ fun _ =>
      .bind (headless_body interest pool _ _) fun _ => ih _ _
    intro h hmem
    cases List.mem_singleton.1 hmem

theorem headless_members (interest : Interest) (pool : ConstantPool) (c : Cursor) :
    Headless (traceMembers interest pool c) := by
  refine .bind (.ofExcept _) fun _ => .bind (headless_fields pool _ _ _) fun _ =>
    .bind (.ofExcept _) fun _ => .bind (headless_methods interest pool _ _ _) fun _ =>
    .bind (.ofExcept _) fun _ => .bind ?_ fun _ => .pure _
  intro h hmem
  cases List.mem_singleton.1 hmem

/-- A class file reports one class at most, and more than that only if the reader wants it. -/
theorem events_decode (interest : Interest) (bytes : List UInt8) :
    (decode interest bytes).events = [] ∨ ∃ header more,
      (decode interest bytes).events = .header header :: more ∧ (∀ h, .header h ∉ more) ∧
        (interest.members header = true ∨ more = []) := by
  have hforget : (decode interest bytes).events =
      (traceClass interest (Cursor.start bytes)).events := by
    rw [decode_eq]
    cases hout : (traceClass interest (Cursor.start bytes)).outcome with
    | error fault => rw [Trace.bind_error hout]
    | ok c =>
      rw [Trace.bind_ok hout]
      exact List.append_nil _
  rw [hforget]
  cases hread : readHeader (Cursor.start bytes) with
  | error fault =>
    left
    unfold traceClass
    rw [hread]
    rfl
  | ok result =>
    obtain ⟨⟨pool, header⟩, d⟩ := result
    right
    rw [traceClass_of_header hread, Trace.bind_ok rfl]
    by_cases hmembers : interest.members header = true
    · rw [if_pos hmembers]
      exact ⟨header, _, rfl, headless_members interest pool d, .inl hmembers⟩
    · rw [if_neg hmembers]
      exact ⟨header, [], rfl, fun _ => List.not_mem_nil, .inr rfl⟩

end ClassFile

namespace Scan

open ClassFile (Event)
open Classpath (ClassUnit Descriptor steps unitsOf)

theorem Filter.ne_empty_of_acceptsCall {f : Filter} {name : String}
    (h : f.acceptsCall name = true) : name ≠ "" := by
  rintro rfl
  simp [acceptsCall, accepts] at h

/-- The calls among events that tell of no other class are calls of one class, to accepted ones. -/
theorem ends_callsOf {f : Filter} {caller method descriptor : String} {events : List Event}
    (h : ∀ header, .header header ∉ events) {call : Graph.Call}
    (hcall : call ∈ callsOf f caller method descriptor events) :
    call.callerClass = caller ∧ f.acceptsCall call.calleeClass = true := by
  induction events generalizing method descriptor with
  | nil => cases hcall
  | cons e events ih =>
    have hmore : ∀ header, .header header ∉ events := fun header => List.not_mem_of_not_mem_cons (h header)
    cases e with
    | header header => exact absurd List.mem_cons_self (h header)
    | field m => exact ih hmore hcall
    | method m => exact ih hmore hcall
    | finish a => exact ih hmore hcall
    | call c =>
      simp only [callsOf] at hcall
      split at hcall
      · next haccepts =>
        rcases List.mem_cons.1 hcall with rfl | hcall
        · exact ⟨rfl, haccepts⟩
        · exact ih hmore hcall
      · exact ih hmore hcall

/-- Both ends of every call that is seen in a class file are accepted. -/
theorem acceptsCall_of_mem_callsSeen {f : Filter} {u : ClassUnit} {call : Graph.Call}
    (h : call ∈ callsSeen f u) :
    f.acceptsCall call.callerClass = true ∧ f.acceptsCall call.calleeClass = true := by
  unfold callsSeen at h
  obtain hnone | ⟨header, more, hevents, hheadless, hwanted⟩ :=
    ClassFile.events_decode (callInterest f) u.bytes
  · rw [hnone] at h
    cases h
  · rw [hevents] at h
    change call ∈ callsOf f header.name "" "" more at h
    obtain ⟨hcaller, hcallee⟩ := ends_callsOf hheadless h
    rcases hwanted with hmembers | rfl
    · exact ⟨hcaller ▸ hmembers, hcallee⟩
    · cases h

/-- The calls between methods, the graph between classes and the dependencies agree. -/
structure CallGraph.Coherent (f : Filter) (c : CallGraph) : Prop where
  accepted : ∀ call ∈ c.calls, f.acceptsCall call.callerClass = true ∧
    f.acceptsCall call.calleeClass = true
  hasEdge_iff : ∀ a b, c.classes.hasEdge a b = true ↔
    ∃ call ∈ c.calls, call.callerClass = a ∧ call.calleeClass = b
  /-- The graph between classes is built again, in all its orders, from where the calls are added. -/
  callAdjacency : ∀ g : ClassGraph, g.calls.items = [] → (c.addTo g).callAdjacency = c.classes
  calls : ∀ g : ClassGraph, g.calls.items = [] → (c.addTo g).calls.items = c.calls
  /-- One dependency for each edge, and no other. -/
  dependencies : ∀ g : ClassGraph, ∃ added,
    (c.addTo g).dependencies.items = g.dependencies.items ++ added ∧
    (∀ d ∈ added, d.kind = .call ∧ c.classes.hasEdge d.source d.target = true) ∧
    ∀ a b, c.classes.hasEdge a b = true → added.countP (fun d => d.source = a ∧ d.target = b) = 1
  /-- Nothing else of a graph changes. -/
  frame : ∀ g : ClassGraph, c.addTo g =
    { g with calls := (c.addTo g).calls, dependencies := (c.addTo g).dependencies }

/-- Calls whose ends have names make a coherent graph. -/
theorem CallGraph.coherent_ofCalls {f : Filter} {calls : List Graph.Call}
    (h : ∀ call ∈ calls, f.acceptsCall call.callerClass = true ∧
      f.acceptsCall call.calleeClass = true) : (ofCalls calls).Coherent f := by
  have hrepresents := Adjacency.represents_ofEdges (calls.map fun c => (c.callerClass, c.calleeClass))
  have hedge : ∀ a b, (ofCalls calls).classes.hasEdge a b = true ↔
      (a, b) ∈ (ofCalls calls).classes.edges := by
    intro a b
    exact (hrepresents.hasEdge_iff a b).trans (hrepresents.mem_edges a b).symm
  refine ⟨h, ?_, ?_, ?_, ?_, fun g => by rw [addTo_eq]⟩
  · intro a b
    refine (hrepresents.hasEdge_iff a b).trans ?_
    simp [ofCalls]
  · intro g hg
    have hnamed : (calls.map fun c => (c.callerClass, c.calleeClass)).filter
        (fun e => !e.1.isEmpty && !e.2.isEmpty) = calls.map fun c => (c.callerClass, c.calleeClass) := by
      rw [List.filter_eq_self]
      intro e he
      obtain ⟨call, hcall, rfl⟩ := List.mem_map.1 he
      obtain ⟨hcaller, hcallee⟩ := h call hcall
      simp [Filter.ne_empty_of_acceptsCall hcaller, Filter.ne_empty_of_acceptsCall hcallee]
    rw [ClassGraph.callAdjacency, calls_addTo, hg, List.nil_append]
    exact congrArg Adjacency.ofEdges hnamed
  · intro g hg
    rw [calls_addTo, hg, List.nil_append]
  · intro g
    refine ⟨_, (ofCalls calls).dependencies_addTo g, ?_, ?_⟩
    · intro d hd
      obtain ⟨e, he, rfl⟩ := List.mem_map.1 hd
      exact ⟨rfl, (hedge _ _).2 he⟩
    · intro a b hab
      have hcount := List.count_eq_one_of_mem hrepresents.nodup_edges ((hedge a b).1 hab)
      rw [List.countP_map]
      refine Eq.trans (List.countP_congr ?_) hcount
      rintro ⟨u, w⟩ -
      simp

/-- In every scan for calls, the calls between methods, the graph between classes and the
dependencies it brings agree. -/
theorem call_levels_agree : (∀ f units, (callGraphOf f units).Coherent f) ∧
    ∀ {σ : Type} (desc : Descriptor) (packages : List String) (c : CallGraph) (s s' : Session σ),
      scanCalls desc packages s = (.ok c, s') → c.Coherent (.ofPackages packages) := by
  have hall : ∀ f units, (callGraphOf f units).Coherent f := by
    intro f units
    rw [callGraphOf_eq_callsSeen]
    refine CallGraph.coherent_ofCalls ?_
    intro call hcall
    obtain ⟨u, -, hseen⟩ := List.mem_flatMap.1 hcall
    exact acceptsCall_of_mem_callsSeen hseen
  refine ⟨hall, ?_⟩
  intro σ desc packages c s s' h
  rw [scanCalls_eq_ok h]
  exact hall _ _

/-- A class whose method calls another class twice, itself, an array and the platform. -/
def busyClass : Session Unit := .onDisk (.dir [("out", .dir [
    ("A.class", .file (ClassFile.encode { ClassFile.ClassSpec.ofName "app.A" with
      methods := [⟨1, "run", "()V", [], ["app.B", "app.A", "[I", "java.lang.Math", "app.B"].map
        fun callee => ⟨0xb6, callee, "run", "()V"⟩⟩] }) false)])])

theorem call_levels_agree_busyClass : ∃ c s,
    scanCalls ⟨"", "", ["/out"]⟩ [] busyClass = (.ok c, s) ∧
    c.calls.map (fun call => (call.callerClass, call.calleeClass)) =
      [("app.A", "app.B"), ("app.A", "app.A"), ("app.A", "app.B")] ∧
    c.Coherent ⟨[]⟩ := by
  have hscan : (scanCalls ⟨"", "", ["/out"]⟩ [] busyClass).1.toOption.any (fun c =>
      c.calls.map (fun call => (call.callerClass, call.calleeClass)) ==
        [("app.A", "app.B"), ("app.A", "app.A"), ("app.A", "app.B")]) = true := by
    decide +kernel
  obtain ⟨c, s, hc, hcalls⟩ := Act.exists_ok_of_any _ _ _ hscan
  exact ⟨c, s, hc, eq_of_beq hcalls, call_levels_agree.2 _ _ c _ s hc⟩

end Scan
end ClassAtlas
