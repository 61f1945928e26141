import ClassAtlas.Analysis.Run
import ClassAtlas.ClassFile.Encode
import ClassAtlas.Proofs.Diagram.Traversal
import ClassAtlas.Proofs.Graph.Components
import ClassAtlas.Proofs.Scan.Results

/-!
Loops of sequence diagrams. A diagram follows calls between classes, and the components of a graph
come from its dependencies; every call of an assembled graph is a dependency as well. A traversal
closes a loop only at a class that leads to where it stands, so the loop runs inside one component.
-/
namespace ClassAtlas

open Adjacency (Reaches)

namespace ClassGraph

/-- The pairs of classes with a call from one to the other. -/
def callEdges (g : ClassGraph) : List (String × String) :=
  (g.calls.items.map fun c => (c.callerClass, c.calleeClass)).filter fun e =>
    !e.1.isEmpty && !e.2.isEmpty

/-- The pairs of classes with a dependency of one on the other. -/
def dependencyEdges (g : ClassGraph) : List (String × String) :=
  (g.dependencies.items.map fun d => (d.source, d.target)).filter fun e =>
    !e.1.isEmpty && !e.2.isEmpty

end ClassGraph

namespace Analysis

/-- The sources bring no calls. -/
theorem calls_assemble (source compiled : ClassGraph) (calls : Scan.CallGraph) :
    (assemble source compiled calls).calls.items = compiled.calls.items ++ calls.calls := by
  change (ClassGraph.merge (some source) (some (calls.addTo compiled))).calls.items = _
  rw [ClassGraph.calls_merge, calls.calls_addTo]

/-- Every call of an assembled graph is also a dependency. -/
theorem callEdges_subset (source : ClassGraph) {compiled : ClassGraph}
    {calls : Scan.CallGraph}
    (hcompiled : compiled.calls.items = []) (hcalls : calls = .ofCalls calls.calls) :
    (assemble source compiled calls).callEdges ⊆
      (assemble source compiled calls).dependencyEdges := by
  rintro ⟨u, w⟩ he
  obtain ⟨hcall, hends⟩ := List.mem_filter.1 he
  refine List.mem_filter.2 ⟨?_, hends⟩
  rw [calls_assemble, hcompiled, List.nil_append] at hcall
  have hedge : (u, w) ∈ calls.classes.edges := by
    rw [hcalls]
    exact ((Adjacency.represents_ofEdges _).mem_edges u w).2 hcall
  change (u, w) ∈ (ClassGraph.merge (some source)
    (some (calls.addTo compiled))).dependencies.items.map _
  rw [ClassGraph.dependencies_merge, calls.dependencies_addTo]
  simp only [List.map_append, List.map_map, List.mem_append, List.mem_map, Function.comp_apply,
    Prod.mk.injEq]
  exact .inl (.inr ⟨(u, w), hedge, rfl, rfl⟩)

end Analysis

namespace Diagram

/-- A loop that a traversal closes is one: the call is there, and its target leads back. -/
def Message.Returns (edges : List (String × String)) (m : Message) : Prop :=
  (m.caller, m.callee) ∈ edges ∧ Reaches edges m.callee m.caller

/-- The calls from one class, given what holds one level further down. -/
theorem returns_messagesTo {edges : List (String × String)} {depth : Nat}
    (hdown : ∀ way class_, (∀ w ∈ way, Reaches edges w class_) →
      ∀ m ∈ messages (.ofEdges edges) depth way class_, m.closesLoop = true → m.Returns edges)
    {way : List String} {class_ : String} (hway : ∀ w ∈ way, Reaches edges w class_)
    {targets : List String} (htargets : ∀ t ∈ targets, (class_, t) ∈ edges) :
    ∀ m ∈ messagesTo (.ofEdges edges) depth way class_ targets,
      m.closesLoop = true → m.Returns edges := by
  induction targets with
  | nil => simp [messagesTo]
  | cons callee more ih =>
    have hedge := htargets callee List.mem_cons_self
    intro m hm hloop
    rw [messagesTo, List.mem_append] at hm
    rcases hm with hm | hm
    · split at hm
      · next hseen =>
        obtain rfl := List.mem_singleton.1 hm
        exact ⟨hedge, hway callee (by simpa using hseen)⟩
      · rcases List.mem_cons.1 hm with rfl | hm
        · simp at hloop
        · exact hdown way callee (fun w hw => (hway w hw).tail hedge) m hm hloop
    · exact ih (fun t ht => htargets t (List.mem_cons_of_mem _ ht)) m hm hloop

/-- Along a traversal the way leads to where it stands, so whatever it closes is a loop. -/
theorem returns_messages (edges : List (String × String)) (depth : Nat) (way : List String)
    (class_ : String) (hway : ∀ w ∈ way, Reaches edges w class_) :
    ∀ m ∈ messages (.ofEdges edges) depth way class_, m.closesLoop = true → m.Returns edges := by
  induction depth generalizing way class_ with
  | zero => simp [messages]
  | succ depth ih =>
    rw [messages]
    refine returns_messagesTo ih ?_ ?_
    · intro w hw
      rcases List.mem_cons.1 hw with rfl | hw
      · exact .refl
      · exact hway w hw
    · exact fun t ht => ((Adjacency.represents_ofEdges edges).mem_targets? class_ t).1 ht

theorem head_loopLine (label : String) : (loopLine label).toList.head? = some 'l' := by
  have hword : "loop Cyclic dependency (SCC ".toList.head? = some 'l' := by decide
  unfold loopLine
  rw [String.toList_append, String.toList_append, List.head?_append, List.head?_append, hword,
    Option.some_or, Option.some_or]

theorem ne_loopLine {line : String} (h : line.toList.head? ≠ some 'l') (label : String) :
    line ≠ loopLine label := by
  rintro rfl
  exact h (head_loopLine label)

theorem callLine_ne_loopLine (caller callee label : String) :
    callLine caller callee ≠ loopLine label := by
  intro h
  have hword : " : call".toList.getLast? = some 'l' := by decide
  have hmark : ")".toList.getLast? = some ')' := by decide
  have hlast := congrArg (fun s => s.toList.getLast?) h
  unfold callLine loopLine at hlast
  rw [String.toList_append, List.getLast?_append, hword, Option.some_or, String.toList_append,
    List.getLast?_append, hmark, Option.some_or] at hlast
  exact absurd hlast (by decide)

theorem loopLine_inj {label label' : String} (h : loopLine label = loopLine label') :
    label = label' := by
  unfold loopLine at h
  exact (String.append_right_inj _).1 ((String.append_left_inj ")").1 h)

/-- Only a call that closes a loop is shown with the line that opens one. -/
theorem exists_message_of_loopLine {g : ClassGraph} {shown : List Message} {i : Nat}
    {label : String} (h : (shown.flatMap (messageLines g))[i]? = some (loopLine label)) :
    ∃ m ∈ shown, m.closesLoop = true ∧ label = componentLabel g m.callee ∧
      ((shown.flatMap (messageLines g)).drop i).take 3 =
        [loopLine label, callLine m.caller m.callee, "end"] := by
  induction shown generalizing i with
  | nil => simp at h
  | cons m shown ih =>
    rw [List.flatMap_cons] at h ⊢
    by_cases hloop : m.closesLoop = true
    · have hlines : messageLines g m =
          [loopLine (componentLabel g m.callee), callLine m.caller m.callee, "end"] := by
        simp [messageLines, hloop]
      rw [hlines] at h ⊢
      match i with
      | 0 =>
        obtain rfl := loopLine_inj (Option.some.inj h)
        exact ⟨m, List.mem_cons_self, hloop, rfl, rfl⟩
      | 1 => exact absurd (Option.some.inj h) (callLine_ne_loopLine _ _ _)
      | 2 => exact absurd (Option.some.inj h) (ne_loopLine (by decide) label)
      | i + 3 =>
        obtain ⟨m', hm, hrest⟩ := ih (i := i) h
        exact ⟨m', List.mem_cons_of_mem _ hm, hrest⟩
    · have hlines : messageLines g m = [callLine m.caller m.callee] := by
        simp [messageLines, hloop]
      rw [hlines] at h ⊢
      match i with
      | 0 => exact absurd (Option.some.inj h) (callLine_ne_loopLine _ _ _)
      | i + 1 =>
        obtain ⟨m', hm, hrest⟩ := ih (i := i) h
        exact ⟨m', List.mem_cons_of_mem _ hm, hrest⟩

/-- What is neither in the first nor in the last of three lists is at its place in the second. -/
theorem exists_getElem?_middle {first middle last : List String} {line : String} {i : Nat}
    (hfirst : line ∉ first) (hlast : line ∉ last)
    (h : (first ++ middle ++ last)[i]? = some line) :
    ∃ j, i = first.length + j ∧ middle[j]? = some line := by
  rw [List.append_assoc] at h
  rcases lt_or_ge i first.length with hi | hi
  · rw [List.getElem?_append_left hi] at h
    exact absurd (List.mem_of_getElem? h) hfirst
  · obtain ⟨j, rfl⟩ := Nat.exists_eq_add_of_le hi
    rw [List.getElem?_append_right hi, Nat.add_sub_cancel_left] at h
    refine ⟨j, rfl, ?_⟩
    rcases lt_or_ge j middle.length with hj | hj
    · rwa [List.getElem?_append_left hj] at h
    · rw [List.getElem?_append_right hj] at h
      exact absurd (List.mem_of_getElem? h) hlast

/-- A loop in a diagram opens with the component of its target, shows its call and ends. -/
theorem exists_loop_of_loopLine {e : Graph.Endpoint} {calls : Adjacency} {g : ClassGraph}
    {depth : Int} {i : Nat} {label : String}
    (h : (sequenceLines e calls g depth)[i]? = some (loopLine label)) :
    ∃ m ∈ endpointMessages e calls depth, m.closesLoop = true ∧ label = componentLabel g m.callee ∧
      ((sequenceLines e calls g depth).drop i).take 3 =
        [loopLine label, callLine m.caller m.callee, "end"] := by
  let request := "Client -> " ++ shownName e.controllerClass ++ " : " ++
    (if e.httpMethod.isEmpty then "ANY" else e.httpMethod) ++ " " ++ e.path
  let first := ["@startuml", "actor Client", request]
  let middle := (endpointMessages e calls depth).flatMap (messageLines g)
  have hrequest : request.toList.head? ≠ some 'l' := by
    have hword : "Client -> ".toList.head? = some 'C' := by decide
    simp only [request, String.toList_append, List.head?_append, hword, Option.some_or]
    decide
  have hfirst : loopLine label ∉ first := by
    simp only [first, List.mem_cons, List.not_mem_nil, or_false, not_or]
    exact ⟨(ne_loopLine (by decide) label).symm, (ne_loopLine (by decide) label).symm,
      (ne_loopLine hrequest label).symm⟩
  have hlast : loopLine label ∉ ["@enduml"] := by
    rw [List.mem_singleton]
    exact (ne_loopLine (by decide) label).symm
  have hlines : sequenceLines e calls g depth = first ++ middle ++ ["@enduml"] := rfl
  rw [hlines] at h
  obtain ⟨j, rfl, hj⟩ := exists_getElem?_middle hfirst hlast h
  obtain ⟨m, hm, hloop, hlabel, hblock⟩ := exists_message_of_loopLine hj
  refine ⟨m, hm, hloop, hlabel, ?_⟩
  -- The three lines are there, so the end of the diagram is not among them.
  have hroom : 3 ≤ (middle.drop j).length := by
    have hlength := congrArg List.length hblock
    rw [List.length_take] at hlength
    exact min_eq_left_iff.1 hlength
  have hbody : j ≤ middle.length := by
    rw [List.length_drop] at hroom
    omega
  rw [hlines, List.append_assoc, List.drop_length_add_append, List.drop_append_of_le_length hbody,
    List.take_append_of_le_length hroom]
  exact hblock

end Diagram

/-- A dependency whose target leads back to its source runs inside one component, which counts as
cyclic if the two ends differ. -/
theorem Components.component_of_cycle {edges : List (String × String)} {u w : String}
    (he : (u, w) ∈ edges) (hback : Reaches edges w u) :
    ∃ id, (compute (.ofEdges edges)).componentOf? u = some id ∧
      (compute (.ofEdges edges)).componentOf? w = some id ∧
      (u ≠ w → (compute (.ofEdges edges)).isCyclic u = true ∧
        (compute (.ofEdges edges)).isCyclic w = true) := by
  obtain ⟨⟨n, hc⟩, hids⟩ := compute_ofEdges edges
  simp only [mem_ids_iff] at hids
  obtain ⟨i, hi⟩ := (hids u).2 (Adjacency.source_mem_endpoints he)
  obtain ⟨j, hj⟩ := (hids w).2 (Adjacency.target_mem_endpoints he)
  obtain rfl : i = j := (hc.same_iff u w i j hi hj).2 ⟨.single he, hback⟩
  refine ⟨i, hi, hj, ?_⟩
  intro hne
  have hcyclic := (hc.cyclic_iff i).2 ⟨u, w, hne, hi, hj⟩
  simp [isCyclic, hi, hj, hcyclic]

namespace Diagram

/-- The call of a loop is a dependency that leads back, inside one component. That component is the
label of the loop if the target is a class of the graph, and unless the call is one of a class to
itself both ends are marked as cyclic. -/
structure Message.OnCycle (g : ClassGraph) (m : Message) (id : Nat) : Prop where
  returns : m.Returns g.dependencyEdges
  caller_component : (Components.compute g.dependencyAdjacency).componentOf? m.caller = some id
  callee_component : (Components.compute g.dependencyAdjacency).componentOf? m.callee = some id
  label_eq : (g.class? m.callee).isSome → componentLabel g m.callee = toString id
  cyclic : m.caller ≠ m.callee → ∀ v ∈ [m.caller, m.callee],
    (Components.compute g.dependencyAdjacency).isCyclic v = true ∧
      ∀ c, g.class? v = some c → c.inCycle = true

/-- A loop of the dependencies of a graph whose components are written onto its classes. -/
theorem onCycle_of_returns {g : ClassGraph} {m : Message}
    (h : m.Returns g.dependencyEdges) : ∃ id, m.OnCycle g.withComponents id := by
  obtain ⟨id, hcaller, hcallee, hcyclic⟩ := Components.component_of_cycle h.1 h.2
  change (Components.compute g.dependencyAdjacency).componentOf? m.callee = some id at hcallee
  refine ⟨id, h, hcaller, hcallee, ?_, ?_⟩
  · intro hclass
    obtain ⟨c, hc⟩ := Option.isSome_iff_exists.1 hclass
    have hlabel : c.component = some (Int.ofNat id) := by
      rw [(ClassGraph.eq_of_class?_annotate hc).1, hcallee]
      rfl
    simp only [componentLabel, hc, Option.bind_some, hlabel]
    rfl
  · intro hne v hv
    have hmark : (Components.compute g.dependencyAdjacency).isCyclic v = true := by
      rcases List.mem_pair.1 hv with rfl | rfl
      · exact (hcyclic hne).1
      · exact (hcyclic hne).2
    refine ⟨hmark, ?_⟩
    intro c hc
    rw [(ClassGraph.eq_of_class?_annotate hc).2]
    exact hmark

/-- Every loop that a sequence diagram reports is a cycle of the dependencies. For whatever was
scanned, whatever the sources say, any endpoint and any depth: a call that closes a loop stays inside
one component, and the lines that open loops in the diagram are those of such calls. -/
theorem loops_are_cycles {σ τ : Type} {desc desc' : Classpath.Descriptor}
    {packages packages' : List String} {s s' : Session σ} {t t' : Session τ}
    {compiled : ClassGraph} {calls : Scan.CallGraph}
    (hcompiled : Scan.scanStructure desc packages s = (.ok compiled, s'))
    (hcalls : Scan.scanCalls desc' packages' t = (.ok calls, t'))
    (source : ClassGraph) {g : ClassGraph} (hg : g = Analysis.assemble source compiled calls)
    (e : Graph.Endpoint) (depth : Int) :
    (∀ m ∈ endpointMessages e g.callAdjacency depth, m.closesLoop = true → ∃ id, m.OnCycle g id) ∧
    ∀ i label, (sequenceLines e g.callAdjacency g depth)[i]? = some (loopLine label) →
      ∃ m ∈ endpointMessages e g.callAdjacency depth, m.closesLoop = true ∧
        label = componentLabel g m.callee ∧
        ((sequenceLines e g.callAdjacency g depth).drop i).take 3 =
          [loopLine label, callLine m.caller m.callee, "end"] := by
  subst hg
  refine ⟨?_, fun i label => exists_loop_of_loopLine⟩
  intro m hm hloop
  have hnone : compiled.calls.items = [] := by
    rw [Scan.scanStructure_eq_ok hcompiled, Scan.calls_structureOf]
  have hpairs : calls = .ofCalls calls.calls := by
    rw [Scan.scanCalls_eq_ok hcalls]
    exact Scan.callGraphOf_eq _ _
  have hsubset := Analysis.callEdges_subset source hnone hpairs
  rw [endpointMessages_eq] at hm
  obtain ⟨hedge, hback⟩ := returns_messages _ _ [] _ (by simp) m hm hloop
  exact onCycle_of_returns ⟨hsubset hedge, hback.mono hsubset⟩

/-- A class file with one method, which calls one of another class. -/
def callingClass (name callee : String) : List UInt8 :=
  ClassFile.encode { ClassFile.ClassSpec.ofName name with
    methods := [⟨1, "run", "()V", [], [⟨0xb6, callee, "run", "()V"⟩]⟩] }

/-- A directory of two classes that call each other. -/
def mutualCalls : Session Unit where
  disk := ⟨.dir [("out", .dir [
    ("A.class", .file (callingClass "app.A" "app.B") false),
    ("B.class", .file (callingClass "app.B" "app.A") false)])], []⟩
  environment := []
  patience := .endless
  journal := []
  clock := default
  identifiers := fun _ => ""
  issued := 0
  outside := ()

theorem loops_are_cycles_mutualCalls : ∃ compiled s calls t,
    Scan.scanStructure ⟨"", "", ["/out"]⟩ [] mutualCalls = (.ok compiled, s) ∧
    Scan.scanCalls ⟨"", "", ["/out"]⟩ [] mutualCalls = (.ok calls, t) ∧
    ∃ id, (Message.mk "app.B" "app.A" true).OnCycle (Analysis.assemble .empty compiled calls) id := by
  obtain ⟨compiled, s, hcompiled⟩ := Act.exists_of_isOk
    (Scan.scanStructure ⟨"", "", ["/out"]⟩ []) mutualCalls (by decide +kernel)
  obtain ⟨calls, t, hcalls⟩ := Act.exists_of_isOk
    (Scan.scanCalls ⟨"", "", ["/out"]⟩ []) mutualCalls (by decide +kernel)
  refine ⟨compiled, s, calls, t, hcompiled, hcalls, ?_⟩
  refine (loops_are_cycles hcompiled hcalls .empty rfl
    ⟨.http, "GET", "/run", "app.A", "run", "", "", ""⟩ 2).1 _ ?_ rfl
  have hedges : (Analysis.assemble .empty compiled calls).callEdges =
      [("app.A", "app.B"), ("app.B", "app.A")] := by
    rw [ClassGraph.callEdges, Analysis.calls_assemble, Scan.scanStructure_eq_ok hcompiled,
      Scan.calls_structureOf, Scan.scanCalls_eq_ok hcalls]
    decide +kernel
  rw [endpointMessages_eq]
  change _ ∈ messages (.ofEdges (Analysis.assemble .empty compiled calls).callEdges) 2 [] "app.A"
  rw [hedges]
  simp [messages, messagesTo, (Adjacency.represents_ofEdges _).getD_targets?, Adjacency.targetsOf,
    List.eraseDups_cons]

end Diagram
end ClassAtlas
