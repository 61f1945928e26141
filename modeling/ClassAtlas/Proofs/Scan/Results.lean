import ClassAtlas.Proofs.Graph.Frame
import ClassAtlas.Proofs.Session
import ClassAtlas.Scan.Calls
import ClassAtlas.Scan.Structure
import ClassAtlas.Source.Build

/-!
What a scan that is not stopped gives: the class files of the walk added one after the other, or the
classes of the source files. The structure of classes brings no calls, and a call graph has an edge
between classes for each of its calls.
-/
namespace ClassAtlas

variable {σ : Type}

namespace Classpath

/-- A walk that is not stopped has visited all class files in order. -/
theorem follow_eq_ok {step : τ → ClassUnit → τ × List Log.Record} {steps : List Step} {t r : τ}
    {s s' : Session σ}
    (h : follow (fun t u => do
      let (t, notes) := step t u
      Act.logAll notes
      return t) steps t s = (.ok r, s')) :
    r = (unitsOf steps).foldl (fun t u => (step t u).1) t := by
  induction steps generalizing t s with
  | nil =>
    obtain ⟨⟩ := h
    rfl
  | cons first more ih =>
    cases first with
    | checkpoint =>
      obtain ⟨_, _, -, hmore⟩ := Act.bind_eq_ok.1 h
      exact ih hmore
    | note record =>
      obtain ⟨_, _, -, hmore⟩ := Act.bind_eq_ok.1 h
      exact ih hmore
    | unit u =>
      obtain ⟨_, _, hvisit, hmore⟩ := Act.bind_eq_ok.1 h
      obtain ⟨_, _, hlog, hreturn⟩ := Act.bind_eq_ok.1 hvisit
      obtain ⟨⟩ := hreturn
      exact ih hmore

end Classpath

namespace Scan

open Classpath

theorem scanStructure_eq_ok {desc : Descriptor} {packages : List String} {g : ClassGraph}
    {s s' : Session σ} (h : scanStructure desc packages s = (.ok g, s')) :
    g = structureOf (.ofPackages packages) (unitsOf (steps s.disk desc.entries)) := by
  obtain ⟨p, t, hwalk, hreturn⟩ := Act.bind_eq_ok.1 h
  obtain ⟨d, u, hdisk, hfollow⟩ := Act.bind_eq_ok.1 hwalk
  obtain ⟨⟩ := hdisk
  obtain ⟨_, _, -, hreturn⟩ := Act.bind_eq_ok.1 hreturn
  obtain ⟨⟩ := hreturn
  rw [follow_eq_ok hfollow]
  rfl

theorem scanCalls_eq_ok {desc : Descriptor} {packages : List String} {c : CallGraph}
    {s s' : Session σ} (h : scanCalls desc packages s = (.ok c, s')) :
    c = callGraphOf (.ofPackages packages) (unitsOf (steps s.disk desc.entries)) := by
  obtain ⟨p, t, hwalk, hreturn⟩ := Act.bind_eq_ok.1 h
  obtain ⟨d, u, hdisk, hfollow⟩ := Act.bind_eq_ok.1 hwalk
  obtain ⟨⟩ := hdisk
  obtain ⟨_, _, -, hreturn⟩ := Act.bind_eq_ok.1 hreturn
  obtain ⟨⟩ := hreturn
  exact follow_eq_ok hfollow

open ClassGraph in
/-- Of what a class adds to a graph, only the class itself can change a view that dependencies,
generators, their uses and endpoints leave alone. -/
theorem ClassFacts.view_addTo {γ : Type} (view : ClassGraph → γ)
    (hdependency : ∀ g d, view (addDependency g d) = view g)
    (huse : ∀ g u, view (addGeneratorUse g u) = view g)
    (hgenerator : ∀ g d, view (addGenerator g d) = view g)
    (hendpoint : ∀ g e, view (addEndpoint g e) = view g) (facts : ClassFacts) (g : ClassGraph) :
    view (facts.addTo g) = view (g.addClass facts.node) := by
  unfold ClassFacts.addTo
  dsimp only
  rw [foldl_keeps view addEndpoint hendpoint, foldl_keeps view addGenerator hgenerator,
    foldl_keeps view addGeneratorUse huse, foldl_keeps view addDependency hdependency]

open ClassGraph in
/-- What a class adds to a graph is no call. -/
theorem ClassFacts.calls_addTo (facts : ClassFacts) (g : ClassGraph) :
    (facts.addTo g).calls = g.calls := by
  rw [facts.view_addTo calls (fun _ _ => rfl) calls_addGeneratorUse calls_addGenerator
    fun _ _ => rfl, calls_addClass]

open ClassGraph in
theorem ClassFacts.classMap_addTo (facts : ClassFacts) (g : ClassGraph) :
    (facts.addTo g).classMap = (g.addClass facts.node).classMap :=
  facts.view_addTo classMap (fun _ _ => rfl) classMap_addGeneratorUse classMap_addGenerator
    (fun _ _ => rfl) g

/-- What one class file does to the graph of a scan. -/
def addUnit (f : Filter) (g : ClassGraph) (u : ClassUnit) : ClassGraph :=
  (ClassFile.parse u.bytes).toOption.elim g fun c =>
    if takesPart f c && !g.classMap.contains c.header.name then (classFacts c u.location).addTo g
    else g

theorem addUnit_of_error {f : Filter} {u : ClassUnit} {fault : ClassFile.Fault}
    (h : ClassFile.parse u.bytes = .error fault) (g : ClassGraph) : addUnit f g u = g := by
  rw [addUnit, h]
  rfl

theorem addUnit_of_ok {f : Filter} {u : ClassUnit} {c : ClassFile.Class}
    (h : ClassFile.parse u.bytes = .ok c) (g : ClassGraph) :
    addUnit f g u = if takesPart f c && !g.classMap.contains c.header.name
      then (classFacts c u.location).addTo g else g := by
  rw [addUnit, h]
  rfl

theorem Progress.graph_add (f : Filter) (p : Progress) (u : ClassUnit) :
    (p.add f u).1.graph = addUnit f p.graph u := by
  unfold Progress.add
  cases h : ClassFile.parse u.bytes with
  | error fault => rw [addUnit_of_error h]
  | ok c =>
    rw [addUnit_of_ok h]
    by_cases hpart : takesPart f c = true
    · by_cases hseen : p.graph.classMap.contains c.header.name = true
      · simp [hpart, hseen]
      · simp [hpart, hseen]
    · simp [hpart]

theorem structureOf_eq (f : Filter) (units : List ClassUnit) :
    structureOf f units = units.foldl (addUnit f) .empty :=
  (List.foldl_hom Progress.graph fun p u => (p.graph_add f u).symm).symm

theorem structureOf_concat (f : Filter) (units : List ClassUnit) (u : ClassUnit) :
    structureOf f (units ++ [u]) = addUnit f (structureOf f units) u := by
  rw [structureOf_eq, structureOf_eq, List.foldl_append, List.foldl_cons, List.foldl_nil]

/-- A class file changes the graph only by a class that takes part and is new. -/
theorem addUnit_cases (f : Filter) (g : ClassGraph) (u : ClassUnit) :
    addUnit f g u = g ∨ ∃ c, ClassFile.parse u.bytes = .ok c ∧ takesPart f c = true ∧
      g.classMap.contains c.header.name = false ∧
      addUnit f g u = (classFacts c u.location).addTo g := by
  cases h : ClassFile.parse u.bytes with
  | error fault => exact .inl (addUnit_of_error h g)
  | ok c =>
    rw [addUnit_of_ok h]
    split
    · next hnew =>
      rw [Bool.and_eq_true, Bool.not_eq_true'] at hnew
      exact .inr ⟨c, rfl, hnew.1, hnew.2, rfl⟩
    · exact .inl rfl

/-- What holds of an empty graph and is kept by every class that is added holds after a scan. -/
theorem structureOf_induction {P : ClassGraph → Prop} {f : Filter} {units : List ClassUnit}
    (hempty : P .empty)
    (hadd : ∀ g, ∀ u ∈ units, ∀ c, ClassFile.parse u.bytes = .ok c → takesPart f c = true →
      g.classMap.contains c.header.name = false → P g → P ((classFacts c u.location).addTo g)) :
    P (structureOf f units) := by
  rw [structureOf_eq]
  refine List.foldlRecOn units _ hempty ?_
  intro g hg u hu
  obtain hsame | ⟨c, hc, hpart, hnew, hadded⟩ := addUnit_cases f g u
  · rwa [hsame]
  · rw [hadded]
    exact hadd g u hu c hc hpart hnew hg

theorem ne_empty_of_takesPart {f : Filter} {c : ClassFile.Class} (h : takesPart f c = true) :
    c.header.name ≠ "" := by
  intro hname
  simp [takesPart, Filter.accepts, hname] at h

theorem contains_addUnit (f : Filter) (g : ClassGraph) (u : ClassUnit) (name : String) :
    (addUnit f g u).classMap.contains name = true ↔ g.classMap.contains name = true ∨
      ∃ c, ClassFile.parse u.bytes = .ok c ∧ takesPart f c = true ∧ c.header.name = name := by
  cases h : ClassFile.parse u.bytes with
  | error fault => simp [addUnit_of_error h]
  | ok c =>
    rw [addUnit_of_ok h]
    by_cases hpart : takesPart f c = true
    · by_cases hseen : g.classMap.contains c.header.name = true
      · simp only [hpart, hseen]
        grind
      · rw [if_pos (by simp [hpart, hseen]), ClassFacts.classMap_addTo,
          ClassGraph.classMap_addClass (ne_empty_of_takesPart hpart), KeyMap.contains_insert]
        change (name == c.header.name || g.classMap.contains name) = true ↔ _
        rw [Bool.or_eq_true, beq_iff_eq]
        grind
    · simp only [hpart]
      grind

/-- A scan has the classes of the class files that take part, and no others. -/
theorem contains_structureOf (f : Filter) (units : List ClassUnit) (name : String) :
    (structureOf f units).classMap.contains name = true ↔ ∃ u ∈ units, ∃ c,
      ClassFile.parse u.bytes = .ok c ∧ takesPart f c = true ∧ c.header.name = name := by
  induction units using List.reverseRecOn with
  | nil =>
    have hnone : (structureOf f []).classMap.contains name = false := rfl
    simp [hnone]
  | append_singleton units u ih =>
    rw [structureOf_concat, contains_addUnit, ih]
    simp only [List.mem_append, List.mem_singleton]
    grind

theorem calls_structureOf (f : Filter) (units : List ClassUnit) :
    (structureOf f units).calls.items = [] := by
  refine structureOf_induction (P := fun g => g.calls.items = []) rfl ?_
  intro g u _ c _ _ _ hg
  rw [ClassFacts.calls_addTo, hg]

/-- The classes of a call graph that was scanned are those of its calls. -/
theorem callGraphOf_eq (f : Filter) (units : List ClassUnit) :
    callGraphOf f units = .ofCalls (callGraphOf f units).calls := by
  have hfold : ∀ c : CallGraph, c = .ofCalls c.calls →
      units.foldl (fun c u => (addUnitCalls f c u).1) c =
        .ofCalls (units.foldl (fun c u => (addUnitCalls f c u).1) c).calls := by
    induction units with
    | nil => exact fun _ h => h
    | cons u units ih =>
      intro c hc
      rw [List.foldl_cons]
      refine ih _ ?_
      unfold addUnitCalls
      split
      · exact hc
      · next calls _ =>
        rw [hc]
        simp [CallGraph.ofCalls, Adjacency.ofEdges, List.foldl_map]
  exact hfold .empty rfl

/-- A call graph brings its calls and one dependency for each pair of its classes. -/
theorem CallGraph.addTo_eq (c : CallGraph) (g : ClassGraph) : c.addTo g =
    { g with
      calls := g.calls.append c.calls
      dependencies := g.dependencies.append
        (c.classes.edges.map fun e => ⟨e.1, e.2, .call, "call"⟩) } := by
  rw [addTo, ClassGraph.foldl_addCall, ClassGraph.foldl_addDependency]

theorem CallGraph.calls_addTo (c : CallGraph) (g : ClassGraph) :
    (c.addTo g).calls.items = g.calls.items ++ c.calls := by
  rw [addTo_eq, Listing.items_append]

theorem CallGraph.dependencies_addTo (c : CallGraph) (g : ClassGraph) :
    (c.addTo g).dependencies.items =
      g.dependencies.items ++ c.classes.edges.map fun e => ⟨e.1, e.2, .call, "call"⟩ := by
  rw [addTo_eq, Listing.items_append]

end Scan

namespace Source

/-- What every class that is added keeps is kept by all classes of a file. -/
theorem addClasses_induction {P : ClassGraph → Prop} {f : Scan.Filter} {cs : List Graph.Class}
    (hadd : ∀ g, ∀ c ∈ cs, P g → P (g.addClass c)) {g : ClassGraph} (hg : P g) :
    P (addClasses f g cs) := by
  refine List.foldlRecOn cs _ hg ?_
  intro g hg c hc
  split
  · exact hadd g c hc hg
  · exact hg

theorem addFiles_induction {P : ClassGraph → Prop}
    (hadd : ∀ g text, ∀ c ∈ classes text, P g → P (g.addClass c)) {f : Scan.Filter}
    {paths : List String} {g r : ClassGraph} {s s' : Session σ} (hg : P g)
    (h : addFiles f paths g s = (.ok r, s')) : P r := by
  induction paths generalizing g s with
  | nil =>
    obtain ⟨⟩ := h
    exact hg
  | cons path more ih =>
    obtain ⟨_, _, -, hread⟩ := Act.bind_eq_ok.1 h
    obtain ⟨disk, _, -, hmore⟩ := Act.bind_eq_ok.1 hread
    cases htext : disk.readText path with
    | ok text =>
      rw [htext] at hmore
      exact ih (addClasses_induction (hadd · text) hg) hmore
    | error fault =>
      rw [htext] at hmore
      obtain ⟨_, _, -, hskip⟩ := Act.bind_eq_ok.1 hmore
      exact ih hg hskip

/-- What holds of an empty graph and is kept by every class of a source file that is added holds
after all source files are read. -/
theorem build_induction {P : ClassGraph → Prop} (hempty : P .empty)
    (hadd : ∀ g text, ∀ c ∈ classes text, P g → P (g.addClass c)) {root : String}
    {packages : List String} {g : ClassGraph} {s s' : Session σ}
    (h : build root packages s = (.ok g, s')) : P g := by
  obtain ⟨disk, _, -, hfiles⟩ := Act.bind_eq_ok.1 h
  obtain ⟨r, _, hread, hlog⟩ := Act.bind_eq_ok.1 hfiles
  obtain ⟨_, _, -, hreturn⟩ := Act.bind_eq_ok.1 hlog
  obtain ⟨⟩ := hreturn
  exact addFiles_induction hadd hempty hread

end Source
end ClassAtlas
