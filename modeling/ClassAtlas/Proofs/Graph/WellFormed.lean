import ClassAtlas.ClassFile.Encode
import ClassAtlas.Graph.Import
import ClassAtlas.Proofs.Scan.Results

/-!
Graphs in which everything stands where it is looked for: a class under its own name, a generator
under its own name, and a generator's use with all that it ties together. Whatever adds to a graph
keeps it so, and so does joining two graphs, although that finds classes by their key and puts
generators back by their key. So every graph that is read, scanned or built is well-formed.
-/
namespace ClassAtlas

namespace KeyMap

variable {α β : Type}

/-- Every entry has a property. -/
def All (p : String → α → Prop) (m : KeyMap α) : Prop := ∀ e ∈ m.entries, p e.1 e.2

theorem all_empty (p : String → α → Prop) : (empty : KeyMap α).All p := by
  intro e he
  cases he

theorem All.insert {p : String → α → Prop} {m : KeyMap α} {key : String} {value : α} (h : m.All p)
    (hvalue : p key value) : (m.insert key value).All p := by
  intro e he
  rcases mem_insertEntry he with rfl | he
  · exact hvalue
  · exact h e he

theorem All.map {p : String → α → Prop} {q : String → β → Prop} {f : String → α → β} {m : KeyMap α}
    (h : m.All p) (hf : ∀ key value, p key value → q key (f key value)) : (m.map f).All q := by
  intro e he
  obtain ⟨⟨key, value⟩, hmem, rfl⟩ := List.mem_map.1 he
  exact hf key value (h (key, value) hmem)

theorem All.of_get? {p : String → α → Prop} {m : KeyMap α} {key : String} {value : α} (h : m.All p)
    (hget : m.get? key = some value) : p key value := by
  obtain ⟨first, last, hentries, -⟩ := List.lookup_eq_some_iff.1 hget
  exact h (key, value) (by simp [hentries])

end KeyMap

namespace ClassGraph

/-- Classes and generators are kept under their own names, which are no empty and no blank ones, and
every use names a class, a field and a generator. -/
structure WellFormed (g : ClassGraph) : Prop where
  classes : g.classMap.All fun key c => c.name = key ∧ c.name ≠ ""
  generators : g.generatorMap.All fun key d => d.name = key ∧ Text.isBlank d.name = false
  uses : ∀ u ∈ g.generatorUses.items, Text.isBlank u.className = false ∧
    Text.isBlank u.fieldName = false ∧ Text.isBlank u.generatorName = false

theorem wellFormed_empty : empty.WellFormed :=
  ⟨KeyMap.all_empty _, KeyMap.all_empty _, by simp [empty]⟩

namespace WellFormed

variable {g : ClassGraph}

theorem addClass (h : g.WellFormed) (c : Graph.Class) : (g.addClass c).WellFormed := by
  unfold ClassGraph.addClass
  split
  · exact h
  · next hname =>
    have hplace : c.name = c.name ∧ c.name ≠ "" := ⟨rfl, by simpa using hname⟩
    exact ⟨h.classes.insert hplace, h.generators, h.uses⟩

theorem addGenerator (h : g.WellFormed) (d : Graph.Generator) : (g.addGenerator d).WellFormed := by
  unfold ClassGraph.addGenerator
  split
  · exact h
  · next hname =>
    exact ⟨h.classes, h.generators.insert ⟨rfl, by simpa using hname⟩, h.uses⟩

theorem addGeneratorUse (h : g.WellFormed) (u : Graph.GeneratorUse) :
    (g.addGeneratorUse u).WellFormed := by
  unfold ClassGraph.addGeneratorUse
  split
  · exact h
  · next hnames =>
    refine ⟨h.classes, h.generators, ?_⟩
    intro v hv
    rcases List.mem_append.1 hv with hv | hv
    · exact h.uses v hv
    · obtain rfl := List.mem_singleton.1 hv
      simpa [and_assoc] using hnames

theorem addEndpoint (h : g.WellFormed) (e : Graph.Endpoint) : (g.addEndpoint e).WellFormed :=
  ⟨h.classes, h.generators, h.uses⟩

theorem addCall (h : g.WellFormed) (c : Graph.Call) : (g.addCall c).WellFormed :=
  ⟨h.classes, h.generators, h.uses⟩

theorem addDependency (h : g.WellFormed) (d : Graph.Dependency) : (g.addDependency d).WellFormed :=
  ⟨h.classes, h.generators, h.uses⟩

/-- What one addition keeps well-formed, a series of them does. -/
theorem foldl {add : ClassGraph → α → ClassGraph}
    (hadd : ∀ g a, WellFormed g → WellFormed (add g a)) (items : List α) (h : g.WellFormed) :
    (items.foldl add g).WellFormed :=
  List.foldlRecOn items add h fun g hg a _ => hadd g a hg

theorem addCalls (h : g.WellFormed) (calls : Scan.CallGraph) : (calls.addTo g).WellFormed := by
  unfold Scan.CallGraph.addTo
  have hcalls := h.foldl (fun _ c h => h.addCall c) calls.calls
  exact hcalls.foldl (fun _ _ h => h.addDependency _) calls.classes.edges

theorem mapClasses (h : g.WellFormed) {f : String → Graph.Class → Graph.Class}
    (hf : ∀ key c, (f key c).name = c.name) :
    WellFormed { g with classes := g.classes.map (·.map f) } := by
  refine ⟨?_, h.generators, h.uses⟩
  obtain ⟨classes, _⟩ := g
  cases classes with
  | none => exact KeyMap.all_empty _
  | some m =>
    refine KeyMap.All.map (m := m) h.classes ?_
    intro key c hc
    rw [hf]
    exact hc

theorem annotate (h : g.WellFormed) (c : Components) : (g.annotate c).WellFormed :=
  h.mapClasses fun _ _ => rfl

/-- A class of the sources that is there already keeps the name of the compiled one, which is the
key under which that was found. -/
theorem addSourceClass (h : g.WellFormed) (entry : String × Graph.Class) :
    (g.addSourceClass entry).WellFormed := by
  unfold ClassGraph.addSourceClass
  split
  · exact h.addClass _
  · next compiled hfound =>
    have hplace : compiled.name = entry.1 ∧ compiled.name ≠ "" := h.classes.of_get? hfound
    exact ⟨h.classes.insert hplace, h.generators, h.uses⟩

theorem addDeclarations (h : g.WellFormed) {side : ClassGraph} (hside : side.WellFormed) :
    (g.addDeclarations side).WellFormed := by
  refine ⟨h.classes, ?_, ?_⟩
  · refine List.foldlRecOn side.generatorMap.entries _ h.generators ?_
    intro m hm e he
    exact hm.insert (hside.generators e he)
  · intro u hu
    have hboth : u ∈ g.generatorUses.items ∨ u ∈ side.generatorUses.items := by
      simpa [ClassGraph.addDeclarations] using hu
    exact hboth.elim (h.uses u) (hside.uses u)

/-- Two well-formed graphs are joined into one, also if a side is missing. -/
theorem merge {source compiled : Option ClassGraph} (hsource : ∀ g ∈ source, WellFormed g)
    (hcompiled : ∀ g ∈ compiled, WellFormed g) : (merge source compiled).WellFormed := by
  have hside : ∀ {side : Option ClassGraph}, (∀ g ∈ side, WellFormed g) →
      (side.getD .empty).WellFormed := by
    intro side hside
    cases side with
    | none => exact wellFormed_empty
    | some g => exact hside g rfl
  have hclasses := (wellFormed_empty.foldl (fun _ c h => h.addClass c)
    (compiled.getD .empty).classMap.values).foldl (fun _ e h => h.addSourceClass e)
      (source.getD .empty).classMap.entries
  have hall := (hclasses.addDeclarations (hside hcompiled)).addDeclarations (hside hsource)
  exact ⟨hall.classes, hall.generators, hall.uses⟩

end WellFormed

/-- An entry of a document takes its key for a name only if it has none, and is kept by its name. -/
theorem wellFormed_imported (raw : ClassGraph) (classes : List (String × Graph.Class))
    (generators : List (String × Graph.Generator)) :
    (Graph.imported raw classes generators).WellFormed := by
  have hclasses := wellFormed_empty.foldl
    (fun g (e : String × Graph.Class) h => h.addClass (e.2.completed e.1)) classes
  have hgenerators := hclasses.foldl
    (fun g (e : String × Graph.Generator) h => h.addGenerator (e.2.completed e.1)) generators
  have huses := hgenerators.foldl (fun g u h => h.addGeneratorUse u) raw.generatorUses.items
  exact ⟨huses.classes, huses.generators, huses.uses⟩

theorem WellFormed.seenInSources {g : ClassGraph} (h : g.WellFormed) :
    (Graph.seenInSources g).WellFormed :=
  h.mapClasses fun _ _ => rfl

theorem WellFormed.addFacts {g : ClassGraph} (h : g.WellFormed) (facts : Scan.ClassFacts) :
    (facts.addTo g).WellFormed := by
  unfold Scan.ClassFacts.addTo
  have hdependencies := (h.addClass facts.node).foldl (fun _ d h => h.addDependency d)
    facts.dependencies
  have huses := hdependencies.foldl (fun _ u h => h.addGeneratorUse u) facts.uses
  have hgenerators := huses.foldl (fun _ d h => h.addGenerator d) facts.generators
  exact hgenerators.foldl (fun _ e h => h.addEndpoint e) facts.endpoints

theorem wellFormed_structureOf (f : Scan.Filter) (units : List Classpath.ClassUnit) :
    (Scan.structureOf f units).WellFormed :=
  Scan.structureOf_induction wellFormed_empty fun _ _ _ _ _ _ _ h => h.addFacts _

theorem wellFormed_build {σ : Type} {root : String} {packages : List String} {g : ClassGraph}
    {s s' : Session σ} (h : Source.build root packages s = (.ok g, s')) : g.WellFormed :=
  Source.build_induction wellFormed_empty (fun _ _ c _ h => h.addClass c) h

/-- The graphs that come about: an empty one, what a document or a file describes, whatever it says,
what is scanned from compiled classes or built from sources, whatever is then added to them, and two
of them joined. -/
inductive Arises : ClassGraph → Prop where
  | empty : Arises .empty
  | addClass {g} (h : Arises g) (c : Graph.Class) : Arises (g.addClass c)
  | addGenerator {g} (h : Arises g) (d : Graph.Generator) : Arises (g.addGenerator d)
  | addGeneratorUse {g} (h : Arises g) (u : Graph.GeneratorUse) : Arises (g.addGeneratorUse u)
  | addEndpoint {g} (h : Arises g) (e : Graph.Endpoint) : Arises (g.addEndpoint e)
  | addCall {g} (h : Arises g) (c : Graph.Call) : Arises (g.addCall c)
  | addDependency {g} (h : Arises g) (d : Graph.Dependency) : Arises (g.addDependency d)
  | addCalls {g} (h : Arises g) (calls : Scan.CallGraph) : Arises (calls.addTo g)
  | annotate {g} (h : Arises g) (c : Components) : Arises (g.annotate c)
  | document (raw : Graph.Raw) : Arises raw.graph
  | file (raw : Graph.Raw) : Arises (Graph.seenInSources raw.graph)
  | scan {σ : Type} {desc packages g} {s s' : Session σ}
      (h : Scan.scanStructure desc packages s = (.ok g, s')) : Arises g
  | build {σ : Type} {root packages g} {s s' : Session σ}
      (h : Source.build root packages s = (.ok g, s')) : Arises g
  | merge {source compiled} (hsource : ∀ g ∈ source, Arises g)
      (hcompiled : ∀ g ∈ compiled, Arises g) : Arises (merge source compiled)

/-- What is read is the graph of some document. -/
theorem exists_raw_of_read {bytes : List UInt8} {g : ClassGraph} (h : Graph.read bytes = .ok g) :
    ∃ raw : Graph.Raw, g = raw.graph := by
  unfold Graph.read at h
  cases hraw : Graph.readRaw bytes with
  | error message =>
    rw [hraw] at h
    cases h
  | ok raw =>
    rw [hraw] at h
    cases h
    exact ⟨raw, rfl⟩

theorem Arises.of_load {d : File.Disk} {path : String} {g : ClassGraph}
    (h : Graph.load d path = .ok g) : Arises g := by
  unfold Graph.load at h
  split at h
  · cases h
  · split at h
    · cases h
    · next read hread =>
      obtain ⟨raw, rfl⟩ := exists_raw_of_read hread
      cases h
      exact .file raw

theorem Arises.wellFormed {g : ClassGraph} (h : Arises g) : g.WellFormed := by
  induction h with
  | empty => exact wellFormed_empty
  | addClass _ c ih => exact ih.addClass c
  | addGenerator _ d ih => exact ih.addGenerator d
  | addGeneratorUse _ u ih => exact ih.addGeneratorUse u
  | addEndpoint _ e ih => exact ih.addEndpoint e
  | addCall _ c ih => exact ih.addCall c
  | addDependency _ d ih => exact ih.addDependency d
  | addCalls _ calls ih => exact ih.addCalls calls
  | annotate _ c ih => exact ih.annotate c
  | document raw => exact wellFormed_imported _ _ _
  | file raw => exact (wellFormed_imported _ _ _).seenInSources
  | scan h =>
    rw [Scan.scanStructure_eq_ok h]
    exact wellFormed_structureOf _ _
  | build h => exact wellFormed_build h
  | merge _ _ hsource hcompiled => exact .merge hsource hcompiled

/-- Every graph that comes about is well-formed, and so are any two well-formed graphs joined. -/
theorem wellFormed_of_arises : (∀ g, Arises g → g.WellFormed) ∧
    ∀ source compiled : Option ClassGraph, (∀ g ∈ source, g.WellFormed) →
      (∀ g ∈ compiled, g.WellFormed) → (merge source compiled).WellFormed :=
  ⟨fun _ => Arises.wellFormed, fun _ _ => WellFormed.merge⟩

/-- A project with a compiled class, a source file, and a document whose entries have no names. -/
def shopProject : Session Unit := .onDisk (.dir [
    ("graph.yaml", .file (Text.Utf8.encode
      "classes:\n  shop.Order:\n    kind: RECORD\nsequences:\n  orders:\n    allocationSize: 5\n")
      false),
    ("out", .dir [("Order.class", .file (ClassFile.encode
      { ClassFile.ClassSpec.ofName "shop.Order" with
        annotations := [⟨"javax.persistence.SequenceGenerator", false, [("name", .text "orders")]⟩]
        fields := [⟨2, "id", "J", "", [⟨"javax.persistence.GeneratedValue", false,
          [("generator", .text "orders")]⟩]⟩] }) false)]),
    ("src", .dir [("main", .dir [("java", .dir [("Cart.java", .file (Text.Utf8.encode
      "package shop; class Cart {}") false)])])])])

theorem wellFormed_of_arises_shopProject : ∃ loaded built compiled s t,
    Graph.load shopProject.disk "/graph.yaml" = .ok loaded ∧
    Source.build "/" [] shopProject = (.ok built, s) ∧
    Scan.scanStructure ⟨"", "", ["/out"]⟩ [] shopProject = (.ok compiled, t) ∧
    (merge (some loaded) (some compiled)).withComponents.WellFormed ∧
    (merge (some built) (some (compiled.addGenerator ⟨"invoices", "", none, none⟩))).WellFormed := by
  have hread : (Graph.load shopProject.disk "/graph.yaml").toOption.any (fun _ => true) = true := by
    decide +kernel
  obtain ⟨loaded, hload, -⟩ := exists_eq_ok_of_any hread
  obtain ⟨built, s, hbuild⟩ := Act.exists_of_isOk (Source.build "/" []) shopProject
    (by decide +kernel)
  obtain ⟨compiled, t, hscan⟩ := Act.exists_of_isOk (Scan.scanStructure ⟨"", "", ["/out"]⟩ [])
    shopProject (by decide +kernel)
  refine ⟨loaded, built, compiled, s, t, hload, hbuild, hscan, ?_, ?_⟩
  · refine wellFormed_of_arises.1 _ (.annotate (.merge ?_ ?_) _)
    · rintro g ⟨⟩
      exact .of_load hload
    · rintro g ⟨⟩
      exact .scan hscan
  · refine wellFormed_of_arises.2 _ _ ?_ ?_
    · rintro g ⟨⟩
      exact wellFormed_of_arises.1 _ (.build hbuild)
    · rintro g ⟨⟩
      exact wellFormed_of_arises.1 _ (.addGenerator (.scan hscan) _)

end ClassGraph
end ClassAtlas
