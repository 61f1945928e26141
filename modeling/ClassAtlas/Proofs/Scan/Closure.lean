import ClassAtlas.ClassFile.Encode
import ClassAtlas.Proofs.Scan.Results

/-!
What a scan tells of a class is what the first class file of that name tells which takes part, in
every list of the graph: the class itself, its dependencies, its endpoints and the generators that
its fields use. So nothing is told of a class that is not there, and of one that is there the
dependencies can be read off again, each as often as it was found.
-/
namespace ClassAtlas

namespace Scan

open Classpath (ClassUnit Descriptor steps unitsOf)
open ClassFile (Member)

open ClassGraph in
/-- What a class adds to a graph goes to the ends of its lists. -/
theorem ClassFacts.addTo_eq (facts : ClassFacts) (g : ClassGraph) : ∃ classes generators,
    facts.addTo g =
      { g with
        classes
        generators
        generatorUses := g.generatorUses.append (facts.uses.filter (·.isWhole))
        endpoints := g.endpoints.append facts.endpoints
        dependencies := g.dependencies.append facts.dependencies } := by
  have hgenerators : ∀ (ds : List Graph.Generator) (g : ClassGraph), ∃ generators,
      ds.foldl addGenerator g = { g with generators } := by
    intro ds
    induction ds with
    | nil => exact fun g => ⟨g.generators, rfl⟩
    | cons d ds ih =>
      intro g
      rw [List.foldl_cons]
      unfold addGenerator
      split
      · exact ih g
      · exact ih _
  have hdependencies : ∀ g : ClassGraph, facts.dependencies.foldl addDependency g =
      { g with dependencies := g.dependencies.append facts.dependencies } := by
    intro g
    have h := foldl_addDependency id facts.dependencies g
    rwa [List.map_id] at h
  obtain ⟨classes, hclasses⟩ := g.addClass_eq facts.node
  unfold ClassFacts.addTo
  dsimp only
  rw [hclasses, hdependencies, foldl_addGeneratorUse]
  obtain ⟨generators, hgenerated⟩ := hgenerators facts.generators _
  rw [hgenerated, foldl_addEndpoint]
  exact ⟨classes, generators, rfl⟩

/-- What a class file adds to a graph, if its class has a name and takes part. -/
def factsNamed (f : Filter) (name : String) (u : ClassUnit) : Option ClassFacts :=
  (ClassFile.parse u.bytes).toOption.bind fun c =>
    if takesPart f c && c.header.name == name then some (classFacts c u.location) else none

/-- What the first class of a name that takes part adds to a graph. -/
def firstNamed (f : Filter) (units : List ClassUnit) (name : String) : Option ClassFacts :=
  units.findSome? (factsNamed f name)

theorem factsNamed_eq_some {f : Filter} {name : String} {u : ClassUnit} {facts : ClassFacts} :
    factsNamed f name u = some facts ↔ ∃ c, ClassFile.parse u.bytes = .ok c ∧
      takesPart f c = true ∧ c.header.name = name ∧ classFacts c u.location = facts := by
  unfold factsNamed
  cases ClassFile.parse u.bytes with
  | error fault => simp [Except.toOption]
  | ok c => simp [Except.toOption, and_assoc]

theorem exists_of_firstNamed {f : Filter} {units : List ClassUnit} {name : String}
    {facts : ClassFacts} (h : firstNamed f units name = some facts) : ∃ u ∈ units, ∃ c,
      ClassFile.parse u.bytes = .ok c ∧ takesPart f c = true ∧ c.header.name = name ∧
        classFacts c u.location = facts := by
  obtain ⟨u, hu, hfacts⟩ := List.exists_of_findSome?_eq_some h
  exact ⟨u, hu, factsNamed_eq_some.1 hfacts⟩

theorem contains_eq_isSome_firstNamed (f : Filter) (units : List ClassUnit) (name : String) :
    (structureOf f units).classMap.contains name = (firstNamed f units name).isSome := by
  rw [Bool.eq_iff_iff, contains_structureOf, firstNamed, List.findSome?_isSome_iff]
  refine exists_congr fun u => and_congr_right fun _ => ?_
  rw [Option.isSome_iff_exists]
  simp only [factsNamed_eq_some]
  constructor
  · rintro ⟨c, hc, hpart, hname⟩
    exact ⟨_, c, hc, hpart, hname, rfl⟩
  · rintro ⟨_, c, hc, hpart, hname, -⟩
    exact ⟨c, hc, hpart, hname⟩

/-- One more class file: it changes nothing, or it is the first of its name and brings its facts. -/
theorem structureOf_concat_cases (f : Filter) (units : List ClassUnit) (u : ClassUnit) :
    (structureOf f (units ++ [u]) = structureOf f units ∧
      firstNamed f (units ++ [u]) = firstNamed f units) ∨
    ∃ c, firstNamed f units c.header.name = none ∧ takesPart f c = true ∧
      structureOf f (units ++ [u]) = (classFacts c u.location).addTo (structureOf f units) ∧
      ∀ name, firstNamed f (units ++ [u]) name =
        if name = c.header.name then some (classFacts c u.location) else firstNamed f units name := by
  have hconcat : ∀ name, firstNamed f (units ++ [u]) name =
      (firstNamed f units name).or (factsNamed f name u) := by
    intro name
    rw [firstNamed, List.findSome?_append, List.findSome?_singleton]
    rfl
  rw [structureOf_concat]
  cases hparse : ClassFile.parse u.bytes with
  | error fault =>
    refine .inl ⟨addUnit_of_error hparse _, ?_⟩
    funext name
    rw [hconcat, factsNamed, hparse]
    exact Option.or_none
  | ok c =>
    have hfacts : ∀ name, factsNamed f name u =
        if takesPart f c && c.header.name == name then some (classFacts c u.location) else none := by
      intro name
      rw [factsNamed, hparse]
      rfl
    rw [addUnit_of_ok hparse, contains_eq_isSome_firstNamed]
    by_cases hpart : takesPart f c = true
    · cases hfirst : firstNamed f units c.header.name with
      | some facts =>
        refine .inl ⟨by simp, ?_⟩
        funext name
        rw [hconcat, hfacts, hpart]
        by_cases hname : c.header.name = name
        · rw [← hname, hfirst]
          rfl
        · simp [hname]
      | none =>
        refine .inr ⟨c, hfirst, hpart, by simp [hpart], ?_⟩
        intro name
        rw [hconcat, hfacts, hpart]
        by_cases hname : name = c.header.name
        · simp [hname, hfirst]
        · simp [hname, Ne.symm hname]
    · refine .inl ⟨by simp [hpart], ?_⟩
      funext name
      rw [hconcat, hfacts]
      simp [hpart]

theorem class?_structureOf (f : Filter) (units : List ClassUnit) (name : String) :
    (structureOf f units).class? name = (firstNamed f units name).map (·.node) := by
  induction units using List.reverseRecOn with
  | nil => rfl
  | append_singleton units u ih =>
    obtain ⟨hsame, hfirst⟩ | ⟨c, hnone, hpart, hadded, hfirst⟩ := structureOf_concat_cases f units u
    · rw [hsame, hfirst, ih]
    · rw [hadded, hfirst, ClassGraph.class?, ClassFacts.classMap_addTo,
        ClassGraph.classMap_addClass (ne_empty_of_takesPart hpart), KeyMap.get?_insert]
      change (if name = c.header.name then _ else (structureOf f units).class? name) = _
      rw [ih]
      split <;> rfl

/-- Where every class file brings items that belong to its class, the items of a class are those
that the first class file of its name brings. -/
theorem filter_structureOf {β : Type} (view : ClassGraph → List β) {part : ClassFacts → List β}
    {owner : β → String} (hempty : view .empty = [])
    (hadd : ∀ facts g, view (ClassFacts.addTo facts g) = view g ++ part facts)
    (howner : ∀ c location, ∀ b ∈ part (classFacts c location), owner b = c.header.name)
    (f : Filter) (units : List ClassUnit) (name : String) :
    (view (structureOf f units)).filter (owner · = name) = (firstNamed f units name).elim [] part := by
  induction units using List.reverseRecOn with
  | nil =>
    change (view .empty).filter _ = []
    rw [hempty]
    rfl
  | append_singleton units u ih =>
    obtain ⟨hsame, hfirst⟩ | ⟨c, hnone, -, hadded, hfirst⟩ := structureOf_concat_cases f units u
    · rw [hsame, hfirst, ih]
    · rw [hadded, hfirst, hadd, List.filter_append, ih]
      by_cases hname : name = c.header.name
      · subst hname
        rw [hnone, if_pos rfl, Option.elim_none, List.nil_append, Option.elim_some, List.filter_eq_self]
        intro b hb
        exact decide_eq_true (howner c u.location b hb)
      · have hothers : (part (classFacts c u.location)).filter (owner · = name) = [] := by
          rw [List.filter_eq_nil_iff]
          intro b hb
          rw [howner c u.location b hb]
          simpa using Ne.symm hname
        rw [if_neg hname, hothers, List.append_nil]

/-- The dependency on a superclass. -/
def extension (c : Graph.Class) : List Graph.Dependency :=
  if c.superClass.isEmpty then [] else [⟨c.name, c.superClass, .extends, "extends"⟩]

/-- The dependencies on interfaces. -/
def implementations (c : Graph.Class) : List Graph.Dependency :=
  c.interfaces.items.map fun i => ⟨c.name, i, .implements, "implements"⟩

/-- The dependencies on what is injected. -/
def injections (c : Graph.Class) : List Graph.Dependency :=
  (c.fields.items.filter (·.injected)).filterMap fun f =>
    if (Graph.normalizeType f.type).isEmpty then none
    else some ⟨c.name, Graph.normalizeType f.type, .injection, f.name⟩

theorem classDependencies_eq (c : Graph.Class) :
    classDependencies c = extension c ++ implementations c ++ injections c := rfl

theorem mem_extension {c : Graph.Class} {d : Graph.Dependency} (h : d ∈ extension c) :
    d.source = c.name ∧ d.kind = .extends := by
  unfold extension at h
  split at h
  · cases h
  · rw [List.mem_singleton.1 h]
    exact ⟨rfl, rfl⟩

theorem mem_implementations {c : Graph.Class} {d : Graph.Dependency} (h : d ∈ implementations c) :
    d.source = c.name ∧ d.kind = .implements := by
  obtain ⟨i, -, rfl⟩ := List.mem_map.1 h
  exact ⟨rfl, rfl⟩

theorem mem_injections {c : Graph.Class} {d : Graph.Dependency} (h : d ∈ injections c) :
    d.source = c.name ∧ d.kind = .injection := by
  obtain ⟨f, -, hf⟩ := List.mem_filterMap.1 h
  split at hf
  · cases hf
  · cases hf
    exact ⟨rfl, rfl⟩

theorem mem_classDependencies {c : Graph.Class} {d : Graph.Dependency}
    (h : d ∈ classDependencies c) : d.source = c.name ∧
      (d.kind = .extends ∨ d.kind = .implements ∨ d.kind = .injection) := by
  rw [classDependencies_eq, List.mem_append, List.mem_append] at h
  obtain (h | h) | h := h
  · exact ⟨(mem_extension h).1, .inl (mem_extension h).2⟩
  · exact ⟨(mem_implementations h).1, .inr (.inl (mem_implementations h).2)⟩
  · exact ⟨(mem_injections h).1, .inr (.inr (mem_injections h).2)⟩

/-- The targets and labels of the dependencies of a kind. -/
def targetsOfKind (kind : Graph.DependencyKind) (ds : List Graph.Dependency) : List (String × String) :=
  (ds.filter (·.kind = kind)).map fun d => (d.target, d.label)

theorem targetsOfKind_append (kind : Graph.DependencyKind) (ds es : List Graph.Dependency) :
    targetsOfKind kind (ds ++ es) = targetsOfKind kind ds ++ targetsOfKind kind es := by
  simp [targetsOfKind]

theorem targetsOfKind_eq {kind : Graph.DependencyKind} {ds : List Graph.Dependency}
    (h : ∀ d ∈ ds, d.kind = kind) (other : Graph.DependencyKind) : targetsOfKind other ds =
      if kind = other then ds.map fun d => (d.target, d.label) else [] := by
  unfold targetsOfKind
  split
  · next heq =>
    rw [List.filter_eq_self.2 fun d hd => decide_eq_true ((h d hd).trans heq)]
  · next hne =>
    rw [List.filter_eq_nil_iff.2 fun d hd => by simpa [h d hd] using hne, List.map_nil]

theorem targetsOfKind_classDependencies (c : Graph.Class) (kind : Graph.DependencyKind) :
    targetsOfKind kind (classDependencies c) =
      (if .extends = kind then [(c.superClass, "extends")].filter (·.1 ≠ "") else []) ++
      (if .implements = kind then c.interfaces.items.map (·, "implements") else []) ++
      if .injection = kind then ((c.fields.items.filter (·.injected)).map fun f =>
        (Graph.normalizeType f.type, f.name)).filter (·.1 ≠ "") else [] := by
  have hextension : (extension c).map (fun d => (d.target, d.label)) =
      [(c.superClass, "extends")].filter (·.1 ≠ "") := by
    by_cases hempty : c.superClass = "" <;> simp [extension, hempty]
  have himplementations : (implementations c).map (fun d => (d.target, d.label)) =
      c.interfaces.items.map (·, "implements") := by
    rw [implementations, List.map_map]
    rfl
  have hinjections : (injections c).map (fun d => (d.target, d.label)) =
      ((c.fields.items.filter (·.injected)).map fun f =>
        (Graph.normalizeType f.type, f.name)).filter (·.1 ≠ "") := by
    unfold injections
    generalize c.fields.items.filter (·.injected) = fields
    induction fields with
    | nil => rfl
    | cons f fields ih =>
      by_cases hempty : Graph.normalizeType f.type = "" <;> simp_all
  rw [classDependencies_eq, targetsOfKind_append, targetsOfKind_append,
    targetsOfKind_eq fun _ h => (mem_extension h).2,
    targetsOfKind_eq fun _ h => (mem_implementations h).2,
    targetsOfKind_eq fun _ h => (mem_injections h).2, hextension, himplementations, hinjections]

theorem controllerClass_of_mem_endpoints {c : ClassFile.Class} {e : Graph.Endpoint}
    (h : e ∈ endpoints c) : e.controllerClass = c.header.name := by
  obtain ⟨m, -, h⟩ := List.mem_flatMap.1 h
  simp only [methodEndpoints] at h
  split at h
  · obtain ⟨path, -, rfl⟩ := List.mem_map.1 h
    rfl
  · split at h
    · rw [List.mem_singleton.1 h]
    · split at h
      · rw [List.mem_singleton.1 h]
      · cases h

/-- A generator's use is noted for the class and for a field that was written by hand. -/
theorem mem_generatorUses {c : ClassFile.Class} {u : Graph.GeneratorUse} (h : u ∈ generatorUses c) :
    u.className = c.header.name ∧ ∃ m ∈ declaredFields c, m.name = u.fieldName := by
  obtain ⟨m, hm, h⟩ := List.mem_flatMap.1 h
  obtain ⟨a, -, h⟩ := List.mem_filterMap.1 h
  obtain ⟨generator, -, rfl⟩ := Option.map_eq_some_iff.1 h
  exact ⟨rfl, m, hm, rfl⟩

/-- What a graph tells of a class is what the first class file of its name brought. -/
theorem lists_structureOf (f : Filter) (units : List ClassUnit) (name : String) :
    ((structureOf f units).dependencies.items.filter (·.source = name) =
      (firstNamed f units name).elim [] (·.dependencies)) ∧
    ((structureOf f units).endpoints.items.filter (·.controllerClass = name) =
      (firstNamed f units name).elim [] (·.endpoints)) ∧
    (structureOf f units).generatorUses.items.filter (·.className = name) =
      (firstNamed f units name).elim [] fun facts => facts.uses.filter (·.isWhole) := by
  refine ⟨?_, ?_, ?_⟩
  · refine filter_structureOf (·.dependencies.items) rfl ?_ ?_ f units name
    · intro facts g
      obtain ⟨_, _, h⟩ := facts.addTo_eq g
      rw [h, Listing.items_append]
    · exact fun c location d hd => (mem_classDependencies hd).1
  · refine filter_structureOf (·.endpoints.items) rfl ?_ ?_ f units name
    · intro facts g
      obtain ⟨_, _, h⟩ := facts.addTo_eq g
      rw [h, Listing.items_append]
    · exact fun c location e he => controllerClass_of_mem_endpoints he
  · refine filter_structureOf (·.generatorUses.items) rfl ?_ ?_ f units name
    · intro facts g
      obtain ⟨_, _, h⟩ := facts.addTo_eq g
      rw [h, Listing.items_append]
    · exact fun c location u hu => (mem_generatorUses (List.mem_filter.1 hu).1).1

/-- What a graph tells was brought by the first class file of the name that it belongs to. -/
theorem exists_of_mem {f : Filter} {units : List ClassUnit} {β : Type} {items : List β}
    {owner : β → String} {part : ClassFacts → List β}
    (h : ∀ name, items.filter (owner · = name) = (firstNamed f units name).elim [] part) {b : β}
    (hb : b ∈ items) : ∃ facts, firstNamed f units (owner b) = some facts ∧ b ∈ part facts := by
  have hmem : b ∈ items.filter (owner · = owner b) := by simpa using hb
  rw [h] at hmem
  cases hfirst : firstNamed f units (owner b) with
  | none =>
    rw [hfirst] at hmem
    cases hmem
  | some facts =>
    rw [hfirst] at hmem
    exact ⟨facts, rfl, hmem⟩

/-- The targets of the dependencies of a kind that start at a class, with their labels, in order. -/
def edgesFrom (g : ClassGraph) (source : String) (kind : Graph.DependencyKind) :
    List (String × String) :=
  targetsOfKind kind (g.dependencies.items.filter (·.source = source))

/-- A graph tells of the class files of a scan: each of its classes is that of a class file which
takes part, nothing is told of other classes, and the dependencies of a class are those on what it
extends, on what it implements and on what is injected, each as often as the class has it. -/
structure Closed (f : Filter) (units : List ClassUnit) (g : ClassGraph) : Prop where
  classes : ∀ name c, g.class? name = some c → f.accepts name = true ∧ isAnonymous name = false ∧
    ∃ u ∈ units, ∃ file, ClassFile.parse u.bytes = .ok file ∧
      ClassFile.Access.has file.header.access ClassFile.Access.annotationType = false ∧
      ClassFile.Access.has file.header.access ClassFile.Access.synthetic = false ∧
      file.header.name = name ∧ c = classNode file u.location ∧
      g.endpoints.items.filter (·.controllerClass = name) = endpoints file ∧
      g.generatorUses.items.filter (·.className = name) =
        (generatorUses file).filter (·.isWhole)
  complete : ∀ u ∈ units, ∀ file, ClassFile.parse u.bytes = .ok file → takesPart f file = true →
    g.classMap.contains file.header.name = true
  sources : ∀ d ∈ g.dependencies.items, g.classMap.contains d.source = true
  controllers : ∀ e ∈ g.endpoints.items, g.classMap.contains e.controllerClass = true
  uses : ∀ u ∈ g.generatorUses.items, ∃ c, g.class? u.className = some c ∧
    ∃ field ∈ c.fields.items, field.name = u.fieldName
  kinds : ∀ d ∈ g.dependencies.items,
    d.kind = .extends ∨ d.kind = .implements ∨ d.kind = .injection
  edges : ∀ name c, g.class? name = some c →
    edgesFrom g name .extends = [(c.superClass, "extends")].filter (·.1 ≠ "") ∧
    edgesFrom g name .implements = c.interfaces.items.map (·, "implements") ∧
    edgesFrom g name .injection = ((c.fields.items.filter (·.injected)).map fun f =>
      (Graph.normalizeType f.type, f.name)).filter (·.1 ≠ "")

theorem closed_structureOf (f : Filter) (units : List ClassUnit) :
    Closed f units (structureOf f units) := by
  have hlists := lists_structureOf f units
  have hfirst : ∀ name c, (structureOf f units).class? name = some c →
      ∃ facts, firstNamed f units name = some facts ∧ facts.node = c := by
    intro name c hc
    rw [class?_structureOf] at hc
    exact Option.map_eq_some_iff.1 hc
  have hcontains : ∀ name facts, firstNamed f units name = some facts →
      (structureOf f units).classMap.contains name = true := by
    intro name facts h
    rw [contains_eq_isSome_firstNamed, h]
    rfl
  have hedges : ∀ name c, (structureOf f units).class? name = some c → ∀ kind,
      edgesFrom (structureOf f units) name kind = targetsOfKind kind (classDependencies c) := by
    intro name c hc kind
    obtain ⟨facts, hfacts, rfl⟩ := hfirst name c hc
    obtain ⟨u, -, file, -, -, -, rfl⟩ := exists_of_firstNamed hfacts
    rw [edgesFrom, (hlists name).1, hfacts]
    rfl
  refine ⟨?_, ?_, ?_, ?_, ?_, ?_, ?_⟩
  · intro name c hc
    obtain ⟨facts, hfacts, rfl⟩ := hfirst name c hc
    obtain ⟨u, hu, file, hfile, hpart, rfl, rfl⟩ := exists_of_firstNamed hfacts
    obtain ⟨-, hendpoints, huses⟩ := hlists file.header.name
    rw [hfacts] at hendpoints huses
    simp only [takesPart, Bool.and_eq_true, Bool.not_eq_true'] at hpart
    obtain ⟨⟨⟨htype, hsynthetic⟩, hanonymous⟩, haccepts⟩ := hpart
    exact ⟨haccepts, hanonymous, u, hu, file, hfile, htype, hsynthetic, rfl, rfl, hendpoints,
      huses⟩
  · intro u hu file hfile hpart
    exact (contains_structureOf f units _).2 ⟨u, hu, file, hfile, hpart, rfl⟩
  · intro d hd
    obtain ⟨facts, hfacts, -⟩ := exists_of_mem (fun name => (hlists name).1) hd
    exact hcontains _ facts hfacts
  · intro e he
    obtain ⟨facts, hfacts, -⟩ := exists_of_mem (fun name => (hlists name).2.1) he
    exact hcontains _ facts hfacts
  · intro v hv
    obtain ⟨facts, hfacts, hv⟩ := exists_of_mem (fun name => (hlists name).2.2) hv
    obtain ⟨u, -, file, -, -, -, rfl⟩ := exists_of_firstNamed hfacts
    obtain ⟨-, m, hm, hname⟩ := mem_generatorUses (List.mem_filter.1 hv).1
    refine ⟨classNode file u.location, ?_, fieldOf m, List.mem_map_of_mem hm, hname⟩
    rw [class?_structureOf, hfacts]
    rfl
  · intro d hd
    obtain ⟨facts, hfacts, hd⟩ := exists_of_mem (fun name => (hlists name).1) hd
    obtain ⟨u, -, file, -, -, -, rfl⟩ := exists_of_firstNamed hfacts
    exact (mem_classDependencies hd).2
  · intro name c hc
    simp only [hedges name c hc, targetsOfKind_classDependencies]
    simp [Graph.DependencyKind.extends, Graph.DependencyKind.implements,
      Graph.DependencyKind.injection]

/-- In every scan for structure, the graph tells of the class files that take part and of nothing
else, and the dependencies of a class can be read off from it. -/
theorem scan_is_closed : (∀ f units, Closed f units (structureOf f units)) ∧
    ∀ {σ : Type} (desc : Descriptor) (packages : List String) (g : ClassGraph) (s s' : Session σ),
      scanStructure desc packages s = (.ok g, s') →
        Closed (.ofPackages packages) (unitsOf (steps s.disk desc.entries)) g := by
  refine ⟨closed_structureOf, ?_⟩
  intro σ desc packages g s s' h
  rw [scanStructure_eq_ok h]
  exact closed_structureOf _ _

/-- A class with a superclass, an interface that it names twice, and two injected fields of which one
is a number; a nameless class inside it, a second class of its name, and one of another package. -/
def orderClasses : Session Unit :=
  let injected := [⟨"javax.inject.Inject", false, []⟩]
  let used := [⟨"javax.persistence.GeneratedValue", false, [("generator", .text "orders")]⟩]
  .onDisk (.dir [("out", .dir [
    ("A.class", .file (ClassFile.encode { ClassFile.ClassSpec.ofName "shop.Order" with
      superName := "shop.Base"
      interfaces := ["shop.Priced", "shop.Priced"]
      fields := [⟨2, "cart", "Lshop/Cart;", "", injected⟩, ⟨2, "id", "J", "", injected ++ used⟩]
      methods := [⟨1, "list", "()V", [⟨requestMapping, false, []⟩], []⟩] }) false),
    ("B.class", .file (ClassFile.encode (.ofName "shop.Order$1")) false),
    ("C.class", .file (ClassFile.encode { ClassFile.ClassSpec.ofName "shop.Order" with
      superName := "shop.Other" }) false),
    ("D.class", .file (ClassFile.encode (.ofName "stock.Item")) false)])])

theorem scan_is_closed_orderClasses : ∃ g s,
    scanStructure ⟨"", "", ["/out"]⟩ ["shop"] orderClasses = (.ok g, s) ∧
    (g.classNames = ["shop.Order"] ∧ g.endpoints.items.length = 1 ∧
      g.generatorUses.items = [⟨"shop.Order", "id", "orders"⟩] ∧
      g.dependencies.items = [⟨"shop.Order", "shop.Base", .extends, "extends"⟩,
        ⟨"shop.Order", "shop.Priced", .implements, "implements"⟩,
        ⟨"shop.Order", "shop.Priced", .implements, "implements"⟩,
        ⟨"shop.Order", "shop.Cart", .injection, "cart"⟩]) ∧
    Closed (.ofPackages ["shop"]) (unitsOf (steps orderClasses.disk ["/out"])) g := by
  have hscan : (scanStructure ⟨"", "", ["/out"]⟩ ["shop"] orderClasses).1.toOption.any (fun g =>
      decide (g.classNames = ["shop.Order"] ∧ g.endpoints.items.length = 1 ∧
        g.generatorUses.items = [⟨"shop.Order", "id", "orders"⟩] ∧
        g.dependencies.items = [⟨"shop.Order", "shop.Base", .extends, "extends"⟩,
          ⟨"shop.Order", "shop.Priced", .implements, "implements"⟩,
          ⟨"shop.Order", "shop.Priced", .implements, "implements"⟩,
          ⟨"shop.Order", "shop.Cart", .injection, "cart"⟩])) = true := by
    decide +kernel
  obtain ⟨g, s, hg, hfound⟩ := Act.exists_ok_of_any _ _ _ hscan
  exact ⟨g, s, hg, of_decide_eq_true hfound, scan_is_closed.2 _ _ g _ s hg⟩

end Scan
end ClassAtlas
