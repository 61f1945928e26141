import ClassAtlas.Classpath.Descriptor
import ClassAtlas.Graph.Basic
import ClassAtlas.Scan.Endpoint
import ClassAtlas.Scan.Vocabulary

/-!
The structure of compiled classes: for each class that takes part, the class itself, what it depends
on, the generators it declares and uses, and its endpoints. Of classes with one name the first one
counts, and a class file that cannot be read counts for nothing.
-/
namespace ClassAtlas.Scan

open ClassFile (AnnotationUse Member)
open Classpath (ClassUnit Descriptor)

/-- What one compiled class adds to a graph. -/
structure ClassFacts where
  node : Graph.Class
  dependencies : List Graph.Dependency
  uses : List Graph.GeneratorUse
  generators : List Graph.Generator
  endpoints : List Graph.Endpoint
  /-- Injected fields whose type points at no class. -/
  untargeted : List Graph.Field

/-- The superclass, unless it is the root that every class has. -/
def namedSuperClass (name : String) : String := if name == "java.lang.Object" then "" else name

def classKind (c : ClassFile.Class) : Graph.ClassKind :=
  if ClassFile.Access.has c.header.access ClassFile.Access.interface then .interface
  else if ClassFile.Access.has c.header.access ClassFile.Access.enum then .enum
  else if c.isRecord then .record
  else .class

/-- The first table name that is not blank. -/
def tableName? (annotations : List AnnotationUse) : Option String :=
  (annotations.filter (isTable ·.type)).findSome? (·.text? "name")

def fieldOf (m : Member) : Graph.Field :=
  let annotations := m.annotations.map (·.type)
  { name := m.name, type := m.typeName, annotations := some annotations
    injected := annotations.any isInjection
    relationship := annotations.any isRelationship }

/-- The fields that were written by hand. -/
def declaredFields (c : ClassFile.Class) : List Member :=
  c.fields.filter fun m => !ClassFile.Access.has m.access ClassFile.Access.synthetic

def classNode (c : ClassFile.Class) (location : String) : Graph.Class :=
  let annotations := c.attributes.annotations.map (·.type)
  let tags := stereotypes annotations
  let entity := annotations.any isEntity
  { name := c.header.name
    packageName := Graph.packageOf c.header.name
    simpleName := Graph.simpleName c.header.name
    kind := classKind c
    superClass := namedSuperClass c.header.superName
    interfaces := some c.header.interfaces
    annotations := some annotations
    stereotypes := some (if isBeanFactory c && !tags.contains beanFactoryTag
      then tags ++ [beanFactoryTag] else tags)
    fields := some ((declaredFields c).map fieldOf)
    entity
    tableName := if entity then tableName? c.attributes.annotations else none
    origin := .bytecode
    component := none
    inCycle := false
    location
    injectionTarget := isInjectionTarget tags }

/-- The dependencies of a class on what it extends, what it implements, and what is injected. -/
def classDependencies (c : Graph.Class) : List Graph.Dependency :=
  (if c.superClass.isEmpty then [] else [⟨c.name, c.superClass, .extends, "extends"⟩]) ++
    c.interfaces.items.map (fun i => ⟨c.name, i, .implements, "implements"⟩) ++
    (c.fields.items.filter (·.injected)).filterMap fun f =>
      let target := Graph.normalizeType f.type
      if target.isEmpty then none else some ⟨c.name, target, .injection, f.name⟩

/-- The generators that the fields of a class use. -/
def generatorUses (c : ClassFile.Class) : List Graph.GeneratorUse :=
  (declaredFields c).flatMap fun m =>
    (m.annotations.filter (isGeneratedValue ·.type)).filterMap fun a =>
      (a.text? "generator").map (⟨c.header.name, m.name, ·⟩)

/-- The generators that a class declares; one without a name is none. -/
def generators (c : ClassFile.Class) : List Graph.Generator :=
  (c.attributes.annotations.filter (isGenerator ·.type)).filterMap fun a =>
    (a.text? "name").map fun name =>
      ⟨name, (a.text? "sequenceName").getD "", a.int? "allocationSize", a.int? "initialValue"⟩

def classFacts (c : ClassFile.Class) (location : String) : ClassFacts :=
  let node := classNode c location
  { node
    dependencies := classDependencies node
    uses := generatorUses c
    generators := generators c
    endpoints := endpoints c
    untargeted := node.fields.items.filter fun f =>
      f.injected && (Graph.normalizeType f.type).isEmpty }

def ClassFacts.addTo (f : ClassFacts) (g : ClassGraph) : ClassGraph :=
  let g := g.addClass f.node
  let g := f.dependencies.foldl ClassGraph.addDependency g
  let g := f.uses.foldl ClassGraph.addGeneratorUse g
  let g := f.generators.foldl ClassGraph.addGenerator g
  f.endpoints.foldl ClassGraph.addEndpoint g

/-- Whether a class takes part: types of annotations, classes that a compiler made, nameless ones and
those that the filter rejects do not. -/
def takesPart (f : Filter) (c : ClassFile.Class) : Bool :=
  !ClassFile.Access.has c.header.access ClassFile.Access.annotationType &&
    !ClassFile.Access.has c.header.access ClassFile.Access.synthetic &&
    !isAnonymous c.header.name && f.accepts c.header.name

/-- A scan under way. -/
structure Progress where
  graph : ClassGraph
  skipped : Nat

/-- What one class file does to a scan, and what is reported about it. -/
def Progress.add (f : Filter) (p : Progress) (u : ClassUnit) : Progress × List Log.Record :=
  match ClassFile.parse u.bytes with
  | .error fault =>
    ({ p with skipped := p.skipped + 1 }, [Log.warn "Skipping undecodable class"
      [("entry", .text u.name), ("location", .text u.location), ("error", .failure fault.message)]])
  | .ok c =>
    if !takesPart f c then (p, [])
    else if p.graph.classMap.contains c.header.name then
      (p, [Log.debug "Duplicate class ignored"
        [("class", .text c.header.name), ("location", .text u.location)]])
    else
      let facts := classFacts c u.location
      ({ p with graph := facts.addTo p.graph }, facts.untargeted.map fun f =>
        Log.debug "Injected field has no class target"
          [("class", .text c.header.name), ("field", .text f.name), ("type", .text f.type)])

/-- The graph of some class files, in order. -/
def structureOf (f : Filter) (units : List ClassUnit) : ClassGraph :=
  (units.foldl (fun (p : Progress) u => (p.add f u).1) ⟨.empty, 0⟩).graph

/-- Scan a classpath for the structure of its classes. -/
def scanStructure (desc : Descriptor) (packages : List String) : Act σ ClassGraph := do
  let f := Filter.ofPackages packages
  let p ← Classpath.walk desc (fun (p : Progress) u => do
    let (p, notes) := p.add f u
    Act.logAll notes
    return p) ⟨.empty, 0⟩
  Act.log (Log.info "Structural scan complete"
    [("classes", Log.count p.graph.classMap.size),
      ("endpoints", Log.count p.graph.endpoints.items.length),
      ("sequences", Log.count p.graph.generatorMap.size),
      ("skipped", Log.count p.skipped)])
  return p.graph

end ClassAtlas.Scan
