import ClassAtlas.Proofs.Graph.Merge

/-!
Two facts of a class that follow from others: whether it can be injected, from its tags, and that it
has a table, from its being an entity. Both are worked out when a class is made. What adds a tag or a
table to a class afterwards does not work them out again: the search for methods that make beans, and
joining a class of the sources to a compiled one.
-/
namespace ClassAtlas

theorem Listing.mem_appendUnique {α : Type} [DecidableEq α] (l : Listing α) (add : List α) (a : α) :
    a ∈ (l.appendUnique add).items ↔ a ∈ l.items ∨ a ∈ add := by
  induction add generalizing l with
  | nil => simp [appendUnique]
  | cons b add ih =>
    change a ∈ ((if b ∈ l.items then l else l.push b).appendUnique add).items ↔ _
    rw [ih]
    split
    · grind
    · simp only [push, items_some]
      grind

namespace Scan

theorem isInjectionTarget_iff (tags : List String) :
    isInjectionTarget tags = true ↔ ∃ tag ∈ tags, tag ≠ controllerTag := by
  simp [isInjectionTarget]

theorem isInjectionTarget_appendUnique (l : Listing String) (add : List String) :
    isInjectionTarget (l.appendUnique add).items =
      (isInjectionTarget l.items || isInjectionTarget add) := by
  rw [Bool.eq_iff_iff, Bool.or_eq_true]
  simp only [isInjectionTarget_iff, Listing.mem_appendUnique]
  grind

/-- No annotation of a class gives it the tag for methods that make beans. -/
theorem beanFactoryTag_not_mem_stereotypes (annotations : List String) :
    beanFactoryTag ∉ stereotypes annotations := by
  rw [stereotypes, Listing.mem_appendUnique]
  intro h
  obtain ⟨name, -, htag⟩ := List.mem_filterMap.1 (h.resolve_left List.not_mem_nil)
  unfold stereotype? at htag
  split at htag <;> simp [beanFactoryTag, controllerTag] at htag

end Scan

namespace Graph.Class

/-- Whether a class can be injected is what its tags say. -/
def FlagFollowsTags (c : Graph.Class) : Prop :=
  c.injectionTarget = Scan.isInjectionTarget c.stereotypes.items

/-- Only an entity has a table. -/
def TableOfEntity (c : Graph.Class) : Prop := c.tableName.isSome = true → c.entity = true

instance (c : Graph.Class) : Decidable c.FlagFollowsTags :=
  inferInstanceAs (Decidable (_ = _))

instance (c : Graph.Class) : Decidable c.TableOfEntity :=
  inferInstanceAs (Decidable (_ → _))

/-- A table that was looked for only in an entity. -/
theorem tableOfEntity_of_eq {c : Graph.Class} {table : Option String}
    (h : c.tableName = if c.entity then table else none) : c.TableOfEntity := by
  intro htable
  by_contra hentity
  rw [h, if_neg hentity] at htable
  cases htable

end Graph.Class

namespace Scan

/-- The tags that a compiled class had when it was made are those it has later, less the one for
methods that make beans. -/
theorem injectionTarget_classNode (c : ClassFile.Class) (location : String) :
    (classNode c location).injectionTarget = isInjectionTarget
      ((classNode c location).stereotypes.items.filter (· != beanFactoryTag)) := by
  have hfresh := beanFactoryTag_not_mem_stereotypes (c.attributes.annotations.map (·.type))
  have hkeep : (stereotypes (c.attributes.annotations.map (·.type))).filter (· != beanFactoryTag) =
      stereotypes (c.attributes.annotations.map (·.type)) := by
    rw [List.filter_eq_self]
    intro tag htag
    exact bne_iff_ne.2 fun heq => hfresh (heq ▸ htag)
  simp only [classNode, Listing.items_some]
  split
  · rw [List.filter_append, hkeep]
    simp
  · rw [hkeep]

/-- A flag that was set before the tag for methods that make beans was added follows from the tags
unless that tag alone would have set it. -/
theorem flagFollowsTags_iff {c : Graph.Class} (h : c.injectionTarget =
      isInjectionTarget (c.stereotypes.items.filter (· != beanFactoryTag))) :
    c.FlagFollowsTags ↔ (beanFactoryTag ∈ c.stereotypes.items → c.injectionTarget = true) := by
  have hdiffer : beanFactoryTag ≠ controllerTag := by decide
  rw [Bool.eq_iff_iff, isInjectionTarget_iff] at h
  simp only [List.mem_filter, bne_iff_ne] at h
  rw [Graph.Class.FlagFollowsTags, Bool.eq_iff_iff, isInjectionTarget_iff]
  constructor
  · intro hfollows hmem
    exact hfollows.2 ⟨beanFactoryTag, hmem, hdiffer⟩
  · intro hset
    grind

/-- What holds of every compiled class that is made holds of all classes of a scan. -/
theorem all_structureOf {P : Graph.Class → Prop} (h : ∀ c location, P (classNode c location))
    (f : Filter) (units : List Classpath.ClassUnit) :
    (structureOf f units).classMap.All fun _ c => P c := by
  refine structureOf_induction (P := fun g => g.classMap.All fun _ c => P c) (KeyMap.all_empty _) ?_
  intro g u _ c _ hpart _ hg
  rw [ClassFacts.classMap_addTo, ClassGraph.classMap_addClass (ne_empty_of_takesPart hpart)]
  exact hg.insert (h c u.location)

end Scan

namespace Source

theorem exists_classOf_of_mem {text : String} {c : Graph.Class} (h : c ∈ classes text) :
    ∃ s t, c = classOf s t := by
  obtain ⟨item, -, hitem⟩ := List.mem_filterMap.1 h
  cases item with
  | packageName name => cases hitem
  | importText text => cases hitem
  | type t =>
    obtain ⟨-, hmade⟩ := Option.ite_none_left_eq_some.1 hitem
    exact ⟨_, t, (Option.some.inj hmade).symm⟩

/-- What holds of every class that is made from a declaration holds of all classes of the sources. -/
theorem all_build {σ : Type} {P : Graph.Class → Prop} (hclass : ∀ s t, P (classOf s t))
    {root : String} {packages : List String} {g : ClassGraph} {s s' : Session σ}
    (h : build root packages s = (.ok g, s')) : g.classMap.All fun _ c => P c := by
  refine build_induction (P := fun g => g.classMap.All fun _ c => P c) (KeyMap.all_empty _) ?_ h
  intro g text c hc hg
  obtain ⟨scope, t, rfl⟩ := exists_classOf_of_mem hc
  unfold ClassGraph.addClass
  split
  · exact hg
  · exact hg.insert (hclass scope t)

end Source

namespace ClassGraph

open Graph.Class (FlagFollowsTags TableOfEntity)

theorem flagFollowsTags_mergeClass (compiled source : Graph.Class) :
    FlagFollowsTags (mergeClass compiled source) ↔ compiled.injectionTarget =
      (Scan.isInjectionTarget compiled.stereotypes.items ||
        Scan.isInjectionTarget source.stereotypes.items) := by
  rw [← Scan.isInjectionTarget_appendUnique]
  rfl

theorem tableOfEntity_mergeClass (compiled source : Graph.Class) :
    TableOfEntity (mergeClass compiled source) ↔
      (compiled.tableName.isSome = true ∨ source.tableName.isSome = true →
        compiled.entity = true) := by
  rw [← Bool.or_eq_true, ← Option.isSome_or]
  rfl

/-- In classes built from sources both facts hold. In scanned ones the table is that of an entity, but
the flag follows from the tags less the one for methods that make beans. A class that one side of two
joined graphs has is left as it is, and one that both have keeps flag and entity of the compiled
side, whatever tags and table the sources add to it. -/
theorem derived_facts_of_classes {σ : Type} :
    (∀ root packages g (s s' : Session σ), Source.build root packages s = (.ok g, s') →
      ∀ key c, g.class? key = some c → c.FlagFollowsTags ∧ c.TableOfEntity) ∧
    (∀ desc packages g (s s' : Session σ), Scan.scanStructure desc packages s = (.ok g, s') →
      ∀ key c, g.class? key = some c → c.TableOfEntity ∧
        c.injectionTarget = Scan.isInjectionTarget
          (c.stereotypes.items.filter (· != Scan.beanFactoryTag)) ∧
        (c.FlagFollowsTags ↔
          (Scan.beanFactoryTag ∈ c.stereotypes.items → c.injectionTarget = true))) ∧
    ∀ source compiled, Arises source → Arises compiled → ∀ key,
      (∀ b, compiled.class? key = some b → source.class? key = none →
        (merge (some source) (some compiled)).class? key = some b) ∧
      (∀ s, compiled.class? key = none → source.class? key = some s →
        (merge (some source) (some compiled)).class? key = some { s with origin := .source }) ∧
      ∀ b s, compiled.class? key = some b → source.class? key = some s →
        ∃ c, (merge (some source) (some compiled)).class? key = some c ∧
          (c.FlagFollowsTags ↔ b.injectionTarget =
            (Scan.isInjectionTarget b.stereotypes.items ||
              Scan.isInjectionTarget s.stereotypes.items)) ∧
          (c.TableOfEntity ↔
            (b.tableName.isSome = true ∨ s.tableName.isSome = true → b.entity = true)) := by
  refine ⟨?_, ?_, ?_⟩
  · intro root packages g s s' h key c hc
    refine (Source.all_build (P := fun c => c.FlagFollowsTags ∧ c.TableOfEntity) ?_ h).of_get? hc
    exact fun scope t => ⟨rfl, Graph.Class.tableOfEntity_of_eq rfl⟩
  · intro desc packages g s s' h key c hc
    rw [Scan.scanStructure_eq_ok h] at hc
    obtain ⟨htable, hflag⟩ := (Scan.all_structureOf (P := fun c => c.TableOfEntity ∧
      c.injectionTarget = Scan.isInjectionTarget
        (c.stereotypes.items.filter (· != Scan.beanFactoryTag)))
      (fun c location => ⟨Graph.Class.tableOfEntity_of_eq rfl,
        Scan.injectionTarget_classNode c location⟩) _ _).of_get? hc
    exact ⟨htable, hflag, Scan.flagFollowsTags_iff hflag⟩
  · intro source compiled hsource hcompiled key
    have hjoined := class?_merge hsource.wellFormed hcompiled.wellFormed key
    refine ⟨?_, ?_, ?_⟩
    · intro b hb hs
      rw [hjoined, hs, hb]
      rfl
    · intro s hb hs
      rw [hjoined, hs, hb]
      rfl
    · intro b s hb hs
      refine ⟨mergeClass b s, ?_, flagFollowsTags_mergeClass b s, tableOfEntity_mergeClass b s⟩
      rw [hjoined, hs, hb]
      rfl

/-- A compiled class that makes beans, and one whose sources say more than it was compiled from. -/
def beanProject : Session Unit := .onDisk (.dir [
    ("out", .dir [
      ("Beans.class", .file (ClassFile.encode { ClassFile.ClassSpec.ofName "shop.Beans" with
        methods := [⟨1, "clock", "()V", [⟨Scan.beanFactory, false, []⟩], []⟩] }) false),
      ("Order.class", .file (ClassFile.encode (.ofName "shop.Order")) false)]),
    ("src", .dir [("main", .dir [("java", .dir [("Order.java", .file (Text.Utf8.encode
      "package shop; @org.springframework.stereotype.Service @javax.persistence.Entity
      @javax.persistence.Table(name = \"orders\") class Order \x7b\x7d") false)])])])])

theorem exists_beanProject : ∃ compiled source beans plain order s t,
    Scan.scanStructure ⟨"", "", ["/out"]⟩ [] beanProject = (.ok compiled, s) ∧
    Source.build "/" [] beanProject = (.ok source, t) ∧
    (compiled.class? "shop.Beans" = some beans ∧ source.class? "shop.Beans" = none ∧
      compiled.class? "shop.Order" = some plain ∧ source.class? "shop.Order" = some order) ∧
    (Scan.beanFactoryTag ∈ beans.stereotypes.items ∧ beans.injectionTarget = false) ∧
    (plain.injectionTarget = false ∧ plain.entity = false) ∧
    Scan.isInjectionTarget order.stereotypes.items = true ∧ order.tableName.isSome = true := by
  have hscan : (Scan.scanStructure ⟨"", "", ["/out"]⟩ [] beanProject).1.toOption.any (fun g =>
      (g.class? "shop.Beans").any (fun c =>
        decide (Scan.beanFactoryTag ∈ c.stereotypes.items) && !c.injectionTarget) &&
      (g.class? "shop.Order").any fun c => !c.injectionTarget && !c.entity) = true := by
    decide +kernel
  have hbuild : (Source.build "/" [] beanProject).1.toOption.any (fun g =>
      (g.class? "shop.Beans").isNone && (g.class? "shop.Order").any fun c =>
        Scan.isInjectionTarget c.stereotypes.items && c.tableName.isSome) = true := by
    decide +kernel
  obtain ⟨compiled, s, hscan, hcompiled⟩ := Act.exists_ok_of_any _ _ _ hscan
  obtain ⟨source, t, hbuild, hsource⟩ := Act.exists_ok_of_any _ _ _ hbuild
  simp only [Bool.and_eq_true, Option.any_eq_true, Option.isNone_iff_eq_none, Bool.not_eq_true',
    decide_eq_true_eq] at hcompiled hsource
  obtain ⟨⟨beans, hbeans, htag⟩, plain, hplain, hbare⟩ := hcompiled
  obtain ⟨hnone, order, horder, hmore⟩ := hsource
  exact ⟨compiled, source, beans, plain, order, s, t, hscan, hbuild,
    ⟨hbeans, hnone, hplain, horder⟩, htag, hbare, hmore⟩

theorem derived_facts_of_classes_beanProject : ∃ compiled source beans plain order s t,
    Scan.scanStructure ⟨"", "", ["/out"]⟩ [] beanProject = (.ok compiled, s) ∧
    Source.build "/" [] beanProject = (.ok source, t) ∧
    compiled.class? "shop.Beans" = some beans ∧ beans.TableOfEntity ∧
    source.class? "shop.Order" = some order ∧ order.FlagFollowsTags ∧ order.TableOfEntity ∧
    (merge (some source) (some compiled)).class? "shop.Beans" = some beans ∧
    compiled.class? "shop.Order" = some plain ∧
    ∃ c, (merge (some source) (some compiled)).class? "shop.Order" = some c ∧
      (c.TableOfEntity ↔
        (plain.tableName.isSome = true ∨ order.tableName.isSome = true → plain.entity = true)) := by
  obtain ⟨compiled, source, beans, plain, order, s, t, hscan, hbuild,
    ⟨hbeans, hnone, hplain, horder⟩, -⟩ := exists_beanProject
  obtain ⟨hbuilt, hscanned, hmerged⟩ := derived_facts_of_classes (σ := Unit)
  obtain ⟨hflag, htable⟩ := hbuilt _ _ _ _ _ hbuild _ _ horder
  obtain ⟨hbeansTable, -⟩ := hscanned _ _ _ _ _ hscan _ _ hbeans
  have hjoined := hmerged source compiled (.build hbuild) (.scan hscan)
  have hkept := (hjoined "shop.Beans").1 beans hbeans hnone
  obtain ⟨c, hc, -, hentity⟩ := (hjoined "shop.Order").2.2 plain order hplain horder
  exact ⟨compiled, source, beans, plain, order, s, t, hscan, hbuild, hbeans, hbeansTable, horder,
    hflag, htable, hkept, hplain, c, hc, hentity⟩

/-- A scanned class that makes beans has a tag but is not flagged. One that is compiled without
annotations gets tag and table from its sources, and neither the flag nor the mark of an entity. -/
theorem beanProject_out_of_step : ∃ compiled source s t,
    Scan.scanStructure ⟨"", "", ["/out"]⟩ [] beanProject = (.ok compiled, s) ∧
    Source.build "/" [] beanProject = (.ok source, t) ∧
    (∃ c, compiled.class? "shop.Beans" = some c ∧ ¬ c.FlagFollowsTags) ∧
    ∃ c, (merge (some source) (some compiled)).class? "shop.Order" = some c ∧
      ¬ c.FlagFollowsTags ∧ ¬ c.TableOfEntity := by
  obtain ⟨compiled, source, beans, plain, order, s, t, hscan, hbuild,
    ⟨hbeans, -, hplain, horder⟩, ⟨htag, hunset⟩, ⟨hflag, hentity⟩, htarget, htable⟩ :=
      exists_beanProject
  have hjoined := class?_merge (Arises.build hbuild).wellFormed (Arises.scan hscan).wellFormed
    "shop.Order"
  rw [horder, hplain] at hjoined
  refine ⟨compiled, source, s, t, hscan, hbuild, ⟨beans, hbeans, ?_⟩,
    mergeClass plain order, hjoined, ?_, ?_⟩
  · rw [Graph.Class.FlagFollowsTags, hunset, eq_comm, Bool.eq_false_iff, not_not,
      Scan.isInjectionTarget_iff]
    exact ⟨_, htag, by decide⟩
  · rw [flagFollowsTags_mergeClass, hflag, htarget]
    simp
  · rw [tableOfEntity_mergeClass, hentity]
    simp [htable]

end ClassGraph
end ClassAtlas
