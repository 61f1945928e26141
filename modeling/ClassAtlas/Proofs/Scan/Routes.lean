import ClassAtlas.Proofs.Scan.Closure
import ClassAtlas.Proofs.Scan.Verbs

/-!
What the methods of a class serve. A method that maps requests has a route for every path of its class
with every path of its own, other methods listen, run on a schedule or serve nothing, in this order.
The rules are stated by themselves (`Serves`), and the endpoints of a class are the only ones that
follow them. Routes are joined with one slash, and how three parts are grouped makes no difference.
-/
namespace ClassAtlas.Scan

open ClassFile (AnnotationUse Member)

/-! Parts of a route -/

/-- One slash between two parts, the first without the slashes at its end and the second without those
at its start. -/
def Joins (base path joined : String) : Prop := ∃ front back left right,
  base.toList = front ++ List.replicate left '/' ∧ front.getLast? ≠ some '/' ∧
  path.toList = List.replicate right '/' ++ back ∧ back.head? ≠ some '/' ∧
  joined.toList = front ++ '/' :: back

def withoutStart (cs : List Char) : List Char := cs.dropWhile (· = '/')

def withoutEnd (cs : List Char) : List Char := (withoutStart cs.reverse).reverse

theorem toList_joinPath (base path : String) :
    (joinPath base path).toList = withoutEnd base.toList ++ '/' :: withoutStart path.toList := by
  simp [joinPath, Text.dropTrailing, Text.dropLeading, withoutEnd, withoutStart]

theorem withoutStart_slashes (n : Nat) {cs : List Char} (h : cs.head? ≠ some '/') :
    withoutStart (List.replicate n '/' ++ cs) = cs := by
  induction n with
  | zero =>
    cases cs with
    | nil => rfl
    | cons c cs =>
      have hc : c ≠ '/' := fun hc => h (congrArg some hc)
      simp [withoutStart, hc]
  | succ n ih => simpa [withoutStart, List.replicate_succ] using ih

theorem withoutEnd_slashes (n : Nat) {cs : List Char} (h : cs.getLast? ≠ some '/') :
    withoutEnd (cs ++ List.replicate n '/') = cs := by
  rw [withoutEnd, List.reverse_append, List.reverse_replicate,
    withoutStart_slashes n (by rwa [List.head?_reverse]), List.reverse_reverse]

/-- A text is the slashes at its start and what stands behind them. -/
theorem eq_slashes_withoutStart (cs : List Char) : ∃ n,
    cs = List.replicate n '/' ++ withoutStart cs ∧ (withoutStart cs).head? ≠ some '/' := by
  induction cs with
  | nil => exact ⟨0, rfl, by simp [withoutStart]⟩
  | cons c cs ih =>
    by_cases hc : c = '/'
    · obtain ⟨n, heq, hhead⟩ := ih
      have hdrop : withoutStart (c :: cs) = withoutStart cs := by simp [withoutStart, hc]
      rw [hdrop]
      exact ⟨n + 1, by rw [List.replicate_succ, List.cons_append, ← heq, hc], hhead⟩
    · have hdrop : withoutStart (c :: cs) = c :: cs := by simp [withoutStart, hc]
      rw [hdrop]
      exact ⟨0, rfl, by simpa using hc⟩

theorem eq_withoutEnd_slashes (cs : List Char) : ∃ n,
    cs = withoutEnd cs ++ List.replicate n '/' ∧ (withoutEnd cs).getLast? ≠ some '/' := by
  obtain ⟨n, heq, hhead⟩ := eq_slashes_withoutStart cs.reverse
  refine ⟨n, ?_, by rwa [withoutEnd, List.getLast?_reverse]⟩
  rw [withoutEnd, ← List.reverse_replicate, ← List.reverse_append, ← heq, List.reverse_reverse]

theorem joins_iff {base path joined : String} :
    Joins base path joined ↔ joined = joinPath base path := by
  constructor
  · rintro ⟨front, back, left, right, hbase, hfront, hpath, hback, hjoined⟩
    apply String.toList_injective
    rw [hjoined, toList_joinPath, hbase, hpath, withoutEnd_slashes left hfront,
      withoutStart_slashes right hback]
  · rintro rfl
    obtain ⟨left, hbase, hfront⟩ := eq_withoutEnd_slashes base.toList
    obtain ⟨right, hpath, hback⟩ := eq_slashes_withoutStart path.toList
    exact ⟨_, _, left, right, hbase, hfront, hpath, hback, toList_joinPath base path⟩

/-- The slashes around a text and what they enclose, which is nothing if there are only slashes. -/
theorem eq_slashes_core (cs : List Char) : ∃ left core right,
    cs = List.replicate left '/' ++ (core ++ List.replicate right '/') ∧
      core.head? ≠ some '/' ∧ core.getLast? ≠ some '/' := by
  obtain ⟨left, heq, hhead⟩ := eq_slashes_withoutStart cs
  obtain ⟨right, hrest, hlast⟩ := eq_withoutEnd_slashes (withoutStart cs)
  refine ⟨left, withoutEnd (withoutStart cs), right, by rw [← hrest, ← heq], ?_, hlast⟩
  intro hfirst
  apply hhead
  rw [hrest, List.head?_append, hfirst]
  rfl

/-- Three parts of a route can be joined from either end. -/
theorem joinPath_joinPath (a b c : String) :
    joinPath (joinPath a b) c = joinPath a (joinPath b c) := by
  apply String.toList_injective
  simp only [toList_joinPath]
  obtain ⟨-, -, ha⟩ := eq_withoutEnd_slashes a.toList
  obtain ⟨-, -, hc⟩ := eq_slashes_withoutStart c.toList
  obtain ⟨left, core, right, hb, hfirst, hlast⟩ := eq_slashes_core b.toList
  by_cases hcore : core = []
  · -- the middle part is slashes only: one is left between the outer parts
    have hb' : b.toList = List.replicate (left + right) '/' := by
      rw [hb, hcore, List.nil_append, List.replicate_append_replicate]
    have hstart : withoutStart b.toList = [] := by
      have hnone : ([] : List Char).head? ≠ some '/' := by simp
      simpa [hb'] using withoutStart_slashes (left + right) hnone
    have hend : withoutEnd b.toList = [] := by
      have hnone : ([] : List Char).getLast? ≠ some '/' := by simp
      simpa [hb'] using withoutEnd_slashes (left + right) hnone
    rw [hstart, hend]
    have hfront := withoutEnd_slashes 1 ha
    have hback := withoutStart_slashes 1 hc
    simp only [List.replicate_one, List.singleton_append] at hfront hback
    rw [hfront, List.nil_append, hback]
  · have hstart : withoutStart b.toList = core ++ List.replicate right '/' := by
      rw [hb, withoutStart_slashes]
      rw [List.head?_append_of_ne_nil _ hcore]
      exact hfirst
    have hend : withoutEnd b.toList = List.replicate left '/' ++ core := by
      rw [hb, ← List.append_assoc, withoutEnd_slashes]
      rw [List.getLast?_append_of_ne_nil _ hcore]
      exact hlast
    have hfront : withoutEnd (withoutEnd a.toList ++ '/' :: (core ++ List.replicate right '/')) =
        withoutEnd a.toList ++ '/' :: core := by
      rw [← List.cons_append, ← List.append_assoc, withoutEnd_slashes]
      rw [List.append_cons, List.getLast?_append_of_ne_nil _ hcore]
      exact hlast
    have hback : withoutStart (List.replicate left '/' ++ core ++ '/' :: withoutStart c.toList) =
        core ++ '/' :: withoutStart c.toList := by
      rw [List.append_assoc, withoutStart_slashes]
      rw [List.head?_append_of_ne_nil _ hcore]
      exact hfirst
    rw [hstart, hend, hfront, hback, List.append_assoc, List.cons_append]

example : joinPath (joinPath "/api//" "///") "orders" = "/api/orders" := by decide +kernel

/-! Paths of annotations -/

/-- The paths that annotations map, one mapping after the other: those it gives, or the root if it
gives none. -/
inductive RoutePaths : List AnnotationUse → List String → Prop where
  | nil : RoutePaths [] []
  | skip {a : AnnotationUse} {more : List AnnotationUse} {paths : List String}
    (hother : isMapping a.type = false) (h : RoutePaths more paths) : RoutePaths (a :: more) paths
  | root {a : AnnotationUse} {more : List AnnotationUse} {paths : List String}
    (hmapping : isMapping a.type = true) (hvalue : a.texts "value" = []) (hpath : a.texts "path" = [])
    (h : RoutePaths more paths) : RoutePaths (a :: more) ("/" :: paths)
  | given {a : AnnotationUse} {more : List AnnotationUse} {paths : List String}
    (hmapping : isMapping a.type = true) (hgiven : a.texts "value" ≠ [] ∨ a.texts "path" ≠ [])
    (h : RoutePaths more paths) :
    RoutePaths (a :: more) (a.texts "value" ++ a.texts "path" ++ paths)

/-- The paths of a class: the root alone if it has no mapping. -/
def BasePaths (annotations : List AnnotationUse) (paths : List String) : Prop :=
  (¬ Mapped annotations ∧ paths = ["/"]) ∨ (Mapped annotations ∧ RoutePaths annotations paths)

theorem mappingPaths_cons (a : AnnotationUse) (more : List AnnotationUse) :
    mappingPaths (a :: more) =
      (if isMapping a.type then
        if a.texts "value" ++ a.texts "path" = [] then ["/"] else a.texts "value" ++ a.texts "path"
      else []) ++ mappingPaths more := by
  unfold mappingPaths
  cases hmapping : isMapping a.type with
  | false => simp [hmapping]
  | true =>
    rw [List.filter_cons_of_pos (by simpa using hmapping), List.flatMap_cons]
    cases a.texts "value" ++ a.texts "path" <;> simp

theorem routePaths_iff {annotations : List AnnotationUse} {paths : List String} :
    RoutePaths annotations paths ↔ paths = mappingPaths annotations := by
  constructor
  · intro h
    induction h with
    | nil => rfl
    | skip hother _ ih => simp [mappingPaths_cons, hother, ih]
    | root hmapping hvalue hpath _ ih => simp [mappingPaths_cons, hmapping, hvalue, hpath, ih]
    | given hmapping hgiven _ ih =>
      rw [mappingPaths_cons, if_pos hmapping, if_neg (by simpa [← not_and_or] using hgiven), ih]
  · rintro rfl
    induction annotations with
    | nil => exact .nil
    | cons a more ih =>
      rw [mappingPaths_cons]
      cases hmapping : isMapping a.type with
      | false => exact .skip hmapping ih
      | true =>
        rw [if_pos rfl]
        split
        · next hnone =>
          obtain ⟨hvalue, hpath⟩ := List.append_eq_nil_iff.1 hnone
          exact .root hmapping hvalue hpath ih
        · next hsome =>
          refine .given hmapping ?_ ih
          rwa [List.append_eq_nil_iff, not_and_or] at hsome

/-- Annotations have a path exactly if one of them maps requests. -/
theorem mappingPaths_ne_nil_iff (annotations : List AnnotationUse) :
    mappingPaths annotations ≠ [] ↔ Mapped annotations := by
  induction annotations with
  | nil => simp [mappingPaths, Mapped]
  | cons a more ih =>
    have hmore : Mapped (a :: more) ↔ isMapping a.type = true ∨ Mapped more := by simp [Mapped]
    rw [hmore, mappingPaths_cons, ← ih, Ne, List.append_eq_nil_iff, not_and_or]
    cases isMapping a.type with
    | false => simp
    | true =>
      rw [if_pos rfl]
      split <;> simp_all

theorem basePaths_iff {annotations : List AnnotationUse} {paths : List String} :
    BasePaths annotations paths ↔
      paths = if mappingPaths annotations = [] then ["/"] else mappingPaths annotations := by
  have hmapped := mappingPaths_ne_nil_iff annotations
  unfold BasePaths
  rw [routePaths_iff, ← hmapped]
  split
  · next hnone => simp [hnone]
  · next hsome => simp [hsome]

/-! What a mapping says about contents -/

/-- The first text that is not blank under a name in a mapping annotation. -/
def mappedText? (annotations : List AnnotationUse) (name : String) : Option String :=
  annotations.findSome? fun a => if isMapping a.type then a.text? name else none

/-- The text that a method has under a name, else its class. -/
def inheritedText (method owner : List AnnotationUse) (name : String) : String :=
  ((mappedText? method name).or (mappedText? owner name)).getD ""

theorem texts_ne_empty {v : ClassFile.ElementValue} {text : String} (h : text ∈ v.texts) :
    text ≠ "" := by
  rintro rfl
  unfold ClassFile.ElementValue.texts at h
  split at h
  · exact absurd (List.mem_filter.1 h).2 (by decide)
  · exact absurd (List.mem_filter.1 h).2 (by decide)

theorem text?_ne_empty {a : AnnotationUse} {name text : String} (h : a.text? name = some text) :
    text ≠ "" := by
  have hmem := List.mem_of_mem_head? h
  unfold AnnotationUse.texts at hmem
  cases hvalue : a.value? name with
  | none => simp [hvalue] at hmem
  | some v =>
    rw [hvalue] at hmem
    exact texts_ne_empty hmem

theorem mappingText_eq (annotations : List AnnotationUse) (name : String) :
    mappingText annotations name = (mappedText? annotations name).getD "" := by
  have hsearch : (annotations.filter (isMapping ·.type)).findSome? (·.text? name) =
      mappedText? annotations name := by
    unfold mappedText?
    induction annotations with
    | nil => rfl
    | cons a more ih =>
      cases hmapping : isMapping a.type with
      | false => simp [hmapping, ih]
      | true => simp [hmapping, List.findSome?_cons, ih]
  rw [mappingText, hsearch]

theorem mappedText?_ne_empty {annotations : List AnnotationUse} {name text : String}
    (h : mappedText? annotations name = some text) : text ≠ "" := by
  obtain ⟨a, -, ha⟩ := List.exists_of_findSome?_eq_some h
  split at ha
  · exact text?_ne_empty ha
  · cases ha

theorem orElse_mappingText (method owner : List AnnotationUse) (name : String) :
    orElse (mappingText method name) (mappingText owner name) =
      inheritedText method owner name := by
  rw [mappingText_eq, mappingText_eq, inheritedText, orElse]
  cases hmethod : mappedText? method name with
  | none => rfl
  | some text => simp [mappedText?_ne_empty hmethod]

/-! What one method serves -/

/-- An endpoint is the route of a method for one path of its class and one of its own. -/
structure IsRoute (c : ClassFile.Class) (m : Member) (parts : String × String)
    (e : Graph.Endpoint) : Prop where
  kind : e.kind = .http
  verb : e.httpMethod = (httpVerb m.annotations).1
  path : Joins parts.1 parts.2 e.path
  controllerClass : e.controllerClass = c.header.name
  controllerMethod : e.controllerMethod = m.name
  produces : e.produces = inheritedText m.annotations c.attributes.annotations "produces"
  consumes : e.consumes = inheritedText m.annotations c.attributes.annotations "consumes"
  framework : e.framework = "SPRING_MVC"

/-- The endpoint of a method that listens. -/
def listenerAt (c : ClassFile.Class) (m : Member) (a : AnnotationUse) : Graph.Endpoint :=
  ⟨.messageListener, "", listenerPath a, c.header.name, m.name, "", "", "SPRING_KAFKA"⟩

/-- The endpoint of a method that runs on a schedule. -/
def scheduleAt (c : ClassFile.Class) (m : Member) (a : AnnotationUse) : Graph.Endpoint :=
  ⟨.scheduled, "", schedulePath a, c.header.name, m.name, "", "", "SPRING_SCHEDULER"⟩

/-- The endpoints of one method of a class. Mappings go before listeners, and listeners before
schedules. -/
inductive Serves (c : ClassFile.Class) (m : Member) : List Graph.Endpoint → Prop where
  | routes {bases paths : List String} {es : List Graph.Endpoint} (hmapped : Mapped m.annotations)
    (hbases : BasePaths c.attributes.annotations bases) (hpaths : RoutePaths m.annotations paths)
    (hroutes : List.Forall₂ (IsRoute c m) (bases ×ˢ paths) es) : Serves c m es
  | listens {a : AnnotationUse} (hmapped : ¬ Mapped m.annotations)
    (hlistener : use? m.annotations kafkaListener = some a) : Serves c m [listenerAt c m a]
  | runs {a : AnnotationUse} (hmapped : ¬ Mapped m.annotations)
    (hlistener : use? m.annotations kafkaListener = none)
    (hscheduled : use? m.annotations scheduled = some a) : Serves c m [scheduleAt c m a]
  | nothing (hmapped : ¬ Mapped m.annotations)
    (hlistener : use? m.annotations kafkaListener = none)
    (hscheduled : use? m.annotations scheduled = none) : Serves c m []

/-- The route of a method for a path. -/
def routeAt (c : ClassFile.Class) (m : Member) (path : String) : Graph.Endpoint :=
  ⟨.http, (httpVerb m.annotations).1, path, c.header.name, m.name,
    inheritedText m.annotations c.attributes.annotations "produces",
    inheritedText m.annotations c.attributes.annotations "consumes", "SPRING_MVC"⟩

theorem isRoute_iff {c : ClassFile.Class} {m : Member} {parts : String × String}
    {e : Graph.Endpoint} : IsRoute c m parts e ↔ e = routeAt c m (joinPath parts.1 parts.2) := by
  constructor
  · rintro ⟨hkind, hverb, hpath, hclass, hmethod, hproduces, hconsumes, hframework⟩
    rw [joins_iff] at hpath
    cases e
    simp_all [routeAt]
  · rintro rfl
    exact ⟨rfl, rfl, joins_iff.2 rfl, rfl, rfl, rfl, rfl, rfl⟩

/-- Lists that go together item by item, where an item allows for one other, are made by a map. -/
theorem forall₂_iff_eq_map {α β : Type} {R : α → β → Prop} {f : α → β}
    (h : ∀ x y, R x y ↔ y = f x) {xs : List α} {ys : List β} :
    List.Forall₂ R xs ys ↔ ys = xs.map f := by
  induction xs generalizing ys with
  | nil => simp
  | cons x xs ih =>
    rw [List.forall₂_cons_left_iff, List.map_cons]
    constructor
    · rintro ⟨y, more, hy, hmore, rfl⟩
      rw [(h x y).1 hy, ih.1 hmore]
    · rintro rfl
      exact ⟨_, _, (h x _).2 rfl, ih.2 rfl, rfl⟩

theorem forall₂_isRoute_iff {c : ClassFile.Class} {m : Member} {parts : List (String × String)}
    {es : List Graph.Endpoint} : List.Forall₂ (IsRoute c m) parts es ↔
      es = parts.map fun p => routeAt c m (joinPath p.1 p.2) := by
  apply forall₂_iff_eq_map
  intro p e
  exact isRoute_iff

theorem combinePaths_eq {classPaths methodPaths : List String} (h : methodPaths ≠ []) :
    combinePaths classPaths methodPaths =
      ((if classPaths = [] then ["/"] else classPaths) ×ˢ methodPaths).map
        fun p => joinPath p.1 p.2 := by
  rw [combinePaths, if_neg (by simpa using h)]
  simp only [List.isEmpty_iff]
  generalize (if classPaths = [] then ["/"] else classPaths) = bases
  induction bases with
  | nil => rfl
  | cons base bases ih =>
    rw [List.product_cons, List.map_append, List.flatMap_cons, ih, List.map_map]
    rfl

/-- A method that maps requests has the routes of all pairs of paths. -/
theorem methodEndpoints_of_mapped {c : ClassFile.Class} {m : Member} (h : Mapped m.annotations) :
    methodEndpoints c.header.name c.attributes.annotations m =
      ((if mappingPaths c.attributes.annotations = [] then ["/"]
        else mappingPaths c.attributes.annotations) ×ˢ mappingPaths m.annotations).map
          fun p => routeAt c m (joinPath p.1 p.2) := by
  have hverb : (httpVerb m.annotations).2 = true := (httpVerb_snd_iff m.annotations).2 h
  simp only [methodEndpoints, hverb, Bool.true_or, if_true, orElse_mappingText]
  rw [combinePaths_eq ((mappingPaths_ne_nil_iff m.annotations).2 h), List.map_map]
  rfl

/-- The other methods listen, run on a schedule or serve nothing. -/
theorem methodEndpoints_of_not_mapped {c : ClassFile.Class} {m : Member}
    (h : ¬ Mapped m.annotations) : methodEndpoints c.header.name c.attributes.annotations m =
      (((use? m.annotations kafkaListener).map (listenerAt c m)).or
        ((use? m.annotations scheduled).map (scheduleAt c m))).toList := by
  have hverb : (httpVerb m.annotations).2 = false :=
    Bool.eq_false_iff.2 (mt (httpVerb_snd_iff m.annotations).1 h)
  have hpaths : mappingPaths m.annotations = [] :=
    not_not.1 (mt (mappingPaths_ne_nil_iff m.annotations).1 h)
  simp only [methodEndpoints, hverb, hpaths, List.isEmpty_nil, Bool.not_true, Bool.or_false,
    Bool.false_eq_true, if_false]
  cases use? m.annotations kafkaListener with
  | some a => rfl
  | none => cases use? m.annotations scheduled <;> rfl

theorem serves_iff {c : ClassFile.Class} {m : Member} {es : List Graph.Endpoint} :
    Serves c m es ↔ es = methodEndpoints c.header.name c.attributes.annotations m := by
  constructor
  · intro h
    cases h with
    | routes hmapped hbases hpaths hroutes =>
      rw [methodEndpoints_of_mapped hmapped, forall₂_isRoute_iff.1 hroutes, basePaths_iff.1 hbases,
        routePaths_iff.1 hpaths]
    | listens hmapped hlistener =>
      rw [methodEndpoints_of_not_mapped hmapped, hlistener]
      rfl
    | runs hmapped hlistener hscheduled =>
      rw [methodEndpoints_of_not_mapped hmapped, hlistener, hscheduled]
      rfl
    | nothing hmapped hlistener hscheduled =>
      rw [methodEndpoints_of_not_mapped hmapped, hlistener, hscheduled]
      rfl
  · rintro rfl
    by_cases hmapped : Mapped m.annotations
    · rw [methodEndpoints_of_mapped hmapped]
      exact .routes hmapped (basePaths_iff.2 rfl) (routePaths_iff.2 rfl) (forall₂_isRoute_iff.2 rfl)
    · rw [methodEndpoints_of_not_mapped hmapped]
      cases hlistener : use? m.annotations kafkaListener with
      | some a => exact .listens hmapped hlistener
      | none =>
        cases hscheduled : use? m.annotations scheduled with
        | some a => exact .runs hmapped hlistener hscheduled
        | none => exact .nothing hmapped hlistener hscheduled

/-! What a class serves -/

/-- The methods that were written by hand. -/
def declaredMethods (c : ClassFile.Class) : List Member := c.methods.filter (!isGenerated ·)

/-- The endpoints of some methods, one after the other. -/
theorem forall₂_serves_iff {c : ClassFile.Class} {ms : List Member}
    {parts : List (List Graph.Endpoint)} : List.Forall₂ (Serves c) ms parts ↔
      parts = ms.map (methodEndpoints c.header.name c.attributes.annotations) := by
  apply forall₂_iff_eq_map
  intro m es
  exact serves_iff

/-- What a class adds to the endpoints of a graph is, and nothing else could be, what its methods serve
one after the other by the rules of `Serves`. A method is one that maps requests exactly if it has a
path. Routes can be joined from either end. -/
theorem endpoints_served_by_methods :
    (∀ (c : ClassFile.Class) (location : String) (g : ClassGraph) (es : List Graph.Endpoint),
      ((classFacts c location).addTo g).endpoints.items = g.endpoints.items ++ es ↔
        ∃ parts, List.Forall₂ (Serves c) (declaredMethods c) parts ∧ es = parts.flatten) ∧
    (∀ annotations : List AnnotationUse, (httpVerb annotations).2 = true ↔
      ∃ path paths, RoutePaths annotations (path :: paths)) ∧
    ∀ a b c : String, joinPath (joinPath a b) c = joinPath a (joinPath b c) := by
  refine ⟨?_, ?_, joinPath_joinPath⟩
  · intro c location g es
    obtain ⟨classes, generators, hadd⟩ := (classFacts c location).addTo_eq g
    have hendpoints : (classFacts c location).endpoints =
        ((declaredMethods c).map
          (methodEndpoints c.header.name c.attributes.annotations)).flatten := rfl
    rw [hadd, Listing.items_append, List.append_cancel_left_eq, hendpoints]
    constructor
    · rintro rfl
      exact ⟨_, forall₂_serves_iff.2 rfl, rfl⟩
    · rintro ⟨parts, hparts, rfl⟩
      rw [forall₂_serves_iff.1 hparts]
  · intro annotations
    rw [httpVerb_snd_iff, ← mappingPaths_ne_nil_iff, List.ne_nil_iff_exists_cons]
    simp only [routePaths_iff, eq_comm]

end ClassAtlas.Scan
