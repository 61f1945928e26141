import ClassAtlas.Diagram.Sequence
import ClassAtlas.Graph.Basic
import ClassAtlas.Proofs.Graph.WellFormed

/-!
The orders in which a graph is written out, as orders of keys. A text has the pair of its lower-case
form and itself as key, and one key above all others if it may be missing and is. Comparing is
comparing keys, so each order is linear, although lower case alone tells too little apart. Classes
and generators have keys of their own and are listed strictly upwards, however they were kept;
endpoints and dependencies that share a key stay in the order in which they were found.
-/
namespace ClassAtlas

/-- A list is another one in stable order: not downwards by key, and with the items of each key in
the order they had. -/
structure StablySorted [LinearOrder κ] (key : α → κ) (items sorted : List α) : Prop where
  perm : sorted.Perm items
  upwards : sorted.Pairwise fun a b => key a ≤ key b
  stable : ∀ k, sorted.filter (key · = k) = items.filter (key · = k)

section StablySorted

variable {α κ : Type} [LinearOrder κ] {key : α → κ} {items sorted : List α}

/-- Sorting by a comparison of keys is stable. -/
theorem stablySorted_mergeSort {le : α → α → Bool} (hle : ∀ a b, le a b = true ↔ key a ≤ key b)
    (items : List α) : StablySorted key items (items.mergeSort le) := by
  have htrans : ∀ a b c, le a b = true → le b c = true → le a c = true := by
    intro a b c hab hbc
    exact (hle a c).2 (((hle a b).1 hab).trans ((hle b c).1 hbc))
  have htotal : ∀ a b, (le a b || le b a) = true := by
    intro a b
    rw [Bool.or_eq_true, hle, hle]
    exact le_total _ _
  have hperm := List.mergeSort_perm items le
  refine ⟨hperm, ?_, ?_⟩
  · exact (List.pairwise_mergeSort htrans htotal items).imp fun h => (hle _ _).1 h
  · intro k
    -- the items of one key are in order as they stand, so sorting keeps them as a sublist
    have hlevel : (items.filter (key · = k)).Pairwise fun a b => le a b = true := by
      refine List.pairwise_of_forall_mem_list fun a ha b hb => ?_
      simp only [List.mem_filter, decide_eq_true_eq] at ha hb
      rw [hle, ha.2, hb.2]
    have hsub := (List.sublist_mergeSort htrans htotal hlevel List.filter_sublist).filter (key · = k)
    rw [List.filter_filter] at hsub
    simp only [Bool.and_self] at hsub
    exact (hsub.eq_of_length (hperm.filter _).length_eq.symm).symm

/-- There is one stable order. The first items of two of them have the same key, and are then the
first items of that key. -/
theorem StablySorted.unique {sorted' : List α} (h : StablySorted key items sorted)
    (h' : StablySorted key items sorted') : sorted = sorted' := by
  have hperm : sorted.Perm sorted' := h.perm.trans h'.perm.symm
  have hstable : ∀ k, sorted.filter (key · = k) = sorted'.filter (key · = k) :=
    fun k => (h.stable k).trans (h'.stable k).symm
  have hup := h.upwards
  have hup' := h'.upwards
  clear h h'
  induction sorted generalizing sorted' with
  | nil => exact hperm.nil_eq
  | cons a sorted ih =>
    cases sorted' with
    | nil => exact absurd hperm.symm.nil_eq (by simp)
    | cons b sorted' =>
      have hab : key a ≤ key b := by
        rcases List.mem_cons.1 (hperm.symm.subset List.mem_cons_self) with hb | hb
        · rw [hb]
        · exact (List.pairwise_cons.1 hup).1 b hb
      have hba : key b ≤ key a := by
        rcases List.mem_cons.1 (hperm.subset List.mem_cons_self) with ha | ha
        · rw [ha]
        · exact (List.pairwise_cons.1 hup').1 a ha
      have hkey : key b = key a := le_antisymm hba hab
      have hfirst := hstable (key a)
      simp only [List.filter_cons, hkey, decide_true, if_true, List.cons.injEq] at hfirst
      obtain ⟨rfl, -⟩ := hfirst
      rw [ih (List.Perm.cons_inv hperm) ?_ (List.pairwise_cons.1 hup).2 (List.pairwise_cons.1 hup').2]
      intro k
      have hk := hstable k
      simp only [List.filter_cons] at hk
      split at hk
      · exact (List.cons.inj hk).2
      · exact hk

/-- What is left out before sorting may be left out afterwards. -/
theorem StablySorted.filter (h : StablySorted key items sorted) (p : α → Bool) :
    StablySorted key (items.filter p) (sorted.filter p) := by
  refine ⟨h.perm.filter p, h.upwards.filter p, ?_⟩
  intro k
  have hswap : ∀ l : List α, (l.filter p).filter (key · = k) = (l.filter (key · = k)).filter p := by
    intro l
    rw [List.filter_filter, List.filter_filter]
    congr 1
    funext a
    exact Bool.and_comm _ _
  rw [hswap, hswap, h.stable]

/-- Items with keys of their own are sorted strictly upwards, in whatever order they come. -/
theorem sorted_of_nodup (key : α → κ) {le : α → α → Bool} (hle : ∀ a b, le a b = true ↔ key a ≤ key b)
    (hnodup : (items.map key).Nodup) :
    (items.mergeSort le).Pairwise (fun a b => key a < key b) ∧
      ∀ listed : List α, listed.Perm items → listed.mergeSort le = items.mergeSort le := by
  have hsorted := stablySorted_mergeSort hle items
  have hdistinct : (items.mergeSort le).Pairwise fun a b => key a ≠ key b :=
    List.pairwise_map.1 ((hsorted.perm.map key).nodup_iff.2 hnodup)
  refine ⟨(hsorted.upwards.and hdistinct).imp fun h => lt_of_le_of_ne h.1 h.2, ?_⟩
  intro listed hlisted
  have hother := stablySorted_mergeSort hle listed
  have hsame := hother.perm.trans hlisted
  refine List.Perm.eq_of_pairwise ?_ hother.upwards hsorted.upwards (hsame.trans hsorted.perm.symm)
  intro a b ha hb hab hba
  exact List.inj_on_of_nodup_map hnodup (hsame.subset ha) (hsorted.perm.subset hb)
    (le_antisymm hab hba)

end StablySorted

namespace Text

/-- What a text is ordered by: its lower-case form, then itself. -/
def foldKey (s : String) : String ×ₗ String := toLex (lower s, s)

/-- The same, with the empty text above all others. -/
def foldKeyEmptyLast (s : String) : WithTop (String ×ₗ String) :=
  if s = "" then ⊤ else foldKey s

theorem foldKey_injective : Function.Injective foldKey := by
  intro a b h
  exact congrArg (fun k => (ofLex k).2) h

theorem compare_toLex {κ ι : Type} [LinearOrder κ] [LinearOrder ι] (a c : κ) (b d : ι) :
    compare (toLex (a, b)) (toLex (c, d)) = (compare a c).then (compare b d) := by
  rw [Prod.Lex.compare_def]
  rfl

theorem compareFold_eq (a b : String) : compareFold a b = compare (foldKey a) (foldKey b) :=
  (compare_toLex (lower a) (lower b) a b).symm

theorem compareFoldEmptyLast_eq (a b : String) :
    compareFoldEmptyLast a b = compare (foldKeyEmptyLast a) (foldKeyEmptyLast b) := by
  have hempty : ∀ s : String, s.isEmpty = decide (s = "") := by
    intro s
    rw [Bool.eq_iff_iff, String.isEmpty_iff, decide_eq_true_eq]
  unfold compareFoldEmptyLast foldKeyEmptyLast
  rw [hempty, hempty]
  by_cases ha : a = ""
  · by_cases hb : b = ""
    · simp [ha, hb]
    · simp only [ha, hb, decide_true, decide_false, if_true, if_false]
      exact (compare_gt_iff_gt.2 (WithTop.coe_lt_top (foldKey b))).symm
  · by_cases hb : b = ""
    · simp only [ha, hb, decide_true, decide_false, if_true, if_false]
      exact (compare_lt_iff_lt.2 (WithTop.coe_lt_top (foldKey a))).symm
    · simp only [ha, hb, decide_false, if_false]
      have hcoe := WithTop.coe_strictMono.cmp_map_eq (foldKey a) (foldKey b)
      rw [cmp_eq_compare, cmp_eq_compare] at hcoe
      exact (compareFold_eq a b).trans hcoe.symm

end Text

namespace ClassGraph

/-- What endpoints are ordered by: their class, then their path. -/
def routeKey (e : Graph.Endpoint) : WithTop (String ×ₗ String) ×ₗ WithTop (String ×ₗ String) :=
  toLex (Text.foldKeyEmptyLast e.controllerClass, Text.foldKeyEmptyLast e.path)

/-- What dependencies are ordered by: where they start, then where they lead. -/
def endsKey (d : Graph.Dependency) : WithTop (String ×ₗ String) ×ₗ WithTop (String ×ₗ String) :=
  toLex (Text.foldKeyEmptyLast d.source, Text.foldKeyEmptyLast d.target)

theorem byName_iff (a b : Graph.Class) :
    byName a b = true ↔ Text.foldKey a.name ≤ Text.foldKey b.name := by
  rw [byName, bne_iff_ne, Text.compareFold_eq, compare_le_iff_le]

theorem byGenerator_iff (a b : Graph.Generator) :
    byGenerator a b = true ↔ Text.foldKey a.name ≤ Text.foldKey b.name := by
  rw [byGenerator, bne_iff_ne, Text.compareFold_eq, compare_le_iff_le]

theorem byRoute_iff (a b : Graph.Endpoint) : byRoute a b = true ↔ routeKey a ≤ routeKey b := by
  rw [byRoute, bne_iff_ne, Text.compareFoldEmptyLast_eq, Text.compareFoldEmptyLast_eq,
    ← Text.compare_toLex, compare_le_iff_le]
  rfl

theorem byEnds_iff (a b : Graph.Dependency) : byEnds a b = true ↔ endsKey a ≤ endsKey b := by
  rw [byEnds, bne_iff_ne, Text.compareFoldEmptyLast_eq, Text.compareFoldEmptyLast_eq,
    ← Text.compare_toLex, compare_le_iff_le]
  rfl

/-- Classes and generators are kept under their own names. -/
structure WellKeyed (g : ClassGraph) : Prop where
  classes : g.classMap.All fun key c => c.name = key
  generators : g.generatorMap.All fun key d => d.name = key

theorem WellFormed.wellKeyed {g : ClassGraph} (h : g.WellFormed) : g.WellKeyed where
  classes e he := (h.classes e he).1
  generators e he := (h.generators e he).1

theorem WellKeyed.nodup_classes {g : ClassGraph} (h : g.WellKeyed) :
    (g.classMap.values.map fun c => Text.foldKey c.name).Nodup := by
  rw [KeyMap.values, List.map_map, List.Nodup, List.pairwise_map]
  refine g.classMap.sorted.imp_of_mem ?_
  intro a b ha hb hlt heq
  have hnames : a.2.name = b.2.name := Text.foldKey_injective heq
  rw [h.classes a ha, h.classes b hb] at hnames
  exact String.lt_irrefl _ (hnames ▸ hlt)

theorem WellKeyed.nodup_generators {g : ClassGraph} (h : g.WellKeyed) :
    (g.generatorMap.values.map fun d => Text.foldKey d.name).Nodup := by
  rw [KeyMap.values, List.map_map, List.Nodup, List.pairwise_map]
  refine g.generatorMap.sorted.imp_of_mem ?_
  intro a b ha hb hlt heq
  have hnames : a.2.name = b.2.name := Text.foldKey_injective heq
  rw [h.generators a ha, h.generators b hb] at hnames
  exact String.lt_irrefl _ (hnames ▸ hlt)

/-- The orders of a graph. Classes and generators that are kept under their own names are listed
strictly upwards by lower-case name and name, in the same way however they are enumerated.
Endpoints and dependencies are in the one stable order by class and path, or by their two ends, with
the empty text last. The first so many routes are the first in that order. -/
theorem orders_are_canonical (g : ClassGraph) :
    (g.WellKeyed →
      (∀ listed : List Graph.Class, listed.Perm g.classMap.values →
        listed.mergeSort byName = g.sortedClasses) ∧
      g.sortedClasses.Perm g.classMap.values ∧
      g.sortedClasses.Pairwise (fun a b => Text.foldKey a.name < Text.foldKey b.name) ∧
      (∀ listed : List Graph.Generator, listed.Perm g.generatorMap.values →
        listed.mergeSort byGenerator = g.sortedGenerators) ∧
      g.sortedGenerators.Perm g.generatorMap.values ∧
      g.sortedGenerators.Pairwise fun a b => Text.foldKey a.name < Text.foldKey b.name) ∧
    (∀ listed, StablySorted routeKey g.endpoints.items listed ↔ listed = g.sortedEndpoints) ∧
    (∀ listed, StablySorted endsKey g.dependencies.items listed ↔ listed = g.sortedDependencies) ∧
    ∃ routes, StablySorted routeKey (g.endpoints.items.filter (·.kind = .http)) routes ∧
      ∀ n : Int, 0 ≤ n → Diagram.sequenceEndpoints g n = routes.take n.toNat := by
  have hendpoints : StablySorted routeKey g.endpoints.items g.sortedEndpoints :=
    stablySorted_mergeSort byRoute_iff _
  have hdependencies : StablySorted endsKey g.dependencies.items g.sortedDependencies :=
    stablySorted_mergeSort byEnds_iff _
  refine ⟨?_, ?_, ?_, ?_⟩
  · intro hkeyed
    obtain ⟨hclasses, hlisted⟩ := sorted_of_nodup (fun c : Graph.Class => Text.foldKey c.name)
      byName_iff hkeyed.nodup_classes
    obtain ⟨hgenerators, hlisted'⟩ := sorted_of_nodup
      (fun d : Graph.Generator => Text.foldKey d.name) byGenerator_iff hkeyed.nodup_generators
    exact ⟨hlisted, List.mergeSort_perm _ _, hclasses, hlisted', List.mergeSort_perm _ _, hgenerators⟩
  · intro listed
    exact ⟨fun h => h.unique hendpoints, fun h => h ▸ hendpoints⟩
  · intro listed
    exact ⟨fun h => h.unique hdependencies, fun h => h ▸ hdependencies⟩
  · refine ⟨_, hendpoints.filter (·.kind = .http), ?_⟩
    intro n hn
    rw [Diagram.sequenceEndpoints, if_neg (not_lt.2 hn)]
    rfl

/-- A route of a class that has one path. -/
def plainRoute (kind : Graph.EndpointKind) (controllerClass path : String) : Graph.Endpoint :=
  ⟨kind, "GET", path, controllerClass, "get", "", "", ""⟩

/-- Names that differ by case only, and a route that belongs to no class before those that do. -/
def mixedCase : ClassGraph :=
  let named (name : String) : Graph.Class := { (default : Graph.Class) with name }
  let g := (((ClassGraph.empty.addClass (named "B")).addClass (named "b")).addClass (named "a"))
  let g := g.addGenerator ⟨"Ids", "", none, none⟩
  ((g.addEndpoint (plainRoute .http "" "/")).addEndpoint (plainRoute .scheduled "B" "/")).addEndpoint
    (plainRoute .http "b" "/")

theorem wellKeyed_mixedCase : mixedCase.WellKeyed :=
  ((((((wellFormed_empty.addClass _).addClass _).addClass _).addGenerator _).addEndpoint
    _).addEndpoint _).addEndpoint _ |>.wellKeyed

theorem stablySorted_mixedCase :
    StablySorted routeKey (mixedCase.endpoints.items.filter (·.kind = .http))
      [plainRoute .http "b" "/", plainRoute .http "" "/"] := by
  have hitems : mixedCase.endpoints.items.filter (·.kind = .http) =
      [plainRoute .http "" "/", plainRoute .http "b" "/"] := by decide +kernel
  have hlt : routeKey (plainRoute .http "b" "/") < routeKey (plainRoute .http "" "/") := by
    decide +kernel
  rw [hitems]
  refine ⟨.swap _ _ _, by simpa using hlt.le, ?_⟩
  intro k
  by_cases hb : routeKey (plainRoute .http "b" "/") = k
  · simp [hb, (hb ▸ hlt).ne']
  · simp [List.filter_cons, hb]

theorem orders_are_canonical_mixedCase :
    mixedCase.WellKeyed ∧ mixedCase.classNames = ["B", "a", "b"] ∧
    mixedCase.sortedClasses.map (·.name) = ["a", "B", "b"] ∧
    Diagram.sequenceEndpoints mixedCase 1 = [plainRoute .http "b" "/"] := by
  obtain ⟨hkeyed, -, -, routes, hsorted, hroutes⟩ := orders_are_canonical mixedCase
  have hfirst : Diagram.sequenceEndpoints mixedCase 1 = [plainRoute .http "b" "/"] := by
    rw [hroutes 1 (by decide), hsorted.unique stablySorted_mixedCase]
    rfl
  refine ⟨wellKeyed_mixedCase, by decide +kernel, ?_, hfirst⟩
  let named (name : String) : Graph.Class := { (default : Graph.Class) with name }
  have hclasses := (hkeyed wellKeyed_mixedCase).1 [named "a", named "B", named "b"]
    (by decide +kernel)
  rw [← hclasses, List.mergeSort_of_pairwise (by decide +kernel)]
  rfl

end ClassGraph
end ClassAtlas
