import ClassAtlas.Proofs.Diagram.Traversal
import ClassAtlas.Proofs.Graph.Adjacency

/-!
The calls of a sequence diagram as paths. A path goes on only from classes that it has not met before,
so it may end where it has been. A diagram has one item for each path of so many calls at most, in the
order of a traversal that goes down before it goes on, with the calls of a class as they were first
added.
-/
namespace ClassAtlas.Diagram

open Adjacency (targetsOf pairwise_targets)

variable {edges : List (String × String)}

/-- A path from a class along some edges, with one call at least and no more than so many. All its
classes differ but perhaps the last. -/
structure CallPath (edges : List (String × String)) (start : String) (depth : Nat)
    (path : List String) : Prop where
  head_eq : path.head? = some start
  two_le : 2 ≤ path.length
  length_le : path.length ≤ depth + 1
  chain : path.IsChain fun u v => (u, v) ∈ edges
  nodup : path.dropLast.Nodup

/-- The places at which the edges of a path were first added. Paths in lexicographic order of these are
in preorder: a path comes before those that go on from it, and all these before a later call. -/
def places (edges : List (String × String)) : List String → List Nat
  | u :: v :: path => edges.idxOf (u, v) :: places edges (v :: path)
  | _ => []

/-- The paths from a class, given the way here, in the order of a traversal. -/
def paths (edges : List (String × String)) : Nat → List String → String → List (List String)
  | 0, _, _ => []
  | depth + 1, way, class_ => (targetsOf edges class_).eraseDups.flatMap fun callee =>
    [class_, callee] :: if callee ∈ class_ :: way then []
      else (paths edges depth (class_ :: way) callee).map (class_ :: ·)

theorem not_callPath_zero {start : String} {path : List String} : ¬ CallPath edges start 0 path := by
  intro h
  have := h.two_le
  have := h.length_le
  omega

theorem CallPath.exists_eq {start : String} {depth : Nat} {path : List String}
    (h : CallPath edges start depth path) : ∃ next rest, path = start :: next :: rest := by
  obtain _ | ⟨u, _ | ⟨next, rest⟩⟩ := path
  · exact absurd h.two_le (by simp)
  · exact absurd h.two_le (by simp)
  · obtain rfl : u = start := Option.some.inj h.head_eq
    exact ⟨next, rest, rfl⟩

/-- A path is one call, or one call to a class from which a path goes on that does not come back before
its end. -/
theorem callPath_succ {start : String} {depth : Nat} {path : List String} :
    CallPath edges start (depth + 1) path ↔ ∃ callee, (start, callee) ∈ edges ∧
      (path = [start, callee] ∨ ∃ more, path = start :: more ∧ CallPath edges callee depth more ∧
        start ∉ more.dropLast) := by
  constructor
  · intro h
    obtain ⟨callee, rest, rfl⟩ := h.exists_eq
    obtain ⟨hedge, hchain⟩ := List.isChain_cons_cons.1 h.chain
    refine ⟨callee, hedge, ?_⟩
    cases rest with
    | nil => exact .inl rfl
    | cons next rest =>
      obtain ⟨hfirst, hrest⟩ := List.nodup_cons.1 h.nodup
      have hlength := h.length_le
      simp only [List.length_cons] at hlength
      exact .inr ⟨_, rfl, ⟨rfl, by simp, by simp; omega, hchain, hrest⟩, hfirst⟩
  · rintro ⟨callee, hedge, rfl | ⟨more, rfl, hmore, hnew⟩⟩
    · exact ⟨rfl, by simp, by simp, by simpa using hedge, by simp⟩
    · obtain ⟨next, rest, rfl⟩ := hmore.exists_eq
      have hlength := hmore.length_le
      simp only [List.length_cons] at hlength
      refine ⟨rfl, by simp, by simp; omega, ?_, ?_⟩
      · exact List.isChain_cons_cons.2 ⟨hedge, hmore.chain⟩
      · exact List.nodup_cons.2 ⟨hnew, hmore.nodup⟩

/-- The paths of a traversal are those from its class that avoid the way here until they end. -/
theorem mem_paths_iff {depth : Nat} {way : List String} {class_ : String} {path : List String}
    (h : class_ ∉ way) : path ∈ paths edges depth way class_ ↔
      CallPath edges class_ depth path ∧ ∀ v ∈ path.dropLast, v ∉ way := by
  induction depth generalizing way class_ path with
  | zero => simp [paths, not_callPath_zero]
  | succ depth ih =>
    simp only [paths, List.mem_flatMap, List.mem_eraseDups, Adjacency.mem_targetsOf, List.mem_cons,
      callPath_succ]
    constructor
    · rintro ⟨callee, hedge, rfl | hmore⟩
      · exact ⟨⟨callee, hedge, .inl rfl⟩, by simpa using h⟩
      · split at hmore
        · cases hmore
        · next hnew =>
          obtain ⟨more, hmem, rfl⟩ := List.mem_map.1 hmore
          obtain ⟨hpath, havoids⟩ := (ih (by simpa using hnew)).1 hmem
          obtain ⟨next, rest, rfl⟩ := hpath.exists_eq
          refine ⟨⟨callee, hedge, .inr ⟨_, rfl, hpath, ?_⟩⟩, ?_⟩
          · exact fun hback => havoids class_ hback List.mem_cons_self
          · intro v hv
            rw [List.dropLast_cons_cons] at hv
            rcases List.mem_cons.1 hv with rfl | hv
            · exact h
            · exact fun hway => havoids v hv (List.mem_cons_of_mem _ hway)
    · rintro ⟨⟨callee, hedge, rfl | ⟨more, rfl, hpath, hnew⟩⟩, havoids⟩
      · exact ⟨callee, hedge, .inl rfl⟩
      · obtain ⟨next, rest, rfl⟩ := hpath.exists_eq
        rw [List.dropLast_cons_cons] at havoids
        have hcallee : callee ∉ class_ :: way := by
          rw [List.mem_cons]
          rintro (rfl | hway)
          · exact hnew (by simp)
          · exact havoids callee (by simp) hway
        refine ⟨callee, hedge, .inr ?_⟩
        rw [if_neg (by simpa using hcallee)]
        apply List.mem_map_of_mem
        refine (ih hcallee).2 ⟨hpath, ?_⟩
        intro v hv hway
        rcases List.mem_cons.1 hway with rfl | hway
        · exact hnew hv
        · exact havoids v (List.mem_cons_of_mem _ hv) hway

theorem exists_eq_of_mem_paths {depth : Nat} {way : List String} {class_ : String}
    {path : List String} (h : path ∈ paths edges depth way class_) :
    ∃ next rest, path = class_ :: next :: rest := by
  induction depth generalizing way class_ path with
  | zero => cases h
  | succ depth ih =>
    obtain ⟨callee, -, hpath⟩ := List.mem_flatMap.1 h
    rcases List.mem_cons.1 hpath with rfl | hpath
    · exact ⟨callee, [], rfl⟩
    · split at hpath
      · cases hpath
      · obtain ⟨more, hmore, rfl⟩ := List.mem_map.1 hpath
        obtain ⟨next, rest, rfl⟩ := ih hmore
        exact ⟨callee, next :: rest, rfl⟩

/-- The paths that start with one call: the call itself, and those that go on. -/
theorem places_of_mem_branch {depth : Nat} {way : List String} {class_ callee : String}
    {path : List String} (h : path ∈ [class_, callee] :: if callee ∈ class_ :: way then []
      else (paths edges depth (class_ :: way) callee).map (class_ :: ·)) :
    ∃ later, places edges path = edges.idxOf (class_, callee) :: later := by
  rcases List.mem_cons.1 h with rfl | h
  · exact ⟨[], rfl⟩
  · split at h
    · cases h
    · obtain ⟨more, hmore, rfl⟩ := List.mem_map.1 h
      obtain ⟨next, rest, rfl⟩ := exists_eq_of_mem_paths hmore
      exact ⟨_, rfl⟩

/-- The paths of a traversal are in preorder. -/
theorem pairwise_paths (edges : List (String × String)) (depth : Nat) (way : List String)
    (class_ : String) : (paths edges depth way class_).Pairwise fun p q =>
      places edges p < places edges q := by
  induction depth generalizing way class_ with
  | zero => simp [paths]
  | succ depth ih =>
    rw [paths, List.pairwise_flatMap]
    constructor
    · -- the paths that start with the same call
      intro callee _
      split
      · exact List.pairwise_singleton _ _
      · have hstep : ∀ more ∈ paths edges depth (class_ :: way) callee,
            places edges (class_ :: more) = edges.idxOf (class_, callee) :: places edges more ∧
              [] < places edges more := by
          intro more hmore
          obtain ⟨next, rest, rfl⟩ := exists_eq_of_mem_paths hmore
          exact ⟨rfl, List.nil_lt_cons _ _⟩
        rw [List.pairwise_cons, List.pairwise_map]
        constructor
        · intro path hpath
          obtain ⟨more, hmore, rfl⟩ := List.mem_map.1 hpath
          obtain ⟨hplaces, hlater⟩ := hstep more hmore
          rw [hplaces]
          exact List.cons_lt_cons_iff.2 (.inr ⟨rfl, hlater⟩)
        · apply (ih (class_ :: way) callee).imp_of_mem
          intro p q hp hq hlt
          rw [(hstep p hp).1, (hstep q hq).1]
          exact List.cons_lt_cons_iff.2 (.inr ⟨rfl, hlt⟩)
    · -- an earlier call of the class and a later one
      apply (pairwise_targets edges class_).imp
      intro callee callee' hlt p hp q hq
      obtain ⟨later, hp⟩ := places_of_mem_branch hp
      obtain ⟨later', hq⟩ := places_of_mem_branch hq
      rw [hp, hq]
      exact List.cons_lt_cons_iff.2 (.inl hlt)

/-- The call that a path ends with, given the way here. It closes a loop if it leads back. -/
def lastCall (way path : List String) : Message :=
  ⟨path.dropLast.getLastD "", path.getLastD "", path.getLastD "" ∈ path.dropLast ++ way⟩

theorem lastCall_cons (way : List String) (class_ u v : String) (path : List String) :
    lastCall way (class_ :: u :: v :: path) = lastCall (class_ :: way) (u :: v :: path) := by
  simp only [lastCall, List.dropLast_cons_cons, Message.mk.injEq]
  refine ⟨?_, ?_, ?_⟩
  · simp
  · simp
  · rw [decide_eq_decide]
    simp
    tauto

/-- A traversal shows the last call of each of its paths. -/
theorem messages_eq_map_paths (edges : List (String × String)) (depth : Nat) (way : List String)
    (class_ : String) : messages (.ofEdges edges) depth way class_ =
      (paths edges depth way class_).map (lastCall way) := by
  induction depth generalizing way class_ with
  | zero => rw [messages, paths, List.map_nil]
  | succ depth ih =>
    rw [messages, messagesTo_eq, (Adjacency.represents_ofEdges edges).getD_targets?, paths,
      List.map_flatMap]
    congr 1
    funext callee
    by_cases hseen : callee ∈ class_ :: way
    · simp [lastCall, hseen]
    · have hcontains : ¬ (class_ :: way).contains callee = true := by simpa using hseen
      have hfirst : lastCall way [class_, callee] = ⟨class_, callee, false⟩ := by
        simpa [lastCall] using hseen
      rw [if_neg hcontains, if_neg hseen, ih, List.map_cons, List.map_map, hfirst]
      congr 1
      apply List.map_congr_left
      intro more hmore
      obtain ⟨next, rest, rfl⟩ := exists_eq_of_mem_paths hmore
      exact (lastCall_cons _ _ _ _ _).symm

/-- The item of a path: a loop if it ends where it has been, and else its last call. -/
def pathLines (g : ClassGraph) (path : List String) : List String :=
  let caller := path.dropLast.getLastD ""
  let callee := path.getLastD ""
  if callee ∈ path.dropLast then
    [loopLine (componentLabel g callee), callLine caller callee, "end"]
  else [callLine caller callee]

theorem messageLines_lastCall (g : ClassGraph) (path : List String) :
    messageLines g (lastCall [] path) = pathLines g path := by
  simp only [messageLines, lastCall, List.append_nil, decide_eq_true_eq, pathLines]

/-- Some paths are all those from a class within a depth, in preorder. -/
structure Lists (edges : List (String × String)) (start : String) (depth : Nat)
    (listed : List (List String)) : Prop where
  mem_iff : ∀ path, path ∈ listed ↔ CallPath edges start depth path
  preorder : listed.Pairwise fun p q => places edges p < places edges q

theorem lists_paths (edges : List (String × String)) (start : String) (depth : Nat) :
    Lists edges start depth (paths edges depth [] start) := by
  constructor
  · intro path
    rw [mem_paths_iff List.not_mem_nil]
    simp
  · exact pairwise_paths edges depth [] start

/-- There is one such listing, so that the order is settled and no path comes twice. -/
theorem Lists.unique {start : String} {depth : Nat} {listed listed' : List (List String)}
    (h : Lists edges start depth listed) (h' : Lists edges start depth listed') :
    listed = listed' := by
  let before : List String → List String → Prop := fun p q => places edges p < places edges q
  have hasymm : Std.Asymm before := ⟨fun _ _ => lt_asymm⟩
  have hirrefl : Std.Irrefl before := ⟨fun _ => lt_irrefl _⟩
  apply List.Pairwise.eq_of_mem_iff h.preorder h'.preorder
  intro path
  rw [h.mem_iff, h'.mem_iff]

/-- The body of a sequence diagram has one item for each path of calls from the class of its endpoint,
within its depth and in preorder, and no other. A traversal from a class that is not on the way leaves
the way as it found it. -/
theorem traversal_is_exact (edges : List (String × String)) (e : Graph.Endpoint) (g : ClassGraph)
    (depth : Int) :
    (∃ listed, Lists edges e.controllerClass (if depth ≤ 0 then 8 else depth.toNat) listed ∧
      (∀ other, Lists edges e.controllerClass (if depth ≤ 0 then 8 else depth.toNat) other →
        other = listed) ∧
      ∃ request, sequenceLines e (.ofEdges edges) g depth =
        ["@startuml", "actor Client", request] ++ listed.flatMap (pathLines g) ++ ["@enduml"]) ∧
    ∀ (calls : Adjacency) (left : Nat) (class_ : String) (way : List String), class_ ∉ way →
      ((visit calls left class_).run way).2 = way := by
  constructor
  · have hlists := lists_paths edges e.controllerClass (effectiveDepth depth)
    have hbody : (endpointMessages e (.ofEdges edges) depth).flatMap (messageLines g) =
        (paths edges (effectiveDepth depth) [] e.controllerClass).flatMap (pathLines g) := by
      rw [endpointMessages_eq, messages_eq_map_paths, List.flatMap_map]
      simp only [messageLines_lastCall]
    refine ⟨_, hlists, fun other hother => hother.unique hlists,
      "Client -> " ++ shownName e.controllerClass ++ " : " ++
        (if e.httpMethod.isEmpty then "ANY" else e.httpMethod) ++ " " ++ e.path, ?_⟩
    rw [← hbody]
    rfl
  · intro calls left class_ way h
    rw [visit_run calls left h]

/-- Two ways to one class, which calls the first again; one of the calls was added twice. -/
def crossCalls : List (String × String) :=
  [("A", "B"), ("A", "C"), ("B", "D"), ("C", "D"), ("D", "A"), ("B", "D")]

/-- Both ways to the class are listed with the loop at their end, and the way is left as it was. -/
theorem traversal_is_exact_crossCalls :
    (∃ listed request, Lists crossCalls "A" 3 listed ∧
      [["A", "B"], ["A", "B", "D"], ["A", "B", "D", "A"], ["A", "C"], ["A", "C", "D"],
        ["A", "C", "D", "A"]] = listed ∧
      sequenceLines ⟨.http, "GET", "/run", "A", "run", "", "", ""⟩ (.ofEdges crossCalls) .empty 3 =
        ["@startuml", "actor Client", request] ++ listed.flatMap (pathLines .empty) ++ ["@enduml"]) ∧
    "A" ∉ ["X"] ∧ ((visit (.ofEdges crossCalls) 3 "A").run ["X"]).2 = ["X"] := by
  obtain ⟨⟨listed, hlists, hunique, request, hlines⟩, hway⟩ := traversal_is_exact crossCalls
    ⟨.http, "GET", "/run", "A", "run", "", "", ""⟩ .empty 3
  have hpaths : paths crossCalls 3 [] "A" = [["A", "B"], ["A", "B", "D"], ["A", "B", "D", "A"],
      ["A", "C"], ["A", "C", "D"], ["A", "C", "D", "A"]] := by
    decide +kernel
  refine ⟨⟨listed, request, hlists, ?_, hlines⟩, by decide, hway _ 3 "A" ["X"] (by decide)⟩
  rw [← hpaths]
  exact hunique _ (lists_paths crossCalls "A" 3)

end ClassAtlas.Diagram
