import ClassAtlas.Graph.Document
import ClassAtlas.Proofs.Json.RoundTrip

/-!
A graph is read back from its document. A text that is left out reads as empty, and an absent list
or map stays apart from an empty one. The numbers of such a document are whole, so that the graph is
read back from the text of the document, too.
-/
namespace ClassAtlas

namespace KeyMap

variable {α : Type}

/-- An entry that comes after all others goes to the end. -/
theorem insertEntry_of_lt {key : String} {value : α} {entries : List (String × α)}
    (h : ∀ e ∈ entries, e.1 < key) : insertEntry key value entries = entries ++ [(key, value)] := by
  induction entries with
  | nil => rfl
  | cons e entries ih =>
    obtain ⟨he, hmore⟩ := List.forall_mem_cons.1 h
    have hlt : ¬ key < e.1 := fun hlt => absurd (String.lt_trans he hlt) (String.lt_irrefl _)
    have hne : key ≠ e.1 := fun heq => absurd (heq ▸ he) (String.lt_irrefl _)
    simp [insertEntry, hlt, hne, ih hmore]

theorem ofList_entries (m : KeyMap α) : ofList m.entries = m := by
  have hfold : ∀ (more : List (String × α)) (done : KeyMap α),
      (done.entries ++ more).Pairwise (fun a b => a.1 < b.1) →
        (more.foldl (fun m e => m.insert e.1 e.2) done).entries = done.entries ++ more := by
    intro more
    induction more with
    | nil => simp
    | cons e more ih =>
      intro done hsorted
      have hlast : (done.insert e.1 e.2).entries = done.entries ++ [e] :=
        insertEntry_of_lt fun d hd => (List.pairwise_append.1 hsorted).2.2 d hd e List.mem_cons_self
      rw [List.foldl_cons, ih _ (by rw [hlast]; simpa using hsorted), hlast]
      simp
  have hentries := hfold m.entries empty m.sorted
  obtain ⟨entries, sorted⟩ := m
  cases hm : ofList entries with
  | mk es hes =>
    simp only [mk.injEq]
    exact (congrArg KeyMap.entries hm).symm.trans hentries

end KeyMap

namespace Json

@[simp] theorem asText?_text (s : String) : (text s).asText? = some s := rfl

@[simp] theorem asBool?_bool (b : Bool) : (bool b).asBool? = some b := rfl

@[simp] theorem asText?_ofOption (o : Option String) : (ofOption text o).asText? = o := by
  cases o <;> rfl

theorem toInt?_ofInt (n : Int) : (Number.ofInt n).toInt? = some n := by
  change some (if decide (n < 0) then -((n.natAbs * 1 : Nat) : Int) else (n.natAbs * 1 : Nat)) =
    some n
  by_cases h : n < 0
  · rw [if_pos (by simpa using h)]
    congr 1
    omega
  · rw [if_neg (by simpa using h)]
    congr 1
    omega

@[simp] theorem asInt?_ofOption (o : Option Int) : (ofOption int o).asInt? = o := by
  cases o with
  | none => rfl
  | some n => exact toInt?_ofInt n

@[simp] theorem asList?_ofListing (f : α → Json) (l : Listing α) :
    (ofListing f l).asList? = l.map (·.map f) := by
  cases l <;> rfl

@[simp] theorem member?_object_nil (name : String) : (object []).member? name = none := rfl

/-- The last member with a name is the one that counts. -/
@[simp] theorem member?_object_cons (name key : String) (value : Json)
    (more : List (String × Json)) :
    (object ((key, value) :: more)).member? name =
      ((object more).member? name).or (if key = name then some value else none) := by
  simp only [member?, List.reverse_cons, List.find?_append]
  cases more.reverse.find? (·.1 == name) with
  | some m => rfl
  | none => by_cases h : key = name <;> simp [h]

/-- The text of a member that is left out when it is empty. -/
def writtenText? (s : String) : Option Json := if s.isEmpty then none else some (.text s)

@[simp] theorem member?_optionalText (name key value : String) (more : List (String × Json)) :
    (object (optionalText key value ++ more)).member? name =
      ((object more).member? name).or (if key = name then writtenText? value else none) := by
  unfold optionalText writtenText?
  split
  · simp
  · rw [List.singleton_append, member?_object_cons]

@[simp] theorem member?_optionalText_last (name key value : String) :
    (object (optionalText key value)).member? name =
      if key = name then writtenText? value else none := by
  simpa using member?_optionalText name key value []

@[simp] theorem getD_writtenText? (s : String) : ((writtenText? s).bind asText?).getD "" = s := by
  unfold writtenText?
  split
  · simp_all
  · rfl

end Json

namespace Graph

open Json

theorem Field.ofJson_toJson (f : Field) : Field.ofJson f.toJson = f := by
  obtain ⟨name, type, annotations, injected, relationship⟩ := f
  simp [Field.ofJson, Field.toJson, textMember, textsMember, listMember, boolMember,
    Function.comp_def]

theorem Class.ofJson_toJson (c : Class) : Class.ofJson c.toJson = c := by
  obtain ⟨name, packageName, simpleName, kind, superClass, interfaces, annotations, stereotypes,
    fields, entity, tableName, origin, component, inCycle, location, injectionTarget⟩ := c
  simp [Class.ofJson, Class.toJson, textMember, textMember?, textsMember, listMember, boolMember,
    intMember?, Function.comp_def, Field.ofJson_toJson]

theorem Generator.ofJson_toJson (d : Generator) : Generator.ofJson d.toJson = d := by
  obtain ⟨name, sequenceName, allocationSize, initialValue⟩ := d
  simp [Generator.ofJson, Generator.toJson, textMember, intMember?]

theorem GeneratorUse.ofJson_toJson (u : GeneratorUse) : GeneratorUse.ofJson u.toJson = u := by
  obtain ⟨className, fieldName, generatorName⟩ := u
  simp [GeneratorUse.ofJson, GeneratorUse.toJson, textMember]

theorem Endpoint.ofJson_toJson (e : Endpoint) : Endpoint.ofJson e.toJson = e := by
  obtain ⟨kind, httpMethod, path, controllerClass, controllerMethod, produces, consumes,
    framework⟩ := e
  simp [Endpoint.ofJson, Endpoint.toJson, textMember]

theorem Call.ofJson_toJson (c : Call) : Call.ofJson c.toJson = c := by
  obtain ⟨callerClass, callerMethod, callerDescriptor, calleeClass, calleeMethod,
    calleeDescriptor⟩ := c
  simp [Call.ofJson, Call.toJson, textMember]

theorem Dependency.ofJson_toJson (d : Dependency) : Dependency.ofJson d.toJson = d := by
  obtain ⟨source, target, kind, label⟩ := d
  simp [Dependency.ofJson, Dependency.toJson, textMember]

end Graph

namespace Json

/-- The entries of a map are all there if none of them is written as nothing. -/
theorem presentEntries_eq {α : Type} {write : α → Json} {read : Json → α}
    (h : ∀ a, read (write a) = a) (hnull : ∀ a, write a ≠ .null) (m : KeyMap α) :
    presentEntries read (m.entries.map fun e => (e.1, write e.2)) = m.entries := by
  have hlist : KeyMap.ofList (m.entries.map fun e => (e.1, write e.2)) = m.map fun _ => write :=
    (m.map fun _ => write).ofList_entries
  have hentry : ∀ e : String × α, presentPair? read (e.1, write e.2) = some e := by
    intro e
    unfold presentPair?
    split
    · next heq => exact absurd (Prod.mk.inj heq).2 (hnull e.2)
    · next heq =>
      obtain ⟨rfl, rfl⟩ := Prod.mk.inj heq
      rw [h]
  rw [presentEntries, hlist, KeyMap.map, List.filterMap_map]
  exact (List.filterMap_congr fun e _ => hentry e).trans List.filterMap_some

/-- A map of a document is read back, and an absent one as absent. -/
theorem mapMember_eq {α : Type} {write : α → Json} {read : Json → α} (h : ∀ a, read (write a) = a)
    (hnull : ∀ a, write a ≠ .null) {j : Json} {name : String} {m : Option (KeyMap α)}
    (hj : j.member? name = some (ofOption (ofKeyMap write) m)) : mapMember read j name = m := by
  rw [mapMember, hj]
  cases m with
  | none => rfl
  | some m =>
    change some (KeyMap.ofList (presentEntries read (m.entries.map fun e => (e.1, write e.2)))) =
      some m
    rw [presentEntries_eq h hnull, m.ofList_entries]

theorem listMember_eq {α : Type} {write : α → Json} {read : Json → α} (h : ∀ a, read (write a) = a)
    {j : Json} {name : String} {l : Listing α} (hj : j.member? name = some (ofListing write l)) :
    listMember read j name = l := by
  rw [listMember, hj, Option.bind_some, asList?_ofListing]
  cases l <;> simp [Function.comp_def, h]

/-! Which documents have whole numbers -/

@[simp] theorem whole_text (s : String) : Whole (text s) := .text s

@[simp] theorem whole_bool (b : Bool) : Whole (bool b) := .bool b

theorem whole_object {members : List (String × Json)} :
    Whole (object members) ↔ ∀ m ∈ members, Whole m.2 :=
  ⟨fun | .object h => h, .object⟩

@[simp] theorem whole_object_nil : Whole (object []) := by simp [whole_object]

@[simp] theorem whole_object_cons {key : String} {j : Json} {more : List (String × Json)} :
    Whole (object ((key, j) :: more)) ↔ Whole j ∧ Whole (object more) := by
  simp only [whole_object, List.forall_mem_cons]

@[simp] theorem whole_object_optionalText {key value : String} {more : List (String × Json)} :
    Whole (object (optionalText key value ++ more)) ↔ Whole (object more) := by
  unfold optionalText
  split <;> simp

@[simp] theorem whole_object_optionalText_last {key value : String} :
    Whole (object (optionalText key value)) := by
  unfold optionalText
  split <;> simp

theorem Whole.ofOption {write : α → Json} (h : ∀ a, Whole (write a)) (o : Option α) :
    Whole (ofOption write o) := by
  cases o with
  | none => exact .null
  | some a => exact h a

theorem Whole.ofListing {write : α → Json} (h : ∀ a, Whole (write a)) (l : Listing α) :
    Whole (ofListing write l) := by
  refine .ofOption (fun items => .list fun j hj => ?_) l
  obtain ⟨a, -, rfl⟩ := List.mem_map.1 hj
  exact h a

theorem Whole.ofKeyMap {write : α → Json} (h : ∀ a, Whole (write a)) (m : KeyMap α) :
    Whole (ofKeyMap write m) := by
  refine .object fun member hm => ?_
  obtain ⟨e, -, rfl⟩ := List.mem_map.1 hm
  exact h e.2

@[simp] theorem whole_texts (l : Listing String) : Whole (ofListing text l) :=
  .ofListing whole_text l

@[simp] theorem whole_ofOption_text (o : Option String) : Whole (ofOption text o) :=
  .ofOption whole_text o

@[simp] theorem whole_ofOption_int (o : Option Int) : Whole (ofOption int o) := .ofOption .int o

end Json

namespace Graph

open Json

theorem Field.whole_toJson (f : Field) : f.toJson.Whole := by
  simp [Field.toJson]

theorem Class.whole_toJson (c : Class) : c.toJson.Whole := by
  have hfields : (ofListing Field.toJson c.fields).Whole := .ofListing Field.whole_toJson _
  simp [Class.toJson, hfields]

theorem Generator.whole_toJson (d : Generator) : d.toJson.Whole := by
  simp [Generator.toJson]

theorem GeneratorUse.whole_toJson (u : GeneratorUse) : u.toJson.Whole := by
  simp [GeneratorUse.toJson]

theorem Endpoint.whole_toJson (e : Endpoint) : e.toJson.Whole := by
  simp [Endpoint.toJson]

theorem Call.whole_toJson (c : Call) : c.toJson.Whole := by
  simp [Call.toJson]

theorem Dependency.whole_toJson (d : Dependency) : d.toJson.Whole := by
  simp [Dependency.toJson]

end Graph

namespace ClassGraph

open Json ClassAtlas.Graph

theorem ofJson_toJson (g : ClassGraph) : ofJson g.toJson = g := by
  have hclasses : g.toJson.member? "classes" =
      some (.ofOption (.ofKeyMap Class.toJson) g.classes) := by
    simp [toJson]
  have hgenerators : g.toJson.member? "sequences" =
      some (.ofOption (.ofKeyMap Generator.toJson) g.generators) := by
    simp [toJson]
  have huses : g.toJson.member? "sequenceUsages" =
      some (.ofListing GeneratorUse.toJson g.generatorUses) := by
    simp [toJson]
  have hendpoints : g.toJson.member? "endpoints" =
      some (.ofListing Endpoint.toJson g.endpoints) := by
    simp [toJson]
  have hcalls : g.toJson.member? "methodCallEdges" =
      some (.ofListing Call.toJson g.calls) := by
    simp [toJson]
  have hdependencies : g.toJson.member? "dependencyEdges" =
      some (.ofListing Dependency.toJson g.dependencies) := by
    simp [toJson]
  simp only [ofJson, hclasses, hgenerators, huses, hendpoints, hcalls, hdependencies,
    mapMember_eq Class.ofJson_toJson (fun _ => Json.noConfusion) hclasses,
    mapMember_eq Generator.ofJson_toJson (fun _ => Json.noConfusion) hgenerators,
    listMember_eq GeneratorUse.ofJson_toJson huses, listMember_eq Endpoint.ofJson_toJson hendpoints,
    listMember_eq Call.ofJson_toJson hcalls, listMember_eq Dependency.ofJson_toJson hdependencies]

theorem whole_toJson (g : ClassGraph) : g.toJson.Whole := by
  simp only [toJson, whole_object_cons, whole_object_nil, and_true]
  exact ⟨.ofOption (.ofKeyMap Class.whole_toJson) _,
    .ofOption (.ofKeyMap Generator.whole_toJson) _, .ofListing GeneratorUse.whole_toJson _,
    .ofListing Endpoint.whole_toJson _, .ofListing Call.whole_toJson _,
    .ofListing Dependency.whole_toJson _⟩

/-- The text of a graph's document holds the whole graph. -/
theorem read?_write (style : Style) (g : ClassGraph) :
    (Json.read? (g.toJson.write style)).map ofJson = some g := by
  rw [Json.read?_write style g.whole_toJson, Option.map_some, g.ofJson_toJson]

end ClassGraph
end ClassAtlas
