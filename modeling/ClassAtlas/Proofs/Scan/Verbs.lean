import ClassAtlas.Scan.Endpoint
import Mathlib

/-!
The verb of a method. An annotation that maps one verb is more specific than one that maps requests in
general, whatever verb that one names, and should win wherever it stands. The scan takes the first
annotation that settles a verb instead. The two agree unless a general mapping names another verb
before the first specific one.
-/
namespace ClassAtlas.Scan

open ClassFile (AnnotationUse)

/-- The verb of an annotation that maps one verb only. -/
def specificVerb? (a : AnnotationUse) : Option String := mappingVerb? a.type

/-- The verb that a mapping of requests in general names first. -/
def namedVerb? (a : AnnotationUse) : Option String :=
  if a.type = requestMapping then (a.text? "method").map (Text.dropStart · "RequestMethod.")
  else none

/-- The verb that the most specific mapping gives: the first specific one, else the first that is named
in a general mapping, else any. -/
def preferredVerb (annotations : List AnnotationUse) : String :=
  ((annotations.findSome? specificVerb?).or (annotations.findSome? namedVerb?)).getD anyVerb

/-- The annotations before the first specific mapping. -/
def beforeSpecific (annotations : List AnnotationUse) : List AnnotationUse :=
  annotations.takeWhile fun a => (specificVerb? a).isNone

/-- Some annotation maps requests. -/
def Mapped (annotations : List AnnotationUse) : Prop := ∃ a ∈ annotations, isMapping a.type = true

theorem settledVerb?_eq (a : AnnotationUse) :
    settledVerb? a = (specificVerb? a).or (namedVerb? a) := by
  unfold settledVerb? specificVerb? namedVerb?
  cases mappingVerb? a.type with
  | some verb => rfl
  | none => simp

/-- A search for either of two things, one going before the other in each place, finds the second only
in front of all of the first. -/
theorem findSome?_or {α β : Type} (f g : α → Option β) (l : List α) :
    l.findSome? (fun a => (f a).or (g a)) =
      ((l.takeWhile fun a => (f a).isNone).findSome? g).or (l.findSome? f) := by
  induction l with
  | nil => rfl
  | cons a l ih =>
    cases hf : f a with
    | some b => simp [hf]
    | none =>
      cases hg : g a with
      | some b => simp [hf, hg]
      | none => simp [hf, hg, ih]

theorem isMapping_eq (a : AnnotationUse) :
    isMapping a.type = (a.type == requestMapping || (specificVerb? a).isSome) := rfl

theorem isMapping_of_settledVerb? {a : AnnotationUse} {verb : String}
    (h : settledVerb? a = some verb) : isMapping a.type = true := by
  rw [settledVerb?_eq] at h
  rw [isMapping_eq, Bool.or_eq_true, beq_iff_eq]
  cases hspecific : specificVerb? a with
  | some other => exact .inr rfl
  | none =>
    rw [hspecific, Option.none_or, namedVerb?] at h
    split at h
    · next hgeneral => exact .inl hgeneral
    · cases h

/-- A method maps requests exactly if some annotation does. -/
theorem httpVerb_snd_iff (annotations : List AnnotationUse) :
    (httpVerb annotations).2 = true ↔ Mapped annotations := by
  unfold httpVerb
  cases hsettled : annotations.findSome? settledVerb? with
  | some verb =>
    obtain ⟨a, ha, hverb⟩ := List.exists_of_findSome?_eq_some hsettled
    exact iff_of_true rfl ⟨a, ha, isMapping_of_settledVerb? hverb⟩
  | none =>
    simp only [List.any_eq_true, beq_iff_eq]
    constructor
    · rintro ⟨a, ha, hgeneral⟩
      exact ⟨a, ha, by simp [isMapping, hgeneral]⟩
    · rintro ⟨a, ha, hmapping⟩
      have hnone := List.findSome?_eq_none_iff.1 hsettled a ha
      rw [settledVerb?_eq, Option.or_eq_none_iff] at hnone
      rw [isMapping_eq, hnone.1] at hmapping
      exact ⟨a, ha, by simpa using hmapping⟩

theorem httpVerb_fst (annotations : List AnnotationUse) : (httpVerb annotations).1 =
    (((beforeSpecific annotations).findSome? namedVerb?).or
      (annotations.findSome? specificVerb?)).getD anyVerb := by
  have hsearch : annotations.findSome? settledVerb? =
      ((beforeSpecific annotations).findSome? namedVerb?).or
        (annotations.findSome? specificVerb?) := by
    rw [funext settledVerb?_eq]
    exact findSome?_or specificVerb? namedVerb? annotations
  rw [← hsearch, httpVerb]
  cases annotations.findSome? settledVerb? <;> rfl

theorem beforeSpecific_eq_self {annotations : List AnnotationUse}
    (h : annotations.findSome? specificVerb? = none) : beforeSpecific annotations = annotations := by
  rw [beforeSpecific, List.takeWhile_eq_self_iff]
  intro a ha
  simp [List.findSome?_eq_none_iff.1 h a ha]

/-- Which verb a method has, and when that is the preferred one. A method maps requests exactly if some
annotation does. Its verb is the first that is named before every specific mapping, else that of the
first specific mapping, else any. That is the preferred verb exactly if what is named before the first
specific mapping is the verb of that mapping. -/
theorem verb_preferred_iff (annotations : List AnnotationUse) :
    ((httpVerb annotations).2 = true ↔ Mapped annotations) ∧
    ((httpVerb annotations).1 =
      (((beforeSpecific annotations).findSome? namedVerb?).or
        (annotations.findSome? specificVerb?)).getD anyVerb) ∧
    ((httpVerb annotations).1 = preferredVerb annotations ↔
      ∀ verb, annotations.findSome? specificVerb? = some verb →
        ∀ early, (beforeSpecific annotations).findSome? namedVerb? = some early → early = verb) := by
  refine ⟨httpVerb_snd_iff annotations, httpVerb_fst annotations, ?_⟩
  rw [httpVerb_fst, preferredVerb]
  cases hspecific : annotations.findSome? specificVerb? with
  | none => simp [beforeSpecific_eq_self hspecific]
  | some verb =>
    cases (beforeSpecific annotations).findSome? namedVerb? with
    | none => simp
    | some early => simp

/-- A general mapping that names a verb. -/
def postMapping : AnnotationUse :=
  ⟨requestMapping, true, [("method",
    .array [.enum "org.springframework.web.bind.annotation.RequestMethod" "POST"])]⟩

/-- A specific mapping of another verb. -/
def getMapping : AnnotationUse := ⟨"org.springframework.web.bind.annotation.GetMapping", true, []⟩

/-- The verb depends on which of two mappings stands first. -/
theorem verb_of_mixed_mappings :
    preferredVerb [postMapping, getMapping] = "GET" ∧
      preferredVerb [getMapping, postMapping] = "GET" ∧
      httpVerb [getMapping, postMapping] = ("GET", true) ∧
      httpVerb [postMapping, getMapping] = ("POST", true) := by
  decide +kernel

end ClassAtlas.Scan
