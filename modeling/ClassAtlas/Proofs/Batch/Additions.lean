import ClassAtlas.Batch.Manifest
import Mathlib.Data.List.Nodup

/-!
Projects that are added to a manifest one after the other. A project that shares its name or its path
with another is left out. One that makes the manifest unusable is refused as well, but it stays, and
from then on nothing that is added makes the manifest usable again. So a manifest stays usable through
a series of additions exactly if every project that was refused shares a name or a path.
-/
namespace ClassAtlas.Batch

/-! What makes a manifest usable -/

/-- A project that can stand in a manifest: it has a path, and a name that can be that of a
directory. -/
structure Project.Sound (p : Project) : Prop where
  named : Text.trim p.name ≠ ""
  directory : isDirectoryName (Text.trim p.name) = true
  placed : Text.isBlank p.path = false

theorem projectFlaw?_cons_eq_none {taken : List String} {p : Project} {more : List Project} :
    projectFlaw? taken (p :: more) = none ↔ p.Sound ∧ Text.trim p.name ∉ taken ∧
      projectFlaw? (Text.trim p.name :: taken) more = none := by
  simp only [projectFlaw?]
  constructor
  · intro h
    split at h
    · cases h
    next hnamed =>
    split at h
    · cases h
    next hdirectory =>
    split at h
    · cases h
    next hfree =>
    split at h
    · cases h
    next hplaced =>
    exact ⟨⟨by simpa using hnamed, by simpa using hdirectory, by simpa using hplaced⟩,
      by simpa using hfree, h⟩
  · rintro ⟨⟨hnamed, hdirectory, hplaced⟩, hfree, hmore⟩
    simp [hnamed, hdirectory, hplaced, hfree, hmore]

/-- Projects have no flaw if each can stand in a manifest and their trimmed names are new and differ. -/
theorem projectFlaw?_eq_none_iff {taken : List String} {projects : List Project} :
    projectFlaw? taken projects = none ↔
      (∀ p ∈ projects, p.Sound ∧ Text.trim p.name ∉ taken) ∧
        (projects.map (Text.trim ·.name)).Nodup := by
  induction projects generalizing taken with
  | nil => simp [projectFlaw?]
  | cons p more ih =>
    rw [projectFlaw?_cons_eq_none, ih, List.forall_mem_cons, List.map_cons, List.nodup_cons]
    constructor
    · rintro ⟨hp, hfree, hmore, hdistinct⟩
      refine ⟨⟨⟨hp, hfree⟩, ?_⟩, ?_, hdistinct⟩
      · intro q hq
        exact ⟨(hmore q hq).1, fun h => (hmore q hq).2 (List.mem_cons_of_mem _ h)⟩
      · intro hmem
        obtain ⟨q, hq, hsame⟩ := List.mem_map.1 hmem
        exact (hmore q hq).2 (hsame ▸ List.mem_cons_self)
    · rintro ⟨⟨⟨hp, hfree⟩, hmore⟩, hnew, hdistinct⟩
      refine ⟨hp, hfree, fun q hq => ⟨(hmore q hq).1, ?_⟩, hdistinct⟩
      intro hmem
      rcases List.mem_cons.1 hmem with hsame | hmem
      · exact hnew (hsame ▸ List.mem_map_of_mem hq)
      · exact (hmore q hq).2 hmem

namespace Manifest

/-- A manifest that can be run. -/
structure Usable (m : Manifest) : Prop where
  some_project : m.projects ≠ []
  sound : ∀ p ∈ m.projects, p.Sound
  distinct : (m.projects.map (Text.trim ·.name)).Nodup
  parallel : 0 ≤ m.maxParallel

theorem validate_eq_ok_iff {m : Manifest} : m.validate = .ok () ↔ m.Usable := by
  have hflaw : m.validate = .ok () ↔ m.flaw? = none := by
    unfold validate
    cases m.flaw? <;> simp
  rw [hflaw, flaw?]
  constructor
  · intro h
    split at h
    · cases h
    next hprojects =>
    obtain ⟨hnone, hparallel⟩ := Option.or_eq_none_iff.1 h
    obtain ⟨hsound, hdistinct⟩ := projectFlaw?_eq_none_iff.1 hnone
    exact ⟨by simpa using hprojects, fun p hp => (hsound p hp).1, hdistinct,
      by simpa using hparallel⟩
  · rintro ⟨hprojects, hsound, hdistinct, hparallel⟩
    have hnone : projectFlaw? [] m.projects = none :=
      projectFlaw?_eq_none_iff.2 ⟨fun p hp => ⟨hsound p hp, List.not_mem_nil⟩, hdistinct⟩
    have hnegative : ¬ m.maxParallel < 0 := by omega
    simp [hprojects, hnone, hnegative]

/-! One addition -/

/-- A project of the manifest has the name or the path of another one. -/
def Conflicts (m : Manifest) (p : Project) : Prop :=
  ∃ q ∈ m.projects, q.name = p.name ∨ q.path = p.path

/-- The manifest with one project more. -/
def extended (m : Manifest) (p : Project) : Manifest := { m with projects := m.projects ++ [p] }

theorem conflict?_eq_none_iff {p : Project} {projects : List Project} :
    conflict? p projects = none ↔ ¬ ∃ q ∈ projects, q.name = p.name ∨ q.path = p.path := by
  induction projects with
  | nil => simp [conflict?]
  | cons q more ih =>
    rw [conflict?]
    by_cases hname : q.name = p.name
    · simp [hname]
    · by_cases hpath : q.path = p.path
      · simp [hname, hpath]
      · simp [hname, hpath, ih]

/-- What an addition can do: refuse a project that conflicts and change nothing, or put it at the end
and answer whether the manifest is usable then. -/
theorem add_cases (m : Manifest) (p : Project) :
    (m.Conflicts p ∧ ∃ failure, m.add p = (m, .error failure)) ∨
      (¬ m.Conflicts p ∧ m.add p = (m.extended p, (m.extended p).validate)) := by
  cases hconflict : conflict? p m.projects with
  | none => exact .inr ⟨conflict?_eq_none_iff.1 hconflict, by rw [add, hconflict]; rfl⟩
  | some c =>
    refine .inl ⟨?_, .plain c.message, by rw [add, hconflict]⟩
    by_contra hnone
    rw [conflict?_eq_none_iff.2 hnone] at hconflict
    cases hconflict

theorem extended_ne (m : Manifest) (p : Project) : m.extended p ≠ m := by
  intro h
  have hprojects : m.projects ++ [p] = m.projects := congrArg Manifest.projects h
  simp at hprojects

theorem add_eq_ok_iff (m : Manifest) (p : Project) :
    (m.add p).2 = .ok () ↔ ¬ m.Conflicts p ∧ (m.extended p).validate = .ok () := by
  obtain ⟨hconflict, failure, hadd⟩ | ⟨hconflict, hadd⟩ := m.add_cases p
  · simp [hadd, hconflict]
  · simp [hadd, hconflict]

theorem add_eq_self_iff (m : Manifest) (p : Project) : (m.add p).1 = m ↔ m.Conflicts p := by
  obtain ⟨hconflict, failure, hadd⟩ | ⟨hconflict, hadd⟩ := m.add_cases p
  · simp [hadd, hconflict]
  · simp [hadd, hconflict, m.extended_ne p]

/-- The projects before a new one have no more flaws than with it. -/
theorem Usable.of_extended {m : Manifest} {p : Project} (h : (m.extended p).Usable)
    (hsome : m.projects ≠ []) : m.Usable := by
  obtain ⟨-, hsound, hdistinct, hparallel⟩ := h
  refine ⟨hsome, fun q hq => hsound q (List.mem_append_left _ hq), ?_, hparallel⟩
  rw [extended, List.map_append] at hdistinct
  exact hdistinct.of_append_left

/-- A manifest that has projects and is unusable. -/
def Broken (m : Manifest) : Prop := m.projects ≠ [] ∧ ¬ m.Usable

theorem Broken.add {m : Manifest} (h : m.Broken) (p : Project) : (m.add p).1.Broken := by
  obtain ⟨-, failure, hadd⟩ | ⟨-, hadd⟩ := m.add_cases p
  · rw [hadd]
    exact h
  · rw [hadd]
    exact ⟨by simp [extended], fun husable => h.2 (husable.of_extended h.1)⟩

/-! A series of additions -/

/-- Add projects one after the other, whatever becomes of each. -/
def addAll (m : Manifest) (ps : List Project) : Manifest := ps.foldl (fun m p => (m.add p).1) m

theorem addAll_cons (m : Manifest) (p : Project) (ps : List Project) :
    m.addAll (p :: ps) = (m.add p).1.addAll ps := rfl

theorem Broken.addAll {m : Manifest} (h : m.Broken) (ps : List Project) : (m.addAll ps).Broken := by
  induction ps generalizing m with
  | nil => exact h
  | cons p ps ih =>
    rw [addAll_cons]
    exact ih (h.add p)

/-- Whatever is refused in a series of additions conflicts with what is there by then. -/
def OnlyConflicts (m : Manifest) (ps : List Project) : Prop :=
  ∀ front p back, ps = front ++ p :: back →
    ((m.addAll front).add p).2 = .ok () ∨ (m.addAll front).Conflicts p

theorem onlyConflicts_cons {m : Manifest} {p : Project} {ps : List Project} :
    m.OnlyConflicts (p :: ps) ↔
      ((m.add p).2 = .ok () ∨ m.Conflicts p) ∧ (m.add p).1.OnlyConflicts ps := by
  constructor
  · intro h
    refine ⟨h [] p ps rfl, fun front q back hps => ?_⟩
    exact h (p :: front) q back (by rw [hps, List.cons_append])
  · rintro ⟨hfirst, hmore⟩ front q back hps
    cases front with
    | nil =>
      obtain ⟨rfl, rfl⟩ := List.cons.inj hps
      exact hfirst
    | cons p' front =>
      obtain ⟨rfl, hrest⟩ := List.cons.inj hps
      exact hmore front q back hrest

/-- An addition to a manifest that is not broken breaks it exactly if the project is refused without
a conflict. -/
theorem broken_add_iff {m : Manifest} (hm : ¬ m.Broken) (p : Project) :
    (m.add p).1.Broken ↔ ¬ ((m.add p).2 = .ok () ∨ m.Conflicts p) := by
  obtain ⟨hconflict, failure, hadd⟩ | ⟨hconflict, hadd⟩ := m.add_cases p
  · simp [hadd, hconflict, hm]
  · simp [hadd, hconflict, Broken, validate_eq_ok_iff, extended]

/-- Through a series of additions a manifest stays as it should exactly if only conflicts are
refused. -/
theorem not_broken_addAll_iff {m : Manifest} (hm : ¬ m.Broken) (ps : List Project) :
    ¬ (m.addAll ps).Broken ↔ m.OnlyConflicts ps := by
  induction ps generalizing m with
  | nil => exact iff_of_true hm fun front p back h => by simp at h
  | cons p ps ih =>
    rw [addAll_cons, onlyConflicts_cons]
    by_cases hfirst : (m.add p).1.Broken
    · have hrefused := (broken_add_iff hm p).1 hfirst
      exact iff_of_false (not_not_intro (hfirst.addAll ps)) fun h => hrefused h.1
    · have htaken := not_not.1 (mt (broken_add_iff hm p).2 hfirst)
      rw [ih hfirst]
      exact ⟨fun h => ⟨htaken, h⟩, And.right⟩

theorem not_broken_iff {m : Manifest} :
    ¬ m.Broken ↔ m.projects = [] ∨ m.validate = .ok () := by
  rw [Broken, not_and_or, not_not, not_not, validate_eq_ok_iff]

/-- What additions do to a manifest that is empty or usable. A project is taken exactly if it conflicts
with none and the manifest is usable with it, and it then stands behind the others. A project that is
refused leaves the manifest as it was exactly if it conflicts; otherwise it has been taken in, and the
manifest is unusable whatever is added. -/
theorem additions_leave_usable_iff (m : Manifest) (hm : m.projects = [] ∨ m.validate = .ok ()) :
    (∀ p, ((m.add p).2 = .ok () ↔ ¬ m.Conflicts p ∧ (m.extended p).validate = .ok ()) ∧
      ((m.add p).2 = .ok () → (m.add p).1 = m.extended p) ∧
      ((m.add p).1 = m ↔ m.Conflicts p) ∧
      ((m.add p).2 ≠ .ok () → ¬ m.Conflicts p → (m.add p).1 = m.extended p ∧
        ∀ ps, ((m.add p).1.addAll ps).validate ≠ .ok ())) ∧
    ∀ ps, ((m.addAll ps).projects = [] ∨ (m.addAll ps).validate = .ok ()) ↔ m.OnlyConflicts ps := by
  have hwhole := not_broken_iff.2 hm
  constructor
  · intro p
    refine ⟨m.add_eq_ok_iff p, ?_, m.add_eq_self_iff p, ?_⟩
    · intro hok
      obtain ⟨-, failure, hadd⟩ | ⟨-, hadd⟩ := m.add_cases p
      · rw [hadd] at hok
        cases hok
      · rw [hadd]
    · intro hrefused hconflict
      have hbroken : (m.add p).1.Broken :=
        (broken_add_iff hwhole p).2 fun h => h.elim hrefused hconflict
      obtain ⟨hshared, -⟩ | ⟨-, hadd⟩ := m.add_cases p
      · exact absurd hshared hconflict
      · refine ⟨by rw [hadd], fun ps hvalid => ?_⟩
        exact (hbroken.addAll ps).2 (validate_eq_ok_iff.1 hvalid)
  · intro ps
    rw [← not_broken_iff, not_broken_addAll_iff hwhole]

/-- A manifest with one project. -/
def oneShop : Manifest := ⟨2, "", [⟨"shop", "/repos/shop", none, none⟩]⟩

/-- It has the name of the other project but for a space. Conflicts are looked for in the names as
they are written, flaws in the names without space around them. -/
def spacedShop : Project := ⟨" shop", "/repos/other", none, none⟩

theorem oneShop_validate : oneShop.validate = .ok () := by
  rw [validate, show oneShop.flaw? = none by decide +kernel]

theorem extended_spacedShop_validate : (oneShop.extended spacedShop).validate =
    .error (Flaw.duplicate "shop").toFailure := by
  rw [validate, show (oneShop.extended spacedShop).flaw? = some (.duplicate "shop") by
    decide +kernel]

theorem not_conflicts_spacedShop : ¬ oneShop.Conflicts spacedShop :=
  conflict?_eq_none_iff.1 (by decide +kernel)

theorem additions_leave_usable_iff_spacedShop :
    oneShop.validate = .ok () ∧
      ((oneShop.add spacedShop).2 ≠ .ok () ∧ ¬ oneShop.Conflicts spacedShop) ∧
      (∀ ps, ((oneShop.add spacedShop).1.addAll ps).validate ≠ .ok ()) ∧
      ¬ oneShop.OnlyConflicts [spacedShop] := by
  have hall := additions_leave_usable_iff oneShop (.inr oneShop_validate)
  obtain ⟨hok, -, -, hstays⟩ := hall.1 spacedShop
  have hrefused : (oneShop.add spacedShop).2 ≠ .ok () := by
    rw [Ne, hok, extended_spacedShop_validate]
    rintro ⟨-, ⟨⟩⟩
  refine ⟨oneShop_validate, ⟨hrefused, not_conflicts_spacedShop⟩,
    (hstays hrefused not_conflicts_spacedShop).2, fun honly => ?_⟩
  exact (honly [] spacedShop [] rfl).elim hrefused not_conflicts_spacedShop

/-- A project can be refused and stay. -/
theorem refused_shop_stays :
    oneShop.validate = .ok () ∧
      (oneShop.add spacedShop).2 = .error (Flaw.duplicate "shop").toFailure ∧
      (oneShop.add spacedShop).1.projects = oneShop.projects ++ [spacedShop] ∧
      (oneShop.add spacedShop).1.validate ≠ .ok () := by
  obtain ⟨hconflict, -⟩ | ⟨-, hadd⟩ := oneShop.add_cases spacedShop
  · exact absurd hconflict not_conflicts_spacedShop
  · rw [hadd, extended_spacedShop_validate]
    exact ⟨oneShop_validate, rfl, rfl, by simp⟩

end Manifest
end ClassAtlas.Batch
