import ClassAtlas.File.Path
import ClassAtlas.Proofs.Text.Pieces

/-!
Paths from the root. Cleaning such a path leaves names that stand for themselves, and a path that is
made of such names is clean. The way from one such path to another is not a path from the root, and
it says where it ends.
-/
namespace ClassAtlas

namespace File.Path

/-- A name that stands for itself in a path. -/
structure Proper (name : String) : Prop where
  nonempty : name ≠ ""
  notHere : name ≠ "."
  notParent : name ≠ ".."
  plain : '/' ∉ name.toList

instance : DecidablePred Proper := fun name =>
  decidable_of_iff (name ≠ "" ∧ name ≠ "." ∧ name ≠ ".." ∧ '/' ∉ name.toList)
    ⟨fun ⟨hempty, hhere, hparent, hplain⟩ => ⟨hempty, hhere, hparent, hplain⟩,
      fun h => ⟨h.nonempty, h.notHere, h.notParent, h.plain⟩⟩

theorem step_proper {name : String} (h : Proper name) (absolute : Bool) (trail : List String) :
    step absolute trail name = name :: trail := by
  simp [step, h.nonempty, h.notHere, h.notParent]

theorem foldl_step_proper {names : List String} (h : ∀ name ∈ names, Proper name)
    (absolute : Bool) (trail : List String) :
    names.foldl (step absolute) trail = names.reverse ++ trail := by
  induction names generalizing trail with
  | nil => rfl
  | cons name more ih =>
    obtain ⟨hname, hmore⟩ := List.forall_mem_cons.1 h
    rw [List.foldl_cons, step_proper hname, ih hmore, List.reverse_cons, List.append_assoc]
    rfl

/-- Cleaning a path from the root never has to keep a way back. -/
theorem proper_step {trail : List String} {name : String} (h : ∀ n ∈ trail, Proper n)
    (hname : '/' ∉ name.toList) : ∀ n ∈ step true trail name, Proper n := by
  unfold step
  split
  · exact h
  · next hskip =>
    obtain ⟨hempty, hhere⟩ : name ≠ "" ∧ name ≠ "." := by simpa using hskip
    split
    · next hparent =>
      cases trail with
      | nil => simp
      | cons last before =>
        obtain ⟨hlast, hbefore⟩ := List.forall_mem_cons.1 h
        simpa [hlast.notParent] using hbefore
    · next hparent =>
      have hproper : Proper name := ⟨hempty, hhere, by simpa using hparent, hname⟩
      exact List.forall_mem_cons.2 ⟨hproper, h⟩

theorem components_ne_nil (path : String) : components path ≠ [] := by
  rw [components, Text.splitOn, Ne, List.map_eq_nil_iff]
  exact Text.pieces_ne_nil '/' path.toList

theorem not_mem_components {path name : String} (h : name ∈ components path) :
    '/' ∉ name.toList := by
  obtain ⟨piece, hpiece, rfl⟩ := List.mem_map.1 h
  simpa using (Text.mem_pieces hpiece).1

theorem proper_cleanComponents {path : String} (h : isAbsolute path = true) :
    ∀ name ∈ cleanComponents path, Proper name := by
  have hfold : ∀ (names trail : List String), (∀ n ∈ names, '/' ∉ n.toList) →
      (∀ n ∈ trail, Proper n) → ∀ n ∈ names.foldl (step true) trail, Proper n := by
    intro names
    induction names with
    | nil => exact fun _ _ htrail => htrail
    | cons name more ih =>
      intro trail hnames htrail
      obtain ⟨hname, hmore⟩ := List.forall_mem_cons.1 hnames
      exact ih _ hmore (proper_step htrail hname)
  intro name hname
  rw [cleanComponents, h, List.mem_reverse] at hname
  exact hfold _ [] (fun _ => not_mem_components) (by simp) name hname

@[simp] theorem isAbsolute_ofComponents (names : List String) :
    isAbsolute (ofComponents true names) = true := by
  simp [isAbsolute, ofComponents]

theorem cleanComponents_ofComponents {names : List String} (h : ∀ n ∈ names, Proper n) :
    cleanComponents (ofComponents true names) = names := by
  rw [cleanComponents, isAbsolute_ofComponents]
  cases names with
  | nil => decide
  | cons name more =>
    have hslash : (ofComponents true (name :: more)).toList =
        [] ++ '/' :: (Text.join "/" (name :: more)).toList := by
      simp [ofComponents]
    have hsplit : components (ofComponents true (name :: more)) = "" :: name :: more := by
      rw [components, Text.splitOn, hslash, Text.pieces_append, List.map_append]
      exact congrArg ("" :: ·) (Text.splitOn_join (List.cons_ne_nil _ _) fun n hn => (h n hn).plain)
    have hskip : step true [] "" = [] := rfl
    rw [hsplit, List.foldl_cons, hskip, foldl_step_proper h]
    simp

/-- A path from the root that is clean. -/
def Canonical (path : String) : Prop :=
  ∃ names, (∀ n ∈ names, Proper n) ∧ path = ofComponents true names

theorem Canonical.isAbsolute {path : String} (h : Canonical path) : isAbsolute path = true := by
  obtain ⟨names, -, rfl⟩ := h
  exact isAbsolute_ofComponents names

theorem Canonical.eq {path : String} (h : Canonical path) :
    path = ofComponents true (cleanComponents path) := by
  obtain ⟨names, hnames, rfl⟩ := h
  rw [cleanComponents_ofComponents hnames]

theorem canonical_clean {path : String} (h : isAbsolute path = true) : Canonical (clean path) :=
  ⟨cleanComponents path, proper_cleanComponents h, by rw [clean, h]⟩

theorem join_eq {path : String} (h : isAbsolute path = true) (name : String) :
    (isAbsolute (Text.join "/" [path, name]) = true ∧
      join path name = clean (Text.join "/" [path, name])) ∨ join path name = clean path := by
  have hpath : path ≠ "" := by
    rintro rfl
    simp [isAbsolute] at h
  by_cases hname : name = ""
  · right
    simp [join, joinAll, hpath, hname]
  · left
    obtain ⟨c, cs, hcs⟩ := List.exists_cons_of_ne_nil (l := path.toList) (by simpa using hpath)
    rw [isAbsolute, hcs] at h
    refine ⟨?_, by simp [join, joinAll, hpath, hname]⟩
    rw [isAbsolute, Text.toList_join_cons, hcs]
    exact h

theorem canonical_join {path : String} (h : isAbsolute path = true) (name : String) :
    Canonical (join path name) := by
  rcases join_eq h name with ⟨habsolute, hjoin⟩ | hjoin
  · rw [hjoin]
    exact canonical_clean habsolute
  · rw [hjoin]
    exact canonical_clean h

theorem isAbsolute_absolute {directory : String} (h : isAbsolute directory = true) (path : String) :
    isAbsolute (absolute directory path) = true := by
  unfold absolute
  split
  · next hpath => exact (canonical_clean hpath).isAbsolute
  · exact (canonical_join h path).isAbsolute

theorem isAbsolute_parent {path : String} (h : isAbsolute path = true) :
    isAbsolute (parent path) = true := by
  have hhead : path.toList.head? = some '/' := by simpa [isAbsolute] using h
  -- the last slash of the path
  have hmem : '/' ∈ path.toList.reverse := List.mem_reverse.2 (List.mem_of_head? hhead)
  obtain ⟨after, before, hsplit, hafter⟩ := List.eq_append_cons_of_mem hmem
  have hpath : path.toList = before.reverse ++ '/' :: after.reverse := by
    rw [← List.reverse_reverse path.toList, hsplit]
    simp
  rw [parent, Text.beforeLast?_eq hpath (by simpa using hafter)]
  cases hbefore : before.reverse with
  | nil => rfl
  | cons c more =>
    rw [hbefore] at hpath
    have habsolute : isAbsolute (String.ofList (c :: more)) = true := by
      rw [hpath] at hhead
      simpa [isAbsolute] using hhead
    have hnonempty : (String.ofList (c :: more)).isEmpty = false := by simp
    dsimp only
    rw [hnonempty]
    exact (canonical_clean habsolute).isAbsolute

/-! The way from one path to another -/

theorem dropCommon_eq (a b : List String) :
    ∃ common, a = common ++ (dropCommon a b).1 ∧ b = common ++ (dropCommon a b).2 := by
  fun_induction dropCommon a b with
  | case1 x xs y ys heq ih =>
    obtain ⟨common, hxs, hys⟩ := ih
    obtain rfl : x = y := by simpa using heq
    exact ⟨x :: common, by rw [List.cons_append, ← hxs], by rw [List.cons_append, ← hys]⟩
  | case2 x xs y ys hne => exact ⟨[], rfl, rfl⟩
  | case3 a b hcases => exact ⟨[], rfl, rfl⟩

/-- The way from one path to another: back as far as they differ, and on. -/
def way (origin target : String) : List String :=
  let rest := dropCommon (cleanComponents origin) (cleanComponents target)
  rest.1.map (fun _ => "..") ++ rest.2

theorem dropCommon_append (names more : List String) :
    dropCommon names (names ++ more) = ([], more) := by
  induction names with
  | nil => cases more <;> simp [dropCommon]
  | cons name names ih => simp [dropCommon, ih]

@[simp] theorem way_self (path : String) : way path path = [] := by
  have hself := dropCommon_append (cleanComponents path) []
  rw [List.append_nil] at hself
  simp [way, hself]

theorem relative?_eq {origin target : String} (ho : isAbsolute origin = true)
    (ht : isAbsolute target = true) :
    relative? origin target = some (ofComponents false (way origin target)) := by
  obtain ⟨common, horigin, -⟩ := dropCommon_eq (cleanComponents origin) (cleanComponents target)
  have hback :
      (dropCommon (cleanComponents origin) (cleanComponents target)).1.head? ≠ some ".." := by
    intro hhead
    have hmem := List.mem_of_mem_head? hhead
    have hproper := proper_cleanComponents ho ".." (horigin ▸ List.mem_append_right _ hmem)
    exact hproper.notParent rfl
  simp [relative?, ho, ht, hback, way]

/-- A way back and then on, for two paths from the root. -/
theorem way_eq (origin : String) {target : String} (ht : isAbsolute target = true) :
    ∃ common back on,
      cleanComponents origin = common ++ back ∧ cleanComponents target = common ++ on ∧
      way origin target = List.replicate back.length ".." ++ on ∧ ∀ n ∈ on, Proper n := by
  obtain ⟨common, horigin, htarget⟩ :=
    dropCommon_eq (cleanComponents origin) (cleanComponents target)
  refine ⟨common, _, _, horigin, htarget, by simp [way], fun n hn => ?_⟩
  exact proper_cleanComponents ht n (htarget ▸ List.mem_append_right _ hn)

/-- The names of a way can be read off its text. -/
theorem mem_way {origin target name : String} (ht : isAbsolute target = true)
    (h : name ∈ way origin target) :
    name ≠ "" ∧ name ≠ "." ∧ '/' ∉ name.toList := by
  obtain ⟨common, back, on, -, -, hway, hon⟩ := way_eq origin ht
  rw [hway, List.mem_append] at h
  rcases h with h | h
  · rw [List.eq_of_mem_replicate h]
    decide
  · exact ⟨(hon name h).nonempty, (hon name h).notHere, (hon name h).plain⟩

theorem ofComponents_inj {a b : List String}
    (ha : ∀ n ∈ a, n ≠ "." ∧ '/' ∉ n.toList) (hb : ∀ n ∈ b, n ≠ "." ∧ '/' ∉ n.toList)
    (h : ofComponents false a = ofComponents false b) : a = b := by
  have hsplit : ∀ l : List String, l ≠ [] → (∀ n ∈ l, n ≠ "." ∧ '/' ∉ n.toList) →
      components (ofComponents false l) = l := by
    intro l hne hl
    have hl' : l.isEmpty = false := by simpa using hne
    rw [ofComponents, hl']
    exact Text.splitOn_join hne fun n hn => (hl n hn).2
  have hhere : ∀ l : List String, l ≠ [] → (∀ n ∈ l, n ≠ "." ∧ '/' ∉ n.toList) →
      ofComponents false l ≠ "." := by
    intro l hne hl heq
    have hcomponents := hsplit l hne hl
    rw [heq] at hcomponents
    have hmem : "." ∈ l := hcomponents ▸ (by decide : "." ∈ components ".")
    exact (hl "." hmem).1 rfl
  by_cases hane : a = []
  · by_cases hbne : b = []
    · rw [hane, hbne]
    · exact absurd (by rw [← h, hane]; rfl) (hhere b hbne hb)
  · by_cases hbne : b = []
    · exact absurd (by rw [h, hbne]; rfl) (hhere a hane ha)
    · rw [← hsplit a hane ha, h, hsplit b hbne hb]

theorem replicate_append_inj {m n : Nat} {a b : List String} (ha : ".." ∉ a) (hb : ".." ∉ b)
    (h : List.replicate m ".." ++ a = List.replicate n ".." ++ b) : m = n ∧ a = b := by
  induction m generalizing n with
  | zero =>
    cases n with
    | zero => exact ⟨rfl, h⟩
    | succ n =>
      have hmem : ".." ∈ List.replicate 0 ".." ++ a := by
        rw [h]
        simp [List.replicate_succ]
      exact absurd hmem (by simpa using ha)
  | succ m ih =>
    cases n with
    | zero =>
      have hmem : ".." ∈ List.replicate 0 ".." ++ b := by
        rw [← h]
        simp [List.replicate_succ]
      exact absurd hmem (by simpa using hb)
    | succ n =>
      rw [List.replicate_succ, List.replicate_succ, List.cons_append, List.cons_append,
        List.cons.injEq] at h
      obtain ⟨hmn, hab⟩ := ih h.2
      exact ⟨by rw [hmn], hab⟩

/-- From one place, different ways lead to different places. -/
theorem relative?_inj {origin a b : String} (ho : isAbsolute origin = true) (ha : Canonical a)
    (hb : Canonical b) (h : relative? origin a = relative? origin b) : a = b := by
  rw [relative?_eq ho ha.isAbsolute, relative?_eq ho hb.isAbsolute, Option.some.injEq] at h
  have hway : way origin a = way origin b := by
    refine ofComponents_inj (fun n hn => ?_) (fun n hn => ?_) h
    · exact (mem_way ha.isAbsolute hn).2
    · exact (mem_way hb.isAbsolute hn).2
  obtain ⟨common, back, on, horigin, htarget, hwaya, hon⟩ := way_eq origin ha.isAbsolute
  obtain ⟨common', back', on', horigin', htarget', hwayb, hon'⟩ := way_eq origin hb.isAbsolute
  rw [hwaya, hwayb] at hway
  obtain ⟨hback, rfl⟩ := replicate_append_inj (fun hm => (hon _ hm).notParent rfl)
    (fun hm => (hon' _ hm).notParent rfl) hway
  obtain ⟨rfl, -⟩ := List.append_inj' (horigin.symm.trans horigin') hback
  rw [ha.eq, hb.eq, htarget, htarget']

/-- A path that starts with a name is not one from the root. -/
theorem isAbsolute_ofRelative {names : List String} (h : ∀ n ∈ names, n ≠ "" ∧ '/' ∉ n.toList) :
    isAbsolute (ofComponents false names) = false := by
  cases names with
  | nil => decide
  | cons name more =>
    obtain ⟨hempty, hslash⟩ := h name List.mem_cons_self
    obtain ⟨c, cs, hcs⟩ := List.exists_cons_of_ne_nil (mt String.toList_eq_nil_iff.1 hempty)
    have hc : c ≠ '/' := by
      rintro rfl
      exact hslash (hcs ▸ List.mem_cons_self)
    have hhead : (ofComponents false (name :: more)).toList.head? = some c := by
      cases more with
      | nil => simp [ofComponents, hcs]
      | cons next rest => simp [ofComponents, Text.toList_join_cons, hcs]
    rw [isAbsolute, hhead]
    simpa using hc

/-- No way is a path from the root. -/
theorem isAbsolute_way {origin target : String} (ht : isAbsolute target = true) :
    isAbsolute (ofComponents false (way origin target)) = false :=
  isAbsolute_ofRelative fun _ hn => ⟨(mem_way ht hn).1, (mem_way ht hn).2.2⟩

theorem mem_toList_ofComponents {names : List String} {c : Char}
    (h : c ∈ (ofComponents false names).toList) (hdot : c ≠ '.') (hslash : c ≠ '/') :
    ∃ name ∈ names, c ∈ name.toList := by
  rw [ofComponents, if_neg (by simp)] at h
  split at h
  · exact absurd (by simpa using h) hdot
  · rcases Text.mem_toList_join h with hsep | hname
    · exact absurd (by simpa using hsep) hslash
    · exact hname

/-- A character that is not a dot or a slash stands in a name on the way on. -/
theorem mem_on_of_mem_way {origin target : String} {c : Char} {back : Nat} {on : List String}
    (hway : way origin target = List.replicate back ".." ++ on)
    (h : c ∈ (ofComponents false (way origin target)).toList) (hdot : c ≠ '.') (hslash : c ≠ '/') :
    ∃ name ∈ on, c ∈ name.toList := by
  obtain ⟨name, hmem, hc⟩ := mem_toList_ofComponents h hdot hslash
  rw [hway, List.mem_append] at hmem
  rcases hmem with hmem | hmem
  · rw [List.eq_of_mem_replicate hmem] at hc
    exact absurd (by simpa using hc) hdot
  · exact ⟨name, hmem, hc⟩

theorem mem_toList_way {origin target : String} {c : Char} (ht : Canonical target)
    (h : c ∈ (ofComponents false (way origin target)).toList) (hdot : c ≠ '.') (hslash : c ≠ '/') :
    c ∈ target.toList := by
  obtain ⟨common, back, on, -, htarget, hway, -⟩ := way_eq origin ht.isAbsolute
  obtain ⟨name, hmem, hc⟩ := mem_on_of_mem_way hway h hdot hslash
  rw [ht.eq, ofComponents, if_pos rfl, String.toList_append, List.mem_append]
  exact .inr (Text.mem_toList_join_of_mem (htarget ▸ List.mem_append_right _ hmem) hc)

theorem mem_cleanComponents {path name : String} (h : name ∈ cleanComponents path) :
    name ∈ components path ∨ name = ".." := by
  have hstep : ∀ (trail : List String) (next : String),
      ∀ n ∈ step (isAbsolute path) trail next, n = next ∨ n ∈ trail ∨ n = ".." := by
    intro trail next n hn
    unfold step at hn
    split at hn
    · exact .inr (.inl hn)
    · split at hn
      · cases trail with
        | nil => grind
        | cons last before => grind
      · grind
  have hfold : ∀ (names trail : List String),
      ∀ n ∈ names.foldl (step (isAbsolute path)) trail, n ∈ names ∨ n ∈ trail ∨ n = ".." := by
    intro names
    induction names with
    | nil => exact fun _ _ hn => .inr (.inl hn)
    | cons next more ih =>
      intro trail n hn
      rcases ih _ n hn with hn | hn | hn
      · exact .inl (List.mem_cons_of_mem _ hn)
      · rcases hstep trail next n hn with rfl | hn | hn
        · exact .inl List.mem_cons_self
        · exact .inr (.inl hn)
        · exact .inr (.inr hn)
      · exact .inr (.inr hn)
  rcases hfold _ _ name (List.mem_reverse.1 h) with h | h | h
  · exact .inl h
  · cases h
  · exact .inr h

/-- A clean path is written in the characters of the path it comes from, apart from dots and
slashes. -/
theorem mem_toList_clean {path : String} {c : Char} (hpath : isAbsolute path = true)
    (h : c ∈ (clean path).toList) (hdot : c ≠ '.') (hslash : c ≠ '/') : c ∈ path.toList := by
  rw [clean, hpath, ofComponents, if_pos rfl, String.toList_append, List.mem_append] at h
  rcases h with h | h
  · exact absurd (by simpa using h) hslash
  rcases Text.mem_toList_join h with h | ⟨name, hname, hc⟩
  · exact absurd (by simpa using h) hslash
  rcases mem_cleanComponents hname with hname | rfl
  · obtain ⟨piece, hpiece, rfl⟩ := List.mem_map.1 hname
    exact (Text.mem_pieces hpiece).2 c (by simpa using hc)
  · exact absurd (by simpa using hc) hdot

theorem mem_toList_join {path name : String} {c : Char} (hpath : isAbsolute path = true)
    (h : c ∈ (join path name).toList) (hdot : c ≠ '.') (hslash : c ≠ '/') :
    c ∈ path.toList ∨ c ∈ name.toList := by
  rcases join_eq hpath name with ⟨habsolute, hjoin⟩ | hjoin
  · rw [hjoin] at h
    rcases Text.mem_toList_join (mem_toList_clean habsolute h hdot hslash) with h | ⟨n, hn, hc⟩
    · exact absurd (by simpa using h) hslash
    · rcases List.mem_pair.1 hn with rfl | rfl
      · exact .inl hc
      · exact .inr hc
  · rw [hjoin] at h
    exact .inl (mem_toList_clean hpath h hdot hslash)

/-- The last name of a path from the root stands behind a slash. -/
theorem toList_ofComponents_concat (names : List String) (last : String) :
    ∃ front, (ofComponents true (names ++ [last])).toList = front ++ '/' :: last.toList := by
  by_cases hne : names = []
  · exact ⟨[], by simp [ofComponents, hne]⟩
  · exact ⟨'/' :: (Text.join "/" names).toList,
      by simp [ofComponents, Text.toList_join_concat hne]⟩

/-- A tail without slashes of a way belongs to its last name. -/
theorem suffix_of_suffix_way {names : List String} {last : String} {tail : List Char}
    (htail : '/' ∉ tail) (h : tail <:+ (ofComponents false (names ++ [last])).toList) :
    tail <:+ last.toList := by
  by_cases hne : names = []
  · simpa [ofComponents, hne] using h
  · have htext : (ofComponents false (names ++ [last])).toList =
        (Text.join "/" names).toList ++ '/' :: last.toList := by
      simp [ofComponents, Text.toList_join_concat hne]
    exact Text.suffix_of_suffix_append htail (htext ▸ h)

/-- What stands behind the last dot of the last name is the extension. -/
theorem extension_of_stem {path : String} {stem ending : List Char}
    (h : (Text.afterLast '/' path).toList = stem ++ '.' :: ending) (hending : '.' ∉ ending) :
    extension path = String.ofList ('.' :: ending) := by
  have hdot : Text.containsChar (Text.afterLast '/' path) '.' = true := by
    simp [Text.containsChar, h]
  rw [extension, if_pos hdot, Text.afterLast_eq h hending]
  exact String.ofList_append.symm

/-- What ends like a class file on the way to it has the extension of one. -/
theorem extension_of_endsWith_way {origin target : String} (ht : Canonical target)
    (h : Text.endsWith (ofComponents false (way origin target)) ".class" = true) :
    extension target = ".class" := by
  have hsuffix : ".class".toList <:+ (ofComponents false (way origin target)).toList :=
    List.isSuffixOf_iff_suffix.1 h
  obtain ⟨common, back, on, -, htarget, hway, hon⟩ := way_eq origin ht.isAbsolute
  have hc : 'c' ∈ (ofComponents false (way origin target)).toList := hsuffix.subset (by decide)
  obtain ⟨name, hname, -⟩ := mem_on_of_mem_way hway hc (by decide) (by decide)
  obtain ⟨names, last, rfl⟩ := List.eq_nil_or_concat on |>.resolve_left (List.ne_nil_of_mem hname)
  rw [List.concat_eq_append] at hway htarget hon
  rw [hway, ← List.append_assoc] at hsuffix
  obtain ⟨stem, hstem⟩ := suffix_of_suffix_way (by decide) hsuffix
  have hlast : Text.afterLast '/' target = last := by
    obtain ⟨front, hfront⟩ := toList_ofComponents_concat (common ++ names) last
    rw [List.append_assoc, ← htarget, ← ht.eq] at hfront
    rw [Text.afterLast_eq hfront (hon last (by simp)).plain, String.ofList_toList]
  exact extension_of_stem (hlast ▸ hstem.symm) (by decide)

end File.Path
end ClassAtlas
