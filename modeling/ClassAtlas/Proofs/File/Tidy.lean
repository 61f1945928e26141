import ClassAtlas.Proofs.File.Path

/-!
Clean paths, whether or not they start at the root. Their ways back come first, and there are none
from the root; a path of this form is left as it is by cleaning. A proper name joined to a path is
its last name, and nothing else changes.
-/
namespace ClassAtlas.File.Path

/-- Names that cleaning leaves as they are: ways back come first, and there are none from the root. -/
def Tidy (absolute : Bool) (names : List String) : Prop :=
  ∃ back on, names = List.replicate back ".." ++ on ∧ (∀ n ∈ on, Proper n) ∧
    (absolute = true → back = 0)

namespace Tidy

variable {absolute : Bool} {names : List String}

theorem concat (h : Tidy absolute names) {name : String} (hname : Proper name) :
    Tidy absolute (names ++ [name]) := by
  obtain ⟨back, on, rfl, hon, hroot⟩ := h
  refine ⟨back, on ++ [name], List.append_assoc _ _ _, ?_, hroot⟩
  intro n hn
  rcases List.mem_append.1 hn with hn | hn
  · exact hon n hn
  · rw [List.mem_singleton.1 hn]
    exact hname

theorem mem (h : Tidy absolute names) {name : String} (hname : name ∈ names) :
    name ≠ "" ∧ '/' ∉ name.toList := by
  obtain ⟨back, on, rfl, hon, -⟩ := h
  rcases List.mem_append.1 hname with hname | hname
  · rw [List.eq_of_mem_replicate hname]
    decide
  · exact ⟨(hon name hname).nonempty, (hon name hname).plain⟩

end Tidy

/-! Cleaning makes names tidy -/

theorem step_tidy {absolute : Bool} {trail : List String} (h : Tidy absolute trail.reverse)
    {name : String} (hname : '/' ∉ name.toList) :
    Tidy absolute (step absolute trail name).reverse := by
  unfold step
  split
  · exact h
  · next hskip =>
    obtain ⟨hempty, hhere⟩ : name ≠ "" ∧ name ≠ "." := by simpa using hskip
    split
    · cases trail with
      | nil =>
        cases absolute with
        | true => exact ⟨0, [], rfl, by simp, fun _ => rfl⟩
        | false => exact ⟨1, [], rfl, by simp, by simp⟩
      | cons last before =>
        obtain ⟨back, on, htrail, hon, hroot⟩ := h
        rw [List.reverse_cons] at htrail
        -- the last name is a way back exactly if there is nothing else
        rcases List.eq_nil_or_concat on with rfl | ⟨front, final, rfl⟩
        · rw [List.append_nil] at htrail
          have hback : back = before.length + 1 := by
            simpa using (congrArg List.length htrail).symm
          have hlast : last = ".." :=
            List.eq_of_mem_replicate (htrail ▸ List.mem_append_right _ List.mem_cons_self)
          subst last
          refine ⟨back + 1, [], ?_, by simp, ?_⟩
          · simp [htrail, List.replicate_succ', List.reverse_cons]
          · intro habsolute
            have := hroot habsolute
            omega
        · rw [List.concat_eq_append, ← List.append_assoc] at htrail
          obtain ⟨hbefore, hlast⟩ := List.append_inj' htrail rfl
          obtain rfl : last = final := by simpa using hlast
          have hproper : Proper last := hon last (by simp)
          have hne : (last == "..") = false := by simpa using hproper.notParent
          simp only [hne, Bool.false_eq_true, if_false]
          exact ⟨back, front, hbefore, fun n hn => hon n (by simp [hn]), hroot⟩
    · next hparent =>
      have hproper : Proper name := ⟨hempty, hhere, by simpa using hparent, hname⟩
      rw [List.reverse_cons]
      exact h.concat hproper

theorem tidy_cleanComponents (path : String) : Tidy (isAbsolute path) (cleanComponents path) := by
  have hfold : ∀ (names trail : List String), (∀ n ∈ names, '/' ∉ n.toList) →
      Tidy (isAbsolute path) trail.reverse →
        Tidy (isAbsolute path) (names.foldl (step (isAbsolute path)) trail).reverse := by
    intro names
    induction names with
    | nil => exact fun _ _ htrail => htrail
    | cons name more ih =>
      intro trail hnames htrail
      obtain ⟨hname, hmore⟩ := List.forall_mem_cons.1 hnames
      exact ih _ hmore (step_tidy htrail hname)
  exact hfold _ [] (fun _ => not_mem_components) ⟨0, [], rfl, by simp, fun _ => rfl⟩

/-! Tidy names are left as they are -/

theorem foldl_step_back (back kept : Nat) :
    (List.replicate back "..").foldl (step false) (List.replicate kept "..") =
      List.replicate (back + kept) ".." := by
  induction back generalizing kept with
  | zero => rw [Nat.zero_add]; rfl
  | succ back ih =>
    have hstep : step false (List.replicate kept "..") ".." = List.replicate (kept + 1) ".." := by
      cases kept with
      | zero => rfl
      | succ kept => simp [step, List.replicate_succ]
    rw [List.replicate_succ, List.foldl_cons, hstep, ih, Nat.add_right_comm, Nat.add_assoc]

theorem foldl_step_tidy {absolute : Bool} {names : List String} (h : Tidy absolute names) :
    names.foldl (step absolute) [] = names.reverse := by
  obtain ⟨back, on, rfl, hon, hroot⟩ := h
  rw [List.foldl_append, List.reverse_append, List.reverse_replicate]
  cases absolute with
  | true =>
    rw [hroot rfl]
    exact foldl_step_proper hon true []
  | false =>
    rw [show [] = List.replicate 0 ".." from rfl, foldl_step_back, foldl_step_proper hon]
    rfl

/-- Before the names of a path from the root stands an empty one. -/
theorem components_ofComponents (absolute : Bool) {names : List String} (hne : names ≠ [])
    (h : ∀ n ∈ names, '/' ∉ n.toList) :
    components (ofComponents absolute names) = if absolute then "" :: names else names := by
  have hsplit : Text.splitOn '/' (Text.join "/" names) = names := Text.splitOn_join hne h
  cases absolute with
  | true =>
    have htext : (ofComponents true names).toList = [] ++ '/' :: (Text.join "/" names).toList := by
      simp [ofComponents]
    rw [components, Text.splitOn, htext, Text.pieces_append, List.map_append]
    exact congrArg ("" :: ·) hsplit
  | false =>
    have htext : ofComponents false names = Text.join "/" names := by simp [ofComponents, hne]
    rw [components, htext]
    exact hsplit

theorem cleanComponents_ofTidy {absolute : Bool} {names : List String} (h : Tidy absolute names) :
    cleanComponents (ofComponents absolute names) = names := by
  cases absolute with
  | true =>
    obtain ⟨back, on, rfl, hon, hroot⟩ := h
    rw [hroot rfl]
    exact cleanComponents_ofComponents hon
  | false =>
    rw [cleanComponents, isAbsolute_ofRelative fun _ hn => h.mem hn]
    cases names with
    | nil => decide
    | cons name more =>
      rw [components_ofComponents false (List.cons_ne_nil _ _) fun n hn => (h.mem hn).2]
      exact (congrArg List.reverse (foldl_step_tidy h)).trans (List.reverse_reverse _)

theorem isAbsolute_ofTidy {absolute : Bool} {names : List String} (h : Tidy absolute names) :
    isAbsolute (ofComponents absolute names) = absolute := by
  cases absolute with
  | true => exact isAbsolute_ofComponents names
  | false => exact isAbsolute_ofRelative fun _ hn => h.mem hn

theorem clean_ofTidy {absolute : Bool} {names : List String} (h : Tidy absolute names) :
    clean (ofComponents absolute names) = ofComponents absolute names := by
  rw [clean, isAbsolute_ofTidy h, cleanComponents_ofTidy h]

theorem clean_clean (path : String) : clean (clean path) = clean path :=
  clean_ofTidy (tidy_cleanComponents path)

theorem clean_join (path : String) {name : String} (h : name ≠ "") :
    clean (join path name) = join path name := by
  by_cases hpath : path = ""
  · simp [join, joinAll, hpath, h, clean_clean]
  · simp [join, joinAll, hpath, h, clean_clean]

theorem ofTidy_ne_empty {absolute : Bool} {names : List String} (h : Tidy absolute names) :
    ofComponents absolute names ≠ "" := by
  intro hempty
  have hnames := cleanComponents_ofTidy h
  rw [hempty] at hnames
  obtain rfl : [] = names := hnames
  cases absolute <;> exact absurd hempty (by decide)

/-! Names below a path -/

/-- Names below a path are added to its own. -/
theorem join_eq_ofNames {path below : String} (hpath : path ≠ "")
    (hbelow : ∀ n ∈ components below, Proper n) :
    join path below = ofComponents (isAbsolute path) (cleanComponents path ++ components below) := by
  have hne : below ≠ "" := by
    rintro rfl
    exact (hbelow "" (by decide)).nonempty rfl
  have htext : (Text.join "/" [path, below]).toList = path.toList ++ '/' :: below.toList := by
    simp [Text.toList_join_cons]
  have habsolute : isAbsolute (Text.join "/" [path, below]) = isAbsolute path := by
    obtain ⟨c, cs, hcs⟩ := List.exists_cons_of_ne_nil (mt String.toList_eq_nil_iff.1 hpath)
    simp [isAbsolute, htext, hcs]
  have hsplit : components (Text.join "/" [path, below]) = components path ++ components below := by
    simp [components, Text.splitOn, htext, Text.pieces_append]
  have hjoin : join path below = clean (Text.join "/" [path, below]) := by
    simp [join, joinAll, hpath, hne]
  rw [hjoin, clean, cleanComponents, hsplit, habsolute, List.foldl_append, foldl_step_proper hbelow,
    List.reverse_append, List.reverse_reverse]
  rfl

theorem join_eq_ofComponents {path name : String} (hpath : path ≠ "") (hname : Proper name) :
    join path name = ofComponents (isAbsolute path) (cleanComponents path ++ [name]) := by
  have hsplit : components name = [name] := by
    simp [components, Text.splitOn, Text.pieces_of_not_mem hname.plain]
  rw [join_eq_ofNames hpath (by simpa [hsplit] using hname), hsplit]

theorem tidy_below (path : String) {name : String} (hname : Proper name) :
    Tidy (isAbsolute path) (cleanComponents path ++ [name]) :=
  (tidy_cleanComponents path).concat hname

theorem isAbsolute_join {path name : String} (hpath : path ≠ "") (hname : Proper name) :
    isAbsolute (join path name) = isAbsolute path := by
  rw [join_eq_ofComponents hpath hname, isAbsolute_ofTidy (tidy_below path hname)]

theorem cleanComponents_join {path name : String} (hpath : path ≠ "") (hname : Proper name) :
    cleanComponents (join path name) = cleanComponents path ++ [name] := by
  rw [join_eq_ofComponents hpath hname, cleanComponents_ofTidy (tidy_below path hname)]

/-- Before the last name stands the path to it and a slash, unless the name is all there is. -/
theorem toList_ofComponents_last {absolute : Bool} {names : List String}
    (h : absolute = true ∨ names ≠ []) (name : String) :
    (ofComponents absolute (names ++ [name])).toList =
      (if names = [] then [] else (ofComponents absolute names).toList) ++ '/' :: name.toList := by
  by_cases hnames : names = []
  · obtain rfl : absolute = true := h.resolve_right (not_not_intro hnames)
    simp [hnames, ofComponents]
  · cases absolute <;> simp [hnames, ofComponents, Text.toList_join_concat hnames]

theorem parent_join {path name : String} (hpath : path ≠ "") (hname : Proper name) :
    parent (join path name) = clean path := by
  rw [join_eq_ofComponents hpath hname, clean, parent]
  have htidy := tidy_cleanComponents path
  generalize isAbsolute path = absolute at htidy ⊢
  generalize cleanComponents path = names at htidy ⊢
  by_cases h : absolute = true ∨ names ≠ []
  · rw [Text.beforeLast?_eq (toList_ofComponents_last h name) hname.plain]
    by_cases hnames : names = []
    · obtain rfl : absolute = true := h.resolve_right (not_not_intro hnames)
      rw [hnames]
      rfl
    · simp [hnames, ofTidy_ne_empty htidy, clean_ofTidy htidy]
  · obtain ⟨rfl, rfl⟩ : absolute = false ∧ names = [] := by simpa using h
    have hname' : ofComponents false ([] ++ [name]) = name := by simp [ofComponents]
    rw [hname', Text.beforeLast?_of_not_mem hname.plain]
    rfl

theorem base_join {path name : String} (hpath : path ≠ "") (hname : Proper name) :
    base (join path name) = name := by
  have hnil : name.toList ≠ [] := mt String.toList_eq_nil_iff.1 hname.nonempty
  have hbase : ∀ {text : String} {front : List Char}, text.toList = front ++ name.toList →
      base text = Text.afterLast '/' text := by
    intro text front htext
    have hne : text ≠ "" := by
      rintro rfl
      exact hnil (List.append_eq_nil_iff.1 htext.symm).2
    simp [base, Text.dropTrailing_of_suffix htext hnil hname.plain, hne]
  rw [join_eq_ofComponents hpath hname]
  generalize isAbsolute path = absolute
  generalize cleanComponents path = names
  by_cases h : absolute = true ∨ names ≠ []
  · have htext := toList_ofComponents_last h name
    rw [hbase (htext.trans (List.append_cons _ _ _)), Text.afterLast_eq htext hname.plain,
      String.ofList_toList]
  · obtain ⟨rfl, rfl⟩ : absolute = false ∧ names = [] := by simpa using h
    have hname' : ofComponents false ([] ++ [name]) = name := by simp [ofComponents]
    rw [hname', hbase (List.nil_append _).symm, Text.afterLast_of_not_mem hname.plain]

/-- Every character of the last name of a path is one of the path, unless the path has no name. -/
theorem mem_base {path : String} {c : Char} (h : c ∈ (base path).toList) (hdot : c ≠ '.')
    (hslash : c ≠ '/') : c ∈ path.toList := by
  unfold base at h
  split at h
  · exact absurd (List.mem_singleton.1 h) hdot
  · simp only at h
    split at h
    · exact absurd (List.mem_singleton.1 h) hslash
    · rw [Text.afterLast, String.toList_ofList, List.mem_reverse] at h
      have htrimmed := List.mem_reverse.1 ((List.takeWhile_sublist _).subset h)
      rw [Text.dropTrailing, String.toList_ofList, List.mem_reverse] at htrimmed
      exact List.mem_reverse.1 ((List.dropWhile_sublist _).subset htrimmed)

/-! Paths inside others -/

/-- One path is that of a place in another, or of the other itself, as far as names tell. -/
def Inside (path dir : String) : Prop :=
  isAbsolute path = isAbsolute dir ∧ cleanComponents dir <+: cleanComponents path

theorem join_ne_empty {path name : String} (hpath : path ≠ "") (hname : Proper name) :
    join path name ≠ "" := by
  intro hempty
  have hnames := cleanComponents_join hpath hname
  rw [hempty] at hnames
  exact List.append_ne_nil_of_right_ne_nil _ (List.cons_ne_nil _ _) hnames.symm

theorem Inside.of_join {path dir name : String} (hdir : dir ≠ "") (hname : Proper name)
    (h : Inside path (join dir name)) : Inside path dir := by
  obtain ⟨habsolute, hnames⟩ := h
  rw [isAbsolute_join hdir hname] at habsolute
  rw [cleanComponents_join hdir hname] at hnames
  exact ⟨habsolute, (List.prefix_append _ _).trans hnames⟩

/-- Nothing below one name is inside another name of the same place. -/
theorem not_inside_sibling {dir a b name : String} (hdir : dir ≠ "") (ha : Proper a) (hb : Proper b)
    (hne : a ≠ b) (hname : Proper name) : ¬ Inside (join (join dir a) name) (join dir b) := by
  rintro ⟨-, hnames⟩
  rw [cleanComponents_join (join_ne_empty hdir ha) hname, cleanComponents_join hdir ha,
    cleanComponents_join hdir hb, List.append_assoc, List.prefix_append_right_inj] at hnames
  obtain ⟨rest, hrest⟩ := hnames
  exact hne (List.cons.inj hrest).1.symm

end ClassAtlas.File.Path
