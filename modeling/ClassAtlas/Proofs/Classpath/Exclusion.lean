import ClassAtlas.Classpath.Resolve
import ClassAtlas.Proofs.Distinct
import ClassAtlas.Proofs.File.Tidy
import ClassAtlas.Proofs.Session
import ClassAtlas.Proofs.Text.Regex
import ClassAtlas.Proofs.Text.Trim

/-!
The archives that are left out of a classpath. Quoting a pattern and rewriting its quoted stars gives
an expression that is read as the pattern, character by character, so a name matches a pattern exactly
if it can be made from the pattern by putting a run of characters in the place of each star. A project
whose classes are there, and which is not built, has its classes first and then the archives on its
list that no pattern leaves out.
-/
namespace ClassAtlas

namespace Text

/-- The partners of capital letters come after the line break. -/
theorem lowerRuns_above_break : ∀ run ∈ lowerRuns, 10 < (run.first : Int) + run.shift := by
  decide +kernel

theorem eq_break_of_toLower {c : Char} (h : c.toLower = '\n') : c = '\n' := by
  unfold Char.toLower at h
  split at h
  · next hupper =>
    have hsum : c.val + ('a'.val - 'A'.val) = '\n'.val := congrArg Char.val h
    have hlow : 65 ≤ c.val.toNat := UInt32.le_iff_toNat_le.1 hupper.1
    have hhigh : c.val.toNat ≤ 90 := UInt32.le_iff_toNat_le.1 hupper.2
    have hcode : (c.val.toNat + 32) % 4294967296 = 10 :=
      (UInt32.toNat_add c.val 32).symm.trans (congrArg UInt32.toNat hsum)
    omega
  · exact h

theorem eq_break_of_lowerChar {c : Char} (h : lowerChar c = '\n') : c = '\n' := by
  unfold lowerChar at h
  split at h
  · exact eq_break_of_toLower h
  · split at h
    · next run hrun =>
      have habove := lowerRuns_above_break run (List.mem_of_find?_eq_some hrun)
      have hholds := List.find?_some hrun
      simp only [CaseRun.holds, Bool.and_eq_true, decide_eq_true_eq] at hholds
      have hcode : (Char.ofNat ((c.toNat : Int) + run.shift).toNat).toNat = 10 :=
        congrArg Char.toNat h
      rw [Char.toNat_ofNat] at hcode
      split at hcode <;> omega
    · exact h

theorem break_not_mem_lower {s : String} (h : '\n' ∉ s.toList) : '\n' ∉ (lower s).toList := by
  rw [lower, String.toList_ofList, List.mem_map]
  rintro ⟨c, hc, hbreak⟩
  exact h (eq_break_of_lowerChar hbreak ▸ hc)

end Text

namespace Classpath.Glob

open Text (Regex)

/-- What may be put in the place of a character of a pattern: anything for a star, and for every other
character the character itself. -/
def Replaces (run : List Char) (p : Char) : Prop := p = '*' ∨ run = [p]

/-- A text that can be made from a pattern. -/
def Makes (pattern text : List Char) : Prop :=
  ∃ runs, List.Forall₂ Replaces runs pattern ∧ runs.flatten = text

theorem makes_nil {text : List Char} : Makes [] text ↔ text = [] := by
  constructor
  · rintro ⟨runs, hruns, rfl⟩
    cases hruns
    rfl
  · rintro rfl
    exact ⟨[], .nil, rfl⟩

theorem makes_cons {p : Char} {pattern text : List Char} :
    Makes (p :: pattern) text ↔
      ∃ run rest, Replaces run p ∧ Makes pattern rest ∧ run ++ rest = text := by
  constructor
  · rintro ⟨runs, hruns, rfl⟩
    cases hruns with
    | cons hfirst hmore => exact ⟨_, _, hfirst, ⟨_, hmore, rfl⟩, rfl⟩
  · rintro ⟨run, rest, hfirst, ⟨runs, hmore, rfl⟩, rfl⟩
    exact ⟨run :: runs, .cons hfirst hmore, rfl⟩

/-- A star is passed over, or takes in one more character. -/
theorem makes_star {pattern : List Char} (text : List Char) : Makes ('*' :: pattern) text ↔
    Makes pattern text ∨ ∃ c rest, text = c :: rest ∧ Makes ('*' :: pattern) rest := by
  constructor
  · intro h
    obtain ⟨run, rest, -, hrest, rfl⟩ := makes_cons.1 h
    cases run with
    | nil => exact .inl hrest
    | cons c run => exact .inr ⟨c, run ++ rest, rfl, makes_cons.2 ⟨run, rest, .inl rfl, hrest, rfl⟩⟩
  · rintro (h | ⟨c, rest, rfl, h⟩)
    · exact makes_cons.2 ⟨[], text, .inl rfl, h, rfl⟩
    · obtain ⟨run, rest, -, hrest, rfl⟩ := makes_cons.1 h
      exact makes_cons.2 ⟨c :: run, rest, .inl rfl, hrest, rfl⟩

/-- Any other character stands at the front itself. -/
theorem makes_char {p : Char} (hp : p ≠ '*') {pattern text : List Char} :
    Makes (p :: pattern) text ↔ ∃ rest, text = p :: rest ∧ Makes pattern rest := by
  rw [makes_cons]
  constructor
  · rintro ⟨run, rest, hrun, hrest, rfl⟩
    obtain rfl := hrun.resolve_left hp
    exact ⟨rest, rfl, hrest⟩
  · rintro ⟨rest, rfl, hrest⟩
    exact ⟨[p], rest, .inr rfl, hrest, rfl⟩

/-! The expression of a pattern -/

/-- How a character of a pattern is quoted. -/
def quoted (c : Char) : List Char := if Regex.metaChars.contains c then ['\\', c] else [c]

/-- How a character of a pattern is written in its expression. -/
def written (c : Char) : List Char := if c = '*' then ['.', '*'] else quoted c

theorem toList_quote (pattern : String) :
    (Regex.quote pattern).toList = pattern.toList.flatMap quoted := by
  rw [Regex.quote, String.toList_ofList]
  rfl

/-- A star is never the first character of what is quoted. -/
theorem head?_quoted (pattern : List Char) : (pattern.flatMap quoted).head? ≠ some '*' := by
  cases pattern with
  | nil => simp
  | cons c pattern =>
    rw [List.flatMap_cons, quoted]
    split
    · simp
    · next hplain =>
      have hne : c ≠ '*' := by
        rintro rfl
        exact hplain (by decide)
      simpa using hne

/-- What is not the start of a quoted star is kept. -/
theorem replaceRuns_cons {c : Char} {rest : List Char} (h : c ≠ '\\' ∨ rest.head? ≠ some '*') :
    Text.replaceRuns ['\\', '*'] ['.', '*'] 0 (c :: rest) =
      c :: Text.replaceRuns ['\\', '*'] ['.', '*'] 0 rest := by
  have hstart : ['\\', '*'].isPrefixOf (c :: rest) = false := by
    cases rest with
    | nil => simp [List.isPrefixOf]
    | cons d rest =>
      simp only [List.head?_cons, ne_eq, Option.some.injEq] at h
      simp only [List.isPrefixOf, Bool.and_true, Bool.and_eq_false_iff, beq_eq_false_iff_ne]
      exact h.imp Ne.symm Ne.symm
  rw [Text.replaceRuns, hstart, if_neg Bool.false_ne_true]

/-- Each star has a backslash of its own, so it is replaced, and nothing else is. -/
theorem replaceRuns_quoted (pattern : List Char) :
    Text.replaceRuns ['\\', '*'] ['.', '*'] 0 (pattern.flatMap quoted) =
      pattern.flatMap written := by
  induction pattern with
  | nil => rfl
  | cons c pattern ih =>
    rw [List.flatMap_cons, List.flatMap_cons, ← ih, written]
    by_cases hstar : c = '*'
    · subst hstar
      rfl
    · rw [if_neg hstar, quoted]
      split
      · have hhead : (c :: pattern.flatMap quoted).head? ≠ some '*' := by simpa using hstar
        change Text.replaceRuns _ _ 0 ('\\' :: c :: pattern.flatMap quoted) = _
        rw [replaceRuns_cons (.inr hhead), replaceRuns_cons (.inr (head?_quoted pattern))]
        rfl
      · exact replaceRuns_cons (.inr (head?_quoted pattern))

theorem toList_expression (pattern : String) :
    (expression pattern).toList = '^' :: (pattern.toList.flatMap written ++ ['$']) := by
  rw [expression, Text.replace, if_neg (by decide)]
  simp only [String.toList_append, String.toList_ofList, toList_quote]
  exact congrArg (fun text => '^' :: (text ++ ['$'])) (replaceRuns_quoted pattern.toList)

example : expression "a+*.jar" = "^a\\+.*\\.jar$" := by decide +kernel

/-! The pieces of an expression -/

/-- What a character of a pattern stands for. -/
def piece (c : Char) : Regex.Piece := if c = '*' then ⟨.any, true⟩ else ⟨.char c, false⟩

def pieces (pattern : List Char) : Regex := pattern.map piece ++ [⟨.stop, false⟩]

def tokensOf (c : Char) : List Regex.Token :=
  if c = '*' then [.atom .any, .star] else [.atom (.char c)]

theorem tokens?_written (c : Char) (rest : List Char) :
    Regex.tokens? (written c ++ rest) = (Regex.tokens? rest).map (tokensOf c ++ ·) := by
  by_cases hstar : c = '*'
  · subst hstar
    change Regex.tokens? ('.' :: '*' :: rest) = _
    rw [Regex.tokens?_cons (by decide) rfl, Regex.tokens?_cons (by decide) rfl, Option.map_map]
    rfl
  · rw [written, if_neg hstar, quoted, tokensOf, if_neg hstar]
    split
    · next hmeta => exact Regex.tokens?_escaped (List.contains_iff_mem.1 hmeta) rest
    · next hplain => exact Regex.tokens?_plain (mt List.contains_iff_mem.2 hplain) rest

theorem tokens?_expression (pattern : String) :
    Regex.tokens? (expression pattern).toList =
      some (.atom .start :: (pattern.toList.flatMap tokensOf ++ [.atom .stop])) := by
  have hrest : ∀ cs : List Char, Regex.tokens? (cs.flatMap written ++ ['$']) =
      some (cs.flatMap tokensOf ++ [.atom .stop]) := by
    intro cs
    induction cs with
    | nil => rfl
    | cons c cs ih =>
      rw [List.flatMap_cons, List.append_assoc, tokens?_written, ih]
      simp
  rw [toList_expression, Regex.tokens?_cons (by decide) rfl, hrest]
  rfl

theorem head?_tokensOf (pattern : List Char) :
    (pattern.flatMap tokensOf ++ [Regex.Token.atom .stop]).head? ≠ some .star := by
  cases pattern with
  | nil => simp
  | cons c pattern =>
    rw [List.flatMap_cons, tokensOf]
    split <;> simp

theorem ofTokens?_pieces (pattern : List Char) :
    Regex.ofTokens? (pattern.flatMap tokensOf ++ [.atom .stop]) = some (pieces pattern) := by
  induction pattern with
  | nil => rfl
  | cons c pattern ih =>
    rw [List.flatMap_cons, List.append_assoc, pieces, List.map_cons, tokensOf, piece]
    by_cases hstar : c = '*'
    · rw [if_pos hstar, if_pos hstar, List.cons_append, List.cons_append, List.nil_append,
        Regex.ofTokens?, ih]
      rfl
    · rw [if_neg hstar, if_neg hstar, List.singleton_append,
        Regex.ofTokens?_atom (head?_tokensOf pattern), ih]
      rfl

/-- The expression of a pattern is always read, and is the pattern between the two ends of a text. -/
theorem read?_expression (pattern : String) :
    Regex.read? (expression pattern) = some (⟨.start, false⟩ :: pieces pattern.toList) := by
  rw [Regex.read?, tokens?_expression, Option.bind_some,
    Regex.ofTokens?_atom (head?_tokensOf _), ofTokens?_pieces]
  rfl

/-! What a pattern matches -/

/-- The pieces of a pattern pass over just the texts that can be made from it. -/
theorem passes_pieces {atStart : Bool} {pattern text : List Char} (h : '\n' ∉ text) :
    Regex.Passes atStart (pieces pattern) text ↔ Makes pattern text := by
  induction pattern generalizing atStart text with
  | nil => exact Regex.passes_stop.trans makes_nil.symm
  | cons p pattern ih =>
    by_cases hstar : p = '*'
    · subst hstar
      have hpiece : pieces ('*' :: pattern) = ⟨.any, true⟩ :: pieces pattern := rfl
      rw [hpiece]
      -- a star by induction on the text, of which it takes in one character more or none
      induction text generalizing atStart with
      | nil =>
        rw [Regex.passes_anyRun, makes_star, ih h]
        simp
      | cons c text more =>
        obtain ⟨hc, htext⟩ := not_or.1 (mt List.mem_cons.2 h)
        rw [Regex.passes_anyRun, makes_star, ih h]
        simp [Ne.symm hc, more htext]
    · have hpiece : pieces (p :: pattern) = ⟨.char p, false⟩ :: pieces pattern := by
        simp [pieces, piece, hstar]
      rw [hpiece, Regex.passes_char, makes_char hstar]
      refine exists_congr fun rest => and_congr_right fun htext => ?_
      exact ih fun hbreak => h (htext ▸ List.mem_cons_of_mem p hbreak)

theorem isMatch_pieces {pattern : List Char} {s : String} (h : '\n' ∉ s.toList) :
    Regex.isMatch (⟨.start, false⟩ :: pieces pattern) s = true ↔ Makes pattern s.toList := by
  rw [Regex.isMatch_iff]
  constructor
  · rintro ⟨front, rest, htext, hpasses⟩
    obtain ⟨hstart, hpasses⟩ := Regex.passes_start.1 hpasses
    obtain rfl := List.isEmpty_iff.1 hstart
    rw [htext, List.nil_append]
    exact (passes_pieces (by simpa [htext] using h)).1 hpasses
  · intro hmakes
    exact ⟨[], s.toList, rfl, Regex.passes_start.2 ⟨rfl, (passes_pieces h).2 hmakes⟩⟩

/-- The expressions of the patterns that are not blank. -/
theorem mem_compile {patterns : List String} {r : Regex} : r ∈ compile patterns ↔
    ∃ pattern ∈ patterns, Text.isBlank pattern = false ∧
      r = ⟨.start, false⟩ :: pieces (Text.lower (Text.trim pattern)).toList := by
  have hblank : ∀ pattern : String, (!(Text.lower (Text.trim pattern)).isEmpty) = true ↔
      Text.isBlank pattern = false := by
    intro pattern
    have hempty : Text.lower (Text.trim pattern) = "" ↔ Text.trim pattern = "" := by
      simp [Text.lower]
    simp [hempty, Text.trim_eq_empty_iff]
  simp only [compile, read?_expression, List.mem_filterMap, List.mem_filter, List.mem_map,
    Option.some.injEq]
  constructor
  · rintro ⟨_, ⟨⟨pattern, hmem, rfl⟩, hne⟩, rfl⟩
    exact ⟨pattern, hmem, (hblank pattern).1 hne, rfl⟩
  · rintro ⟨pattern, hmem, hnot, rfl⟩
    exact ⟨_, ⟨⟨pattern, hmem, rfl⟩, (hblank pattern).2 hnot⟩, rfl⟩

/-- A pattern leaves out what can be made from it, whatever the case of the letters. -/
def LeavesOut (pattern name : String) : Prop :=
  Text.isBlank pattern = false ∧
    Makes (Text.lower (Text.trim pattern)).toList (Text.lower name).toList

theorem matchesAny_eq_true_iff {patterns : List String} {name : String} (hname : '\n' ∉ name.toList) :
    matchesAny (compile patterns) name = true ↔ ∃ pattern ∈ patterns, LeavesOut pattern name := by
  have hlower := Text.break_not_mem_lower hname
  rw [matchesAny, List.any_eq_true]
  constructor
  · rintro ⟨r, hr, hmatch⟩
    obtain ⟨pattern, hmem, hblank, rfl⟩ := mem_compile.1 hr
    exact ⟨pattern, hmem, hblank, (isMatch_pieces hlower).1 hmatch⟩
  · rintro ⟨pattern, hmem, hblank, hmakes⟩
    exact ⟨_, mem_compile.2 ⟨pattern, hmem, hblank, rfl⟩, (isMatch_pieces hlower).2 hmakes⟩

theorem leavesOut_iff {pattern name : String} (hname : '\n' ∉ name.toList) :
    LeavesOut pattern name ↔ isMatch pattern name = true := by
  rw [isMatch, matchesAny_eq_true_iff hname]
  simp

theorem isMatch_iff {pattern name : String} (hpattern : Text.isBlank pattern = false)
    (hname : '\n' ∉ name.toList) : isMatch pattern name = true ↔
      Makes (Text.lower (Text.trim pattern)).toList (Text.lower name).toList := by
  rw [← leavesOut_iff hname, LeavesOut, and_iff_right hpattern]

theorem isMatch_of_isBlank {pattern : String} (h : Text.isBlank pattern = true) (name : String) :
    isMatch pattern name = false := by
  have hnone : compile [pattern] = [] := by
    refine List.eq_nil_iff_forall_not_mem.2 fun r hr => ?_
    obtain ⟨other, hmem, hblank, -⟩ := mem_compile.1 hr
    rw [List.mem_singleton.1 hmem, h] at hblank
    cases hblank
  rw [isMatch, hnone]
  rfl

end Classpath.Glob

namespace Classpath

variable {σ : Type}

/-! The archives on the list -/

theorem reports_keepDependencies (globs : List Text.Regex) (paths : List String) (s : Session σ) :
    (keepDependencies globs paths).Reports s
      (paths.filter fun path => !Glob.matchesAny globs (File.Path.base path)) := by
  induction paths generalizing s with
  | nil => exact .pure [] s
  | cons path more ih =>
    rw [keepDependencies]
    by_cases hout : Glob.matchesAny globs (File.Path.base path) = true
    · rw [if_pos hout, List.filter_cons_of_neg (by simp [hout])]
      exact (Act.Reports.log _ s).bind fun journal => ih _
    · rw [if_neg hout, List.filter_cons_of_pos (by simp [hout])]
      exact (ih s).bind fun journal => .pure _ _

/-- The paths that a dependency list names: what stands between line breaks and colons. -/
def listedPaths (content : String) : List String :=
  ((content.toList.splitOnP fun c => c == '\n' || c == ':').map fun part =>
    Text.trim (String.ofList part)).filter (!·.isEmpty)

/-- The paths on the list of a project; none if there is no list. -/
def pathsListed (d : File.Disk) (root : String) : List String :=
  match d.readText (File.Path.join root dependencyListPath) with
  | .ok content => listedPaths content
  | .error _ => []

theorem readDependencyList_eq (content : String) :
    readDependencyList content = listedPaths content := by
  rw [readDependencyList, listedPaths, ← Text.flatMap_pieces]
  simp only [Text.splitOn, List.flatMap_map, List.map_flatMap, String.toList_ofList, List.map_map]
  rfl

/-- No path on a list has white space around it or a line break in it. -/
theorem mem_listedPaths {content path : String} (h : path ∈ listedPaths content) :
    Text.trim path = path ∧ path ≠ "" ∧ '\n' ∉ path.toList := by
  obtain ⟨hmap, hne⟩ := List.mem_filter.1 h
  obtain ⟨part, hpart, rfl⟩ := List.mem_map.1 hmap
  refine ⟨?_, by simpa using hne, ?_⟩
  · simp [Text.trim, Text.trimChars_trimChars]
  · rw [← Text.flatMap_pieces] at hpart
    obtain ⟨line, hline, hpart⟩ := List.mem_flatMap.1 hpart
    intro hbreak
    have hmem : '\n' ∈ part := by
      rw [Text.trim, String.toList_ofList, String.toList_ofList] at hbreak
      exact (Text.trimChars_sublist part).subset hbreak
    exact (Text.mem_pieces hline).1 ((Text.mem_pieces hpart).2 _ hmem)

theorem mem_pathsListed {d : File.Disk} {root path : String} (h : path ∈ pathsListed d root) :
    Text.trim path = path ∧ path ≠ "" ∧ '\n' ∉ path.toList := by
  unfold pathsListed at h
  split at h
  · exact mem_listedPaths h
  · cases h

theorem reports_listedDependencies (root : String) (s : Session σ) :
    (listedDependencies root).Reports s (pathsListed s.disk root) := by
  unfold listedDependencies pathsListed
  refine (Act.Reports.disk s).bind fun journal => ?_
  cases hread : s.disk.readText (File.Path.join root dependencyListPath) with
  | error fault => exact (Act.Reports.log _ _).bind fun journal => .pure _ _
  | ok content =>
    simp only [← readDependencyList_eq]
    split
    · exact (Act.Reports.log _ _).bind fun journal => .pure _ _
    · exact .pure _ _

/-! The directory of classes -/

/-- What the directories of classes are called. -/
theorem components_classesDir {sub : String} (h : sub ∈ classesDirs) : ∃ front last,
    File.Path.components sub = front ++ [last] ∧ (∀ n ∈ front ++ [last], File.Path.Proper n) ∧
      last.toList.getLast?.any (!Text.isBlankChar ·) = true := by
  rcases List.mem_cons.1 h with rfl | h
  · exact ⟨["target"], "classes", by decide, by decide, by decide⟩
  · obtain rfl := List.mem_singleton.1 h
    exact ⟨["build", "classes", "java"], "main", by decide, by decide, by decide⟩

theorem trim_classesDir {root sub : String} (hroot : File.Path.isAbsolute root = true)
    (hsub : sub ∈ classesDirs) : Text.trim (File.Path.join root sub) = File.Path.join root sub ∧
      File.Path.join root sub ≠ "" := by
  have hne : root ≠ "" := by
    rintro rfl
    cases hroot
  obtain ⟨front, last, hsplit, hproper, hend⟩ := components_classesDir hsub
  obtain ⟨c, hc, hblank⟩ := (Option.any_eq_true _ _).1 hend
  obtain ⟨before, htext⟩ : ∃ before,
      (File.Path.join root sub).toList = before ++ '/' :: last.toList := by
    rw [File.Path.join_eq_ofNames hne (hsplit ▸ hproper), hroot, hsplit, ← List.append_assoc]
    exact ⟨_, File.Path.toList_ofComponents_last (.inl rfl) last⟩
  have hlast : (File.Path.join root sub).toList.getLast? = some c := by
    rw [htext, List.getLast?_append, List.getLast?_cons, hc]
    rfl
  have habsolute := (File.Path.canonical_join hroot sub).isAbsolute
  rw [File.Path.isAbsolute, beq_iff_eq] at habsolute
  constructor
  · refine Text.trim_of_ends ?_ ?_
    · rw [habsolute]
      decide
    · simpa [hlast] using hblank
  · intro hempty
    rw [hempty] at habsolute
    cases habsolute

/-- If there is a directory of classes, one is found. -/
theorem exists_locateClasses? {d : File.Disk} {root : String}
    (hroot : File.Path.isAbsolute root = true)
    (h : ∃ sub ∈ classesDirs, d.isDir (File.Path.join root sub) = true) :
    ∃ dir, locateClasses? d root = some dir ∧ d.isDir dir = true ∧ Text.trim dir = dir ∧ dir ≠ "" := by
  cases hfind : locateClasses? d root with
  | none =>
    obtain ⟨sub, hsub, hdir⟩ := h
    exact absurd hdir (List.find?_eq_none.1 hfind _ (List.mem_map_of_mem hsub))
  | some dir =>
    obtain ⟨sub, hsub, rfl⟩ := List.mem_map.1 (List.mem_of_find?_eq_some hfind)
    exact ⟨_, rfl, List.find?_some hfind, trim_classesDir hroot hsub⟩

theorem reports_findClasses {s : Session σ} {root dir : String} (build : Option (Build σ))
    (options : Options) (h : locateClasses? s.disk root = some dir) :
    (findClasses build options root).Reports s (some dir) := by
  refine (Act.Reports.disk s).bind fun journal => ?_
  simp only [h]
  exact .pure _ _

/-! The whole classpath -/

/-- Nothing is built: there is no build tool, it may not be run, or the project is none of its. -/
def NoBuild (d : File.Disk) (build : Option (Build σ)) (options : Options) (root : String) : Prop :=
  build = none ∨ options.autoCompile = false ∨
    isBuildFile d (File.Path.join root "pom.xml") = false

theorem NoBuild.builder?_eq {d : File.Disk} {build : Option (Build σ)} {options : Options}
    {root : String} (h : NoBuild d build options root) : builder? d build options root = none := by
  unfold builder?
  rcases h with rfl | h | h
  · exact ite_self _
  · simp [h]
  · simp [h]

theorem reports_dependencies {s : Session σ} {build : Option (Build σ)} {options : Options}
    {root : String} (h : NoBuild s.disk build options root) :
    (dependencies build options root).Reports s ((pathsListed s.disk root).filter fun path =>
      !Glob.matchesAny (Glob.compile options.excludeJars) (File.Path.base path)) := by
  refine (Act.Reports.disk s).bind fun journal => ?_
  simp only [h.builder?_eq]
  exact (reports_listedDependencies root _).bind fun journal => reports_keepDependencies _ _ _

/-- The classpath of a project that is not built. -/
def unbuiltClasspath (d : File.Disk) (patterns : List String) (root dir : String) : Descriptor :=
  .make root dir (dir :: (pathsListed d root).filter fun path =>
    !Glob.matchesAny (Glob.compile patterns) (File.Path.base path))

theorem unbuiltClasspath_eq (d : File.Disk) (patterns : List String) (root dir : String) :
    unbuiltClasspath d patterns root dir =
      ⟨root, dir, (unbuiltClasspath d patterns root dir).entries⟩ := by
  have heta : ∀ desc : Descriptor, desc.repoRoot = root → desc.classesDir = dir →
      desc = ⟨root, dir, desc.entries⟩ := by
    rintro desc rfl rfl
    rfl
  exact heta _ rfl rfl

theorem reports_resolve {s : Session σ} {build : Option (Build σ)} {options : Options}
    {repoRoot dir : String} (hinclude : options.includeDependencies = true)
    (hbuild : NoBuild s.disk build options (s.disk.absolute repoRoot))
    (hdir : locateClasses? s.disk (s.disk.absolute repoRoot) = some dir) :
    (resolve build options repoRoot).Reports s
      (unbuiltClasspath s.disk options.excludeJars (s.disk.absolute repoRoot) dir) := by
  refine (Act.Reports.disk s).bind fun journal => ?_
  refine Act.Reports.bind (reports_findClasses build options hdir) fun journal => ?_
  simp only [hinclude, if_true]
  refine Act.Reports.bind (reports_dependencies hbuild) fun journal => ?_
  exact (Act.Reports.log _ _).bind fun journal => .pure _ _

/-- The entries of a classpath: the directory of classes, and behind it the archives on the list that
no pattern leaves out, each once and where the list first has it. -/
structure Comprises (listed patterns : List String) (dir : String) (entries : List String) : Prop where
  first : entries.head? = some dir
  mem : ∀ path, path ∈ entries.tail ↔ path ∈ listed ∧ path ≠ dir ∧
    ∀ pattern ∈ patterns, ¬ Glob.LeavesOut pattern (File.Path.base path)
  order : entries.tail.Pairwise fun a b => listed.idxOf a < listed.idxOf b

theorem Comprises.nodup {listed patterns entries : List String} {dir : String}
    (h : Comprises listed patterns dir entries) : entries.tail.Nodup := by
  refine h.order.imp ?_
  rintro a _ hlt rfl
  exact lt_irrefl _ hlt

/-- Entries that need no trimming are kept, but for repetitions. -/
theorem entries_make {dir : String} {paths : List String} (root : String)
    (h : ∀ path ∈ dir :: paths, Text.trim path = path ∧ path ≠ "") :
    (Descriptor.make root dir (dir :: paths)).entries =
      dir :: paths.eraseDups.filter (!· == dir) := by
  have htrim : (dir :: paths).map Text.trim = dir :: paths :=
    (List.map_congr_left fun path hpath => (h path hpath).1).trans (List.map_id _)
  have hfilter : (dir :: paths).filter (!·.isEmpty) = dir :: paths := by
    refine List.filter_eq_self.2 fun path hpath => ?_
    simpa using (h path hpath).2
  rw [Descriptor.make, htrim, hfilter, List.eraseDups_cons, ← eraseDups_filter]

theorem comprises_entries (d : File.Disk) (patterns : List String) (root : String) {dir : String}
    (hdir : Text.trim dir = dir) (hne : dir ≠ "") :
    Comprises (pathsListed d root) patterns dir (unbuiltClasspath d patterns root dir).entries := by
  rw [unbuiltClasspath, entries_make root, eraseDups_filter]
  · refine ⟨rfl, ?_, ?_⟩
    · intro path
      rw [List.tail_cons, List.mem_filter, List.mem_filter, List.mem_eraseDups]
      have hkept : path ∈ pathsListed d root →
          ((!Glob.matchesAny (Glob.compile patterns) (File.Path.base path)) = true ↔
            ∀ pattern ∈ patterns, ¬ Glob.LeavesOut pattern (File.Path.base path)) := by
        intro hpath
        have hbreak : '\n' ∉ (File.Path.base path).toList := fun hmem =>
          (mem_pathsListed hpath).2.2 (File.Path.mem_base hmem (by decide) (by decide))
        rw [Bool.not_eq_true', ← Bool.not_eq_true, Glob.matchesAny_eq_true_iff hbreak]
        simp
      constructor
      · rintro ⟨⟨hpath, hout⟩, hother⟩
        exact ⟨hpath, by simpa using hother, (hkept hpath).1 hout⟩
      · rintro ⟨hpath, hother, hout⟩
        exact ⟨⟨hpath, (hkept hpath).2 hout⟩, by simpa using hother⟩
    · exact ((pairwise_idxOf_eraseDups _).filter _).filter _
  · refine List.forall_mem_cons.2 ⟨⟨hdir, hne⟩, ?_⟩
    intro path hpath
    obtain ⟨htrim, hnonempty, -⟩ := mem_pathsListed (List.mem_filter.1 hpath).1
    exact ⟨htrim, hnonempty⟩

/-- Exclusion says what stands for what. Every pattern has an expression that is read, and a name
matches a pattern exactly if it can be made from it by putting runs of characters in the place of
stars; a blank pattern matches nothing. Where nothing is built and there is a directory of classes, the
classpath is that directory and the archives on the list that no pattern leaves out, and nothing but
the reports changes. -/
theorem exclusion_is_declarative :
    (∀ pattern : String, (Text.Regex.read? (Glob.expression pattern)).isSome = true) ∧
    (∀ pattern name : String, Text.isBlank pattern = false → '\n' ∉ name.toList →
      (Glob.isMatch pattern name = true ↔
        Glob.Makes (Text.lower (Text.trim pattern)).toList (Text.lower name).toList)) ∧
    (∀ pattern name : String, Text.isBlank pattern = true → Glob.isMatch pattern name = false) ∧
    ∀ {σ : Type} (s : Session σ) (build : Option (Build σ)) (options : Options)
      (repoRoot root : String), root = s.disk.absolute repoRoot →
      options.includeDependencies = true → NoBuild s.disk build options root →
      (∃ sub ∈ classesDirs, s.disk.isDir (File.Path.join root sub) = true) →
      ∃ dir entries journal, locateClasses? s.disk root = some dir ∧ s.disk.isDir dir = true ∧
        resolve build options repoRoot s = (.ok ⟨root, dir, entries⟩, { s with journal }) ∧
        Comprises (pathsListed s.disk root) options.excludeJars dir entries := by
  refine ⟨?_, ?_, ?_, ?_⟩
  · intro pattern
    rw [Glob.read?_expression]
    rfl
  · intro pattern name hpattern hname
    exact Glob.isMatch_iff hpattern hname
  · intro pattern name hblank
    exact Glob.isMatch_of_isBlank hblank name
  · rintro σ s build options repoRoot root rfl hinclude hbuild hclasses
    have hroot : File.Path.isAbsolute (s.disk.absolute repoRoot) = true :=
      File.Path.isAbsolute_absolute (File.Path.isAbsolute_ofComponents _) repoRoot
    obtain ⟨dir, hlocate, hdir, htrim, hne⟩ := exists_locateClasses? hroot hclasses
    obtain ⟨journal, hresolve⟩ := reports_resolve hinclude hbuild hlocate
    have hcomprises :=
      comprises_entries s.disk options.excludeJars (s.disk.absolute repoRoot) htrim hne
    rw [unbuiltClasspath_eq] at hresolve
    generalize (unbuiltClasspath s.disk options.excludeJars (s.disk.absolute repoRoot) dir).entries =
      entries at hcomprises hresolve
    exact ⟨dir, entries, journal, hlocate, hdir, hresolve, hcomprises⟩

/-- A project with classes and a list of three archives, one of them twice. -/
def listedProject : Session Unit := .onDisk (.dir [("shop", .dir [("target", .dir [
  ("classes", .dir []),
  ("classpath.txt", .file (Text.Utf8.encode "/m2/a+b.jar: /m2/JUnit-4.jar\n/m2/a+b.jar\n") false)])])])

/-- Archives whose names hold a word are left out; a blank pattern leaves out nothing. -/
def withoutJUnit : Options := ⟨true, [" ", "*JUnit*"], true⟩

theorem exclusion_is_declarative_listedProject :
    Text.isBlank " A+*.JAR" = false ∧ Glob.isMatch " A+*.JAR" "a+b.jar" = true ∧
    Text.isBlank " " = true ∧ Glob.isMatch " " " " = false ∧
    (withoutJUnit.includeDependencies = true ∧
      NoBuild listedProject.disk (none : Option (Build Unit)) withoutJUnit "/shop" ∧
      listedProject.disk.isDir "/shop/target/classes" = true) ∧
    ∃ entries journal, resolve none withoutJUnit "/shop" listedProject =
        (.ok ⟨"/shop", "/shop/target/classes", entries⟩, { listedProject with journal }) ∧
      entries.head? = some "/shop/target/classes" ∧ entries.tail = ["/m2/a+b.jar"] := by
  obtain ⟨-, hmatch, hblank, hresolve⟩ := exclusion_is_declarative
  have hplus : Glob.isMatch " A+*.JAR" "a+b.jar" = true := by
    rw [hmatch _ _ (by decide) (by decide),
      show Text.lower (Text.trim " A+*.JAR") = "a+*.jar" by decide +kernel]
    exact ⟨[['a'], ['+'], ['b'], ['.'], ['j'], ['a'], ['r']], by simp [Glob.Replaces], by decide⟩
  have hdir : listedProject.disk.isDir "/shop/target/classes" = true := by decide +kernel
  have hlisted : pathsListed listedProject.disk "/shop" =
      ["/m2/a+b.jar", "/m2/JUnit-4.jar", "/m2/a+b.jar"] := by decide +kernel
  obtain ⟨dir, entries, journal, hlocate, -, hrun, hentries⟩ := hresolve listedProject none
    withoutJUnit "/shop" "/shop" (by decide +kernel) rfl (.inl rfl)
    ⟨"target/classes", by decide, by decide +kernel⟩
  obtain rfl : dir = "/shop/target/classes" := by
    have hfound : locateClasses? listedProject.disk "/shop" = some "/shop/target/classes" := by
      decide +kernel
    exact (Option.some.inj (hfound.symm.trans hlocate)).symm
  rw [hlisted] at hentries
  have hout : Glob.LeavesOut "*JUnit*" (File.Path.base "/m2/JUnit-4.jar") :=
    (Glob.leavesOut_iff (by decide +kernel)).2 (by decide +kernel)
  have hkept : ¬ Glob.LeavesOut "*JUnit*" (File.Path.base "/m2/a+b.jar") :=
    mt (Glob.leavesOut_iff (by decide +kernel)).1 (by decide +kernel)
  refine ⟨by decide, hplus, by decide, hblank " " " " (by decide), ⟨rfl, .inl rfl, hdir⟩, entries,
    journal, hrun, hentries.first, ?_⟩
  refine List.perm_singleton.1
    ((List.perm_ext_iff_of_nodup hentries.nodup (List.nodup_singleton _)).2 ?_)
  intro path
  rw [hentries.mem, List.mem_singleton]
  constructor
  · rintro ⟨hpath, -, hnone⟩
    simp only [List.mem_cons, List.not_mem_nil, or_false] at hpath
    rcases hpath with rfl | rfl | rfl
    · rfl
    · exact absurd hout (hnone "*JUnit*" (by decide))
    · rfl
  · rintro rfl
    refine ⟨by decide, by decide, ?_⟩
    intro pattern hpattern
    simp only [withoutJUnit, List.mem_cons, List.not_mem_nil, or_false] at hpattern
    rcases hpattern with rfl | rfl
    · rintro ⟨hnot, -⟩
      exact absurd hnot (by decide)
    · exact hkept

end Classpath
end ClassAtlas
