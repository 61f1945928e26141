import ClassAtlas.Proofs.ClassFile.Walk

/-!
What attributes give. An attribute of a member or a class adds annotations, replaces a text or gives a
body. In every annotation, however deep it stands in another, each name has one value.
-/
namespace ClassAtlas.ClassFile

theorem mapError_eq_ok {x : Except ε α} {g : ε → ε'} {a : α} :
    x.mapError g = .ok a ↔ x = .ok a := by
  cases x <;> simp [Except.mapError]

/-- An attribute of a member gives a body, or it leaves the body and may add annotations. -/
theorem applyMemberAttribute_eq_ok {pool : ConstantPool} {name : String} {block : List UInt8}
    {m : Member} {code : Option (List UInt8)} {p : Member × Option (List UInt8)}
    (h : applyMemberAttribute pool name block m code = .ok p) :
    (∃ body, readCodeAttribute block = .ok body ∧ p = (m, some body)) ∨
    p.2 = code ∧ (p.1.annotations = m.annotations ∨
      ∃ visible more, readAnnotations pool visible block = .ok more ∧
        p.1.annotations = m.annotations ++ more) := by
  unfold applyMemberAttribute at h
  rw [mapError_eq_ok] at h
  split at h
  · obtain ⟨text, -, hp⟩ := except_bind_eq_ok.1 h
    cases hp
    exact .inr ⟨rfl, .inl rfl⟩
  · obtain ⟨more, hmore, hp⟩ := except_bind_eq_ok.1 h
    cases hp
    exact .inr ⟨rfl, .inr ⟨true, more, hmore, rfl⟩⟩
  · obtain ⟨more, hmore, hp⟩ := except_bind_eq_ok.1 h
    cases hp
    exact .inr ⟨rfl, .inr ⟨false, more, hmore, rfl⟩⟩
  · obtain ⟨body, hbody, hp⟩ := except_bind_eq_ok.1 h
    cases hp
    exact .inl ⟨body, hbody, rfl⟩
  · cases h
    exact .inr ⟨rfl, .inl rfl⟩

/-- An attribute of a class leaves its annotations or adds to them. -/
theorem applyClassAttribute_eq_ok {pool : ConstantPool} {name : String} {block : List UInt8}
    {a a' : Attributes} (h : applyClassAttribute pool name block a = .ok a') :
    a'.annotations = a.annotations ∨
      ∃ visible more, readAnnotations pool visible block = .ok more ∧
        a'.annotations = a.annotations ++ more := by
  unfold applyClassAttribute at h
  rw [mapError_eq_ok] at h
  split at h
  · obtain ⟨text, -, hp⟩ := except_bind_eq_ok.1 h
    cases hp
    exact .inl rfl
  · obtain ⟨text, -, hp⟩ := except_bind_eq_ok.1 h
    cases hp
    exact .inl rfl
  · cases h
    exact .inl rfl
  · obtain ⟨more, hmore, hp⟩ := except_bind_eq_ok.1 h
    cases hp
    exact .inr ⟨true, more, hmore, rfl⟩
  · obtain ⟨more, hmore, hp⟩ := except_bind_eq_ok.1 h
    cases hp
    exact .inr ⟨false, more, hmore, rfl⟩
  · cases h
    exact .inl rfl

/-! Names of annotations -/

/-- The names that have a value in an annotation, in the order of their first places. -/
def AnnotationUse.names (a : AnnotationUse) : List String := a.values.map (·.1)

/-- No name comes twice, and the names are those that have a value. -/
def AnnotationUse.Distinct (a : AnnotationUse) : Prop :=
  a.names.Nodup ∧ ∀ name, name ∈ a.names ↔ (a.value? name).isSome = true

/-- A value is an annotation or has one inside. -/
inductive ElementValue.Contains : ElementValue → AnnotationUse → Prop
  | self {type visible values} : Contains (.nested type visible values) ⟨type, visible, values⟩
  | nested {type visible values name value a} (hvalue : (name, value) ∈ values)
      (h : Contains value a) : Contains (.nested type visible values) a
  | array {items value a} (hvalue : value ∈ items) (h : Contains value a) :
      Contains (.array items) a

def AnnotationUse.Contains (a b : AnnotationUse) : Prop :=
  (ElementValue.nested a.type a.visible a.values).Contains b

/-- All annotations of a value have each name once. -/
def ElementValue.WellNamed (value : ElementValue) : Prop := ∀ a, value.Contains a → a.Distinct

theorem names_putValue (values : List (String × α)) (name : String) (value : α) :
    (putValue values name value).map (·.1) =
      if name ∈ values.map (·.1) then values.map (·.1) else values.map (·.1) ++ [name] := by
  induction values with
  | nil => simp [putValue]
  | cons entry values ih =>
    rw [putValue]
    by_cases h : entry.1 = name
    · simp [h]
    · simp only [h, if_false, List.map_cons, ih, List.mem_cons, Ne.symm h, false_or]
      split <;> simp

theorem lookup_putValue (values : List (String × α)) (name : String) (value : α) (n : String) :
    (putValue values name value).lookup n = if n = name then some value else values.lookup n := by
  induction values with
  | nil => by_cases hn : n = name <;> simp [putValue, List.lookup_cons, hn, beq_false_of_ne]
  | cons entry values ih =>
    obtain ⟨first, v⟩ := entry
    rw [putValue]
    by_cases h : first = name
    · by_cases hn : n = name <;> simp [List.lookup_cons, h, hn, beq_false_of_ne]
    · by_cases hn : n = first <;> simp [List.lookup_cons, h, hn, ih, beq_false_of_ne]

theorem mem_putValue {values : List (String × α)} {name : String} {value : α} {entry : String × α}
    (h : entry ∈ putValue values name value) : entry = (name, value) ∨ entry ∈ values := by
  induction values with
  | nil => simpa [putValue] using h
  | cons first values ih =>
    rw [putValue] at h
    split at h
    · rcases List.mem_cons.1 h with rfl | h
      · exact .inl rfl
      · exact .inr (.tail _ h)
    · rcases List.mem_cons.1 h with rfl | h
      · exact .inr (.head _)
      · exact (ih h).imp_right (.tail _)

/-- What holds when values are put one after the other: no name comes twice, and all values were put
there. -/
theorem foldl_putValue_inv {P : α → Prop} (pairs values : List (String × α))
    (hpairs : ∀ p ∈ pairs, P p.2) (hvalues : ∀ p ∈ values, P p.2) (hn : (values.map (·.1)).Nodup) :
    let result := pairs.foldl (fun values p => putValue values p.1 p.2) values
    (result.map (·.1)).Nodup ∧ ∀ p ∈ result, P p.2 := by
  induction pairs generalizing values with
  | nil => exact ⟨hn, hvalues⟩
  | cons pair pairs ih =>
    refine ih (putValue values pair.1 pair.2) (fun p hp => hpairs p (.tail _ hp)) ?_ ?_
    · intro p hp
      rcases mem_putValue hp with rfl | hp
      · exact hpairs pair (.head _)
      · exact hvalues p hp
    · rw [names_putValue]
      split
      · exact hn
      · next h => exact List.Nodup.append hn (List.nodup_singleton _) (by simpa using h)

theorem distinct_of_nodup {a : AnnotationUse} (h : a.names.Nodup) : a.Distinct := by
  refine ⟨h, fun name => ?_⟩
  simp [AnnotationUse.names, AnnotationUse.value?, List.lookup_isSome_iff]

theorem wellNamed_nested {type : String} {visible : Bool} {values : List (String × ElementValue)}
    (hn : (values.map (·.1)).Nodup) (h : ∀ p ∈ values, p.2.WellNamed) :
    (ElementValue.nested type visible values).WellNamed := by
  intro a ha
  cases ha with
  | self => exact distinct_of_nodup hn
  | nested hvalue ha => exact h _ hvalue a ha

theorem wellNamed_array {items : List ElementValue} (h : ∀ v ∈ items, v.WellNamed) :
    (ElementValue.array items).WellNamed := by
  intro a ha
  cases ha with
  | array hvalue ha => exact h _ hvalue a ha

/-! Reading annotations -/

/-- All answers of a reader have a property. -/
def Yields (act : Read α) (P : α → Prop) : Prop := ∀ c a c', act c = .ok (a, c') → P a

namespace Yields

theorem any (act : Read α) : Yields act fun _ => True := fun _ _ _ _ => trivial

theorem pure {P : α → Prop} {a : α} (h : P a) : Yields (Pure.pure a) P := by
  rintro c b c' ⟨⟩
  exact h

theorem fail (f : Fault) (P : α → Prop) : Yields (Read.fail f) P := by
  rintro c a c' ⟨⟩

theorem bind {act : Read α} {f : α → Read β} {P : α → Prop} {Q : β → Prop} (h : Yields act P)
    (hf : ∀ a, P a → Yields (f a) Q) : Yields (act >>= f) Q := by
  intro c b c' hb
  obtain ⟨a, c'', ha, hfa⟩ := Read.bind_eq_ok.1 hb
  exact hf a (h c a c'' ha) c'' b c' hfa

/-- What is read before may be anything. -/
theorem after {act : Read α} {f : α → Read β} {Q : β → Prop} (hf : ∀ a, Yields (f a) Q) :
    Yields (act >>= f) Q :=
  (any act).bind fun a _ => hf a

theorem lift {x : Except Fault α} {P : α → Prop} (h : ∀ a, x = .ok a → P a) :
    Yields (Read.lift x) P := by
  intro c a c' ha
  cases x with
  | error e => cases ha
  | ok b =>
    cases ha
    exact h a rfl

theorem at_ {act : Read α} {P : α → Prop} (h : Yields act P) (place : Place) :
    Yields (Read.at_ place act) P :=
  fun c a c' ha => h c a c' (mapError_eq_ok.1 ha)

theorem times {act : Read α} {P : α → Prop} (h : Yields act P) (n : Nat) :
    Yields (Read.times act n) fun items => ∀ a ∈ items, P a := by
  induction n with
  | zero => exact .pure (by simp)
  | succ n ih =>
    exact h.bind fun a ha => ih.bind fun more hmore => .pure (List.forall_mem_cons.2 ⟨ha, hmore⟩)

theorem readBlock {act : Read α} {P : α → Prop} (h : Yields act P) {block : List UInt8} {a : α}
    (ha : readBlock act block = .ok a) : P a := by
  unfold ClassFile.readBlock at ha
  cases hact : act (Cursor.start block) with
  | error e => simp [hact, Except.map] at ha
  | ok p =>
    obtain rfl : p.1 = a := by simpa [hact, Except.map] using ha
    exact h _ p.1 p.2 hact

end Yields

theorem yields_annotationWith (pool : ConstantPool) {element : Read ElementValue}
    (h : Yields element ElementValue.WellNamed) :
    Yields (readAnnotationWith pool element) fun p =>
      ∀ type visible, (ElementValue.nested type visible p.2).WellNamed := by
  refine .after fun _ => .after fun _ => .after fun count => ?_
  have hpair : Yields (do
      let name ← Read.lift (pool.utf8 (← Read.u2))
      return (name, ← element)) fun p => p.2.WellNamed :=
    .after fun _ => .after fun _ => h.bind fun _ hvalue => .pure hvalue
  refine (hpair.times count).bind fun pairs hpairs => .after fun _ => .pure fun type visible => ?_
  obtain ⟨hn, hvalues⟩ := foldl_putValue_inv pairs [] hpairs (by simp) (by simp)
  exact wellNamed_nested hn hvalues

/-- A value that is neither an annotation nor an array has no annotation inside. -/
theorem yields_tagged (pool : ConstantPool) (visible : Bool) {element : Read ElementValue}
    (h : Yields element ElementValue.WellNamed) (tag : Nat) :
    Yields (readTagged pool visible element tag) ElementValue.WellNamed := by
  have hlook : ∀ {α : Type} {get : Nat → Except Fault α} {g : α → ElementValue}
      (_ : ∀ a, (g a).WellNamed), Yields (do return g (← Read.lift (get (← Read.u2))))
        ElementValue.WellNamed :=
    fun hg => .after fun _ => .after fun a => .pure (hg a)
  unfold readTagged
  split
  case h_10 => exact .after fun _ => .after fun _ => hlook (by rintro _ _ ⟨⟩)
  case h_12 => exact (yields_annotationWith pool h).bind fun p hp => .pure (hp p.1 visible)
  case h_13 =>
    exact .after fun count => (h.times count).bind fun _ hitems => .pure (wellNamed_array hitems)
  case h_14 => exact .fail _ _
  all_goals exact hlook (by rintro _ _ ⟨⟩)

theorem yields_element (pool : ConstantPool) (visible : Bool) (depth : Nat) :
    Yields (readElement pool visible depth) ElementValue.WellNamed := by
  induction depth with
  | zero => exact .fail _ _
  | succ depth ih =>
    exact .after fun tag => .after fun _ => (yields_tagged pool visible ih tag).bind fun _ hvalue =>
      .after fun _ => .pure hvalue

/-- An annotation and all annotations inside it have each name once. -/
def AnnotationUse.WellNamed (a : AnnotationUse) : Prop := ∀ b, a.Contains b → b.Distinct

theorem wellNamed_readAnnotations {pool : ConstantPool} {visible : Bool} {block : List UInt8}
    {annotations : List AnnotationUse} (h : readAnnotations pool visible block = .ok annotations) :
    ∀ a ∈ annotations, a.WellNamed := by
  refine Yields.readBlock (P := fun annotations => ∀ a ∈ annotations, a.WellNamed) ?_ h
  refine .after fun count => Yields.bind (Yields.times ?_ count) fun annotations h =>
    .after fun _ => .pure h
  exact (yields_annotationWith pool (yields_element pool visible _)).bind fun p hp =>
    .pure (hp p.1 visible)

theorem yields_memberAttributes (pool : ConstantPool) (count : Nat) (m : Member)
    (code : Option (List UInt8)) (hm : ∀ a ∈ m.annotations, a.WellNamed) :
    Yields (readMemberAttributes pool count m code) fun p =>
      ∀ a ∈ p.1.annotations, a.WellNamed := by
  induction count generalizing m code with
  | zero => exact .pure hm
  | succ count ih =>
    refine .after fun _ => Yields.bind (.lift fun _ h => h) fun p hp => ih p.1 p.2 ?_
    rcases applyMemberAttribute_eq_ok hp with
      ⟨body, -, rfl⟩ | ⟨-, hsame | ⟨visible, more, hmore, hadded⟩⟩
    · exact hm
    · rwa [hsame]
    · rw [hadded]
      exact List.forall_mem_append.2 ⟨hm, wellNamed_readAnnotations hmore⟩

theorem yields_member (pool : ConstantPool) :
    Yields (readMember pool) fun p => ∀ a ∈ p.1.annotations, a.WellNamed :=
  .after fun _ => .after fun _ => .after fun _ => .after fun _ => .after fun _ => .after fun count =>
    (yields_memberAttributes pool count _ none (by simp)).bind fun _ hp => .after fun _ => .pure hp

theorem yields_classAttributesFrom (pool : ConstantPool) (count : Nat) (a : Attributes)
    (ha : ∀ b ∈ a.annotations, b.WellNamed) :
    Yields (readClassAttributesFrom pool count a) fun a => ∀ b ∈ a.annotations, b.WellNamed := by
  induction count generalizing a with
  | zero => exact .pure ha
  | succ count ih =>
    refine .after fun _ => Yields.bind (.lift fun _ h => h) fun a' ha' => ih a' ?_
    rcases applyClassAttribute_eq_ok ha' with hsame | ⟨visible, more, hmore, hadded⟩
    · rwa [hsame]
    · rw [hadded]
      exact List.forall_mem_append.2 ⟨ha, wellNamed_readAnnotations hmore⟩

theorem yields_classAttributes (pool : ConstantPool) :
    Yields (readClassAttributes pool) fun a => ∀ b ∈ a.annotations, b.WellNamed :=
  .after fun count => (yields_classAttributesFrom pool count _ (by simp)).bind fun _ ha =>
    .after fun _ => .pure ha

/-! Events -/

/-- The annotations that an event tells of. -/
def Event.annotations : Event → List AnnotationUse
  | .header _ => []
  | .field m => m.annotations
  | .method m => m.annotations
  | .call _ => []
  | .finish a => a.annotations

/-- All events of a walk have a property, wherever it starts. -/
def Tells (t : Cursor → Trace Cursor) (P : Event → Prop) : Prop := ∀ c, ∀ e ∈ (t c).events, P e

namespace Tells

variable {P : Event → Prop}

theorem stop : Tells pure P := fun _ _ he => absurd he List.not_mem_nil

theorem events_bind {t : Trace α} {f : α → Trace β} (ht : ∀ e ∈ t.events, P e)
    (hf : ∀ a, t.outcome = .ok a → ∀ e ∈ (f a).events, P e) : ∀ e ∈ (t >>= f).events, P e := by
  cases h : t.outcome with
  | error fault =>
    rw [Trace.bind_error h]
    exact ht
  | ok a =>
    rw [Trace.bind_ok h]
    exact List.forall_mem_append.2 ⟨ht, hf a h⟩

theorem report {t : Cursor → Trace Cursor} (h : Tells t P) {g : Trace Unit}
    (hg : ∀ e ∈ g.events, P e) : Tells (fun c => g >>= fun _ => t c) P :=
  fun c => events_bind hg fun _ _ => h c

theorem andThen {t u : Cursor → Trace Cursor} (ht : Tells t P) (hu : Tells u P) :
    Tells (fun c => t c >>= u) P :=
  fun c => events_bind (ht c) fun c' _ => hu c'

theorem read {act : Read α} {Q : α → Prop} (ha : Yields act Q) {f : α → Cursor → Trace Cursor}
    (hf : ∀ a, Q a → Tells (f a) P) :
    Tells (fun c => Trace.ofExcept (act c) >>= fun p => f p.1 p.2) P :=
  fun c => events_bind (t := Trace.ofExcept (act c)) (fun _ he => absurd he List.not_mem_nil)
    fun p hp => hf p.1 (ha c p.1 p.2 hp) p.2

end Tells

/-- The annotations of an event have each name once, at any depth. -/
def Event.WellNamed (e : Event) : Prop := ∀ a ∈ e.annotations, a.WellNamed

theorem tells_fields (pool : ConstantPool) (count index : Nat) :
    Tells (traceFields pool count index) Event.WellNamed := by
  induction count generalizing index with
  | zero => exact .stop
  | succ count ih =>
    exact Tells.read ((yields_member pool).at_ (.field index))
      (f := fun p c => Trace.emit (.field p.1) >>= fun _ => traceFields pool count (index + 1) c)
      fun p hp => (ih (index + 1)).report (List.forall_mem_singleton.2 hp)

theorem tells_body (interest : Interest) (pool : ConstantPool) (m : Member)
    (code : Option (List UInt8)) :
    ∀ e ∈ (traceBody interest pool m code).events, e.WellNamed := by
  intro e he
  have hcall : ∃ call, e = .call call := by
    unfold traceBody at he
    split at he
    · cases he
    · split at he
      · obtain ⟨call, -, rfl⟩ := List.mem_map.1 he
        exact ⟨call, rfl⟩
      · cases he
  obtain ⟨call, rfl⟩ := hcall
  simp [Event.WellNamed, Event.annotations]

theorem tells_methods (interest : Interest) (pool : ConstantPool) (count index : Nat) :
    Tells (traceMethods interest pool count index) Event.WellNamed := by
  induction count generalizing index with
  | zero => exact .stop
  | succ count ih =>
    exact Tells.read ((yields_member pool).at_ (.method index))
      (f := fun p c => Trace.emit (.method p.1) >>= fun _ => traceBody interest pool p.1 p.2 >>=
        fun _ => traceMethods interest pool count (index + 1) c)
      fun p hp => ((ih (index + 1)).report (tells_body interest pool p.1 p.2)).report
        (List.forall_mem_singleton.2 hp)

theorem tells_members (interest : Interest) (pool : ConstantPool) :
    Tells (traceMembers interest pool) Event.WellNamed := by
  have hend := Tells.read (P := Event.WellNamed) ((yields_classAttributes pool).at_ .classAttributes)
    (f := fun a c => Trace.emit (.finish a) >>= fun _ => pure c)
    fun a ha => Tells.stop.report (List.forall_mem_singleton.2 ha)
  have hmethods := Tells.read (P := Event.WellNamed) (.any Read.u2)
    (f := fun count c => traceMethods interest pool count 0 c >>= _)
    fun count _ => (tells_methods interest pool count 0).andThen hend
  exact Tells.read (.any Read.u2) (f := fun count c => traceFields pool count 0 c >>= _)
    fun count _ => (tells_fields pool count 0).andThen hmethods

theorem tells_class (interest : Interest) : Tells (traceClass interest) Event.WellNamed := by
  refine Tells.read (.any readHeader)
    (f := fun p c => Trace.emit (.header p.2) >>= fun _ =>
      if interest.members p.2 then traceMembers interest p.1 c else pure c) ?_
  rintro ⟨pool, header⟩ -
  refine Tells.report ?_ (List.forall_mem_singleton.2 (by simp [Event.WellNamed, Event.annotations]))
  cases interest.members header with
  | true => exact tells_members interest pool
  | false => exact .stop

end ClassAtlas.ClassFile
