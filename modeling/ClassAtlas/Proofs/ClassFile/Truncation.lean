import ClassAtlas.ClassFile.Encode
import ClassAtlas.Proofs.ClassFile.Walk

/-!
Class files that end too early. Every reader of a class file is orderly, and those after which an
event is reported ask whether the bytes were there. So a cut class file gives the first events of
the whole one and then a fault, unless only bytes are missing that were not looked at.
-/
namespace ClassAtlas.ClassFile

/-- A reader that ends by asking whether the bytes were there. -/
def Settles (act : Read α) : Prop := ∀ c a c', act c = .ok (a, c') → c'.overrun = false

namespace Settles

theorem settled : Settles Read.settled := by
  intro c a c' h
  by_cases ho : c.overrun = true
  · simp [Read.settled, ho] at h
  · simp only [Read.settled, ho] at h
    cases h
    simpa using ho

theorem bind {act : Read α} {f : α → Read β} (hf : ∀ a, Settles (f a)) : Settles (act >>= f) := by
  intro c b c' h
  obtain ⟨a, c'', -, hb⟩ := Read.bind_eq_ok.1 h
  exact hf a c'' b c' hb

/-- The question may be followed by an answer. -/
theorem map {act : Read α} (h : Settles act) (g : α → β) :
    Settles (act >>= fun a => pure (g a)) := by
  intro c b c' hb
  obtain ⟨a, d, ha, hp⟩ := Read.bind_eq_ok.1 hb
  cases hp
  exact h c a _ ha

theorem at_ {act : Read α} (h : Settles act) (place : Place) : Settles (Read.at_ place act) := by
  intro c a c' hc
  refine h c a c' ?_
  simp only [Read.at_] at hc
  cases ha : act c <;> simp_all [Except.mapError]

end Settles

theorem orderly_constant (index : Nat) : Orderly (Constant.read index) := by
  have h1 : ∀ {α : Type} (g : Nat → α), Orderly (do return g (← Read.u2)) :=
    fun g => Orderly.u2.bind fun _ => .pure _
  have h2 : ∀ {α : Type} (g : Nat → Nat → α), Orderly (do return g (← Read.u2) (← Read.u2)) :=
    fun g => Orderly.u2.bind fun _ => Orderly.u2.bind fun _ => .pure _
  have hb : ∀ {α : Type} (g : List UInt8 → α) (n : Nat), Orderly (do return g (← Read.bytes n)) :=
    fun g n => (Orderly.bytes n).bind fun _ => .pure _
  refine Orderly.u1.bind fun tag => Orderly.bind ?_ fun _ => Orderly.settled.bind fun _ => .pure _
  unfold Constant.readTagged
  split
  · exact Orderly.u2.bind fun n => hb _ n
  · exact hb _ 4
  · exact (Orderly.number 4).bind fun _ => .pure _
  · exact hb _ 8
  · exact (Orderly.number 8).bind fun _ => .pure _
  case h_12 => exact Orderly.u1.bind fun _ => h1 _
  case h_18 => exact Orderly.settled.bind fun _ => .fail _
  all_goals first | exact h1 _ | exact h2 _

theorem orderly_slots (index left : Nat) : Orderly (ConstantPool.readSlots index left) := by
  fun_induction ConstantPool.readSlots index left with
  | case1 index => exact .pure _
  | case2 index => exact (orderly_constant index).bind fun _ => .pure _
  | case3 index left ih₁ ih₂ =>
    refine (orderly_constant index).bind fun constant => ?_
    split
    · exact ih₁.bind fun _ => .pure _
    · exact ih₂.bind fun _ => .pure _

theorem orderly_pool : Orderly ConstantPool.read :=
  Orderly.u2.bind fun _ => (orderly_slots _ _).bind fun _ => Orderly.settled.bind fun _ => .pure _

theorem orderly_interfaces (pool : ConstantPool) (count : Nat) :
    Orderly (readInterfaces pool count) :=
  Orderly.times (Orderly.u2.bind fun _ => (Orderly.lift _).bind fun _ => .pure _) count

theorem orderly_magic : Orderly readMagic := by
  refine Orderly.u4.bind fun found => ?_
  split
  · exact Orderly.settled.bind fun _ => .fail _
  · exact .pure ()

theorem orderly_superName (pool : ConstantPool) (index : Nat) :
    Orderly (readSuperName pool index) := by
  unfold readSuperName
  split
  · exact .pure _
  · exact (Orderly.lift _).at_ _

theorem orderly_header : Orderly readHeader :=
  orderly_magic.bind fun _ => Orderly.u2.bind fun _ => Orderly.u2.bind fun _ =>
    orderly_pool.bind fun _ => Orderly.u2.bind fun _ => Orderly.u2.bind fun _ =>
    Orderly.u2.bind fun _ => Orderly.settled.bind fun _ => ((Orderly.lift _).at_ _).bind fun _ =>
    (orderly_superName _ _).bind fun _ => Orderly.u2.bind fun _ =>
    ((orderly_interfaces _ _).at_ _).bind fun _ => Orderly.settled.bind fun _ => .pure _

theorem orderly_attribute (pool : ConstantPool) : Orderly (readAttribute pool) :=
  Orderly.u2.bind fun _ => (Orderly.lift _).bind fun _ => Orderly.u4.bind fun _ =>
    (Orderly.bytes _).bind fun _ => Orderly.settled.bind fun _ => .pure _

theorem orderly_memberAttributes (pool : ConstantPool) (count : Nat) (m : Member)
    (code : Option (List UInt8)) : Orderly (readMemberAttributes pool count m code) := by
  induction count generalizing m code with
  | zero => exact .pure _
  | succ count ih =>
    exact (orderly_attribute pool).bind fun _ => (Orderly.lift _).bind fun _ => ih _ _

theorem orderly_member (pool : ConstantPool) : Orderly (readMember pool) :=
  Orderly.u2.bind fun _ => Orderly.u2.bind fun _ => (Orderly.lift _).bind fun _ =>
    Orderly.u2.bind fun _ => (Orderly.lift _).bind fun _ => Orderly.u2.bind fun _ =>
    (orderly_memberAttributes pool _ _ _).bind fun _ => Orderly.settled.bind fun _ => .pure _

theorem orderly_classAttributes (pool : ConstantPool) : Orderly (readClassAttributes pool) := by
  have hfrom : ∀ count a, Orderly (readClassAttributesFrom pool count a) := by
    intro count
    induction count with
    | zero => exact fun a => .pure a
    | succ count ih =>
      exact fun a => (orderly_attribute pool).bind fun _ => (Orderly.lift _).bind fun _ => ih _
  exact Orderly.u2.bind fun _ => (hfrom _ _).bind fun _ => Orderly.settled.bind fun _ => .pure _

theorem settles_member (pool : ConstantPool) : Settles (readMember pool) :=
  .bind fun _ => .bind fun _ => .bind fun _ => .bind fun _ => .bind fun _ => .bind fun _ =>
    .bind fun _ => Settles.settled.map _

theorem settles_classAttributes (pool : ConstantPool) : Settles (readClassAttributes pool) :=
  .bind fun _ => .bind fun _ => Settles.settled.map _

theorem settles_header : Settles readHeader :=
  .bind fun _ => .bind fun _ => .bind fun _ => .bind fun _ => .bind fun _ => .bind fun _ =>
    .bind fun _ => .bind fun _ => .bind fun _ => .bind fun _ => .bind fun _ => .bind fun _ =>
    Settles.settled.map _

/-- A walk over a class file: what it reports on success depends only on the bytes it took, and more
bytes can only add to what it reports. -/
structure Follows (t : Cursor → Trace Cursor) : Prop where
  faithful : ∀ bytes rest, (t ⟨bytes, false⟩).outcome = .ok ⟨rest, false⟩ →
    ∃ used, bytes = used ++ rest ∧ Walks t used (t ⟨bytes, false⟩).events
  grows : ∀ bytes more, (t ⟨bytes, false⟩).events <+: (t ⟨bytes ++ more, false⟩).events

/-- A walk that may also be started after an overrun: it then reports nothing and does not forget. -/
structure Cuts (t : Cursor → Trace Cursor) : Prop extends Follows t where
  silent : ∀ rest, (t ⟨rest, true⟩).events = []
  sticky : ∀ rest c, (t ⟨rest, true⟩).outcome = .ok c → c.overrun = true

/-- Events that do not depend on the bytes may come first. -/
theorem Follows.report {t : Cursor → Trace Cursor} (h : Follows t) (g : Trace Unit) :
    Follows fun c => g >>= fun _ => t c := by
  cases hg : g.outcome with
  | error e => refine ⟨?_, ?_⟩ <;> simp [Trace.bind_error hg]
  | ok u =>
    refine ⟨?_, ?_⟩
    · intro bytes rest hc
      rw [Trace.bind_ok hg] at hc ⊢
      obtain ⟨used, rfl, hused⟩ := h.faithful bytes rest hc
      exact ⟨used, rfl, hused.report hg⟩
    · intro bytes more
      rw [Trace.bind_ok hg, Trace.bind_ok hg]
      exact (List.prefix_append_right_inj _).2 (h.grows bytes more)

/-- A walk may start by reading something, if that settles or the rest may be cut. -/
theorem Follows.read {act : Read α} (ha : Orderly act) {f : α → Cursor → Trace Cursor}
    (hf : ∀ a, Follows (f a)) (hover : Settles act ∨ ∀ a, Cuts (f a)) :
    Follows fun c => Trace.ofExcept (act c) >>= fun p => f p.1 p.2 := by
  refine ⟨?_, ?_⟩
  · intro bytes rest hc
    cases h : act ⟨bytes, false⟩ with
    | error e => simp [h] at hc
    | ok p =>
      obtain ⟨a, r, o⟩ := p
      simp only [h, Trace.ofExcept_ok_bind] at hc ⊢
      cases o with
      | true =>
        rcases hover with hs | hcut
        · exact absurd (hs _ a _ h) (by simp)
        · exact absurd ((hcut a).sticky r _ hc) (by simp)
      | false =>
        obtain ⟨used, rfl, hused⟩ := ha.faithful bytes a r h
        obtain ⟨next, rfl, hnext⟩ := (hf a).faithful r rest hc
        exact ⟨used ++ next, by simp, hused.walks hnext⟩
  · intro bytes more
    cases h : act ⟨bytes, false⟩ with
    | error e => simp
    | ok p =>
      obtain ⟨a, r, o⟩ := p
      rw [Trace.ofExcept_ok_bind]
      cases o with
      | true =>
        rcases hover with hs | hcut
        · exact absurd (hs _ a _ h) (by simp)
        · rw [(hcut a).silent]
          exact List.nil_prefix
      | false =>
        obtain ⟨used, rfl, hused⟩ := ha.faithful bytes a r h
        rw [List.append_assoc, hused, Trace.ofExcept_ok_bind]
        exact (hf a).grows r more

namespace Cuts

theorem stop : Cuts (pure : Cursor → Trace Cursor) := by
  refine ⟨⟨?_, fun _ _ => List.prefix_rfl⟩, fun _ => rfl, ?_⟩
  · rintro bytes rest ⟨⟩
    exact ⟨[], rfl, fun _ => rfl⟩
  · rintro rest c ⟨⟩
    rfl

theorem andThen {t u : Cursor → Trace Cursor} (ht : Cuts t) (hu : Cuts u) :
    Cuts fun c => t c >>= u := by
  refine ⟨⟨?_, ?_⟩, ?_, ?_⟩
  · intro bytes rest hc
    cases h : (t ⟨bytes, false⟩).outcome with
    | error e => simp [Trace.bind_error h] at hc
    | ok d =>
      obtain ⟨r, o⟩ := d
      simp only [Trace.bind_ok h] at hc ⊢
      cases o with
      | true => exact absurd (hu.sticky r _ hc) (by simp)
      | false =>
        obtain ⟨used, rfl, hused⟩ := ht.faithful bytes r h
        obtain ⟨next, rfl, hnext⟩ := hu.faithful r rest hc
        exact ⟨used ++ next, by simp, hused.andThen hnext⟩
  · intro bytes more
    cases h : (t ⟨bytes, false⟩).outcome with
    | error e =>
      rw [Trace.bind_error h]
      exact (ht.grows bytes more).trans (Trace.events_bind _ _)
    | ok d =>
      obtain ⟨r, o⟩ := d
      rw [Trace.bind_ok h]
      cases o with
      | true =>
        rw [hu.silent, List.append_nil]
        exact (ht.grows bytes more).trans (Trace.events_bind _ _)
      | false =>
        obtain ⟨used, rfl, hused⟩ := ht.faithful bytes r h
        have hmore := hused (r ++ more)
        rw [List.append_assoc, Trace.bind_ok (congrArg Trace.outcome hmore),
          congrArg Trace.events hmore]
        exact (List.prefix_append_right_inj _).2 (hu.grows r more)
  · intro rest
    cases h : (t ⟨rest, true⟩).outcome with
    | error e => simp [Trace.bind_error h, ht.silent]
    | ok c =>
      obtain ⟨r, o⟩ := c
      obtain rfl : o = true := ht.sticky rest _ h
      simp [Trace.bind_ok h, ht.silent, hu.silent]
  · intro rest c hc
    cases h : (t ⟨rest, true⟩).outcome with
    | error e => simp [Trace.bind_error h] at hc
    | ok d =>
      obtain ⟨r, o⟩ := d
      obtain rfl : o = true := ht.sticky rest _ h
      simp only [Trace.bind_ok h] at hc
      exact hu.sticky r c hc

theorem read {act : Read α} (ha : Orderly act) {f : α → Cursor → Trace Cursor}
    (hf : ∀ a, Cuts (f a)) : Cuts fun c => Trace.ofExcept (act c) >>= fun p => f p.1 p.2 := by
  refine ⟨.read ha (fun a => (hf a).toFollows) (.inr hf), ?_, ?_⟩
  · intro rest
    cases h : act ⟨rest, true⟩ with
    | error e => rfl
    | ok p =>
      obtain ⟨a, r, o⟩ := p
      obtain rfl : o = true := ha.sticky rest a _ h
      exact (hf a).silent r
  · intro rest c hc
    cases h : act ⟨rest, true⟩ with
    | error e => simp [h] at hc
    | ok p =>
      obtain ⟨a, r, o⟩ := p
      obtain rfl : o = true := ha.sticky rest a _ h
      simp only [h, Trace.ofExcept_ok_bind] at hc
      exact (hf a).sticky r c hc

/-- After something that settles any walk may follow. -/
theorem settledRead {act : Read α} (ha : Orderly act) (hs : Settles act)
    {f : α → Cursor → Trace Cursor} (hf : ∀ a, Follows (f a)) :
    Cuts fun c => Trace.ofExcept (act c) >>= fun p => f p.1 p.2 := by
  have herror : ∀ rest, ∃ e, act ⟨rest, true⟩ = .error e := by
    intro rest
    cases h : act ⟨rest, true⟩ with
    | error e => exact ⟨e, rfl⟩
    | ok p => exact absurd (ha.sticky rest p.1 p.2 h) (by simp [hs _ p.1 p.2 h])
  refine ⟨.read ha hf (.inl hs), ?_, ?_⟩
  · intro rest
    obtain ⟨e, he⟩ := herror rest
    simp [he]
  · intro rest c hc
    obtain ⟨e, he⟩ := herror rest
    simp [he] at hc

end Cuts

theorem cuts_fields (pool : ConstantPool) (count index : Nat) :
    Cuts (traceFields pool count index) := by
  induction count generalizing index with
  | zero => exact .stop
  | succ count ih =>
    exact Cuts.settledRead ((orderly_member pool).at_ (.field index)) ((settles_member pool).at_ _)
      (f := fun p c => Trace.emit (.field p.1) >>= fun _ => traceFields pool count (index + 1) c)
      fun p => (ih (index + 1)).toFollows.report _

theorem cuts_methods (interest : Interest) (pool : ConstantPool) (count index : Nat) :
    Cuts (traceMethods interest pool count index) := by
  induction count generalizing index with
  | zero => exact .stop
  | succ count ih =>
    exact Cuts.settledRead ((orderly_member pool).at_ (.method index)) ((settles_member pool).at_ _)
      (f := fun p c => Trace.emit (.method p.1) >>= fun _ => traceBody interest pool p.1 p.2 >>=
        fun _ => traceMethods interest pool count (index + 1) c)
      fun p => ((ih (index + 1)).toFollows.report _).report _

/-- From the attributes of a class on. -/
theorem cuts_end (pool : ConstantPool) :
    Cuts fun c => Trace.ofExcept (Read.at_ .classAttributes (readClassAttributes pool) c) >>=
      fun p => Trace.emit (.finish p.1) >>= fun _ => pure p.2 :=
  Cuts.settledRead ((orderly_classAttributes pool).at_ _) ((settles_classAttributes pool).at_ _)
    (f := fun a c => Trace.emit (.finish a) >>= fun _ => pure c)
    fun _ => Cuts.stop.toFollows.report _

/-- From the number of methods on. -/
theorem cuts_methodsOn (interest : Interest) (pool : ConstantPool) :
    Cuts fun c => Trace.ofExcept (Read.u2 c) >>= fun p =>
      traceMethods interest pool p.1 0 p.2 >>= fun c =>
      Trace.ofExcept (Read.at_ .classAttributes (readClassAttributes pool) c) >>=
      fun p => Trace.emit (.finish p.1) >>= fun _ => pure p.2 :=
  Cuts.read Orderly.u2 (f := fun count c => traceMethods interest pool count 0 c >>= _)
    fun count => (cuts_methods interest pool count 0).andThen (cuts_end pool)

theorem cuts_members (interest : Interest) (pool : ConstantPool) :
    Cuts (traceMembers interest pool) :=
  Cuts.read Orderly.u2 (f := fun count c => traceFields pool count 0 c >>= _)
    fun count => (cuts_fields pool count 0).andThen (cuts_methodsOn interest pool)

theorem cuts_class (interest : Interest) : Cuts (traceClass interest) := by
  refine Cuts.settledRead orderly_header settles_header
    (f := fun p c => Trace.emit (.header p.2) >>= fun _ =>
      if interest.members p.2 then traceMembers interest p.1 c else pure c) ?_
  rintro ⟨pool, header⟩
  refine Follows.report ?_ _
  cases interest.members header with
  | true => exact (cuts_members interest pool).toFollows
  | false => exact Cuts.stop.toFollows

theorem decode_events (interest : Interest) (bytes : List UInt8) :
    (decode interest bytes).events = (traceClass interest ⟨bytes, false⟩).events := by
  rw [decode_eq]
  cases h : (traceClass interest (Cursor.start bytes)).outcome with
  | error e =>
    rw [Trace.bind_error h]
    rfl
  | ok c =>
    rw [Trace.bind_ok h]
    exact List.append_nil _

/-- A class file is read to its end only within its bytes. -/
theorem decode_outcome (interest : Interest) (bytes : List UInt8) :
    (decode interest bytes).outcome = .ok () ↔
      ∃ rest, (traceClass interest ⟨bytes, false⟩).outcome = .ok ⟨rest, false⟩ := by
  rw [decode_eq, Trace.bind_outcome_eq_ok]
  constructor
  · rintro ⟨⟨rest, o⟩, hc, -⟩
    suffices o = false by subst this; exact ⟨rest, hc⟩
    obtain ⟨⟨⟨pool, header⟩, c⟩, hheader, hrest⟩ := Trace.bind_outcome_eq_ok.1 hc
    obtain ⟨-, -, hrest⟩ := Trace.bind_outcome_eq_ok.1 hrest
    split at hrest
    · unfold traceMembers at hrest
      obtain ⟨⟨_, _⟩, -, hrest⟩ := Trace.bind_outcome_eq_ok.1 hrest
      obtain ⟨_, -, hrest⟩ := Trace.bind_outcome_eq_ok.1 hrest
      obtain ⟨⟨_, _⟩, -, hrest⟩ := Trace.bind_outcome_eq_ok.1 hrest
      obtain ⟨_, -, hrest⟩ := Trace.bind_outcome_eq_ok.1 hrest
      obtain ⟨⟨attributes, _⟩, hattributes, hrest⟩ := Trace.bind_outcome_eq_ok.1 hrest
      cases hrest
      exact (settles_classAttributes pool).at_ _ _ attributes _ hattributes
    · cases hrest
      exact settles_header _ _ _ hheader
  · rintro ⟨rest, hc⟩
    exact ⟨_, hc, rfl⟩

/-- Cutting a class file never makes up structure and never goes unnoticed. A cut class file gives
the first events of the whole one; and if the whole one can be read, there is one length below which
every cut ends in a fault, and from which on the bytes make no difference. -/
theorem decode_cut (interest : Interest) (bytes : List UInt8) :
    (∀ cut, cut <+: bytes → (decode interest cut).events <+: (decode interest bytes).events) ∧
    ((decode interest bytes).outcome = .ok () → ∃ k ≤ bytes.length,
      (∀ cut, cut <+: bytes → cut.length < k →
        ∃ fault, (decode interest cut).outcome = .error fault) ∧
      (∀ cut, cut <+: bytes → k ≤ cut.length → (decode interest cut).outcome = .ok () ∧
        (decode interest cut).events = (decode interest bytes).events) ∧
      ∀ tail, (decode interest (bytes.take k ++ tail)).outcome = .ok () ∧
        (decode interest (bytes.take k ++ tail)).events = (decode interest bytes).events) := by
  have hcuts := cuts_class interest
  refine ⟨?_, ?_⟩
  · rintro cut ⟨more, rfl⟩
    rw [decode_events, decode_events]
    exact hcuts.grows cut more
  · intro hok
    obtain ⟨rest, hrest⟩ := (decode_outcome interest bytes).1 hok
    obtain ⟨used, rfl, hused⟩ := hcuts.faithful bytes rest hrest
    have htail : ∀ tail, (decode interest (used ++ tail)).outcome = .ok () ∧
        (decode interest (used ++ tail)).events = (decode interest (used ++ rest)).events := by
      intro tail
      rw [decode_outcome, decode_events, decode_events, hused tail]
      exact ⟨⟨tail, rfl⟩, rfl⟩
    refine ⟨used.length, by simp, ?_, ?_, ?_⟩
    · rintro cut ⟨more, hcut⟩ hlt
      cases hout : (decode interest cut).outcome with
      | error fault => exact ⟨fault, rfl⟩
      | ok u =>
        -- a cut that succeeds took as many bytes as the whole class file did
        exfalso
        obtain ⟨left, hleft⟩ := (decode_outcome interest cut).1 hout
        obtain ⟨taken, rfl, htaken⟩ := hcuts.faithful cut left hleft
        have hsame := congrArg Trace.outcome (htaken (left ++ more))
        rw [← List.append_assoc, hcut, hrest] at hsame
        simp only [Except.ok.injEq, Cursor.mk.injEq, and_true] at hsame
        have hlen := congrArg List.length hcut
        simp only [hsame, List.length_append] at hlen hlt
        omega
    · rintro cut ⟨more, hcut⟩ hle
      obtain ⟨left, rfl⟩ : used <+: cut :=
        List.prefix_of_prefix_length_le (by simp) ⟨more, hcut⟩ hle
      exact htail left
    · simpa using htail

/-- A class with a field and a method that calls another one, and a byte that nobody looks at. -/
def callingClass : List UInt8 := encode { ClassSpec.ofName "A" with
  fields := [⟨2, "id", "J", "", []⟩]
  methods := [⟨1, "run", "()V", [], [⟨184, "B", "go", "()V"⟩]⟩] } ++ [9]

/-- Whoever reads all there is. -/
def wholeInterest : Interest := ⟨fun _ => true, fun _ => true⟩

theorem eq_ok_of_isOk {ε : Type} {outcome : Except ε Unit} (h : outcome.isOk = true) :
    outcome = .ok () := by
  cases outcome with
  | ok _ => rfl
  | error _ => cases h

/-- All bytes but the last are needed. A cut within the method gives the header and the field, and
ends in a fault. -/
theorem decode_cut_callingClass :
    callingClass.length = 163 ∧ (decode wholeInterest callingClass).outcome = .ok () ∧
    (decode wholeInterest callingClass).events.length = 5 ∧
    (∀ cut, cut <+: callingClass → cut.length < 162 →
      ∃ fault, (decode wholeInterest cut).outcome = .error fault) ∧
    (∀ cut, cut <+: callingClass → 162 ≤ cut.length → (decode wholeInterest cut).outcome = .ok () ∧
      (decode wholeInterest cut).events = (decode wholeInterest callingClass).events) ∧
    (decode wholeInterest (callingClass.take 130)).events.length = 2 ∧
    ∃ fault, (decode wholeInterest (callingClass.take 130)).outcome = .error fault := by
  have hlength : callingClass.length = 163 := by decide +kernel
  have hok : (decode wholeInterest callingClass).outcome = .ok () :=
    eq_ok_of_isOk (by decide +kernel)
  have hwhole : (decode wholeInterest (callingClass.take 162)).outcome = .ok () :=
    eq_ok_of_isOk (by decide +kernel)
  have hcut : (decode wholeInterest (callingClass.take 161)).outcome.isOk = false := by
    decide +kernel
  have hevents : (decode wholeInterest callingClass).events.length = 5 ∧
      (decode wholeInterest (callingClass.take 130)).events.length = 2 := by decide +kernel
  obtain ⟨k, -, hbelow, habove, -⟩ := (decode_cut wholeInterest callingClass).2 hok
  have hk : k = 162 := by
    refine le_antisymm (not_lt.1 fun hlt => ?_) (not_lt.1 fun hlt => ?_)
    · obtain ⟨fault, hfault⟩ := hbelow _ (List.take_prefix 162 _) (by simpa [hlength] using hlt)
      rw [hwhole] at hfault
      cases hfault
    · have hle : k ≤ (callingClass.take 161).length := by
        rw [List.length_take, hlength]
        omega
      rw [(habove _ (List.take_prefix 161 _) hle).1] at hcut
      cases hcut
  subst hk
  exact ⟨hlength, hok, hevents.1, hbelow, habove, hevents.2,
    hbelow _ (List.take_prefix 130 _) (by simp [hlength])⟩

end ClassAtlas.ClassFile
