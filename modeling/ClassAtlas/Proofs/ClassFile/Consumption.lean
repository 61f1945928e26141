import ClassAtlas.Proofs.ClassFile.Attributes
import ClassAtlas.Proofs.ClassFile.Body
import ClassAtlas.Proofs.ClassFile.Truncation

/-!
What is reported is paid for in bytes. A field or a method takes eight bytes and those of its body, and
a call takes three bytes of a body. A walk is given the bytes as a credit and reports no more than the
credit is worth.
-/
namespace ClassAtlas.ClassFile

/-- An orderly reader that takes at least so many bytes, depending on its answer. -/
structure Takes (act : Read α) (least : α → Nat) : Prop extends Orderly act where
  least_le : ∀ bytes a rest, act ⟨bytes, false⟩ = .ok (a, ⟨rest, false⟩) →
    least a + rest.length ≤ bytes.length

theorem Orderly.takes {act : Read α} (h : Orderly act) : Takes act fun _ => 0 := by
  refine ⟨h, fun bytes a rest ha => ?_⟩
  obtain ⟨used, rfl, -⟩ := h.faithful bytes a rest ha
  simp

namespace Takes

theorem mono {act : Read α} {least fewer : α → Nat} (h : Takes act least)
    (hle : ∀ a, fewer a ≤ least a) : Takes act fewer :=
  ⟨h.toOrderly, fun bytes a rest ha =>
    (Nat.add_le_add_right (hle a) _).trans (h.least_le bytes a rest ha)⟩

theorem pure {least : α → Nat} {a : α} (h : least a = 0) : Takes (Pure.pure a) least := by
  refine ⟨.pure a, ?_⟩
  rintro bytes b rest ⟨⟩
  simp [h]

/-- What is taken first counts towards what is taken in all. -/
theorem bind {act : Read α} {f : α → Read β} {first : α → Nat} {least : β → Nat}
    (h : Takes act first) (hf : ∀ a, Takes (f a) fun b => least b - first a) :
    Takes (act >>= f) least := by
  refine ⟨h.toOrderly.bind fun a => (hf a).toOrderly, fun bytes b rest hb => ?_⟩
  obtain ⟨a, ⟨middle, overrun⟩, ha, hfa⟩ := Read.bind_eq_ok.1 hb
  cases overrun with
  | true => exact absurd ((hf a).sticky middle b _ hfa) (by simp)
  | false =>
    have hfirst := h.least_le bytes a middle ha
    have hlater := (hf a).least_le middle b rest hfa
    omega

/-- Bytes that are there are as many as were asked for. -/
theorem bytes {n : Nat} {least : List UInt8 → Nat}
    (h : ∀ front : List UInt8, front.length = n → least front ≤ n) :
    Takes (Read.bytes n) least := by
  refine ⟨.bytes n, fun bytes front rest hbytes => ?_⟩
  obtain ⟨hfront, hlen⟩ := Read.bytes_eq_ok hbytes rfl
  obtain rfl : bytes = front ++ rest := congrArg Cursor.rest hfront
  have := h front hlen
  rw [List.length_append]
  omega

theorem block (n : Nat) : Takes (Read.bytes n) List.length := bytes fun _ h => h.le

theorem number (n : Nat) : Takes (Read.number n) fun _ => n :=
  (bytes fun _ _ => le_rfl : Takes (Read.bytes n) fun _ => n).bind fun _ => .pure (by simp)

theorem u2 : Takes Read.u2 fun _ => 2 := number 2

theorem u4 : Takes Read.u4 fun _ => 4 := number 4

/-- What does not depend on the bytes takes none of them. -/
theorem lift_bind {x : Except Fault α} {f : α → Read β} {least : β → Nat}
    (h : ∀ a, x = .ok a → Takes (f a) least) : Takes (Read.lift x >>= f) least := by
  cases x with
  | ok a => exact h a rfl
  | error e => exact ⟨⟨by rintro _ _ _ ⟨⟩, by rintro _ _ _ ⟨⟩⟩, by rintro _ _ _ ⟨⟩⟩

/-- A check at the end takes nothing. -/
theorem settled_pure {least : α → Nat} {a : α} (h : least a = 0) :
    Takes (Read.settled >>= fun _ => Pure.pure a) least :=
  Orderly.settled.takes.bind fun _ => .pure (by simp [h])

theorem at_ {act : Read α} {least : α → Nat} (h : Takes act least) (place : Place) :
    Takes (Read.at_ place act) least := by
  refine ⟨h.toOrderly.at_ place, fun bytes a rest ha => h.least_le bytes a rest ?_⟩
  simp only [Read.at_] at ha
  cases hact : act ⟨bytes, false⟩ <;> simp_all [Except.mapError]

/-- A block is as long as what has to be taken from it. -/
theorem readBlock_le {act : Read α} (least : α → Nat) (h : Takes act least) (hs : Settles act)
    {block : List UInt8} {a : α} (ha : readBlock act block = .ok a) : least a ≤ block.length := by
  unfold readBlock at ha
  cases hact : act (Cursor.start block) with
  | error e => simp [hact, Except.map] at ha
  | ok p =>
    obtain ⟨b, rest, overrun⟩ := p
    obtain rfl : overrun = false := hs _ b _ hact
    obtain rfl : b = a := by simpa [hact, Except.map] using ha
    have := h.least_le block b rest hact
    omega

end Takes

/-! Members -/

theorem takes_attribute (pool : ConstantPool) :
    Takes (readAttribute pool) fun p => 6 + p.2.length :=
  Takes.u2.bind fun _ => .lift_bind fun _ _ => Takes.u4.bind fun n =>
    (Takes.block n).bind fun _ => .settled_pure (by simp only; omega)

theorem length_readCodeAttribute {block code : List UInt8} (h : readCodeAttribute block = .ok code) :
    8 + code.length ≤ block.length := by
  refine Takes.readBlock_le (fun code => 8 + code.length) ?_ ?_ h
  · exact Takes.u2.bind fun _ => Takes.u2.bind fun _ => Takes.u4.bind fun n =>
      (Takes.block n).bind fun _ => .settled_pure (by omega)
  · exact .bind fun _ => .bind fun _ => .bind fun _ => .bind fun _ => Settles.settled.map _

/-- The length of a body; a member without one counts as empty. -/
def bodySize (code : Option (List UInt8)) : Nat := (code.map List.length).getD 0

/-- A body stays the same or comes out of the attribute. -/
theorem bodySize_applyMemberAttribute {pool : ConstantPool} {name : String} {block : List UInt8}
    {m : Member} {code : Option (List UInt8)} {p : Member × Option (List UInt8)}
    (h : applyMemberAttribute pool name block m code = .ok p) :
    bodySize p.2 ≤ bodySize code ∨ bodySize p.2 ≤ block.length := by
  rcases applyMemberAttribute_eq_ok h with ⟨body, hbody, rfl⟩ | ⟨hcode, -⟩
  · have hlen := length_readCodeAttribute hbody
    exact .inr (by simp only [bodySize, Option.map_some, Option.getD_some]; omega)
  · exact .inl (by rw [hcode])

theorem takes_memberAttributes (pool : ConstantPool) (count : Nat) (m : Member)
    (code : Option (List UInt8)) :
    Takes (readMemberAttributes pool count m code) fun p => bodySize p.2 - bodySize code := by
  induction count generalizing m code with
  | zero => exact .pure (by simp)
  | succ count ih =>
    refine (takes_attribute pool).bind fun _ => .lift_bind fun p hp => (ih p.1 p.2).mono ?_
    intro result
    have := bodySize_applyMemberAttribute hp
    omega

theorem takes_member (pool : ConstantPool) :
    Takes (readMember pool) fun p => 8 + bodySize p.2 :=
  Takes.u2.bind fun _ => Takes.u2.bind fun _ => .lift_bind fun _ _ => Takes.u2.bind fun _ =>
    .lift_bind fun _ _ => Takes.u2.bind fun _ => (takes_memberAttributes pool _ _ none).bind fun _ =>
    .settled_pure (by simp only [bodySize, Option.map_none, Option.getD_none]; omega)

/-! Bodies -/

/-- Each call of a body takes three bytes of it. -/
theorem three_mul_calls_le (body : List Instruction) :
    3 * (body.filter Instruction.IsCall).length ≤ (body.flatMap Instruction.bytes).length := by
  induction body with
  | nil => simp
  | cons i body ih =>
    rw [List.flatMap_cons, List.length_append, Instruction.bytes, List.length_cons]
    by_cases hcall : i.IsCall
    · have := i.complete.two_le_of_call (i.isInvoke_iff.2 hcall)
      simp only [hcall, decide_true, List.filter_cons_of_pos, List.length_cons]
      omega
    · simp only [hcall, decide_false, Bool.false_eq_true, not_false_eq_true,
        List.filter_cons_of_neg]
      omega

theorem length_walkCode (pool : ConstantPool) (offset : Nat) (code : List UInt8) :
    3 * (walkCode pool offset code).1.length ≤ code.length := by
  obtain ⟨front, rest, body, rfl, hbody, -, hcalls, -⟩ := exists_passed pool offset code
  have hlen := three_mul_calls_le body
  rw [hbody.bytes_eq, hcalls.length_eq] at hlen
  rw [List.length_append]
  omega

/-! Events -/

def Event.isMember : Event → Bool
  | .field _ => true
  | .method _ => true
  | _ => false

def Event.isCall : Event → Bool
  | .call _ => true
  | _ => false

/-- The bytes that events have to be paid with. -/
def price (events : List Event) : Nat :=
  8 * events.countP Event.isMember + 3 * events.countP Event.isCall

@[simp] theorem price_append (events later : List Event) :
    price (events ++ later) = price events + price later := by
  simp only [price, List.countP_append]
  omega

theorem price_calls (calls : List Invocation) : price (calls.map .call) = 3 * calls.length := by
  induction calls with
  | nil => rfl
  | cons call calls ih =>
    rw [List.map_cons, ← List.singleton_append, price_append, ih, List.length_cons]
    have : price [.call call] = 3 := rfl
    omega

/-- With a credit besides the bytes it takes, a walk can pay for all it reports. -/
structure Affords (credit : Nat) (t : Cursor → Trace Cursor) : Prop where
  total : ∀ bytes, price (t ⟨bytes, false⟩).events ≤ credit + bytes.length
  taken : ∀ bytes rest, (t ⟨bytes, false⟩).outcome = .ok ⟨rest, false⟩ →
    price (t ⟨bytes, false⟩).events + rest.length ≤ credit + bytes.length

namespace Affords

variable {credit : Nat}

theorem stop : Affords credit pure := by
  refine ⟨fun bytes => Nat.zero_le _, ?_⟩
  rintro bytes rest ⟨⟩
  exact Nat.add_le_add_right (Nat.zero_le _) _

/-- What is reported first comes out of the credit. -/
theorem report {t : Cursor → Trace Cursor} {g : Trace Unit}
    (h : Affords (credit - price g.events) t) (hg : price g.events ≤ credit) :
    Affords credit fun c => g >>= fun _ => t c := by
  cases hout : g.outcome with
  | error e =>
    refine ⟨fun bytes => ?_, fun bytes rest hrest => ?_⟩
    · rw [Trace.bind_error hout]
      exact hg.trans (Nat.le_add_right _ _)
    · simp [Trace.bind_error hout] at hrest
  | ok u =>
    refine ⟨fun bytes => ?_, fun bytes rest hrest => ?_⟩
    · have := h.total bytes
      rw [Trace.bind_ok hout, price_append]
      omega
    · rw [Trace.bind_ok hout] at hrest ⊢
      have := h.taken bytes rest hrest
      rw [price_append]
      omega

/-- What is taken in reading adds to the credit. Reading may miss bytes only if nothing is reported
after that. -/
theorem read {act : Read α} {least : α → Nat} (ha : Takes act least)
    {f : α → Cursor → Trace Cursor} (hover : Settles act ∨ ∀ a, Cuts (f a))
    (hf : ∀ a, Affords (credit + least a) (f a)) :
    Affords credit fun c => Trace.ofExcept (act c) >>= fun p => f p.1 p.2 := by
  have hcases : ∀ bytes,
      (∃ e, act ⟨bytes, false⟩ = .error e) ∨
      (∃ a rest, act ⟨bytes, false⟩ = .ok (a, ⟨rest, false⟩)) ∨
      (∃ a rest, act ⟨bytes, false⟩ = .ok (a, ⟨rest, true⟩) ∧ Cuts (f a)) := by
    intro bytes
    rcases hact : act ⟨bytes, false⟩ with e | ⟨a, rest, _ | _⟩
    · exact .inl ⟨e, rfl⟩
    · exact .inr (.inl ⟨a, rest, rfl⟩)
    · rcases hover with hs | hcut
      · exact absurd (hs _ a _ hact) (by simp)
      · exact .inr (.inr ⟨a, rest, rfl, hcut a⟩)
  refine ⟨fun bytes => ?_, fun bytes rest hrest => ?_⟩
  · rcases hcases bytes with ⟨e, hact⟩ | ⟨a, middle, hact⟩ | ⟨a, middle, hact, hcut⟩
    · rw [hact]
      exact Nat.zero_le _
    · have := ha.least_le bytes a middle hact
      have := (hf a).total middle
      rw [hact, Trace.ofExcept_ok_bind]
      dsimp only
      omega
    · rw [hact, Trace.ofExcept_ok_bind, hcut.silent]
      exact Nat.zero_le _
  · rcases hcases bytes with ⟨e, hact⟩ | ⟨a, middle, hact⟩ | ⟨a, middle, hact, hcut⟩
    · simp [hact] at hrest
    · rw [hact, Trace.ofExcept_ok_bind] at hrest ⊢
      have := ha.least_le bytes a middle hact
      have := (hf a).taken middle rest hrest
      dsimp only
      omega
    · rw [hact, Trace.ofExcept_ok_bind] at hrest
      exact absurd (hcut.sticky middle _ hrest) (by simp)

theorem andThen {t u : Cursor → Trace Cursor} (ht : Affords credit t) (hu : Affords 0 u)
    (hcut : Cuts u) : Affords credit fun c => t c >>= u := by
  refine ⟨fun bytes => ?_, fun bytes rest hrest => ?_⟩
  · have htotal := ht.total bytes
    rcases hout : (t ⟨bytes, false⟩).outcome with e | ⟨middle, _ | _⟩
    · rwa [Trace.bind_error hout]
    · have := ht.taken bytes middle hout
      have := hu.total middle
      rw [Trace.bind_ok hout, price_append]
      omega
    · rwa [Trace.bind_ok hout, hcut.silent, List.append_nil]
  · rcases hout : (t ⟨bytes, false⟩).outcome with e | ⟨middle, _ | _⟩
    · simp [Trace.bind_error hout] at hrest
    · rw [Trace.bind_ok hout] at hrest ⊢
      have := ht.taken bytes middle hout
      have := hu.taken middle rest hrest
      rw [price_append]
      omega
    · rw [Trace.bind_ok hout] at hrest
      exact absurd (hcut.sticky middle _ hrest) (by simp)

end Affords

theorem affords_fields (credit : Nat) (pool : ConstantPool) (count index : Nat) :
    Affords credit (traceFields pool count index) := by
  induction count generalizing credit index with
  | zero => exact .stop
  | succ count ih =>
    refine Affords.read ((takes_member pool).at_ (.field index))
      (f := fun p c => Trace.emit (.field p.1) >>= fun _ => traceFields pool count (index + 1) c)
      (.inl ((settles_member pool).at_ _)) fun p => (ih _ (index + 1)).report ?_
    have hprice : price (Trace.emit (.field p.1)).events = 8 := rfl
    omega

/-- The calls of a body are paid with its bytes. -/
theorem price_traceBody (interest : Interest) (pool : ConstantPool) (m : Member)
    (code : Option (List UInt8)) :
    price (traceBody interest pool m code).events ≤ bodySize code := by
  unfold traceBody
  split
  · exact Nat.zero_le _
  · next code =>
    split
    · have := length_walkCode pool 0 code
      simpa only [price_calls, bodySize, Option.map_some, Option.getD_some] using this
    · exact Nat.zero_le _

theorem affords_methods (credit : Nat) (interest : Interest) (pool : ConstantPool)
    (count index : Nat) : Affords credit (traceMethods interest pool count index) := by
  induction count generalizing credit index with
  | zero => exact .stop
  | succ count ih =>
    refine Affords.read ((takes_member pool).at_ (.method index))
      (f := fun p c => Trace.emit (.method p.1) >>= fun _ => traceBody interest pool p.1 p.2 >>=
        fun _ => traceMethods interest pool count (index + 1) c)
      (.inl ((settles_member pool).at_ _)) fun p => ((ih _ (index + 1)).report ?_).report ?_
    all_goals
      have hprice : price (Trace.emit (.method p.1)).events = 8 := rfl
      have hbody := price_traceBody interest pool p.1 p.2
      omega

theorem affords_members (credit : Nat) (interest : Interest) (pool : ConstantPool) :
    Affords credit (traceMembers interest pool) := by
  have hend : Affords 0 _ := Affords.read ((orderly_classAttributes pool).at_ .classAttributes).takes
    (f := fun a c => Trace.emit (.finish a) >>= fun _ => pure c)
    (.inl ((settles_classAttributes pool).at_ _)) fun _ => Affords.stop.report (Nat.zero_le _)
  have hmethods : Affords 0 _ := Affords.read Orderly.u2.takes
    (f := fun count c => traceMethods interest pool count 0 c >>= _)
    (.inr fun count => (cuts_methods interest pool count 0).andThen (cuts_end pool))
    fun count => (affords_methods _ interest pool count 0).andThen hend (cuts_end pool)
  exact Affords.read Orderly.u2.takes (f := fun count c => traceFields pool count 0 c >>= _)
    (.inr fun count => (cuts_fields pool count 0).andThen (cuts_methodsOn interest pool))
    fun count => (affords_fields _ pool count 0).andThen hmethods (cuts_methodsOn interest pool)

theorem affords_class (interest : Interest) : Affords 0 (traceClass interest) := by
  refine Affords.read orderly_header.takes
    (f := fun p c => Trace.emit (.header p.2) >>= fun _ =>
      if interest.members p.2 then traceMembers interest p.1 c else pure c)
    (.inl settles_header) ?_
  rintro ⟨pool, header⟩
  refine Affords.report ?_ (Nat.zero_le _)
  cases interest.members header with
  | true => exact affords_members _ interest pool
  | false => exact .stop

end ClassAtlas.ClassFile
