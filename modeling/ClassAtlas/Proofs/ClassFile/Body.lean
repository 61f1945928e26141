import ClassAtlas.Proofs.ClassFile.Instruction

/-!
Method bodies as series of complete instructions. A walk over a body passes the longest series at its
front in which every call names a method, and reports the calls of that series. It ends without a fault
exactly if the series is the whole body, and then no other series is.
-/
namespace ClassAtlas.ClassFile

open ConstantPool (MethodRef)

/-- A complete instruction at its place in a body. -/
structure Instruction where
  offset : Nat
  op : UInt8
  operands : List UInt8
  complete : Complete offset op operands

namespace Instruction

def bytes (i : Instruction) : List UInt8 := i.op :: i.operands

/-- Where the next instruction starts. -/
def next (i : Instruction) : Nat := i.offset + i.bytes.length

/-- The instructions that call a method which they name in the pool. -/
def IsCall (i : Instruction) : Prop := 0xb6 ≤ i.op.toNat ∧ i.op.toNat ≤ 0xb9

instance : DecidablePred IsCall := fun i =>
  inferInstanceAs (Decidable (0xb6 ≤ i.op.toNat ∧ i.op.toNat ≤ 0xb9))

/-- The place in the pool that a call names. -/
def index (i : Instruction) : Nat := bigEndian (i.operands.take 2)

/-- The report of a call, given its method. -/
def invocation (i : Instruction) (m : MethodRef) : Invocation :=
  ⟨i.op.toNat, dotted m.owner, m.name, m.descriptor, m.ofInterface, i.offset⟩

/-- If it is a call, then it names a method. -/
def Resolved (pool : ConstantPool) (i : Instruction) : Prop :=
  i.IsCall → ∃ m, pool.Resolves i.index m

/-- A report is that of a call and the method it names. -/
def Reports (pool : ConstantPool) (i : Instruction) (call : Invocation) : Prop :=
  ∃ m, pool.Resolves i.index m ∧ call = i.invocation m

variable {pool : ConstantPool} {i j : Instruction}

theorem isInvoke_iff (i : Instruction) : isInvoke i.op.toNat = true ↔ i.IsCall := by
  simp [isInvoke, IsCall]

/-- Only one instruction can stand at a place, whatever follows it. -/
theorem eq_of_bytes_prefix {code : List UInt8} (hoffset : i.offset = j.offset)
    (hi : i.bytes <+: code) (hj : j.bytes <+: code) : i = j := by
  obtain ⟨rest, hi⟩ := hi
  obtain ⟨rest', hj⟩ := hj
  obtain ⟨offset, op, operands, hcomplete⟩ := i
  obtain ⟨_, op', operands', hcomplete'⟩ := j
  obtain rfl : offset = _ := hoffset
  have heq : op :: (operands ++ rest) = op' :: (operands' ++ rest') := hi.trans hj.symm
  obtain ⟨rfl, htail⟩ := List.cons.inj heq
  obtain rfl := hcomplete.operands_unique hcomplete' htail
  rfl

theorem invocation?_eq (pool : ConstantPool) (hcall : i.IsCall) (rest : List UInt8) :
    invocation? pool i.offset i.op.toNat (i.operands ++ rest) =
      (pool.methodRef i.index).map fun m => some (i.invocation m) := by
  have hinvoke := i.isInvoke_iff.2 hcall
  have htake : (i.operands ++ rest).take 2 = i.operands.take 2 :=
    List.take_append_of_le_length (i.complete.two_le_of_call hinvoke)
  rw [invocation?, if_pos hinvoke, htake, ← index]
  cases pool.methodRef i.index <;> rfl

end Instruction

open Instruction

/-- Instructions that stand one after the other from an offset on. -/
def Consecutive : Nat → List Instruction → Prop
  | _, [] => True
  | offset, i :: body => i.offset = offset ∧ Consecutive i.next body

/-- Some code is a series of complete instructions in which every call names a method. -/
structure Decomposes (pool : ConstantPool) (offset : Nat) (code : List UInt8)
    (body : List Instruction) : Prop where
  consecutive : Consecutive offset body
  bytes_eq : body.flatMap bytes = code
  resolved : ∀ i ∈ body, i.Resolved pool

/-- Reports are those of the calls among some instructions: one for each, in their order. -/
def Reported (pool : ConstantPool) (body : List Instruction) (calls : List Invocation) : Prop :=
  List.Forall₂ (Reports pool) (body.filter IsCall) calls

theorem Reported.append {pool : ConstantPool} {body body' : List Instruction}
    {calls calls' : List Invocation} (h : Reported pool body calls) (h' : Reported pool body' calls') :
    Reported pool (body ++ body') (calls ++ calls') := by
  unfold Reported
  rw [List.filter_append]
  exact List.rel_append h h'

/-- No instruction at an offset can be passed. -/
def Stuck (pool : ConstantPool) (offset : Nat) (rest : List UInt8) : Prop :=
  ∀ i : Instruction, i.offset = offset → i.bytes <+: rest → ¬ i.Resolved pool

theorem Decomposes.nil (pool : ConstantPool) (offset : Nat) : Decomposes pool offset [] [] :=
  ⟨trivial, rfl, by simp⟩

theorem Decomposes.cons {pool : ConstantPool} {i : Instruction} {code : List UInt8}
    {body : List Instruction} (hi : i.Resolved pool) (h : Decomposes pool i.next code body) :
    Decomposes pool i.offset (i.bytes ++ code) (i :: body) := by
  refine ⟨⟨rfl, h.consecutive⟩, ?_, ?_⟩
  · rw [List.flatMap_cons, h.bytes_eq]
  · exact List.forall_mem_cons.2 ⟨hi, h.resolved⟩

/-- An instruction that can be passed is passed, and reported if it is a call. -/
theorem walkCode_pass {pool : ConstantPool} {i : Instruction} (h : i.Resolved pool)
    (rest : List UInt8) : ∃ calls, Reported pool [i] calls ∧
      walkCode pool i.offset (i.bytes ++ rest) =
        (calls ++ (walkCode pool i.next rest).1, (walkCode pool i.next rest).2) := by
  have hlength := i.complete.instructionLength_eq rest
  by_cases hcall : i.IsCall
  · obtain ⟨m, hm⟩ := h hcall
    have hinvocation := invocation?_eq pool hcall rest
    rw [ConstantPool.methodRef_eq_ok.2 hm] at hinvocation
    refine ⟨[i.invocation m], ?_, walkCode_step i.operands hlength hinvocation⟩
    simp only [Reported, hcall, decide_true, List.filter_cons_of_pos, List.filter_nil]
    exact .cons ⟨m, hm, rfl⟩ .nil
  · have hinvoke : isInvoke i.op.toNat = false := by
      rw [← Bool.not_eq_true, isInvoke_iff]
      exact hcall
    refine ⟨[], ?_, walkCode_skip i.operands hlength hinvoke⟩
    simp [Reported, hcall]

/-- Where no instruction can be passed, a walk ends at once. -/
theorem walkCode_stuck {pool : ConstantPool} {offset : Nat} {rest : List UInt8}
    (h : Stuck pool offset rest) : (walkCode pool offset rest).1 = [] ∧
      ((walkCode pool offset rest).2 = none ↔ rest = []) := by
  cases rest with
  | nil => simp [walkCode, walkFrom]
  | cons op operands =>
    rw [walkCode, walkFrom]
    cases hlength : instructionLength offset op.toNat operands with
    | error fault => simp
    | ok n =>
      dsimp only
      split
      · next hroom =>
        -- there is an instruction, so it is a call whose method cannot be found
        have hpos := instructionLength_pos hlength
        rw [hasAtLeast_iff, List.length_cons] at hroom
        obtain ⟨front, rest, rfl, hfront⟩ := exists_append_of_le operands (n - 1) (by omega)
        have hn : n = front.length + 1 := by omega
        rw [hn] at hlength
        let i : Instruction := ⟨offset, op, front, complete_of_instructionLength hlength⟩
        obtain ⟨hcall, hnone⟩ := Classical.not_imp.1 (h i rfl ⟨rest, rfl⟩)
        have hinvocation := invocation?_eq pool hcall rest
        cases hmethod : pool.methodRef i.index with
        | ok m => exact absurd ⟨m, ConstantPool.methodRef_eq_ok.1 hmethod⟩ hnone
        | error fault =>
          rw [hmethod] at hinvocation
          change invocation? pool offset op.toNat (front ++ rest) = .error fault at hinvocation
          simp [hinvocation]
      · simp

/-- A walk passes a series of instructions, reports its calls and ends where it is stuck: without a
fault at the end of the code, and with one before it. -/
theorem exists_passed (pool : ConstantPool) (offset : Nat) (code : List UInt8) :
    ∃ front rest body, code = front ++ rest ∧ Decomposes pool offset front body ∧
      Stuck pool (offset + front.length) rest ∧
      Reported pool body (walkCode pool offset code).1 ∧
      ((walkCode pool offset code).2 = none ↔ rest = []) := by
  -- by the length of the code, as each instruction that is passed shortens it
  induction hsize : code.length using Nat.strong_induction_on generalizing offset code with
  | _ size ih =>
    by_cases hstuck : Stuck pool offset code
    · obtain ⟨hcalls, hfault⟩ := walkCode_stuck hstuck
      refine ⟨[], code, [], rfl, .nil pool offset, hstuck, ?_, hfault⟩
      rw [hcalls]
      exact .nil
    · unfold Stuck at hstuck
      push Not at hstuck
      obtain ⟨i, rfl, ⟨tail, rfl⟩, hi⟩ := hstuck
      have hshorter : tail.length < size := by
        rw [← hsize, List.length_append, bytes, List.length_cons]
        omega
      obtain ⟨front, rest, body, rfl, hbody, hstuck, hcalls, hfault⟩ :=
        ih tail.length hshorter i.next tail rfl
      obtain ⟨calls, hreported, hwalk⟩ := walkCode_pass hi (front ++ rest)
      refine ⟨i.bytes ++ front, rest, i :: body, ?_, hbody.cons hi, ?_, ?_, ?_⟩
      · rw [List.append_assoc]
      · rwa [List.length_append, ← Nat.add_assoc]
      · rw [hwalk]
        exact hreported.append hcalls
      · rw [hwalk]
        exact hfault

/-- A series that ends where nothing can be passed goes on longer than any other. -/
theorem Decomposes.prefix_of_stuck {pool : ConstantPool} {offset : Nat} {front rest front' : List UInt8}
    {body body' : List Instruction} (h : Decomposes pool offset front body)
    (hstuck : Stuck pool (offset + front.length) rest) (h' : Decomposes pool offset front' body')
    (hfront : front' <+: front ++ rest) : body' <+: body := by
  induction body' generalizing offset front front' body with
  | nil => exact List.nil_prefix
  | cons i more' ih =>
    obtain ⟨hplace', hnext'⟩ := h'.consecutive
    obtain ⟨hi, hmore'⟩ := List.forall_mem_cons.1 h'.resolved
    have hbytes' : i.bytes ++ more'.flatMap bytes = front' := h'.bytes_eq
    have hprefix : i.bytes <+: front ++ rest :=
      (List.prefix_append _ _).trans (hbytes' ▸ hfront)
    cases body with
    | nil =>
      obtain rfl : front = [] := h.bytes_eq.symm
      exact absurd hi (hstuck i hplace' hprefix)
    | cons j more =>
      obtain ⟨hplace, hnext⟩ := h.consecutive
      have hbytes : j.bytes ++ more.flatMap bytes = front := h.bytes_eq
      obtain rfl : i = j := by
        apply eq_of_bytes_prefix (hplace'.trans hplace.symm) hprefix
        rw [← hbytes, List.append_assoc]
        exact List.prefix_append _ _
      subst hplace
      rw [← hbytes, ← hbytes', List.append_assoc, List.prefix_append_right_inj] at hfront
      rw [← hbytes, List.length_append, ← Nat.add_assoc] at hstuck
      have hrest := ih ⟨hnext, rfl, (List.forall_mem_cons.1 h.resolved).2⟩ hstuck
        ⟨hnext', rfl, hmore'⟩ hfront
      exact List.cons_prefix_cons.2 ⟨rfl, hrest⟩

/-- Code that is a series as a whole is no other series, and nothing is left where a walk ends. -/
theorem Decomposes.eq_of_stuck {pool : ConstantPool} {offset : Nat} {front rest : List UInt8}
    {body body' : List Instruction} (h : Decomposes pool offset front body)
    (hstuck : Stuck pool (offset + front.length) rest)
    (h' : Decomposes pool offset (front ++ rest) body') : body' = body ∧ rest = [] := by
  obtain ⟨more, rfl⟩ := h.prefix_of_stuck hstuck h' List.prefix_rfl
  have hbytes := h.bytes_eq
  rw [List.flatMap_append, h'.bytes_eq, List.append_assoc, List.append_right_eq_self,
    List.append_eq_nil_iff] at hbytes
  refine ⟨?_, hbytes.1⟩
  cases more with
  | nil => rw [List.append_nil]
  | cons i more => exact absurd hbytes.2 (by simp [bytes])

/-- Of instructions one after the other, each starts after the one before. -/
theorem Consecutive.pairwise {offset : Nat} {body : List Instruction} (h : Consecutive offset body) :
    (∀ i ∈ body, offset ≤ i.offset) ∧ body.Pairwise fun i j => i.offset < j.offset := by
  induction body generalizing offset with
  | nil => simp
  | cons i body ih =>
    obtain ⟨rfl, hnext⟩ := h
    obtain ⟨hlater, hpairs⟩ := ih hnext
    have hstep : i.offset < i.next := by simp [next, bytes]
    constructor
    · intro j hj
      rcases List.mem_cons.1 hj with rfl | hj
      · exact Nat.le_refl _
      · exact Nat.le_trans (Nat.le_of_lt hstep) (hlater j hj)
    · exact List.pairwise_cons.2 ⟨fun j hj => Nat.lt_of_lt_of_le hstep (hlater j hj), hpairs⟩

theorem Reported.offsets_eq {pool : ConstantPool} {body : List Instruction} {calls : List Invocation}
    (h : Reported pool body calls) :
    calls.map (·.offset) = (body.filter IsCall).map (·.offset) := by
  unfold Reported at h
  generalize body.filter IsCall = found at h
  induction h with
  | nil => rfl
  | cons hcall _ ih =>
    obtain ⟨m, -, rfl⟩ := hcall
    rw [List.map_cons, List.map_cons, ih]
    rfl

/-- A walk over a body is exact. It ends without a fault if and only if the body is a series of
complete instructions in which every call names a method; then it reports the calls of that series, one
for each and in order. If it ends with a fault, it reports the calls of the longest such series at the
front of the body, which ends where nothing can be passed. -/
theorem walk_is_exact (pool : ConstantPool) (code : List UInt8) :
    ((walkCode pool 0 code).2 = none ↔ ∃ body, Decomposes pool 0 code body) ∧
    (∀ body, Decomposes pool 0 code body → Reported pool body (walkCode pool 0 code).1) ∧
    (walkCode pool 0 code).1.Pairwise (fun c d => c.offset < d.offset) ∧
    ((walkCode pool 0 code).2 ≠ none → ∃ front rest body, code = front ++ rest ∧ rest ≠ [] ∧
      Decomposes pool 0 front body ∧ Reported pool body (walkCode pool 0 code).1 ∧
      Stuck pool front.length rest ∧
      ∀ front' body', front' <+: code → Decomposes pool 0 front' body' → body' <+: body) := by
  obtain ⟨front, rest, body, hcode, hbody, hstuck, hcalls, hfault⟩ := exists_passed pool 0 code
  have hwhole : ∀ body', Decomposes pool 0 code body' → body' = body ∧ rest = [] := by
    intro body' hbody'
    exact hbody.eq_of_stuck hstuck (hcode ▸ hbody')
  refine ⟨⟨?_, ?_⟩, ?_, ?_, ?_⟩
  · intro hnone
    rw [hfault.1 hnone, List.append_nil] at hcode
    exact ⟨body, hcode ▸ hbody⟩
  · rintro ⟨body', hbody'⟩
    exact hfault.2 (hwhole body' hbody').2
  · intro body' hbody'
    rw [(hwhole body' hbody').1]
    exact hcalls
  · have hoffsets := List.pairwise_map.2 (hbody.consecutive.pairwise.2.filter IsCall)
    rw [← hcalls.offsets_eq] at hoffsets
    exact List.pairwise_map.1 hoffsets
  · intro hsome
    have hhere : Stuck pool front.length rest := by rwa [Nat.zero_add] at hstuck
    refine ⟨front, rest, body, hcode, mt hfault.2 hsome, hbody, hcalls, hhere, ?_⟩
    intro front' body' hfront hbody'
    exact hbody.prefix_of_stuck hstuck hbody' (hcode ▸ hfront)

/-- A pool with one method, named through its class and through an interface. -/
def smallPool : ConstantPool := ⟨#[.unused, .utf8 "app/Shop", .classRef 1, .utf8 "run", .utf8 "()V",
  .nameAndType 3 4, .methodRef 2 5, .interfaceMethodRef 2 5]⟩

theorem resolves_smallPool : smallPool.Resolves 6 ⟨"app/Shop", "run", "()V", false⟩ ∧
    smallPool.Resolves 7 ⟨"app/Shop", "run", "()V", true⟩ := by
  have htexts : smallPool.Has 2 (.classRef 1) ∧ smallPool.Has 1 (.utf8 "app/Shop") ∧
      smallPool.Has 5 (.nameAndType 3 4) ∧ smallPool.Has 3 (.utf8 "run") ∧
      smallPool.Has 4 (.utf8 "()V") :=
    ⟨⟨by decide, rfl⟩, ⟨by decide, rfl⟩, ⟨by decide, rfl⟩, ⟨by decide, rfl⟩, ⟨by decide, rfl⟩⟩
  exact ⟨⟨2, 5, 1, 3, 4, ⟨by decide, rfl⟩, htexts⟩, ⟨2, 5, 1, 3, 4, ⟨by decide, rfl⟩, htexts⟩⟩

/-- Two calls, with a widened increment and a switch between them whose operands look like calls. -/
def switchBody : List Instruction := [
  ⟨0, 0xb8, [0, 6], (complete_iff []).2 rfl⟩,
  ⟨3, 0xc4, [0x84, 0, 1, 0, 0xb6], (complete_iff []).2 rfl⟩,
  ⟨9, 0xaa, [0, 0, 0, 0, 0, 0xb7, 0xff, 0xff, 0xff, 0xff, 0, 0, 0, 0, 0xb8, 0, 6, 0, 0xb9, 0, 6, 0],
    @Complete.tableSwitch 9 [0, 0] [0, 0, 0, 0xb7] [0xff, 0xff, 0xff, 0xff] [0, 0, 0, 0]
      [0xb8, 0, 6, 0, 0xb9, 0, 6, 0] (by decide) (by decide) rfl rfl rfl (by decide) (by decide)⟩,
  ⟨32, 0xb9, [0, 7, 1, 0], (complete_iff []).2 rfl⟩,
  ⟨37, 0xb1, [], (complete_iff []).2 rfl⟩]

theorem decomposes_switchBody :
    Decomposes smallPool 0 (switchBody.flatMap bytes) switchBody := by
  refine ⟨⟨rfl, rfl, rfl, rfl, rfl, trivial⟩, rfl, ?_⟩
  simp only [switchBody, List.forall_mem_cons, List.not_mem_nil, false_imp_iff, implies_true, and_true]
  refine ⟨?_, ?_, ?_, ?_, ?_⟩
  · exact fun _ => ⟨_, resolves_smallPool.1⟩
  · exact fun h => absurd h (by decide)
  · exact fun h => absurd h (by decide)
  · exact fun _ => ⟨_, resolves_smallPool.2⟩
  · exact fun h => absurd h (by decide)

/-- The body above is passed with its two calls. With a call behind it whose index is that of a text,
it is still the longest series at the front. -/
theorem walk_is_exact_switchBody :
    Decomposes smallPool 0 (switchBody.flatMap bytes) switchBody ∧
    (walkCode smallPool 0 (switchBody.flatMap bytes)).2 = none ∧
    Reported smallPool switchBody (walkCode smallPool 0 (switchBody.flatMap bytes)).1 ∧
    (walkCode smallPool 0 (switchBody.flatMap bytes ++ [0xb6, 0, 3])).2 ≠ none ∧
    ∃ front rest body, switchBody.flatMap bytes ++ [0xb6, 0, 3] = front ++ rest ∧ rest ≠ [] ∧
      Decomposes smallPool 0 front body ∧ switchBody <+: body ∧
      Reported smallPool body (walkCode smallPool 0 (switchBody.flatMap bytes ++ [0xb6, 0, 3])).1 := by
  have hbody := decomposes_switchBody
  have hfault : (walkCode smallPool 0 (switchBody.flatMap bytes ++ [0xb6, 0, 3])).2 ≠ none := by
    decide +kernel
  obtain ⟨hends, hcalls, -, -⟩ := walk_is_exact smallPool (switchBody.flatMap bytes)
  obtain ⟨-, -, -, hlongest⟩ := walk_is_exact smallPool (switchBody.flatMap bytes ++ [0xb6, 0, 3])
  obtain ⟨front, rest, body, hcode, hrest, hfront, hreported, -, hmax⟩ := hlongest hfault
  exact ⟨hbody, hends.2 ⟨_, hbody⟩, hcalls _ hbody, hfault, front, rest, body, hcode, hrest, hfront,
    hmax _ _ (List.prefix_append _ _) hbody, hreported⟩

end ClassAtlas.ClassFile
