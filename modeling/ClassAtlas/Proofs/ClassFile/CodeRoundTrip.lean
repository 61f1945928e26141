import ClassAtlas.Proofs.ClassFile.AnnotationRoundTrip

/-!
The calls of a body come back from its instructions. Each instruction is stepped over with the bytes
it says it has, and the switch at the end is stepped over wherever it has to be aligned.
-/
namespace ClassAtlas.ClassFile

theorem hasAtLeast_iff (n : Nat) (xs : List α) : hasAtLeast n xs = true ↔ n ≤ xs.length := by
  induction n generalizing xs with
  | zero => simp [hasAtLeast]
  | succ n ih => cases xs <;> simp [hasAtLeast, ih]

theorem walkFrom_skip (pool : ConstantPool) (offset : Nat) (operands rest : List UInt8) :
    walkFrom pool offset operands.length (operands ++ rest) =
      walkFrom pool (offset + operands.length) 0 rest := by
  induction operands generalizing offset with
  | nil => rfl
  | cons b operands ih =>
    rw [List.length_cons, List.cons_append, walkFrom, ih]
    congr 1
    omega

/-- One step of the walk over a body. -/
theorem walkCode_step {pool : ConstantPool} {offset : Nat} {op : UInt8} (operands : List UInt8)
    {rest : List UInt8} {call : Option Invocation}
    (hlength : instructionLength offset op.toNat (operands ++ rest) = .ok (operands.length + 1))
    (hcall : invocation? pool offset op.toNat (operands ++ rest) = .ok call) :
    walkCode pool offset (op :: (operands ++ rest)) =
      (call.toList ++ (walkCode pool (offset + (operands.length + 1)) rest).1,
        (walkCode pool (offset + (operands.length + 1)) rest).2) := by
  have hroom : hasAtLeast (operands.length + 1) (op :: (operands ++ rest)) = true := by
    rw [hasAtLeast_iff]
    simp
  rw [walkCode, walkFrom]
  simp only [hlength, hroom, if_true, hcall, Nat.add_sub_cancel, walkFrom_skip, walkCode,
    Nat.add_comm, Nat.add_left_comm]

/-- An instruction that calls nothing is passed over. -/
theorem walkCode_skip {pool : ConstantPool} {offset : Nat} {op : UInt8} (operands : List UInt8)
    {rest : List UInt8}
    (hlength : instructionLength offset op.toNat (operands ++ rest) = .ok (operands.length + 1))
    (hcall : isInvoke op.toNat = false) :
    walkCode pool offset (op :: (operands ++ rest)) =
      walkCode pool (offset + (operands.length + 1)) rest := by
  have hnone : invocation? pool offset op.toNat (operands ++ rest) = .ok none := by
    simp [invocation?, hcall]
  simpa using walkCode_step operands hlength hnone

/-- The bytes of a call: as many as it says, and reported as that call wherever they stand. -/
structure WalksCall (pool : ConstantPool) (c : CallSpec) (bytes : List UInt8) : Prop where
  length_eq : bytes.length = c.size
  walk : ∀ offset rest, walkCode pool offset (bytes ++ rest) =
    (c.invocation (offset + 1) :: (walkCode pool (offset + c.size) rest).1,
      (walkCode pool (offset + c.size) rest).2)

theorem extent_call {opcode : Nat} (hge : 0xb6 ≤ opcode) (hle : opcode ≤ 0xb9) :
    extent opcode = .fixed (if opcode = 0xb9 then 5 else 3) := by
  interval_cases opcode <;> rfl

theorem invocation?_call {pool : ConstantPool} {c : CallSpec} (h : c.Encodable) {i : Nat}
    (hi : i < 65536) (hmethod : pool.methodRef i =
      .ok ⟨slashed c.owner, c.name, c.descriptor, c.opcode = 0xb9⟩)
    (offset : Nat) (operands : List UInt8) :
    invocation? pool offset c.opcode (word2 i ++ operands) = .ok (some (c.invocation offset)) := by
  have hinvoke : isInvoke c.opcode = true := by
    simp [isInvoke, h.opcode_ge, h.opcode_le]
  have htake : (word2 i ++ operands).take 2 = word2 i := by
    rw [List.take_append_of_le_length (by simp), List.take_of_length_le (by simp)]
  have hindex : bigEndian (word2 i) = i := by
    rw [word2, bigEndian_toBigEndian]
    exact Nat.mod_eq_of_lt hi
  rw [invocation?, if_pos hinvoke, htake, hindex, hmethod]
  change Except.ok (some (Invocation.mk _ (dotted (slashed c.owner)) _ _ _ _)) = _
  rw [dotted_slashed c.owner h.owner_dotted]
  rfl

/-- The receiver is loaded, then the method is called with whatever else the opcode has. -/
theorem walksCall {pool : ConstantPool} {c : CallSpec} (h : c.Encodable) {op : UInt8} {i : Nat}
    (tail : List UInt8) (hop : op.toNat = c.opcode) (hi : i < 65536)
    (hmethod : pool.methodRef i = .ok ⟨slashed c.owner, c.name, c.descriptor, c.opcode = 0xb9⟩)
    (htail : tail.length + 4 = c.size) :
    WalksCall pool c (0x2a :: op :: (word2 i ++ tail)) := by
  have hextent := extent_call h.opcode_ge h.opcode_le
  refine ⟨by simp; omega, ?_⟩
  intro offset rest
  have hload : walkCode pool offset (0x2a :: op :: (word2 i ++ tail) ++ rest) =
      walkCode pool (offset + 1) (op :: (word2 i ++ tail) ++ rest) := walkCode_skip [] rfl rfl
  have hlength : instructionLength (offset + 1) op.toNat (word2 i ++ tail ++ rest) =
      .ok ((word2 i ++ tail).length + 1) := by
    rw [CallSpec.size] at htail
    simp only [instructionLength, hop, hextent, List.length_append, length_word2, Except.ok.injEq]
    split at htail <;> simp only [*, if_true, if_false] <;> omega
  have hcall : invocation? pool (offset + 1) op.toNat (word2 i ++ tail ++ rest) =
      .ok (some (c.invocation (offset + 1))) := by
    rw [hop, List.append_assoc]
    exact invocation?_call h hi hmethod _ _
  have hsize : offset + 1 + ((word2 i ++ tail).length + 1) = offset + c.size := by
    simp
    omega
  rw [hload, List.cons_append, walkCode_step _ hlength hcall, hsize]
  rfl

theorem builds_call {pre : ConstantPool → Prop} (c : CallSpec) (h : c.Encodable) :
    Builds pre (encodeCall c) fun pool bytes => WalksCall pool c bytes := by
  unfold encodeCall
  split
  · next hop =>
    refine (Builds.methodRef h.callable true).bind fun i => Builds.pure ?_
    rintro pool ⟨-, hi, hmethod⟩
    exact walksCall h [1, 0] hop.symm hi (by simpa [hop] using hmethod) (by simp [CallSpec.size, hop])
  · next hop =>
    have hle := h.opcode_le
    refine (Builds.methodRef h.callable false).bind fun i => Builds.pure ?_
    rintro pool ⟨-, hi, hmethod⟩
    have hbyte : (UInt8.ofNat c.opcode).toNat = c.opcode := by
      rw [UInt8.toNat_ofNat']
      omega
    have hbytes := walksCall h [] hbyte hi (by simpa [hop] using hmethod)
      (by simp [CallSpec.size, hop])
    rwa [List.append_nil] at hbytes

theorem walks_calls {pool : ConstantPool} {calls : List CallSpec} {blocks : List (List UInt8)}
    (h : List.Forall₂ (WalksCall pool) calls blocks) (offset : Nat) (rest : List UInt8) :
    walkCode pool offset (blocks.flatten ++ rest) =
      (invocationsFrom offset calls ++
          (walkCode pool (offset + (calls.map (·.size)).sum) rest).1,
        (walkCode pool (offset + (calls.map (·.size)).sum) rest).2) := by
  induction h generalizing offset with
  | nil => simp [invocationsFrom]
  | cons hfirst _ ih =>
    rw [List.flatten_cons, List.append_assoc, hfirst.walk, ih, List.map_cons, List.sum_cons,
      Nat.add_assoc, invocationsFrom, List.cons_append]

/-- Four bytes in the middle of others are read as a word at their place. -/
theorem signedWord?_middle (front : List UInt8) {word : List UInt8} (rest : List UInt8)
    (h : word.length = 4) :
    signedWord? front.length (front ++ word ++ rest) = some (signedBigEndian word) := by
  have htake := takeExactly?_append_eq word rest
  rw [h] at htake
  rw [signedWord?, List.append_assoc, List.drop_left, htake]
  rfl

theorem signedWord?_append (front rest : List UInt8) (n : Nat) :
    signedWord? front.length (front ++ word4 n ++ rest) = some (signedBigEndian (word4 n)) :=
  signedWord?_middle front rest (length_word4 n)

/-- The end of a body is stepped over: a constant, a switch with one case and a return. -/
theorem walkCode_bodyEnd (pool : ConstantPool) (offset : Nat) :
    walkCode pool offset (bodyEnd offset) = ([], none) := by
  obtain ⟨padding, hpadding⟩ : ∃ n, n = switchPadding (offset + 1) := ⟨_, rfl⟩
  obtain ⟨jump, hjump⟩ : ∃ n, n = 1 + padding + 16 := ⟨_, rfl⟩
  let front : List UInt8 := List.replicate padding 0 ++ word4 jump
  let operands : List UInt8 := front ++ word4 0 ++ word4 0 ++ word4 jump
  have hbytes : bodyEnd offset = 0x03 :: 0xaa :: (operands ++ [0xb1]) := by
    simp only [bodyEnd, operands, front, hjump, hpadding, switchPadding]
    simp
  have hzero : signedBigEndian (word4 0) = 0 := by decide
  have hfront : front.length = padding + 4 := by simp [front]
  have hlow : signedWord? (padding + 4) (operands ++ [0xb1]) = some 0 := by
    have hword := signedWord?_append front (word4 0 ++ word4 jump ++ [0xb1]) 0
    rw [hfront, hzero] at hword
    simpa only [operands, List.append_assoc] using hword
  have hhigh : signedWord? (padding + 8) (operands ++ [0xb1]) = some 0 := by
    have hword := signedWord?_append (front ++ word4 0) (word4 jump ++ [0xb1]) 0
    rw [List.length_append, hfront, length_word4, hzero] at hword
    simpa only [operands, List.append_assoc] using hword
  have hlength : instructionLength (offset + 1) 0xaa (operands ++ [0xb1]) =
      .ok (operands.length + 1) := by
    have hextent : extent 0xaa = .tableSwitch := rfl
    simp only [instructionLength, hextent, ← hpadding, hlow, hhigh]
    simp [operands, front]
    omega
  calc walkCode pool offset (bodyEnd offset)
      = walkCode pool (offset + 1) (0xaa :: (operands ++ [0xb1])) := by
        rw [hbytes]
        exact walkCode_skip [] rfl rfl
    _ = walkCode pool (offset + 1 + (operands.length + 1)) [0xb1] :=
        walkCode_skip operands hlength rfl
    _ = walkCode pool (offset + 1 + (operands.length + 1) + 1) [] := walkCode_skip [] rfl rfl
    _ = ([], none) := by rw [walkCode, walkFrom]

/-- What a body is written to: instructions that report its calls and nothing else. -/
theorem builds_body {pre : ConstantPool → Prop} {calls : List CallSpec}
    (h : ∀ c ∈ calls, c.Encodable) (hsize : 12 + codeSize calls < 2 ^ 32) :
    Builds pre (encodeBody calls) fun pool bytes => ∃ block code,
      Reads (readAttribute pool) bytes ("Code", block) ∧ readCodeAttribute block = .ok code ∧
        walkCode pool 0 code = (invocationsFrom 0 calls, none) := by
  refine (Builds.encodeAll fun c hc pre => builds_call c (h c hc)).bind fun content => ?_
  have hlength : ∀ {pool : ConstantPool} {blocks : List (List UInt8)},
      List.Forall₂ (WalksCall pool) calls blocks →
      blocks.flatten.length = (calls.map (·.size)).sum := fun hblocks =>
    length_flatten_blocks (hblocks.imp fun _ _ hc => hc.length_eq)
  refine (builds_attribute "Code" ?_).conseq ?_
  · rintro pool ⟨-, blocks, hblocks, rfl⟩
    rw [codeSize] at hsize
    simp only [List.length_append, length_word2, length_word4, hlength hblocks]
    omega
  · rintro pool bytes ⟨-, blocks, hblocks, rfl⟩ hread
    refine ⟨_, blocks.flatten ++ bodyEnd blocks.flatten.length, hread, ?_, ?_⟩
    · have hcode : (blocks.flatten ++ bodyEnd blocks.flatten.length).length < 2 ^ 32 := by
        rw [codeSize] at hsize
        rw [List.length_append, hlength hblocks]
        omega
      have hall : Reads (do
          let _ ← Read.u2
          let _ ← Read.u2
          let length ← Read.u4
          let code ← Read.bytes length
          Read.settled
          return code) _ _ :=
        (Reads.word2 4 (by omega)).bind ((Reads.word2 4 (by omega)).bind
          ((Reads.word4 _ hcode).bind ((Reads.bytes _).checked id)))
      have hblock := readBlock_of_reads hall (word2 0 ++ word2 0)
      simp only [List.append_assoc] at hblock ⊢
      exact hblock
    · have hwalk := walks_calls hblocks 0 (bodyEnd blocks.flatten.length)
      rw [hlength hblocks, Nat.zero_add, walkCode_bodyEnd, List.append_nil] at hwalk
      rw [hlength hblocks, hwalk]

end ClassAtlas.ClassFile
