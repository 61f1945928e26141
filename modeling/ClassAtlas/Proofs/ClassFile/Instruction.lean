import ClassAtlas.Proofs.ClassFile.CodeRoundTrip

/-!
Complete instructions, told by their bytes. Most have the length that stands for their opcode in a
table; a widened one is longer where it increments; a switch is aligned from the start of the body and
has as many jumps as its bounds or its count say. The length that a walk computes from the opcode and
whatever follows is that of the complete instruction at the front, and there is no other.
-/
namespace ClassAtlas.ClassFile

/-- How many bytes an instruction has, a row for each first digit of its opcode. Zero stands where the
opcode alone does not tell, or where there is no such instruction. -/
def lengthTable : List (List Nat) := [
  [1, 1, 1, 1, 1, 1, 1, 1, 1, 1, 1, 1, 1, 1, 1, 1],
  [2, 3, 2, 3, 3, 2, 2, 2, 2, 2, 1, 1, 1, 1, 1, 1],
  [1, 1, 1, 1, 1, 1, 1, 1, 1, 1, 1, 1, 1, 1, 1, 1],
  [1, 1, 1, 1, 1, 1, 2, 2, 2, 2, 2, 1, 1, 1, 1, 1],
  [1, 1, 1, 1, 1, 1, 1, 1, 1, 1, 1, 1, 1, 1, 1, 1],
  [1, 1, 1, 1, 1, 1, 1, 1, 1, 1, 1, 1, 1, 1, 1, 1],
  [1, 1, 1, 1, 1, 1, 1, 1, 1, 1, 1, 1, 1, 1, 1, 1],
  [1, 1, 1, 1, 1, 1, 1, 1, 1, 1, 1, 1, 1, 1, 1, 1],
  [1, 1, 1, 1, 3, 1, 1, 1, 1, 1, 1, 1, 1, 1, 1, 1],
  [1, 1, 1, 1, 1, 1, 1, 1, 1, 3, 3, 3, 3, 3, 3, 3],
  [3, 3, 3, 3, 3, 3, 3, 3, 3, 2, 0, 0, 1, 1, 1, 1],
  [1, 1, 3, 3, 3, 3, 3, 3, 3, 5, 5, 3, 2, 3, 1, 1],
  [3, 3, 1, 1, 0, 4, 3, 3, 5, 5, 1, 0, 0, 0, 0, 0],
  [0, 0, 0, 0, 0, 0, 0, 0, 0, 0, 0, 0, 0, 0, 0, 0],
  [0, 0, 0, 0, 0, 0, 0, 0, 0, 0, 0, 0, 0, 0, 0, 0],
  [0, 0, 0, 0, 0, 0, 0, 0, 0, 0, 0, 0, 0, 0, 1, 1]]

def tableLength (opcode : Nat) : Nat := (lengthTable.getD (opcode / 16) []).getD (opcode % 16) 0

/-- An opcode and its operands are one complete instruction at an offset of a body. -/
inductive Complete (offset : Nat) : UInt8 → List UInt8 → Prop where
  | plain {op : UInt8} {operands : List UInt8}
      (hlength : tableLength op.toNat = operands.length + 1) : Complete offset op operands
  | wide {modified : UInt8} {index : List UInt8} (hmodified : modified ≠ 0x84)
      (hindex : index.length = 2) : Complete offset 0xc4 (modified :: index)
  | wideIncrement {operands : List UInt8} (hoperands : operands.length = 4) :
      Complete offset 0xc4 (0x84 :: operands)
  | tableSwitch {padding other low high jumps : List UInt8}
      (hpadding : padding.length < 4) (haligned : 4 ∣ offset + 1 + padding.length)
      (hother : other.length = 4) (hlow : low.length = 4) (hhigh : high.length = 4)
      (hbounds : signedBigEndian low ≤ signedBigEndian high)
      (hjumps : (jumps.length : Int) = 4 * (signedBigEndian high - signedBigEndian low + 1)) :
      Complete offset 0xaa (padding ++ (other ++ (low ++ (high ++ jumps))))
  | lookupSwitch {padding other count pairs : List UInt8}
      (hpadding : padding.length < 4) (haligned : 4 ∣ offset + 1 + padding.length)
      (hother : other.length = 4) (hcount : count.length = 4) (hsign : 0 ≤ signedBigEndian count)
      (hpairs : (pairs.length : Int) = 8 * signedBigEndian count) :
      Complete offset 0xab (padding ++ (other ++ (count ++ pairs)))

/-- The opcodes that a walk tells apart are those of the table and three more. -/
theorem extent_eq {opcode : Nat} (h : opcode < 256) : extent opcode =
    if tableLength opcode ≠ 0 then .fixed (tableLength opcode)
    else if opcode = 0xaa then .tableSwitch
    else if opcode = 0xab then .lookupSwitch
    else if opcode = 0xc4 then .wide
    else .undefined := by
  have hall : ∀ opcode < 256, extent opcode =
      if tableLength opcode ≠ 0 then .fixed (tableLength opcode)
      else if opcode = 0xaa then .tableSwitch
      else if opcode = 0xab then .lookupSwitch
      else if opcode = 0xc4 then .wide
      else .undefined := by decide +kernel
  exact hall opcode h

theorem switchPadding_eq_iff (offset n : Nat) :
    switchPadding offset = n ↔ n < 4 ∧ 4 ∣ offset + 1 + n := by
  unfold switchPadding
  omega

theorem exists_append_of_le {α : Type} (xs : List α) (n : Nat) (h : n ≤ xs.length) :
    ∃ front rest, xs = front ++ rest ∧ front.length = n :=
  ⟨xs.take n, xs.drop n, (List.take_append_drop n xs).symm, List.length_take_of_le h⟩

/-- A complete instruction has the length that is computed from it, whatever follows. -/
theorem Complete.instructionLength_eq {offset : Nat} {op : UInt8} {operands : List UInt8}
    (h : Complete offset op operands) (rest : List UInt8) :
    instructionLength offset op.toNat (operands ++ rest) = .ok (operands.length + 1) := by
  cases h with
  | plain hlength =>
    have hextent := extent_eq op.toNat_lt
    rw [hlength, if_pos (Nat.succ_ne_zero _)] at hextent
    simp only [instructionLength, hextent]
  | wide hmodified hindex =>
    have hextent : extent 0xc4 = .wide := rfl
    simp [instructionLength, hextent, hmodified, hindex]
  | wideIncrement hoperands =>
    have hextent : extent 0xc4 = .wide := rfl
    simp [instructionLength, hextent, hoperands]
  | @tableSwitch padding other low high jumps hpadding haligned hother hlow hhigh hbounds hjumps =>
    have hextent : extent 0xaa = .tableSwitch := rfl
    have hpad := (switchPadding_eq_iff offset padding.length).2 ⟨hpadding, haligned⟩
    have hfirst := signedWord?_middle (padding ++ other) (high ++ (jumps ++ rest)) hlow
    have hsecond := signedWord?_middle (padding ++ (other ++ low)) (jumps ++ rest) hhigh
    simp only [List.length_append, List.append_assoc, hother, hlow, Nat.reduceAdd] at hfirst hsecond
    simp only [UInt8.reduceToNat, instructionLength, hextent, hpad, List.append_assoc, hfirst,
      hsecond, Int.not_lt.2 hbounds, if_false, List.length_append, Except.ok.injEq]
    omega
  | @lookupSwitch padding other count pairs hpadding haligned hother hcount hsign hpairs =>
    have hextent : extent 0xab = .lookupSwitch := rfl
    have hpad := (switchPadding_eq_iff offset padding.length).2 ⟨hpadding, haligned⟩
    have hword := signedWord?_middle (padding ++ other) (pairs ++ rest) hcount
    simp only [List.length_append, List.append_assoc, hother] at hword
    simp only [UInt8.reduceToNat, instructionLength, hextent, hpad, List.append_assoc, hword,
      Int.not_lt.2 hsign, if_false, List.length_append, Except.ok.injEq]
    omega

/-- What a switch starts with: the bytes that align it, and the jump that it makes otherwise. -/
theorem exists_switch_front {offset : Nat} {operands : List UInt8}
    (h : switchPadding offset + 4 ≤ operands.length) : ∃ padding other more,
      operands = padding ++ (other ++ more) ∧ padding.length = switchPadding offset ∧
      other.length = 4 := by
  obtain ⟨padding, more, rfl, hpadding⟩ := exists_append_of_le operands (switchPadding offset) (by omega)
  rw [List.length_append] at h
  obtain ⟨other, more, rfl, hother⟩ := exists_append_of_le more 4 (by omega)
  exact ⟨padding, other, more, rfl, hpadding, hother⟩

/-- A word that is read where four of the operands are left is not read from what follows them. -/
theorem exists_word {bytes front more rest : List UInt8} {n : Nat} {w : Int}
    (hread : signedWord? n bytes = some w) (hbytes : bytes = front ++ (more ++ rest))
    (hn : n = front.length) (h : 4 ≤ more.length) :
    ∃ word tail, more = word ++ tail ∧ word.length = 4 ∧ signedBigEndian word = w := by
  obtain ⟨word, tail, rfl, hword⟩ := exists_append_of_le more 4 h
  have hmiddle := signedWord?_middle front (tail ++ rest) hword
  rw [List.append_assoc, ← List.append_assoc word, ← hbytes, ← hn, hread] at hmiddle
  exact ⟨word, tail, rfl, hword, (Option.some.inj hmiddle).symm⟩

/-- The table switch that a computed length describes: the operands are long enough to hold both
bounds. -/
theorem complete_tableSwitch {offset : Nat} {operands rest : List UInt8}
    (h : instructionLength offset 0xaa (operands ++ rest) = .ok (operands.length + 1)) :
    Complete offset 0xaa operands := by
  have hextent : extent 0xaa = .tableSwitch := rfl
  simp only [instructionLength, hextent] at h
  split at h
  · next low high hlow hhigh =>
    split at h
    · cases h
    · next hbounds =>
      have hlength := Except.ok.inj h
      obtain ⟨padding, other, more, rfl, hpad, hother⟩ := @exists_switch_front offset operands (by omega)
      simp only [List.length_append, hother] at hlength
      have hfront : switchPadding offset + 4 = (padding ++ other).length := by simp [hpad, hother]
      obtain ⟨first, more, rfl, hfirst, rfl⟩ := exists_word hlow
        (by simp : _ = (padding ++ other) ++ (more ++ rest)) hfront (by omega)
      simp only [List.length_append, hfirst] at hlength
      obtain ⟨second, jumps, rfl, hsecond, rfl⟩ := exists_word hhigh
        (by simp : _ = (padding ++ other ++ first) ++ (more ++ rest))
        (by simp [hpad, hother, hfirst]) (by omega)
      simp only [List.length_append, hsecond] at hlength
      obtain ⟨hpadding, haligned⟩ := (switchPadding_eq_iff offset _).1 hpad.symm
      apply Complete.tableSwitch hpadding haligned hother hfirst hsecond
      · omega
      · omega
  · cases h

theorem complete_lookupSwitch {offset : Nat} {operands rest : List UInt8}
    (h : instructionLength offset 0xab (operands ++ rest) = .ok (operands.length + 1)) :
    Complete offset 0xab operands := by
  have hextent : extent 0xab = .lookupSwitch := rfl
  simp only [instructionLength, hextent] at h
  split at h
  · next count hread =>
    split at h
    · cases h
    · next hsign =>
      have hlength := Except.ok.inj h
      obtain ⟨padding, other, more, rfl, hpad, hother⟩ := @exists_switch_front offset operands (by omega)
      simp only [List.length_append, hother] at hlength
      have hfront : switchPadding offset + 4 = (padding ++ other).length := by simp [hpad, hother]
      obtain ⟨count, pairs, rfl, hcount, rfl⟩ := exists_word hread
        (by simp : _ = (padding ++ other) ++ (more ++ rest)) hfront (by omega)
      simp only [List.length_append, hcount] at hlength
      obtain ⟨hpadding, haligned⟩ := (switchPadding_eq_iff offset _).1 hpad.symm
      apply Complete.lookupSwitch hpadding haligned hother hcount
      · omega
      · omega
  · cases h

theorem complete_wide {offset : Nat} {operands rest : List UInt8}
    (h : instructionLength offset 0xc4 (operands ++ rest) = .ok (operands.length + 1)) :
    Complete offset 0xc4 operands := by
  have hextent : extent 0xc4 = .wide := rfl
  simp only [instructionLength, hextent] at h
  cases operands with
  | nil =>
    -- a widened instruction has four bytes at least
    cases rest with
    | nil => cases h
    | cons modified rest =>
      have hlength := Except.ok.inj h
      split at hlength <;> simp at hlength
  | cons modified index =>
    have hlength : (if modified = 0x84 then 6 else 4) = index.length + 1 + 1 := Except.ok.inj h
    by_cases hmodified : modified = 0x84
    · subst hmodified
      rw [if_pos rfl] at hlength
      exact .wideIncrement (by omega)
    · rw [if_neg hmodified] at hlength
      exact .wide hmodified (by omega)

/-- A computed length that takes in exactly the operands is that of a complete instruction. -/
theorem complete_of_instructionLength {offset : Nat} {op : UInt8} {operands rest : List UInt8}
    (h : instructionLength offset op.toNat (operands ++ rest) = .ok (operands.length + 1)) :
    Complete offset op operands := by
  have hextent := extent_eq op.toNat_lt
  by_cases htable : tableLength op.toNat = 0
  · rw [if_neg (not_not.2 htable)] at hextent
    by_cases hswitch : op = 0xaa
    · subst hswitch
      exact complete_tableSwitch h
    by_cases hlookup : op = 0xab
    · subst hlookup
      exact complete_lookupSwitch h
    by_cases hwide : op = 0xc4
    · subst hwide
      exact complete_wide h
    · simp only [← UInt8.toNat_inj, UInt8.reduceToNat] at hswitch hlookup hwide
      rw [if_neg hswitch, if_neg hlookup, if_neg hwide] at hextent
      simp only [instructionLength, hextent] at h
      cases h
  · rw [if_pos htable] at hextent
    simp only [instructionLength, hextent] at h
    exact .plain (Except.ok.inj h)

theorem complete_iff {offset : Nat} {op : UInt8} {operands : List UInt8} (rest : List UInt8) :
    Complete offset op operands ↔
      instructionLength offset op.toNat (operands ++ rest) = .ok (operands.length + 1) :=
  ⟨fun h => h.instructionLength_eq rest, complete_of_instructionLength⟩

/-- An instruction takes in its opcode at least. -/
theorem instructionLength_pos {offset : Nat} {op : UInt8} {operands : List UInt8} {n : Nat}
    (h : instructionLength offset op.toNat operands = .ok n) : 0 < n := by
  have hextent := extent_eq op.toNat_lt
  unfold instructionLength at h
  split at h
  · next length hfixed =>
    obtain rfl := Except.ok.inj h
    rw [hfixed] at hextent
    split_ifs at hextent with htable
    obtain rfl := Extent.fixed.inj hextent
    exact Nat.pos_of_ne_zero htable
  · cases h
  · split at h
    · cases h
    · obtain rfl := Except.ok.inj h
      split <;> decide
  · dsimp only at h
    split at h
    · split at h
      · cases h
      · obtain rfl := Except.ok.inj h
        omega
    · cases h
  · dsimp only at h
    split at h
    · split at h
      · cases h
      · obtain rfl := Except.ok.inj h
        omega
    · cases h

/-- Of two complete instructions at the front of the same bytes, neither goes on longer. -/
theorem Complete.operands_unique {offset : Nat} {op : UInt8} {operands operands' rest rest' : List UInt8}
    (h : Complete offset op operands) (h' : Complete offset op operands')
    (heq : operands ++ rest = operands' ++ rest') : operands = operands' := by
  have hlength := (h.instructionLength_eq rest).symm.trans
    ((congrArg (instructionLength offset op.toNat) heq).trans (h'.instructionLength_eq rest'))
  exact (List.append_inj heq (by simpa using hlength)).1

/-- A call is three bytes long at least. -/
theorem three_le_of_isInvoke {offset : Nat} {op : UInt8} {operands : List UInt8} {n : Nat}
    (h : instructionLength offset op.toNat operands = .ok n) (hcall : isInvoke op.toNat = true) :
    3 ≤ n := by
  simp only [isInvoke, Bool.and_eq_true, decide_eq_true_eq] at hcall
  simp only [instructionLength, extent_call hcall.1 hcall.2, Except.ok.injEq] at h
  split at h <;> omega

/-- A call is followed by the two bytes that name its method. -/
theorem Complete.two_le_of_call {offset : Nat} {op : UInt8} {operands : List UInt8}
    (h : Complete offset op operands) (hcall : isInvoke op.toNat = true) : 2 ≤ operands.length := by
  have := three_le_of_isInvoke (h.instructionLength_eq []) hcall
  omega

namespace ConstantPool

/-- A slot of a pool holds a constant. The first slot holds none. -/
def Has (pool : ConstantPool) (index : Nat) (c : Constant) : Prop :=
  index ≠ 0 ∧ pool.slots[index]? = some c

/-- An index leads to a method: it is that of a reference to a class and to a name with its type, and
these lead to the three texts. -/
def Resolves (pool : ConstantPool) (index : Nat) (m : MethodRef) : Prop :=
  ∃ owner nameAndType className name descriptor,
    pool.Has index (if m.ofInterface then .interfaceMethodRef owner nameAndType
      else .methodRef owner nameAndType) ∧
    pool.Has owner (.classRef className) ∧ pool.Has className (.utf8 m.owner) ∧
    pool.Has nameAndType (.nameAndType name descriptor) ∧ pool.Has name (.utf8 m.name) ∧
    pool.Has descriptor (.utf8 m.descriptor)

theorem constant_eq_ok {pool : ConstantPool} {index : Nat} {c : Constant} :
    pool.constant index = .ok c ↔ pool.Has index c := by
  unfold constant Has
  by_cases hzero : index = 0
  · simp [hzero]
  · rw [if_neg hzero]
    cases pool.slots[index]? <;> simp [hzero]

theorem utf8_eq_ok {pool : ConstantPool} {index : Nat} {s : String} :
    pool.utf8 index = .ok s ↔ pool.Has index (.utf8 s) := by
  unfold utf8
  rw [← constant_eq_ok]
  cases pool.constant index with
  | error e => simp [Except.bind]
  | ok c => cases c <;> simp [Except.bind]

theorem className_eq_ok {pool : ConstantPool} {index : Nat} {s : String} :
    pool.className index = .ok s ↔ ∃ n, pool.Has index (.classRef n) ∧ pool.Has n (.utf8 s) := by
  unfold className
  simp only [← @constant_eq_ok pool index]
  cases pool.constant index with
  | error e => simp [Except.bind]
  | ok c => cases c <;> simp [Except.bind, utf8_eq_ok]

theorem nameAndType_eq_ok {pool : ConstantPool} {index : Nat} {n d : Nat} :
    pool.nameAndType index = .ok (n, d) ↔ pool.Has index (.nameAndType n d) := by
  unfold nameAndType
  rw [← constant_eq_ok]
  cases pool.constant index with
  | error e => simp [Except.bind]
  | ok c => cases c <;> simp [Except.bind]

/-- A reference of either kind is followed to the same end; only the mark of its kind differs. -/
theorem resolveMethod_eq_ok_iff {pool : ConstantPool} {owner nameAndType : Nat} {ofInterface : Bool}
    {m : MethodRef} : pool.resolveMethod owner nameAndType ofInterface = .ok m ↔
      m.ofInterface = ofInterface ∧ ∃ className name descriptor,
        pool.Has owner (.classRef className) ∧ pool.Has className (.utf8 m.owner) ∧
        pool.Has nameAndType (.nameAndType name descriptor) ∧ pool.Has name (.utf8 m.name) ∧
        pool.Has descriptor (.utf8 m.descriptor) := by
  simp only [resolveMethod_eq_ok, className_eq_ok, nameAndType_eq_ok, utf8_eq_ok]
  constructor
  · rintro ⟨_, n, d, _, _, ⟨className, ho, hc⟩, ht, hn, hd, rfl⟩
    exact ⟨rfl, className, n, d, ho, hc, ht, hn, hd⟩
  · rintro ⟨rfl, className, n, d, ho, hc, ht, hn, hd⟩
    exact ⟨m.owner, n, d, m.name, m.descriptor, ⟨className, ho, hc⟩, ht, hn, hd, rfl⟩

theorem methodRef_eq_ok {pool : ConstantPool} {index : Nat} {m : MethodRef} :
    pool.methodRef index = .ok m ↔ pool.Resolves index m := by
  unfold methodRef Resolves
  simp only [← @constant_eq_ok pool index]
  cases pool.constant index with
  | error e => simp [Except.bind]
  | ok c =>
    cases c with
    | methodRef owner nameAndType =>
      simp only [Except.bind, resolveMethod_eq_ok_iff]
      cases m.ofInterface <;> simp
    | interfaceMethodRef owner nameAndType =>
      simp only [Except.bind, resolveMethod_eq_ok_iff]
      cases m.ofInterface <;> simp
    | _ => cases m.ofInterface <;> simp [Except.bind]

end ConstantPool
end ClassAtlas.ClassFile
