import ClassAtlas.Proofs.ClassFile.Agreement
import ClassAtlas.Proofs.ClassFile.Consumption

/-!
Decoding in place never leaves the bytes. Part by part it agrees with decoding from the front, so every
index, every slice and every slot it asks for is there, and every loop ends.
-/
namespace ClassAtlas.ClassFile.InPlace

variable {bound : Nat}

/-! Texts and constants -/

/-- Each form takes at least one byte, so there are steps enough for all that is left. -/
theorem unitsAt_eq (bytes : List UInt8) (fuel i : Nat) (h : bytes.length ≤ i + fuel) :
    unitsAt bytes fuel i = some (ModifiedUtf8.units (bytes.drop i)) := by
  induction fuel generalizing i with
  | zero =>
    rw [unitsAt, if_neg (by omega), List.drop_eq_nil_of_le (by omega), ModifiedUtf8.units]
  | succ fuel ih =>
    have hroom : ∀ k, i + k < bytes.length ↔ k < (bytes.drop i).length := by
      intro k
      rw [List.length_drop]
      omega
    have hget : ∀ k, bytes[i + k]? = (bytes.drop i)[k]? := fun k => List.getElem?_drop.symm
    have hlater : ∀ k, unitsAt bytes fuel (i + (k + 1)) =
        some (ModifiedUtf8.units ((bytes.drop i).drop (k + 1))) := by
      intro k
      rw [ih _ (by omega), List.drop_drop]
    have hroom₀ := hroom 0
    have hget₀ := hget 0
    rw [Nat.add_zero] at hroom₀ hget₀
    rw [unitsAt]
    simp only [hroom₀, hroom, hget₀, hget, hlater]
    generalize bytes.drop i = left
    rcases left with _ | ⟨a, _ | ⟨b, _ | ⟨c, last⟩⟩⟩
    · simp [ModifiedUtf8.units]
    · by_cases ha : a < 0x80 <;> simp [ModifiedUtf8.units, ha]
    · by_cases ha : a < 0x80 <;> by_cases ha' : a &&& 0xe0 = 0xc0 <;>
        simp [ModifiedUtf8.units, ha, ha']
    · by_cases ha : a < 0x80 <;> by_cases ha' : a &&& 0xe0 = 0xc0 <;>
        by_cases ha'' : a &&& 0xf0 = 0xe0 <;> simp [ModifiedUtf8.units, ha, ha', ha'']

theorem text_eq (bytes : List UInt8) : text bytes = some (.ok (ModifiedUtf8.decode bytes)) := by
  unfold text ModifiedUtf8.decode
  split
  · rfl
  · rw [unitsAt_eq bytes _ 0 (by omega)]
    rfl

theorem agrees_taggedConstant (index tag : Nat) :
    Agrees bound (readTaggedConstant index tag) (Constant.readTagged index tag) := by
  have h1 : ∀ g : Nat → Constant,
      Agrees bound (do return g (← Run.u2)) (do return g (← Read.u2)) :=
    fun g => Agrees.u2.map g
  have h2 : ∀ g : Nat → Nat → Constant, Agrees bound (do return g (← Run.u2) (← Run.u2))
      (do return g (← Read.u2) (← Read.u2)) :=
    fun g => Agrees.u2.bind fun _ => Agrees.u2.map _
  unfold readTaggedConstant
  split
  · exact Agrees.u2.bind fun n => (Agrees.slice n).bind fun b => (Agrees.lift (text_eq b)).map _
  · exact (Agrees.word 4).map _
  · exact (Agrees.number 4).map _
  · exact (Agrees.word 8).map _
  · exact (Agrees.number 8).map _
  case h_12 => exact Agrees.u1.bind fun _ => h1 _
  case h_18 =>
    unfold Constant.readTagged
    split
    case h_18 => exact Agrees.settled.bind fun _ => .fail _
    all_goals contradiction
  all_goals first | exact h1 _ | exact h2 _

theorem agrees_constant (index : Nat) : Agrees bound (readConstant index) (Constant.read index) :=
  Agrees.u1.bind fun _ => (agrees_taggedConstant _ _).bind fun _ => Agrees.settled.bind fun _ => .pure _

theorem fillSlots_of_le {fuel index : Nat} {slots : Array Constant} (h : slots.size ≤ index) :
    fillSlots fuel index slots = pure slots := by
  cases fuel with
  | zero =>
    rw [fillSlots, if_neg (by omega)]
    rfl
  | succ fuel => rw [fillSlots, if_neg (by omega)]

theorem setSlot?_replicate (front : List Constant) (left : Nat) (c : Constant) :
    setSlot? (front ++ List.replicate (left + 1) Constant.unused).toArray front.length c =
      some (front ++ c :: List.replicate left Constant.unused).toArray := by
  simp [setSlot?, List.replicate_succ]

/-- One step fills the first slot that is still unused. -/
theorem agrees_slot (front : List Constant) (left fuel : Nat) {later : Constant → Read (Array Constant)}
    (h : ∀ c, Agrees bound
      (fillSlots fuel (if c.isWide then front.length + 2 else front.length + 1)
        (front ++ c :: List.replicate left Constant.unused).toArray) (later c)) :
    Agrees bound
      (fillSlots (fuel + 1) front.length (front ++ List.replicate (left + 1) Constant.unused).toArray)
      (Constant.read front.length >>= later) := by
  rw [fillSlots, if_pos (by simp)]
  refine (agrees_constant front.length).bind fun c => ?_
  rw [setSlot?_replicate]
  exact (h c)

/-- The slots behind those that are filled are still unused. -/
theorem agrees_slots (front : List Constant) (left fuel : Nat) (h : left ≤ fuel) :
    Agrees bound (fillSlots fuel front.length (front ++ List.replicate left Constant.unused).toArray)
      (do return (front ++ (← ConstantPool.readSlots front.length left)).toArray) := by
  induction left using Nat.strongRecOn generalizing front fuel with
  | ind left ih =>
    rcases left with _ | _ | left
    · rw [fillSlots_of_le (by simp)]
      simp only [ConstantPool.readSlots, pure_bind, List.replicate_zero]
      exact .pure _
    · obtain ⟨fuel, rfl⟩ : ∃ k, fuel = k + 1 := ⟨fuel - 1, by omega⟩
      simp only [ConstantPool.readSlots, bind_assoc, pure_bind]
      refine agrees_slot front 0 fuel fun c => ?_
      rw [fillSlots_of_le (by split <;> simp)]
      exact .pure _
    · obtain ⟨fuel, rfl⟩ : ∃ k, fuel = k + 1 := ⟨fuel - 1, by omega⟩
      simp only [ConstantPool.readSlots, bind_assoc]
      refine agrees_slot front (left + 1) fuel fun c => ?_
      cases c.isWide with
      | true =>
        have := ih left (by omega) (front ++ [c, .unused]) fuel (by omega)
        simpa [List.replicate_succ] using this
      | false =>
        have := ih (left + 1) (by omega) (front ++ [c]) fuel (by omega)
        simpa using this

theorem agrees_pool : Agrees bound readPool ConstantPool.read := by
  refine Agrees.u2.bind fun count => ?_
  cases count with
  | zero => 
    rw [fillSlots_of_le (by simp)]
    exact Agrees.settled.bind fun _ => .pure _
  | succ left =>
    have hslots : Agrees bound _ _ := agrees_slots [.unused] left (left + 1) (Nat.le_succ left)
    have := hslots.bind (f := fun slots => do Run.settled; return ConstantPool.mk slots)
      fun _ => Agrees.settled.bind fun _ => .pure _
    rw [← List.toArray_replicate, List.replicate_succ]
    simpa using this

/-! Looking into the pool -/

theorem must_some_bind (a : α) (f : α → Partial β) : must (some a) >>= f = f a := rfl

theorem Partial.bind_eq {x : Partial α} {y : Except Fault α} {f : α → Partial β}
    {g : α → Except Fault β} (h : x = some y) (hf : ∀ a, f a = some (g a)) :
    x >>= f = some (y >>= g) := by
  subst h
  cases y with
  | error e => rfl
  | ok a => exact hf a

theorem look_eq (pool : ConstantPool) (index : Nat) {view : Constant → Partial α}
    {seen : Constant → Except Fault α} (h : ∀ c, view c = some (seen c)) :
    look pool index view = some ((pool.constant index).bind seen) := by
  unfold look ConstantPool.constant
  by_cases hzero : index = 0
  · simp [hzero]; rfl
  · by_cases hsize : pool.slots.size ≤ index
    · simp [hzero, hsize]; rfl
    · have hin : index < pool.slots.size := by omega
      simp only [hzero, hsize, or_self, if_false, Array.getElem?_eq_getElem hin]
      exact Partial.bind_eq rfl h

theorem utf8_eq (pool : ConstantPool) (index : Nat) : utf8 pool index = some (pool.utf8 index) :=
  look_eq pool index fun c => by cases c <;> rfl

theorem integer_eq (pool : ConstantPool) (index : Nat) :
    integer pool index = some (pool.integer index) :=
  look_eq pool index fun c => by cases c <;> rfl

theorem float_eq (pool : ConstantPool) (index : Nat) : float pool index = some (pool.float index) :=
  look_eq pool index fun c => by cases c <;> rfl

theorem long_eq (pool : ConstantPool) (index : Nat) : long pool index = some (pool.long index) :=
  look_eq pool index fun c => by cases c <;> rfl

theorem double_eq (pool : ConstantPool) (index : Nat) :
    double pool index = some (pool.double index) :=
  look_eq pool index fun c => by cases c <;> rfl

theorem className_eq (pool : ConstantPool) (index : Nat) :
    className pool index = some (pool.className index) :=
  look_eq pool index fun c => by cases c <;> first | rfl | exact utf8_eq pool _

theorem nameAndType_eq (pool : ConstantPool) (index : Nat) :
    nameAndType pool index = some (pool.nameAndType index) :=
  look_eq pool index fun c => by cases c <;> rfl

theorem resolveMethod_eq (pool : ConstantPool) (owner nameType : Nat) (ofInterface : Bool) :
    resolveMethod pool owner nameType ofInterface =
      some (pool.resolveMethod owner nameType ofInterface) :=
  Partial.bind_eq (className_eq pool owner) fun _ =>
    Partial.bind_eq (nameAndType_eq pool nameType) fun _ =>
    Partial.bind_eq (utf8_eq pool _) fun _ => Partial.bind_eq (utf8_eq pool _) fun _ => rfl

theorem methodRef_eq (pool : ConstantPool) (index : Nat) :
    methodRef pool index = some (pool.methodRef index) :=
  look_eq pool index fun c => by cases c <;> first | rfl | exact resolveMethod_eq pool _ _ _

/-! Annotations -/

/-- Names and values apart say the same as one list of them. -/
structure Table.Lists (t : Table) (values : List (String × ElementValue)) : Prop where
  names_eq : t.names = values.map (·.1)
  value?_eq : ∀ name, t.value? name = values.lookup name
  nodup : t.names.Nodup

theorem Table.lists_empty : empty.Lists [] := ⟨rfl, fun _ => rfl, List.nodup_nil⟩

theorem Table.Lists.put {t : Table} {values : List (String × ElementValue)} (h : t.Lists values)
    (name : String) (value : ElementValue) : (t.put name value).Lists (putValue values name value) := by
  have hknown : (t.value? name).isSome = true ↔ name ∈ t.names := by
    rw [h.value?_eq, h.names_eq, List.lookup_isSome_iff]
    simp
  refine ⟨?_, fun n => ?_, ?_⟩
  · simp only [Table.put, hknown, names_putValue, h.names_eq]
  · simp only [Table.put, h.value?_eq, lookup_putValue]
  · simp only [Table.put, hknown]
    split
    · exact h.nodup
    · next hnew => exact h.nodup.append (List.nodup_singleton name) (by simpa using hnew)

theorem Table.Lists.foldl {t : Table} {values : List (String × ElementValue)} (h : t.Lists values)
    (pairs : List (String × ElementValue)) :
    (pairs.foldl (fun t p => t.put p.1 p.2) t).Lists
      (pairs.foldl (fun values p => putValue values p.1 p.2) values) := by
  induction pairs generalizing t values with
  | nil => exact h
  | cons pair pairs ih => exact ih (h.put pair.1 pair.2)

/-- However they come, names and values stay in step. -/
theorem Table.lists_filled (pairs : List (String × ElementValue)) : (filled pairs).Lists
    (pairs.foldl (fun values p => putValue values p.1 p.2) []) :=
  lists_empty.foldl pairs

/-- The names of a table are distinct and are those that have a value. -/
structure Table.Sound (t : Table) : Prop where
  nodup : t.names.Nodup
  mem_names : ∀ name, name ∈ t.names ↔ (t.value? name).isSome = true

theorem Table.Lists.sound {t : Table} {values : List (String × ElementValue)} (h : t.Lists values) :
    t.Sound := by
  refine ⟨h.nodup, fun name => ?_⟩
  rw [h.value?_eq, h.names_eq, List.lookup_isSome_iff]
  simp

/-- Names that are distinct are put in one after the other. -/
theorem foldl_putValue {values : List (String × ElementValue)} (h : (values.map (·.1)).Nodup) :
    values.foldl (fun values p => putValue values p.1 p.2) [] = values := by
  induction values using List.reverseRecOn with
  | nil => rfl
  | append_singleton values p ih =>
    rw [List.map_append, List.nodup_append] at h
    obtain ⟨hvalues, -, hnew⟩ := h
    have hlast : ∀ more : List (String × ElementValue), (∀ q ∈ more, q.1 ≠ p.1) →
        putValue more p.1 p.2 = more ++ [p] := by
      intro more hmore
      induction more with
      | nil => rfl
      | cons q more ih =>
        obtain ⟨hq, hmore⟩ := List.forall_mem_cons.1 hmore
        rw [putValue, if_neg hq, ih hmore]
        rfl
    rw [List.foldl_append, ih hvalues]
    exact hlast values fun q hq => hnew q.1 (List.mem_map_of_mem hq) p.1 (by simp)

theorem Table.Lists.pairs?_eq {t : Table} {values : List (String × ElementValue)}
    (h : t.Lists values) : t.pairs? = some values := by
  have hall : ∀ p ∈ values, (t.value? p.1).map (p.1, ·) = some p := by
    intro p hp
    obtain ⟨front, rest, rfl⟩ := List.append_of_mem hp
    have hn := h.nodup
    rw [h.names_eq, List.map_append, List.map_cons] at hn
    have hfront : ∀ q ∈ front, p.1 ≠ q.1 := fun q hq heq =>
      (List.nodup_append.1 hn).2.2 q.1 (List.mem_map_of_mem hq) p.1 (.head _) heq.symm
    have hlookup : (front ++ p :: rest).lookup p.1 = some p.2 :=
      List.lookup_eq_some_iff.2 ⟨front, rest, rfl, fun q hq => by simpa using hfront q hq⟩
    rw [h.value?_eq, hlookup]
    rfl
  rw [Table.pairs?, h.names_eq]
  clear h
  induction values with
  | nil => rfl
  | cons p values ih =>
    rw [List.forall_mem_cons] at hall
    rw [List.map_cons, List.mapM_cons, hall.1, ih hall.2]
    rfl

/-- An annotation whose names are distinct is listed in a table. -/
theorem exists_filled {a : AnnotationUse} (h : a.names.Nodup) : ∃ pairs,
    (Table.filled pairs).pairs? = some a.values ∧ (Table.filled pairs).names = a.names ∧
      ∀ name, (Table.filled pairs).value? name = a.value? name := by
  have hlists := Table.lists_filled a.values
  rw [foldl_putValue h] at hlists
  exact ⟨a.values, hlists.pairs?_eq, hlists.names_eq, hlists.value?_eq⟩

theorem agrees_annotationWith (pool : ConstantPool) {x : Run ElementValue} {y : Read ElementValue}
    (h : Agrees bound x y) :
    Agrees bound (readAnnotationWith pool x) (ClassFile.readAnnotationWith pool y) :=
  Agrees.u2.bind fun _ => (Agrees.lift (utf8_eq pool _)).bind fun _ => Agrees.u2.bind fun count =>
    (Agrees.times (Agrees.u2.bind fun _ => (Agrees.lift (utf8_eq pool _)).bind fun _ => h.map _)
      count).bind fun pairs => Agrees.settled.bind fun _ => by
    rw [(Table.lists_filled pairs).pairs?_eq]
    exact .pure _

theorem agrees_taggedElement (pool : ConstantPool) (visible : Bool) {x : Run ElementValue}
    {y : Read ElementValue} (h : Agrees bound x y) (tag : Nat) :
    Agrees bound (readTaggedElement pool visible x tag) (readTagged pool visible y tag) := by
  have hlook : ∀ {α : Type} {get : Nat → Partial α} {get' : Nat → Except Fault α}
      (_ : ∀ i, get i = some (get' i)) (g : α → ElementValue),
      Agrees bound (do return g (← Run.lift (get (← Run.u2))))
        (do return g (← Read.lift (get' (← Read.u2)))) :=
    fun hget g => Agrees.u2.bind fun _ => (Agrees.lift (hget _)).map g
  unfold readTaggedElement
  split <;> rename_i hletter <;> unfold readTagged
  case h_14 =>
    split
    case h_14 => exact .fail _
    all_goals contradiction
  all_goals rw [hletter]
  · exact hlook (integer_eq pool) _
  · exact hlook (integer_eq pool) _
  · exact hlook (integer_eq pool) _
  · exact hlook (integer_eq pool) _
  · exact hlook (integer_eq pool) _
  · exact hlook (long_eq pool) _
  · exact hlook (float_eq pool) _
  · exact hlook (double_eq pool) _
  · exact hlook (utf8_eq pool) _
  · exact Agrees.u2.bind fun _ => (Agrees.lift (utf8_eq pool _)).bind fun _ => hlook (utf8_eq pool) _
  · exact hlook (utf8_eq pool) _
  · exact (agrees_annotationWith pool h).map _
  · exact Agrees.u2.bind fun count => (h.times count).map _

/-- Each level of nesting takes a byte, so the steps last as long as the bytes do. -/
theorem agrees_element (pool : ConstantPool) (visible : Bool) (fuel : Nat) :
    Agrees fuel (readElement pool visible fuel) (ClassFile.readElement pool visible fuel) := by
  induction fuel with
  | zero =>
    intro r hr
    have := hr.inside
    have := hr.left
    omega
  | succ fuel ih =>
    exact Agrees.behind_u1 fun tag => (agrees_taggedElement pool visible ih tag).bind fun _ =>
      Agrees.settled.bind fun _ => .pure _

theorem agrees_annotations (pool : ConstantPool) (visible : Bool) (block : List UInt8) :
    Agrees bound (readAnnotations pool visible block)
      (Read.lift (ClassFile.readAnnotations pool visible block)) :=
  Agrees.nested (Agrees.u2.bind fun count => (Agrees.times
    ((agrees_annotationWith pool (agrees_element pool visible _)).map _) count).bind fun _ =>
    Agrees.settled.bind fun _ => .pure _)

/-! Members and attributes -/

theorem agrees_attribute (pool : ConstantPool) :
    Agrees bound (readAttribute pool) (ClassFile.readAttribute pool) :=
  Agrees.u2.bind fun _ => (Agrees.lift (utf8_eq pool _)).bind fun _ => Agrees.u4.bind fun n =>
    (Agrees.slice n).bind fun _ => Agrees.settled.bind fun _ => .pure _

theorem agrees_textAttribute (pool : ConstantPool) (block : List UInt8) :
    Agrees bound (readTextAttribute pool block)
      (Read.lift (ClassFile.readTextAttribute pool block)) :=
  Agrees.nested (Agrees.u2.bind fun _ => Agrees.settled.bind fun _ => Agrees.lift (utf8_eq pool _))

theorem agrees_codeAttribute (block : List UInt8) :
    Agrees bound (readCodeAttribute block) (Read.lift (ClassFile.readCodeAttribute block)) :=
  Agrees.nested (Agrees.u2.bind fun _ => Agrees.u2.bind fun _ => Agrees.u4.bind fun n =>
    (Agrees.slice n).bind fun _ => Agrees.settled.bind fun _ => .pure _)

theorem agrees_memberAttribute (pool : ConstantPool) (name : String) (block : List UInt8)
    (m : Member) (code : Option (List UInt8)) :
    Agrees bound (applyMemberAttribute pool name block m code)
      (Read.lift (ClassFile.applyMemberAttribute pool name block m code)) := by
  unfold applyMemberAttribute
  split <;> refine Agrees.lift_at ?_ _
  · exact (agrees_textAttribute pool block).lift_map _
  · exact (agrees_annotations pool true block).lift_map _
  · exact (agrees_annotations pool false block).lift_map _
  · exact (agrees_codeAttribute block).lift_map _
  · split
    case h_5 => exact .pure _
    all_goals contradiction

theorem agrees_memberAttributes (pool : ConstantPool) (count : Nat) (m : Member)
    (code : Option (List UInt8)) : Agrees bound (readMemberAttributes pool count m code)
      (ClassFile.readMemberAttributes pool count m code) := by
  induction count generalizing m code with
  | zero => exact .pure _
  | succ count ih =>
    exact (agrees_attribute pool).bind fun _ =>
      (agrees_memberAttribute pool _ _ _ _).bind fun _ => ih _ _

theorem agrees_member (pool : ConstantPool) :
    Agrees bound (readMember pool) (ClassFile.readMember pool) :=
  Agrees.u2.bind fun _ => Agrees.u2.bind fun _ => (Agrees.lift (utf8_eq pool _)).bind fun _ =>
    Agrees.u2.bind fun _ => (Agrees.lift (utf8_eq pool _)).bind fun _ => Agrees.u2.bind fun _ =>
    (agrees_memberAttributes pool _ _ _).bind fun _ => Agrees.settled.bind fun _ => .pure _

theorem agrees_classAttribute (pool : ConstantPool) (name : String) (block : List UInt8)
    (a : Attributes) : Agrees bound (applyClassAttribute pool name block a)
      (Read.lift (ClassFile.applyClassAttribute pool name block a)) := by
  unfold applyClassAttribute
  split <;> refine Agrees.lift_at ?_ _
  · exact (agrees_textAttribute pool block).lift_map _
  · exact (agrees_textAttribute pool block).lift_map _
  · exact .pure _
  · exact (agrees_annotations pool true block).lift_map _
  · exact (agrees_annotations pool false block).lift_map _
  · split
    case h_6 => exact .pure _
    all_goals contradiction

theorem agrees_classAttributesFrom (pool : ConstantPool) (count : Nat) (a : Attributes) :
    Agrees bound (readClassAttributesFrom pool count a)
      (ClassFile.readClassAttributesFrom pool count a) := by
  induction count generalizing a with
  | zero => exact .pure _
  | succ count ih =>
    exact (agrees_attribute pool).bind fun _ => (agrees_classAttribute pool _ _ _).bind fun _ => ih _

theorem agrees_classAttributes (pool : ConstantPool) :
    Agrees bound (readClassAttributes pool) (ClassFile.readClassAttributes pool) :=
  Agrees.u2.bind fun _ => (agrees_classAttributesFrom pool _ _).bind fun _ =>
    Agrees.settled.bind fun _ => .pure _

theorem agrees_magic : Agrees bound readMagic ClassFile.readMagic := by
  refine Agrees.u4.bind fun found => ?_
  split
  · exact Agrees.settled.bind fun _ => .fail _
  · exact .pure ()

theorem agrees_superName (pool : ConstantPool) (index : Nat) :
    Agrees bound (readSuperName pool index) (ClassFile.readSuperName pool index) := by
  unfold readSuperName ClassFile.readSuperName
  split
  · exact .pure _
  · exact (Agrees.lift (className_eq pool index)).at_ _

theorem agrees_interfaces (pool : ConstantPool) (count : Nat) :
    Agrees bound (readInterfaces pool count) (ClassFile.readInterfaces pool count) :=
  Agrees.times (Agrees.u2.bind fun _ => (Agrees.lift (className_eq pool _)).map _) count

theorem agrees_header : Agrees bound readHeader ClassFile.readHeader :=
  agrees_magic.bind fun _ => Agrees.u2.bind fun _ => Agrees.u2.bind fun _ =>
    agrees_pool.bind fun pool => Agrees.u2.bind fun _ => Agrees.u2.bind fun _ =>
    Agrees.u2.bind fun _ => Agrees.settled.bind fun _ =>
    ((Agrees.lift (className_eq pool _)).at_ _).bind fun _ =>
    (agrees_superName pool _).bind fun _ => Agrees.u2.bind fun _ =>
    ((agrees_interfaces pool _).at_ _).bind fun _ => Agrees.settled.bind fun _ => .pure _

/-! Method bodies -/

theorem signedAt_eq (code : List UInt8) (start offset : Nat) :
    signedAt code (start + offset) = must (some (signedWord? offset (code.drop start))) := by
  unfold signedAt signedWord?
  rw [takeExactly?_eq, List.drop_drop, List.length_drop]
  by_cases hroom : code.length < start + offset + 4
  · rw [if_pos hroom, if_neg (by omega)]
    rfl
  · rw [if_neg hroom, if_pos (by omega), wordAt?_eq (by omega)]
    rfl

section

variable {code operands : List UInt8} {pc : Nat} {op : UInt8}

theorem getElem?_of_drop (h : code.drop pc = op :: operands) : code[pc]? = some op := by
  rw [← Nat.add_zero pc, ← List.getElem?_drop, h]
  rfl

theorem drop_succ_of_drop (h : code.drop pc = op :: operands) : code.drop (pc + 1) = operands := by
  rw [← List.drop_drop, h]
  rfl

theorem length_of_drop (h : code.drop pc = op :: operands) :
    code.length = pc + operands.length + 1 := by
  have := congrArg List.length h
  simp only [List.length_drop, List.length_cons] at this
  omega

theorem lengthAt_eq (h : code.drop pc = op :: operands) :
    lengthAt code pc = some (instructionLength pc op.toNat operands) := by
  have hrest := drop_succ_of_drop h
  have hlen := length_of_drop h
  have hword : ∀ k, signedAt code (pc + 1 + switchPadding pc + k) =
      must (some (signedWord? (switchPadding pc + k) operands)) := by
    intro k
    rw [Nat.add_assoc, signedAt_eq, hrest]
  unfold lengthAt instructionLength
  simp only [getElem?_of_drop h, must_some_bind, hword]
  cases extent op.toNat with
  | fixed n => rfl
  | undefined => rfl
  | wide =>
    cases operands with
    | nil =>
      rw [if_pos (by rw [hlen]; simp)]
      rfl
    | cons modified more =>
      rw [if_neg (by rw [hlen, List.length_cons]; omega), getElem?_of_drop hrest]
      rfl
  | tableSwitch =>
    dsimp only
    cases signedWord? (switchPadding pc + 4) operands with
    | none => rfl
    | some low =>
      cases signedWord? (switchPadding pc + 8) operands with
      | none => rfl
      | some high =>
        dsimp only
        split <;> rfl
  | lookupSwitch =>
    dsimp only
    cases signedWord? (switchPadding pc + 4) operands with
    | none => rfl
    | some pairs =>
      dsimp only
      split <;> rfl

theorem callAt_eq (pool : ConstantPool) (h : code.drop pc = op :: operands)
    (hroom : isInvoke op.toNat = true → pc + 3 ≤ code.length) :
    callAt pool code pc op.toNat = some (invocation? pool pc op.toNat operands) := by
  unfold callAt invocation?
  split
  case isTrue hinvoke =>
    have := hroom hinvoke
    rw [wordAt?_eq (by omega), drop_succ_of_drop h, must_some_bind]
    exact Partial.bind_eq (methodRef_eq pool _) fun _ => rfl
  case isFalse => rfl

/-- Behind an instruction a walk goes on with the bytes that follow it. -/
theorem walkFrom_next (pool : ConstantPool) (h : code.drop pc = op :: operands) {n : Nat}
    (hpos : 0 < n) (hroom : pc + n ≤ code.length) :
    walkFrom pool (pc + 1) (n - 1) operands = walkCode pool (pc + n) (code.drop (pc + n)) := by
  obtain ⟨k, rfl⟩ : ∃ k, n = k + 1 := ⟨n - 1, by omega⟩
  have hfront : (operands.take k).length = k := by
    have := length_of_drop h
    rw [List.length_take]
    omega
  have hskip := walkFrom_skip pool (pc + 1) (operands.take k) (operands.drop k)
  rw [List.take_append_drop, hfront] at hskip
  rw [Nat.add_sub_cancel, hskip, walkCode, ← List.drop_drop, h, List.drop_succ_cons, Nat.add_assoc,
    Nat.add_comm 1]

end

/-- Each instruction takes at least one byte, so there are steps enough for all that is left. -/
theorem walk_eq (pool : ConstantPool) (code : List UInt8) (fuel pc : Nat)
    (h : code.length ≤ pc + fuel) :
    walk pool code fuel pc = some (walkCode pool pc (code.drop pc)) := by
  induction fuel generalizing pc with
  | zero =>
    rw [walk, if_neg (by omega), List.drop_eq_nil_of_le (by omega)]
    rfl
  | succ fuel ih =>
    by_cases hpc : pc < code.length
    case neg =>
      rw [walk, if_neg hpc, List.drop_eq_nil_of_le (by omega)]
      rfl
    obtain ⟨op, operands, hdrop⟩ : ∃ op operands, code.drop pc = op :: operands :=
      ⟨_, _, List.drop_eq_getElem_cons hpc⟩
    have hlen := length_of_drop hdrop
    rw [walk, if_pos hpc, getElem?_of_drop hdrop, hdrop, walkCode, walkFrom]
    simp only [lengthAt_eq hdrop, ExceptT.run, Option.bind_eq_bind, Option.bind_some]
    cases hlength : instructionLength pc op.toNat operands with
    | error fault => rfl
    | ok n =>
      have hpos := instructionLength_pos hlength
      dsimp only
      by_cases hroom : code.length < pc + n
      · have hmissing : hasAtLeast n (op :: operands) = false := by
          rw [← Bool.not_eq_true, hasAtLeast_iff, List.length_cons]
          omega
        rw [if_pos hroom, hmissing]
        rfl
      · have hthere : hasAtLeast n (op :: operands) = true := by
          rw [hasAtLeast_iff, List.length_cons]
          omega
        -- the check against the end is what makes room for the operand of a call
        have hcall : isInvoke op.toNat = true → pc + 3 ≤ code.length := by
          intro hinvoke
          have := three_le_of_isInvoke hlength hinvoke
          omega
        rw [if_neg hroom, hthere, if_pos rfl, walkFrom_next pool hdrop hpos (by omega),
          callAt_eq pool hdrop hcall, Option.bind_some]
        cases invocation? pool pc op.toNat operands with
        | error fault => rfl
        | ok call =>
          dsimp only
          rw [ih (pc + n) (by omega)]
          rfl

/-! Events -/

namespace Report

theorem bind_ok {x : Report α} {t : Trace α} {a : α} (h : x = some t) (ha : t.outcome = .ok a)
    {f : α → Report β} {u : Trace β} (hu : f a = some u) :
    x >>= f = some ⟨t.events ++ u.events, u.outcome⟩ := by
  subst h
  change Report.bind (some t) f = _
  simp [Report.bind, ha, hu]
  rfl

theorem bind_error {x : Report α} {t : Trace α} {e : Fault} (h : x = some t)
    (he : t.outcome = .error e) (f : α → Report β) : x >>= f = some ⟨t.events, .error e⟩ := by
  subst h
  change Report.bind (some t) f = _
  simp [Report.bind, he]
  rfl

end Report

/-- A walk in place reports the same events as one from the front, and ends at the same place or with
the same fault. -/
def Tracks (x : Reader → Report Reader) (y : Cursor → Trace Cursor) : Prop :=
  ∀ r, r.pos ≤ r.data.length → ∃ t : Trace Reader, x r = some t ∧
    y r.cursor = ⟨t.events, t.outcome.map Reader.cursor⟩ ∧ ∀ r', t.outcome = .ok r' → r.MovesTo r'

namespace Tracks

theorem stop : Tracks pure pure :=
  fun r hr => ⟨pure r, rfl, rfl, by rintro r' ⟨⟩; exact .refl hr⟩

/-- Events that do not depend on the bytes may come first. -/
theorem report {x : Reader → Report Reader} {y : Cursor → Trace Cursor} (h : Tracks x y)
    {e : Report Unit} {e' : Trace Unit} (he : e = some e') :
    Tracks (fun r => e >>= fun _ => x r) (fun c => e' >>= fun _ => y c) := by
  intro r hr
  dsimp only
  cases hout : e'.outcome with
  | error f =>
    exact ⟨⟨e'.events, .error f⟩, Report.bind_error he hout _, Trace.bind_error hout _, by simp⟩
  | ok u =>
    obtain ⟨t, hx, hy, hmove⟩ := h r hr
    refine ⟨⟨e'.events ++ t.events, t.outcome⟩, Report.bind_ok he hout hx, ?_, hmove⟩
    rw [Trace.bind_ok hout, hy]

/-- A walk may start by reading something. -/
theorem read {act : Run α} {act' : Read α} (ha : ∀ bound, Agrees bound act act')
    {f : α → Reader → Report Reader} {g : α → Cursor → Trace Cursor}
    (hf : ∀ a, Tracks (f a) (g a)) :
    Tracks (fun r => Report.read act r >>= fun p => f p.1 p.2)
      (fun c => Trace.ofExcept (act' c) >>= fun p => g p.1 p.2) := by
  intro r hr
  dsimp only
  have hwithin : r.Within (r.data.length + 1) := ⟨hr, by omega⟩
  rcases ha _ r hwithin with ⟨a, r', hx, hy, hmove⟩ | ⟨e, hx, hy⟩
  · obtain ⟨t, hx', hy', hmove'⟩ := hf a r' (by rw [hmove.data]; exact hmove.inside)
    refine ⟨t, ?_, ?_, fun r'' h => hmove.trans (hmove' r'' h)⟩
    · have hread : Report.read act r = some (Trace.ofExcept (.ok (a, r'))) := by
        rw [Report.read, hx]
        rfl
      exact Report.bind_ok hread rfl hx'
    · rw [hy, Trace.ofExcept_ok_bind, hy']
  · have hread : Report.read act r = some (Trace.ofExcept (.error e)) := by
      rw [Report.read, hx]
      rfl
    exact ⟨⟨[], .error e⟩, Report.bind_error hread rfl _, by rw [hy]; rfl, by simp⟩

theorem andThen {x x' : Reader → Report Reader} {y y' : Cursor → Trace Cursor} (h : Tracks x y)
    (h' : Tracks x' y') : Tracks (fun r => x r >>= x') (fun c => y c >>= y') := by
  intro r hr
  dsimp only
  obtain ⟨t, hx, hy, hmove⟩ := h r hr
  cases hout : t.outcome with
  | error e =>
    refine ⟨⟨t.events, .error e⟩, Report.bind_error hx hout _, ?_, by simp⟩
    rw [hy, hout]
    rfl
  | ok r' =>
    have hmove := hmove r' hout
    obtain ⟨t', hx', hy', hmove'⟩ := h' r' (by rw [hmove.data]; exact hmove.inside)
    refine ⟨⟨t.events ++ t'.events, t'.outcome⟩, Report.bind_ok hx hout hx', ?_,
      fun r'' h => hmove.trans (hmove' r'' h)⟩
    rw [hy, hout, Trace.bind_ok rfl, hy']

end Tracks

theorem tracks_fields (pool : ConstantPool) (count index : Nat) :
    Tracks (traceFields pool count index) (ClassFile.traceFields pool count index) := by
  induction count generalizing index with
  | zero => exact .stop
  | succ count ih =>
    exact Tracks.read (fun _ => (agrees_member pool).at_ (.field index))
      (f := fun p r => Report.emit (.field p.1) >>= fun _ => traceFields pool count (index + 1) r)
      (g := fun p c => Trace.emit (.field p.1) >>= fun _ =>
        ClassFile.traceFields pool count (index + 1) c)
      fun p => (ih (index + 1)).report rfl

theorem traceBody_eq (interest : Interest) (pool : ConstantPool) (m : Member)
    (code : Option (List UInt8)) :
    traceBody interest pool m code = some (ClassFile.traceBody interest pool m code) := by
  cases code with
  | none => rfl
  | some code =>
    have hwalk := walk_eq pool code code.length 0 (by omega)
    simp only [traceBody, ClassFile.traceBody, hwalk]
    cases interest.body m <;> rfl

theorem tracks_methods (interest : Interest) (pool : ConstantPool) (count index : Nat) :
    Tracks (traceMethods interest pool count index)
      (ClassFile.traceMethods interest pool count index) := by
  induction count generalizing index with
  | zero => exact .stop
  | succ count ih =>
    exact Tracks.read (fun _ => (agrees_member pool).at_ (.method index))
      (f := fun p r => Report.emit (.method p.1) >>= fun _ => traceBody interest pool p.1 p.2 >>=
        fun _ => traceMethods interest pool count (index + 1) r)
      (g := fun p c => Trace.emit (.method p.1) >>= fun _ =>
        ClassFile.traceBody interest pool p.1 p.2 >>= fun _ =>
        ClassFile.traceMethods interest pool count (index + 1) c)
      fun p => ((ih (index + 1)).report (traceBody_eq interest pool p.1 p.2)).report rfl

theorem tracks_members (interest : Interest) (pool : ConstantPool) :
    Tracks (traceMembers interest pool) (ClassFile.traceMembers interest pool) := by
  have hend := Tracks.read (fun _ => (agrees_classAttributes pool).at_ .classAttributes)
    (f := fun a r => Report.emit (.finish a) >>= fun _ => pure r)
    (g := fun a c => Trace.emit (.finish a) >>= fun _ => pure c)
    fun a => Tracks.stop.report rfl
  have hmethods := Tracks.read (fun _ => .u2)
    (f := fun count r => traceMethods interest pool count 0 r >>= _)
    (g := fun count c => ClassFile.traceMethods interest pool count 0 c >>= _)
    fun count => (tracks_methods interest pool count 0).andThen hend
  exact Tracks.read (fun _ => .u2)
    (f := fun count r => traceFields pool count 0 r >>= _)
    (g := fun count c => ClassFile.traceFields pool count 0 c >>= _)
    fun count => (tracks_fields pool count 0).andThen hmethods

theorem tracks_class (interest : Interest) :
    Tracks (traceClass interest) (ClassFile.traceClass interest) := by
  refine Tracks.read (fun _ => agrees_header)
    (f := fun p r => Report.emit (.header p.2) >>= fun _ =>
      if interest.members p.2 then traceMembers interest p.1 r else pure r)
    (g := fun p c => Trace.emit (.header p.2) >>= fun _ =>
      if interest.members p.2 then ClassFile.traceMembers interest p.1 c else pure c) ?_
  rintro ⟨pool, header⟩
  refine Tracks.report ?_ rfl
  cases interest.members header with
  | true => exact tracks_members interest pool
  | false => exact .stop

/-- Decoding in place always has a result, and the result is that of decoding from the front. -/
theorem decode_eq_some (interest : Interest) (bytes : List UInt8) :
    decode interest bytes = some (ClassFile.decode interest bytes) := by
  obtain ⟨t, hx, hy, -⟩ := tracks_class interest (.start bytes) (Nat.zero_le _)
  rw [decode_eq, ← Reader.cursor_start, hy]
  cases hout : t.outcome with
  | error e => exact Report.bind_error hx hout _
  | ok r => exact Report.bind_ok hx hout rfl

end ClassAtlas.ClassFile.InPlace

namespace ClassAtlas.ClassFile

/-- Decoding is safe on all bytes and does not amplify them. Done in place it always has a result, so
no index, slice or slot is missing and no loop goes on for ever; the position never moves back or past
the end, from wherever it starts. Whatever names and values are read for an annotation, the table of
them has distinct names, which are those that have a value, and each annotation that is told of, at any
depth, has the names and the values of such a table. Eight bytes are there for each field and method,
and three for each call. -/
theorem decode_stays_within (interest : Interest) (bytes : List UInt8) :
    InPlace.decode interest bytes = some (decode interest bytes) ∧
    (∀ r : InPlace.Reader, r.pos ≤ r.data.length → ∃ t, InPlace.traceClass interest r = some t ∧
      ∀ r', t.outcome = .ok r' →
        r'.data = r.data ∧ r.pos ≤ r'.pos ∧ r'.pos ≤ r.data.length) ∧
    (∀ pairs, (InPlace.Table.filled pairs).Sound) ∧
    (∀ e ∈ (decode interest bytes).events, ∀ a ∈ e.annotations, ∀ b, a.Contains b →
      (b.names.Nodup ∧ ∀ name, name ∈ b.names ↔ (b.value? name).isSome = true) ∧
      ∃ pairs, (InPlace.Table.filled pairs).pairs? = some b.values ∧
        (InPlace.Table.filled pairs).names = b.names ∧
        ∀ name, (InPlace.Table.filled pairs).value? name = b.value? name) ∧
    8 * (decode interest bytes).events.countP Event.isMember +
      3 * (decode interest bytes).events.countP Event.isCall ≤ bytes.length := by
  refine ⟨InPlace.decode_eq_some interest bytes, fun r hr => ?_,
    fun pairs => (InPlace.Table.lists_filled pairs).sound, ?_, ?_⟩
  · obtain ⟨t, ht, -, hmove⟩ := InPlace.tracks_class interest r hr
    exact ⟨t, ht, fun r' h => ⟨(hmove r' h).data, (hmove r' h).forward, (hmove r' h).inside⟩⟩
  · rw [decode_events]
    intro e he a ha b hb
    have hdistinct := tells_class interest _ e he a ha b hb
    exact ⟨hdistinct, InPlace.exists_filled hdistinct.1⟩
  · have htotal := (affords_class interest).total bytes
    rwa [← decode_events, Nat.zero_add] at htotal

end ClassAtlas.ClassFile
