import ClassAtlas.ClassFile.Decode
import ClassAtlas.Proofs.ClassFile.Building
import ClassAtlas.Proofs.Distinct

/-!
What a description of a class says: the events that its class file has to give, and the limits of
the format within which a class file can hold it.
-/
namespace ClassAtlas.ClassFile

/-- Each name once, in the order of their first places and with its last value. -/
def lastValues (values : List (String × α)) : List (String × α) :=
  (values.map (·.1)).eraseDups.filterMap fun name =>
    (values.reverse.lookup name).map fun value => (name, value)

/-- To give a name a value changes that value, or adds it at the end. -/
theorem putValue_filterMap (names : List String) (f : String → Option α)
    (hf : ∀ n ∈ names, (f n).isSome) (hn : names.Nodup) (name : String) (value : α) :
    putValue (names.filterMap fun n => (f n).map fun v => (n, v)) name value =
      (if name ∈ names then names else names ++ [name]).filterMap fun n =>
        (if n = name then some value else f n).map fun v => (n, v) := by
  induction names with
  | nil => simp [putValue]
  | cons first names ih =>
    obtain ⟨v, hv⟩ := Option.isSome_iff_exists.1 (hf first (by simp))
    rw [List.nodup_cons] at hn
    rw [List.filterMap_cons_some (b := (first, v)) (by simp [hv]), putValue]
    by_cases he : first = name
    · subst he
      rw [if_pos rfl, if_pos (by simp), List.filterMap_cons_some (b := (first, value)) (by simp)]
      congr 1
      refine List.filterMap_congr ?_
      intro n hm
      rw [if_neg (ne_of_mem_of_not_mem hm hn.1)]
    · rw [if_neg he, ih (fun n hm => hf n (by simp [hm])) hn.2]
      by_cases hm : name ∈ names
      · rw [if_pos hm, if_pos (by simp [hm]),
          List.filterMap_cons_some (b := (first, v)) (by simp [he, hv])]
      · rw [if_neg hm, if_neg (by simp [hm, Ne.symm he]), List.cons_append,
          List.filterMap_cons_some (b := (first, v)) (by simp [he, hv])]

theorem foldl_putValue (values : List (String × α)) :
    values.foldl (fun values p => putValue values p.1 p.2) [] = lastValues values := by
  induction values using List.reverseRecOn with
  | nil => rfl
  | append_singleton values entry ih =>
    obtain ⟨name, value⟩ := entry
    rw [List.foldl_append, ih]
    change putValue (lastValues values) name value = _
    rw [lastValues, putValue_filterMap _ (fun n => values.reverse.lookup n) ?_ (nodup_eraseDups _)]
    · rw [lastValues, List.map_append, List.map_cons, List.map_nil, eraseDups_concat,
        List.reverse_append, List.reverse_singleton, List.singleton_append]
      simp only [List.mem_eraseDups]
      congr 1
      funext n
      rw [List.lookup_cons]
      by_cases hn : n = name
      · simp [hn]
      · simp [hn, beq_false_of_ne hn]
    · intro n hn
      obtain ⟨entry, he, rfl⟩ := List.mem_map.1 (List.mem_eraseDups.1 hn)
      exact List.lookup_isSome_iff.2 ⟨entry, by simpa using he, by simp⟩

mutual

/-- The value that an annotation element comes back as. A number keeps what fits into its kind, and
a nested annotation is as visible as the one it stands in. -/
def ElementSpec.value (visible : Bool) : ElementSpec → ElementValue
  | .text s => .text s
  | .int n => .integral .int (Int.bmod n (2 ^ 32))
  | .long n => .integral .long (Int.bmod n (2 ^ 64))
  | .boolean b => .boolean b
  | .enum type name => .enum type name
  | .nested type values => .nested type visible (lastValues (pairValues visible values))
  | .list items => .array (itemValues visible items)

def pairValues (visible : Bool) : List (String × ElementSpec) → List (String × ElementValue)
  | [] => []
  | (name, element) :: more => (name, element.value visible) :: pairValues visible more

def itemValues (visible : Bool) : List ElementSpec → List ElementValue
  | [] => []
  | element :: more => element.value visible :: itemValues visible more

end

mutual

/-- How many bytes an annotation element takes. -/
def ElementSpec.size : ElementSpec → Nat
  | .enum _ _ => 5
  | .nested _ values => 5 + pairsSize values
  | .list items => 3 + itemsSize items
  | _ => 3

def pairsSize : List (String × ElementSpec) → Nat
  | [] => 0
  | (_, element) :: more => 2 + element.size + pairsSize more

def itemsSize : List ElementSpec → Nat
  | [] => 0
  | element :: more => element.size + itemsSize more

end

mutual

/-- The types that an element names are plain, and its counts are words of two bytes. -/
def ElementSpec.Encodable : ElementSpec → Prop
  | .enum type _ => IsPlainName type
  | .nested type values => IsPlainName type ∧ values.length ≤ 65535 ∧ PairsEncodable values
  | .list items => items.length ≤ 65535 ∧ ItemsEncodable items
  | _ => True

def PairsEncodable : List (String × ElementSpec) → Prop
  | [] => True
  | (_, element) :: more => element.Encodable ∧ PairsEncodable more

def ItemsEncodable : List ElementSpec → Prop
  | [] => True
  | element :: more => element.Encodable ∧ ItemsEncodable more

end

namespace AnnotationSpec

def use (a : AnnotationSpec) : AnnotationUse :=
  ⟨a.type, !a.invisible, lastValues (pairValues (!a.invisible) a.values)⟩

def size (a : AnnotationSpec) : Nat := 4 + pairsSize a.values

structure Encodable (a : AnnotationSpec) : Prop where
  type_plain : IsPlainName a.type
  count_le : a.values.length ≤ 65535
  values : PairsEncodable a.values

end AnnotationSpec

/-- The annotations of one attribute, whose length is a word of four bytes. -/
structure GroupEncodable (annotations : List AnnotationSpec) : Prop where
  each : ∀ a ∈ annotations, a.Encodable
  count_le : annotations.length ≤ 65535
  size_lt : 2 + (annotations.map (·.size)).sum < 2 ^ 32

theorem groupEncodable_nil : GroupEncodable [] := ⟨by simp, by simp, by simp⟩

/-- The visible annotations and the invisible ones each make an attribute. -/
structure AnnotationsEncodable (annotations : List AnnotationSpec) : Prop where
  visible : GroupEncodable (annotations.filter (!·.invisible))
  invisible : GroupEncodable (annotations.filter (·.invisible))

/-- Annotations in the order in which they are read, the visible ones first. -/
def usesOf (annotations : List AnnotationSpec) : List AnnotationUse :=
  (annotations.filter (!·.invisible) ++ annotations.filter (·.invisible)).map (·.use)

namespace CallSpec

/-- The call as it is reported from its place in a body. -/
def invocation (c : CallSpec) (offset : Nat) : Invocation :=
  ⟨c.opcode, c.owner, c.name, c.descriptor, c.opcode = 0xb9, offset⟩

/-- The receiver takes one byte, a call through an interface two more than other calls. -/
def size (c : CallSpec) : Nat := if c.opcode = 0xb9 then 6 else 4

structure Encodable (c : CallSpec) : Prop where
  opcode_ge : 0xb6 ≤ c.opcode
  opcode_le : c.opcode ≤ 0xb9
  owner_dotted : '/' ∉ c.owner.toList
  callable : Callable c.owner c.name c.descriptor

end CallSpec

/-- Calls one after the other from an offset on, each after the load of its receiver. -/
def invocationsFrom (offset : Nat) : List CallSpec → List Invocation
  | [] => []
  | c :: more => c.invocation (offset + 1) :: invocationsFrom (offset + c.size) more

/-- The instructions of a body: its calls, and the switch and the return at its end. -/
def codeSize (calls : List CallSpec) : Nat :=
  (calls.map (·.size)).sum + (bodyEnd (calls.map (·.size)).sum).length

namespace FieldSpec

def member (f : FieldSpec) : Member :=
  ⟨f.access, f.name, f.descriptor, f.signature, usesOf f.annotations⟩

structure Encodable (f : FieldSpec) : Prop where
  access_lt : f.access < 65536
  annotations : AnnotationsEncodable f.annotations

end FieldSpec

namespace MethodSpec

def member (m : MethodSpec) : Member :=
  ⟨m.access, m.name, m.descriptor, "", usesOf m.annotations⟩

structure Encodable (m : MethodSpec) : Prop where
  access_lt : m.access < 65536
  annotations : AnnotationsEncodable m.annotations
  calls : ∀ c ∈ m.calls, c.Encodable
  size_lt : 12 + codeSize m.calls < 2 ^ 32

/-- A method, and the calls of its body if the reader looks into it. -/
def events (interest : Interest) (m : MethodSpec) : List Event :=
  .method m.member ::
    if interest.body m.member then (invocationsFrom 0 m.calls).map .call else []

end MethodSpec

namespace ClassSpec

def header (c : ClassSpec) : Header := ⟨61, 0, c.access, c.name, c.superName, c.interfaces⟩

def attributes (c : ClassSpec) : Attributes := ⟨"", "", c.record, usesOf c.annotations⟩

/-- The members of a class in the order of its description, and its end. -/
def memberEvents (interest : Interest) (c : ClassSpec) : List Event :=
  c.fields.map (.field ·.member) ++ c.methods.flatMap (·.events interest) ++ [.finish c.attributes]

/-- Everything that is told of a class; its members only if the reader goes on to them. -/
def events (interest : Interest) (c : ClassSpec) : List Event :=
  .header c.header :: if interest.members c.header then c.memberEvents interest else []

/-- The constant pool when the whole class is written. -/
def pool (c : ClassSpec) : PoolBuilder := ((encodeClass c).run .empty).2

/-- The limits within which a class file holds a class. -/
structure Encodable (c : ClassSpec) : Prop where
  pool_fits : c.pool.Fits
  access_lt : c.access < 65536
  name_dotted : '/' ∉ c.name.toList
  superName_dotted : '/' ∉ c.superName.toList
  interfaces_dotted : ∀ name ∈ c.interfaces, '/' ∉ name.toList
  interfaces_le : c.interfaces.length ≤ 65535
  fields_le : c.fields.length ≤ 65535
  methods_le : c.methods.length ≤ 65535
  fields : ∀ f ∈ c.fields, f.Encodable
  methods : ∀ m ∈ c.methods, m.Encodable
  annotations : AnnotationsEncodable c.annotations

end ClassSpec

end ClassAtlas.ClassFile
