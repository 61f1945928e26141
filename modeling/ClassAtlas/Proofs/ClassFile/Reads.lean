import ClassAtlas.ClassFile.Cursor
import Mathlib

/-!
What a reader takes. It reads some bytes as a value if it takes exactly these from the front of
anything and leaves the rest. A reader is orderly if all its answers are of this kind: an answer
without an overrun depends only on the bytes that were taken, and an overrun is never forgotten.
-/
namespace ClassAtlas.ClassFile

@[simp] theorem length_toBigEndian (k n : Nat) : (toBigEndian k n).length = k := by
  induction k with
  | zero => rfl
  | succ k ih => simp [toBigEndian, ih]

theorem bigEndian_cons (b : UInt8) (bytes : List UInt8) :
    bigEndian (b :: bytes) = b.toNat * 256 ^ bytes.length + bigEndian bytes := by
  have hfold : ∀ (bytes : List UInt8) (n : Nat),
      bytes.foldl (fun n b => n * 256 + b.toNat) n = n * 256 ^ bytes.length + bigEndian bytes := by
    intro bytes
    induction bytes with
    | nil => simp [bigEndian]
    | cons b bytes ih =>
      intro n
      rw [bigEndian, List.foldl_cons, List.foldl_cons, ih, ih, List.length_cons]
      ring
  rw [bigEndian, List.foldl_cons, hfold]
  simp

/-- Writing a number keeps what fits into its bytes. -/
theorem bigEndian_toBigEndian (k n : Nat) : bigEndian (toBigEndian k n) = n % 256 ^ k := by
  induction k with
  | zero => simp [toBigEndian, bigEndian, Nat.mod_one]
  | succ k ih =>
    rw [toBigEndian, bigEndian_cons, ih, length_toBigEndian, Nat.mod_pow_succ, UInt8.toNat_ofNat']
    change n / 256 ^ k % 256 * 256 ^ k + n % 256 ^ k = _
    ring

/-- A number that is written in two's complement comes back if it fits, and else wrapped. -/
theorem signedBigEndian_toBigEndian (k : Nat) (n : Int) :
    signedBigEndian (toBigEndian (k + 1) (n % (256 ^ (k + 1) : Nat)).toNat) =
      Int.bmod n (256 ^ (k + 1)) := by
  have hpos : 0 < 256 ^ (k + 1) := by positivity
  have hm := Int.emod_nonneg n (b := ((256 ^ (k + 1) : Nat) : Int)) (by positivity)
  have hlt := Int.emod_lt_of_pos n (b := ((256 ^ (k + 1) : Nat) : Int)) (by positivity)
  have heven : 2 ∣ 256 ^ (k + 1) := Dvd.dvd.pow (by decide) (by omega)
  rw [signedBigEndian, bigEndian_toBigEndian, length_toBigEndian]
  change (if 2 * _ < 256 ^ (k + 1) then _ else _ - ((256 ^ (k + 1) : Nat) : Int)) = _
  rw [Nat.mod_eq_of_lt (by omega), Int.bmod_def]
  generalize 256 ^ (k + 1) = m at *
  split <;> split <;> omega

theorem except_bind_eq_ok {ε : Type} {x : Except ε α} {f : α → Except ε β} {b : β} :
    (x >>= f) = .ok b ↔ ∃ a, x = .ok a ∧ f a = .ok b := by
  cases x with
  | error e => simp [bind, Except.bind]
  | ok a => simp [bind, Except.bind]

theorem Read.bind_apply (act : Read α) (f : α → Read β) (c : Cursor) :
    (act >>= f) c = (act c).bind fun p => f p.1 p.2 := rfl

theorem Read.bind_eq_ok {act : Read α} {f : α → Read β} {c : Cursor} {p : β × Cursor} :
    (act >>= f) c = .ok p ↔ ∃ a c', act c = .ok (a, c') ∧ f a c' = .ok p := by
  rw [Read.bind_apply]
  cases h : act c with
  | error e => simp [Except.bind]
  | ok q => simp [Except.bind, Prod.eq_iff_fst_eq_snd_eq]

/-- The bytes are what a reader takes to give a value, whatever follows them. -/
def Reads (act : Read α) (bytes : List UInt8) (a : α) : Prop :=
  ∀ rest, act ⟨bytes ++ rest, false⟩ = .ok (a, ⟨rest, false⟩)

theorem takeExactly?_append_eq (front rest : List α) :
    takeExactly? front.length (front ++ rest) = some (front, rest) := by
  induction front with
  | nil => rfl
  | cons x front ih => simp [takeExactly?, ih]

/-- So many elements are there exactly if the list is long enough. -/
theorem takeExactly?_eq (n : Nat) (xs : List α) :
    takeExactly? n xs = if n ≤ xs.length then some (xs.take n, xs.drop n) else none := by
  induction n generalizing xs with
  | zero => simp [takeExactly?]
  | succ n ih =>
    cases xs with
    | nil => rfl
    | cons x xs =>
      rw [takeExactly?, ih, List.length_cons]
      by_cases h : n ≤ xs.length <;> simp [h]

/-- Bytes that were taken without an overrun stood in front of what is left. -/
theorem Read.bytes_eq_ok {n : Nat} {front : List UInt8} {c c' : Cursor}
    (h : Read.bytes n c = .ok (front, c')) (hc : c'.overrun = false) :
    c = ⟨front ++ c'.rest, false⟩ ∧ front.length = n := by
  obtain ⟨bytes, overrun⟩ := c
  simp only [Read.bytes] at h
  split at h
  case isTrue hoverrun =>
    cases h
    exact absurd hc (by simp [hoverrun])
  case isFalse hoverrun =>
    split at h
    case h_1 taken rest htake =>
      cases h
      obtain ⟨rfl, hlen⟩ := takeExactly?_append n bytes _ _ htake
      exact ⟨by simpa using hoverrun, hlen⟩
    case h_2 =>
      cases h
      cases hc

namespace Reads

theorem pure (a : α) : Reads (Pure.pure a) [] a := fun _ => rfl

theorem bind {act : Read α} {f : α → Read β} {bytes more : List UInt8} {a : α} {b : β}
    (h : Reads act bytes a) (hf : Reads (f a) more b) : Reads (act >>= f) (bytes ++ more) b := by
  intro rest
  rw [List.append_assoc, Read.bind_apply, h]
  exact hf rest

/-- A step that takes nothing, before the rest. -/
theorem bind_nil {act : Read α} {f : α → Read β} {bytes : List UInt8} {a : α} {b : β}
    (h : Reads act [] a) (hf : Reads (f a) bytes b) : Reads (act >>= f) bytes b := h.bind hf

/-- The last step of a reader, which only changes the answer. -/
theorem map {act : Read α} {bytes : List UInt8} {a : α} (h : Reads act bytes a) (g : α → β) :
    Reads (act >>= fun a => Pure.pure (g a)) bytes (g a) := by
  have hb : Reads (act >>= fun a => Pure.pure (g a)) (bytes ++ []) (g a) := h.bind (Reads.pure _)
  rwa [List.append_nil] at hb

theorem bytes (front : List UInt8) : Reads (Read.bytes front.length) front front := by
  intro rest
  simp [Read.bytes, takeExactly?_append_eq]

theorem number (front : List UInt8) : Reads (Read.number front.length) front (bigEndian front) :=
  (Reads.bytes front).map bigEndian

/-- A number comes back from the bytes that it was written to. -/
theorem toBigEndian (k n : Nat) (h : n < 256 ^ k) : Reads (Read.number k) (toBigEndian k n) n := by
  have hn := Reads.number (ClassFile.toBigEndian k n)
  rwa [length_toBigEndian, bigEndian_toBigEndian, Nat.mod_eq_of_lt h] at hn

theorem settled : Reads Read.settled [] () := fun _ => rfl

/-- A reader that asks at its end whether everything was there. -/
theorem checked {act : Read α} {bytes : List UInt8} {a : α} (h : Reads act bytes a) (g : α → β) :
    Reads (act >>= fun a => Read.settled >>= fun _ => Pure.pure (g a)) bytes (g a) := by
  have hb : Reads (act >>= fun a => Read.settled >>= fun _ => Pure.pure (g a)) (bytes ++ []) (g a) :=
    h.bind (Reads.settled.map fun _ => g a)
  rwa [List.append_nil] at hb

theorem lift {x : Except Fault α} {a : α} (h : x = .ok a) : Reads (Read.lift x) [] a := by
  subst h
  exact fun _ => rfl

theorem at_ {act : Read α} {bytes : List UInt8} {a : α} (h : Reads act bytes a) (place : Place) :
    Reads (Read.at_ place act) bytes a := by
  intro rest
  rw [Read.at_, h]
  rfl

/-- Reading one thing after another takes their bytes one after another. -/
theorem times {act : Read β} {value : α → β} {items : List α} {blocks : List (List UInt8)}
    (h : List.Forall₂ (fun a bytes => Reads act bytes (value a)) items blocks) :
    Reads (Read.times act items.length) blocks.flatten (items.map value) := by
  induction h with
  | nil => exact Reads.pure []
  | cons hfirst _ ih => exact hfirst.bind (ih.map (value _ :: ·))

end Reads

theorem readBlock_of_reads {act : Read α} {bytes : List UInt8} {a : α} (h : Reads act bytes a)
    (rest : List UInt8) : readBlock act (bytes ++ rest) = .ok a := by
  rw [readBlock, Cursor.start, h]
  rfl

/-- An overrun is never forgotten, and an answer without one depends only on the bytes taken. -/
structure Orderly (act : Read α) : Prop where
  sticky : ∀ rest a c, act ⟨rest, true⟩ = .ok (a, c) → c.overrun = true
  faithful : ∀ bytes a rest, act ⟨bytes, false⟩ = .ok (a, ⟨rest, false⟩) →
    ∃ used, bytes = used ++ rest ∧ Reads act used a

namespace Orderly

theorem pure (a : α) : Orderly (Pure.pure a : Read α) := by
  refine ⟨?_, ?_⟩
  · rintro rest b c ⟨⟩
    rfl
  · rintro bytes b rest ⟨⟩
    exact ⟨[], rfl, Reads.pure a⟩

theorem bind {act : Read α} {f : α → Read β} (h : Orderly act) (hf : ∀ a, Orderly (f a)) :
    Orderly (act >>= f) := by
  refine ⟨?_, ?_⟩
  · intro rest b c hb
    obtain ⟨a, ⟨rest', o⟩, ha, hfa⟩ := Read.bind_eq_ok.1 hb
    obtain rfl : o = true := h.sticky rest a _ ha
    exact (hf a).sticky rest' b c hfa
  · intro bytes b rest hb
    obtain ⟨a, ⟨rest', o⟩, ha, hfa⟩ := Read.bind_eq_ok.1 hb
    cases o with
    | true => exact absurd ((hf a).sticky rest' b _ hfa) (by simp)
    | false =>
      obtain ⟨used, rfl, hu⟩ := h.faithful bytes a rest' ha
      obtain ⟨more, rfl, hm⟩ := (hf a).faithful rest' b rest hfa
      exact ⟨used ++ more, by simp, hu.bind hm⟩

theorem bytes (n : Nat) : Orderly (Read.bytes n) := by
  refine ⟨?_, ?_⟩
  · intro rest a c h
    simp only [Read.bytes, if_true] at h
    cases h
    rfl
  · intro bytes a rest h
    simp only [Read.bytes] at h
    cases ht : takeExactly? n bytes with
    | none => simp [ht] at h
    | some p =>
      obtain ⟨front, after⟩ := p
      simp only [ht, Bool.false_eq_true, if_false, Except.ok.injEq, Prod.mk.injEq,
        Cursor.mk.injEq, and_true] at h
      obtain ⟨rfl, rfl⟩ := h
      obtain ⟨rfl, rfl⟩ := takeExactly?_append n bytes front after ht
      exact ⟨front, rfl, Reads.bytes front⟩

theorem number (n : Nat) : Orderly (Read.number n) := (bytes n).bind fun _ => pure _

theorem u1 : Orderly Read.u1 := number 1

theorem u2 : Orderly Read.u2 := number 2

theorem u4 : Orderly Read.u4 := number 4

theorem settled : Orderly Read.settled := by
  refine ⟨?_, ?_⟩
  · intro rest a c h
    simp [Read.settled] at h
  · rintro bytes a rest ⟨⟩
    exact ⟨[], rfl, Reads.settled⟩

theorem fail (f : Fault) : Orderly (Read.fail f : Read α) := by
  refine ⟨?_, ?_⟩ <;> simp [Read.fail]

theorem lift (x : Except Fault α) : Orderly (Read.lift x) := by
  cases x with
  | error f => refine ⟨?_, ?_⟩ <;> simp [Read.lift, Except.map]
  | ok a => exact pure a

theorem at_ {act : Read α} (h : Orderly act) (place : Place) : Orderly (Read.at_ place act) := by
  have hok : ∀ c p, Read.at_ place act c = .ok p ↔ act c = .ok p := by
    intro c p
    simp only [Read.at_]
    cases act c <;> simp [Except.mapError]
  refine ⟨?_, ?_⟩
  · intro rest a c hc
    exact h.sticky rest a c ((hok _ _).1 hc)
  · intro bytes a rest hc
    obtain ⟨used, rfl, hu⟩ := h.faithful bytes a rest ((hok _ _).1 hc)
    exact ⟨used, rfl, hu.at_ place⟩

theorem times {act : Read α} (h : Orderly act) (n : Nat) : Orderly (Read.times act n) := by
  induction n with
  | zero => exact pure []
  | succ n ih => exact h.bind fun a => ih.bind fun more => pure (a :: more)

end Orderly

end ClassAtlas.ClassFile
