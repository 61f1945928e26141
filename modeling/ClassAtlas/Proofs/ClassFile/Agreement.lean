import ClassAtlas.Proofs.ClassFile.InPlace
import ClassAtlas.Proofs.ClassFile.Reads

/-!
Reading in place agrees with reading from the front. What an in-place run does is what the same read
does on the bytes that are left: it always has a result, the result is the same value or fault, and the
position only moves on and stays within the bytes.
-/
namespace ClassAtlas.ClassFile.InPlace

theorem wordAt?_eq {data : List UInt8} {i n : Nat} (h : i + n ≤ data.length) :
    wordAt? data i n = some ((data.drop i).take n) := by
  induction n generalizing i with
  | zero => simp [wordAt?]
  | succ n ih =>
    have hi : i < data.length := by omega
    rw [wordAt?, List.getElem?_eq_getElem hi, ih (by omega), List.drop_eq_getElem_cons hi]
    rfl

/-- What is left of the bytes, as a cursor. -/
def Reader.cursor (r : Reader) : Cursor := ⟨r.data.drop r.pos, r.failed⟩

@[simp] theorem Reader.cursor_start (data : List UInt8) :
    (Reader.start data).cursor = Cursor.start data := rfl

/-- The position is within the bytes, with fewer than so many left. -/
structure Reader.Within (r : Reader) (bound : Nat) : Prop where
  inside : r.pos ≤ r.data.length
  left : r.data.length < r.pos + bound

/-- The same bytes, at a position that is no earlier and still within them. -/
structure Reader.MovesTo (r r' : Reader) : Prop where
  data : r'.data = r.data
  forward : r.pos ≤ r'.pos
  inside : r'.pos ≤ r.data.length

namespace Reader

theorem within_start (data : List UInt8) : (start data).Within (data.length + 1) :=
  ⟨Nat.zero_le _, by simp [start]⟩

theorem MovesTo.refl {r : Reader} (h : r.pos ≤ r.data.length) : r.MovesTo r := ⟨rfl, le_rfl, h⟩

theorem MovesTo.trans {r r' r'' : Reader} (h : r.MovesTo r') (h' : r'.MovesTo r'') :
    r.MovesTo r'' :=
  ⟨h'.data.trans h.data, h.forward.trans h'.forward, h.data ▸ h'.inside⟩

theorem MovesTo.within {r r' : Reader} {bound : Nat} (h : r.MovesTo r') (hr : r.Within bound) :
    r'.Within bound := by
  have hlen : r'.data.length = r.data.length := by rw [h.data]
  exact ⟨hlen ▸ h.inside, by have := h.forward; have := hr.left; omega⟩

end Reader

/-- From here a run and a read do the same. -/
def AgreesAt (r : Reader) (x : Run α) (y : Read α) : Prop :=
  (∃ a r', x r = some (.ok (a, r')) ∧ y r.cursor = .ok (a, r'.cursor) ∧ r.MovesTo r') ∨
  (∃ f, x r = some (.error f) ∧ y r.cursor = .error f)

/-- A run and a read do the same wherever fewer than so many bytes are left. -/
def Agrees (bound : Nat) (x : Run α) (y : Read α) : Prop := ∀ r, r.Within bound → AgreesAt r x y

theorem Run.bind_ok {x : Run α} {r r' : Reader} {a : α} (h : x r = some (.ok (a, r')))
    (f : α → Run β) : (x >>= f) r = f a r' := by
  change Option.bind (x r) _ = _
  rw [h]
  rfl

theorem Run.bind_error {x : Run α} {r : Reader} {e : Fault} (h : x r = some (.error e))
    (f : α → Run β) : (x >>= f) r = some (.error e) := by
  change Option.bind (x r) _ = _
  rw [h]
  rfl

theorem AgreesAt.bind {r : Reader} {x : Run α} {y : Read α} {f : α → Run β} {g : α → Read β}
    (h : AgreesAt r x y)
    (hf : ∀ a r', y r.cursor = .ok (a, r'.cursor) → r.MovesTo r' → AgreesAt r' (f a) (g a)) :
    AgreesAt r (x >>= f) (y >>= g) := by
  rcases h with ⟨a, r', hx, hy, hmove⟩ | ⟨e, hx, hy⟩
  · have hrest := hf a r' hy hmove
    unfold AgreesAt
    rw [Run.bind_ok hx, Read.bind_apply, hy]
    rcases hrest with ⟨b, r'', hx', hy', hmove'⟩ | ⟨e, hx', hy'⟩
    · exact .inl ⟨b, r'', hx', hy', hmove.trans hmove'⟩
    · exact .inr ⟨e, hx', hy'⟩
  · unfold AgreesAt
    rw [Run.bind_error hx, Read.bind_apply, hy]
    exact .inr ⟨e, rfl, rfl⟩

namespace Agrees

variable {bound : Nat}

theorem pure (a : α) : Agrees bound (Pure.pure a) (Pure.pure a) :=
  fun r hr => .inl ⟨a, r, rfl, rfl, .refl hr.inside⟩

theorem bind {x : Run α} {y : Read α} {f : α → Run β} {g : α → Read β} (h : Agrees bound x y)
    (hf : ∀ a, Agrees bound (f a) (g a)) : Agrees bound (x >>= f) (y >>= g) :=
  fun r hr => (h r hr).bind fun a r' _ hmove => hf a r' (hmove.within hr)

theorem map {x : Run α} {y : Read α} (h : Agrees bound x y) (g : α → β) :
    Agrees bound (do return g (← x)) (do return g (← y)) :=
  h.bind fun _ => .pure _

theorem fail (f : Fault) : Agrees bound (Run.fail f : Run α) (Read.fail f) :=
  fun _ _ => .inr ⟨f, rfl, rfl⟩

theorem settled : Agrees bound Run.settled Read.settled := by
  intro r hr
  cases hfailed : r.failed with
  | true =>
    exact .inr ⟨.truncated, by simp [Run.settled, hfailed],
      by simp [Read.settled, Reader.cursor, hfailed]⟩
  | false =>
    exact .inl ⟨(), r, by simp [Run.settled, hfailed],
      by simp [Read.settled, Reader.cursor, hfailed], .refl hr.inside⟩

theorem lift {x : Partial α} {y : Except Fault α} (h : x = some y) :
    Agrees bound (Run.lift x) (Read.lift y) := by
  subst h
  intro r hr
  cases y with
  | error e => exact .inr ⟨e, rfl, rfl⟩
  | ok a => exact .inl ⟨a, r, rfl, rfl, .refl hr.inside⟩

theorem at_ {x : Run α} {y : Read α} (h : Agrees bound x y) (place : Place) :
    Agrees bound (Run.at_ place x) (Read.at_ place y) := by
  intro r hr
  rcases h r hr with ⟨a, r', hx, hy, hmove⟩ | ⟨e, hx, hy⟩
  · exact .inl ⟨a, r', by simp [Run.at_, hx, Except.mapError], by simp [Read.at_, hy, Except.mapError],
      hmove⟩
  · exact .inr ⟨.within place e, by simp [Run.at_, hx, Except.mapError],
      by simp [Read.at_, hy, Except.mapError]⟩

/-- What is done with a value afterwards may be done inside. -/
theorem lift_map {x : Run α} {y : Except Fault α} (h : Agrees bound x (Read.lift y))
    (g : α → β) : Agrees bound (do return g (← x)) (Read.lift (do return g (← y))) := by
  have hmap : Read.lift (do return g (← y)) = (do return g (← Read.lift y)) := by
    funext c
    cases y <;> rfl
  rw [hmap]
  exact h.map g

theorem lift_at {x : Run α} {y : Except Fault α} (h : Agrees bound x (Read.lift y))
    (place : Place) : Agrees bound (Run.at_ place x) (Read.lift (y.mapError (.within place))) := by
  have hat : Read.lift (y.mapError (.within place)) = Read.at_ place (Read.lift y) := by
    funext c
    cases y <;> rfl
  rw [hat]
  exact h.at_ place

theorem times {x : Run α} {y : Read α} (h : Agrees bound x y) (n : Nat) :
    Agrees bound (Run.times x n) (Read.times y n) := by
  induction n with
  | zero => exact .pure []
  | succ n ih => exact h.bind fun _ => ih.map _

/-- A block is read from its own start, whatever is left around it. -/
theorem nested {block : List UInt8} {x : Run α} {y : Read α} (h : Agrees (block.length + 1) x y) :
    Agrees bound (Run.nested block x) (Read.lift (readBlock y block)) := by
  intro r hr
  rcases h (.start block) (Reader.within_start block) with ⟨a, r', hx, hy, -⟩ | ⟨e, hx, hy⟩ <;>
    rw [Reader.cursor_start] at hy
  · exact .inl ⟨a, r, by simp [Run.nested, hx, Except.map],
      by simp [Read.lift, readBlock, hy, Except.map], .refl hr.inside⟩
  · exact .inr ⟨e, by simp [Run.nested, hx, Except.map],
      by simp [Read.lift, readBlock, hy, Except.map]⟩

/-- Bytes that are all there are taken, and the position moves behind them. If some are missing,
the reader fails where it is. -/
theorem fetch (get : Reader → Option (List UInt8)) (n : Nat)
    (hget : ∀ r : Reader, r.pos + n ≤ r.data.length → get r = some ((r.data.drop r.pos).take n)) :
    Agrees bound (do
      if ← Run.need n then
        let r ← Run.reader
        let bytes ← Run.lift (must (get r))
        Run.moveTo (r.pos + n)
        return bytes
      else return []) (Read.bytes n) := by
  intro r hr
  have hinside := hr.inside
  unfold AgreesAt
  cases hfailed : r.failed with
  | true =>
    have hneed : Run.need n r = some (.ok (false, r)) := by simp [Run.need, hfailed]
    rw [Run.bind_ok hneed]
    exact .inl ⟨[], r, rfl, by simp [Read.bytes, Reader.cursor, hfailed], .refl hinside⟩
  | false =>
    by_cases hroom : r.data.length < r.pos + n
    · have hneed : Run.need n r = some (.ok (false, { r with failed := true })) := by
        simp [Run.need, hfailed, hroom]
      have hnone : takeExactly? n (r.data.drop r.pos) = none := by
        rw [takeExactly?_eq, if_neg (by rw [List.length_drop]; omega)]
      rw [Run.bind_ok hneed]
      exact .inl ⟨[], { r with failed := true }, rfl,
        by simp [Read.bytes, Reader.cursor, hfailed, hnone], ⟨rfl, le_rfl, hinside⟩⟩
    · have hneed : Run.need n r = some (.ok (true, r)) := by simp [Run.need, hfailed, hroom]
      have hreader : Run.reader r = some (.ok (r, r)) := rfl
      have hbytes : Run.lift (must (get r)) r = some (.ok ((r.data.drop r.pos).take n, r)) := by
        rw [hget r (by omega)]
        rfl
      have hmove : Run.moveTo (r.pos + n) r = some (.ok ((), { r with pos := r.pos + n })) :=
        if_pos ⟨by omega, by omega⟩
      have htake : takeExactly? n (r.data.drop r.pos) =
          some ((r.data.drop r.pos).take n, r.data.drop (r.pos + n)) := by
        rw [takeExactly?_eq, if_pos (by rw [List.length_drop]; omega), List.drop_drop]
      rw [Run.bind_ok hneed]
      simp only [if_true]
      rw [Run.bind_ok hreader, Run.bind_ok hbytes, Run.bind_ok hmove]
      exact .inl ⟨(r.data.drop r.pos).take n, { r with pos := r.pos + n }, rfl,
        by simp [Read.bytes, Reader.cursor, hfailed, htake],
        ⟨rfl, Nat.le_add_right _ _, by simp only; omega⟩⟩

theorem word (n : Nat) : Agrees bound (Run.word n) (Read.bytes n) :=
  fetch (fun r => wordAt? r.data r.pos n) n fun _ h => wordAt?_eq h

theorem slice (n : Nat) : Agrees bound (Run.slice n) (Read.bytes n) :=
  fetch (fun r => slice? r.data r.pos (r.pos + n)) n fun r h => by
    rw [slice?, if_pos ⟨Nat.le_add_right _ _, h⟩, Nat.add_sub_cancel_left]

theorem number (n : Nat) : Agrees bound (Run.number n) (Read.number n) := (word n).map _

theorem u1 : Agrees bound Run.u1 Read.u1 := number 1

theorem u2 : Agrees bound Run.u2 Read.u2 := number 2

theorem u4 : Agrees bound Run.u4 Read.u4 := number 4

/-- Behind a byte that was there, one fewer is left. -/
theorem behind_u1 {f : Nat → Run α} {g : Nat → Read α} (hf : ∀ tag, Agrees bound (f tag) (g tag)) :
    Agrees (bound + 1) (do let tag ← Run.u1; Run.settled; f tag)
      (do let tag ← Read.u1; Read.settled; g tag) := by
  intro r hr
  refine (u1 r hr).bind fun tag r' htag hmove => ?_
  refine (settled r' (hmove.within hr)).bind fun _ r'' hsettled hmove' => hf tag r'' ?_
  obtain ⟨hclear, hsame⟩ : r'.cursor.overrun = false ∧ r'.cursor = r''.cursor := by
    simp only [Read.settled] at hsettled
    split at hsettled
    · cases hsettled
    · exact ⟨by simp_all, congrArg Prod.snd (Except.ok.inj hsettled)⟩
  obtain ⟨front, c, hbytes, hnumber⟩ := Read.bind_eq_ok.1 htag
  obtain rfl : c = r'.cursor := congrArg Prod.snd (Except.ok.inj hnumber)
  obtain ⟨hfront, hlen⟩ := Read.bytes_eq_ok hbytes hclear
  have hleft : r.data.length - r.pos = 1 + (r.data.length - r''.pos) := by
    have := congrArg (fun c => c.rest.length) hfront
    rw [hsame] at this
    simpa [Reader.cursor, hlen, (hmove.trans hmove').data] using this
  have hwithin := (hmove.trans hmove').within hr
  have := hr.left
  have := (hmove.trans hmove').inside
  exact ⟨hwithin.inside, by rw [(hmove.trans hmove').data]; omega⟩

end Agrees

end ClassAtlas.ClassFile.InPlace
