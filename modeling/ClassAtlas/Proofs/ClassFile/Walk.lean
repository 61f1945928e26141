import ClassAtlas.ClassFile.Decode
import ClassAtlas.Proofs.ClassFile.Reads

/-!
Walks over a class file: they read and report events on the way. A walk takes some bytes and reports
some events if it does so whatever follows these bytes.
-/
namespace ClassAtlas.ClassFile

namespace Trace

@[simp] theorem ofExcept_ok_bind (a : α) (f : α → Trace β) : (ofExcept (.ok a) >>= f) = f a := rfl

@[simp] theorem ofExcept_error_bind (e : Fault) (f : α → Trace β) :
    (ofExcept (.error e) >>= f) = ⟨[], .error e⟩ := rfl

theorem bind_ok {t : Trace α} {a : α} (h : t.outcome = .ok a) (f : α → Trace β) :
    t >>= f = ⟨t.events ++ (f a).events, (f a).outcome⟩ := by
  change t.bind f = _
  simp [Trace.bind, h]

theorem bind_error {t : Trace α} {e : Fault} (h : t.outcome = .error e) (f : α → Trace β) :
    t >>= f = ⟨t.events, .error e⟩ := by
  change t.bind f = _
  simp [Trace.bind, h]

theorem bind_assoc (t : Trace α) (f : α → Trace β) (g : β → Trace γ) :
    t >>= f >>= g = t >>= fun a => f a >>= g := by
  cases ht : t.outcome with
  | error e => rw [bind_error ht, bind_error ht]; rfl
  | ok a =>
    rw [bind_ok ht, bind_ok ht]
    cases hf : (f a).outcome with
    | error e => rw [bind_error hf, bind_error rfl]
    | ok b => rw [bind_ok hf, bind_ok rfl, List.append_assoc]

theorem bind_outcome_eq_ok {t : Trace α} {f : α → Trace β} {b : β} :
    (t >>= f).outcome = .ok b ↔ ∃ a, t.outcome = .ok a ∧ (f a).outcome = .ok b := by
  cases h : t.outcome with
  | error e => simp [bind_error h]
  | ok a => simp [bind_ok h]

/-- What comes after a walk adds to its events. -/
theorem events_bind (t : Trace α) (f : α → Trace β) : t.events <+: (t >>= f).events := by
  cases h : t.outcome with
  | error e => rw [bind_error h]
  | ok a => simp [bind_ok h]

end Trace

/-- The bytes are what a walk takes to report some events, whatever follows them. -/
def Walks (t : Cursor → Trace Cursor) (bytes : List UInt8) (events : List Event) : Prop :=
  ∀ rest, t ⟨bytes ++ rest, false⟩ = ⟨events, .ok ⟨rest, false⟩⟩

theorem walks_stop : Walks pure [] [] := fun _ => rfl

theorem Walks.andThen {t u : Cursor → Trace Cursor} {bytes more : List UInt8}
    {events later : List Event} (ht : Walks t bytes events) (hu : Walks u more later) :
    Walks (fun c => t c >>= u) (bytes ++ more) (events ++ later) := by
  intro rest
  dsimp only
  rw [List.append_assoc, ht, Trace.bind_ok rfl, hu]

/-- Events that do not depend on the bytes may come first. -/
theorem Walks.report {t : Cursor → Trace Cursor} {bytes : List UInt8} {events : List Event}
    (h : Walks t bytes events) {g : Trace Unit} (hg : g.outcome = .ok ()) :
    Walks (fun c => g >>= fun _ => t c) bytes (g.events ++ events) := by
  intro rest
  dsimp only
  rw [Trace.bind_ok hg, h]

/-- A walk may start by reading something. -/
theorem Reads.walks {act : Read α} {f : α → Cursor → Trace Cursor} {bytes more : List UInt8} {a : α}
    {events : List Event} (ha : Reads act bytes a) (hf : Walks (f a) more events) :
    Walks (fun c => Trace.ofExcept (act c) >>= fun p => f p.1 p.2) (bytes ++ more) events := by
  intro rest
  dsimp only
  rw [List.append_assoc, ha, Trace.ofExcept_ok_bind, hf]

/-- The members and attributes of a class, with what is left of the bytes at the end. -/
def traceMembers (interest : Interest) (pool : ConstantPool) (c : Cursor) : Trace Cursor := do
  let (fieldCount, c) ← Trace.ofExcept (Read.u2 c)
  let c ← traceFields pool fieldCount 0 c
  let (methodCount, c) ← Trace.ofExcept (Read.u2 c)
  let c ← traceMethods interest pool methodCount 0 c
  let (attributes, c) ← Trace.ofExcept (Read.at_ .classAttributes (readClassAttributes pool) c)
  Trace.emit (.finish attributes)
  return c

/-- A class file, with what is left of the bytes at the end. -/
def traceClass (interest : Interest) (c : Cursor) : Trace Cursor := do
  let ((pool, header), c) ← Trace.ofExcept (readHeader c)
  Trace.emit (.header header)
  if interest.members header then traceMembers interest pool c else pure c

/-- Reading a class file forgets what is left of the bytes. -/
theorem decode_eq (interest : Interest) (bytes : List UInt8) :
    decode interest bytes = traceClass interest (Cursor.start bytes) >>= fun _ => pure () := by
  unfold decode traceClass traceMembers
  rw [Trace.bind_assoc]
  congr 1
  funext ⟨⟨pool, header⟩, c⟩
  dsimp only
  rw [Trace.bind_assoc]
  congr 1
  funext _
  cases interest.members header with
  | false => rfl
  | true =>
    simp only [if_true, Trace.bind_assoc]
    rfl

end ClassAtlas.ClassFile
