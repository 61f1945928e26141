import ClassAtlas.Failure
import ClassAtlas.File.Disk
import ClassAtlas.Log.Record
import ClassAtlas.Time.Moment

/-!
What the steps of an analysis share: the disk they read and write, the environment, whether the user
has asked to stop, and the reports made so far. Whatever else a caller brings along, such as a
store, is in `outside`. A step that fails keeps what it has done to the session.
-/
namespace ClassAtlas

/-- How often one may still ask before the answer is that the user wants to stop. -/
structure Patience where
  remaining : Option Nat
  deriving DecidableEq, Repr

namespace Patience

/-- The user never asks to stop. -/
def endless : Patience := ⟨none⟩

/-- The user has asked already. -/
def exhausted : Patience := ⟨some 0⟩

def isExhausted (p : Patience) : Bool := p.remaining == some 0

/-- Asking once uses up some patience. -/
def ask (p : Patience) : Patience := ⟨p.remaining.map (· - 1)⟩

end Patience

structure Session (σ : Type) where
  disk : File.Disk
  environment : List (String × String)
  patience : Patience
  journal : List Log.Record
  /-- What time it is. -/
  clock : Time.Moment
  /-- The names for new things, and how many are taken. -/
  identifiers : Nat → String
  issued : Nat
  outside : σ

/-- The same session with something else outside. -/
def Session.withOutside (s : Session σ) (outside : τ) : Session τ :=
  ⟨s.disk, s.environment, s.patience, s.journal, s.clock, s.identifiers, s.issued, outside⟩

abbrev Act (σ : Type) := ExceptT Failure (StateM (Session σ))

namespace Act

variable {σ α : Type}

def session : Act σ (Session σ) := fun s => (.ok s, s)

def disk : Act σ File.Disk := fun s => (.ok s.disk, s)

def setDisk (d : File.Disk) : Act σ Unit := fun s => (.ok (), { s with disk := d })

def log (r : Log.Record) : Act σ Unit := fun s => (.ok (), { s with journal := s.journal ++ [r] })

def logAll (rs : List Log.Record) : Act σ Unit :=
  fun s => (.ok (), { s with journal := s.journal ++ rs })

/-- What time it is. Every look at the clock takes a little of it. -/
def now : Act σ Time.Moment := fun s => (.ok s.clock, { s with clock := s.clock.tick })

/-- A name that has not been given out before. -/
def freshIdentifier : Act σ String := fun s =>
  (.ok (s.identifiers s.issued), { s with issued := s.issued + 1 })

def fail (f : Failure) : Act σ α := fun s => (.error f, s)

def lift (x : Except Failure α) : Act σ α := fun s => (x, s)

/-- Stop here if the user has asked to. -/
def checkpoint : Act σ Unit := fun s =>
  if s.patience.isExhausted then (.error .cancelled, s)
  else (.ok (), { s with patience := s.patience.ask })

/-- Stop here if the user has asked to, with a failure that says what was being done. -/
def checkpointFor (describe : Failure → Failure) : Act σ Unit := fun s =>
  if s.patience.isExhausted then (.error (describe .cancelled), s)
  else (.ok (), { s with patience := s.patience.ask })

/-- Run a step and hand on its outcome instead of failing. -/
def attempt (act : Act σ α) : Act σ (Except Failure α) := fun s =>
  let (outcome, s) := act s
  (.ok outcome, s)

/-- Run a step, and describe its failure. -/
def describing (describe : Failure → Failure) (act : Act σ α) : Act σ α := fun s =>
  let (outcome, s) := act s
  (outcome.mapError describe, s)

/-- Run a step as if the user had never asked to stop. -/
def patiently (act : Act σ α) : Act σ α := fun s =>
  let (outcome, t) := act { s with patience := .endless }
  (outcome, { t with patience := s.patience })

/-- A step on a part of what is outside. -/
def focus (get : σ → τ) (put : τ → σ → σ) (act : Act τ α) : Act σ α := fun s =>
  let (outcome, t) := act (s.withOutside (get s.outside))
  (outcome, t.withOutside (put t.outside s.outside))

end Act

/-- A failure of the disk as a failure of the program. -/
def File.Fault.toFailure (f : File.Fault) : Failure := .plain f.message

end ClassAtlas
