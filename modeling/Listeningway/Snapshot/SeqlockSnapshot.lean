/- Listeningway/Snapshot/SeqlockSnapshot
   source: src/audio/snapshot/seqlock_snapshot.h
   digest: publish and read of the seqlock as atomic steps of one writer and many readers. -/

import Listeningway.Lib.Machine
import Mathlib.Data.Fintype.Basic
import Mathlib.Data.Fintype.Pi

/-!
The payload is copied word by word by both sides, in any order: memcpy promises
none. Steps are sequentially consistent, so the fences of the source leave no
trace here. The counter keeps its 64 bits.
-/

set_option autoImplicit false
set_option relaxedAutoImplicit false

namespace Listeningway.Snapshot.SeqlockSnapshot

open Listeningway.Lib.Machine

/-- The words of one AudioSnapshot. -/
abbrev Payload (n : ℕ) (α : Type) := Fin n → α

def kMaxSpin : ℕ := 4

/-- Arithmetic of `std::atomic<uint64_t>`. -/
def wrap (s : ℕ) : ℕ := s % 2 ^ 64

/-- Where the single writer stands inside `publish(snap)`; `s` is its loaded counter. -/
inductive Writer (n : ℕ) (α : Type) where
  | idle
  | loaded (snap : Payload n α) (s : ℕ)
  | copying (snap : Payload n α) (s : ℕ) (copied : Fin n → Bool)

/-- Where a reader stands inside `read()`: at the top of attempt `spin`, or
between the load of `s1` and the load of `s2`. -/
inductive Reader (n : ℕ) (α : Type) where
  | idle
  | spinning (spin : ℕ) (out : Payload n α)
  | copying (spin s1 : ℕ) (out : Payload n α) (copied : Fin n → Bool)

structure State (n : ℕ) (α ρ : Type) where
  seq : ℕ
  data : Payload n α
  writer : Writer n α
  readers : ρ → Reader n α

inductive Act (n : ℕ) (α ρ : Type) where
  | publish (snap : Payload n α)
  | storeOdd
  | storeWord (w : Fin n)
  | storeEven
  | read (r : ρ)
  | loadSeq (r : ρ)
  | copyWord (r : ρ) (w : Fin n)
  | validate (r : ρ)
  | giveUp (r : ρ)

/-- What can be seen from outside: a finished publish, a load of `s1`, and the
two ways `read()` returns. -/
inductive Event (n : ℕ) (α ρ : Type) where
  | published (snap : Payload n α)
  | loaded (r : ρ) (s1 : ℕ)
  | validated (r : ρ) (s1 : ℕ) (out : Payload n α)
  | exhausted (r : ρ) (out : Payload n α)

variable {n : ℕ} {α ρ : Type} [DecidableEq ρ]

/-- `seq_{0}`, `data_{}`; `zero` is the value-initialised AudioSnapshot. -/
def initial (zero : Payload n α) : State n α ρ where
  seq := 0
  data := zero
  writer := .idle
  readers _ := .idle

def State.setReader (s : State n α ρ) (r : ρ) (p : Reader n α) : State n α ρ :=
  { s with readers := Function.update s.readers r p }

/-- `SeqlockSnapshot::publish`, one atomic step at a time. -/
def publishStep (s : State n α ρ) :
    Act n α ρ → Option (State n α ρ × List (Event n α ρ))
  | .publish snap =>
    match s.writer with
    | .idle => some ({ s with writer := .loaded snap s.seq }, [])
    | _ => none
  | .storeOdd =>
    match s.writer with
    | .loaded snap q =>
      some ({ s with seq := wrap (q + 1), writer := .copying snap q fun _ => false }, [])
    | _ => none
  | .storeWord w =>
    match s.writer with
    | .copying snap q copied =>
      if copied w then none
      else some ({ s with
        data := Function.update s.data w (snap w)
        writer := .copying snap q (Function.update copied w true) }, [])
    | _ => none
  | .storeEven =>
    match s.writer with
    | .copying snap q copied =>
      if ∀ w, copied w then
        some ({ s with seq := wrap (q + 2), writer := .idle }, [.published snap])
      else none
    | _ => none
  | _ => none

/-- `SeqlockSnapshot::read`, one atomic step at a time. -/
def readStep (zero : Payload n α) (s : State n α ρ) :
    Act n α ρ → Option (State n α ρ × List (Event n α ρ))
  | .read r =>
    match s.readers r with
    | .idle => some (s.setReader r (.spinning 0 zero), [])
    | _ => none
  | .loadSeq r =>
    match s.readers r with
    | .spinning k out =>
      if k < kMaxSpin then
        -- an odd counter is the writer in mid-update: `continue`
        if s.seq % 2 = 1 then some (s.setReader r (.spinning (k + 1) out), [.loaded r s.seq])
        else some (s.setReader r (.copying k s.seq out fun _ => false), [.loaded r s.seq])
      else none
    | _ => none
  | .copyWord r w =>
    match s.readers r with
    | .copying k s1 out copied =>
      if copied w then none
      else some (s.setReader r (.copying k s1 (Function.update out w (s.data w))
        (Function.update copied w true)), [])
    | _ => none
  | .validate r =>
    match s.readers r with
    | .copying k s1 out copied =>
      if ∀ w, copied w then
        if s1 = s.seq then some (s.setReader r .idle, [.validated r s1 out])
        else some (s.setReader r (.spinning (k + 1) out), [])
      else none
    | _ => none
  | .giveUp r =>
    match s.readers r with
    | .spinning k out =>
      -- the source returns whatever was copied last, or the default object
      if k < kMaxSpin then none else some (s.setReader r .idle, [.exhausted r out])
    | _ => none
  | _ => none

/-- One step of the writer or of some reader. -/
def step (zero : Payload n α) : Step (State n α ρ) (Act n α ρ) (Event n α ρ) :=
  fun s a => (publishStep s a).orElse fun _ => readStep zero s a

/-- The snapshots that exist so far, by publish number; number 0 is the initial one. -/
def snapshots (zero : Payload n α) (as : List (Act n α ρ)) : List (Payload n α) :=
  zero :: as.filterMap fun
    | .publish snap => some snap
    | _ => none

/-- The finished publishes, in order. -/
def published (os : List (Event n α ρ)) : List (Payload n α) :=
  os.filterMap fun
    | .published snap => some snap
    | _ => none

end Listeningway.Snapshot.SeqlockSnapshot
