/- Listeningway/Dsp/Beat/Odf
   source: src/audio/dsp/beat/odf_csd.cpp; src/audio/dsp/beat/odf_buffer.cpp
   digest: The onset detection function and its history. -/

import Listeningway.Dsp.Cmath
import Mathlib.Algebra.BigOperators.Group.Finset.Basic

set_option autoImplicit false
set_option relaxedAutoImplicit false

namespace Listeningway.Dsp

variable {K : Type} [Field K] [LinearOrder K]

/-! ### OdfCsd -/

structure OdfCsd (K : Type) where
  prevMag : List K
  prevPhase : List K
  prevPhase2 : List K
  warmedUp : Bool
  framesSeen : ℕ

namespace OdfCsd

def initial : OdfCsd K := ⟨[], [], [], false, 0⟩

/-- The vectors keep their length. -/
def reset (st : OdfCsd K) : OdfCsd K where
  prevMag := st.prevMag.map fun _ => 0
  prevPhase := st.prevPhase.map fun _ => 0
  prevPhase2 := st.prevPhase2.map fun _ => 0
  warmedUp := false
  framesSeen := 0

def ensureSize (st : OdfCsd K) (n : ℕ) : OdfCsd K :=
  if st.prevMag.length = n then st
  else ⟨List.replicate n 0, List.replicate n 0, List.replicate n 0, false, 0⟩

/-- Distance to the predicted bin, for bins whose magnitude rose. -/
def rise [Cmath K] (mag prevMag phase prevPhase prevPhase2 : K) : K :=
  if 0 < mag - prevMag then
    Cmath.sqrt (mag * mag + prevMag * prevMag -
      2.0 * mag * prevMag * Cmath.cos (phase - 2.0 * prevPhase + prevPhase2))
  else 0

def process [Cmath K] (st : OdfCsd K) (magnitudes phases : List K) : OdfCsd K × K :=
  let n := min magnitudes.length phases.length
  if n = 0 then (st, 0)
  else
    let st := st.ensureSize n
    let next : OdfCsd K :=
      { st with
        prevMag := magnitudes.take n
        prevPhase := phases.take n
        prevPhase2 := st.prevPhase }
    if st.warmedUp then
      (next, ∑ k ∈ Finset.range n, rise (magnitudes.getD k 0) (st.prevMag.getD k 0)
        (phases.getD k 0) (st.prevPhase.getD k 0) (st.prevPhase2.getD k 0))
    else
      ({ next with
          framesSeen := st.framesSeen + 1
          warmedUp := decide (2 ≤ st.framesSeen + 1) }, 0)

end OdfCsd

/-! ### OdfBuffer -/

namespace OdfBuffer

def kCapacity : ℕ := 1024

def kSnapshotLength : ℕ := 512

def kSnapshotSeconds : K := 5.95

end OdfBuffer

structure OdfBuffer (K : Type) where
  ring : Fin OdfBuffer.kCapacity → K
  head : Fin OdfBuffer.kCapacity
  size : ℕ

namespace OdfBuffer

def initial : OdfBuffer K := ⟨fun _ => 0, ⟨0, by decide⟩, 0⟩

def reset (_ : OdfBuffer K) : OdfBuffer K := initial

def push (st : OdfBuffer K) (odf : K) : OdfBuffer K where
  ring := Function.update st.ring st.head odf
  head := ⟨(st.head + 1) % kCapacity, Nat.mod_lt _ (by decide)⟩
  size := if st.size < kCapacity then st.size + 1 else st.size

variable [FloorRing K]

/-- `want_in`. -/
def wantIn (hopRateHz : K) : ℕ := (roundAway (kSnapshotSeconds * hopRateHz)).toNat

/-- Sample `i` of the window of the last `avail` samples. -/
def linear (st : OdfBuffer K) (avail i : ℕ) : K :=
  st.ring ⟨((st.head + kCapacity - avail) % kCapacity + i) % kCapacity,
    Nat.mod_lt _ (by decide)⟩

/-- Whether the window is filled far enough, and the window resampled to its
canonical length. -/
def snapshotTo (st : OdfBuffer K) (hopRateHz : K) : Bool × (Fin kSnapshotLength → K) :=
  if hopRateHz ≤ 0 then (false, fun _ => 0)
  else if wantIn hopRateHz = 0 ∨ st.size = 0 then (false, fun _ => 0)
  else
    let avail := min (wantIn hopRateHz) (min st.size kCapacity)
    if avail = 1 then (true, fun _ => linear st avail 0)
    else
      let scale : K := ((avail - 1 : ℕ) : K) / ((kSnapshotLength - 1 : ℕ) : K)
      (decide (kSnapshotLength / 2 ≤ avail), fun j =>
        let src := ((j : ℕ) : K) * scale
        let src0 := truncate (floorPart src)
        let src1 := min (src0 + 1) (avail - 1)
        let frac := src - (src0 : K)
        linear st avail src0 * (1 - frac) + linear st avail src1 * frac)

end OdfBuffer

end Listeningway.Dsp
