/- Listeningway/Dsp/Cmath
   source: the parts of <cmath>, std::chrono and kiss_fft that src/audio/dsp uses
   digest: The arithmetic of the DSP code over a field K, with the reals as the exact instance. -/

import Mathlib.Algebra.Order.Floor.Defs
import Mathlib.Analysis.SpecialFunctions.Complex.Arg
import Mathlib.Analysis.SpecialFunctions.Pow.Real
import Mathlib.Analysis.SpecialFunctions.Trigonometric.Basic

set_option autoImplicit false
set_option relaxedAutoImplicit false

namespace Listeningway.Dsp

/-- The transcendental functions of `<cmath>`. -/
class Cmath (K : Type) where
  sqrt : K → K
  exp : K → K
  log : K → K
  log10 : K → K
  pow : K → K → K
  cos : K → K
  sin : K → K
  atan2 : K → K → K
  pi : K

noncomputable instance : Cmath ℝ where
  sqrt := Real.sqrt
  exp := Real.exp
  log := Real.log
  log10 x := Real.log x / Real.log 10
  pow := fun x y => x ^ y
  cos := Real.cos
  sin := Real.sin
  atan2 y x := Complex.arg ⟨x, y⟩
  pi := Real.pi

/-- The literal of the source is the numeral of the library. -/
theorem two_eq : (2.0 : ℝ) = 2 := by norm_num

/-- kissfft, which is not part of the repository: whether a plan of a size can be
allocated, and the transforms of that size as pairs of real and imaginary part. -/
class KissFft (K : Type) where
  alloc : ℕ → Bool
  fft : (n : ℕ) → (Fin n → K × K) → Fin n → K × K
  fftInverse : (n : ℕ) → (Fin n → K × K) → Fin n → K × K

/-- The exact transforms; like kissfft, the inverse is not scaled. -/
noncomputable instance : KissFft ℝ where
  alloc _ := true
  fft n x k :=
    let angle (j : Fin n) : ℝ := 2 * Real.pi * j * k / n
    (∑ j, ((x j).1 * Real.cos (angle j) + (x j).2 * Real.sin (angle j)),
      ∑ j, ((x j).2 * Real.cos (angle j) - (x j).1 * Real.sin (angle j)))
  fftInverse n x k :=
    let angle (j : Fin n) : ℝ := 2 * Real.pi * j * k / n
    (∑ j, ((x j).1 * Real.cos (angle j) - (x j).2 * Real.sin (angle j)),
      ∑ j, ((x j).2 * Real.cos (angle j) + (x j).1 * Real.sin (angle j)))

section Rounding

variable {K : Type} [Field K] [LinearOrder K] [FloorRing K]

/-- `std::round`: halves go away from zero. -/
def roundAway (x : K) : ℤ :=
  if 0 ≤ x then ⌊x + 0.5⌋ else ⌈x - 0.5⌉

/-- Conversion of a non-negative float to `size_t`. -/
def truncate (x : K) : ℕ := ⌊x⌋.toNat

/-- `std::floor` with a float result. -/
def floorPart (x : K) : K := (⌊x⌋ : ℤ)

/-- `std::fmod`: the quotient is cut towards zero. -/
def fmod (x y : K) : K :=
  x - y * ((if 0 ≤ x / y then ⌊x / y⌋ else ⌈x / y⌉ : ℤ) : K)

end Rounding

section Time

variable {K : Type} [Field K]

/-- Ticks of `steady_clock`, in nanoseconds since its epoch. -/
abbrev TimePoint := ℤ

/-- `std::chrono::duration<float>(now - last).count()`. -/
def seconds (now last : TimePoint) : K := ((now - last : ℤ) : K) / 1000000000.0

/-- The frame interval; before the first frame `last` is the epoch itself. -/
def frameInterval (first : K) (now last : TimePoint) : K :=
  if last = 0 then first else seconds now last

end Time

end Listeningway.Dsp
