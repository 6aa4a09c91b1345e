/- Listeningway/Output/ChaseRotation
   source: src/output/openrgb_patterns/linear_patterns.cpp, pattern_common.cpp
   digest: The chase comet turns with the phase, one LED for each n-th part of a turn. -/

import Listeningway.Output.LinearPatterns
import Mathlib.Algebra.Order.Floor.Ring
import Mathlib.Data.Rat.Floor

set_option autoImplicit false
set_option relaxedAutoImplicit false

namespace Listeningway.Output.Patterns.Linear

open Listeningway.Dsp
open Listeningway.Lib.SpanWrites
open Listeningway.Snapshot

variable {K : Type} [Field K] [LinearOrder K] [FloorRing K]

/-- The comet at a distance `d` behind its head. -/
def comet (brightness d : K) : ColorRgb :=
  if 4.0 < d then .black
  else applyBrightness (hsvToRgb 0.55 0.85 (clamp01 (1 - d / 4.0))) brightness

/-- The part of a turn from LED `i` of `n` forwards to the head. -/
def behind (phase : K) (n i : ℕ) : K := Int.fract (phase - (i : K) / (n : K))

section Distance

variable [IsStrictOrderedRing K]

theorem distance_eq (phase : K) {n i : ℕ} (inside : i < n) :
    (if Int.fract phase * n - i < 0 then Int.fract phase * n - i + n
      else Int.fract phase * n - i) = behind phase n i * n := by
  have strip : (0 : K) < n := Nat.cast_pos.mpr (Nat.zero_lt_of_lt inside)
  have place : (i : K) < n := Nat.cast_lt.mpr inside
  have index : (0 : K) ≤ i := Nat.cast_nonneg i
  have low := mul_nonneg (Int.fract_nonneg phase) strip.le
  have high : Int.fract phase * n < n := mul_lt_of_lt_one_left strip (Int.fract_lt_one phase)
  rw [← div_eq_iff strip.ne', eq_comm, behind, Int.fract_eq_iff, le_div_iff₀ strip, zero_mul,
    div_lt_one strip]
  have cancel : Int.fract phase * n / n = Int.fract phase := mul_div_cancel_right₀ _ strip.ne'
  split_ifs with ahead
  · refine ⟨by linarith, by linarith, ⌊phase⌋ - 1, ?_⟩
    rw [add_div, sub_div, cancel, div_self strip.ne', Int.fract]
    push_cast
    ring
  · refine ⟨not_lt.mp ahead, by linarith, ⌊phase⌋, ?_⟩
    rw [sub_div, cancel, Int.fract]
    ring

theorem behind_add_one (phase : K) (n i : ℕ) : behind (phase + 1) n i = behind phase n i := by
  rw [behind, add_sub_right_comm, Int.fract_add_one, behind]

theorem behind_next (phase : K) {n i : ℕ} (inside : i < n) :
    behind (phase + 1 / n) n ((i + 1) % n) = behind phase n i := by
  have strip : (n : K) ≠ 0 := Nat.cast_ne_zero.mpr (Nat.ne_zero_of_lt inside)
  rcases Nat.lt_or_ge (i + 1) n with within | seam
  · rw [Nat.mod_eq_of_lt within, behind, behind]
    congr 1
    push_cast
    ring
  · have last : i + 1 = n := by omega
    have turn : phase - (i : K) / n + 1 = phase + 1 / n := by
      have index : (i : K) = n - 1 := by
        rw [← last]
        push_cast
        ring
      rw [index, sub_div, div_self strip]
      ring
    rw [last, Nat.mod_self, behind, behind, Nat.cast_zero, zero_div, sub_zero, ← turn,
      Int.fract_add_one]

theorem renderChaseOrbit_eq (snap : AudioSnapshot K) (out : List ColorRgb) (brightness : K) :
    renderChaseOrbit snap out brightness =
      some ((List.range out.length).map fun i =>
        comet brightness (behind snap.phaseVolume out.length i * out.length)) := by
  have loop := foldlM_store_range (fun i => comet brightness
    (if Int.fract snap.phaseVolume * out.length - i < 0 then
      Int.fract snap.phaseVolume * out.length - i + out.length
    else Int.fract snap.phaseVolume * out.length - i)) (rfl : out.length = out.length)
  refine (show renderChaseOrbit snap out brightness = some _ from loop).trans ?_
  congr 1
  apply List.map_congr_left
  intro i listed
  rw [distance_eq _ (List.mem_range.mp listed)]

end Distance

/-- The rendering at one phase. -/
def renderAt (snap : AudioSnapshot K) (phase : K) (out : List ColorRgb) (brightness : K) :
    Option (List ColorRgb) :=
  renderChaseOrbit { snap with phaseVolume := phase } out brightness

/-- An `n`-th part of a turn moves every LED to the next one, a full turn none, whatever the
strip showed before. -/
theorem chase_travels [IsStrictOrderedRing K] (snap : AudioSnapshot K) (phase brightness : K)
    {n : ℕ} {out out' : List ColorRgb} (length : out.length = n) (length' : out'.length = n) :
    ∃ strip strip', renderAt snap phase out brightness = some strip ∧
      renderAt snap (phase + 1 / n) out' brightness = some strip' ∧
      strip.length = n ∧ strip'.length = n ∧
      (∀ i < n, strip'[(i + 1) % n]? = strip[i]?) ∧
      renderAt snap (phase + 1) out' brightness = some strip := by
  have strip (phase : K) {out : List ColorRgb} (length : out.length = n) :
      renderAt snap phase out brightness =
        some ((List.range n).map fun i => comet brightness (behind phase n i * n)) := by
    rw [renderAt, renderChaseOrbit_eq, length]
  refine ⟨_, _, strip phase length, strip (phase + 1 / n) length', ?_, ?_, fun i inside => ?_, ?_⟩
  · rw [List.length_map, List.length_range]
  · rw [List.length_map, List.length_range]
  · have next : (i + 1) % n < n := Nat.mod_lt _ (Nat.zero_lt_of_lt inside)
    rw [List.getElem?_map, List.getElem?_map, List.getElem?_range next, List.getElem?_range inside,
      Option.map_some, Option.map_some, behind_next phase inside]
  · rw [strip (phase + 1) length']
    simp only [behind_add_one]

/-- Over the seam of a strip shorter than the tail. -/
theorem chase_travels_over_seam :
    ∃ strip strip', renderAt (AudioSnapshot.zero ℚ) 0.9 [.black, .black, .black] 1 = some strip ∧
      renderAt (AudioSnapshot.zero ℚ) (0.9 + 1 / (3 : ℕ)) [.white, .white, .white] 1 =
        some strip' ∧
      strip.length = 3 ∧ strip'.length = 3 ∧
      (∀ i < 3, strip'[(i + 1) % 3]? = strip[i]?) ∧
      renderAt (AudioSnapshot.zero ℚ) (0.9 + 1) [.white, .white, .white] 1 = some strip :=
  chase_travels (AudioSnapshot.zero ℚ) 0.9 1 rfl rfl

end Listeningway.Output.Patterns.Linear
