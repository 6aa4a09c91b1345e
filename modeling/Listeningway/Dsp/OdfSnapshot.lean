/- Listeningway/Dsp/OdfSnapshot
   source: src/audio/dsp/beat/odf_buffer.cpp
   digest: When a snapshot is called ready, and which list it interpolates. -/

import Listeningway.Dsp.OdfWindow
import Mathlib.Data.List.GetD

/-!
A snapshot refines a list: the last values that were pushed, read as a polygon. Whether it is
called ready depends on how many there are and not on how many were wanted.
-/

set_option autoImplicit false
set_option relaxedAutoImplicit false

namespace Listeningway.Dsp.OdfBuffer

open Listeningway.Lib
open Listeningway.Lib.HistoryRing (lastN length_lastN)

/-! ### Readiness -/

/-- A buffer that holds every wanted value is ready, and one that holds fewer than half of them
is not. -/
def WarmsUp (rate : ℝ) (xs : List ℝ) : Prop :=
  (wantIn rate ≤ xs.length → ((pushAll xs).snapshotTo rate).1 = true) ∧
    (2 * xs.length < wantIn rate → ((pushAll xs).snapshotTo rate).1 = false)

/-- Readiness follows the window exactly when a full one has half the canonical length, and less
than half of one has neither that many values nor one alone. -/
theorem warms_up_iff {rate : ℝ} (positive : 0 < rate) (several : 2 ≤ wantIn rate)
    (fits : wantIn rate ≤ kCapacity) (xs : List ℝ) :
    WarmsUp rate xs ↔
      (wantIn rate ≤ xs.length → kSnapshotLength / 2 ≤ wantIn rate) ∧
        (2 * xs.length < wantIn rate → xs.length ≠ 1 ∧ xs.length < kSnapshotLength / 2) := by
  unfold WarmsUp
  rw [← Bool.not_eq_true, snapshotTo_ready positive]
  apply and_congr
  · apply imp_congr_right
    intro full
    have whole : availIn xs.length rate = wantIn rate := by
      unfold availIn
      omega
    rw [whole]
    omega
  · apply imp_congr_right
    intro few
    have all : availIn xs.length rate = xs.length := by
      unfold availIn
      omega
    rw [all]
    omega

theorem wantIn_slow : wantIn (20 : ℝ) = 119 := by
  have whole : roundAway (kSnapshotSeconds * (20 : ℝ)) = 119 := by
    unfold roundAway kSnapshotSeconds
    rw [if_pos (by norm_num), Int.floor_eq_iff]
    constructor <;> norm_num
  rw [wantIn, whole]
  rfl

/-- Twenty onsets a second fill the window without ever being ready; at BTrack's rate a single
one is ready. -/
theorem slow_never_warms_up :
    ¬ ∀ (rate : ℝ) (xs : List ℝ), 0 < rate → 2 ≤ wantIn rate → wantIn rate ≤ kCapacity →
      WarmsUp rate xs := by
  intro warm
  have slow := warm 20 (List.replicate 119 0) (by norm_num) (by rw [wantIn_slow]; decide)
    (by rw [wantIn_slow]; decide)
  rw [warms_up_iff (by norm_num) (by rw [wantIn_slow]; decide) (by rw [wantIn_slow]; decide),
    wantIn_slow, List.length_replicate] at slow
  exact absurd (slow.1 le_rfl) (by decide)

/-- At BTrack's own rate a full window is ready, and a single value too. -/
theorem warms_up_at_btrack_rate :
    WarmsUp 86 (List.replicate 600 0) ∧ ¬WarmsUp 86 [0] := by
  have several : 2 ≤ wantIn (86 : ℝ) := by rw [wantIn_btrack]; decide
  have fits : wantIn (86 : ℝ) ≤ kCapacity := by rw [wantIn_btrack]; decide
  constructor
  · rw [warms_up_iff (by norm_num) several fits, wantIn_btrack, List.length_replicate]
    decide
  · rw [warms_up_iff (by norm_num) several fits, wantIn_btrack]
    decide

/-! ### Interpolation -/

/-- `f` is the polygon through the values of a window at the positions 0, 1, 2, … -/
structure Polygon (window : List ℝ) (f : ℝ → ℝ) : Prop where
  corner : ∀ k, k < window.length → f k = window.getD k 0
  side : ∀ k, k + 1 < window.length → ∀ t, 0 ≤ t → t ≤ 1 →
    f (k + t) = window.getD k 0 * (1 - t) + window.getD (k + 1) 0 * t

theorem truncate_natCast_add (k : ℕ) {t : ℝ} (lower : 0 ≤ t) (upper : t < 1) :
    truncate ((k : ℝ) + t) = k := by
  have floor : ⌊(k : ℝ) + t⌋ = k := by
    rw [Int.floor_eq_iff]
    push_cast
    constructor <;> linarith
  rw [truncate, floor, Int.toNat_natCast]

theorem interpolate_add (window : List ℝ) (k : ℕ) {t : ℝ} (lower : 0 ≤ t) (upper : t < 1) :
    interpolate window (k + t) =
      window.getD k 0 * (1 - t) + window.getD (k + 1) 0 * t := by
  unfold interpolate
  dsimp only
  rw [truncate_natCast_add k lower upper]
  ring

theorem interpolate_natCast (window : List ℝ) (k : ℕ) :
    interpolate window k = window.getD k 0 := by
  have corner := interpolate_add window k le_rfl zero_lt_one
  rwa [add_zero, sub_zero, mul_one, mul_zero, add_zero] at corner

theorem polygon_interpolate (window : List ℝ) : Polygon window (interpolate window) where
  corner k _ := interpolate_natCast window k
  side k _ t lower upper := by
    rcases upper.lt_or_eq with inside | rfl
    · exact interpolate_add window k lower inside
    · have next : (k : ℝ) + 1 = ((k + 1 : ℕ) : ℝ) := by push_cast; rfl
      rw [next, interpolate_natCast, sub_self, mul_zero, zero_add, mul_one]

theorem interpolate_mem {window : List ℝ} {lo hi x : ℝ}
    (bounds : ∀ v ∈ window, lo ≤ v ∧ v ≤ hi) (filled : window ≠ []) (lower : 0 ≤ x)
    (upper : x ≤ ((window.length - 1 : ℕ) : ℝ)) :
    lo ≤ interpolate window x ∧ interpolate window x ≤ hi := by
  have long : 0 < window.length := List.length_pos_iff.mpr filled
  have read : ∀ k < window.length, lo ≤ window.getD k 0 ∧ window.getD k 0 ≤ hi := by
    intro k inside
    rw [List.getD_eq_getElem _ _ inside]
    exact bounds _ (List.getElem_mem inside)
  have below := truncate_le lower
  have first : truncate x < window.length := by
    have last := Nat.cast_le.mp (below.trans upper)
    omega
  obtain ⟨left, left'⟩ := read _ first
  obtain ⟨right, right'⟩ := read (min (truncate x + 1) (window.length - 1)) (by omega)
  have part : 0 ≤ x - (truncate x : ℝ) := sub_nonneg.mpr below
  have rest : 0 ≤ 1 - (x - (truncate x : ℝ)) := by
    have floor := Int.lt_floor_add_one x
    have cast : ((truncate x : ℤ) : ℝ) = (⌊x⌋ : ℝ) := by
      rw [truncate, Int.toNat_of_nonneg (Int.floor_nonneg.mpr lower)]
    rw [Int.cast_natCast] at cast
    linarith
  rw [interpolate_eq lower upper]
  generalize x - (truncate x : ℝ) = t at part rest
  constructor
  · calc lo = lo * (1 - t) + lo * t := by ring
      _ ≤ _ :=
          add_le_add (mul_le_mul_of_nonneg_right left rest)
            (mul_le_mul_of_nonneg_right right part)
  · calc _ ≤ hi * (1 - t) + hi * t :=
          add_le_add (mul_le_mul_of_nonneg_right left' rest)
            (mul_le_mul_of_nonneg_right right' part)
      _ = hi := by ring

theorem resampled_last (window : List ℝ) :
    resampled window ⟨511, by decide⟩ = window.getD (window.length - 1) 0 := by
  have whole : (((⟨511, by decide⟩ : Fin kSnapshotLength) : ℕ) : ℝ) *
      (((window.length - 1 : ℕ) : ℝ) / ((kSnapshotLength - 1 : ℕ) : ℝ)) =
        ((window.length - 1 : ℕ) : ℝ) :=
    mul_div_cancel₀ _ (Nat.cast_ne_zero.mpr (by decide))
  rw [resampled, whole, interpolate_natCast]

/-! ### The indices of a snapshot -/

/-- `src` of output `j` in a vector of `avail` values. -/
noncomputable def src (avail : ℕ) (j : Fin kSnapshotLength) : ℝ :=
  ((j : ℕ) : ℝ) * (((avail - 1 : ℕ) : ℝ) / ((kSnapshotLength - 1 : ℕ) : ℝ))

noncomputable def src0 (avail : ℕ) (j : Fin kSnapshotLength) : ℕ :=
  truncate (floorPart (src avail j))

noncomputable def src1 (avail : ℕ) (j : Fin kSnapshotLength) : ℕ :=
  min (src0 avail j + 1) (avail - 1)

theorem snapshotTo_reads {rate : ℝ} (positive : 0 < rate) {xs : List ℝ}
    (several : 1 < availIn xs.length rate) (j : Fin kSnapshotLength) :
    ((pushAll xs).snapshotTo rate).2 j =
      (pushAll xs).linear (availIn xs.length rate) (src0 (availIn xs.length rate) j) *
          (1 - (src (availIn xs.length rate) j - (src0 (availIn xs.length rate) j : ℝ))) +
        (pushAll xs).linear (availIn xs.length rate) (src1 (availIn xs.length rate) j) *
          (src (availIn xs.length rate) j - (src0 (availIn xs.length rate) j : ℝ)) := by
  unfold snapshotTo
  rw [if_neg (not_le.mpr positive), if_neg (not_refused (Nat.zero_lt_of_lt several))]
  dsimp only
  rw [avail_pushAll, if_neg several.ne']
  rfl

theorem src_inside {avail : ℕ} (some : 0 < avail) (j : Fin kSnapshotLength) :
    src0 avail j < avail ∧ src1 avail j < avail := by
  obtain ⟨lower, upper⟩ := position_mem (n := avail) j
  have last := Nat.cast_le.mp ((truncate_le lower).trans upper)
  have first : src0 avail j ≤ avail - 1 := by
    rw [src0, src, truncate_floorPart]
    exact last
  rw [src1]
  omega

/-- The ready-made list a snapshot stands for: its window holds the last values. -/
noncomputable def window (rate : ℝ) (xs : List ℝ) : List ℝ := lastN (availIn xs.length rate) xs

/-- The outputs of a snapshot after a sequence of pushes. -/
noncomputable def output (rate : ℝ) (xs : List ℝ) : Fin kSnapshotLength → ℝ :=
  ((pushAll xs).snapshotTo rate).2

/-- A snapshot is the interpolation of a list. -/
structure Interpolates (rate : ℝ) (xs : List ℝ) : Prop where
  length : (window rate xs).length = availIn xs.length rate
  polygon : Polygon (window rate xs) (interpolate (window rate xs))
  outputs : ∀ j, output rate xs j = interpolate (window rate xs)
    ((j : ℕ) * ((availIn xs.length rate - 1 : ℕ) / 511))
  constant : availIn xs.length rate = 1 → ∀ j, output rate xs j = (window rate xs).getD 0 0
  first : output rate xs ⟨0, by decide⟩ = (window rate xs).getD 0 0
  last : output rate xs ⟨511, by decide⟩ = (window rate xs).getD (availIn xs.length rate - 1) 0
  bounded : ∀ lo hi, (∀ v ∈ window rate xs, lo ≤ v ∧ v ≤ hi) →
    ∀ j, lo ≤ output rate xs j ∧ output rate xs j ≤ hi
  taps : 1 < availIn xs.length rate → ∀ j, output rate xs j =
    (pushAll xs).linear (availIn xs.length rate) (src0 (availIn xs.length rate) j) *
        (1 - (src (availIn xs.length rate) j - (src0 (availIn xs.length rate) j : ℝ))) +
      (pushAll xs).linear (availIn xs.length rate) (src1 (availIn xs.length rate) j) *
        (src (availIn xs.length rate) j - (src0 (availIn xs.length rate) j : ℝ))
  inside : ∀ j, src0 (availIn xs.length rate) j < availIn xs.length rate ∧
    src1 (availIn xs.length rate) j < availIn xs.length rate
  reads : ∀ i < availIn xs.length rate,
    (pushAll xs).linear (availIn xs.length rate) i = (window rate xs).getD i 0
  decided : ∀ ys, window rate ys = window rate xs → output rate ys = output rate xs

/-- Every snapshot interpolates the last values of a list, as many as are wanted, were pushed
and fit. -/
theorem snapshot_interpolates {rate : ℝ} (positive : 0 < rate) (some : 1 ≤ wantIn rate)
    {xs : List ℝ} (pushed : xs ≠ []) : Interpolates rate xs := by
  have capacity : 0 < kCapacity := by decide
  have long : 0 < xs.length := List.length_pos_iff.mpr pushed
  obtain ⟨enough, fits⟩ := availIn_le rate xs.length
  have filled : 0 < availIn xs.length rate := by
    unfold availIn
    omega
  have length : (window rate xs).length = availIn xs.length rate := length_lastN enough
  have whole : output rate xs = resampled (window rate xs) := snapshotTo_window positive filled
  have position : ∀ j : Fin kSnapshotLength,
      output rate xs j = interpolate (window rate xs) (src (availIn xs.length rate) j) := by
    intro j
    rw [whole, resampled, length]
    rfl
  constructor
  · exact length
  · exact polygon_interpolate _
  · intro j
    rw [position, src]
    norm_num [kSnapshotLength]
  · intro single j
    rw [position, src, single, Nat.sub_self, Nat.cast_zero, zero_div, mul_zero]
    exact_mod_cast interpolate_natCast (window rate xs) 0
  · rw [whole, resampled_first]
  · rw [whole, resampled_last, length]
  · intro lo hi bounds j
    have some' : window rate xs ≠ [] := List.length_pos_iff.mp (length ▸ filled)
    obtain ⟨lower, upper⟩ := position_mem (n := availIn xs.length rate) j
    rw [position]
    exact interpolate_mem bounds some' lower (length.symm ▸ upper)
  · exact fun several j => snapshotTo_reads positive several j
  · exact src_inside filled
  · intro i inside
    exact linear_pushAll enough fits inside
  · intro ys same
    have length' : availIn ys.length rate = availIn xs.length rate := by
      rw [← length, ← same]
      exact (length_lastN (availIn_le rate ys.length).1).symm
    rw [whole, ← same]
    exact snapshotTo_window positive (length' ▸ filled)

/-- Three values, fewer than BTrack's window. -/
theorem snapshot_interpolates_three : Interpolates 86 [1, 3, 2] :=
  snapshot_interpolates (by norm_num) (by rw [wantIn_btrack]; decide) (by simp)

end Listeningway.Dsp.OdfBuffer
