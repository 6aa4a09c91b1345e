/- Listeningway/Dsp/OdfWindow
   source: src/audio/dsp/beat/odf_buffer.cpp, odf_buffer.h
   digest: Which window of the onset history a snapshot resamples. -/

import Listeningway.Dsp.Beat.Odf
import Listeningway.Lib.HistoryRing
import Mathlib.Algebra.Order.Archimedean.Real.Basic

/-!
A snapshot is meant to show the last 5.95 seconds. It shows as many values as there are, at
most the capacity, stretched to the same length, and it is called ready at a number of values
that does not depend on the rate.
-/

set_option autoImplicit false
set_option relaxedAutoImplicit false

namespace Listeningway.Dsp.OdfBuffer

open Listeningway.Lib
open Listeningway.Lib.HistoryRing (lastN length_lastN getD_lastN)

/-! ### Resampling -/

section Resampling

variable {K : Type} [Field K] [LinearOrder K] [FloorRing K]

/-- The polygon through the values of a window at their positions. -/
def interpolate (window : List K) (x : K) : K :=
  let k := truncate x
  window.getD k 0 + (x - (k : K)) * (window.getD (k + 1) 0 - window.getD k 0)

/-- A window read at equally spaced positions from its first to its last value. -/
def resampled (window : List K) (j : Fin kSnapshotLength) : K :=
  interpolate window
    ((j : ℕ) * (((window.length - 1 : ℕ) : K) / ((kSnapshotLength - 1 : ℕ) : K)))

end Resampling

/-! ### The buffer after pushes -/

instance : NeZero kCapacity := ⟨by decide⟩

/-- The buffer after a sequence of pushes since it was made or reset. -/
noncomputable def pushAll (xs : List ℝ) : OdfBuffer ℝ := xs.foldl push initial

theorem pushAll_snoc (xs : List ℝ) (x : ℝ) : pushAll (xs ++ [x]) = (pushAll xs).push x := by
  rw [pushAll, List.foldl_append]
  rfl

theorem size_pushAll (xs : List ℝ) : (pushAll xs).size = min xs.length kCapacity := by
  induction xs using List.reverseRecOn with
  | nil => rfl
  | append_singleton xs x ih =>
    rw [pushAll_snoc, List.length_append, List.length_singleton]
    change (if (pushAll xs).size < kCapacity then (pushAll xs).size + 1 else (pushAll xs).size) = _
    rw [ih]
    split_ifs <;> omega

/-- The ring of the buffer. -/
def history (st : OdfBuffer ℝ) : HistoryRing kCapacity ℝ := ⟨st.ring, st.head⟩

theorem history_pushAll (xs : List ℝ) :
    history (pushAll xs) = (HistoryRing.filled 0).pushAll xs := by
  induction xs using List.reverseRecOn with
  | nil => rfl
  | append_singleton xs x ih =>
    rw [pushAll_snoc, HistoryRing.pushAll_snoc, ← ih]
    rfl

theorem linear_pushAll {xs : List ℝ} {avail i : ℕ} (enough : avail ≤ xs.length)
    (fits : avail ≤ kCapacity) (inside : i < avail) :
    (pushAll xs).linear avail i = (lastN avail xs).getD i 0 := by
  have read : (pushAll xs).linear avail i = (history (pushAll xs)).ago (avail - 1 - i) := by
    unfold linear HistoryRing.ago
    congr 1
    apply Fin.ext
    rw [HistoryRing.slot_val]
    change ((((pushAll xs).head : ℕ) + kCapacity - avail) % kCapacity + i) % kCapacity =
      (((pushAll xs).head : ℕ) + kCapacity - 1 - (avail - 1 - i)) % kCapacity
    rw [Nat.mod_add_mod]
    congr 1
    omega
  rw [read, history_pushAll, HistoryRing.ago_pushAll 0 xs (by omega), getD_lastN 0 enough inside]

/-! ### A snapshot -/

/-- How many values a snapshot resamples after `m` pushes. -/
noncomputable def availIn (m : ℕ) (rate : ℝ) : ℕ := min (wantIn rate) (min m kCapacity)

theorem availIn_eq_zero_iff (rate : ℝ) (xs : List ℝ) :
    availIn xs.length rate = 0 ↔ wantIn rate = 0 ∨ (pushAll xs).size = 0 := by
  have capacity : 0 < kCapacity := by decide
  rw [size_pushAll]
  unfold availIn
  omega

theorem availIn_le (rate : ℝ) (m : ℕ) : availIn m rate ≤ m ∧ availIn m rate ≤ kCapacity := by
  unfold availIn
  omega

theorem not_refused {rate : ℝ} {xs : List ℝ} (some : 0 < availIn xs.length rate) :
    ¬(wantIn rate = 0 ∨ (pushAll xs).size = 0) := by
  rw [← availIn_eq_zero_iff]
  exact some.ne'

theorem avail_pushAll (rate : ℝ) (xs : List ℝ) :
    min (wantIn rate) (min (pushAll xs).size kCapacity) = availIn xs.length rate := by
  rw [size_pushAll, min_assoc, min_self]
  rfl

theorem snapshotTo_ready {rate : ℝ} (positive : 0 < rate) (xs : List ℝ) :
    ((pushAll xs).snapshotTo rate).1 = true ↔
      availIn xs.length rate = 1 ∨ kSnapshotLength / 2 ≤ availIn xs.length rate := by
  have half : 0 < kSnapshotLength / 2 := by decide
  unfold snapshotTo
  rw [if_neg (not_le.mpr positive)]
  split_ifs with none
  · rw [(availIn_eq_zero_iff rate xs).mpr none]
    simp only [false_iff]
    omega
  · dsimp only
    rw [avail_pushAll]
    split_ifs with single
    · exact ⟨fun _ => .inl single, fun _ => rfl⟩
    · rw [decide_eq_true_iff]
      exact ⟨.inr, fun ready => ready.resolve_left single⟩

theorem truncate_le {x : ℝ} (nonneg : 0 ≤ x) : (truncate x : ℝ) ≤ x := by
  have floor : ((⌊x⌋.toNat : ℤ) : ℝ) = (⌊x⌋ : ℝ) := by
    rw [Int.toNat_of_nonneg (Int.floor_nonneg.mpr nonneg)]
  rw [truncate, ← Int.cast_natCast, floor]
  exact Int.floor_le x

theorem truncate_floorPart (x : ℝ) : truncate (floorPart x) = truncate x := by
  rw [truncate, floorPart, Int.floor_intCast]
  rfl

theorem interpolate_eq {window : List ℝ} {x : ℝ} (lower : 0 ≤ x)
    (upper : x ≤ ((window.length - 1 : ℕ) : ℝ)) :
    interpolate window x =
      window.getD (truncate x) 0 * (1 - (x - (truncate x : ℝ))) +
        window.getD (min (truncate x + 1) (window.length - 1)) 0 * (x - (truncate x : ℝ)) := by
  have below := truncate_le lower
  unfold interpolate
  dsimp only
  rcases Nat.lt_or_ge (truncate x) (window.length - 1) with inside | last
  · rw [min_eq_left inside]
    ring
  · have exact : x = (truncate x : ℝ) := by
      have top : ((window.length - 1 : ℕ) : ℝ) ≤ (truncate x : ℝ) := Nat.cast_le.mpr last
      linarith
    rw [← exact]
    ring

theorem position_mem {n : ℕ} (j : Fin kSnapshotLength) :
    0 ≤ ((j : ℕ) : ℝ) * (((n - 1 : ℕ) : ℝ) / ((kSnapshotLength - 1 : ℕ) : ℝ)) ∧
      ((j : ℕ) : ℝ) * (((n - 1 : ℕ) : ℝ) / ((kSnapshotLength - 1 : ℕ) : ℝ)) ≤
        ((n - 1 : ℕ) : ℝ) := by
  have last : ((j : ℕ) : ℝ) ≤ ((kSnapshotLength - 1 : ℕ) : ℝ) :=
    Nat.cast_le.mpr (Nat.le_sub_one_of_lt j.2)
  have positive : (0 : ℝ) < ((kSnapshotLength - 1 : ℕ) : ℝ) := Nat.cast_pos.mpr (by decide)
  constructor
  · positivity
  · rw [← mul_div_assoc, div_le_iff₀ positive, mul_comm]
    exact mul_le_mul_of_nonneg_left last (Nat.cast_nonneg _)

theorem snapshotTo_window {rate : ℝ} (positive : 0 < rate) {xs : List ℝ}
    (some : 0 < availIn xs.length rate) :
    ((pushAll xs).snapshotTo rate).2 = resampled (lastN (availIn xs.length rate) xs) := by
  obtain ⟨enough, fits⟩ := availIn_le rate xs.length
  have length := length_lastN enough
  unfold snapshotTo
  rw [if_neg (not_le.mpr positive), if_neg (not_refused some)]
  dsimp only
  rw [avail_pushAll]
  funext j
  by_cases single : availIn xs.length rate = 1
  · rw [if_pos single]
    change (pushAll xs).linear (availIn xs.length rate) 0 = _
    rw [linear_pushAll enough fits some, resampled, length, single, interpolate]
    simp [truncate]
  · rw [if_neg single]
    obtain ⟨lower, upper⟩ := position_mem (n := availIn xs.length rate) j
    have inside := Nat.cast_le.mp ((truncate_le lower).trans upper)
    rw [resampled, length, interpolate_eq lower (length.symm ▸ upper), length]
    dsimp only
    rw [truncate_floorPart, linear_pushAll enough fits (by omega),
      linear_pushAll enough fits (by omega)]

/-- What a snapshot promises: once it is ready, the last `round(5.95 · rate)` values have been
pushed, and it is them that it resamples. -/
def KeepsTimeBase (rate : ℝ) (xs : List ℝ) : Prop :=
  ((pushAll xs).snapshotTo rate).1 = true →
    wantIn rate ≤ xs.length ∧ ((pushAll xs).snapshotTo rate).2 = resampled (lastN (wantIn rate) xs)

/-- After `m` pushes the window is not called ready. -/
def TooShort (rate : ℝ) (m : ℕ) : Prop :=
  availIn m rate ≠ 1 ∧ availIn m rate < kSnapshotLength / 2

/-- After `m` pushes the buffer holds the whole window. -/
def Covered (rate : ℝ) (m : ℕ) : Prop := wantIn rate ≤ m ∧ wantIn rate ≤ kCapacity

theorem keepsTimeBase_iff {rate : ℝ} (positive : 0 < rate) (xs : List ℝ) :
    KeepsTimeBase rate xs ↔ TooShort rate xs.length ∨ (wantIn rate ≤ xs.length ∧
      (wantIn rate ≤ kCapacity ∨
        resampled (lastN kCapacity xs) = resampled (lastN (wantIn rate) xs))) := by
  have half : 0 < kSnapshotLength / 2 := by decide
  unfold KeepsTimeBase
  rw [snapshotTo_ready positive]
  by_cases ready : availIn xs.length rate = 1 ∨ kSnapshotLength / 2 ≤ availIn xs.length rate
  · have long : ¬TooShort rate xs.length := by
      unfold TooShort
      omega
    rw [snapshotTo_window positive (by omega), forall_prop_of_true ready, or_iff_right long]
    apply and_congr_right
    intro enough
    by_cases fits : wantIn rate ≤ kCapacity
    · have whole : availIn xs.length rate = wantIn rate := by
        unfold availIn
        omega
      rw [whole]
      exact ⟨fun _ => .inl fits, fun _ => rfl⟩
    · have cut : availIn xs.length rate = kCapacity := by
        unfold availIn
        omega
      rw [cut, or_iff_right fits]
  · have short : TooShort rate xs.length := by
      unfold TooShort
      omega
    exact ⟨fun _ => .inl short, fun _ called => absurd called ready⟩

theorem resampled_first (window : List ℝ) :
    resampled window ⟨0, by decide⟩ = window.getD 0 0 := by
  have zero : truncate (0 : ℝ) = 0 := by
    rw [truncate, Int.floor_zero]
    rfl
  change interpolate window (((0 : ℕ) : ℝ) * _) = _
  rw [Nat.cast_zero, zero_mul, interpolate, zero, Nat.cast_zero, sub_zero, zero_mul, add_zero]

theorem exists_stretched {rate : ℝ} {m : ℕ} (enough : wantIn rate ≤ m)
    (past : kCapacity < wantIn rate) : ∃ xs : List ℝ, xs.length = m ∧
      resampled (lastN kCapacity xs) ≠ resampled (lastN (wantIn rate) xs) := by
  refine ⟨List.replicate (m - kCapacity) 1 ++ List.replicate kCapacity 0, ?_, ?_⟩
  · rw [List.length_append, List.length_replicate, List.length_replicate]
    omega
  · intro alike
    have first := congrFun alike ⟨0, by decide⟩
    have capacity : 0 < kCapacity := by decide
    have length : (List.replicate (m - kCapacity) (1 : ℝ) ++ List.replicate kCapacity 0).length =
        m := by
      rw [List.length_append, List.length_replicate, List.length_replicate]
      omega
    rw [resampled_first, resampled_first, lastN, lastN, length, List.getD_eq_getElem?_getD,
      List.getD_eq_getElem?_getD, List.getElem?_drop, List.getElem?_drop,
      List.getElem?_append_right (by rw [List.length_replicate]; omega),
      List.getElem?_append_left (by rw [List.length_replicate]; omega), List.getElem?_replicate,
      List.getElem?_replicate, List.length_replicate, if_pos (by omega), if_pos (by omega)] at first
    exact zero_ne_one first

/-- A ready snapshot keeps the time base after every sequence of `m` pushes exactly when the
buffer then holds the whole window. -/
theorem time_base_iff {rate : ℝ} (positive : 0 < rate) :
    (∀ xs, KeepsTimeBase rate xs ↔ TooShort rate xs.length ∨ (wantIn rate ≤ xs.length ∧
      (wantIn rate ≤ kCapacity ∨
        resampled (lastN kCapacity xs) = resampled (lastN (wantIn rate) xs)))) ∧
    ∀ m, (∀ xs, xs.length = m → KeepsTimeBase rate xs) ↔ TooShort rate m ∨ Covered rate m := by
  refine ⟨keepsTimeBase_iff positive, fun m => ?_⟩
  constructor
  · intro keeps
    by_contra broken
    obtain ⟨ready, lost⟩ := not_or.mp broken
    have enough : wantIn rate ≤ m := by
      have filled : (List.replicate m (0 : ℝ)).length = m := List.length_replicate
      have kept := (keepsTimeBase_iff positive _).mp (keeps _ filled)
      rw [filled] at kept
      exact (kept.resolve_left ready).1
    have past : kCapacity < wantIn rate := by
      by_contra fits
      exact lost ⟨enough, not_lt.mp fits⟩
    obtain ⟨xs, rfl, differ⟩ := exists_stretched enough past
    have kept := ((keepsTimeBase_iff positive xs).mp (keeps xs rfl)).resolve_left ready
    exact kept.2.elim (fun fits => absurd fits (not_le.mpr past)) differ
  · rintro held xs rfl
    rw [keepsTimeBase_iff positive]
    exact held.imp_right fun covered => ⟨covered.1, .inl covered.2⟩

theorem wantIn_btrack : wantIn (86 : ℝ) = 512 := by
  have whole : roundAway (kSnapshotSeconds * (86 : ℝ)) = 512 := by
    unfold roundAway kSnapshotSeconds
    rw [if_pos (by norm_num), Int.floor_eq_iff]
    constructor <;> norm_num
  rw [wantIn, whole]
  rfl

/-- After 256 of them a snapshot stretches three seconds to six. -/
theorem half_window_stretched : ¬KeepsTimeBase 86 (List.replicate 256 0) := by
  intro keeps
  have held := (keepsTimeBase_iff (by norm_num) _).mp keeps
  have avail : availIn 256 (86 : ℝ) = 256 := by
    rw [availIn, wantIn_btrack]
    rfl
  rw [List.length_replicate, wantIn_btrack, TooShort, avail] at held
  rcases held with short | covered
  · exact absurd short.2 (by decide)
  · exact absurd covered.1 (by decide)

/-- At BTrack's own rate 600 values keep the time base, and not all sequences of 256 do. -/
theorem time_base_at_btrack_rate :
    (∀ xs, xs.length = 600 → KeepsTimeBase 86 xs) ∧
      ¬ ∀ xs, xs.length = 256 → KeepsTimeBase 86 xs := by
  have positive : (0 : ℝ) < 86 := by norm_num
  obtain ⟨-, exactly⟩ := time_base_iff positive
  have avail : availIn 256 (86 : ℝ) = 256 := by
    rw [availIn, wantIn_btrack]
    rfl
  constructor
  · refine (exactly 600).mpr (.inr ?_)
    rw [Covered, wantIn_btrack]
    decide
  · intro keeps
    rcases (exactly 256).mp keeps with short | covered
    · exact absurd (avail ▸ short.2) (by decide)
    · rw [Covered, wantIn_btrack] at covered
      exact absurd covered.1 (by decide)

end Listeningway.Dsp.OdfBuffer
