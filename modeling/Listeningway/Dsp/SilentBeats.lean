/- Listeningway/Dsp/SilentBeats
   source: src/audio/dsp/stages/beat_stage.cpp; src/audio/dsp/beat/beat_tracker.cpp
   digest: The published beat from frame to frame, and when it may rise although nothing sounds. -/

import Listeningway.Dsp.BeatRuns

/-!
The pulse follows the countdown of the tracker. The onset function reaches the tracker as one
argument of the score only, so the lemmas on the pulse do not need it to be 0.
-/

set_option autoImplicit false
set_option relaxedAutoImplicit false

namespace Listeningway.Dsp.BeatStage

open Listeningway.Config
open Listeningway.Lib.Clamp
open Listeningway.Lib.StreamRun
open Set (Icc)

section Transforms

variable [KissFft ℝ]

/-- The onset value of frame `k`. -/
noncomputable def onsetAt (input : ℕ → Call) (k : ℕ) : ℝ :=
  (onset (entering input k).csd (input k).frame).2

/-- The period that frame `k` tracks. -/
noncomputable def periodAt (input : ℕ → Call) (k : ℕ) : ℝ :=
  let rate := (entering input k).hopRate (input k).frame.capturedAt
  let comb := (updateTempo (entering input k).comb
    ((entering input k).odfBuf.push (onsetAt input k))
    ((entering input k).framesSinceTempoUpdate + 1) rate).1
  nativePeriod comb.lastBeatPeriodSamples rate

/-- What frame `k` leaves of a pulse. -/
noncomputable def decayAt (input : ℕ → Call) (k : ℕ) : ℝ :=
  Real.exp (-(entering input k).pulseInterval (input k).frame.capturedAt /
    (resolveMode (input k).cfg.beat).decayTauSec)

/-- A pulse that frame `k` strikes, as it is published. -/
noncomputable def pulseAt (input : ℕ → Call) (k : ℕ) : ℝ :=
  clamp (resolveMode (input k).cfg.beat).strength 0 1 * decayAt input k

/-- The countdown of the tracker runs out in frame `k`. -/
def DueAt (input : ℕ → Call) (k : ℕ) : Prop :=
  (entering input k).tracker.Due (onsetAt input k) (periodAt input k)

/-- The beat that frame `k` publishes. -/
noncomputable def beatAt (input : ℕ → Call) (k : ℕ) : ℝ := (published input k).beat.getD 0

/-! ### The pulse -/

omit [KissFft ℝ] in
theorem decayTauSec_mem (bc : BeatConfig ℝ) :
    (resolveMode bc).decayTauSec ∈ Icc (0.12 : ℝ) 0.23 := by
  unfold resolveMode
  split
  · norm_num
  · split <;> norm_num
  · norm_num

omit [KissFft ℝ] in
theorem pulseInterval_mem (st : BeatStage ℝ) (now : TimePoint) :
    st.pulseInterval now ∈ Icc (0.001 : ℝ) 0.25 := by
  unfold pulseInterval
  split_ifs
  · exact clamp_mem (by norm_num)
  · norm_num [kTempoUpdateHops]

theorem decayAt_between (input : ℕ → Call) (k : ℕ) :
    decayAt input k ∈ Icc (Real.exp (-0.25 / 0.12)) (Real.exp (-0.001 / 0.23)) := by
  obtain ⟨short, long⟩ := pulseInterval_mem (entering input k) (input k).frame.capturedAt
  obtain ⟨fast, slow⟩ := decayTauSec_mem (input k).cfg.beat
  have tau : 0 < (resolveMode (input k).cfg.beat).decayTauSec := by linarith
  constructor
  · apply Real.exp_le_exp.mpr
    rw [neg_div, neg_div, neg_le_neg_iff]
    exact div_le_div₀ (by norm_num) long (by norm_num) fast
  · apply Real.exp_le_exp.mpr
    rw [neg_div, neg_div, neg_le_neg_iff]
    exact div_le_div₀ (by linarith) short tau slow

theorem decayAt_mem (input : ℕ → Call) (k : ℕ) : decayAt input k ∈ Icc (0 : ℝ) 1 := by
  obtain ⟨-, part⟩ := decayAt_between input k
  have below : Real.exp (-0.001 / 0.23) ≤ 1 := Real.exp_le_one_iff.mpr (by norm_num)
  exact ⟨(Real.exp_pos _).le, part.trans below⟩

theorem beatValue_succ (input : ℕ → Call) (k : ℕ) :
    (DueAt input k → (before input (k + 1)).beatValue = pulseAt input k) ∧
      (¬ DueAt input k →
        (before input (k + 1)).beatValue = (entering input k).beatValue * decayAt input k) := by
  have fired := (entering input k).tracker.process_fires_iff (onsetAt input k) (periodAt input k)
  have value : (before input (k + 1)).beatValue =
      (if ((entering input k).tracker.process (onsetAt input k) (periodAt input k)).2
        then clamp (resolveMode (input k).cfg.beat).strength 0 1
        else (entering input k).beatValue) * decayAt input k := rfl
  refine ⟨fun due => ?_, fun waits => ?_⟩
  · rw [value, if_pos (fired.mpr due), pulseAt]
  · rw [value, if_neg fun struck => waits (fired.mp struck)]

omit [KissFft ℝ] in
theorem entered_beatValue (st : BeatStage ℝ) (c : Call) :
    (entered st c).beatValue = 0 ∨ (entered st c).beatValue = st.beatValue := by
  unfold entered
  split_ifs
  · exact .inl rfl
  · exact .inr rfl

theorem beatValue_mem (input : ℕ → Call) (k : ℕ) :
    (before input k).beatValue ∈ Icc (0 : ℝ) 1 := by
  induction k with
  | zero => exact ⟨le_rfl, zero_le_one⟩
  | succ k ih =>
    have decay := decayAt_mem input k
    have value : (entering input k).beatValue ∈ Icc (0 : ℝ) 1 := by
      rcases entered_beatValue (before input k) (input k) with zero | kept
      · rw [entering, zero]
        exact ⟨le_rfl, zero_le_one⟩
      · rw [entering, kept]
        exact ih
    by_cases due : DueAt input k
    · rw [(beatValue_succ input k).1 due, pulseAt]
      have strength : clamp (resolveMode (input k).cfg.beat).strength 0 1 ∈ Icc (0 : ℝ) 1 :=
        clamp_mem zero_le_one
      exact ⟨mul_nonneg strength.1 decay.1, mul_le_one₀ strength.2 decay.1 decay.2⟩
    · rw [(beatValue_succ input k).2 due]
      exact ⟨mul_nonneg value.1 decay.1, mul_le_one₀ value.2 decay.1 decay.2⟩

theorem beatAt_eq (input : ℕ → Call) (k : ℕ) :
    beatAt input k = (before input (k + 1)).beatValue := by
  obtain ⟨lower, upper⟩ := beatValue_mem input (k + 1)
  change clamp (before input (k + 1)).beatValue 0 1 = _
  exact clamp_of_mem lower upper

theorem beatAt_succ_le (input : ℕ → Call) {k : ℕ} (waits : ¬ DueAt input (k + 1)) :
    beatAt input (k + 1) ≤ beatAt input k := by
  obtain ⟨lower, -⟩ := beatValue_mem input (k + 1)
  obtain ⟨decayed, part⟩ := decayAt_mem input (k + 1)
  rw [beatAt_eq, beatAt_eq, (beatValue_succ input (k + 1)).2 waits]
  rcases entered_beatValue (before input (k + 1)) (input (k + 1)) with zero | kept
  · rw [entering, zero, zero_mul]
    exact lower
  · rw [entering, kept]
    exact mul_le_of_le_one_right lower part

/-! ### Silence that lasts -/

/-- The arguments of the tracker from frame `m` on. -/
noncomputable def trackerInput (input : ℕ → Call) (m i : ℕ) : ℝ × ℝ :=
  (onsetAt input (m + i), periodAt input (m + i))

section Lasting

variable {input : ℕ → Call} {m : ℕ}

theorem entering_tracker (undisturbed : ∀ k, m ≤ k → (input k).resetBefore = false) (i : ℕ) :
    (entering input (m + i)).tracker =
      (entering input m).tracker.before (trackerInput input m) i := by
  have plain : ∀ k, m ≤ k → entering input k = before input k := fun k late => by
    rw [entering, entered, undisturbed k late, if_neg Bool.false_ne_true]
  induction i with
  | zero => rfl
  | succ i ih =>
    rw [plain _ (Nat.le_add_right m _), ← Nat.add_assoc, before_succ, BeatTracker.before_succ, ← ih]
    rfl

theorem exists_due (undisturbed : ∀ k, m ≤ k → (input k).resetBefore = false) (late : ℕ) :
    ∃ k, m + late ≤ k ∧ DueAt input k ∧ ¬ DueAt input (k + 1) := by
  obtain ⟨i, now⟩ :=
    (entering input m).tracker.exists_prediction (trackerInput input m) late
  obtain ⟨fires, -, -⟩ := BeatTracker.beat_at_offset now
  have quiet := BeatTracker.not_due_after_beat now rfl
  set offset := (entering input m).tracker.offsetAt (trackerInput input m) (late + i)
  refine ⟨m + (late + i + offset), by omega, ?_, ?_⟩
  · rw [DueAt, entering_tracker undisturbed]
    exact (BeatTracker.process_fires_iff _ _ _).mp fires
  · rw [Nat.add_assoc, DueAt, entering_tracker undisturbed]
    exact quiet

omit [KissFft ℝ] in
theorem fallen {f : ℕ → ℝ} (falls : ∀ k, m ≤ k → f (k + 1) ≤ f k) {k k' : ℕ} (late : m ≤ k)
    (after : k ≤ k') : f k' ≤ f k :=
  Nat.rel_of_forall_rel_succ_of_le_of_le (· ≥ ·) falls late after

theorem falls_below (undisturbed : ∀ k, m ≤ k → (input k).resetBefore = false)
    (falls : ∀ k, m ≤ k → beatAt input (k + 1) ≤ beatAt input k) (n : ℕ) :
    ∃ late, beatAt input (m + late) ≤ Real.exp (-0.001 / 0.23) ^ n := by
  induction n with
  | zero =>
    refine ⟨0, ?_⟩
    rw [beatAt_eq, pow_zero]
    exact (beatValue_mem input _).2
  | succ n ih =>
    obtain ⟨late, small⟩ := ih
    obtain ⟨k, after, -, waits⟩ := exists_due undisturbed late
    obtain ⟨j, rfl⟩ := Nat.exists_eq_add_of_le after
    have plain : entering input (m + late + j + 1) = before input (m + late + j + 1) := by
      rw [entering, entered, undisturbed _ (by omega), if_neg Bool.false_ne_true]
    have decay := (decayAt_between input (m + late + j + 1)).2
    refine ⟨late + j + 1, ?_⟩
    calc beatAt input (m + (late + j + 1))
        = beatAt input (m + late + j) * decayAt input (m + late + j + 1) := by
          rw [← Nat.add_assoc, ← Nat.add_assoc, beatAt_eq, beatAt_eq,
            (beatValue_succ input _).2 waits, plain]
      _ ≤ Real.exp (-0.001 / 0.23) ^ n * Real.exp (-0.001 / 0.23) :=
          mul_le_mul ((fallen falls (by omega) (Nat.le_add_right _ j)).trans small) decay
            (decayAt_mem input _).1 (pow_nonneg (Real.exp_pos _).le n)
      _ = Real.exp (-0.001 / 0.23) ^ (n + 1) := (pow_succ _ _).symm

theorem beat_rises (undisturbed : ∀ k, m ≤ k → (input k).resetBefore = false) {s₀ : ℝ}
    (positive : 0 < s₀)
    (strong : ∀ k, m ≤ k → s₀ ≤ clamp (resolveMode (input k).cfg.beat).strength 0 1) :
    ∃ k, m ≤ k ∧ beatAt input k < beatAt input (k + 1) := by
  by_contra never
  have falls : ∀ k, m ≤ k → beatAt input (k + 1) ≤ beatAt input k := fun k late =>
    not_lt.mp fun rises => never ⟨k, late, rises⟩
  have least : 0 < s₀ * Real.exp (-0.25 / 0.12) := mul_pos positive (Real.exp_pos _)
  have shrinks : Real.exp (-0.001 / 0.23) < 1 := Real.exp_lt_one_iff.mpr (by norm_num)
  obtain ⟨n, small⟩ := exists_pow_lt_of_lt_one least shrinks
  obtain ⟨late, below⟩ := falls_below undisturbed falls n
  obtain ⟨k, after, due, -⟩ := exists_due undisturbed late
  have lower := fallen falls (by omega) after
  have struck : s₀ * Real.exp (-0.25 / 0.12) ≤ beatAt input k := by
    rw [beatAt_eq, (beatValue_succ input _).1 due, pulseAt]
    have strength := strong k (by omega)
    exact mul_le_mul strength (decayAt_between input _).1 (Real.exp_pos _).le
      (positive.le.trans strength)
  linarith

end Lasting

/-! ### Silence under mute settings -/

/-- Settings whose pulses have strength 0. -/
def Mute (cfg : Settings ℝ) : Prop := cfg.beat.mode = .custom ∧ cfg.beat.pulseStrength ≤ 0

/-- Without an onset from frame `m` to before frame `n` the beat published in them never rises. -/
def FallsThrough (input : ℕ → Call) (m n : ℕ) : Prop :=
  (∀ k, m ≤ k → k < n → onsetAt input k = 0) →
    ∀ k, m ≤ k → k + 1 < n → beatAt input (k + 1) ≤ beatAt input k

omit [KissFft ℝ] in
theorem strength_eq_zero_iff (cfg : Settings ℝ) :
    clamp (resolveMode cfg.beat).strength 0 1 = 0 ↔ Mute cfg := by
  have positive {v : ℝ} (some : 0 < v) : clamp v 0 1 ≠ 0 := by
    unfold clamp
    split_ifs <;> linarith
  unfold Mute resolveMode
  cases mode : cfg.beat.mode with
  | auto => exact iff_of_false (positive one_pos) fun mute => BeatMode.noConfusion mute.1
  | profile =>
    refine iff_of_false (positive ?_) fun mute => BeatMode.noConfusion mute.1
    dsimp only
    split <;> norm_num
  | custom =>
    dsimp only
    rcases le_or_gt cfg.beat.pulseStrength 0 with none | some
    · have low : clamp cfg.beat.pulseStrength 0 3.0 = 0 := by
        refine le_antisymm ?_ (le_clamp _ (by norm_num))
        exact (clamp_le_iff (by norm_num)).mpr (.inr none)
      rw [low]
      exact iff_of_true (clamp_of_mem le_rfl zero_le_one) ⟨rfl, none⟩
    · refine iff_of_false (positive ?_) fun mute => absurd mute.2 (not_le.mpr some)
      unfold clamp
      split_ifs <;> linarith

theorem falls_of_mute (input : ℕ → Call) (k : ℕ) (mute : Mute (input (k + 1)).cfg) :
    beatAt input (k + 1) ≤ beatAt input k := by
  by_cases due : DueAt input (k + 1)
  · rw [beatAt_eq, beatAt_eq, (beatValue_succ input (k + 1)).1 due, pulseAt,
      (strength_eq_zero_iff _).mpr mute, zero_mul]
    exact (beatValue_mem input (k + 1)).1
  · exact beatAt_succ_le input due

/-- Silence makes no beats while the settings are mute, whatever they were before and however
often the stage is reset. In a silence without end and without a reset, under settings that stay
as they are, it makes none only then. -/
theorem silent_beat_falls_iff (input : ℕ → Call) (m : ℕ) :
    (∀ n, (∀ k, m < k → k < n → Mute (input k).cfg) → FallsThrough input m n) ∧
    ∀ cfg : Settings ℝ, (∀ k, m ≤ k → onsetAt input k = 0) →
      (∀ k, m < k → (input k).resetBefore = false ∧ (input k).cfg = cfg) →
      ((∀ n, FallsThrough input m n) ↔ Mute cfg) := by
  constructor
  · intro n mute _ k late inside
    exact falls_of_mute input k (mute (k + 1) (by omega) inside)
  · intro cfg silent fixed
    constructor
    · intro falls
      by_contra loud
      have strength : 0 < clamp (resolveMode cfg.beat).strength 0 1 :=
        lt_of_le_of_ne (le_clamp _ zero_le_one) fun none =>
          loud ((strength_eq_zero_iff cfg).mp none.symm)
      have strong : ∀ k, m + 1 ≤ k → clamp (resolveMode cfg.beat).strength 0 1 ≤
          clamp (resolveMode (input k).cfg.beat).strength 0 1 := fun k late => by
        rw [(fixed k late).2]
      obtain ⟨k, late, rises⟩ := beat_rises (fun k late => (fixed k late).1) strength strong
      have fall := falls (k + 2) (fun k after _ => silent k after) k (by omega) (by omega)
      exact absurd fall (not_le.mpr rises)
    · intro mute n _ k late _
      exact falls_of_mute input k ((fixed (k + 1) (by omega)).2 ▸ mute)

theorem before_congr {input input' : ℕ → Call} {k : ℕ} (same : ∀ j < k, input j = input' j) :
    before input k = before input' k :=
  stateAt_congr same

end Transforms

/-- The defaults in Custom mode with a pulse strength of 0. -/
noncomputable def muteSettings : Settings ℝ :=
  { Settings.defaults ℝ with
    beat := { BeatConfig.defaults ℝ with mode := .custom, pulseStrength := 0 } }

/-- Silence that the user mutes after frame `m`. -/
noncomputable def mutedAfter (m k : ℕ) : Call :=
  if k ≤ m then silence k else { silence k with cfg := muteSettings }

theorem onsetAt_mutedAfter (m k : ℕ) : onsetAt (mutedAfter m) k = 0 := by
  have frame : (mutedAfter m k).frame = (silence k).frame := by
    unfold mutedAfter
    split_ifs <;> rfl
  rw [onsetAt, frame]
  rfl

theorem silence_rises : ∃ k, beatAt silence k < beatAt silence (k + 1) := by
  have full : ∀ k, 0 ≤ k → (1 : ℝ) ≤ clamp (resolveMode (silence k).cfg.beat).strength 0 1 := by
    intro k _
    change (1 : ℝ) ≤ clamp 1 0 1
    rw [clamp_of_mem zero_le_one le_rfl]
  obtain ⟨k, -, rises⟩ := beat_rises (fun _ _ => rfl) zero_lt_one full
  exact ⟨k, rises⟩

/-- A beat in the silence that a mute lets fade, and one that nothing keeps from coming back. -/
theorem muted_beat_falls :
    (∃ m, 0 < beatAt (mutedAfter m) m ∧
      ∀ k, m ≤ k → beatAt (mutedAfter m) (k + 1) ≤ beatAt (mutedAfter m) k) ∧
    ¬ ∀ n, FallsThrough silence 0 n := by
  constructor
  · obtain ⟨j, rises⟩ := silence_rises
    refine ⟨j + 1, ?_, fun k late => ?_⟩
    · have same : ∀ k < j + 1 + 1, mutedAfter (j + 1) k = silence k :=
        fun k early => if_pos (by omega)
      have positive : 0 ≤ beatAt silence j := by
        rw [beatAt_eq]
        exact (beatValue_mem silence (j + 1)).1
      rw [beatAt_eq, before_congr same, ← beatAt_eq]
      exact positive.trans_lt rises
    · refine (silent_beat_falls_iff (mutedAfter (j + 1)) (j + 1)).1 (k + 2) ?_ ?_ k late (by omega)
      · intro k after _
        rw [mutedAfter, if_neg (by omega)]
        exact ⟨rfl, le_rfl⟩
      · exact fun k _ _ => onsetAt_mutedAfter (j + 1) k
  · have loud : ¬ Mute (Settings.defaults ℝ) := fun mute => BeatMode.noConfusion mute.1
    exact mt ((silent_beat_falls_iff silence 0).2 _ (fun _ _ => rfl) fun _ _ => ⟨rfl, rfl⟩).mp loud

/-- In silence from the first frame on the beat still rises. -/
theorem silence_beats :
    (∀ k, onsetAt silence k = 0) ∧ ¬ ∀ k, beatAt silence (k + 1) ≤ beatAt silence k := by
  refine ⟨fun k => rfl, fun falls => ?_⟩
  obtain ⟨k, rises⟩ := silence_rises
  exact absurd (falls k) (not_le.mpr rises)

end Listeningway.Dsp.BeatStage
