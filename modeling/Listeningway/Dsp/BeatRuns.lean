/- Listeningway/Dsp/BeatRuns
   source: src/audio/dsp/stages/beat_stage.cpp; src/audio/dsp/beat/comb_tempo.cpp;
     src/audio/dsp/beat/beat_tracker.cpp
   digest: Runs of the beat stage, and which of its tempo outputs the lock gates. -/

import Listeningway.Dsp.BeatSchedule
import Listeningway.Dsp.StageRanges

/-!
A reset clears everything that the stage carries from frame to frame, so any number of resets
before a frame is one, and it belongs to the frame.
-/

set_option autoImplicit false
set_option relaxedAutoImplicit false

namespace Listeningway.Dsp.BeatStage

open Listeningway.Config
open Listeningway.Lib.Clamp
open Listeningway.Lib.StreamRun
open Set (Icc)

/-! ### Runs -/

/-- One frame of a run. -/
structure Call where
  resetBefore : Bool
  frame : AnalysisFrame ℝ
  cfg : Settings ℝ

/-- The stage that processes the frame. -/
noncomputable def entered (st : BeatStage ℝ) (c : Call) : BeatStage ℝ :=
  if c.resetBefore then st.reset else st

section Transforms

variable [KissFft ℝ]

/-- The stage before frame `k`. -/
noncomputable def before (input : ℕ → Call) (k : ℕ) : BeatStage ℝ :=
  stateAt (fun st c => ((entered st c).process c.frame c.cfg).1) initial input k

/-- The stage that processes frame `k`. -/
noncomputable def entering (input : ℕ → Call) (k : ℕ) : BeatStage ℝ :=
  entered (before input k) (input k)

/-- Frame `k` with what the stage writes into it. -/
noncomputable def published (input : ℕ → Call) (k : ℕ) : AnalysisFrame ℝ :=
  ((entering input k).process (input k).frame (input k).cfg).2

theorem before_succ (input : ℕ → Call) (k : ℕ) :
    before input (k + 1) = ((entering input k).process (input k).frame (input k).cfg).1 :=
  stateAt_succ _ _ _ _

/-! ### The tempo -/

/-- What the shaders are promised of the tempo: nothing while it is not detected, a tempo in
range once it is. -/
def Gated (out : AnalysisFrame ℝ) : Prop :=
  (out.tempoDetected = some false → out.tempoBpm = some 0 ∧ out.beatPhase = some 0) ∧
    (out.tempoDetected = some true → ∃ bpm ∈ Icc (80 : ℝ) 160, out.tempoBpm = some bpm)

/-- The comb has made no estimate, or the period of its last one is that of a tempo. -/
def Estimated (comb : CombTempo ℝ) : Prop :=
  (comb.lastConfidence = 0 ∧ comb.lastBeatPeriodSamples = 0) ∨
    ∃ bpm ∈ Icc (80 : ℝ) 160, comb.lastBeatPeriodSamples = CombTempo.kTempoToLagFactor / bpm

theorem estimated_estimate (comb : CombTempo ℝ) (odf : Fin CombTempo.kOdfLength → ℝ) :
    Estimated (comb.estimate odf) := by
  right
  set peak := CombTempo.argmax (comb.estimate odf).delta with found
  have bound : (peak : ℕ) ≤ 40 := Nat.lt_succ_iff.mp peak.2
  have lower : (80 : ℝ) ≤ ((2 * peak + 80 : ℕ) : ℝ) := by
    exact_mod_cast Nat.le_add_left 80 (2 * peak)
  have upper : ((2 * peak + 80 : ℕ) : ℝ) ≤ 160 := by
    exact_mod_cast (by omega : 2 * (peak : ℕ) + 80 ≤ 160)
  refine ⟨((2 * peak + 80 : ℕ) : ℝ), ⟨lower, upper⟩, ?_⟩
  change CombTempo.kTempoToLagFactor / max ((2 * peak + 80 : ℕ) : ℝ) 1 = _
  rw [max_eq_left (by linarith)]

theorem estimated_updateTempo {comb : CombTempo ℝ} (h : Estimated comb) (odfBuf : OdfBuffer ℝ)
    (framesSince : ℕ) (rate : ℝ) :
    Estimated (updateTempo comb odfBuf framesSince rate).1 := by
  unfold updateTempo
  split_ifs
  · dsimp only
    split_ifs
    · exact estimated_estimate comb _
    · exact h
  · exact h

omit [KissFft ℝ] in
theorem estimated_entered {st : BeatStage ℝ} (h : Estimated st.comb) (c : Call) :
    Estimated (entered st c).comb := by
  unfold entered
  split_ifs
  · exact .inl ⟨rfl, rfl⟩
  · exact h

theorem estimated_entering (input : ℕ → Call) (k : ℕ) : Estimated (entering input k).comb := by
  have kept : Estimated (before input k).comb :=
    stateAt_invariant (fun st : BeatStage ℝ => Estimated st.comb) (.inl ⟨rfl, rfl⟩)
      (fun st c h => estimated_updateTempo (estimated_entered h c) _ _ _) k
  exact estimated_entered kept _

theorem detected_in_range (input : ℕ → Call) (k : ℕ)
    (detected : (published input k).tempoDetected = some true) :
    ∃ bpm ∈ Icc (80 : ℝ) 160, (published input k).tempoBpm = some bpm := by
  set comb := (updateTempo (entering input k).comb
    ((entering input k).odfBuf.push (onset (entering input k).csd (input k).frame).2)
    ((entering input k).framesSinceTempoUpdate + 1)
    ((entering input k).hopRate (input k).frame.capturedAt)).1 with estimate
  have sure : locked comb.lastConfidence = true := Option.some.inj detected
  have tempo : (published input k).tempoBpm = some (if 0 < comb.lastBeatPeriodSamples then
      60.0 * 86.0 / comb.lastBeatPeriodSamples else 0) := rfl
  rcases estimated_updateTempo (estimated_entering input k) _ _ _ with
    ⟨none, -⟩ | ⟨bpm, range, period⟩
  · rw [locked, decide_eq_true_eq, estimate, none] at sure
    norm_num [kConfidenceLockThreshold] at sure
  · have positive : (0 : ℝ) < bpm := by linarith [range.1]
    have factor : (0 : ℝ) < CombTempo.kTempoToLagFactor := by
      norm_num [CombTempo.kTempoToLagFactor]
    rw [← estimate] at period
    refine ⟨bpm, range, ?_⟩
    rw [tempo, period, if_pos (div_pos factor positive)]
    congr 1
    exact div_div_cancel₀ factor.ne'

/-! ### The first frames -/

/-- Nothing has been tracked or estimated since the construction or the last reset. -/
structure Fresh (st : BeatStage ℝ) : Prop where
  comb : st.comb = CombTempo.initial
  tracker : st.tracker = BeatTracker.initial
  framesSince : st.framesSinceTempoUpdate = 0

omit [KissFft ℝ] in
theorem fresh_reset (st : BeatStage ℝ) : Fresh st.reset := ⟨rfl, rfl, rfl⟩

theorem fresh_first (input : ℕ → Call) : Fresh (entering input 0) := by
  unfold entering entered before
  split_ifs <;> exact ⟨rfl, rfl, rfl⟩

theorem updateTempo_early (comb : CombTempo ℝ) (odfBuf : OdfBuffer ℝ) {framesSince : ℕ} (rate : ℝ)
    (early : framesSince < kTempoUpdateHops) :
    updateTempo comb odfBuf framesSince rate = (comb, framesSince) :=
  if_neg (not_le.mpr early)

omit [KissFft ℝ] in
theorem not_locked_initial : locked (CombTempo.initial : CombTempo ℝ).lastConfidence = false := by
  rw [locked, decide_eq_false_iff_not]
  norm_num [CombTempo.initial, kConfidenceLockThreshold]

theorem no_tempo_before_estimate {st : BeatStage ℝ} (none : st.comb = CombTempo.initial)
    (early : st.framesSinceTempoUpdate + 1 < kTempoUpdateHops) (frame : AnalysisFrame ℝ)
    (cfg : Settings ℝ) :
    (st.process frame cfg).1.comb = CombTempo.initial ∧
      (st.process frame cfg).1.framesSinceTempoUpdate = st.framesSinceTempoUpdate + 1 ∧
      (st.process frame cfg).2.tempoDetected = some false ∧
      (st.process frame cfg).2.tempoBpm = some 0 := by
  unfold process
  simp only [updateTempo_early _ _ _ early, none, not_locked_initial, true_and]
  exact congrArg some (if_neg (lt_irrefl (0 : ℝ)))

omit [KissFft ℝ] in
theorem first_call (odf period : ℝ) :
    BeatTracker.initial.process odf period =
      ({ BeatTracker.initial.advanced odf period with
          beatPhaseCounter := 0
          timeToNextBeat := roundAway (BeatTracker.usedPeriod period) }, true) :=
  BeatTracker.process_due odf period (by decide) (by decide)

theorem fresh_phase {st : BeatStage ℝ} (fresh : Fresh st) (frame : AnalysisFrame ℝ)
    (cfg : Settings ℝ) : (st.process frame cfg).2.beatPhase = some 0 := by
  have start : ∀ odf period : ℝ, (BeatTracker.initial.process odf period).1.beatPhase = 0 := by
    intro odf period
    rw [first_call, BeatTracker.beatPhase]
    split_ifs
    · rfl
    · norm_num [floorPart, clamp]
  change some (st.tracker.process _ _).1.beatPhase = some 0
  rw [fresh.tracker, start]

omit [KissFft ℝ] in
theorem second_phase {tracker : BeatTracker ℝ} {odf period : ℝ}
    (phase : tracker.beatPhaseCounter = 0) (later : 1 < tracker.timeToNextPrediction)
    (waits : 1 < tracker.timeToNextBeat) : 0 < (tracker.process odf period).1.beatPhase := by
  have long : (10.0 : ℝ) ≤ BeatTracker.usedPeriod period := (BeatTracker.usedPeriod_mem period).1
  have inside : 0 < 1 / BeatTracker.usedPeriod period := by
    apply one_div_pos.mpr
    linarith
  have short : 1 / BeatTracker.usedPeriod period < 1 := by
    rw [div_lt_one (by linarith)]
    linarith
  have counted : (tracker.advanced odf period).beatPhaseCounter = 1 := by
    change tracker.beatPhaseCounter + 1 = 1
    rw [phase]
    rfl
  have floor : ⌊1 / BeatTracker.usedPeriod period⌋ = 0 :=
    Int.floor_eq_zero_iff.mpr ⟨inside.le, short⟩
  have positive : ¬ (tracker.advanced odf period).beatPeriod ≤ 0 := by
    change ¬ BeatTracker.usedPeriod period ≤ 0
    linarith
  rw [BeatTracker.process_quiet _ _ later waits, BeatTracker.beatPhase, if_neg positive, counted]
  change 0 < clamp ((1 : ℤ) / BeatTracker.usedPeriod period -
    floorPart ((1 : ℤ) / BeatTracker.usedPeriod period)) 0 0.999999
  rw [Int.cast_one, floorPart, floor, Int.cast_zero, sub_zero]
  unfold clamp
  split_ifs
  · linarith
  · norm_num
  · exact inside

theorem second_frame_ungated {st : BeatStage ℝ} (fresh : Fresh st) (frame frame' : AnalysisFrame ℝ)
    (cfg cfg' : Settings ℝ) :
    ¬ Gated ((st.process frame cfg).1.process frame' cfg').2 := by
  have early : st.framesSinceTempoUpdate + 1 < kTempoUpdateHops := by
    rw [fresh.framesSince]
    decide
  obtain ⟨comb, count, -, -⟩ := no_tempo_before_estimate fresh.comb early frame cfg
  have early' : (st.process frame cfg).1.framesSinceTempoUpdate + 1 < kTempoUpdateHops := by
    rw [count, fresh.framesSince]
    decide
  obtain ⟨-, -, undetected, -⟩ := no_tempo_before_estimate comb early' frame' cfg'
  intro gated
  have phase := (gated.1 undetected).2
  set odf := (onset st.csd frame).2
  set period := nativePeriod (st.process frame cfg).1.comb.lastBeatPeriodSamples
    (st.hopRate frame.capturedAt)
  have tracked : (st.process frame cfg).1.tracker =
      { BeatTracker.initial.advanced odf period with
        beatPhaseCounter := 0
        timeToNextBeat := roundAway (BeatTracker.usedPeriod period) } := by
    change (st.tracker.process odf period).1 = _
    rw [fresh.tracker, first_call]
  have half := BeatTracker.five_le_halfPeriod period
  have outlasts := BeatTracker.halfPeriod_lt_roundAway period
  have moved : ∀ odf' period' : ℝ,
      0 < ((st.process frame cfg).1.tracker.process odf' period').1.beatPhase := by
    intro odf' period'
    rw [tracked]
    apply second_phase
    · rfl
    · change (1 : ℤ) < 10 - 1
      norm_num
    · change (1 : ℤ) < roundAway (BeatTracker.usedPeriod period)
      omega
  exact (moved _ _).ne' (Option.some.inj phase)

theorem fresh_gated {st : BeatStage ℝ} (fresh : Fresh st) (frame : AnalysisFrame ℝ)
    (cfg : Settings ℝ) : Gated (st.process frame cfg).2 := by
  have early : st.framesSinceTempoUpdate + 1 < kTempoUpdateHops := by
    rw [fresh.framesSince]
    decide
  obtain ⟨-, -, undetected, tempo⟩ := no_tempo_before_estimate fresh.comb early frame cfg
  refine ⟨fun _ => ⟨tempo, fresh_phase fresh frame cfg⟩, fun detected => ?_⟩
  rw [undetected] at detected
  cases Option.some.inj detected

/-- The lock gates the outputs of a run exactly as long as no frame follows another without a
reset in between; the range of a detected tempo holds of every run. -/
theorem gated_iff (input : ℕ → Call) (n : ℕ) :
    ((∀ k < n, Gated (published input k)) ↔
      ∀ k, k + 1 < n → (input (k + 1)).resetBefore = true) ∧
    ∀ k, (published input k).tempoDetected = some true →
      ∃ bpm ∈ Icc (80 : ℝ) 160, (published input k).tempoBpm = some bpm := by
  have entered_fresh : ∀ k, (∀ i, i < k → (input (i + 1)).resetBefore = true) →
      Fresh (entering input k) := by
    intro k resets
    cases k with
    | zero => exact fresh_first input
    | succ k =>
      rw [entering, entered, if_pos (resets k (Nat.lt_succ_self k))]
      exact fresh_reset _
  refine ⟨⟨?_, ?_⟩, detected_in_range input⟩
  · intro gated k
    induction k using Nat.strong_induction_on with
    | _ k earlier =>
      intro inside
      by_contra kept
      have fresh := entered_fresh k fun i before => earlier i before (by omega)
      have plain : entering input (k + 1) = before input (k + 1) := if_neg kept
      have ungated := second_frame_ungated fresh (input k).frame (input (k + 1)).frame
        (input k).cfg (input (k + 1)).cfg
      rw [← before_succ, ← plain] at ungated
      exact ungated (gated (k + 1) inside)
  · intro resets k inside
    exact fresh_gated (entered_fresh k fun i before => resets i (by omega)) _ _

end Transforms

/-- Silent frames every ten milliseconds, under the default settings. -/
noncomputable def silence (k : ℕ) : Call where
  resetBefore := false
  frame := AnalysisFrame.ofChunk [] ⟨48000, 2, .stereo⟩ (10000000 * (k + 1)) k
  cfg := Settings.defaults ℝ

/-- The second frame of silence has a beat phase although no tempo is detected. -/
theorem silence_has_phase : ¬ ∀ k < 2, Gated (published silence k) := by
  intro gated
  exact second_frame_ungated (fresh_first silence) (silence 0).frame (silence 1).frame
    (silence 0).cfg (silence 1).cfg (gated 1 one_lt_two)

end Listeningway.Dsp.BeatStage
