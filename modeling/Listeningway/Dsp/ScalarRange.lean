/- Listeningway/Dsp/ScalarRange
   source: src/audio/dsp/stages/volume_stage.h; src/audio/dsp/stages/band_norm_stage.h;
     src/audio/dsp/stages/pan_stage.h; src/audio/dsp/stages/beat_stage.cpp; STABILITY.md
   digest: The published scalars stay in their ranges, over whole runs. -/

import Listeningway.Dsp.StageRanges
import Listeningway.Dsp.UnitRange

set_option autoImplicit false
set_option relaxedAutoImplicit false

namespace Listeningway.Dsp.ScalarRange

open Listeningway.Config
open Listeningway.Dsp.UnitRange (Pass)
open Listeningway.Lib.Clamp
open Listeningway.Snapshot
open Listeningway.System.DspThread
open Set (Icc Ico)

/-! ### What holds between two passes -/

/-- What the stages keep between two passes; `most` bounds the attack/release levels. -/
structure Tame (most : ℝ) (c : ComposedStages ℝ) : Prop where
  volume : c.volume.Tame most
  bandNorm : c.bandNorm.Tame most
  confidence : c.beat.comb.lastConfidence ∈ Icc (0 : ℝ) 1
  pan : c.pan.smoothedPan ∈ Icc (-1 : ℝ) 1
  loudness : c.loudness.Tame

theorem tame_initial : Tame 1 (ComposedStages.initial : ComposedStages ℝ) where
  volume := ⟨le_rfl, zero_le_one, le_rfl⟩
  bandNorm := ⟨le_rfl, le_rfl, le_rfl, ⟨zero_le_one, le_rfl⟩, ⟨zero_le_one, le_rfl⟩,
    ⟨zero_le_one, le_rfl⟩⟩
  confidence := ⟨le_rfl, zero_le_one⟩
  pan := ⟨by norm_num [ComposedStages.initial, PanStage.initial],
    by norm_num [ComposedStages.initial, PanStage.initial]⟩
  loudness := LoudnessStage.tame_initial

theorem Tame.mono {most most' : ℝ} (le : most ≤ most') {c : ComposedStages ℝ} (h : Tame most c) :
    Tame most' c where
  volume := ⟨h.volume.mean, h.volume.att.imp_right le.trans'⟩
  bandNorm :=
    { h.bandNorm with
      bassAtt := h.bandNorm.bassAtt.imp_right le.trans'
      midAtt := h.bandNorm.midAtt.imp_right le.trans'
      trebAtt := h.bandNorm.trebAtt.imp_right le.trans' }
  confidence := h.confidence
  pan := h.pan
  loudness := h.loudness

/-- The ranges of the scalar fields of a processed frame. -/
structure FrameInRange (frame : AnalysisFrame ℝ) (clampMax most : ℝ) : Prop where
  volume : VolumeStage.InRange frame clampMax most
  bandNorm : BandNormStage.InRange frame clampMax most
  centroid : Written (Icc 0 1) frame.spectralCentroid
  beat : BeatStage.InRange frame
  phases : ChronotensityStage.InRange frame
  pan : Written (Icc (-1) 1) frame.audioPan
  loudness : Written (Icc 0 1) frame.loudness

/-! ### The fields that a stage writes settle whether it is in range -/

section Fields

variable {f g : AnalysisFrame ℝ} {clampMax most : ℝ}

theorem volume_congr (same : ∀ i ∈ VolumeStage.writes, f.get i = g.get i)
    (h : VolumeStage.InRange f clampMax most) : VolumeStage.InRange g clampMax most := by
  have volume : f.volume = g.volume := same .volume (by decide)
  have left : f.volumeLeft = g.volumeLeft := same .volumeLeft (by decide)
  have right : f.volumeRight = g.volumeRight := same .volumeRight (by decide)
  have norm : f.volumeNorm = g.volumeNorm := same .volumeNorm (by decide)
  have att : f.volumeAtt = g.volumeAtt := same .volumeAtt (by decide)
  exact ⟨volume ▸ h.volume, left ▸ h.left, right ▸ h.right, norm ▸ h.norm, att ▸ h.att⟩

theorem bandNorm_congr (same : ∀ i ∈ BandNormStage.writes, f.get i = g.get i)
    (h : BandNormStage.InRange f clampMax most) : BandNormStage.InRange g clampMax most := by
  have bassNorm : f.bassNorm = g.bassNorm := same .bassNorm (by decide)
  have midNorm : f.midNorm = g.midNorm := same .midNorm (by decide)
  have trebNorm : f.trebNorm = g.trebNorm := same .trebNorm (by decide)
  have bassAtt : f.bassAtt = g.bassAtt := same .bassAtt (by decide)
  have midAtt : f.midAtt = g.midAtt := same .midAtt (by decide)
  have trebAtt : f.trebAtt = g.trebAtt := same .trebAtt (by decide)
  exact ⟨bassNorm ▸ h.bassNorm, midNorm ▸ h.midNorm, trebNorm ▸ h.trebNorm,
    bassAtt ▸ h.bassAtt, midAtt ▸ h.midAtt, trebAtt ▸ h.trebAtt⟩

theorem beat_congr (same : ∀ i ∈ BeatStage.writes, f.get i = g.get i)
    (h : BeatStage.InRange f) : BeatStage.InRange g := by
  have beat : f.beat = g.beat := same .beat (by decide)
  have phase : f.beatPhase = g.beatPhase := same .beatPhase (by decide)
  have confidence : f.tempoConfidence = g.tempoConfidence := same .tempoConfidence (by decide)
  exact ⟨beat ▸ h.beat, phase ▸ h.phase, confidence ▸ h.confidence⟩

theorem phases_congr (same : ∀ i ∈ ChronotensityStage.writes, f.get i = g.get i)
    (h : ChronotensityStage.InRange f) : ChronotensityStage.InRange g := by
  have volume : f.phaseVolume = g.phaseVolume := same .phaseVolume (by decide)
  have bass : f.phaseBass = g.phaseBass := same .phaseBass (by decide)
  have treble : f.phaseTreble = g.phaseTreble := same .phaseTreble (by decide)
  exact ⟨volume ▸ h.volume, bass ▸ h.bass, treble ▸ h.treble⟩

theorem centroid_congr (same : ∀ i ∈ SpectralCentroidStage.writes, f.get i = g.get i)
    (h : Written (Icc 0 1) f.spectralCentroid) : Written (Icc 0 1) g.spectralCentroid := by
  have centroid : f.spectralCentroid = g.spectralCentroid := same .spectralCentroid (by decide)
  exact centroid ▸ h

theorem pan_congr (same : ∀ i ∈ PanStage.writes, f.get i = g.get i)
    (h : Written (Icc (-1) 1) f.audioPan) : Written (Icc (-1) 1) g.audioPan := by
  have pan : f.audioPan = g.audioPan := same .audioPan (by decide)
  exact pan ▸ h

theorem loudness_congr (same : ∀ i ∈ LoudnessStage.writes, f.get i = g.get i)
    (h : Written (Icc 0 1) f.loudness) : Written (Icc 0 1) g.loudness := by
  have loudness : f.loudness = g.loudness := same .loudness (by decide)
  exact loudness ▸ h

end Fields

/-! ### One pass over all stages -/

section Pass

variable [KissFft ℝ]
variable (c : ComposedStages ℝ) (x : Pass)

theorem bands_nonneg : ∀ b ∈ (c.process x.frame x.cfg).2.bands, 0 ≤ b := by
  rw [← c.srcBands_process, c.srcBands_eq x.cfg x.frame_blank]
  intro b held
  cases hs : (c.fft.process x.frame x.cfg).2.magnitudes with
  | none =>
    rw [hs] at held
    exact absurd held List.not_mem_nil
  | some mags =>
    rw [hs] at held
    dsimp only at held
    split_ifs at held
    · obtain ⟨k, -, rfl⟩ := List.mem_map.mp held
      have level := UnitRange.level_nonneg c x hs k
      exact mul_nonneg (le_min zero_le_one level) (UnitRange.gain_nonneg x k)
    · exact absurd held List.not_mem_nil

theorem stage_get (k : ℕ) {a : IDspStage ℝ} (stage : c.stages[k]? = some a)
    {fields : List FieldId}
    (last : ∀ i ∈ fields, i ∉ (ComposedStages.writes.drop (k + 1)).flatten) :
    ∀ i ∈ fields,
      (a.process (Pipeline.runStages x.cfg (c.stages.take k) x.frame).2 x.cfg).2.get i =
        (c.process x.frame x.cfg).2.get i :=
  fun i listed => (c.process_get_stage stage x.frame x.cfg (last i listed)).symm

theorem before_bandNorm :
    (∀ b ∈ (Pipeline.runStages x.cfg (c.stages.take 5) x.frame).2.bands, 0 ≤ b) ∧
      BandNormStage.Unwritten (Pipeline.runStages x.cfg (c.stages.take 5) x.frame).2 := by
  have bands : (c.process x.frame x.cfg).2.bands =
      (Pipeline.runStages x.cfg (c.stages.take 5) x.frame).2.bands :=
    c.process_get_take 5 x.frame x.cfg (i := .bands) (by decide)
  have untouched {i : FieldId} (early : i ∉ (ComposedStages.writes.take 5).flatten) :=
    c.runStages_take_get 5 x.frame x.cfg early
  rw [← bands]
  refine ⟨bands_nonneg c x, ?_⟩
  constructor
  · exact untouched (i := .bassNorm) (by decide)
  · exact untouched (i := .midNorm) (by decide)
  · exact untouched (i := .trebNorm) (by decide)
  · exact untouched (i := .bassAtt) (by decide)
  · exact untouched (i := .midAtt) (by decide)
  · exact untouched (i := .trebAtt) (by decide)

variable {c x}

theorem process_inRange {most : ℝ} (bounded : x.frame.Bounded)
    (below : x.cfg.agc.clampMax ≤ most) (tame : Tame most c) :
    Tame most (c.process x.frame x.cfg).1 ∧
      FrameInRange (c.process x.frame x.cfg).2 x.cfg.agc.clampMax most := by
  have settings : x.cfg.InRange := x.settings.inRange_clampInPlace
  obtain ⟨loud, unwritten⟩ := before_bandNorm c x
  have volume := VolumeStage.process_inRange bounded settings below tame.volume
  have bandNorm := BandNormStage.process_inRange loud unwritten settings below tame.bandNorm
  have beat := BeatStage.process_inRange tame.confidence
    (Pipeline.runStages x.cfg (c.stages.take 8) x.frame).2 x.cfg
  have pan := PanStage.process_inRange tame.pan
    (Pipeline.runStages x.cfg (c.stages.take 10) x.frame).2 x.cfg
  have loudness := LoudnessStage.process_inRange tame.loudness
    (Pipeline.runStages x.cfg (c.stages.take 12) x.frame).2 x.cfg
  constructor
  · rw [c.process_states]
    exact ⟨volume.1, bandNorm.1, beat.1, pan.1, loudness.1⟩
  · have centroid := SpectralCentroidStage.process_inRange
      (Pipeline.runStages x.cfg (c.stages.take 6) x.frame).2 x.cfg
    have phases := ChronotensityStage.process_inRange c.chronotensity
      (Pipeline.runStages x.cfg (c.stages.take 9) x.frame).2 x.cfg
    exact
      { volume := volume_congr (stage_get c x 0 rfl (by decide)) volume.2
        bandNorm := bandNorm_congr (stage_get c x 5 rfl (by decide)) bandNorm.2
        centroid := centroid_congr (stage_get c x 6 rfl (by decide)) centroid
        beat := beat_congr (stage_get c x 8 rfl (by decide)) beat.2
        phases := phases_congr (stage_get c x 9 rfl (by decide)) phases
        pan := pan_congr (stage_get c x 10 rfl (by decide)) pan.2
        loudness := loudness_congr (stage_get c x 12 rfl (by decide)) loudness.2 }

end Pass

/-! ### Runs -/

/-- The documented ranges of the published scalars. `clampMax` is the cap of the current
settings, `most` that of all settings so far, and 1 at least. -/
structure InRange (snap : AudioSnapshot ℝ) (clampMax most : ℝ) : Prop where
  volume : snap.volume ∈ Icc (0 : ℝ) 1
  volumeLeft : snap.volumeLeft ∈ Icc (0 : ℝ) 1
  volumeRight : snap.volumeRight ∈ Icc (0 : ℝ) 1
  beat : snap.beat ∈ Icc (0 : ℝ) 1
  spectralCentroid : snap.spectralCentroid ∈ Icc (0 : ℝ) 1
  loudness : snap.loudness ∈ Icc (0 : ℝ) 1
  tempoConfidence : snap.tempoConfidence ∈ Icc (0 : ℝ) 1
  audioPan : snap.audioPan ∈ Icc (-1 : ℝ) 1
  beatPhase : snap.beatPhase ∈ Ico (0 : ℝ) 1
  phaseVolume : snap.phaseVolume ∈ Ico (0 : ℝ) 1
  phaseBass : snap.phaseBass ∈ Ico (0 : ℝ) 1
  phaseTreble : snap.phaseTreble ∈ Ico (0 : ℝ) 1
  volumeNorm : snap.volumeNorm ∈ Icc 0 clampMax
  bassNorm : snap.bassNorm ∈ Icc 0 clampMax
  midNorm : snap.midNorm ∈ Icc 0 clampMax
  trebNorm : snap.trebNorm ∈ Icc 0 clampMax
  volumeAtt : snap.volumeAtt ∈ Icc 0 most
  bassAtt : snap.bassAtt ∈ Icc 0 most
  midAtt : snap.midAtt ∈ Icc 0 most
  trebAtt : snap.trebAtt ∈ Icc 0 most

theorem FrameInRange.project {frame : AnalysisFrame ℝ} {clampMax most : ℝ}
    (h : FrameInRange frame clampMax most) (cap : 1 ≤ clampMax) (below : clampMax ≤ most)
    (profile : Profile ℝ) : InRange (project frame profile) clampMax most := by
  have zero : (0 : ℝ) ∈ Icc (0 : ℝ) 1 := ⟨le_rfl, zero_le_one⟩
  have start : (0 : ℝ) ∈ Ico (0 : ℝ) 1 := ⟨le_rfl, zero_lt_one⟩
  have centre : (0 : ℝ) ∈ Icc (-1 : ℝ) 1 := ⟨by norm_num, zero_le_one⟩
  have even : (1 : ℝ) ∈ Icc 0 clampMax := ⟨zero_le_one, cap⟩
  have level : (1 : ℝ) ∈ Icc 0 most := ⟨zero_le_one, cap.trans below⟩
  exact
    { volume := h.volume.volume.getD zero
      volumeLeft := h.volume.left.getD zero
      volumeRight := h.volume.right.getD zero
      beat := h.beat.beat.getD zero
      spectralCentroid := h.centroid.getD zero
      loudness := h.loudness.getD zero
      tempoConfidence := h.beat.confidence.getD zero
      audioPan := h.pan.getD centre
      beatPhase := h.beat.phase.getD start
      phaseVolume := h.phases.volume.getD start
      phaseBass := h.phases.bass.getD start
      phaseTreble := h.phases.treble.getD start
      volumeNorm := h.volume.norm.getD even
      bassNorm := h.bandNorm.bassNorm.getD even
      midNorm := h.bandNorm.midNorm.getD even
      trebNorm := h.bandNorm.trebNorm.getD even
      volumeAtt := h.volume.att.getD level
      bassAtt := h.bandNorm.bassAtt.getD level
      midAtt := h.bandNorm.midAtt.getD level
      trebAtt := h.bandNorm.trebAtt.getD level }

/-- The largest cap of the gain control in a run, and 1 at least. -/
noncomputable def largestCap (run : List Pass) : ℝ :=
  (run.map fun x => x.cfg.agc.clampMax).foldl max 1

theorem largestCap_snoc (run : List Pass) (x : Pass) :
    largestCap (run ++ [x]) = max (largestCap run) x.cfg.agc.clampMax := by
  rw [largestCap, List.map_append, List.foldl_append]
  rfl

section Runs

variable [KissFft ℝ]

/-- A pipeline after a run, with the frames it has processed. -/
noncomputable def after (p : Pipeline ℝ) (run : List Pass) : Pipeline ℝ × List (AnalysisFrame ℝ) :=
  run.foldl (fun s x =>
    let out := s.1.process x.frame x.cfg x.clock
    (out.1, s.2 ++ [out.2])) (p, [])

theorem after_snoc (p : Pipeline ℝ) (run : List Pass) (x : Pass) :
    after p (run ++ [x]) =
      (((after p run).1.process x.frame x.cfg x.clock).1,
        (after p run).2 ++ [((after p run).1.process x.frame x.cfg x.clock).2]) := by
  rw [after, List.foldl_append]
  rfl

/-- No mean of the gain control is 0 after the first frame that reaches it, nor below 0 at
any time; the running sum under the root of the loudness is never negative. -/
structure Guarded (p : Pipeline ℝ) (frames : List (AnalysisFrame ℝ)) : Prop where
  volume : ∀ st, .volume st ∈ p.stages → 0 < st.runningMean ∨
    st.runningMean = 0 ∧ ∀ f ∈ frames, DirectionalStage.NoData f
  bands : ∀ st, .bandNorm st ∈ p.stages →
    (0 < st.bassMean ∧ 0 < st.midMean ∧ 0 < st.trebMean) ∨
      (st.bassMean = 0 ∧ st.midMean = 0 ∧ st.trebMean = 0) ∧ ∀ f ∈ frames, f.bands = []
  loudness : ∀ st, .loudness st ∈ p.stages → 0 ≤ st.runningSum

/-- `Guarded` of the composed stages, and what it rests on. -/
structure Inv (most : ℝ) (frames : List (AnalysisFrame ℝ)) (c : ComposedStages ℝ) : Prop where
  tame : Tame most c
  volume : 0 < c.volume.runningMean ∨
    c.volume.runningMean = 0 ∧ ∀ f ∈ frames, DirectionalStage.NoData f
  bands : (0 < c.bandNorm.bassMean ∧ 0 < c.bandNorm.midMean ∧ 0 < c.bandNorm.trebMean) ∨
    (c.bandNorm.bassMean = 0 ∧ c.bandNorm.midMean = 0 ∧ c.bandNorm.trebMean = 0) ∧
      ∀ f ∈ frames, f.bands = []

omit [KissFft ℝ] in
theorem Inv.guarded {most : ℝ} {frames : List (AnalysisFrame ℝ)} {c : ComposedStages ℝ}
    (h : Inv most frames c) {p : Pipeline ℝ} (shape : p.stages = c.stages) :
    Guarded p frames := by
  rw [ComposedStages.stages] at shape
  constructor
  · intro st listed
    rw [shape] at listed
    obtain rfl : st = c.volume := by simpa using listed
    exact h.volume
  · intro st listed
    rw [shape] at listed
    obtain rfl : st = c.bandNorm := by simpa using listed
    exact h.bands
  · intro st listed
    rw [shape] at listed
    obtain rfl : st = c.loudness := by simpa using listed
    exact h.tame.loudness.runningSum_nonneg

omit [KissFft ℝ] in
theorem inv_initial : Inv 1 [] (ComposedStages.initial : ComposedStages ℝ) where
  tame := tame_initial
  volume := .inr ⟨rfl, fun _ none => absurd none List.not_mem_nil⟩
  bands := .inr ⟨⟨rfl, rfl, rfl⟩, fun _ none => absurd none List.not_mem_nil⟩

theorem noData_process (c : ComposedStages ℝ) (x : Pass) :
    DirectionalStage.NoData (c.process x.frame x.cfg).2 ↔ DirectionalStage.NoData x.frame := by
  have samples : (c.process x.frame x.cfg).2.samples = x.frame.samples :=
    c.process_get_take 0 x.frame x.cfg (i := .samples) (by decide)
  have format : (c.process x.frame x.cfg).2.format = x.frame.format :=
    c.process_get_take 0 x.frame x.cfg (i := .format) (by decide)
  rw [DirectionalStage.NoData, DirectionalStage.NoData, AnalysisFrame.frames,
    AnalysisFrame.frames, samples, format]

theorem Inv.process {most : ℝ} {frames : List (AnalysisFrame ℝ)} {c : ComposedStages ℝ}
    (h : Inv most frames c) {x : Pass} (bounded : x.frame.Bounded) :
    Inv (max most x.cfg.agc.clampMax) (frames ++ [(c.process x.frame x.cfg).2])
      (c.process x.frame x.cfg).1 := by
  have tame := (process_inRange bounded (le_max_right most _) (h.tame.mono (le_max_left _ _))).1
  refine ⟨tame, ?_, ?_⟩
  · rcases c.volume.process_mean x.frame x.cfg with positive | ⟨empty, same⟩
    · exact .inl positive
    · rcases h.volume with positive | ⟨zero, never⟩
      · exact .inl (positive.trans_eq same.symm)
      · refine .inr ⟨same.trans zero, List.forall_mem_append.mpr ⟨never, ?_⟩⟩
        rw [List.forall_mem_singleton]
        exact (noData_process c x).mpr empty
  · have bands : (Pipeline.runStages x.cfg (c.stages.take 5) x.frame).2.bands =
        (c.process x.frame x.cfg).2.bands :=
      (c.process_get_take 5 x.frame x.cfg (i := .bands) (by decide)).symm
    rcases c.bandNorm.process_mean (Pipeline.runStages x.cfg (c.stages.take 5) x.frame).2 x.cfg
      with positive | ⟨empty, same⟩
    · exact .inl positive
    · have kept : (c.process x.frame x.cfg).1.bandNorm = c.bandNorm := same
      rw [kept]
      refine h.bands.imp_right fun ⟨zero, never⟩ => ⟨zero, ?_⟩
      refine List.forall_mem_append.mpr ⟨never, ?_⟩
      rw [List.forall_mem_singleton, ← bands]
      exact empty

theorem inv_after {run : List Pass} (bounded : ∀ x ∈ run, x.frame.Bounded) :
    ∃ c : ComposedStages ℝ, (after Pipeline.composePipeline run).1.stages = c.stages ∧
      Inv (largestCap run) (after Pipeline.composePipeline run).2 c := by
  induction run using List.reverseRecOn with
  | nil => exact ⟨.initial, ComposedStages.composePipeline_stages, inv_initial⟩
  | append_singleton run x ih =>
    obtain ⟨earlier, now⟩ := List.forall_mem_append.mp bounded
    obtain ⟨c, shape, inv⟩ := ih earlier
    obtain ⟨next, out⟩ := UnitRange.process_stages shape x
    rw [after_snoc, largestCap_snoc, out]
    exact ⟨_, next, inv.process (now x (List.mem_singleton_self x))⟩

/-- After any run of frames at full scale or below, whatever the settings did in between,
the next frame is published with every scalar in its range, and leaves the gain control
with means above 0. -/
theorem scalars_stay_in_range {run : List Pass} {x : Pass}
    (bounded : ∀ y ∈ run ++ [x], ∀ s ∈ y.samples, s ∈ Icc (-1 : ℝ) 1) :
    let s := after Pipeline.composePipeline run
    let out := s.1.process x.frame x.cfg x.clock
    InRange (project out.2 out.1.profile) x.cfg.agc.clampMax (largestCap (run ++ [x])) ∧
      Guarded out.1 (s.2 ++ [out.2]) := by
  obtain ⟨earlier, now⟩ := List.forall_mem_append.mp bounded
  obtain ⟨c, shape, inv⟩ := inv_after earlier
  obtain ⟨next, out⟩ := UnitRange.process_stages shape x
  have full : x.frame.Bounded := now x (List.mem_singleton_self x)
  have cap := one_le_clampMax x.settings.inRange_clampInPlace
  have below := le_max_right (largestCap run) x.cfg.agc.clampMax
  have frame := (process_inRange full below (inv.tame.mono (le_max_left _ _))).2
  dsimp only
  rw [out, largestCap_snoc]
  exact ⟨frame.project cap below _, (inv.process full).guarded next⟩

end Runs

/-- One stereo frame at full scale, left against right, on a loud setting. -/
noncomputable def loudPass : Pass where
  samples := [1, -1]
  format := ⟨48000, 2, .stereo⟩
  capturedAt := 1
  frameIndex := 0
  settings :=
    { Settings.defaults ℝ with
      frequency := { FrequencyConfig.defaults ℝ with amplifierVolume := 11.0 } }
  clock := ⟨0, fun _ => 0, fun _ => 0, 0⟩

/-- No data, and no channels, under the default settings. -/
noncomputable def emptyPass : Pass where
  samples := []
  format := ⟨0, 0, .unknown⟩
  capturedAt := 2
  frameIndex := 1
  settings := Settings.defaults ℝ
  clock := ⟨0, fun _ => 0, fun _ => 0, 0⟩

theorem scalars_after_loud_pass :
    let s := after Pipeline.composePipeline [loudPass]
    let out := s.1.process emptyPass.frame emptyPass.cfg emptyPass.clock
    InRange (project out.2 out.1.profile) emptyPass.cfg.agc.clampMax
        (largestCap [loudPass, emptyPass]) ∧
      Guarded out.1 (s.2 ++ [out.2]) := by
  have bounded : ∀ y ∈ [loudPass] ++ [emptyPass], ∀ s ∈ y.samples, s ∈ Icc (-1 : ℝ) 1 := by
    intro y listed s sample
    simp only [List.cons_append, List.nil_append, List.mem_cons, List.not_mem_nil, or_false]
      at listed
    rcases listed with rfl | rfl
    · simp only [loudPass, List.mem_cons, List.not_mem_nil, or_false] at sample
      rcases sample with rfl | rfl <;> norm_num
    · exact absurd sample List.not_mem_nil
  exact scalars_stay_in_range bounded

end Listeningway.Dsp.ScalarRange
