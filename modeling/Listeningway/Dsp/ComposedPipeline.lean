/- Listeningway/Dsp/ComposedPipeline
   source: src/app.cpp; src/audio/dsp/pipeline.cpp
   digest: The thirteen stages of compose_pipeline as one state with one transition. -/

import Listeningway.Dsp.Footprint

set_option autoImplicit false
set_option relaxedAutoImplicit false

namespace Listeningway.Dsp

open Listeningway.Config

/-- The states of the stages of `compose_pipeline`; a pipeline of this shape keeps it. -/
structure ComposedStages (K : Type) where
  volume : VolumeStage K
  fft : FftStage K
  bands : BandsStage K
  bandNorm : BandNormStage K
  flux : FluxStage K
  beat : BeatStage K
  chronotensity : ChronotensityStage K
  pan : PanStage K
  directional : DirectionalStage K
  loudness : LoudnessStage K

namespace ComposedStages

variable {K : Type}

def stages (c : ComposedStages K) : List (IDspStage K) :=
  [.volume c.volume, .fft c.fft, .bands c.bands, .logBoost, .equalizer, .bandNorm c.bandNorm,
    .spectralCentroid, .flux c.flux, .beat c.beat, .chronotensity c.chronotensity, .pan c.pan,
    .directional c.directional, .loudness c.loudness]

/-- What the stages declare to write, in their order. -/
def writes : List (List FieldId) :=
  [VolumeStage.writes, FftStage.writes, BandsStage.writes, LogBoostStage.writes,
    EqualizerStage.writes, BandNormStage.writes, SpectralCentroidStage.writes, FluxStage.writes,
    BeatStage.writes, ChronotensityStage.writes, PanStage.writes, DirectionalStage.writes,
    LoudnessStage.writes]

theorem stages_map_writes (c : ComposedStages K) : c.stages.map IDspStage.writes = writes := rfl

variable [Field K] [LinearOrder K]

def initial : ComposedStages K where
  volume := VolumeStage.initial
  fft := FftStage.initial
  bands := BandsStage.initial
  bandNorm := BandNormStage.initial
  flux := FluxStage.initial
  beat := BeatStage.initial
  chronotensity := ChronotensityStage.initial
  pan := PanStage.initial
  directional := DirectionalStage.initial
  loudness := LoudnessStage.initial

omit [LinearOrder K] in
theorem composePipeline_stages :
    (Pipeline.composePipeline : Pipeline K).stages = initial.stages := rfl

/-- All stages but DirectionalStage after `reset`, which it does not override. -/
def reset (c : ComposedStages K) : ComposedStages K where
  volume := c.volume.reset
  fft := c.fft.reset
  bands := c.bands.reset
  bandNorm := c.bandNorm.reset
  flux := c.flux.reset
  beat := c.beat.reset
  chronotensity := c.chronotensity.reset
  pan := c.pan.reset
  directional := c.directional.reset
  loudness := c.loudness.reset

omit [LinearOrder K] in
theorem stages_reset (c : ComposedStages K) : c.stages.map IDspStage.reset = c.reset.stages := rfl

omit [LinearOrder K] in
theorem reset_initial : (initial : ComposedStages K).reset = initial := rfl

variable [FloorRing K] [Cmath K] [KissFft K]

/-- One pass over all stages. -/
def process (c : ComposedStages K) (frame : AnalysisFrame K) (cfg : Settings K) :
    ComposedStages K × AnalysisFrame K :=
  let volume := c.volume.process frame cfg
  let fft := c.fft.process volume.2 cfg
  let bands := c.bands.process fft.2 cfg
  let boosted := LogBoostStage.process bands.2 cfg
  let equalized := EqualizerStage.process boosted cfg
  let bandNorm := c.bandNorm.process equalized cfg
  let centred := SpectralCentroidStage.process bandNorm.2 cfg
  let flux := c.flux.process centred cfg
  let beat := c.beat.process flux.2 cfg
  let chronotensity := c.chronotensity.process beat.2 cfg
  let pan := c.pan.process chronotensity.2 cfg
  let directional := c.directional.process pan.2 cfg
  let loudness := c.loudness.process directional.2 cfg
  ({ volume := volume.1
     fft := fft.1
     bands := bands.1
     bandNorm := bandNorm.1
     flux := flux.1
     beat := beat.1
     chronotensity := chronotensity.1
     pan := pan.1
     directional := directional.1
     loudness := loudness.1 }, loudness.2)

theorem runStages_stages (c : ComposedStages K) (frame : AnalysisFrame K) (cfg : Settings K) :
    Pipeline.runStages cfg c.stages frame =
      ((c.process frame cfg).1.stages, (c.process frame cfg).2) := by
  simp only [stages, Pipeline.runStages, IDspStage.process, process]

theorem process_get_take (c : ComposedStages K) (k : ℕ) (frame : AnalysisFrame K)
    (cfg : Settings K) {i : FieldId} (h : i ∉ (writes.drop k).flatten) :
    (c.process frame cfg).2.get i =
      (Pipeline.runStages cfg (c.stages.take k) frame).2.get i := by
  have parts : (c.process frame cfg).2 = (Pipeline.runStages cfg (c.stages.drop k)
      (Pipeline.runStages cfg (c.stages.take k) frame).2).2 := by
    have whole := congrArg Prod.snd (c.runStages_stages frame cfg)
    rw [← List.take_append_drop k c.stages, Pipeline.runStages_append] at whole
    exact whole.symm
  rw [parts]
  apply (Pipeline.runStages_touches cfg _ _).get
  rwa [List.flatMap_def, List.map_drop, stages_map_writes]

theorem runStages_take_get (c : ComposedStages K) (k : ℕ) (frame : AnalysisFrame K)
    (cfg : Settings K) {i : FieldId} (h : i ∉ (writes.take k).flatten) :
    (Pipeline.runStages cfg (c.stages.take k) frame).2.get i = frame.get i := by
  apply (Pipeline.runStages_touches cfg _ frame).get
  rwa [List.flatMap_def, List.map_take, stages_map_writes]

theorem process_get_stage (c : ComposedStages K) {k : ℕ} {a : IDspStage K}
    (stage : c.stages[k]? = some a) (frame : AnalysisFrame K) (cfg : Settings K) {i : FieldId}
    (h : i ∉ (writes.drop (k + 1)).flatten) :
    (c.process frame cfg).2.get i =
      (a.process (Pipeline.runStages cfg (c.stages.take k) frame).2 cfg).2.get i := by
  have next : (Pipeline.runStages cfg (c.stages.take (k + 1)) frame).2 =
      (a.process (Pipeline.runStages cfg (c.stages.take k) frame).2 cfg).2 := by
    rw [List.take_add_one, stage, Option.toList_some, Pipeline.runStages_append]
    rfl
  rw [c.process_get_take (k + 1) frame cfg h, next]

theorem process_states (c : ComposedStages K) (frame : AnalysisFrame K) (cfg : Settings K) :
    let before := fun k => (Pipeline.runStages cfg (c.stages.take k) frame).2
    (c.process frame cfg).1 =
      { volume := (c.volume.process (before 0) cfg).1
        fft := (c.fft.process (before 1) cfg).1
        bands := (c.bands.process (before 2) cfg).1
        bandNorm := (c.bandNorm.process (before 5) cfg).1
        flux := (c.flux.process (before 7) cfg).1
        beat := (c.beat.process (before 8) cfg).1
        chronotensity := (c.chronotensity.process (before 9) cfg).1
        pan := (c.pan.process (before 10) cfg).1
        directional := (c.directional.process (before 11) cfg).1
        loudness := (c.loudness.process (before 12) cfg).1 } := by
  simp only [stages, List.take_succ_cons, List.take_zero, Pipeline.runStages, IDspStage.process,
    process]

theorem process_directional (c : ComposedStages K) (frame : AnalysisFrame K) (cfg : Settings K) :
    (c.process frame cfg).1.directional = (c.directional.process frame cfg).1 ∧
      (c.process frame cfg).2.direction8 = (c.directional.process frame cfg).2.direction8 := by
  have samples : (Pipeline.runStages cfg (c.stages.take 11) frame).2.samples = frame.samples :=
    c.runStages_take_get 11 _ cfg (i := .samples) (by decide)
  have format : (Pipeline.runStages cfg (c.stages.take 11) frame).2.format = frame.format :=
    c.runStages_take_get 11 _ cfg (i := .format) (by decide)
  obtain ⟨state, out⟩ := DirectionalStage.process_congr samples format c.directional cfg
  rw [process_states]
  refine ⟨state, Eq.trans ?_ out⟩
  exact c.process_get_stage (k := 11) (i := .direction8) rfl frame cfg (by decide)

end ComposedStages

/-- A pipeline that has not processed anything is as `reset` would leave it. -/
theorem Pipeline.reset_composePipeline_stages {K : Type} [Field K] :
    (composePipeline : Pipeline K).reset.stages = (composePipeline : Pipeline K).stages := by
  rw [reset, ComposedStages.composePipeline_stages, ComposedStages.stages_reset,
    ComposedStages.reset_initial]

end Listeningway.Dsp
