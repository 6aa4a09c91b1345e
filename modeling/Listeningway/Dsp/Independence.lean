/- Listeningway/Dsp/Independence
   source: src/audio/dsp/i_dsp_stage.h; src/audio/dsp/pipeline.cpp; src/app.cpp
   digest: What a stage does depends on its declared fields alone, so independent stages commute. -/

import Listeningway.Dsp.PipelineReset
import Listeningway.Lib.Footprint
import Mathlib.Tactic.FinCases

set_option autoImplicit false
set_option relaxedAutoImplicit false

namespace Listeningway.Dsp

open Listeningway.Config
open Listeningway.Lib.Footprint

variable {K : Type}

/-- Two frames agree on the fields `is`, and were captured at the same time. -/
structure AnalysisFrame.Agree (is : List FieldId) (f g : AnalysisFrame K) : Prop where
  get : ∀ i ∈ is, f.get i = g.get i
  capturedAt : f.capturedAt = g.capturedAt

namespace IDspStage

variable [Field K] [LinearOrder K] [FloorRing K] [Cmath K] [KissFft K]

/-- The same next state and the same values in the written fields. -/
def SameEffect (stage : IDspStage K) (cfg : Settings K) (f g : AnalysisFrame K) : Prop :=
  (stage.process f cfg).1 = (stage.process g cfg).1 ∧
    ∀ i ∈ stage.writes, (stage.process f cfg).2.get i = (stage.process g cfg).2.get i

variable {f g : AnalysisFrame K} (cfg : Settings K)

theorem volume_same (st : VolumeStage K)
    (h : AnalysisFrame.Agree (VolumeStage.reads ++ VolumeStage.writes) f g) :
    SameEffect (.volume st) cfg f g := by
  have samples : f.samples = g.samples := h.get .samples (by decide)
  have format : f.format = g.format := h.get .format (by decide)
  have frames : f.frames = g.frames := by simp only [AnalysisFrame.frames, samples, format]
  have sample (i c : ℕ) : f.sample i c = g.sample i c := by
    simp only [AnalysisFrame.sample, samples, format]
  have meanAbs : VolumeStage.meanAbs f = VolumeStage.meanAbs g := by
    simp only [VolumeStage.meanAbs, frames, sample, samples, format]
  have rms (c : ℕ) : VolumeStage.channelRms f c = VolumeStage.channelRms g c := by
    simp only [VolumeStage.channelRms, frames, sample]
  simp only [SameEffect, process, VolumeStage.process, samples, format, frames, meanAbs, rms,
    h.capturedAt]
  split_ifs
  all_goals
    refine ⟨rfl, fun i hi => ?_⟩
    fin_cases hi <;> rfl

theorem fft_same (st : FftStage K)
    (h : AnalysisFrame.Agree (FftStage.reads ++ FftStage.writes) f g) :
    SameEffect (.fft st) cfg f g := by
  have samples : f.samples = g.samples := h.get .samples (by decide)
  have format : f.format = g.format := h.get .format (by decide)
  simp only [SameEffect, process, FftStage.process, FftStage.bin_congr samples format]
  split_ifs
  · refine ⟨rfl, fun i hi => ?_⟩
    fin_cases hi <;> rfl
  · exact ⟨rfl, fun i hi => h.get i (List.mem_append_right _ hi)⟩

theorem bands_same (st : BandsStage K)
    (h : AnalysisFrame.Agree (BandsStage.reads ++ BandsStage.writes) f g) :
    SameEffect (.bands st) cfg f g := by
  have magnitudes : f.magnitudes = g.magnitudes := h.get .magnitudes (by decide)
  have format : f.format = g.format := h.get .format (by decide)
  have raw : f.rawBands = g.rawBands := h.get .rawBands (by decide)
  simp only [SameEffect, process, BandsStage.process, magnitudes, format]
  cases g.magnitudes with
  | none =>
    refine ⟨rfl, fun i hi => ?_⟩
    fin_cases hi
    · exact raw
    · rfl
    · rfl
  | some mags =>
    dsimp only
    split_ifs
    · exact ⟨rfl, fun i hi => h.get i (List.mem_append_right _ hi)⟩
    · exact ⟨rfl, fun i hi => h.get i (List.mem_append_right _ hi)⟩
    · refine ⟨rfl, fun i hi => ?_⟩
      fin_cases hi <;> rfl

theorem logBoost_same
    (h : AnalysisFrame.Agree (LogBoostStage.reads ++ LogBoostStage.writes) f g) :
    SameEffect .logBoost cfg f g := by
  have raw : f.rawBands = g.rawBands := h.get .rawBands (by decide)
  simp only [SameEffect, process, LogBoostStage.process, raw]
  split_ifs
  · exact ⟨trivial, fun i hi => h.get i (List.mem_append_right _ hi)⟩
  · refine ⟨trivial, fun i hi => ?_⟩
    fin_cases hi
    rfl

theorem equalizer_same
    (h : AnalysisFrame.Agree (EqualizerStage.reads ++ EqualizerStage.writes) f g) :
    SameEffect .equalizer cfg f g := by
  have raw : f.rawBands = g.rawBands := h.get .rawBands (by decide)
  simp only [SameEffect, process, EqualizerStage.process, raw]
  refine ⟨trivial, fun i hi => ?_⟩
  fin_cases hi
  rfl

theorem bandNorm_same (st : BandNormStage K)
    (h : AnalysisFrame.Agree (BandNormStage.reads ++ BandNormStage.writes) f g) :
    SameEffect (.bandNorm st) cfg f g := by
  have bands : f.bands = g.bands := h.get .bands (by decide)
  simp only [SameEffect, process, BandNormStage.process, bands, h.capturedAt]
  split_ifs
  · exact ⟨rfl, fun i hi => h.get i (List.mem_append_right _ hi)⟩
  · refine ⟨rfl, fun i hi => ?_⟩
    fin_cases hi <;> rfl

theorem spectralCentroid_same
    (h : AnalysisFrame.Agree (SpectralCentroidStage.reads ++ SpectralCentroidStage.writes) f g) :
    SameEffect .spectralCentroid cfg f g := by
  have magnitudes : f.magnitudes = g.magnitudes := h.get .magnitudes (by decide)
  have format : f.format = g.format := h.get .format (by decide)
  simp only [SameEffect, process, SpectralCentroidStage.process, magnitudes, format]
  refine ⟨trivial, fun i hi => ?_⟩
  fin_cases hi
  cases g.magnitudes with
  | none => rfl
  | some mags =>
    dsimp only
    split_ifs <;> rfl

theorem flux_same (st : FluxStage K)
    (h : AnalysisFrame.Agree (FluxStage.reads ++ FluxStage.writes) f g) :
    SameEffect (.flux st) cfg f g := by
  have magnitudes : f.magnitudes = g.magnitudes := h.get .magnitudes (by decide)
  have format : f.format = g.format := h.get .format (by decide)
  simp only [SameEffect, process, FluxStage.process, magnitudes, format]
  cases g.magnitudes with
  | none =>
    refine ⟨rfl, fun i hi => ?_⟩
    fin_cases hi <;> rfl
  | some mags =>
    dsimp only
    split_ifs
    all_goals
      refine ⟨rfl, fun i hi => ?_⟩
      fin_cases hi <;> rfl

theorem beat_same (st : BeatStage K)
    (h : AnalysisFrame.Agree (BeatStage.reads ++ BeatStage.writes) f g) :
    SameEffect (.beat st) cfg f g := by
  have magnitudes : f.magnitudes = g.magnitudes := h.get .magnitudes (by decide)
  have phases : f.phases = g.phases := h.get .phases (by decide)
  have onset : BeatStage.onset st.csd f = BeatStage.onset st.csd g := by
    simp only [BeatStage.onset, magnitudes, phases]
  simp only [SameEffect, process, BeatStage.process, onset, h.capturedAt]
  refine ⟨trivial, fun i hi => ?_⟩
  fin_cases hi <;> rfl

theorem chronotensity_same (st : ChronotensityStage K)
    (h : AnalysisFrame.Agree (ChronotensityStage.reads ++ ChronotensityStage.writes) f g) :
    SameEffect (.chronotensity st) cfg f g := by
  have volumeNorm : f.volumeNorm = g.volumeNorm := h.get .volumeNorm (by decide)
  have bassNorm : f.bassNorm = g.bassNorm := h.get .bassNorm (by decide)
  have trebNorm : f.trebNorm = g.trebNorm := h.get .trebNorm (by decide)
  simp only [SameEffect, process, ChronotensityStage.process, volumeNorm, bassNorm, trebNorm,
    h.capturedAt]
  refine ⟨trivial, fun i hi => ?_⟩
  fin_cases hi <;> rfl

theorem pan_same (st : PanStage K)
    (h : AnalysisFrame.Agree (PanStage.reads ++ PanStage.writes) f g) :
    SameEffect (.pan st) cfg f g := by
  have format : f.format = g.format := h.get .format (by decide)
  have left : f.volumeLeft = g.volumeLeft := h.get .volumeLeft (by decide)
  have right : f.volumeRight = g.volumeRight := h.get .volumeRight (by decide)
  simp only [SameEffect, process, PanStage.process, format, left, right]
  split_ifs
  all_goals
    refine ⟨rfl, fun i hi => ?_⟩
    fin_cases hi
    rfl

theorem directional_same (st : DirectionalStage K)
    (h : AnalysisFrame.Agree (DirectionalStage.reads ++ DirectionalStage.writes) f g) :
    SameEffect (.directional st) cfg f g := by
  have samples : f.samples = g.samples := h.get .samples (by decide)
  have format : f.format = g.format := h.get .format (by decide)
  obtain ⟨state, out⟩ := DirectionalStage.process_congr samples format st cfg
  refine ⟨congrArg directional state, fun i hi => ?_⟩
  fin_cases hi
  exact out

theorem loudness_same (st : LoudnessStage K)
    (h : AnalysisFrame.Agree (LoudnessStage.reads ++ LoudnessStage.writes) f g) :
    SameEffect (.loudness st) cfg f g := by
  have samples : f.samples = g.samples := h.get .samples (by decide)
  have format : f.format = g.format := h.get .format (by decide)
  have frames : f.frames = g.frames := by simp only [AnalysisFrame.frames, samples, format]
  have push : LoudnessStage.pushFrame f = LoudnessStage.pushFrame g := by
    funext st i
    simp only [LoudnessStage.pushFrame, LoudnessStage.filterFrame, AnalysisFrame.sample, samples,
      format]
  simp only [SameEffect, process, LoudnessStage.process, samples, format, frames, push]
  split_ifs
  all_goals
    refine ⟨rfl, fun i hi => ?_⟩
    fin_cases hi
    rfl

theorem process_same (stage : IDspStage K)
    (h : AnalysisFrame.Agree (stage.reads ++ stage.writes) f g) : SameEffect stage cfg f g := by
  cases stage with
  | volume st => exact volume_same cfg st h
  | fft st => exact fft_same cfg st h
  | bands st => exact bands_same cfg st h
  | logBoost => exact logBoost_same cfg h
  | equalizer => exact equalizer_same cfg h
  | bandNorm st => exact bandNorm_same cfg st h
  | spectralCentroid => exact spectralCentroid_same cfg h
  | flux st => exact flux_same cfg st h
  | beat st => exact beat_same cfg st h
  | chronotensity st => exact chronotensity_same cfg st h
  | pan st => exact pan_same cfg st h
  | directional st => exact directional_same cfg st h
  | loudness st => exact loudness_same cfg st h

end IDspStage

/-! ### Slots: the fields with a name, and those without -/

inductive Slot where
  | field (i : FieldId)
  | capturedAt
  | frameIndex
  | bandCount
  deriving DecidableEq

@[reducible] def Slot.Carrier (K : Type) : Slot → Type
  | .field i => i.Carrier K
  | .capturedAt => TimePoint
  | .frameIndex => ℕ
  | .bandCount => Option ℕ

namespace AnalysisFrame

def slot (f : AnalysisFrame K) : (s : Slot) → s.Carrier K
  | .field i => f.get i
  | .capturedAt => f.capturedAt
  | .frameIndex => f.frameIndex
  | .bandCount => f.bandCount

theorem ext_slot (f g : AnalysisFrame K) (h : ∀ s, f.slot s = g.slot s) : f = g := by
  have named (i : FieldId) : f.get i = g.get i := h (.field i)
  cases f
  cases g
  rw [mk.injEq]
  exact ⟨named .samples, named .format, h .capturedAt, h .frameIndex, named .volume,
    named .volumeLeft, named .volumeRight, named .volumeNorm, named .volumeAtt,
    named .magnitudes, named .phases, named .rawBands, named .bands, named .bands16,
    named .bands32, h .bandCount, named .bassNorm, named .midNorm, named .trebNorm,
    named .bassAtt, named .midAtt, named .trebAtt, named .spectralCentroid, named .loudness,
    named .fluxTotal, named .fluxLow, named .fluxMid, named .fluxHigh, named .beat,
    named .beatPhase, named .tempoBpm, named .tempoConfidence, named .tempoDetected,
    named .beatPulseStrength, named .beatAutoLocked, named .phaseVolume, named .phaseBass,
    named .phaseTreble, named .audioPan, named .direction8⟩

end AnalysisFrame

namespace IDspStage

/-- `band_count`, which has no FieldId, belongs to BandsStage. -/
def unnamedWrites : IDspStage K → List Slot
  | bands _ => [.bandCount]
  | _ => []

def slotReads (stage : IDspStage K) : List Slot := stage.reads.map .field ++ [.capturedAt]

def slotWrites (stage : IDspStage K) : List Slot :=
  stage.writes.map .field ++ stage.unnamedWrites

theorem field_mem_slotReads {stage : IDspStage K} {i : FieldId} :
    .field i ∈ stage.slotReads ↔ i ∈ stage.reads := by
  simp [slotReads]

theorem field_mem_slotWrites {stage : IDspStage K} {i : FieldId} :
    .field i ∈ stage.slotWrites ↔ i ∈ stage.writes := by
  cases stage <;> simp [slotWrites, unnamedWrites]

theorem unnamed_of_mem {stage : IDspStage K} {s : Slot} (h : s ∈ stage.slotWrites) :
    (∃ i, s = .field i) ∨ s = .bandCount ∧ ∃ st, stage = bands st := by
  rcases List.mem_append.mp h with named | unnamed
  · obtain ⟨i, -, rfl⟩ := List.mem_map.mp named
    exact .inl ⟨i, rfl⟩
  · cases stage with
    | bands st => exact .inr ⟨List.mem_singleton.mp unnamed, st, rfl⟩
    | _ => exact absurd unnamed List.not_mem_nil

variable [Field K] [LinearOrder K] [FloorRing K] [Cmath K] [KissFft K]

theorem process_bandCount {stage : IDspStage K} (h : .bandCount ∉ stage.slotWrites)
    (f : AnalysisFrame K) (cfg : Settings K) :
    (stage.process f cfg).2.bandCount = f.bandCount := by
  cases stage with
  | bands st => exact absurd (by simp [slotWrites, unnamedWrites]) h
  | _ =>
    simp only [process, VolumeStage.process, FftStage.process, LogBoostStage.process,
      EqualizerStage.process, BandNormStage.process, SpectralCentroidStage.process,
      FluxStage.process, BeatStage.process, ChronotensityStage.process, PanStage.process,
      DirectionalStage.process, LoudnessStage.process] <;>
    repeat' split
    all_goals rfl

omit [KissFft K] in
theorem bands_same_count {f g : AnalysisFrame K} (cfg : Settings K) (st : BandsStage K)
    (h : AnalysisFrame.Agree BandsStage.reads f g) (count : f.bandCount = g.bandCount) :
    (st.process f cfg).2.bandCount = (st.process g cfg).2.bandCount := by
  have magnitudes : f.magnitudes = g.magnitudes := h.get .magnitudes (by decide)
  have format : f.format = g.format := h.get .format (by decide)
  simp only [BandsStage.process, magnitudes, format]
  cases g.magnitudes with
  | none => exact count
  | some mags =>
    dsimp only
    split_ifs
    · exact count
    · exact count
    · rfl

omit [Field K] [LinearOrder K] [FloorRing K] [Cmath K] [KissFft K] in
theorem agree_of_slots {stage : IDspStage K} {f g : AnalysisFrame K}
    (h : AgreeOn AnalysisFrame.slot (stage.slotReads ++ stage.slotWrites) f g) :
    AnalysisFrame.Agree (stage.reads ++ stage.writes) f g where
  get i hi := by
    refine h (.field i) ?_
    rw [List.mem_append, field_mem_slotReads, field_mem_slotWrites]
    exact List.mem_append.mp hi
  capturedAt := h .capturedAt (by simp [slotReads])

theorem confined (stage : IDspStage K) (cfg : Settings K) :
    Confined AnalysisFrame.slot stage.slotReads stage.slotWrites
      fun f => stage.process f cfg where
  frame f s hs := by
    have touches := stage.touches f cfg
    cases s with
    | field i => exact touches.get i fun written => hs (field_mem_slotWrites.mpr written)
    | capturedAt => exact touches.capturedAt
    | frameIndex => exact touches.frameIndex
    | bandCount => exact process_bandCount hs f cfg
  state f g h := (process_same cfg stage (agree_of_slots h)).1
  value f g h s hs := by
    rcases unnamed_of_mem hs with ⟨i, rfl⟩ | ⟨rfl, st, rfl⟩
    · exact (process_same cfg stage (agree_of_slots h)).2 i (field_mem_slotWrites.mp hs)
    · have agree := agree_of_slots h
      refine bands_same_count cfg st ⟨fun i hi => agree.get i ?_, agree.capturedAt⟩ ?_
      · exact List.mem_append_left _ hi
      · exact h .bandCount (List.mem_append_right _ hs)

/-- Neither stage writes a field that the other one reads or writes. -/
def IndependentOf (a b : IDspStage K) : Prop := Independent a.reads a.writes b.reads b.writes

omit [Field K] [LinearOrder K] [FloorRing K] [Cmath K] [KissFft K] in
theorem IndependentOf.slots {a b : IDspStage K} (h : IndependentOf a b) :
    Independent a.slotReads a.slotWrites b.slotReads b.slotWrites := by
  have disjoint {a b : IDspStage K} (h : IndependentOf a b) :
      ∀ s ∈ a.slotWrites, s ∉ b.slotReads ++ b.slotWrites := by
    intro s hs
    rcases unnamed_of_mem hs with ⟨i, rfl⟩ | ⟨rfl, st, rfl⟩
    · rw [List.mem_append, field_mem_slotReads, field_mem_slotWrites, ← List.mem_append]
      exact h.left i (field_mem_slotWrites.mp hs)
    · intro shared
      rcases List.mem_append.mp shared with read | written
      · simp [slotReads] at read
      · rcases unnamed_of_mem written with ⟨i, ⟨⟩⟩ | ⟨-, st', rfl⟩
        -- two BandsStages write the same named fields as well
        exact h.left .rawBands (by simp [writes, BandsStage.writes])
          (by simp [writes, BandsStage.writes])
  exact ⟨disjoint h, disjoint (a := b) (b := a) ⟨h.right, h.left⟩⟩

theorem IndependentOf.process_swap {a b : IDspStage K} (h : IndependentOf a b)
    (f : AnalysisFrame K) (cfg : Settings K) :
    (a.process (b.process f cfg).2 cfg).1 = (a.process f cfg).1 ∧
      (b.process (a.process f cfg).2 cfg).1 = (b.process f cfg).1 ∧
      (b.process (a.process f cfg).2 cfg).2 = (a.process (b.process f cfg).2 cfg).2 :=
  ⟨(a.confined cfg).state_after (b.confined cfg) h.slots f,
    (b.confined cfg).state_after (a.confined cfg) h.slots.symm f,
    (a.confined cfg).commute AnalysisFrame.ext_slot (b.confined cfg) h.slots f⟩

end IDspStage

/-! ### Runs of a pipeline with two stages swapped -/

namespace Pipeline

open IDspStage

/-- The same stages in the same states, but for two independent neighbours in the other
order. -/
def Swapped (p q : Pipeline K) : Prop :=
  ∃ front a b back, p.stages = front ++ a :: b :: back ∧ q.stages = front ++ b :: a :: back ∧
    IndependentOf a b

variable [Field K] [LinearOrder K] [FloorRing K] [Cmath K] [KissFft K]

omit [LinearOrder K] [FloorRing K] [Cmath K] [KissFft K] in
theorem Swapped.reset {p q : Pipeline K} (h : Swapped p q) : Swapped p.reset q.reset := by
  obtain ⟨front, a, b, back, hp, hq, apart⟩ := h
  refine ⟨front.map IDspStage.reset, a.reset, b.reset, back.map IDspStage.reset, ?_, ?_, ?_⟩
  · simp [Pipeline.reset, hp]
  · simp [Pipeline.reset, hq]
  · rw [IndependentOf, a.kin_reset.reads_eq, a.kin_reset.writes_eq, b.kin_reset.reads_eq,
      b.kin_reset.writes_eq]
    exact apart

theorem runStages_pair (cfg : Settings K) (front back : List (IDspStage K)) (a b : IDspStage K)
    (frame : AnalysisFrame K) :
    runStages cfg (front ++ a :: b :: back) frame =
      let start := runStages cfg front frame
      let first := a.process start.2 cfg
      let second := b.process first.2 cfg
      let rest := runStages cfg back second.2
      (start.1 ++ first.1 :: second.1 :: rest.1, rest.2) := by
  rw [runStages_append]
  rfl

theorem Swapped.process {p q : Pipeline K} (h : Swapped p q) (frame : AnalysisFrame K)
    (cfg : Settings K) (clock : Clock) :
    Swapped (p.process frame cfg clock).1 (q.process frame cfg clock).1 ∧
      (p.process frame cfg clock).2 = (q.process frame cfg clock).2 := by
  obtain ⟨front, a, b, back, hp, hq, apart⟩ := h
  obtain ⟨sa, sb, out⟩ := apart.process_swap (runStages cfg front frame).2 cfg
  have ran := runStages_pair cfg front back a b frame
  have ran' := runStages_pair cfg front back b a frame
  dsimp only at ran ran'
  rw [sa, ← out] at ran'
  rw [sb] at ran
  rw [Pipeline.process, Pipeline.process, hp, hq, ran, ran']
  refine ⟨⟨_, _, _, _, rfl, rfl, ?_⟩, rfl⟩
  rw [IndependentOf, (a.kin_process _ cfg).reads_eq, (a.kin_process _ cfg).writes_eq,
    (b.kin_process _ cfg).reads_eq, (b.kin_process _ cfg).writes_eq]
  exact apart

theorem Swapped.outputs {p q : Pipeline K} (h : Swapped p q) (calls : List (PipelineCall K)) :
    p.outputs calls = q.outputs calls := by
  induction calls generalizing p q with
  | nil => rfl
  | cons call calls ih =>
    cases call with
    | process frame cfg clock =>
      obtain ⟨swapped, out⟩ := h.process frame cfg clock
      rw [Pipeline.outputs, Pipeline.outputs, serve, serve, ih swapped, out]
    | reset => exact ih h.reset

end Pipeline

section Theorem

open IDspStage

variable [Field K] [LinearOrder K] [FloorRing K] [Cmath K] [KissFft K]

/-- The declarations of the stages are sound, and so two neighbours that declare nothing in
common can change places in any pipeline: no frame that ever leaves it differs. -/
theorem independent_stages_commute :
    (∀ (stage : IDspStage K) (frame : AnalysisFrame K) (cfg : Settings K),
      Touches stage.writes frame (stage.process frame cfg).2) ∧
    (∀ (stage : IDspStage K) (f g : AnalysisFrame K) (cfg : Settings K),
      AnalysisFrame.Agree (stage.reads ++ stage.writes) f g → SameEffect stage cfg f g) ∧
    ∀ (p q : Pipeline K) (front back : List (IDspStage K)) (a b : IDspStage K),
      p.stages = front ++ a :: b :: back → q.stages = front ++ b :: a :: back →
        (∀ i ∈ a.writes, i ∉ b.reads ++ b.writes) → (∀ i ∈ b.writes, i ∉ a.reads ++ a.writes) →
          ∀ calls, p.outputs calls = q.outputs calls := by
  refine ⟨fun stage frame cfg => stage.touches frame cfg,
    fun stage f g cfg agree => process_same cfg stage agree, ?_⟩
  intro p q front back a b hp hq left right calls
  exact Pipeline.Swapped.outputs ⟨front, a, b, back, hp, hq, left, right⟩ calls

/-- A stereo frame with both sides apart. -/
noncomputable def widePass : PipelineCall ℝ :=
  .process (AnalysisFrame.ofChunk [0.5, -0.25] ⟨48000, 2, .stereo⟩ 0 0) (Settings.defaults ℝ)
    ⟨0, fun _ => 0, fun _ => 0, 0⟩

/-- PanStage and DirectionalStage read the same levels and write apart. -/
theorem pan_directional_commute :
    (Pipeline.composePipeline : Pipeline ℝ).outputs [widePass, .reset, widePass] =
      Pipeline.outputs
        ([.volume VolumeStage.initial, .fft FftStage.initial, .bands BandsStage.initial, .logBoost,
          .equalizer, .bandNorm BandNormStage.initial, .spectralCentroid,
          .flux FluxStage.initial, .beat BeatStage.initial,
          .chronotensity ChronotensityStage.initial, .directional DirectionalStage.initial,
          .pan PanStage.initial, .loudness LoudnessStage.initial].foldl Pipeline.add
            Pipeline.empty) [widePass, .reset, widePass] := by
  obtain ⟨-, -, swap⟩ := independent_stages_commute (K := ℝ)
  exact swap _ _ (ComposedStages.initial.stages.take 10) [.loudness LoudnessStage.initial]
    (.pan PanStage.initial) (.directional DirectionalStage.initial) rfl rfl (by decide)
    (by decide) [widePass, .reset, widePass]

end Theorem

end Listeningway.Dsp
