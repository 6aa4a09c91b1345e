/- Listeningway/Dsp/BandPath
   source: src/audio/dsp/stages/fft_stage.cpp; src/audio/dsp/stages/bands_stage.cpp;
     src/audio/dsp/stages/log_boost_stage.h; src/audio/dsp/stages/equalizer_stage.h
   digest: The bands on their way through the composed pipeline, from spectrum to equalizer. -/

import Listeningway.Dsp.PipelineReset
import Listeningway.System.DspThread

set_option autoImplicit false
set_option relaxedAutoImplicit false

namespace Listeningway.Dsp

open Listeningway.Config
open Listeningway.System.DspThread

variable {K : Type} [Field K] [LinearOrder K]

namespace AnalysisFrame

/-- What the band stages write is still as the capture left it. -/
structure Blank (f : AnalysisFrame K) : Prop where
  magnitudes : f.magnitudes = none
  rawBands : f.rawBands = []
  bands16 : f.bands16 = fun _ => 0
  bands32 : f.bands32 = fun _ => 0

omit [LinearOrder K] in
theorem blank_ofChunk (samples : List K) (format : Source.SourceFormat.Format)
    (capturedAt : TimePoint) (frameIndex : ℕ) :
    (ofChunk samples format capturedAt frameIndex).Blank := ⟨rfl, rfl, rfl, rfl⟩

end AnalysisFrame

namespace FftStage

variable [Cmath K] [KissFft K]

/-- `fft_size` as `process` uses it. -/
def usedSize (cfg : Settings K) : ℕ := (max 64 cfg.frequency.fftSize).toNat

omit [Field K] [LinearOrder K] [Cmath K] [KissFft K] in
theorem usedSize_ge (cfg : Settings K) : 64 ≤ usedSize cfg := by
  unfold usedSize
  omega

omit [LinearOrder K] in
theorem process_magnitudes_length {st : FftStage K} {frame : AnalysisFrame K} {cfg : Settings K}
    (blank : frame.magnitudes = none) {mags : List K}
    (h : (st.process frame cfg).2.magnitudes = some mags) : mags.length = usedSize cfg / 2 := by
  have size : (max 64 cfg.frequency.fftSize).toNat ≠ 0 := by omega
  rw [process_magnitudes, blank] at h
  split_ifs at h
  obtain rfl := Option.some.inj h
  rw [List.length_ofFn, configure_fftSize _ size, usedSize]

omit [LinearOrder K] in
theorem configure_allocated {st : FftStage K} (planned : st.Planned) (cfg : Settings K) :
    (st.configure (max 64 cfg.frequency.fftSize).toNat).allocated =
      KissFft.alloc K (usedSize cfg) := by
  have size : (max 64 cfg.frequency.fftSize).toNat ≠ 0 := by omega
  have plan := (planned_configure planned (max 64 cfg.frequency.fftSize).toNat).allocated
  rwa [configure_fftSize _ size, decide_eq_true size, Bool.true_and] at plan

omit [LinearOrder K] in
theorem process_magnitudes_isSome {st : FftStage K} (planned : st.Planned)
    {frame : AnalysisFrame K} (blank : frame.magnitudes = none) (cfg : Settings K) :
    (st.process frame cfg).2.magnitudes.isSome = KissFft.alloc K (usedSize cfg) := by
  rw [process_magnitudes, blank, configure_allocated planned]
  cases KissFft.alloc K (usedSize cfg) <;> rfl

end FftStage

namespace BandsStage

omit [Field K] [LinearOrder K] in
theorem bandCount_pos (cfg : Settings K) : 0 < bandCount cfg := by
  unfold bandCount
  omega

omit [Field K] [LinearOrder K] in
theorem bandCount_le (cfg : Settings K) : bandCount cfg ≤ Snapshot.kMaxBands := by
  have most : (Snapshot.kMaxBands : ℕ) = 128 := rfl
  unfold bandCount
  omega

variable [Cmath K] [FloorRing K]

omit [Cmath K] [FloorRing K] in
theorem closestBin_mem (center binWidth : K) {fftHalf : ℕ} (some : 2 ≤ fftHalf) :
    1 ≤ closestBin center binWidth fftHalf ∧ closestBin center binWidth fftHalf < fftHalf := by
  unfold closestBin
  refine List.foldlRecOn (motive := fun best : K × ℕ => 1 ≤ best.2 ∧ best.2 < fftHalf) _ _
    ⟨le_rfl, some⟩ fun best inside k hk => ?_
  dsimp only
  split_ifs
  · have listed := List.mem_range'_1.mp hk
    exact ⟨listed.1, by omega⟩
  · exact inside

omit [FloorRing K] in
theorem rebuildCache_bins {bandCount fftHalf : ℕ} (sampleRate : K) (fc : FrequencyConfig K)
    (some : 2 ≤ fftHalf) {b : ℕ} (hb : b < bandCount) :
    (rebuildCache bandCount fftHalf sampleRate fc).bins.getD b [] ≠ [] ∧
      ∀ k ∈ (rebuildCache bandCount fftHalf sampleRate fc).bins.getD b [],
        1 ≤ k ∧ k < fftHalf := by
  unfold rebuildCache
  dsimp only
  rw [List.getD_eq_getElem _ _ (by simpa using hb), List.getElem_map, List.getElem_range]
  split_ifs with narrow
  · refine ⟨List.cons_ne_nil _ _, fun k hk => ?_⟩
    obtain rfl := List.mem_singleton.mp hk
    exact closestBin_mem _ _ some
  · refine ⟨narrow, fun k hk => ?_⟩
    have listed := List.mem_range'_1.mp (List.mem_of_mem_filter hk)
    exact ⟨listed.1, by omega⟩

end BandsStage

namespace ComposedStages

variable [FloorRing K] [Cmath K] [KissFft K]
variable (c : ComposedStages K) (frame : AnalysisFrame K) (cfg : Settings K)

/-- The frame as FftStage leaves it. -/
def afterFft : AnalysisFrame K := (c.fft.process (c.volume.process frame cfg).2 cfg).2

/-- The frame as BandsStage leaves it. -/
def afterBands : AnalysisFrame K := (c.bands.process (c.afterFft frame cfg) cfg).2

theorem afterFft_get {i : FieldId} (h : i ∉ (writes.take 2).flatten) :
    (c.afterFft frame cfg).get i = frame.get i :=
  c.runStages_take_get 2 frame cfg h

theorem afterFft_magnitudes :
    (c.afterFft frame cfg).magnitudes = (c.fft.process frame cfg).2.magnitudes := by
  have samples : (c.volume.process frame cfg).2.samples = frame.samples :=
    c.runStages_take_get 1 frame cfg (i := .samples) (by decide)
  have format : (c.volume.process frame cfg).2.format = frame.format :=
    c.runStages_take_get 1 frame cfg (i := .format) (by decide)
  have magnitudes : (c.volume.process frame cfg).2.magnitudes = frame.magnitudes :=
    c.runStages_take_get 1 frame cfg (i := .magnitudes) (by decide)
  rw [afterFft, FftStage.process_magnitudes, FftStage.process_magnitudes, magnitudes,
    FftStage.bin_congr samples format]

theorem process_bands :
    (c.process frame cfg).2.bands = (c.afterBands frame cfg).rawBands.mapIdx fun b v =>
      v * LogBoostStage.gain cfg.frequency b *
        EqualizerStage.multiplier cfg.frequency (c.afterBands frame cfg).rawBands.length b := by
  have kept : (c.process frame cfg).2.bands = (EqualizerStage.process
      (LogBoostStage.process (c.afterBands frame cfg) cfg) cfg).bands :=
    c.process_get_take 5 frame cfg (i := .bands) (by decide)
  rw [kept, EqualizerStage.process]
  dsimp only
  rw [LogBoostStage.process_rawBands, List.length_mapIdx, List.mapIdx_mapIdx]
  rfl

theorem process_rawBands :
    (c.process frame cfg).2.rawBands =
      (c.afterBands frame cfg).rawBands.mapIdx fun b v =>
        v * LogBoostStage.gain cfg.frequency b := by
  have kept : (c.process frame cfg).2.rawBands =
      (LogBoostStage.process (c.afterBands frame cfg) cfg).rawBands :=
    c.process_get_take 4 frame cfg (i := .rawBands) (by decide)
  rw [kept, LogBoostStage.process_rawBands]

theorem process_reductions :
    (c.process frame cfg).2.bands16 = (c.afterBands frame cfg).bands16 ∧
      (c.process frame cfg).2.bands32 = (c.afterBands frame cfg).bands32 :=
  ⟨c.process_get_take 3 frame cfg (i := .bands16) (by decide),
    c.process_get_take 3 frame cfg (i := .bands32) (by decide)⟩

theorem srcBands_process :
    srcBands (c.process frame cfg).2 = (c.process frame cfg).2.bands := by
  have same : (c.process frame cfg).2.bands.length = (c.process frame cfg).2.rawBands.length := by
    rw [process_rawBands, process_bands, List.length_mapIdx, List.length_mapIdx]
  unfold srcBands
  split_ifs with none
  · have none := List.isEmpty_iff.mp none
    rw [none, List.length_nil] at same
    rw [none, List.length_eq_zero_iff.mp same.symm]
  · rfl

/-! ### Frames on which no stage has run -/

/-- Average magnitude of band `b` times `band_norm`, before the clamp at 1. -/
def level (mags : List K) (b : ℕ) : K :=
  BandsStage.average mags
    ((BandsStage.refresh c.bands.cache (BandsStage.bandCount cfg) mags.length
      (frame.format.sampleRate : K) cfg.frequency).bins.getD b []) * cfg.frequency.bandNorm

/-- Gain of band `b` after the clamp. -/
def gain (cfg : Settings K) (b : ℕ) : K :=
  LogBoostStage.gain cfg.frequency b *
    EqualizerStage.multiplier cfg.frequency (BandsStage.bandCount cfg) b

section Blank

variable {c frame}

omit [LinearOrder K] [FloorRing K] in
theorem afterFft_length (blank : frame.Blank) {mags : List K}
    (h : (c.fft.process frame cfg).2.magnitudes = some mags) :
    mags.length = FftStage.usedSize cfg / 2 :=
  FftStage.process_magnitudes_length blank.magnitudes h

variable [IsStrictOrderedRing K]

theorem afterBands_rawBands (blank : frame.Blank) :
    (c.afterBands frame cfg).rawBands =
      match (c.fft.process frame cfg).2.magnitudes with
      | none => []
      | some mags =>
        if 0 < frame.format.sampleRate then
          (List.range (BandsStage.bandCount cfg)).map fun b => min 1 (c.level frame cfg mags b)
        else [] := by
  have format : (c.afterFft frame cfg).format = frame.format :=
    c.afterFft_get frame cfg (i := .format) (by decide)
  have empty : (c.afterFft frame cfg).rawBands = [] :=
    (c.afterFft_get frame cfg (i := .rawBands) (by decide)).trans blank.rawBands
  rw [afterBands, BandsStage.process, afterFft_magnitudes]
  cases hs : (c.fft.process frame cfg).2.magnitudes with
  | none => exact empty
  | some mags =>
    have size := FftStage.usedSize_ge cfg
    have bins : mags.length ≠ 0 := by
      rw [afterFft_length cfg blank hs]
      omega
    dsimp only
    rw [if_neg bins, format]
    by_cases rate : 0 < frame.format.sampleRate
    · have fast : ¬ (frame.format.sampleRate : K) ≤ 0 := not_le.mpr (Nat.cast_pos.mpr rate)
      rw [if_neg fast, if_pos rate]
      rfl
    · have still : (frame.format.sampleRate : K) ≤ 0 := by
        rw [Nat.eq_zero_of_not_pos rate, Nat.cast_zero]
      rw [if_pos still, if_neg rate]
      exact empty

omit [IsStrictOrderedRing K] in
theorem afterBands_reductions (blank : frame.Blank) :
    (c.afterBands frame cfg).bands16 =
        BandsStage.downsample (c.afterBands frame cfg).rawBands 16 ∧
      (c.afterBands frame cfg).bands32 =
        BandsStage.downsample (c.afterBands frame cfg).rawBands 32 := by
  have empty : (c.afterFft frame cfg).rawBands = [] :=
    (c.afterFft_get frame cfg (i := .rawBands) (by decide)).trans blank.rawBands
  have zero16 : (c.afterFft frame cfg).bands16 = fun _ => 0 :=
    (c.afterFft_get frame cfg (i := .bands16) (by decide)).trans blank.bands16
  have zero32 : (c.afterFft frame cfg).bands32 = fun _ => 0 :=
    (c.afterFft_get frame cfg (i := .bands32) (by decide)).trans blank.bands32
  have none_left (m : ℕ) : BandsStage.downsample ([] : List K) m = fun _ => 0 :=
    funext fun _ => if_pos (.inr rfl)
  rw [afterBands, BandsStage.process]
  cases (c.afterFft frame cfg).magnitudes with
  | none =>
    dsimp only
    rw [empty, none_left, none_left]
    exact ⟨rfl, rfl⟩
  | some mags =>
    dsimp only
    split_ifs
    · rw [empty, none_left, none_left]
      exact ⟨zero16, zero32⟩
    · rw [empty, none_left, none_left]
      exact ⟨zero16, zero32⟩
    · exact ⟨rfl, rfl⟩

theorem srcBands_eq (blank : frame.Blank) :
    srcBands (c.process frame cfg).2 =
      match (c.fft.process frame cfg).2.magnitudes with
      | none => []
      | some mags =>
        if 0 < frame.format.sampleRate then
          (List.range (BandsStage.bandCount cfg)).map fun b =>
            min 1 (c.level frame cfg mags b) * gain cfg b
        else [] := by
  rw [srcBands_process, process_bands, afterBands_rawBands cfg blank]
  cases (c.fft.process frame cfg).2.magnitudes with
  | none => rfl
  | some mags =>
    dsimp only
    split_ifs
    · refine List.ext_getElem (by simp) fun b hb _ => ?_
      simp [gain, mul_assoc]
    · rfl

/-- The number of bands that reach the projection. -/
theorem srcBands_length (planned : c.fft.Planned) (blank : frame.Blank) :
    (srcBands (c.process frame cfg).2).length =
      if KissFft.alloc K (FftStage.usedSize cfg) = true ∧ 0 < frame.format.sampleRate then
        BandsStage.bandCount cfg
      else 0 := by
  rw [srcBands_eq cfg blank,
    ← FftStage.process_magnitudes_isSome planned blank.magnitudes cfg]
  cases (c.fft.process frame cfg).2.magnitudes with
  | none => rfl
  | some mags =>
    dsimp only
    rw [Option.isSome_some]
    simp only [true_and]
    split_ifs
    · rw [List.length_map, List.length_range]
    · rfl

end Blank

end ComposedStages

end Listeningway.Dsp
