/- Listeningway/Output/ShaderArrays
   source: src/output/uniform_publisher.cpp; src/listeningway_constants.h;
     templates/ListeningwayUniforms.fxh.template; build.bat
   digest: When the floats written to the band uniforms fit the arrays of the shader header. -/

import Listeningway.Output.UniformPublisher
import Listeningway.System.PublishedFrames

/-!
The header declares its band arrays with `DEFAULT_NUM_BANDS`; the settings, BandsStage, the
projection and the publisher know only `kMaxBands`, which is twice that.
-/

set_option autoImplicit false
set_option relaxedAutoImplicit false

namespace Listeningway.Output.ShaderArrays

open Listeningway.Config
open Listeningway.Dsp
open Listeningway.Lib.Machine
open Listeningway.Ring.FrameRing (FrameChunk)
open Listeningway.Snapshot
open Listeningway.Source.AudioSource
open Listeningway.Source.SourceFormat
open Listeningway.System
open Listeningway.System.AudioSystem
open Listeningway.System.DspThread
open Listeningway.System.PublishedFrames

/-- `DEFAULT_NUM_BANDS`, which build.bat copies into the header. -/
def defaultNumBands : ℕ := 64

variable {K : Type} [Field K] [LinearOrder K] [FloorRing K]

/-- What is written to the band uniforms fits the header, and so does the count that
shaders iterate up to. -/
structure WithinArrays (snap : AudioSnapshot K) (startTime now : TimePoint) : Prop where
  freqBands : ∃ xs, publishUniforms snap startTime now Uniform.freqBands.source = some xs ∧
    xs.length ≤ defaultNumBands
  numBands : ∃ v, publishUniforms snap startTime now Uniform.numBands.source = some [v] ∧
    v ≤ (defaultNumBands : K)
  freqBandsHistory : ∃ xs,
    publishUniforms snap startTime now Uniform.freqBandsHistory.source = some xs ∧
      xs.length ≤ defaultNumBands * kBandsHistoryFrames

section Written

variable {snap : AudioSnapshot K}

theorem freqBands_length (capped : snap.freqBandCount ≤ kMaxBands) (t : K) :
    (write snap t .freqBands).length = snap.freqBandCount := by
  rw [write, List.length_take, List.length_ofFn, Nat.min_eq_left capped]

theorem freqBandsHistory_length (capped : snap.freqBandCount ≤ kMaxBands) (t : K) :
    (write snap t .freqBandsHistory).length = snap.freqBandCount * kBandsHistoryFrames := by
  rw [write, List.length_map, List.length_range, nativeBands, Nat.min_eq_left capped]

variable [IsStrictOrderedRing K]

theorem within_arrays_iff_count (capped : snap.freqBandCount ≤ kMaxBands)
    (startTime now : TimePoint) :
    WithinArrays snap startTime now ↔ snap.freqBandCount ≤ defaultNumBands := by
  have written := publishUniforms_source snap startTime now
  constructor
  · intro h
    obtain ⟨xs, hx, short⟩ := h.freqBands
    obtain rfl := Option.some.inj ((written _).symm.trans hx)
    rwa [freqBands_length capped] at short
  · intro few
    refine ⟨⟨_, written _, ?_⟩, ⟨_, written _, Nat.cast_le.mpr few⟩, ⟨_, written _, ?_⟩⟩
    · rwa [freqBands_length capped]
    · rw [freqBandsHistory_length capped]
      exact Nat.mul_le_mul_right _ few

theorem within_arrays_zero (at_ startTime now : TimePoint) :
    WithinArrays (zeroAt at_ : AudioSnapshot K) startTime now :=
  (within_arrays_iff_count (Nat.zero_le _) startTime now).mpr (Nat.zero_le _)

end Written

/-! ### Runs of the AudioSystem -/

section Runs

variable [Cmath K] [KissFft K]

/-- No more bands are asked for than the header has room for, or there are none at all. -/
def FitsHeader (cfg : Settings K) (format : Format) : Prop :=
  cfg.frequency.bandCount ≤ defaultNumBands ∨ format.sampleRate = 0 ∨
    KissFft.alloc K (FftStage.usedSize cfg) = false

omit [Field K] [LinearOrder K] [FloorRing K] [Cmath K] [KissFft K] in
theorem bandCount_le_iff (cfg : Settings K) :
    BandsStage.bandCount cfg ≤ defaultNumBands ↔ cfg.frequency.bandCount ≤ defaultNumBands := by
  have max : (kMaxBands : ℤ) = 128 := rfl
  have default : (defaultNumBands : ℕ) = 64 := rfl
  unfold BandsStage.bandCount
  omega

variable [IsStrictOrderedRing K] {sources : List Info} {as : List (Act K)} {s : State K}
  {tick : Tick} {chunk : FrameChunk K}

theorem shown_freqBandCount (h : Handles sources as s tick chunk) :
    (shown s tick chunk).freqBandCount =
      min (if KissFft.alloc K (FftStage.usedSize (settingsOf s)) = true ∧
          0 < chunk.format.sampleRate then BandsStage.bandCount (settingsOf s) else 0)
        kMaxBands := by
  obtain ⟨c, shape, planned, -⟩ := h.composed.exists_stages
  have out : (passOf s tick chunk).2 = (c.process (frameOf s tick chunk) (settingsOf s)).2 := by
    rw [passOf, Pipeline.process, shape, c.runStages_stages]
  have blank : (frameOf s tick chunk).Blank := AnalysisFrame.blank_ofChunk _ _ _ _
  have count := ComposedStages.srcBands_length (settingsOf s) planned blank
  rw [← out] at count
  exact congrArg (fun n => min n kMaxBands) count

theorem shown_within_iff (h : Handles sources as s tick chunk) (startTime now : TimePoint) :
    WithinArrays (shown s tick chunk) startTime now ↔ FitsHeader (settingsOf s) chunk.format := by
  have count := shown_freqBandCount h
  have capped : (shown s tick chunk).freqBandCount ≤ kMaxBands := by
    rw [count]
    exact Nat.min_le_right _ _
  have room : defaultNumBands < kMaxBands := by decide
  rw [within_arrays_iff_count capped, count, FitsHeader, ← bandCount_le_iff]
  by_cases bands : KissFft.alloc K (FftStage.usedSize (settingsOf s)) = true ∧
      0 < chunk.format.sampleRate
  · rw [if_pos bands]
    constructor
    · intro few
      exact .inl (by omega)
    · rintro (few | still | unplanned)
      · omega
      · exact absurd still bands.2.ne'
      · rw [bands.1] at unplanned
        cases unplanned
  · rw [if_neg bands, Nat.zero_min]
    refine iff_of_true (Nat.zero_le _) (.inr ?_)
    rw [not_and_or, Bool.not_eq_true, Nat.not_lt, Nat.le_zero] at bands
    exact bands.symm

/-- Whatever is published in a run fits the shader header exactly when every processed
frame asks for no more bands than `DEFAULT_NUM_BANDS`, or gets none. -/
theorem published_within_arrays_iff {t : State K} {os : List (Event K)}
    (h : run (step sources) AudioSystem.initial as = some (t, os)) :
    (∀ snap, .published snap ∈ os → ∀ startTime now, WithinArrays snap startTime now) ↔
      ∀ s tick chunk, Handles sources as s tick chunk →
        FitsHeader (settingsOf s) chunk.format := by
  rw [all_published_iff (P := fun snap => ∀ startTime now, WithinArrays snap startTime now)
    (fun at_ startTime now => within_arrays_zero at_ startTime now) h]
  constructor
  · intro all s tick chunk handled
    exact (shown_within_iff handled 0 0).mp (all s tick chunk handled 0 0)
  · intro fits s tick chunk handled startTime now
    exact (shown_within_iff handled startTime now).mpr (fits s tick chunk handled)

end Runs

/-! ### Two runs over the reals -/

open Listeningway.System.Forgetting (systemAndOff)

/-- The defaults with another band count. -/
noncomputable def withBands (n : ℤ) : Settings ℝ :=
  { Settings.defaults ℝ with
    frequency := { FrequencyConfig.defaults ℝ with bandCount := n } }

/-- One stereo frame. -/
def stereoChunk : FrameChunk ℝ := ⟨[1, 1], ⟨48000, 2, .stereo⟩⟩

/-- Up to the default count everything fits. -/
theorem default_bands_within_arrays :
    ∃ (t : State ℝ) (os : List (Event ℝ)),
      run (step systemAndOff) AudioSystem.initial
        (framed (withBands 64) stereoChunk ++ [.iterate wholePass]) = some (t, os) ∧
      ∀ snap, .published snap ∈ os → ∀ startTime now, WithinArrays snap startTime now := by
  obtain ⟨s, t, os, h, -⟩ := handles_framed (withBands 64) stereoChunk
  refine ⟨t, os, h, (published_within_arrays_iff h).mpr fun s tick chunk handled => .inl ?_⟩
  rw [only_framed handled]
  decide

/-- With 128 bands, which the settings allow, twice as many floats are written as the
header declares. -/
theorem most_bands_exceed_arrays :
    ¬ ∀ (sources : List Info) (as : List (Act ℝ)) (t : State ℝ) (os : List (Event ℝ)),
      run (step sources) AudioSystem.initial as = some (t, os) →
        ∀ snap, .published snap ∈ os → ∀ startTime now, WithinArrays snap startTime now := by
  intro always
  obtain ⟨s, t, os, h, handled, settings, -⟩ := handles_framed (withBands 128) stereoChunk
  have fits := (all_published_iff (fun at_ _ _ => within_arrays_zero at_ _ _) h).mp
    (always _ _ _ _ h) _ _ _ handled 0 0
  rcases (shown_within_iff handled 0 0).mp fits with few | still | unplanned
  · rw [settings] at few
    exact absurd few (by decide)
  · cases still
  · cases unplanned

end Listeningway.Output.ShaderArrays
