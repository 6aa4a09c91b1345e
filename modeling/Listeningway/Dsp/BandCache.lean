/- Listeningway/Dsp/BandCache
   source: src/audio/dsp/stages/bands_stage.cpp; src/config/store.cpp
   digest: A cached layout of the bands is the one a rebuild would make, and when it is reused. -/

import Listeningway.Config.Store
import Listeningway.Dsp.BandPath
import Listeningway.Lib.Memo

/-!
The key holds the two frequencies as the rebuild has clamped them, and is compared with those of
the settings. What passes the comparison is a fixed point of the clamps, so it is not stale; what
the clamps move never passes.
-/

set_option autoImplicit false
set_option relaxedAutoImplicit false

namespace Listeningway.Dsp.BandsStage

open Listeningway.Config
open Listeningway.Lib.Clamp
open Listeningway.Lib.Memo (Holds Sound consult_eq holds_start stale_consult_iff)

variable {K : Type} [Field K] [LinearOrder K]

/-! ### The cache as a memo -/

/-- What a layout is made from. -/
structure Request (K : Type) where
  bandCount : ℕ
  fftHalf : ℕ
  sampleRate : K
  fc : FrequencyConfig K

/-- The test in `process` that leads to `rebuild_cache`. -/
def Stale (cache : Cache K) (i : Request K) : Prop :=
  cache.bandCount ≠ i.bandCount ∨ cache.fftHalf ≠ i.fftHalf ∨
    cache.scale ≠ some i.fc.bandScale ∨ cache.minFreq ≠ i.fc.minFreq ∨
      cache.maxFreq ≠ i.fc.maxFreq ∨ cache.sampleRate ≠ i.sampleRate

instance decidableStale (cache : Cache K) (i : Request K) : Decidable (Stale cache i) :=
  inferInstanceAs (Decidable (_ ∨ _ ∨ _ ∨ _ ∨ _ ∨ _))

omit [LinearOrder K] in
theorem stale_empty (i : Request K) : Stale Cache.empty i :=
  .inr (.inr (.inl (Option.some_ne_none _).symm))

section Requests

variable [Cmath K]

def build (i : Request K) : Cache K := rebuildCache i.bandCount i.fftHalf i.sampleRate i.fc

/-- The request of a frame that gets as far as the test. -/
def requestOf (frame : AnalysisFrame K) (cfg : Settings K) : Option (Request K) :=
  match frame.magnitudes with
  | none => none
  | some mags =>
    if mags.length = 0 then none
    else if (frame.format.sampleRate : K) ≤ 0 then none
    else some ⟨bandCount cfg, mags.length, frame.format.sampleRate, cfg.frequency⟩

omit [Cmath K] in
theorem mem_requestOf {frame : AnalysisFrame K} {cfg : Settings K} {i : Request K} :
    i ∈ requestOf frame cfg ↔ ∃ mags, frame.magnitudes = some mags ∧ mags.length ≠ 0 ∧
      0 < (frame.format.sampleRate : K) ∧
        ⟨bandCount cfg, mags.length, frame.format.sampleRate, cfg.frequency⟩ = i := by
  unfold requestOf
  cases frame.magnitudes with
  | none =>
    refine iff_of_false (Option.not_mem_none i) ?_
    rintro ⟨mags, found, -⟩
    cases found
  | some mags =>
    dsimp only
    split_ifs with empty silent
    · refine iff_of_false (Option.not_mem_none i) ?_
      rintro ⟨mags', found, some, -⟩
      exact some (Option.some.inj found ▸ empty)
    · refine iff_of_false (Option.not_mem_none i) ?_
      rintro ⟨mags', -, -, loud, -⟩
      exact silent.not_gt loud
    · constructor
      · intro requested
        exact ⟨mags, rfl, empty, not_le.mp silent, Option.some.inj requested⟩
      · rintro ⟨mags', found, -, -, rfl⟩
        obtain rfl := Option.some.inj found
        exact Option.mem_some_self _

omit [Cmath K] in
theorem requestOf_eq [IsStrictOrderedRing K] {frame : AnalysisFrame K} {mags : List K}
    (found : frame.magnitudes = some mags) (bins : mags ≠ [])
    (loud : 0 < frame.format.sampleRate) (cfg : Settings K) :
    requestOf frame cfg =
      some ⟨bandCount cfg, mags.length, frame.format.sampleRate, cfg.frequency⟩ := by
  have filled : mags.length ≠ 0 := mt List.length_eq_zero_iff.mp bins
  exact mem_requestOf.mpr ⟨mags, found, filled, Nat.cast_pos.mpr loud, rfl⟩

/-- `process` executes `rebuild_cache`. -/
def Rebuilds (st : BandsStage K) (frame : AnalysisFrame K) (cfg : Settings K) : Prop :=
  ∃ i ∈ requestOf frame cfg, Stale st.cache i

/-- Where the rate leaves room below the Nyquist frequency, or the settings are clamped, the
lowest frequency of the rebuild is a fixed point of its clamp, or no setting. -/
def Request.Regular (i : Request K) : Prop := 22.0 ≤ i.sampleRate ∨ 10.0 ≤ i.fc.minFreq

theorem refresh_eq (cache : Cache K) (i : Request K) :
    refresh cache i.bandCount i.fftHalf i.sampleRate i.fc =
      Lib.Memo.consult Stale build cache i := rfl

theorem build_congr {i j : Request K} (count : i.bandCount = j.bandCount)
    (half : i.fftHalf = j.fftHalf) (rate : i.sampleRate = j.sampleRate)
    (scale : i.fc.bandScale = j.fc.bandScale) (low : (build i).minFreq = (build j).minFreq)
    (high : (build i).maxFreq = (build j).maxFreq) : build i = build j := by
  change clamp i.fc.minFreq 10.0 (i.sampleRate * 0.5 - 1) =
    clamp j.fc.minFreq 10.0 (j.sampleRate * 0.5 - 1) at low
  change clamp i.fc.maxFreq (clamp i.fc.minFreq 10.0 (i.sampleRate * 0.5 - 1) + 1)
      (i.sampleRate * 0.5) =
    clamp j.fc.maxFreq (clamp j.fc.minFreq 10.0 (j.sampleRate * 0.5 - 1) + 1)
      (j.sampleRate * 0.5) at high
  unfold build rebuildCache
  dsimp only
  rw [high, low, count, half, rate, scale]

variable [IsStrictOrderedRing K]

theorem minFreq_build_of_eq {i j : Request K} (regular : i.Regular) (regular' : j.Regular)
    (rate : i.sampleRate = j.sampleRate) (same : (build i).minFreq = j.fc.minFreq) :
    22.0 ≤ j.sampleRate ∧ (build j).minFreq = j.fc.minFreq := by
  change clamp i.fc.minFreq 10.0 (i.sampleRate * 0.5 - 1) = j.fc.minFreq at same
  change _ ∧ clamp j.fc.minFreq 10.0 (j.sampleRate * 0.5 - 1) = j.fc.minFreq
  rw [rate] at same
  by_cases fast : 22.0 ≤ j.sampleRate
  · have room : (10.0 : K) ≤ j.sampleRate * 0.5 - 1 := by linarith
    refine ⟨fast, clamp_of_mem ?_ ?_⟩
    · exact same ▸ le_clamp _ room
    · exact same ▸ clamp_le _ room
  · -- both settings lie above the crossed limits, and the clamp below
    have low : 10.0 ≤ i.fc.minFreq := regular.resolve_left (rate ▸ fast)
    have low' : 10.0 ≤ j.fc.minFreq := regular'.resolve_left fast
    have crossed : j.sampleRate * 0.5 - 1 < 10.0 := by linarith
    rw [clamp, if_neg low.not_gt, if_pos (crossed.trans_le low)] at same
    linarith

theorem sound_stale : Sound (Stale (K := K)) build Request.Regular := by
  intro i j regular regular' passed
  simp only [Stale, not_or, not_not] at passed
  obtain ⟨count, half, scale, low, high, rate⟩ := passed
  have scale : i.fc.bandScale = j.fc.bandScale := Option.some.inj scale
  have rate : i.sampleRate = j.sampleRate := rate
  obtain ⟨fast, fixed⟩ := minFreq_build_of_eq regular regular' rate low
  have lows : (build i).minFreq = (build j).minFreq := low.trans fixed.symm
  refine build_congr count half rate scale lows ?_
  rw [high]
  change clamp i.fc.maxFreq ((build i).minFreq + 1) (i.sampleRate * 0.5) = j.fc.maxFreq at high
  change _ = clamp j.fc.maxFreq ((build j).minFreq + 1) (j.sampleRate * 0.5)
  rw [lows, rate] at high
  have room : (build j).minFreq + 1 ≤ j.sampleRate * 0.5 := by
    have below : (build j).minFreq ≤ j.sampleRate * 0.5 - 1 := clamp_le _ (by linarith)
    linarith
  refine (clamp_of_mem ?_ ?_).symm
  · exact high ▸ le_clamp _ room
  · exact high ▸ clamp_le _ room

end Requests

/-! ### The default settings -/

/-- A frame of the default FFT size in silence. -/
def silentSpectrum (sampleRate : ℕ) : AnalysisFrame K :=
  { AnalysisFrame.ofChunk [] ⟨sampleRate, 2, .stereo⟩ 0 0 with
    magnitudes := some (List.replicate 1024 0) }

omit [LinearOrder K] in
theorem silentSpectrum_ne_nil : List.replicate 1024 (0 : K) ≠ [] :=
  List.ne_nil_of_length_pos (by rw [List.length_replicate]; norm_num)

theorem defaults_inRange [IsStrictOrderedRing K] : (FrequencyConfig.defaults K).InRange where
  bandCount := by constructor <;> norm_num [FrequencyConfig.defaults]
  fftSize := by constructor <;> norm_num [FrequencyConfig.defaults]
  logStrength := by constructor <;> norm_num [FrequencyConfig.defaults]
  bandNorm := by constructor <;> norm_num [FrequencyConfig.defaults]
  minFreq := by constructor <;> norm_num [FrequencyConfig.defaults]
  maxFreq := by constructor <;> norm_num [FrequencyConfig.defaults]
  equalizerBands i := by fin_cases i <;> norm_num [FrequencyConfig.defaults]
  equalizerWidth := by constructor <;> norm_num [FrequencyConfig.defaults]
  amplifierVolume := by constructor <;> norm_num [FrequencyConfig.defaults]
  amplifierBands := by constructor <;> norm_num [FrequencyConfig.defaults]
  amplifierDirection := by constructor <;> norm_num [FrequencyConfig.defaults]

/-! ### Runs -/

section Runs

variable [Cmath K] [FloorRing K]

inductive Act (K : Type) where
  | reset
  | process (frame : AnalysisFrame K) (cfg : Settings K)

/-- What a call leaves of the stage. -/
def step (st : BandsStage K) : Act K → BandsStage K
  | .reset => st.reset
  | .process frame cfg => (st.process frame cfg).1

def after (acts : List (Act K)) : BandsStage K := acts.foldl step initial

/-- `process` of a stage that rebuilds its cache at every frame. -/
def processAnew (frame : AnalysisFrame K) (cfg : Settings K) : AnalysisFrame K :=
  match frame.magnitudes with
  | none => { frame with bands16 := fun _ => 0, bands32 := fun _ => 0 }
  | some mags =>
    let sampleRate : K := frame.format.sampleRate
    if mags.length = 0 then frame
    else if sampleRate ≤ 0 then frame
    else
      let cache := rebuildCache (bandCount cfg) mags.length sampleRate cfg.frequency
      let raw := rawBands cache mags cfg
      { frame with
        rawBands := raw
        bandCount := some (bandCount cfg)
        bands16 := downsample raw 16
        bands32 := downsample raw 32 }

theorem cache_process (st : BandsStage K) (frame : AnalysisFrame K) (cfg : Settings K) :
    (st.process frame cfg).1.cache = match requestOf frame cfg with
      | none => st.cache
      | some i => Lib.Memo.consult Stale build st.cache i := by
  unfold process requestOf
  cases frame.magnitudes with
  | none => rfl
  | some mags =>
    dsimp only
    split_ifs <;> rfl

theorem process_eq_anew {st : BandsStage K} {frame : AnalysisFrame K} {cfg : Settings K}
    (anew : ∀ i ∈ requestOf frame cfg, Lib.Memo.consult Stale build st.cache i = build i) :
    (st.process frame cfg).2 = processAnew frame cfg := by
  unfold process processAnew
  unfold requestOf at anew
  cases spectrum : frame.magnitudes with
  | none => rfl
  | some mags =>
    rw [spectrum] at anew
    dsimp only at anew ⊢
    split_ifs at anew ⊢ with empty silent
    · rfl
    · rfl
    · have same := anew _ (Option.mem_some_self _)
      rw [← refresh_eq] at same
      dsimp only at same ⊢
      rw [same]
      rfl

theorem holds_after {allowed : Request K → Prop} {acts : List (Act K)}
    (may : ∀ frame cfg, .process frame cfg ∈ acts → ∀ i ∈ requestOf frame cfg, allowed i) :
    Holds build Cache.empty allowed (after acts).cache := by
  induction acts using List.reverseRecOn with
  | nil => exact holds_start
  | append_singleton acts act ih =>
    have before := ih fun frame cfg listed => may frame cfg (List.mem_append_left _ listed)
    rw [after, List.foldl_append]
    cases act with
    | reset => exact holds_start
    | process frame cfg =>
      have now := may frame cfg (List.mem_append_right _ List.mem_cons_self)
      change Holds build Cache.empty allowed ((after acts).process frame cfg).1.cache
      rw [cache_process]
      cases requested : requestOf frame cfg with
      | none => exact before
      | some i => exact before.consult (now i requested)

/-- What the FFT stage promises of a frame and the store of its settings. Below 22 Hz the
frequency limits cross, and only clamped settings stay above both. -/
structure Promised (frame : AnalysisFrame K) (cfg : Settings K) : Prop where
  bins : ∀ mags, frame.magnitudes = some mags → mags.length ≠ 1
  limits : 22.0 ≤ (frame.format.sampleRate : K) ∨ 10.0 ≤ cfg.frequency.minFreq

omit [Cmath K] [FloorRing K] in
theorem Promised.regular {frame : AnalysisFrame K} {cfg : Settings K} (h : Promised frame cfg)
    {i : Request K} (requested : i ∈ requestOf frame cfg) : i.Regular := by
  obtain ⟨mags, -, -, -, rfl⟩ := mem_requestOf.mp requested
  exact h.limits

theorem holds_regular {acts : List (Act K)}
    (promised : ∀ frame cfg, .process frame cfg ∈ acts → Promised frame cfg) :
    Holds build Cache.empty Request.Regular (after acts).cache :=
  holds_after fun frame cfg listed _ requested => (promised frame cfg listed).regular requested

omit [FloorRing K] in
theorem bins_build {i : Request K} (some : 2 ≤ i.fftHalf) :
    (build i).bins.length = i.bandCount ∧
      ∀ b < i.bandCount, ∀ k ∈ (build i).bins.getD b [], k < i.fftHalf := by
  refine ⟨(List.length_map _).trans List.length_range, fun b inside k listed => ?_⟩
  exact ((rebuildCache_bins i.sampleRate i.fc some inside).2 k listed).2

/-- At every frame of every run the cache is as good as a new one, and all of its bins lie in
the spectrum of the frame. -/
theorem cache_never_stale [IsStrictOrderedRing K] {acts : List (Act K)}
    (promised : ∀ frame cfg, .process frame cfg ∈ acts → Promised frame cfg)
    {frame : AnalysisFrame K} {cfg : Settings K} (now : Promised frame cfg) :
    ((after acts).process frame cfg).2 = processAnew frame cfg ∧
      ∀ mags, frame.magnitudes = some mags → mags ≠ [] → 0 < frame.format.sampleRate →
        ((after acts).process frame cfg).1.cache.bins.length = bandCount cfg ∧
          ∀ b < bandCount cfg, ∀ k ∈ ((after acts).process frame cfg).1.cache.bins.getD b [],
            k < mags.length := by
  have anew : ∀ i ∈ requestOf frame cfg,
      Lib.Memo.consult Stale build (after acts).cache i = build i := fun i requested =>
    consult_eq sound_stale (stale_empty i) (holds_regular promised) (now.regular requested)
  refine ⟨process_eq_anew anew, fun mags found bins loud => ?_⟩
  have requested := requestOf_eq found bins loud cfg
  have wide : 2 ≤ mags.length := by
    have some := List.length_pos_iff.mpr bins
    have other := now.bins mags found
    omega
  rw [cache_process, requested]
  dsimp only
  rw [anew _ requested]
  exact bins_build wide

end Runs

/-- A frame of the default FFT size with another magnitude in every bin. -/
def risingSpectrum (sampleRate : ℕ) : AnalysisFrame K :=
  { AnalysisFrame.ofChunk [] ⟨sampleRate, 2, .stereo⟩ 0 0 with
    magnitudes := some ((List.range 1024).map fun k : ℕ => (k : K)) }

/-- The defaults with sixteen bands of one width. -/
def evenBands (K : Type) [Field K] : Settings K :=
  { Settings.defaults K with
    frequency := { FrequencyConfig.defaults K with bandCount := 16, bandScale := .linear } }

theorem promised_risingSpectrum [IsStrictOrderedRing K] (sampleRate : ℕ) {cfg : Settings K}
    (low : cfg.frequency.minFreq = 30.0) :
    Promised (risingSpectrum sampleRate : AnalysisFrame K) cfg where
  bins mags found := by
    obtain rfl : (List.range 1024).map (fun k : ℕ => (k : K)) = mags := Option.some.inj found
    rw [List.length_map, List.length_range]
    norm_num
  limits := .inr (by rw [low]; norm_num)

/-- Two rates and two layouts in turn, with a reset in between. -/
noncomputable def turns : List (Act ℝ) :=
  [.process (risingSpectrum 48000) (Settings.defaults ℝ),
    .process (risingSpectrum 48000) (evenBands ℝ), .reset,
    .process (risingSpectrum 32000) (Settings.defaults ℝ)]

theorem promised_turns : ∀ frame cfg, .process frame cfg ∈ turns → Promised frame cfg := by
  intro frame cfg listed
  simp only [turns, List.mem_cons, List.not_mem_nil, or_false, Act.process.injEq, reduceCtorEq,
    false_or] at listed
  rcases listed with ⟨rfl, rfl⟩ | ⟨rfl, rfl⟩ | ⟨rfl, rfl⟩
  · exact promised_risingSpectrum 48000 rfl
  · exact promised_risingSpectrum 48000 rfl
  · exact promised_risingSpectrum 32000 rfl

theorem spectrum_never_stale :
    ((after turns).process (risingSpectrum 48000) (evenBands ℝ)).2 =
        processAnew (risingSpectrum 48000) (evenBands ℝ) ∧
      ((after turns).process (risingSpectrum 48000) (evenBands ℝ)).1.cache.bins.length = 16 := by
  have now : Promised (risingSpectrum 48000) (evenBands ℝ) := promised_risingSpectrum 48000 rfl
  obtain ⟨anew, inside⟩ := cache_never_stale promised_turns now
  have filled : (List.range 1024).map (fun k : ℕ => (k : ℝ)) ≠ [] := by
    intro none
    have length := congrArg List.length none
    rw [List.length_map, List.length_range] at length
    exact absurd length (by decide)
  exact ⟨anew, (inside _ rfl filled (show 0 < 48000 by norm_num)).1⟩

theorem promised_of_inRange [Cmath K] [KissFft K] {st : FftStage K} {frame : AnalysisFrame K}
    (blank : frame.magnitudes = none) {cfg : Settings K} (range : cfg.frequency.InRange) :
    Promised (st.process frame cfg).2 cfg where
  bins mags found := by
    have half := FftStage.process_magnitudes_length blank found
    have size := FftStage.usedSize_ge cfg
    omega
  limits := .inr range.minFreq.1

/-! ### When a layout is used again -/

section Reuse

variable [IsStrictOrderedRing K] [Cmath K]

theorem stale_build_iff {i : Request K} (fast : 8000.0 ≤ i.sampleRate) (range : i.fc.InRange) :
    Stale (build i) i ↔ i.sampleRate * 0.5 < i.fc.maxFreq := by
  obtain ⟨low, low'⟩ := range.minFreq
  have minFreq : (build i).minFreq = i.fc.minFreq := clamp_of_mem low (by linarith)
  have maxFreq : (build i).maxFreq = i.fc.maxFreq ↔ i.fc.maxFreq ≤ i.sampleRate * 0.5 := by
    have room : (build i).minFreq + 1 ≤ i.sampleRate * 0.5 := by linarith
    constructor
    · intro kept
      have below : (build i).maxFreq ≤ i.sampleRate * 0.5 := clamp_le _ room
      exact kept ▸ below
    · intro below
      have above : (build i).minFreq + 1 ≤ i.fc.maxFreq := by linarith [range.maxFreq.1]
      exact clamp_of_mem above below
  constructor
  · intro stale
    by_contra below
    rcases stale with other | other | other | other | other | other
    · exact other rfl
    · exact other rfl
    · exact other rfl
    · exact other minFreq
    · exact other (maxFreq.mpr (not_lt.mp below))
    · exact other rfl
  · intro high
    exact .inr (.inr (.inr (.inr (.inl fun kept => high.not_ge (maxFreq.mp kept)))))

theorem stale_of_high {cache : Cache K} {i : Request K}
    (h : Holds build Cache.empty (fun _ => True) cache) (fast : 8000.0 ≤ i.sampleRate)
    (range : i.fc.InRange) (high : i.sampleRate * 0.5 < i.fc.maxFreq) : Stale cache i := by
  rcases h with rfl | ⟨j, -, rfl⟩
  · exact stale_empty i
  · by_contra passed
    simp only [Stale, not_or, not_not] at passed
    obtain ⟨-, -, -, low, kept, rate⟩ := passed
    have rate : j.sampleRate = i.sampleRate := rate
    have room : (build j).minFreq + 1 ≤ j.sampleRate * 0.5 := by
      rw [low, rate]
      linarith [range.minFreq.2]
    have below : (build j).maxFreq ≤ j.sampleRate * 0.5 := clamp_le _ room
    rw [kept, rate] at below
    exact high.not_ge below

variable [FloorRing K]

omit [IsStrictOrderedRing K] in
theorem rebuilds_again {st : BandsStage K} {frame frame' : AnalysisFrame K} {cfg : Settings K}
    {i : Request K} (first : requestOf frame cfg = some i) (again : requestOf frame' cfg = some i) :
    Rebuilds (st.process frame cfg).1 frame' cfg ↔ Stale st.cache i ∧ Stale (build i) i := by
  unfold Rebuilds
  rw [cache_process, first, again]
  constructor
  · rintro ⟨j, listed, stale⟩
    obtain rfl := Option.some.inj listed
    exact stale_consult_iff.mp stale
  · intro stale
    exact ⟨i, rfl, stale_consult_iff.mpr stale⟩

/-- Two equal calls in a row rebuild once exactly when the upper limit of the settings is not
over the Nyquist frequency; and then they do so from any state. -/
theorem no_second_rebuild_iff {frame frame' : AnalysisFrame K} {cfg : Settings K}
    {mags mags' : List K} (first : frame.magnitudes = some mags)
    (again : frame'.magnitudes = some mags') (bins : mags ≠ [])
    (half : mags'.length = mags.length)
    (rate : frame'.format.sampleRate = frame.format.sampleRate)
    (fast : 8000 ≤ frame.format.sampleRate) (range : cfg.frequency.InRange) :
    (cfg.frequency.maxFreq ≤ (frame.format.sampleRate : K) * 0.5 →
        ∀ st : BandsStage K, ¬ Rebuilds (st.process frame cfg).1 frame' cfg) ∧
      ∀ acts : List (Act K), ¬ Rebuilds ((after acts).process frame cfg).1 frame' cfg ↔
        cfg.frequency.maxFreq ≤ (frame.format.sampleRate : K) * 0.5 := by
  have loud : 0 < frame.format.sampleRate := by omega
  have bins' : mags' ≠ [] := by
    rw [← List.length_pos_iff, half]
    exact List.length_pos_iff.mpr bins
  have first := requestOf_eq first bins loud cfg
  have again := requestOf_eq again bins' (rate ▸ loud) cfg
  rw [half, rate] at again
  have fast : (8000.0 : K) ≤ frame.format.sampleRate := by
    have cast : ((8000 : ℕ) : K) ≤ (frame.format.sampleRate : K) := Nat.cast_le.mpr fast
    norm_num at cast ⊢
    exact cast
  have own := stale_build_iff
    (i := ⟨bandCount cfg, mags.length, (frame.format.sampleRate : K), cfg.frequency⟩) fast range
  refine ⟨fun below st => ?_, fun acts => ?_⟩
  · rw [rebuilds_again first again, own]
    exact fun stale => stale.2.not_ge below
  · rw [rebuilds_again first again, own, ← not_lt]
    refine not_congr ⟨And.right, fun high => ⟨?_, high⟩⟩
    exact stale_of_high (holds_after fun _ _ _ _ _ => trivial) fast range high

end Reuse

/-- At 48 kHz the default settings keep their layout. -/
theorem defaults_kept_at_48_kHz :
    ¬ Rebuilds ((initial : BandsStage ℝ).process (silentSpectrum 48000) (Settings.defaults ℝ)).1
      (silentSpectrum 48000) (Settings.defaults ℝ) := by
  have range : (Settings.defaults ℝ).frequency.InRange := defaults_inRange
  have rate : 8000 ≤ (silentSpectrum 48000 : AnalysisFrame ℝ).format.sampleRate :=
    show 8000 ≤ 48000 by norm_num
  refine (no_second_rebuild_iff rfl rfl silentSpectrum_ne_nil rfl rfl rate range).1 ?_ initial
  change (22050.0 : ℝ) ≤ ((48000 : ℕ) : ℝ) * 0.5
  norm_num

/-- At 32 kHz the default settings, clamped as they are, rebuild the layout at every frame. -/
theorem defaults_rebuild_at_32_kHz :
    (Settings.defaults ℝ).frequency.InRange ∧
      Rebuilds ((initial : BandsStage ℝ).process (silentSpectrum 32000) (Settings.defaults ℝ)).1
        (silentSpectrum 32000) (Settings.defaults ℝ) := by
  have range : (Settings.defaults ℝ).frequency.InRange := defaults_inRange
  refine ⟨range, ?_⟩
  have request : requestOf (silentSpectrum 32000) (Settings.defaults ℝ) =
      some ⟨bandCount (Settings.defaults ℝ), _, ((32000 : ℕ) : ℝ), _⟩ :=
    requestOf_eq rfl silentSpectrum_ne_nil (show 0 < 32000 by norm_num) (Settings.defaults ℝ)
  refine (rebuilds_again request request).mpr ⟨stale_empty _, (stale_build_iff ?_ range).mpr ?_⟩
  · change (8000.0 : ℝ) ≤ ((32000 : ℕ) : ℝ)
    norm_num
  · change ((32000 : ℕ) : ℝ) * 0.5 < (22050.0 : ℝ)
    norm_num

end Listeningway.Dsp.BandsStage
