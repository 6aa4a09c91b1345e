/- Listeningway/Output/BandReductions
   source: src/audio/dsp/stages/bands_stage.cpp; src/audio/pipeline/audio_system.cpp;
     STABILITY.md
   digest: When the 16 and 32 buckets of a snapshot average the bands published with them. -/

import Listeningway.Dsp.BandLevels
import Listeningway.System.PublishedFrames
import Mathlib.Algebra.Order.Floor.Semifield

/-!
BandsStage averages the raw bands; LogBoostStage and EqualizerStage then change what is
published as the bands.
-/

set_option autoImplicit false
set_option relaxedAutoImplicit false

namespace Listeningway.Dsp.BandsStage

variable {K : Type} [Field K] [LinearOrder K] [IsStrictOrderedRing K] [FloorRing K]

/-- The bands of bucket `i` when `n` bands are cut into `m` runs. -/
def bandsIn (n m i : ℕ) : Finset ℕ := Finset.Ico (i * n / m) ((i + 1) * n / m)

theorem bandsIn_lt {n m i k : ℕ} (hi : i < m) (hk : k ∈ bandsIn n m i) : k < n := by
  have border : (i + 1) * n / m ≤ n := by
    apply Nat.div_le_of_le_mul
    exact Nat.mul_le_mul_right n hi
  have below := (Finset.mem_Ico.mp hk).2
  omega

theorem truncate_border (i n m : ℕ) : truncate ((i : K) * ((n : K) / (m : K))) = i * n / m := by
  rw [truncate, Int.floor_toNat, ← mul_div_assoc, ← Nat.cast_mul, Nat.floor_div_eq_div]

theorem downsample_eq (src : List K) {m : ℕ} (i : Fin m) :
    downsample src m i =
      (∑ k ∈ bandsIn src.length m i, src.getD k 0) / ((bandsIn src.length m i).card : K) := by
  have border : ((i : ℕ) + 1) * src.length / m ≤ src.length := by
    apply Nat.div_le_of_le_mul
    exact Nat.mul_le_mul_right _ i.2
  have upper : truncate (((i : ℕ) + 1 : K) * ((src.length : K) / (m : K))) =
      ((i : ℕ) + 1) * src.length / m := by
    rw [← truncate_border (K := K), Nat.cast_add, Nat.cast_one]
  unfold downsample
  by_cases empty : m = 0 ∨ src = []
  · rw [if_pos empty]
    rcases empty with rfl | rfl
    · exact i.elim0
    · simp [bandsIn]
  · rw [if_neg empty]
    dsimp only
    rw [truncate_border, upper, Nat.min_eq_right border, bandsIn, Nat.card_Ico]
    split_ifs with some
    · rfl
    · rw [Finset.Ico_eq_empty (by omega), Finset.sum_empty, zero_div]

end Listeningway.Dsp.BandsStage

namespace Listeningway.Output.BandReductions

open Listeningway.Config
open Listeningway.Dsp
open Listeningway.Dsp.BandsStage (bandsIn bandsIn_lt downsample downsample_eq)
open Listeningway.Lib.Machine
open Listeningway.Ring.FrameRing (FrameChunk)
open Listeningway.Snapshot
open Listeningway.Source.AudioSource
open Listeningway.System
open Listeningway.System.AudioSystem
open Listeningway.System.DspThread
open Listeningway.System.PublishedFrames

variable {K : Type} [Field K]

/-- `freq_bands[k]`. -/
def band (snap : AudioSnapshot K) (k : ℕ) : K := (List.ofFn snap.freqBands).getD k 0

/-- `xs` holds the means of the published bands in consecutive buckets; a bucket without
bands may hold anything. -/
def Averages (snap : AudioSnapshot K) {m : ℕ} (xs : Fin m → K) : Prop :=
  ∀ i : Fin m, (bandsIn snap.freqBandCount m i).Nonempty →
    xs i = (∑ k ∈ bandsIn snap.freqBandCount m i, band snap k) /
      ((bandsIn snap.freqBandCount m i).card : K)

/-- The documented meaning of `freqbands16` and `freqbands32`. -/
structure Reduces (snap : AudioSnapshot K) : Prop where
  freqBands16 : Averages snap snap.freqBands16
  freqBands32 : Averages snap snap.freqBands32

variable [LinearOrder K]

section Balance

variable [FloorRing K] [Cmath K] [KissFft K]

/-- In every bucket the gains after BandsStage cancel: what they add to some of its levels,
clamped at 1, they take from others. -/
def Balanced (c : ComposedStages K) (frame : AnalysisFrame K) (cfg : Settings K) (m : ℕ) : Prop :=
  ∀ mags, (c.fft.process frame cfg).2.magnitudes = some mags → 0 < frame.format.sampleRate →
    ∀ i < m, ∑ k ∈ bandsIn (BandsStage.bandCount cfg) m i,
      min 1 (c.level frame cfg mags k) * (ComposedStages.gain cfg k - 1) = 0

/-- No band is amplified after BandsStage, nor attenuated. -/
def FlatGains (cfg : Settings K) : Prop :=
  ∀ k < BandsStage.bandCount cfg, ComposedStages.gain cfg k = 1

end Balance

omit [LinearOrder K] in
private theorem getD_range_map (n : ℕ) (f : ℕ → K) {k : ℕ} (hk : k < n) :
    ((List.range n).map f).getD k 0 = f k := by
  rw [List.getD_eq_getElem _ _ (by simpa using hk), List.getElem_map, List.getElem_range]

variable [IsStrictOrderedRing K] [FloorRing K]

theorem downsample_averages_iff (n : ℕ) (raw g : ℕ → K) {m : ℕ} (i : Fin m)
    (some : (bandsIn n m i).Nonempty) :
    downsample ((List.range n).map raw) m i =
        (∑ k ∈ bandsIn n m i, ((List.range n).map fun k => raw k * g k).getD k 0) /
          ((bandsIn n m i).card : K) ↔
      ∑ k ∈ bandsIn n m i, raw k * (g k - 1) = 0 := by
  have inside : ∀ k ∈ bandsIn n m i, k < n := fun k hk => bandsIn_lt i.2 hk
  have card : ((bandsIn n m i).card : K) ≠ 0 := Nat.cast_ne_zero.mpr (Finset.card_ne_zero.mpr some)
  have before : ∑ k ∈ bandsIn n m i, ((List.range n).map raw).getD k 0 =
      ∑ k ∈ bandsIn n m i, raw k :=
    Finset.sum_congr rfl fun k hk => getD_range_map n raw (inside k hk)
  have after : ∑ k ∈ bandsIn n m i, ((List.range n).map fun k => raw k * g k).getD k 0 =
      ∑ k ∈ bandsIn n m i, raw k * g k :=
    Finset.sum_congr rfl fun k hk => getD_range_map n _ (inside k hk)
  have change : ∑ k ∈ bandsIn n m i, raw k * (g k - 1) =
      ∑ k ∈ bandsIn n m i, raw k * g k - ∑ k ∈ bandsIn n m i, raw k := by
    rw [← Finset.sum_sub_distrib]
    exact Finset.sum_congr rfl fun k _ => by ring
  rw [downsample_eq, List.length_map, List.length_range, before, after, change, sub_eq_zero,
    div_left_inj' card, eq_comm]

variable [Cmath K] [KissFft K]

section Frames

variable {c : ComposedStages K} {frame : AnalysisFrame K} (cfg : Settings K)

omit [LinearOrder K] [IsStrictOrderedRing K] [FloorRing K] [Cmath K] [KissFft K] in
theorem band_project (frame : AnalysisFrame K) (profile : Profile K)
    (short : (srcBands frame).length ≤ kMaxBands) (k : ℕ) :
    band (project frame profile) k = (srcBands frame).getD k 0 := by
  change (List.ofFn (cap (srcBands frame))).getD k 0 = _
  rcases Nat.lt_or_ge k kMaxBands with inside | outside
  · rw [List.getD_eq_getElem _ _ (by simpa using inside), List.getElem_ofFn]
    rfl
  · rw [List.getD_eq_default _ _ (by simpa using outside),
      List.getD_eq_default _ _ (short.trans outside)]

omit [Cmath K] [KissFft K] in
theorem averages_project_iff {frame : AnalysisFrame K} (profile : Profile K) {n : ℕ}
    {raw g : ℕ → K} (bands : srcBands frame = (List.range n).map fun k => raw k * g k)
    (short : n ≤ kMaxBands) (m : ℕ) :
    Averages (project frame profile) (downsample ((List.range n).map raw) m) ↔
      ∀ i < m, ∑ k ∈ bandsIn n m i, raw k * (g k - 1) = 0 := by
  have length : (srcBands frame).length = n := by rw [bands, List.length_map, List.length_range]
  have count : (project frame profile).freqBandCount = n := by
    change min (srcBands frame).length kMaxBands = n
    rw [length, Nat.min_eq_left short]
  have shown (k : ℕ) : band (project frame profile) k =
      ((List.range n).map fun k => raw k * g k).getD k 0 := by
    rw [band_project frame profile (length.trans_le short), bands]
  unfold Averages
  simp only [count, shown]
  constructor
  · intro h i hi
    rcases (bandsIn n m i).eq_empty_or_nonempty with none | some
    · rw [none, Finset.sum_empty]
    · exact (downsample_averages_iff n raw g ⟨i, hi⟩ some).mp (h ⟨i, hi⟩ some)
  · intro h i some
    exact (downsample_averages_iff n raw g i some).mpr (h i i.2)

theorem averages_iff (blank : frame.Blank) (profile : Profile K) (m : ℕ) :
    Averages (project (c.process frame cfg).2 profile)
        (downsample (c.afterBands frame cfg).rawBands m) ↔ Balanced c frame cfg m := by
  have count := BandsStage.bandCount_le cfg
  have bands := ComposedStages.srcBands_eq (c := c) cfg blank
  have raw := ComposedStages.afterBands_rawBands (c := c) cfg blank
  have nothing (none : srcBands (c.process frame cfg).2 = [])
      (before : (c.afterBands frame cfg).rawBands = []) :
      Averages (project (c.process frame cfg).2 profile)
        (downsample (c.afterBands frame cfg).rawBands m) := by
    have empty : srcBands (c.process frame cfg).2 =
        (List.range 0).map fun _ => (0 : K) * 0 := none
    rw [before]
    refine (averages_project_iff profile empty (Nat.zero_le _) m).mpr fun i _ => ?_
    exact Finset.sum_eq_zero fun k _ => zero_mul _
  cases hs : (c.fft.process frame cfg).2.magnitudes with
  | none =>
    simp only [hs] at bands raw
    refine iff_of_true (nothing bands raw) fun mags spectrum => ?_
    rw [hs] at spectrum
    cases spectrum
  | some mags =>
    by_cases rate : 0 < frame.format.sampleRate
    · simp only [hs, if_pos rate] at bands raw
      rw [raw, averages_project_iff profile bands count]
      constructor
      · intro h mags' spectrum _
        obtain rfl := Option.some.inj (hs.symm.trans spectrum)
        exact h
      · exact fun h => h mags hs rate
    · simp only [hs, if_neg rate] at bands raw
      exact iff_of_true (nothing bands raw) fun _ _ high => absurd high rate

omit [IsStrictOrderedRing K] [FloorRing K] in
theorem balanced_of_flat (flat : FlatGains cfg) {m : ℕ} : Balanced c frame cfg m := by
  intro mags _ _ i inside
  refine Finset.sum_eq_zero fun k listed => ?_
  rw [flat k (bandsIn_lt inside listed), sub_self, mul_zero]

theorem reduces_iff (blank : frame.Blank) (profile : Profile K) :
    Reduces (project (c.process frame cfg).2 profile) ↔
      Balanced c frame cfg 16 ∧ Balanced c frame cfg 32 := by
  obtain ⟨out16, out32⟩ := c.process_reductions frame cfg
  obtain ⟨raw16, raw32⟩ := ComposedStages.afterBands_reductions (c := c) cfg blank
  rw [← averages_iff cfg blank profile, ← averages_iff cfg blank profile, ← raw16, ← raw32,
    ← out16, ← out32]
  exact ⟨fun h => ⟨h.freqBands16, h.freqBands32⟩, fun h => ⟨h.1, h.2⟩⟩

end Frames

/-! ### Runs of the AudioSystem -/

section Runs

variable {sources : List Info} {as : List (Act K)} {s t : State K} {os : List (Event K)}
  {tick : Tick} {chunk : FrameChunk K}

omit [IsStrictOrderedRing K] in
theorem pass_frame {c : ComposedStages K} (shape : s.pipeline.stages = c.stages) :
    (passOf s tick chunk).2 = (c.process (frameOf s tick chunk) (settingsOf s)).2 := by
  rw [passOf, Pipeline.process, shape, c.runStages_stages]

theorem shown_reduces_iff {c : ComposedStages K} (shape : s.pipeline.stages = c.stages) :
    Reduces (shown s tick chunk) ↔
      Balanced c (frameOf s tick chunk) (settingsOf s) 16 ∧
        Balanced c (frameOf s tick chunk) (settingsOf s) 32 := by
  have blank : (frameOf s tick chunk).Blank := AnalysisFrame.blank_ofChunk _ _ _ _
  have whole := reduces_iff (c := c) (settingsOf s) blank (passOf s tick chunk).1.profile
  rw [← pass_frame shape] at whole
  -- the histories are no part of it
  exact Iff.trans ⟨fun h => ⟨h.freqBands16, h.freqBands32⟩, fun h => ⟨h.freqBands16, h.freqBands32⟩⟩
    whole

theorem published_reduces_iff (h : run (step sources) AudioSystem.initial as = some (t, os)) :
    (∀ snap, .published snap ∈ os → Reduces snap) ↔
      ∀ s tick chunk, Handles sources as s tick chunk →
        ∀ c : ComposedStages K, s.pipeline.stages = c.stages →
          Balanced c (frameOf s tick chunk) (settingsOf s) 16 ∧
            Balanced c (frameOf s tick chunk) (settingsOf s) 32 := by
  have zero (now : TimePoint) : Reduces (zeroAt now : AudioSnapshot K) := by
    have none (m : ℕ) (i : Fin m) : bandsIn 0 m i = ∅ := by simp [bandsIn]
    constructor
    all_goals
      intro i some
      change (bandsIn 0 _ i).Nonempty at some
      rw [none] at some
      exact absurd some Finset.not_nonempty_empty
  rw [all_published_iff zero h]
  refine forall₄_congr fun s tick chunk handled => ?_
  obtain ⟨c, shape, -⟩ := handled.composed.exists_stages
  rw [shown_reduces_iff shape]
  constructor
  · intro balanced c' shape'
    exact (shown_reduces_iff shape').mp ((shown_reduces_iff shape).mpr balanced)
  · exact fun all => all c shape

/-- The buckets published in a run average the bands published with them as long as the
settings of no processed frame change a band after BandsStage. -/
theorem published_reduces (h : run (step sources) AudioSystem.initial as = some (t, os))
    (flat : ∀ s tick chunk, Handles sources as s tick chunk → FlatGains (settingsOf s)) :
    ∀ snap, .published snap ∈ os → Reduces snap := by
  refine (published_reduces_iff h).mpr fun s tick chunk handled c _ => ?_
  have level := flat s tick chunk handled
  exact ⟨balanced_of_flat _ level, balanced_of_flat _ level⟩

end Runs

/-! ### A flat equalizer, and an impulse under the defaults -/

section Runs

open Listeningway.Lib.Clamp
open Listeningway.Dsp.BandsStage (average)
open Listeningway.System.Forgetting (systemAndOff)

/-- The defaults with all knobs at 1. -/
noncomputable def flat : Settings ℝ :=
  { Settings.defaults ℝ with
    frequency := { FrequencyConfig.defaults ℝ with equalizerBands := fun _ => 1 } }

theorem flat_gains : FlatGains flat.clampInPlace := by
  have knobs (i : Fin 5) : flat.clampInPlace.frequency.equalizerBands i = 1 :=
    clamp_of_mem zero_le_one (by change (1 : ℝ) ≤ 4.0; norm_num)
  exact fun k _ => ComposedStages.gain_level (by decide : BandScale.mel ≠ .log) knobs k

/-- The second of two mono samples. -/
def impulse : FrameChunk ℝ := ⟨[0, 1], ⟨48000, 1, .mono⟩⟩

theorem hannWindow_pos {size : ℕ} (wide : 64 ≤ size) :
    0 < (FftStage.hannWindow size : List ℝ).getD 1 0 := by
  have large : (64 : ℝ) ≤ size := by exact_mod_cast wide
  have angle : 2.0 * Real.pi * ((1 : ℕ) : ℝ) / ((size : ℝ) - 1) < 2 * Real.pi := by
    rw [div_lt_iff₀ (by linarith)]
    norm_num
    nlinarith [Real.pi_pos]
  have positive : 0 < 2.0 * Real.pi * ((1 : ℕ) : ℝ) / ((size : ℝ) - 1) :=
    div_pos (by norm_num [Real.pi_pos]) (by linarith)
  have open_ : Real.cos (2.0 * Real.pi * ((1 : ℕ) : ℝ) / ((size : ℝ) - 1)) < 1 := by
    refine lt_of_le_of_ne (Real.cos_le_one _) fun closed => ?_
    exact positive.ne' ((Real.cos_eq_one_iff_of_lt_of_lt (by linarith) angle).mp closed)
  have value : (FftStage.hannWindow size : List ℝ).getD 1 0 =
      0.5 * (1 - Real.cos (2.0 * Real.pi * ((1 : ℕ) : ℝ) / ((size : ℝ) - 1))) := by
    have second : (List.range size)[1]? = some 1 := List.getElem?_range (by omega)
    rw [List.getD_eq_getElem?_getD, FftStage.hannWindow]
    simp only [List.bind_eq_flatMap, List.pure_def, ← List.map_eq_flatMap, List.getElem?_map,
      second]
    rfl
  rw [value]
  linarith

/-- The frame of the impulse. -/
def impulseFrame (n : ℕ) : AnalysisFrame ℝ :=
  AnalysisFrame.ofChunk impulse.samples impulse.format 0 n

theorem impulse_input (hann : List ℝ) (n i : ℕ) :
    FftStage.input hann (impulseFrame n) i = (if i = 1 then hann.getD 1 0 else 0, 0) := by
  rcases i with _ | _ | i
  all_goals
    simp [FftStage.input, FftStage.downmix, impulseFrame, impulse, AnalysisFrame.ofChunk]

theorem impulse_bin (hann : List ℝ) (n : ℕ) {size : ℕ} (wide : 2 ≤ size) (k : Fin (size / 2)) :
    ∃ angle, FftStage.bin hann (impulseFrame n) size k =
      (hann.getD 1 0 * Real.cos angle, -(hann.getD 1 0 * Real.sin angle)) := by
  have others (j : Fin size) (other : j ≠ ⟨1, wide⟩) :
      FftStage.input hann (impulseFrame n) j = (0, 0) := by
    have later : (j : ℕ) ≠ 1 := fun same => other (Fin.ext same)
    rw [impulse_input, if_neg later]
  have second : FftStage.input hann (impulseFrame n) 1 = (hann.getD 1 0, 0) := by
    rw [impulse_input, if_pos rfl]
  refine ⟨2 * Real.pi * ((1 : ℕ) : ℝ) * ((k : ℕ) : ℝ) / size, Prod.ext ?_ ?_⟩
  · refine (Finset.sum_eq_single (⟨1, wide⟩ : Fin size) (fun j _ other => ?_)
      fun out => absurd (Finset.mem_univ _) out).trans ?_
    · dsimp only
      rw [others j other]
      ring
    · dsimp only
      rw [second]
      ring
  · refine (Finset.sum_eq_single (⟨1, wide⟩ : Fin size) (fun j _ other => ?_)
      fun out => absurd (Finset.mem_univ _) out).trans ?_
    · dsimp only
      rw [others j other]
      ring
    · dsimp only
      rw [second]
      ring

theorem impulse_spectrum (cfg : Settings ℝ) (n : ℕ) :
    ∃ mags, (FftStage.initial.process (impulseFrame n) cfg).2.magnitudes = some mags ∧
      2 ≤ mags.length ∧ ∀ m ∈ mags, 0 < m := by
  have wide := FftStage.usedSize_ge cfg
  have configured : (FftStage.initial : FftStage ℝ).configure (FftStage.usedSize cfg) =
      ⟨FftStage.usedSize cfg, true, FftStage.hannWindow (FftStage.usedSize cfg),
        List.replicate (FftStage.usedSize cfg / 2) 0,
        List.replicate (FftStage.usedSize cfg / 2) 0⟩ := by
    have other : FftStage.usedSize cfg ≠ (FftStage.initial : FftStage ℝ).fftSize := by
      change FftStage.usedSize cfg ≠ 0
      omega
    rw [FftStage.configure, if_neg other, if_neg (by omega)]
    rfl
  have magnitudes : (FftStage.initial.process (impulseFrame n) cfg).2.magnitudes =
      some (List.ofFn fun k => FftStage.magnitude (FftStage.bin
        (FftStage.hannWindow (FftStage.usedSize cfg)) (impulseFrame n)
        (FftStage.usedSize cfg) k)) := by
    have found := FftStage.process_magnitudes (FftStage.initial : FftStage ℝ) (impulseFrame n) cfg
    rwa [← FftStage.usedSize, configured, if_pos rfl] at found
  refine ⟨_, magnitudes, ?_, ?_⟩
  · rw [List.length_ofFn]
    omega
  · intro m hm
    obtain ⟨k, rfl⟩ := List.mem_ofFn.mp hm
    obtain ⟨angle, bin⟩ := impulse_bin (FftStage.hannWindow (FftStage.usedSize cfg)) n
      (by omega : 2 ≤ FftStage.usedSize cfg) k
    have level := hannWindow_pos wide
    have square (h : ℝ) : h * Real.cos angle * (h * Real.cos angle) +
        -(h * Real.sin angle) * -(h * Real.sin angle) = h * h := by
      have unit := Real.sin_sq_add_cos_sq angle
      linear_combination h * h * unit
    rw [bin, FftStage.magnitude]
    dsimp only
    rw [square]
    exact Real.sqrt_pos.mpr (mul_pos level level)

theorem average_pos {mags : List ℝ} (pos : ∀ m ∈ mags, 0 < m) {bins : List ℕ}
    (some : bins ≠ []) (inside : ∀ k ∈ bins, k < mags.length) : 0 < average mags bins := by
  rw [average, if_neg some]
  refine div_pos (List.sum_pos _ ?_ (by simpa using some))
    (Nat.cast_pos.mpr (List.length_pos_iff.mpr some))
  intro m hm
  obtain ⟨k, hk, rfl⟩ := List.mem_map.mp hm
  rw [List.getD_eq_getElem _ _ (inside k hk)]
  exact pos _ (List.getElem_mem _)

theorem initial_level_pos {frame : AnalysisFrame ℝ} (cfg : Settings ℝ) {mags : List ℝ}
    (long : 2 ≤ mags.length) (pos : ∀ m ∈ mags, 0 < m) (norm : 0 < cfg.frequency.bandNorm) {b : ℕ}
    (hb : b < BandsStage.bandCount cfg) :
    0 < (ComposedStages.initial : ComposedStages ℝ).level frame cfg mags b := by
  have stale : (BandsStage.Cache.empty : BandsStage.Cache ℝ).bandCount ≠
      BandsStage.bandCount cfg := (BandsStage.bandCount_pos cfg).ne
  obtain ⟨some, inside⟩ := BandsStage.rebuildCache_bins (frame.format.sampleRate : ℝ)
    cfg.frequency long hb
  have rebuilt : BandsStage.refresh (ComposedStages.initial : ComposedStages ℝ).bands.cache
      (BandsStage.bandCount cfg) mags.length (frame.format.sampleRate : ℝ) cfg.frequency =
        BandsStage.rebuildCache (BandsStage.bandCount cfg) mags.length
          (frame.format.sampleRate : ℝ) cfg.frequency := if_pos (.inl stale)
  rw [ComposedStages.level, rebuilt]
  exact mul_pos (average_pos pos some fun k hk => (inside k hk).2) norm

theorem lowest_band_pos {s : State ℝ} (first : s.pipeline = Pipeline.composePipeline)
    {cfg : Settings ℝ} (settings : settingsOf s = cfg.clampInPlace)
    (gains : FlatGains cfg.clampInPlace) : 0 < band (shown s wholePass impulse) 0 := by
  have shape : s.pipeline.stages = (ComposedStages.initial : ComposedStages ℝ).stages := by
    rw [first, ComposedStages.composePipeline_stages]
  have count : 0 < BandsStage.bandCount cfg.clampInPlace := BandsStage.bandCount_pos _
  have norm : 0 < cfg.clampInPlace.frequency.bandNorm :=
    lt_of_lt_of_le (by norm_num) cfg.inRange_clampInPlace.frequency.bandNorm.1
  obtain ⟨mags, spectrum, long, pos⟩ := impulse_spectrum cfg.clampInPlace s.frameIndex
  have blank : (impulseFrame s.frameIndex).Blank := AnalysisFrame.blank_ofChunk _ _ _ _
  have bands := ComposedStages.srcBands_eq (c := ComposedStages.initial) cfg.clampInPlace blank
  have fft : (ComposedStages.initial : ComposedStages ℝ).fft = FftStage.initial := rfl
  have rate : 0 < (impulseFrame s.frameIndex).format.sampleRate := (by decide : 0 < 48000)
  simp only [fft, spectrum, if_pos rate] at bands
  have projected : (passOf s wholePass impulse).2 =
      (ComposedStages.initial.process (impulseFrame s.frameIndex) cfg.clampInPlace).2 := by
    rw [pass_frame shape, settings]
    rfl
  have short : (srcBands (passOf s wholePass impulse).2).length ≤ kMaxBands := by
    rw [projected, bands, List.length_map, List.length_range]
    exact BandsStage.bandCount_le _
  change 0 < band (project (passOf s wholePass impulse).2 (passOf s wholePass impulse).1.profile) 0
  rw [band_project _ _ short, projected, bands, getD_range_map _ _ count, gains 0 count, mul_one]
  exact lt_min one_pos (initial_level_pos _ long pos norm count)

/-- The first frame of a run, an impulse under a flat equalizer, shows its lowest band. -/
theorem flat_bands_reduce :
    ∃ (t : State ℝ) (os : List (Event ℝ)),
      run (step systemAndOff) AudioSystem.initial
        (framed flat impulse ++ [.iterate wholePass]) = some (t, os) ∧
      (∃ snap, .published snap ∈ os ∧ 0 < band snap 0) ∧
        ∀ snap, .published snap ∈ os → Reduces snap := by
  obtain ⟨s, t, os, h, handled, settings, pipeline⟩ := handles_framed flat impulse
  refine ⟨t, os, h, ⟨_, published_of_handles h handled, ?_⟩, published_reduces h ?_⟩
  · exact lowest_band_pos pipeline settings flat_gains
  · intro s tick chunk handled
    rw [only_framed handled]
    exact flat_gains

theorem default_gain_gt_one (k : ℕ) :
    1 < ComposedStages.gain (Settings.defaults ℝ).clampInPlace k := by
  have knobs (i : Fin 5) :
      1 < (Settings.defaults ℝ).clampInPlace.frequency.equalizerBands i := by
    have range : 1 < (FrequencyConfig.defaults ℝ).equalizerBands i ∧
        (FrequencyConfig.defaults ℝ).equalizerBands i ≤ 4.0 := by
      fin_cases i <;> constructor <;> norm_num [FrequencyConfig.defaults]
    change 1 < clamp ((FrequencyConfig.defaults ℝ).equalizerBands i) 0 4.0
    rw [clamp_of_mem (zero_le_one.trans range.1.le) range.2]
    exact range.1
  have boost : LogBoostStage.gain (Settings.defaults ℝ).clampInPlace.frequency k = 1 :=
    if_pos (.inl (by decide : BandScale.mel ≠ .log))
  have weights := EqualizerStage.weight_pos (Settings.defaults ℝ).clampInPlace.frequency
    (BandsStage.bandCount (Settings.defaults ℝ).clampInPlace) k
  have total := Finset.sum_pos (fun i (_ : i ∈ Finset.univ) => weights i) Finset.univ_nonempty
  rw [ComposedStages.gain, boost, one_mul, EqualizerStage.multiplier_eq, one_lt_div total]
  exact Finset.sum_lt_sum_of_nonempty Finset.univ_nonempty
    fun i _ => lt_mul_of_one_lt_right (weights i) (knobs i)

/-- Under the default settings every bucket of an impulse is amplified after it has been
averaged. -/
theorem impulse_not_reduced :
    ¬ ∀ (sources : List Info) (as : List (Act ℝ)) (t : State ℝ) (os : List (Event ℝ)),
      run (step sources) AudioSystem.initial as = some (t, os) →
        ∀ snap, .published snap ∈ os → Reduces snap := by
  intro always
  obtain ⟨s, t, os, h, handled, settings, pipeline⟩ :=
    handles_framed (Settings.defaults ℝ) impulse
  obtain ⟨balanced, -⟩ := (published_reduces_iff h).mp (always _ _ _ _ h) s wholePass impulse
    handled ComposedStages.initial (by rw [pipeline]; rfl)
  rw [settings] at balanced
  obtain ⟨mags, spectrum, long, pos⟩ :=
    impulse_spectrum (Settings.defaults ℝ).clampInPlace s.frameIndex
  have cancelled := balanced mags spectrum (by decide : 0 < impulse.format.sampleRate) 0 (by decide)
  have count : BandsStage.bandCount (Settings.defaults ℝ).clampInPlace = 64 := rfl
  have norm : 0 < (Settings.defaults ℝ).clampInPlace.frequency.bandNorm :=
    lt_of_lt_of_le (by norm_num)
      (Settings.defaults ℝ).inRange_clampInPlace.frequency.bandNorm.1
  refine (Finset.sum_pos (fun k hk => ?_) ?_).ne' cancelled
  · have inside := bandsIn_lt (by decide : 0 < 16) hk
    exact mul_pos (lt_min one_pos (initial_level_pos _ long pos norm inside))
      (sub_pos.mpr (default_gain_gt_one k))
  · rw [count]
    exact ⟨0, by decide⟩

end Runs

end Listeningway.Output.BandReductions
