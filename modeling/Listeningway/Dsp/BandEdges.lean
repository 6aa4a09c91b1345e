/- Listeningway/Dsp/BandEdges
   source: src/audio/dsp/stages/bands_stage.cpp; src/config/store.cpp
   digest: The edges of the bands on all three scales, and which bins a rebuilt cache lists. -/

import Listeningway.Config.Store
import Listeningway.Dsp.BandPath
import Listeningway.Lib.FoldMax
import Mathlib.Data.List.GetD
import Mathlib.Order.Interval.Set.Basic

/-!
All scales space their edges evenly on an axis of their own: edge `b` is the image of a point
between the ends of that axis, which moves up with `b`.
-/

set_option autoImplicit false
set_option relaxedAutoImplicit false

namespace Listeningway.Dsp.BandsStage

open Listeningway.Config
open Listeningway.Lib.Clamp
open Listeningway.Lib.FoldMax
open Set (Iic)

/-! ### Half-open intervals between edges -/

section Intervals

variable {e : ℕ → ℝ} {n b b' : ℕ} {f f' : ℝ}

theorem exists_enclosing (low : e 0 ≤ f) (high : f < e n) :
    ∃ b < n, e b ≤ f ∧ f < e (b + 1) := by
  induction n with
  | zero => exact absurd low high.not_ge
  | succ n ih =>
    rcases lt_or_ge f (e n) with below | above
    · obtain ⟨b, inside, enclosed⟩ := ih below
      exact ⟨b, inside.trans (Nat.lt_succ_self n), enclosed⟩
    · exact ⟨n, Nat.lt_succ_self n, above, high⟩

variable (mono : StrictMonoOn e (Iic n))

include mono

theorem lt_of_enclosed (order : b < b') (inside : b' < n) (high : f < e (b + 1))
    (low : e b' ≤ f') : f < f' := by
  have edges : e (b + 1) ≤ e b' := mono.monotoneOn (Set.mem_Iic.mpr (by omega))
    (Set.mem_Iic.mpr inside.le) order
  exact high.trans_le (edges.trans low)

theorem enclosing_unique (inside : b < n) (inside' : b' < n) (enclosed : e b ≤ f ∧ f < e (b + 1))
    (enclosed' : e b' ≤ f ∧ f < e (b' + 1)) : b = b' := by
  rcases lt_trichotomy b b' with before | same | behind
  · exact absurd (lt_of_enclosed mono before inside' enclosed.2 enclosed'.1) (lt_irrefl f)
  · exact same
  · exact absurd (lt_of_enclosed mono behind inside enclosed'.2 enclosed.1) (lt_irrefl f)

end Intervals

/-! ### The edges -/

theorem log10_lt_log10 {x y : ℝ} (positive : 0 < x) (less : x < y) :
    Cmath.log10 x < Cmath.log10 y :=
  div_lt_div_of_pos_right (Real.log_lt_log positive less) (Real.log_pos (by norm_num))

theorem pow_lt_pow {x y : ℝ} (less : x < y) : Cmath.pow (10.0 : ℝ) x < Cmath.pow 10.0 y :=
  Real.rpow_lt_rpow_of_exponent_lt (by norm_num) less

theorem pow_log10 {x : ℝ} (positive : 0 < x) : Cmath.pow (10.0 : ℝ) (Cmath.log10 x) = x := by
  have ten : (10.0 : ℝ) = 10 := by norm_num
  have base : Real.log 10 ≠ 0 := (Real.log_pos (by norm_num)).ne'
  change (10.0 : ℝ) ^ (Real.log x / Real.log 10) = x
  rw [ten, Real.rpow_def_of_pos (by norm_num), mul_div_cancel₀ _ base, Real.exp_log positive]

theorem hzFromMel_melFromHz {hz : ℝ} (positive : 0 < hz) : hzFromMel (melFromHz hz) = hz := by
  have shifted : (0 : ℝ) < 1 + hz / 700.0 := by positivity
  have mel : (2595.0 : ℝ) ≠ 0 := by norm_num
  rw [hzFromMel, melFromHz, mul_div_cancel_left₀ _ mel, pow_log10 shifted]
  norm_num

theorem melFromHz_lt {x y : ℝ} (positive : 0 < x) (less : x < y) : melFromHz x < melFromHz y := by
  apply mul_lt_mul_of_pos_left _ (by norm_num)
  apply log10_lt_log10 (by positivity)
  have scaled : x / 700.0 < y / 700.0 := div_lt_div_of_pos_right less (by norm_num)
  linarith

theorem hzFromMel_lt {x y : ℝ} (less : x < y) : hzFromMel x < hzFromMel y := by
  apply mul_lt_mul_of_pos_left _ (by norm_num)
  have scaled : x / 2595.0 < y / 2595.0 := div_lt_div_of_pos_right less (by norm_num)
  linarith [pow_lt_pow scaled]

section Edges

variable {lo hi : ℝ} {n : ℕ} (some : 0 < n)

include some

theorem between_strictMono (less : lo < hi) :
    StrictMono fun b : ℕ => lo + (b : ℝ) / n * (hi - lo) := by
  have count : (0 : ℝ) < n := by exact_mod_cast some
  intro b b' order
  have step : (b : ℝ) / n < (b' : ℝ) / n :=
    div_lt_div_of_pos_right (by exact_mod_cast order) count
  have scaled := mul_lt_mul_of_pos_right step (sub_pos.mpr less)
  dsimp only
  linarith

theorem between_last : lo + (n : ℝ) / n * (hi - lo) = hi := by
  have count : (n : ℝ) ≠ 0 := by exact_mod_cast some.ne'
  rw [div_self count]
  ring

theorem edge_strictMono (scale : BandScale) (positive : 0 < lo) (less : lo < hi) :
    StrictMono (edge scale lo hi n) := by
  cases scale with
  | linear =>
    intro b b' order
    have straight := between_strictMono some less order
    have form : ∀ b : ℕ, edge .linear lo hi n b = lo + (b : ℝ) / n * (hi - lo) := by
      intro b
      change lo + (b : ℝ) * ((hi - lo) / n) = _
      ring
    rw [form, form]
    exact straight
  | log =>
    exact fun b b' order =>
      pow_lt_pow (between_strictMono some (log10_lt_log10 positive less) order)
  | mel =>
    exact fun b b' order =>
      hzFromMel_lt (between_strictMono some (melFromHz_lt positive less) order)

theorem edge_last (scale : BandScale) (positive : 0 < lo) (less : lo < hi) :
    edge scale lo hi n n = hi := by
  have higher : 0 < hi := positive.trans less
  cases scale with
  | linear =>
    have count : (n : ℝ) ≠ 0 := by exact_mod_cast some.ne'
    change lo + (n : ℝ) * ((hi - lo) / n) = hi
    rw [mul_div_cancel₀ _ count]
    ring
  | log =>
    dsimp only [edge]
    rw [between_last some, pow_log10 higher]
  | mel =>
    dsimp only [edge]
    rw [between_last some, hzFromMel_melFromHz higher]

omit some in
theorem edge_zero (scale : BandScale) (positive : 0 < lo) : edge scale lo hi n 0 = lo := by
  cases scale with
  | linear =>
    change lo + ((0 : ℕ) : ℝ) * _ = lo
    rw [Nat.cast_zero, zero_mul, add_zero]
  | log =>
    dsimp only [edge]
    rw [Nat.cast_zero, zero_div, zero_mul, add_zero, pow_log10 positive]
  | mel =>
    dsimp only [edge]
    rw [Nat.cast_zero, zero_div, zero_mul, add_zero, hzFromMel_melFromHz positive]

end Edges

/-! ### The cache -/

namespace Cache

variable (c : Cache ℝ)

/-- Edge `b` of the cache. -/
def edgeAt (b : ℕ) : ℝ := c.edges.getD b 0

/-- The bins of band `b`. -/
def binsOf (b : ℕ) : List ℕ := c.bins.getD b []

/-- The frequency of a bin. -/
noncomputable def frequency (k : ℕ) : ℝ := k * (c.sampleRate * 0.5 / c.fftHalf)

/-- The frequency of bin `k` lies between the edges of band `b`. -/
def Encloses (b k : ℕ) : Prop := c.edgeAt b ≤ c.frequency k ∧ c.frequency k < c.edgeAt (b + 1)

/-- Band `b` lists bin `k` by frequency. -/
def ByFrequency (b k : ℕ) : Prop := k ∈ c.binsOf b ∧ c.Encloses b k

/-- How far bin `k` is from the geometric centre of band `b`. -/
noncomputable def distance (b k : ℕ) : ℝ :=
  |c.frequency k - Real.sqrt (c.edgeAt b * c.edgeAt (b + 1))|

/-- Every bin between the outer edges goes to the band that encloses it, and bands that enclose
none get the bin next to their centre. -/
structure Partitions : Prop where
  size : c.edges.length = c.bandCount + 1 ∧ c.bins.length = c.bandCount
  edges : StrictMonoOn c.edgeAt (Iic c.bandCount)
  placed : ∀ k, 1 ≤ k → k < c.fftHalf → c.edgeAt 0 ≤ c.frequency k →
    c.frequency k < c.edgeAt c.bandCount → ∃! b, b < c.bandCount ∧ c.ByFrequency b k
  enclosed : ∀ b < c.bandCount, ∀ k, 1 ≤ k → k < c.fftHalf → c.Encloses b k → k ∈ c.binsOf b
  ordered : ∀ b b' k k', b < b' → b' < c.bandCount → c.ByFrequency b k → c.ByFrequency b' k' →
    k < k'
  filled : ∀ b < c.bandCount,
    (c.binsOf b ≠ [] ∧ ∀ k ∈ c.binsOf b, c.Encloses b k) ∨
      (∀ k, 1 ≤ k → k < c.fftHalf → ¬ c.Encloses b k) ∧
        ∃ k, c.binsOf b = [k] ∧ ∀ k', 1 ≤ k' → k' < c.fftHalf → c.distance b k ≤ c.distance b k'
  inside : ∀ b < c.bandCount, ∀ k ∈ c.binsOf b, 1 ≤ k ∧ k < c.fftHalf

end Cache

theorem bandOf_eq_some_iff {edges : List ℝ} {n b : ℕ} {f : ℝ}
    (mono : StrictMonoOn (fun b => edges.getD b 0) (Iic n)) (inside : b < n) :
    bandOf edges n f = some b ↔ edges.getD b 0 ≤ f ∧ f < edges.getD (b + 1) 0 := by
  have front : edges.headD 0 = edges.getD 0 0 := by cases edges <;> rfl
  constructor
  · intro found
    unfold bandOf at found
    split_ifs at found
    have passes := List.find?_some found
    exact of_decide_eq_true passes
  · intro enclosed
    have low : ¬ f < edges.headD 0 := by
      rw [front]
      apply not_lt.mpr
      refine le_trans ?_ enclosed.1
      exact mono.monotoneOn (Set.mem_Iic.mpr (Nat.zero_le n)) (Set.mem_Iic.mpr inside.le)
        (Nat.zero_le b)
    unfold bandOf
    rw [if_neg low]
    have reached : ((List.range n).find? fun b =>
        decide (edges.getD b 0 ≤ f ∧ f < edges.getD (b + 1) 0)).isSome := by
      rw [List.find?_isSome]
      exact ⟨b, List.mem_range.mpr inside, decide_eq_true enclosed⟩
    obtain ⟨b', found⟩ := Option.isSome_iff_exists.mp reached
    have inside' := List.mem_range.mp (List.mem_of_find?_eq_some found)
    have passes := List.find?_some found
    have enclosed' := of_decide_eq_true passes
    rw [found, enclosing_unique mono inside inside' enclosed enclosed']

theorem closestBin_least {center binWidth : ℝ} {fftHalf : ℕ} (wide : 0 < binWidth)
    (low : center ≤ floatMax) {k : ℕ} (first : 1 ≤ k) (inside : k < fftHalf) :
    |(closestBin center binWidth fftHalf : ℝ) * binWidth - center| ≤
      |(k : ℝ) * binWidth - center| := by
  have listed : k ∈ List.range' 1 (fftHalf - 1) := List.mem_range'_1.mpr ⟨first, by omega⟩
  obtain ⟨start | ⟨-, value⟩, -, least⟩ := foldl_least
    (fun k : ℕ => |(k : ℝ) * binWidth - center|) (List.range' 1 (fftHalf - 1)) (floatMax, 1)
  · -- the first bin already lies above the centre, all others lie behind it
    have found : closestBin center binWidth fftHalf = 1 := congrArg Prod.snd start
    have far : floatMax ≤ |((1 : ℕ) : ℝ) * binWidth - center| := by
      have bound := least 1 (List.mem_range'_1.mpr ⟨le_rfl, by omega⟩)
      rwa [start] at bound
    have one : ((1 : ℕ) : ℝ) * binWidth = binWidth := by rw [Nat.cast_one, one_mul]
    have beyond : center ≤ binWidth := by
      by_contra short
      rw [one, abs_of_neg (by linarith)] at far
      linarith
    have behind : binWidth ≤ (k : ℝ) * binWidth :=
      le_mul_of_one_le_left wide.le (by exact_mod_cast first)
    rw [found, one, abs_of_nonneg (by linarith), abs_of_nonneg (by linarith)]
    linarith
  · exact value.ge.trans (least k listed)

section Rebuilt

variable {bandCount fftHalf : ℕ} {sampleRate : ℝ} (fc : FrequencyConfig ℝ)

theorem limits_mem (fast : 22 ≤ sampleRate) :
    let lo := clamp fc.minFreq 10.0 (sampleRate * 0.5 - 1)
    let hi := clamp fc.maxFreq (lo + 1) (sampleRate * 0.5)
    0 < lo ∧ lo < hi := by
  have low : (10.0 : ℝ) ≤ clamp fc.minFreq 10.0 (sampleRate * 0.5 - 1) :=
    le_clamp _ (by linarith)
  have high : clamp fc.minFreq 10.0 (sampleRate * 0.5 - 1) ≤ sampleRate * 0.5 - 1 :=
    clamp_le _ (by linarith)
  have apart : clamp fc.minFreq 10.0 (sampleRate * 0.5 - 1) + 1 ≤
      clamp fc.maxFreq (clamp fc.minFreq 10.0 (sampleRate * 0.5 - 1) + 1) (sampleRate * 0.5) :=
    le_clamp _ (by linarith)
  constructor <;> linarith

theorem edgeAt_rebuildCache {b : ℕ} (inside : b ≤ bandCount) :
    (rebuildCache bandCount fftHalf sampleRate fc).edgeAt b =
      edge fc.bandScale (rebuildCache bandCount fftHalf sampleRate fc).minFreq
        (rebuildCache bandCount fftHalf sampleRate fc).maxFreq bandCount b := by
  have listed : b < ((List.range (bandCount + 1)).map
      (edge fc.bandScale (rebuildCache bandCount fftHalf sampleRate fc).minFreq
        (rebuildCache bandCount fftHalf sampleRate fc).maxFreq bandCount)).length := by
    rw [List.length_map, List.length_range]
    omega
  refine (List.getD_eq_getElem _ _ listed).trans ?_
  rw [List.getElem_map, List.getElem_range]

theorem edgeAt_strictMono (bands : 0 < bandCount) (fast : 22 ≤ sampleRate) :
    StrictMonoOn (rebuildCache bandCount fftHalf sampleRate fc).edgeAt (Iic bandCount) := by
  obtain ⟨positive, less⟩ := limits_mem fc fast
  intro b inside b' inside' order
  rw [edgeAt_rebuildCache fc inside, edgeAt_rebuildCache fc inside']
  exact edge_strictMono bands fc.bandScale positive less order

theorem binsOf_rebuildCache {b : ℕ} (inside : b < bandCount) :
    (rebuildCache bandCount fftHalf sampleRate fc).binsOf b =
      let c := rebuildCache bandCount fftHalf sampleRate fc
      let listed := (List.range' 1 (fftHalf - 1)).filter fun k : ℕ =>
        decide (bandOf c.edges bandCount (c.frequency k) = some b)
      if listed = [] then
        [closestBin (Real.sqrt (c.edgeAt b * c.edgeAt (b + 1)))
          (sampleRate * 0.5 / (fftHalf : ℝ)) fftHalf]
      else listed := by
  rw [Cache.binsOf, rebuildCache]
  dsimp only
  rw [List.getD_eq_getElem _ _ (by
    rw [List.length_map, List.length_range]
    exact inside), List.getElem_map, List.getElem_range]
  rfl

section Sorted

variable (bands : 0 < bandCount) (fast : 22 ≤ sampleRate)

include bands fast

theorem mem_listed_iff {b k : ℕ} (inside : b < bandCount) :
    (k ∈ (List.range' 1 (fftHalf - 1)).filter fun k : ℕ =>
        decide (bandOf (rebuildCache bandCount fftHalf sampleRate fc).edges bandCount
          ((rebuildCache bandCount fftHalf sampleRate fc).frequency k) = some b)) ↔
      (1 ≤ k ∧ k < fftHalf) ∧ (rebuildCache bandCount fftHalf sampleRate fc).Encloses b k := by
  have mono : StrictMonoOn (rebuildCache bandCount fftHalf sampleRate fc).edgeAt (Iic bandCount) :=
    edgeAt_strictMono fc bands fast
  have range : 1 ≤ k ∧ k < 1 + (fftHalf - 1) ↔ 1 ≤ k ∧ k < fftHalf := by omega
  rw [List.mem_filter, decide_eq_true_iff, bandOf_eq_some_iff mono inside, List.mem_range'_1, range]
  rfl

theorem center_le {b : ℕ} (inside : b < bandCount) :
    Real.sqrt ((rebuildCache bandCount fftHalf sampleRate fc).edgeAt b *
        (rebuildCache bandCount fftHalf sampleRate fc).edgeAt (b + 1)) ≤
      (rebuildCache bandCount fftHalf sampleRate fc).maxFreq := by
  obtain ⟨positive, less⟩ := limits_mem fc fast
  have mono : MonotoneOn (rebuildCache bandCount fftHalf sampleRate fc).edgeAt (Iic bandCount) :=
    (edgeAt_strictMono fc bands fast).monotoneOn
  have top : (rebuildCache bandCount fftHalf sampleRate fc).edgeAt bandCount =
      (rebuildCache bandCount fftHalf sampleRate fc).maxFreq :=
    (edgeAt_rebuildCache fc le_rfl).trans (edge_last bands fc.bandScale positive less)
  have bottom : (rebuildCache bandCount fftHalf sampleRate fc).edgeAt 0 =
      (rebuildCache bandCount fftHalf sampleRate fc).minFreq :=
    (edgeAt_rebuildCache fc (Nat.zero_le _)).trans (edge_zero fc.bandScale positive)
  have first := mono (Set.mem_Iic.mpr (Nat.zero_le bandCount)) (Set.mem_Iic.mpr inside.le)
    (Nat.zero_le b)
  have below := mono (Set.mem_Iic.mpr inside.le) (Set.mem_Iic.mpr le_rfl) inside.le
  have above := mono (Set.mem_Iic.mpr (Nat.succ_le_of_lt inside)) (Set.mem_Iic.mpr le_rfl)
    (Nat.succ_le_of_lt inside)
  rw [top] at below above
  rw [bottom] at first
  have lowest : 0 < (rebuildCache bandCount fftHalf sampleRate fc).minFreq := positive
  have highest : 0 ≤ (rebuildCache bandCount fftHalf sampleRate fc).maxFreq :=
    (lowest.le.trans first).trans below
  rw [Real.sqrt_le_left highest, sq]
  exact mul_le_mul below above (lowest.le.trans (first.trans (mono
    (Set.mem_Iic.mpr inside.le) (Set.mem_Iic.mpr (Nat.succ_le_of_lt inside)) (Nat.le_succ b))))
    highest

theorem mem_binsOf {b k : ℕ} (inside : b < bandCount) (first : 1 ≤ k) (last : k < fftHalf)
    (enclosed : (rebuildCache bandCount fftHalf sampleRate fc).Encloses b k) :
    k ∈ (rebuildCache bandCount fftHalf sampleRate fc).binsOf b := by
  have held := (mem_listed_iff fc bands fast inside).mpr ⟨⟨first, last⟩, enclosed⟩
  rw [binsOf_rebuildCache fc inside]
  dsimp only
  rw [if_neg (List.ne_nil_of_mem held)]
  exact held

theorem binsOf_cases (bins : 2 ≤ fftHalf)
    (finite : (rebuildCache bandCount fftHalf sampleRate fc).maxFreq ≤ floatMax) {b : ℕ}
    (inside : b < bandCount) :
    ((rebuildCache bandCount fftHalf sampleRate fc).binsOf b ≠ [] ∧
      ∀ k ∈ (rebuildCache bandCount fftHalf sampleRate fc).binsOf b,
        (1 ≤ k ∧ k < fftHalf) ∧ (rebuildCache bandCount fftHalf sampleRate fc).Encloses b k) ∨
    (∀ k, 1 ≤ k → k < fftHalf →
        ¬ (rebuildCache bandCount fftHalf sampleRate fc).Encloses b k) ∧
      ∃ k, (rebuildCache bandCount fftHalf sampleRate fc).binsOf b = [k] ∧
        (1 ≤ k ∧ k < fftHalf) ∧ ∀ k', 1 ≤ k' → k' < fftHalf →
          (rebuildCache bandCount fftHalf sampleRate fc).distance b k ≤
            (rebuildCache bandCount fftHalf sampleRate fc).distance b k' := by
  have wide : 0 < sampleRate * 0.5 / (fftHalf : ℝ) :=
    div_pos (by linarith) (by exact_mod_cast (by omega : 0 < fftHalf))
  rw [binsOf_rebuildCache fc inside]
  dsimp only
  split_ifs with narrow
  · refine .inr ⟨fun k first last enclosed => ?_, _, rfl, closestBin_mem _ _ bins,
      fun k first last => ?_⟩
    · have held := (mem_listed_iff fc bands fast inside).mpr ⟨⟨first, last⟩, enclosed⟩
      rw [narrow] at held
      exact List.not_mem_nil held
    · exact closestBin_least wide ((center_le fc bands fast inside).trans finite) first last
  · exact .inl ⟨narrow, fun k held => (mem_listed_iff fc bands fast inside).mp held⟩

theorem partitions_of_finite (bins : 2 ≤ fftHalf)
    (finite : (rebuildCache bandCount fftHalf sampleRate fc).maxFreq ≤ floatMax) :
    (rebuildCache bandCount fftHalf sampleRate fc).Partitions := by
  have mono : StrictMonoOn (rebuildCache bandCount fftHalf sampleRate fc).edgeAt (Iic bandCount) :=
    edgeAt_strictMono fc bands fast
  refine ⟨⟨?_, ?_⟩, mono, ?_, ?_, ?_, ?_, ?_⟩
  · exact (List.length_map _).trans List.length_range
  · exact (List.length_map _).trans List.length_range
  · intro k first last low high
    obtain ⟨b, inside, enclosed⟩ := exists_enclosing low high
    refine ⟨b, ⟨inside, mem_binsOf fc bands fast inside first last enclosed, enclosed⟩, ?_⟩
    rintro b' ⟨inside', -, enclosed'⟩
    exact enclosing_unique mono inside' inside enclosed' enclosed
  · intro b inside k first last enclosed
    exact mem_binsOf fc bands fast inside first last enclosed
  · intro b b' k k' order inside' here there
    have less := lt_of_enclosed mono order inside' here.2.2 there.2.1
    have width : 0 ≤ sampleRate * 0.5 / (fftHalf : ℝ) :=
      div_nonneg (by linarith) (Nat.cast_nonneg _)
    have smaller : (k : ℝ) < k' := lt_of_mul_lt_mul_right less width
    exact_mod_cast smaller
  · intro b inside
    rcases binsOf_cases fc bands fast bins finite inside with
      ⟨filled, enclosed⟩ | ⟨none, k, single, -, nearest⟩
    · exact .inl ⟨filled, fun k held => (enclosed k held).2⟩
    · exact .inr ⟨none, k, single, nearest⟩
  · intro b inside k held
    rcases binsOf_cases fc bands fast bins finite inside with
      ⟨-, enclosed⟩ | ⟨-, k', single, range, -⟩
    · exact (enclosed k held).1
    · rw [single] at held
      obtain rfl := List.mem_singleton.mp held
      exact range

end Sorted

/-- Whatever the settings, the rebuilt cache sorts the bins into bands between the two clamped
frequencies. -/
theorem rebuildCache_partitions (bands : 0 < bandCount) (bins : 2 ≤ fftHalf)
    (fast : 22 ≤ sampleRate) :
    let c := rebuildCache bandCount fftHalf sampleRate fc.clampInPlace
    c.Partitions ∧
      c.edgeAt 0 = clamp fc.clampInPlace.minFreq 10.0 (sampleRate * 0.5 - 1) ∧
      c.edgeAt bandCount =
        clamp fc.clampInPlace.maxFreq (c.edgeAt 0 + 1) (sampleRate * 0.5) := by
  have clamped := FrequencyConfig.inRange_clampInPlace fc
  obtain ⟨positive, less⟩ := limits_mem fc.clampInPlace fast
  have huge : (30000 : ℝ) ≤ floatMax := by norm_num [floatMax]
  have low : clamp fc.clampInPlace.minFreq 10.0 (sampleRate * 0.5 - 1) ≤ 500.0 :=
    (clamp_le_iff (by norm_num)).mpr (.inr clamped.minFreq.2)
  have finite : (rebuildCache bandCount fftHalf sampleRate fc.clampInPlace).maxFreq ≤ floatMax :=
    (clamp_le_iff (by linarith)).mpr (.inr (by linarith [clamped.maxFreq.2]))
  have bottom : (rebuildCache bandCount fftHalf sampleRate fc.clampInPlace).edgeAt 0 =
      clamp fc.clampInPlace.minFreq 10.0 (sampleRate * 0.5 - 1) :=
    (edgeAt_rebuildCache fc.clampInPlace (Nat.zero_le _)).trans
      (edge_zero fc.clampInPlace.bandScale positive)
  refine ⟨partitions_of_finite fc.clampInPlace bands fast bins finite, bottom, ?_⟩
  rw [bottom]
  exact (edgeAt_rebuildCache fc.clampInPlace le_rfl).trans
    (edge_last bands fc.clampInPlace.bandScale positive less)

end Rebuilt

/-- The bands of the defaults at 48 kHz. -/
theorem default_bands_partition :
    (rebuildCache 64 1024 (48000 : ℝ) (FrequencyConfig.defaults ℝ).clampInPlace).Partitions :=
  (rebuildCache_partitions (FrequencyConfig.defaults ℝ) (by decide) (by decide) (by norm_num)).1

end Listeningway.Dsp.BandsStage
