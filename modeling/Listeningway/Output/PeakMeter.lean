/- Listeningway/Output/PeakMeter
   source: src/output/openrgb_patterns/linear_patterns.cpp, pattern_common.h;
     docs/adr/0014-openrgb-pattern-matrix.md
   digest: The peak of the VU meter over a run, and when its dot is on the strip. -/

import Listeningway.Output.BrightnessCap

set_option autoImplicit false
set_option relaxedAutoImplicit false

namespace Listeningway.Output.Patterns.Linear

open Listeningway.Dsp
open Listeningway.Lib.SpanWrites
open Listeningway.Snapshot

/-! ### Calls -/

/-- The arguments of a call on a strip with LEDs, some time after the call before. -/
structure Call where
  snap : AudioSnapshot ℝ
  out : List ColorRgb
  brightness : ℝ
  dtSec : ℝ
  leds : 0 < out.length
  forward : 0 ≤ dtSec

noncomputable section

def render (st : PatternState ℝ) (call : Call) : Option (List ColorRgb × PatternState ℝ) :=
  renderVuMeter call.snap call.out st call.brightness call.dtSec

/-- The state before call `k`. -/
def before (calls : ℕ → Call) : ℕ → Option (PatternState ℝ)
  | 0 => some .initial
  | k + 1 => (before calls k).bind fun st => (render st (calls k)).map Prod.snd

/-- The colour of LED `i` before it is dimmed. -/
def Call.colour (call : Call) (st : PatternState ℝ) (i : ℕ) : ColorRgb :=
  vuColour (vuLevel call.snap) st.vuPeakPos call.out.length i

/-- The strip after a call that leaves `st`. -/
def Call.strip (call : Call) (st : PatternState ℝ) : List ColorRgb :=
  (List.range call.out.length).map fun i => applyBrightness (call.colour st i) call.brightness

theorem render_eq (st : PatternState ℝ) (call : Call) :
    render st call =
      some (call.strip (vuPeak call.snap st call.dtSec), vuPeak call.snap st call.dtSec) := by
  have loop := foldlM_store_range
    (fun i => applyBrightness (call.colour (vuPeak call.snap st call.dtSec) i) call.brightness)
    (rfl : call.out.length = call.out.length)
  rw [render, renderVuMeter, if_neg call.leds.ne']
  exact congrArg (Option.map _) loop

theorem before_succ {calls : ℕ → Call} {k : ℕ} {st : PatternState ℝ}
    (now : before calls k = some st) :
    before calls (k + 1) = some (vuPeak (calls k).snap st (calls k).dtSec) := by
  rw [before, now, Option.bind_some, render_eq]
  rfl

/-! ### The level -/

theorem noiseGate_bounds {x : ℝ} (nonneg : 0 ≤ x) :
    0 ≤ noiseGate x 0.02 0.04 ∧ noiseGate x 0.02 0.04 ≤ x := by
  unfold noiseGate
  split_ifs with silent loud
  · exact ⟨le_rfl, nonneg⟩
  · exact ⟨nonneg, le_rfl⟩
  · have share : 0 ≤ (x - 0.02) / 0.04 ∧ (x - 0.02) / 0.04 ≤ 1 := by
      constructor
      · apply div_nonneg <;> linarith
      · rw [div_le_one (by norm_num)]
        linarith
    exact ⟨mul_nonneg nonneg share.1, mul_le_of_le_one_right nonneg share.2⟩

theorem vuLevel_bounds (snap : AudioSnapshot ℝ) : 0 ≤ vuLevel snap ∧ vuLevel snap ≤ 1 := by
  have inside := clamp01_mem (snap.volumeNorm * 0.40)
  have gate := noiseGate_bounds inside.1
  exact ⟨gate.1, gate.2.trans inside.2⟩

theorem vuLevel_lt_one_iff (snap : AudioSnapshot ℝ) :
    vuLevel snap < 1 ↔ snap.volumeNorm * 0.40 < 1 := by
  have gate := noiseGate_bounds (clamp01_mem (snap.volumeNorm * 0.40)).1
  constructor
  · intro below
    by_contra full
    have top : clamp01 (snap.volumeNorm * 0.40) = 1 := by
      unfold clamp01
      split_ifs <;> linarith
    rw [vuLevel, top, noiseGate, if_neg (by norm_num), if_pos (by norm_num)] at below
    exact lt_irrefl 1 below
  · intro below
    refine gate.2.trans_lt ?_
    unfold clamp01
    split_ifs <;> linarith

/-! ### The peak -/

theorem vuPeakPos_vuPeak (snap : AudioSnapshot ℝ) (st : PatternState ℝ) (dtSec : ℝ) :
    (vuPeak snap st dtSec).vuPeakPos =
      if st.vuPeakPos < vuLevel snap then vuLevel snap
      else if 0 < st.vuPeakDecaySeconds then st.vuPeakPos
      else max (vuLevel snap) (st.vuPeakPos - dtSec * 0.6) := by
  unfold vuPeak
  dsimp only
  split_ifs <;> rfl

/-- What a call from `st` that leaves `st'` does to the peak. -/
structure Kept (call : Call) (st st' : PatternState ℝ) : Prop where
  level_nonneg : 0 ≤ vuLevel call.snap
  level_le : vuLevel call.snap ≤ st'.vuPeakPos
  le_one : st'.vuPeakPos ≤ 1
  held : 0 < st.vuPeakDecaySeconds → st.vuPeakPos ≤ st'.vuPeakPos
  falls : st.vuPeakPos - 0.6 * call.dtSec ≤ st'.vuPeakPos

theorem kept_vuPeak (call : Call) {st : PatternState ℝ} (top : st.vuPeakPos ≤ 1) :
    Kept call st (vuPeak call.snap st call.dtSec) := by
  have level := vuLevel_bounds call.snap
  have forward := call.forward
  constructor
  · exact level.1
  · rw [vuPeakPos_vuPeak]
    split_ifs with attack hold
    · exact le_rfl
    · exact not_lt.mp attack
    · exact le_max_left _ _
  · rw [vuPeakPos_vuPeak]
    split_ifs with attack hold
    · exact level.2
    · exact top
    · exact max_le level.2 (by linarith)
  · intro running
    rw [vuPeakPos_vuPeak, if_pos running]
    split_ifs with attack
    · exact attack.le
    · exact le_rfl
  · rw [vuPeakPos_vuPeak]
    split_ifs with attack hold
    · linarith
    · linarith
    · exact le_max_of_le_right (by linarith)

theorem vuPeak_lt_one {snap : AudioSnapshot ℝ} {st : PatternState ℝ} {dtSec : ℝ}
    (forward : 0 ≤ dtSec) (level : vuLevel snap < 1) (top : st.vuPeakPos < 1) :
    (vuPeak snap st dtSec).vuPeakPos < 1 := by
  rw [vuPeakPos_vuPeak]
  split_ifs
  · exact level
  · exact top
  · exact max_lt level (by linarith)

/-! ### The dot -/

theorem roundAway_sub_half {x : ℝ} (pos : 0 < x) : roundAway (x - 0.5) = ⌊x⌋ := by
  unfold roundAway
  split_ifs with high
  · rw [sub_add_cancel]
  · have low : x < 0.5 := by linarith
    have up : ⌈x - 0.5 - 0.5⌉ = 0 := by
      rw [Int.ceil_eq_iff]
      norm_num
      constructor <;> linarith
    have down : ⌊x⌋ = 0 := by
      rw [Int.floor_eq_iff]
      norm_num
      constructor <;> linarith
    rw [up, down]

theorem blue_hsvToRgb {h : ℝ} (low : 0 ≤ h) (high : h * 6.0 < 2.0) :
    (hsvToRgb h 1.0 1.0).b = 0 := by
  have turn : floorPart h = 0 := by
    have none : ⌊h⌋ = 0 := Int.floor_eq_zero_iff.mpr ⟨low, by linarith⟩
    rw [floorPart, none, Int.cast_zero]
  have sector : ⌊h * 6.0⌋ = 0 ∨ ⌊h * 6.0⌋ = 1 := by
    have first : 0 ≤ ⌊h * 6.0⌋ := Int.floor_nonneg.mpr (by linarith)
    have last : ⌊h * 6.0⌋ < 2 := Int.floor_lt.mpr (by norm_num at high ⊢; exact high)
    omega
  have full : clamp01 (1.0 : ℝ) = 1 := by
    unfold clamp01
    norm_num
  have dark : toByte ((1 : ℝ) * (1 - 1)) = 0 := by
    unfold toByte
    norm_num
  unfold hsvToRgb
  dsimp only
  rw [turn, sub_zero, full]
  rcases sector with green | yellow
  · rw [green]
    exact dark
  · rw [yellow]
    exact dark

theorem blue_fill (t : ℝ) :
    (hsvToRgb (if t < 0.6 then 0.33 else if t < 0.85 then 0.16 else 0 : ℝ) 1.0 1.0).b = 0 := by
  apply blue_hsvToRgb
  · split_ifs <;> norm_num
  · split_ifs <;> norm_num

theorem vuColour_eq_white_iff (v : ℝ) {peakPos : ℝ} {n : ℕ} (pos : 0 < peakPos) (leds : 0 < n)
    (i : ℕ) : vuColour v peakPos n i = .white ↔ (i : ℤ) = ⌊peakPos * n⌋ ∧ i < n := by
  have place : roundAway (peakPos * n - 0.5) = ⌊peakPos * n⌋ :=
    roundAway_sub_half (mul_pos pos (Nat.cast_pos.mpr leds))
  unfold vuColour
  dsimp only
  rw [place]
  constructor
  · intro white
    by_contra other
    rw [if_neg fun dot => other ⟨dot.1, by omega⟩] at white
    have blue : ColorRgb.white.b = 0 := by
      rw [← white]
      by_cases filled : (i : ℝ) < v * n
      · rw [if_pos filled]
        exact blue_fill _
      · rw [if_neg filled]
    exact absurd blue (by decide)
  · rintro ⟨here, inside⟩
    exact if_pos ⟨here, by omega, by omega⟩

/-- One LED of the strip is the white dot, and no filled LED is above it. -/
def ShowsPeak (call : Call) (st : PatternState ℝ) : Prop :=
  ∃ dot < call.out.length, (∀ i < call.out.length, call.colour st i = .white ↔ i = dot) ∧
    ∀ i < call.out.length, (i : ℝ) < vuLevel call.snap * call.out.length → i ≤ dot

theorem showsPeak_iff {call : Call} {st : PatternState ℝ} (pos : 0 < st.vuPeakPos)
    (top : st.vuPeakPos ≤ 1) (level : vuLevel call.snap ≤ st.vuPeakPos) :
    ShowsPeak call st ↔ st.vuPeakPos < 1 := by
  have leds : (0 : ℝ) < call.out.length := Nat.cast_pos.mpr call.leds
  constructor
  · rintro ⟨dot, inside, white, -⟩
    obtain ⟨place, -⟩ := (vuColour_eq_white_iff _ pos call.leds dot).mp ((white dot inside).mpr rfl)
    refine lt_of_le_of_ne top fun full => ?_
    rw [full, one_mul, Int.floor_natCast] at place
    omega
  · intro below
    have scaled : st.vuPeakPos * call.out.length < call.out.length :=
      mul_lt_of_lt_one_left leds below
    have nonneg : 0 ≤ ⌊st.vuPeakPos * call.out.length⌋ := Int.floor_nonneg.mpr (by positivity)
    have under : ⌊st.vuPeakPos * call.out.length⌋ < call.out.length := Int.floor_lt.mpr scaled
    refine ⟨⌊st.vuPeakPos * call.out.length⌋.toNat, by omega, fun i inside => ?_, ?_⟩
    · rw [Call.colour, vuColour_eq_white_iff _ pos call.leds]
      omega
    · intro i inside filled
      have low : (i : ℝ) ≤ st.vuPeakPos * call.out.length :=
        filled.le.trans (mul_le_mul_of_nonneg_right level leds.le)
      have floor : (i : ℤ) ≤ ⌊st.vuPeakPos * call.out.length⌋ := Int.le_floor.mpr low
      omega

/-! ### Runs -/

theorem before_bounds (calls : ℕ → Call) (k : ℕ) :
    ∃ st, before calls k = some st ∧ 0 ≤ st.vuPeakPos ∧ st.vuPeakPos ≤ 1 := by
  induction k with
  | zero => exact ⟨.initial, rfl, le_rfl, zero_le_one⟩
  | succ k ih =>
    obtain ⟨st, now, -, top⟩ := ih
    have kept := kept_vuPeak (calls k) top
    exact ⟨_, before_succ now, kept.level_nonneg.trans kept.level_le, kept.le_one⟩

theorem before_lt_one {calls : ℕ → Call} {n : ℕ}
    (below : ∀ k < n, vuLevel (calls k).snap < 1) {st : PatternState ℝ}
    (now : before calls n = some st) : st.vuPeakPos < 1 := by
  induction n generalizing st with
  | zero =>
    obtain rfl := Option.some.inj now
    exact zero_lt_one
  | succ n ih =>
    obtain ⟨st', ran, -, -⟩ := before_bounds calls n
    rw [before_succ ran] at now
    obtain rfl := Option.some.inj now
    have earlier := ih (fun k inside => below k (by omega)) ran
    exact vuPeak_lt_one (calls n).forward (below n (by omega)) earlier

/-- The peak is kept as it should be in every run. It is on the strip whenever it is above 0
exactly in the runs in which the volume never reaches the end of the scale. -/
theorem peak_shown_iff (calls : ℕ → Call) (n : ℕ) :
    (∀ k < n, ∃ st st', before calls k = some st ∧
        render st (calls k) = some ((calls k).strip st', st') ∧ Kept (calls k) st st') ∧
      ((∀ k < n, ∀ st', before calls (k + 1) = some st' → 0 < st'.vuPeakPos →
          ShowsPeak (calls k) st') ↔
        ∀ k < n, (calls k).snap.volumeNorm * 0.40 < 1) := by
  have after (k : ℕ) : ∃ st', before calls (k + 1) = some st' ∧ st'.vuPeakPos ≤ 1 ∧
      vuLevel (calls k).snap ≤ st'.vuPeakPos := by
    obtain ⟨st, now, -, top⟩ := before_bounds calls k
    have kept := kept_vuPeak (calls k) top
    exact ⟨_, before_succ now, kept.le_one, kept.level_le⟩
  refine ⟨fun k _ => ?_, fun shown k inside => ?_, fun below k inside st' now pos => ?_⟩
  · obtain ⟨st, now, -, top⟩ := before_bounds calls k
    exact ⟨st, _, now, render_eq st (calls k), kept_vuPeak (calls k) top⟩
  · rw [← vuLevel_lt_one_iff]
    obtain ⟨st', now, top, level⟩ := after k
    rcases (vuLevel_bounds (calls k).snap).1.eq_or_lt with silent | loud
    · rw [← silent]
      exact zero_lt_one
    · have pos := loud.trans_le level
      have low := (showsPeak_iff pos top level).mp (shown k inside st' now pos)
      exact level.trans_lt low
  · obtain ⟨st, same, top, level⟩ := after k
    obtain rfl := Option.some.inj (now.symm.trans same)
    refine (showsPeak_iff pos top level).mpr (before_lt_one (fun j hj => ?_) now)
    exact (vuLevel_lt_one_iff _).mpr (below j (by omega))

/-- One call at two and a half times the average volume, on a strip of ten LEDs. -/
def fullCall : Call where
  snap := { AudioSnapshot.zero ℝ with volumeNorm := 2.5 }
  out := List.replicate 10 .black
  brightness := 1
  dtSec := 0.01
  leds := by rw [List.length_replicate]; norm_num
  forward := by norm_num

/-- The peak is at the end of the scale and on no LED. -/
theorem full_peak_has_no_dot :
    ∃ st, before (fun _ => fullCall) 1 = some st ∧ 0 < st.vuPeakPos ∧
      ∀ i < fullCall.out.length, fullCall.colour st i ≠ .white := by
  have level : vuLevel fullCall.snap = 1 := by
    unfold vuLevel noiseGate clamp01
    norm_num [fullCall]
  have peak : (vuPeak fullCall.snap .initial fullCall.dtSec).vuPeakPos = 1 := by
    rw [vuPeakPos_vuPeak, if_pos (by rw [level]; exact zero_lt_one), level]
  refine ⟨_, before_succ rfl, by rw [peak]; exact zero_lt_one, fun i inside white => ?_⟩
  rw [Call.colour, peak, vuColour_eq_white_iff _ zero_lt_one fullCall.leds, one_mul,
    Int.floor_natCast] at white
  omega

end

end Listeningway.Output.Patterns.Linear
