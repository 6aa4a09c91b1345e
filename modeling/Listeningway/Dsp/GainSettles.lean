/- Listeningway/Dsp/GainSettles
   source: src/audio/dsp/stages/volume_stage.h; src/audio/dsp/stages/band_norm_stage.h;
     docs/adr/0006-testing-strategy.md
   digest: The gain control settles at 1 when the level does, from any state of the stages. -/

import Listeningway.Dsp.ScalarRange
import Listeningway.Dsp.LevelGain
import Listeningway.Lib.Smoothing
import Mathlib.Topology.Algebra.Order.Field

/-!
The running mean follows the level, so their ratio goes to 1, and the smoothed output follows the
ratio. The settings may change from frame to frame: what `clamp_in_place` lets through keeps the
weights of both averages away from 0.
-/

set_option autoImplicit false
set_option relaxedAutoImplicit false

namespace Listeningway.Dsp

open Filter
open Listeningway.Config
open Listeningway.Dsp.UnitRange (Pass)
open Listeningway.Lib.Clamp
open Listeningway.Lib.Smoothing
open Listeningway.Lib.StreamRun
open Listeningway.Snapshot
open Listeningway.System.DspThread
open scoped Topology
open Set (Icc)

/-! ### One gain control -/

namespace Agc

/-- One turn over a value. -/
structure Turn (cfg : AgcConfig ℝ) (dt value mean att mean' ratio att' : ℝ) : Prop where
  follows : mean' = runningMean (meanAlpha dt cfg) mean value
  divides : ratio = norm value mean' cfg
  smooths : att' = smooth dt cfg att ratio

/-- Where the output settles for a level: at 1 above the floor of the mean. -/
noncomputable def settled (level : ℝ) : ℝ := level / max level 1e-6

theorem settled_of_loud {level : ℝ} (loud : 1e-6 ≤ level) : settled level = 1 := by
  have positive : 0 < level := lt_of_lt_of_le (by norm_num) loud
  rw [settled, max_eq_left loud, div_self positive.ne']

theorem settled_le_one (level : ℝ) : settled level ≤ 1 := by
  have floor : (0 : ℝ) < max level 1e-6 := lt_max_of_lt_right (by norm_num)
  rw [settled, div_le_one floor]
  exact le_max_left _ _

variable {cfg : AgcConfig ℝ} {dt least : ℝ}

theorem le_weight {time most : ℝ} (positive : 0 < least) (long : least ≤ dt) (some : 0 < time)
    (short : time ≤ most) : min 1 (least / most) ≤ clamp (dt / time) 0 1 := by
  have kept : least / most ≤ dt / time := by
    calc least / most ≤ least / time := div_le_div_of_nonneg_left positive.le some short
      _ ≤ dt / time := div_le_div_of_nonneg_right long some.le
  have whole : 0 ≤ dt / time := div_nonneg (positive.le.trans long) some.le
  unfold clamp
  split_ifs with below above
  · exact absurd whole (not_le.mpr below)
  · exact min_le_left _ _
  · exact (min_le_right _ _).trans kept

theorem le_meanAlpha (range : cfg.InRange) (positive : 0 < least) (long : least ≤ dt) :
    min 1 (least / 30) ≤ meanAlpha dt cfg := by
  apply le_weight positive long (lt_max_of_lt_left (by norm_num))
  have window := range.windowSeconds.2
  apply max_le (by norm_num)
  norm_num at window
  exact window

theorem le_smoothAlpha (range : cfg.InRange) (positive : 0 < least) (long : least ≤ dt)
    (att target : ℝ) : min 1 (least / 5) ≤
      clamp (dt / max 0.001 ((if att < target then cfg.attAttackMs else cfg.attReleaseMs) * 0.001))
        0 1 := by
  apply le_weight positive long (lt_max_of_lt_left (by norm_num))
  have attack := range.attAttackMs.2
  have release := range.attReleaseMs.2
  norm_num at attack release
  apply max_le (by norm_num)
  split_ifs <;> norm_num <;> linarith

theorem settles {cfg : ℕ → AgcConfig ℝ} {dt value mean att ratio : ℕ → ℝ} {level : ℝ}
    (positive : 0 < least) (turns : ∀ᶠ k in atTop, least ≤ dt k ∧ (cfg k).InRange ∧
      Turn (cfg k) (dt k) (value k) (mean k) (att k) (mean (k + 1)) (ratio k) (att (k + 1)))
    (goes : Tendsto value atTop (𝓝 level)) :
    Tendsto ratio atTop (𝓝 (settled level)) ∧ Tendsto att atTop (𝓝 (settled level)) := by
  have floor : (0 : ℝ) < max level 1e-6 := lt_max_of_lt_right (by norm_num)
  -- from the second turn on the mean is set
  have set : ∀ᶠ k in atTop, 0 < mean k := by
    obtain ⟨N, from_there⟩ := eventually_atTop.mp turns
    refine eventually_atTop.mpr ⟨N + 1, fun k after => ?_⟩
    obtain ⟨j, rfl⟩ := Nat.exists_eq_add_of_le' (Nat.le_of_add_left_le after)
    obtain ⟨-, -, turn⟩ := from_there j (by omega)
    rw [turn.follows]
    exact runningMean_pos (meanAlpha_mem _ _) _ _
  have means : Tendsto mean atTop (𝓝 (max level 1e-6)) := by
    have floored : Tendsto (fun k => max (value k) 1e-6) atTop (𝓝 (max level 1e-6)) :=
      goes.max tendsto_const_nhds
    have weight : 0 < min 1 (least / 30) := lt_min one_pos (div_pos positive (by norm_num))
    refine tendsto_smoothed (fun k => meanAlpha (dt k) (cfg k)) weight ?_ floored
    filter_upwards [turns, set] with k turned mean_set
    obtain ⟨long, range, turn⟩ := turned
    refine ⟨le_meanAlpha range positive long, (meanAlpha_mem _ _).2, ?_⟩
    rw [turn.follows, runningMean, if_neg (not_le.mpr mean_set)]
  have ratios : Tendsto ratio atTop (𝓝 (settled level)) := by
    have quotient : Tendsto (fun k => value k / max (mean (k + 1)) 1e-6) atTop
        (𝓝 (settled level)) := by
      have later : Tendsto (fun k => max (mean (k + 1)) 1e-6) atTop (𝓝 (max level 1e-6)) := by
        have shifted := (means.comp (tendsto_add_atTop_nat 1)).max
          (tendsto_const_nhds (x := (1e-6 : ℝ)))
        rwa [max_eq_left (le_max_right level 1e-6)] at shifted
      exact goes.div later floor.ne'
    -- the cap of the output is out of reach in the end
    have low : settled level < 1.5 := (settled_le_one level).trans_lt (by norm_num)
    refine quotient.congr' ?_
    filter_upwards [turns, quotient.eventually_lt_const low] with k turned below
    obtain ⟨-, range, turn⟩ := turned
    rw [turn.divides, norm, min_eq_left (below.le.trans range.clampMax.1)]
  refine ⟨ratios, ?_⟩
  have weight : 0 < min 1 (least / 5) := lt_min one_pos (div_pos positive (by norm_num))
  refine tendsto_smoothed (fun k => clamp (dt k / max 0.001
    ((if att k < ratio k then (cfg k).attAttackMs else (cfg k).attReleaseMs) * 0.001)) 0 1)
    weight ?_ ratios
  filter_upwards [turns] with k turned
  obtain ⟨long, range, turn⟩ := turned
  exact ⟨le_smoothAlpha range positive long _ _, (clamp_mem zero_le_one).2, turn.smooths⟩

/-- The output and the smoothed output settle with the value, also from any start. A value that
goes to 0 says nothing of whether there was anything to measure. -/
def Tracks (fed : ℕ → Prop) (value norm att : ℕ → ℝ) : Prop :=
  ∀ level, (level = 0 → ∀ᶠ k in atTop, fed k) → Tendsto value atTop (𝓝 level) →
    Tendsto norm atTop (𝓝 (settled level)) ∧ Tendsto att atTop (𝓝 (settled level))

theorem le_frameInterval {now last : TimePoint} (later : last < now) :
    (1e-9 : ℝ) ≤ frameInterval (1 / 60.0) now last := by
  unfold frameInterval
  split_ifs with first
  · norm_num
  · have apart : (1 : ℝ) ≤ ((now - last : ℤ) : ℝ) := by
      exact_mod_cast Int.sub_pos.mpr later
    rw [seconds, le_div_iff₀ (by norm_num)]
    linarith

section Runs

variable {fed : ℕ → Prop} {now : ℕ → TimePoint} {value norm att : ℕ → ℝ}
  {cfg : ℕ → AgcConfig ℝ}

theorem tracks (last : ℕ → TimePoint) (mean state : ℕ → ℝ)
    (later : ∀ᶠ k in atTop, now k < now (k + 1)) (range : ∀ k, (cfg k).InRange)
    (unfed : ∀ k, ¬ fed k → value k = 0)
    (step : ∀ k, fed k → last (k + 1) = now k ∧ att k = state (k + 1) ∧
      Turn (cfg k) (frameInterval (1 / 60.0) (now k) (last k)) (value k) (mean k) (state k)
        (mean (k + 1)) (norm k) (state (k + 1))) :
    Tracks fed value norm att := by
  intro level silent goes
  have always : ∀ᶠ k in atTop, fed k := by
    rcases eq_or_ne level 0 with zero | heard
    · exact silent zero
    · filter_upwards [goes.eventually_ne heard] with k loud
      by_contra missed
      exact loud (unfed k missed)
  have long : ∀ᶠ k in atTop, (1e-9 : ℝ) ≤ frameInterval (1 / 60.0) (now k) (last k) := by
    rw [← map_add_atTop_eq_nat 1, eventually_map]
    filter_upwards [always, later] with k heard grows
    rw [(step k heard).1]
    exact le_frameInterval grows
  have turns : ∀ᶠ k in atTop, (1e-9 : ℝ) ≤ frameInterval (1 / 60.0) (now k) (last k) ∧
      (cfg k).InRange ∧ Turn (cfg k) (frameInterval (1 / 60.0) (now k) (last k)) (value k)
        (mean k) (state k) (mean (k + 1)) (norm k) (state (k + 1)) := by
    filter_upwards [always, long] with k heard enough
    exact ⟨enough, range k, (step k heard).2.2⟩
  obtain ⟨norms, states⟩ := settles (by norm_num) turns goes
  refine ⟨norms, (states.comp (tendsto_add_atTop_nat 1)).congr' ?_⟩
  filter_upwards [always] with k heard
  exact (step k heard).2.1.symm

end Runs

end Agc

/-! ### The stages -/

namespace VolumeStage

theorem process_fed (st : VolumeStage ℝ) {frame : AnalysisFrame ℝ}
    (fed : ¬ DirectionalStage.NoData frame) (cfg : Settings ℝ) :
    let out := st.process frame cfg
    out.1.lastT = frame.capturedAt ∧ out.2.volumeAtt.getD 1 = out.1.att ∧
      Agc.Turn cfg.agc (frameInterval (1 / 60.0) frame.capturedAt st.lastT)
        (out.2.volume.getD 0) st.runningMean st.att out.1.runningMean (out.2.volumeNorm.getD 1)
        out.1.att := by
  obtain ⟨wide, there, whole⟩ : frame.format.channels ≠ 0 ∧ frame.samples ≠ [] ∧
      frame.frames ≠ 0 := by
    simpa only [DirectionalStage.NoData, not_or] using fed
  rw [process, if_neg (not_or.mpr ⟨wide, there⟩), if_neg whole]
  exact ⟨rfl, rfl, rfl, rfl, rfl⟩

theorem tracks (st : ℕ → VolumeStage ℝ) (frame out : ℕ → AnalysisFrame ℝ) {cfg : ℕ → Settings ℝ}
    (run : ∀ k, st (k + 1) = ((st k).process (frame k) (cfg k)).1)
    (same : ∀ k, ∀ i ∈ writes, ((st k).process (frame k) (cfg k)).2.get i = (out k).get i)
    (later : ∀ᶠ k in atTop, (frame k).capturedAt < (frame (k + 1)).capturedAt)
    (range : ∀ k, (cfg k).InRange) :
    Agc.Tracks (fun k => ¬ DirectionalStage.NoData (frame k)) (fun k => (out k).volume.getD 0)
      (fun k => (out k).volumeNorm.getD 1) (fun k => (out k).volumeAtt.getD 1) := by
  have volume (k : ℕ) : ((st k).process (frame k) (cfg k)).2.volume = (out k).volume :=
    same k .volume (by decide)
  have norm (k : ℕ) : ((st k).process (frame k) (cfg k)).2.volumeNorm = (out k).volumeNorm :=
    same k .volumeNorm (by decide)
  have att (k : ℕ) : ((st k).process (frame k) (cfg k)).2.volumeAtt = (out k).volumeAtt :=
    same k .volumeAtt (by decide)
  simp only [← volume, ← norm, ← att]
  apply Agc.tracks (fun k => (st k).lastT) (fun k => (st k).runningMean) (fun k => (st k).att)
    later fun k => (range k).agc
  · intro k missed
    rw [process_noData (not_not.mp missed)]
    rfl
  · intro k fed
    rw [run k]
    exact process_fed (st k) fed (cfg k)

end VolumeStage

namespace BandNormStage

theorem process_fed (st : BandNormStage ℝ) {frame : AnalysisFrame ℝ} (fed : frame.bands ≠ [])
    (cfg : Settings ℝ) :
    let out := st.process frame cfg
    let dt := frameInterval (1 / 60.0) frame.capturedAt st.lastT
    out.1.lastT = frame.capturedAt ∧
      (out.2.bassAtt.getD 1 = out.1.bassAtt ∧
        Agc.Turn cfg.agc dt (bassEnergy frame) st.bassMean st.bassAtt out.1.bassMean
          (out.2.bassNorm.getD 1) out.1.bassAtt) ∧
      (out.2.midAtt.getD 1 = out.1.midAtt ∧
        Agc.Turn cfg.agc dt (midEnergy frame) st.midMean st.midAtt out.1.midMean
          (out.2.midNorm.getD 1) out.1.midAtt) ∧
      (out.2.trebAtt.getD 1 = out.1.trebAtt ∧
        Agc.Turn cfg.agc dt (trebEnergy frame) st.trebMean st.trebAtt out.1.trebMean
          (out.2.trebNorm.getD 1) out.1.trebAtt) := by
  rw [process, if_neg fed]
  exact ⟨rfl, ⟨rfl, rfl, rfl, rfl⟩, ⟨rfl, rfl, rfl, rfl⟩, ⟨rfl, rfl, rfl, rfl⟩⟩

theorem energy_nil (lo hi : ℕ) : energy ([] : List ℝ) lo hi = 0 := by
  simp [energy]

theorem tracks (st : ℕ → BandNormStage ℝ) (frame out : ℕ → AnalysisFrame ℝ)
    {cfg : ℕ → Settings ℝ} (run : ∀ k, st (k + 1) = ((st k).process (frame k) (cfg k)).1)
    (same : ∀ k, ∀ i ∈ writes, ((st k).process (frame k) (cfg k)).2.get i = (out k).get i)
    (bands : ∀ k, (frame k).bands = (out k).bands)
    (later : ∀ᶠ k in atTop, (frame k).capturedAt < (frame (k + 1)).capturedAt)
    (range : ∀ k, (cfg k).InRange) :
    let fed := fun k => (out k).bands ≠ []
    Agc.Tracks fed (fun k => bassEnergy (out k)) (fun k => (out k).bassNorm.getD 1)
        (fun k => (out k).bassAtt.getD 1) ∧
      Agc.Tracks fed (fun k => midEnergy (out k)) (fun k => (out k).midNorm.getD 1)
        (fun k => (out k).midAtt.getD 1) ∧
      Agc.Tracks fed (fun k => trebEnergy (out k)) (fun k => (out k).trebNorm.getD 1)
        (fun k => (out k).trebAtt.getD 1) := by
  intro fed
  have agc (k : ℕ) := (range k).agc
  have none (k : ℕ) (missed : ¬ fed k) (lo hi : ℕ) : energy (out k).bands lo hi = 0 := by
    rw [not_not.mp missed]
    exact energy_nil lo hi
  have there (k : ℕ) (some : fed k) : (frame k).bands ≠ [] := (bands k).trans_ne some
  have step (k : ℕ) (some : fed k) := process_fed (st k) (there k some) (cfg k)
  have bass (k : ℕ) : ((st k).process (frame k) (cfg k)).2.bassNorm = (out k).bassNorm :=
    same k .bassNorm (by decide)
  have mid (k : ℕ) : ((st k).process (frame k) (cfg k)).2.midNorm = (out k).midNorm :=
    same k .midNorm (by decide)
  have treb (k : ℕ) : ((st k).process (frame k) (cfg k)).2.trebNorm = (out k).trebNorm :=
    same k .trebNorm (by decide)
  have bassAtt (k : ℕ) : ((st k).process (frame k) (cfg k)).2.bassAtt = (out k).bassAtt :=
    same k .bassAtt (by decide)
  have midAtt (k : ℕ) : ((st k).process (frame k) (cfg k)).2.midAtt = (out k).midAtt :=
    same k .midAtt (by decide)
  have trebAtt (k : ℕ) : ((st k).process (frame k) (cfg k)).2.trebAtt = (out k).trebAtt :=
    same k .trebAtt (by decide)
  simp only [bassEnergy, midEnergy, trebEnergy, bands, bass, mid, treb, bassAtt, midAtt, trebAtt,
    ← run] at step
  refine ⟨?_, ?_, ?_⟩
  · exact Agc.tracks (fun k => (st k).lastT) (fun k => (st k).bassMean)
      (fun k => (st k).bassAtt) later agc (fun k missed => none k missed _ _)
      fun k some => ⟨(step k some).1, (step k some).2.1⟩
  · exact Agc.tracks (fun k => (st k).lastT) (fun k => (st k).midMean)
      (fun k => (st k).midAtt) later agc (fun k missed => none k missed _ _)
      fun k some => ⟨(step k some).1, (step k some).2.2.1⟩
  · exact Agc.tracks (fun k => (st k).lastT) (fun k => (st k).trebMean)
      (fun k => (st k).trebAtt) later agc (fun k missed => none k missed _ _)
      fun k some => ⟨(step k some).1, (step k some).2.2.2⟩

end BandNormStage

/-! ### Runs of the pipeline -/

namespace GainSettles

section Runs

variable [KissFft ℝ]

/-- A pipeline before pass `k`. -/
noncomputable def before (p : Pipeline ℝ) (input : ℕ → Pass) (k : ℕ) : Pipeline ℝ :=
  stateAt (fun p x => (p.process x.frame x.cfg x.clock).1) p input k

noncomputable def processed (p : Pipeline ℝ) (input : ℕ → Pass) (k : ℕ) : AnalysisFrame ℝ :=
  ((before p input k).process (input k).frame (input k).cfg (input k).clock).2

noncomputable def published (p : Pipeline ℝ) (input : ℕ → Pass) (k : ℕ) : AudioSnapshot ℝ :=
  project (processed p input k) (before p input (k + 1)).profile

/-- The stages before pass `k`. -/
noncomputable def stagesBefore (c : ComposedStages ℝ) (input : ℕ → Pass) (k : ℕ) :
    ComposedStages ℝ :=
  stateAt (fun c x => (c.process x.frame x.cfg).1) c input k

/-- What the stages up to position `i` have made of frame `k`. -/
noncomputable def reaching (c : ComposedStages ℝ) (input : ℕ → Pass) (i k : ℕ) :
    AnalysisFrame ℝ :=
  (Pipeline.runStages (input k).cfg ((stagesBefore c input k).stages.take i) (input k).frame).2

variable {p : Pipeline ℝ} {c : ComposedStages ℝ} {input : ℕ → Pass}

theorem before_stages (shape : p.stages = c.stages) (k : ℕ) :
    (before p input k).stages = (stagesBefore c input k).stages := by
  apply stateAt_related (fun (p : Pipeline ℝ) (c : ComposedStages ℝ) => p.stages = c.stages) shape
  intro k _ alike
  exact (UnitRange.process_stages alike (input k)).1

theorem processed_eq (shape : p.stages = c.stages) (k : ℕ) :
    processed p input k =
      ((stagesBefore c input k).process (input k).frame (input k).cfg).2 :=
  (UnitRange.process_stages (before_stages shape k) (input k)).2

theorem stagesBefore_succ (c : ComposedStages ℝ) (input : ℕ → Pass) (k : ℕ) :
    stagesBefore c input (k + 1) =
      ((stagesBefore c input k).process (input k).frame (input k).cfg).1 := rfl

theorem reaching_capturedAt (c : ComposedStages ℝ) (input : ℕ → Pass) (i k : ℕ) :
    (reaching c input i k).capturedAt = (input k).capturedAt :=
  (Pipeline.runStages_touches _ _ _).capturedAt

theorem processed_get (shape : p.stages = c.stages) (i k : ℕ) {a : IDspStage ℝ}
    (stage : (stagesBefore c input k).stages[i]? = some a) {fields : List FieldId}
    (last : ∀ f ∈ fields, f ∉ (ComposedStages.writes.drop (i + 1)).flatten) :
    ∀ f ∈ fields, (a.process (reaching c input i k) (input k).cfg).2.get f =
      (processed p input k).get f := by
  rw [processed_eq shape]
  exact ScalarRange.stage_get _ (input k) i stage last

/-- While frames keep coming, the gain control of the volume and of every third of the bands
settles with what it measures, whatever was processed before and however the settings change. -/
theorem gain_settles (shape : p.stages = c.stages)
    (later : ∀ᶠ k in atTop, (input k).capturedAt < (input (k + 1)).capturedAt) :
    let fed := fun k => ¬ DirectionalStage.NoData (input k).frame
    let banded := fun k => (processed p input k).bands ≠ []
    Agc.Tracks fed (fun k => (published p input k).volume)
        (fun k => (published p input k).volumeNorm) (fun k => (published p input k).volumeAtt) ∧
      Agc.Tracks banded (fun k => BandNormStage.bassEnergy (processed p input k))
        (fun k => (published p input k).bassNorm) (fun k => (published p input k).bassAtt) ∧
      Agc.Tracks banded (fun k => BandNormStage.midEnergy (processed p input k))
        (fun k => (published p input k).midNorm) (fun k => (published p input k).midAtt) ∧
      Agc.Tracks banded (fun k => BandNormStage.trebEnergy (processed p input k))
        (fun k => (published p input k).trebNorm) (fun k => (published p input k).trebAtt) := by
  have range (k : ℕ) : (input k).cfg.InRange := (input k).settings.inRange_clampInPlace
  constructor
  · apply VolumeStage.tracks (fun k => (stagesBefore c input k).volume)
      (fun k => (input k).frame) (processed p input) _ _ later range
    · intro k
      rw [stagesBefore_succ, ComposedStages.process_states]
      rfl
    · exact fun k => processed_get shape 0 k rfl (by decide)
  · apply BandNormStage.tracks (fun k => (stagesBefore c input k).bandNorm)
      (reaching c input 5) (processed p input) _ _ _ _ range
    · intro k
      rw [stagesBefore_succ, ComposedStages.process_states]
      rfl
    · exact fun k => processed_get shape 5 k rfl (by decide)
    · intro k
      rw [processed_eq shape]
      exact ((stagesBefore c input k).process_get_take 5 _ _ (i := .bands) (by decide)).symm
    · simpa only [reaching_capturedAt] using later

end Runs

/-- A steady tone at half of full scale, a frame every nanosecond. -/
noncomputable def steady (k : ℕ) : Pass where
  samples := [0.5]
  format := ⟨48000, 1, .mono⟩
  capturedAt := k
  frameIndex := k
  settings := Settings.defaults ℝ
  clock := ⟨0, fun _ => 0, fun _ => 0, 0⟩

theorem steady_volume (k : ℕ) : (published Pipeline.composePipeline steady k).volume = 0.5 := by
  have last : ∀ f ∈ VolumeStage.writes, f ∉ (ComposedStages.writes.drop 1).flatten := by
    decide
  have volume : ((stagesBefore ComposedStages.initial steady k).volume.process (steady k).frame
      (steady k).cfg).2.volume = (processed Pipeline.composePipeline steady k).volume :=
    processed_get ComposedStages.composePipeline_stages 0 k rfl last .volume (by decide)
  have loud : (((stagesBefore ComposedStages.initial steady k).volume.process (steady k).frame
      (steady k).cfg).2.volume).getD 0 = 0.5 := by
    have amplifier : (steady k).cfg.frequency.amplifierVolume = 1 := by
      norm_num [steady, Pass.cfg, Settings.clampInPlace, FrequencyConfig.clampInPlace, clamp,
        Settings.defaults, FrequencyConfig.defaults]
    have mean : VolumeStage.meanAbs (steady k).frame = 0.5 := by
      norm_num [VolumeStage.meanAbs, AnalysisFrame.frames, AnalysisFrame.sample, steady,
        Pass.frame, AnalysisFrame.ofChunk]
    rw [VolumeStage.process, if_neg (by simp [steady, Pass.frame, AnalysisFrame.ofChunk]),
      if_neg (by simp [steady, Pass.frame, AnalysisFrame.ofChunk, AnalysisFrame.frames])]
    show min 1 (VolumeStage.meanAbs _ * _) = _
    rw [mean, amplifier]
    norm_num
  rw [← loud]
  exact congrArg (Option.getD · 0) volume.symm

theorem steady_tone_settles :
    Tendsto (fun k => (published Pipeline.composePipeline steady k).volumeNorm) atTop (𝓝 1) ∧
      Tendsto (fun k => (published Pipeline.composePipeline steady k).volumeAtt) atTop (𝓝 1) := by
  have later : ∀ᶠ k in atTop, (steady k).capturedAt < (steady (k + 1)).capturedAt :=
    .of_forall fun k => by simp [steady]
  have tracks := (gain_settles ComposedStages.composePipeline_stages later).1
  have level : Tendsto (fun k => (published Pipeline.composePipeline steady k).volume) atTop
      (𝓝 0.5) := by
    simp only [steady_volume]
    exact tendsto_const_nhds
  have settled := tracks 0.5 (fun zero => absurd zero (by norm_num)) level
  rwa [Agc.settled_of_loud (by norm_num)] at settled

end GainSettles

end Listeningway.Dsp
