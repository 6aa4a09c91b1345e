/- Listeningway/Dsp/ResetRuns
   source: src/audio/dsp/pipeline.cpp; src/audio/dsp/stages/directional_stage.h
   digest: When a reset pipeline runs on like a freshly composed one. -/

import Listeningway.Dsp.PipelineReset
import Listeningway.Lib.Clamp

/-!
DirectionalStage is the one stage that outlives `Pipeline::reset`. Two pipelines that
differ in its buckets alone keep doing so, until a frame makes the buckets equal.
-/

set_option autoImplicit false
set_option relaxedAutoImplicit false

namespace Listeningway.Dsp

open Listeningway.Config
open Listeningway.Lib.Clamp
open Listeningway.Source.SourceFormat

variable {K : Type} [Field K] [LinearOrder K]

namespace ComposedStages

/-- The same stages with other direction buckets. -/
def withDirections (c : ComposedStages K) (d : Fin 8 → K) : ComposedStages K :=
  { c with directional := ⟨d⟩ }

variable [FloorRing K] [Cmath K] [KissFft K]

omit [FloorRing K] [KissFft K] in
private theorem directional_step (st : DirectionalStage K) (frame : AnalysisFrame K)
    (cfg : Settings K) :
    st.process frame cfg =
      ((st.process frame cfg).1,
        { frame with direction8 := some (st.process frame cfg).1.prevDir8 }) := by
  unfold DirectionalStage.process
  split_ifs <;> rfl

omit [KissFft K] in
private theorem last_steps (st : DirectionalStage K) (last : LoudnessStage K)
    (frame : AnalysisFrame K) (cfg : Settings K) :
    last.process (st.process frame cfg).2 cfg =
      ((last.process frame cfg).1,
        { (last.process frame cfg).2 with
          direction8 := some (st.process frame cfg).1.prevDir8 }) := by
  rw [directional_step]
  simp only [LoudnessStage.process]
  split_ifs <;> rfl

theorem process_withDirections (c : ComposedStages K) (d : Fin 8 → K) (frame : AnalysisFrame K)
    (cfg : Settings K) :
    (c.withDirections d).process frame cfg =
      ((c.process frame cfg).1.withDirections
          ((⟨d⟩ : DirectionalStage K).process frame cfg).1.prevDir8,
        { (c.process frame cfg).2 with
          direction8 := some ((⟨d⟩ : DirectionalStage K).process frame cfg).1.prevDir8 }) := by
  have state := ((c.withDirections d).process_directional frame cfg).1
  change _ = ((⟨d⟩ : DirectionalStage K).process frame cfg).1 at state
  rw [← state]
  simp only [process, withDirections, last_steps]

end ComposedStages

namespace Pipeline

variable [FloorRing K] [Cmath K] [KissFft K] {p q : Pipeline K}

/-- The same composed pipeline but for the direction buckets. -/
def DifferIn (d e : Fin 8 → K) (p q : Pipeline K) : Prop :=
  ∃ c : ComposedStages K, p.stages = (c.withDirections d).stages ∧
    q.stages = (c.withDirections e).stages

omit [LinearOrder K] [FloorRing K] [Cmath K] [KissFft K] in
theorem DifferIn.reset {d e : Fin 8 → K} (h : DifferIn d e p q) :
    DifferIn d e p.reset q.reset := by
  obtain ⟨c, hp, hq⟩ := h
  refine ⟨c.reset, ?_, ?_⟩
  · rw [Pipeline.reset, hp, ComposedStages.stages_reset]
    rfl
  · rw [Pipeline.reset, hq, ComposedStages.stages_reset]
    rfl

theorem DifferIn.process {d e : Fin 8 → K} (h : DifferIn d e p q) (frame : AnalysisFrame K)
    (cfg : Settings K) (clock : Clock) :
    let d' := ((⟨d⟩ : DirectionalStage K).process frame cfg).1.prevDir8
    let e' := ((⟨e⟩ : DirectionalStage K).process frame cfg).1.prevDir8
    DifferIn d' e' (p.process frame cfg clock).1 (q.process frame cfg clock).1 ∧
      ((p.process frame cfg clock).2 = (q.process frame cfg clock).2 ↔ d' = e') := by
  obtain ⟨c, hp, hq⟩ := h
  rw [Pipeline.process, Pipeline.process, hp, hq, ComposedStages.runStages_stages,
    ComposedStages.runStages_stages, c.process_withDirections, c.process_withDirections]
  refine ⟨⟨_, rfl, rfl⟩, ?_⟩
  constructor
  · intro same
    exact Option.some.inj (congrArg AnalysisFrame.direction8 same)
  · intro same
    dsimp only
    rw [same]

theorem outputs_congr (h : p.stages = q.stages) (calls : List (PipelineCall K)) :
    p.outputs calls = q.outputs calls := by
  induction calls generalizing p q with
  | nil => rfl
  | cons call calls ih =>
    cases call with
    | process frame cfg clock =>
      have out : (p.process frame cfg clock).2 = (q.process frame cfg clock).2 := by
        rw [Pipeline.process, Pipeline.process, h]
      have next : (p.process frame cfg clock).1.stages = (q.process frame cfg clock).1.stages := by
        rw [Pipeline.process, Pipeline.process, h]
      rw [outputs, outputs, serve, serve, out, ih next]
    | reset =>
      have next : p.reset.stages = q.reset.stages := by
        rw [Pipeline.reset, Pipeline.reset, h]
      exact ih next

theorem Alike.outputs (h : p.Alike q) (calls : List (PipelineCall K)) :
    p.outputs calls = q.outputs calls := by
  induction calls generalizing p q with
  | nil => rfl
  | cons call calls ih =>
    cases call with
    | process frame cfg clock =>
      obtain ⟨out, next⟩ := h.process frame cfg clock
      rw [Pipeline.outputs, Pipeline.outputs, serve, serve, out, ih next]
    | reset => exact ih h.reset

theorem Composed.after (h : p.Composed) (calls : List (PipelineCall K)) :
    (p.after calls).Composed := by
  induction calls generalizing p with
  | nil => exact h
  | cons call calls ih =>
    cases call with
    | process frame cfg clock => exact ih (h.process frame cfg clock)
    | reset => exact ih h.reset

omit [LinearOrder K] [FloorRing K] in
theorem composed_of_stages {c : ComposedStages K} (shape : p.stages = c.stages)
    (planned : c.fft.Planned) (even : c.beat.csd.Even) : p.Composed where
  kin := by
    rw [shape, ComposedStages.composePipeline_stages]
    exact .cons (.volume _ _) <| .cons (.fft _ _) <| .cons (.bands _ _) <| .cons .logBoost <|
      .cons .equalizer <| .cons (.bandNorm _ _) <| .cons .spectralCentroid <|
      .cons (.flux _ _) <| .cons (.beat _ _) <| .cons (.chronotensity _ _) <|
      .cons (.pan _ _) <| .cons (.directional _ _) <| .cons (.loudness _ _) .nil
  sound := by
    intro a ha
    rw [shape] at ha
    simp only [ComposedStages.stages, List.mem_cons, List.not_mem_nil, or_false] at ha
    rcases ha with rfl | rfl | rfl | rfl | rfl | rfl | rfl | rfl | rfl | rfl | rfl | rfl | rfl
    case inr.inl => exact planned
    case inr.inr.inr.inr.inr.inr.inr.inr.inl => exact even
    all_goals trivial

omit [Field K] [LinearOrder K] [FloorRing K] [Cmath K] [KissFft K] in
theorem directions_of_stages {c : ComposedStages K} (shape : p.stages = c.stages) :
    p.directions = [c.directional.prevDir8] := by
  rw [directions, shape]
  rfl

omit [LinearOrder K] [FloorRing K] in
theorem Composed.alike_composePipeline (h : p.Composed) (buckets : p.directions = [fun _ => 0]) :
    p.reset.Alike composePipeline := by
  have fresh : p.reset.Alike (composePipeline : Pipeline K).reset :=
    h.alike_reset composed_initial <|
      buckets.trans (directions_of_stages ComposedStages.composePipeline_stages).symm
  rw [Alike, reset_composePipeline_stages] at fresh
  exact fresh

omit [LinearOrder K] [FloorRing K] in
theorem Composed.reset_differIn (h : p.Composed) :
    ∃ d r, p.directions = [d] ∧ DifferIn d (fun _ => 0) p.reset r ∧
      r.Alike (composePipeline : Pipeline K) := by
  obtain ⟨c, shape, planned, even⟩ := h.exists_stages
  -- the same pipeline with empty buckets, which a reset makes like a fresh one
  let empty : ComposedStages K := c.withDirections fun _ => 0
  let blank : Pipeline K := { p with stages := empty.stages }
  have composed : blank.Composed := composed_of_stages (c := empty) rfl planned even
  have differ : DifferIn c.directional.prevDir8 (fun _ => 0) p blank := ⟨c, shape, rfl⟩
  exact ⟨c.directional.prevDir8, blank.reset, directions_of_stages shape, differ.reset,
    composed.alike_composePipeline (directions_of_stages (c := empty) rfl)⟩

end Pipeline

/-! ### The first frame after the reset -/

section Restart

theorem DirectionalStage.measured_nonneg (frame : AnalysisFrame ℝ) (cfg : Settings ℝ)
    (i : Fin 8) : 0 ≤ DirectionalStage.measured frame cfg i := by
  have levels : ∀ i, 0 ≤ DirectionalStage.route frame.format (DirectionalStage.rms frame) i :=
    DirectionalStage.route_nonneg frame.format fun c => Real.sqrt_nonneg _
  have spread : 0 ≤ clamp cfg.frequency.spatialSpread 0 0.5 := le_clamp _ (by norm_num)
  rw [DirectionalStage.measured, DirectionalStage.spread_eq spread, DirectionalStage.neighbours]
  exact add_nonneg (levels _) (mul_nonneg spread (add_nonneg (levels _) (levels _)))

/-- The frame replaces the buckets instead of blending into them. -/
def Overwrites (frame : AnalysisFrame ℝ) (cfg : Settings ℝ) : Prop :=
  ¬ DirectionalStage.NoData frame ∧ cfg.frequency.spatialSmoothing ≤ 0

theorem DirectionalStage.smoothing_eq_zero_iff (cfg : Settings ℝ) :
    DirectionalStage.smoothing cfg = 0 ↔ cfg.frequency.spatialSmoothing ≤ 0 := by
  unfold DirectionalStage.smoothing clamp
  split_ifs with below above
  · exact iff_of_true rfl below.le
  · refine iff_of_false (by norm_num) fun low => ?_
    linarith
  · exact ⟨le_of_eq, fun low => le_antisymm low (not_lt.mp below)⟩

theorem DirectionalStage.process_eq_blank_iff {d : Fin 8 → ℝ} (pos : ∀ i, 0 ≤ d i)
    (frame : AnalysisFrame ℝ) (cfg : Settings ℝ) :
    ((⟨d⟩ : DirectionalStage ℝ).process frame cfg).1.prevDir8 =
        ((⟨fun _ => 0⟩ : DirectionalStage ℝ).process frame cfg).1.prevDir8 ↔
      (d = fun _ => 0) ∨ Overwrites frame cfg := by
  unfold DirectionalStage.process Overwrites
  by_cases empty : DirectionalStage.NoData frame
  · rw [if_pos empty, if_pos empty]
    exact ⟨.inl, fun h => h.resolve_right fun overwrites => overwrites.1 empty⟩
  rw [if_neg empty, if_neg empty, ← DirectionalStage.smoothing_eq_zero_iff]
  have alpha : 0 ≤ DirectionalStage.smoothing cfg := le_clamp _ (by norm_num)
  have below : DirectionalStage.smoothing cfg ≤ 0.95 := clamp_le _ (by norm_num)
  have fresh : ∀ i,
      0 ≤ (1 - DirectionalStage.smoothing cfg) * DirectionalStage.measured frame cfg i := fun i =>
    mul_nonneg (by linarith) (DirectionalStage.measured_nonneg frame cfg i)
  have held : ∀ i, 0 ≤ DirectionalStage.smoothing cfg * d i := fun i => mul_nonneg alpha (pos i)
  constructor
  · intro same
    by_cases off : DirectionalStage.smoothing cfg = 0
    · exact .inr ⟨empty, off⟩
    · refine .inl (funext fun i => ?_)
      have bucket := congrFun same i
      dsimp only at bucket
      rw [DirectionalStage.smooth_eq alpha, DirectionalStage.smooth_eq alpha, mul_zero, zero_add,
        max_eq_right (add_nonneg (held i) (fresh i)), max_eq_right (fresh i)] at bucket
      have gone : DirectionalStage.smoothing cfg * d i = 0 := by linarith
      exact (mul_eq_zero.mp gone).resolve_left off
  · rintro (rfl | ⟨-, off⟩)
    · rfl
    · funext i
      dsimp only
      rw [DirectionalStage.smooth_eq alpha, DirectionalStage.smooth_eq alpha, off]
      ring_nf

variable [KissFft ℝ]

namespace Pipeline

/-- No bucket is negative. -/
def BucketsNonneg (p : Pipeline ℝ) : Prop := ∀ d ∈ p.directions, ∀ i, 0 ≤ d i

omit [KissFft ℝ] in
theorem BucketsNonneg.initial : BucketsNonneg (composePipeline : Pipeline ℝ) := by
  intro d hd i
  obtain rfl := List.mem_singleton.mp hd
  exact le_rfl

theorem runStages_bucketsNonneg (cfg : Settings ℝ) {as : List (IDspStage ℝ)}
    (h : ∀ d ∈ as.filterMap IDspStage.direction, ∀ i, 0 ≤ d i) (frame : AnalysisFrame ℝ) :
    ∀ d ∈ (runStages cfg as frame).1.filterMap IDspStage.direction, ∀ i, 0 ≤ d i := by
  induction as generalizing frame with
  | nil => exact h
  | cons a as ih =>
    cases a with
    | directional st =>
      obtain ⟨now, later⟩ := List.forall_mem_cons.mp h
      refine List.forall_mem_cons.mpr ⟨?_, ih later _⟩
      intro i
      dsimp only [IDspStage.process, DirectionalStage.process]
      split_ifs
      · exact now i
      · exact le_max_left _ _
    | _ => exact ih h _

theorem BucketsNonneg.after {p : Pipeline ℝ} (h : p.BucketsNonneg)
    (calls : List (PipelineCall ℝ)) : (p.after calls).BucketsNonneg := by
  induction calls generalizing p with
  | nil => exact h
  | cons call calls ih =>
    cases call with
    | process frame cfg clock => exact ih (runStages_bucketsNonneg cfg h frame)
    | reset =>
      have kept : p.reset.BucketsNonneg := by
        rw [BucketsNonneg, directions_reset]
        exact h
      exact ih kept

/-- The first frame of the calls, if any, overwrites the buckets. -/
def Forgetful : List (PipelineCall ℝ) → Prop
  | [] => True
  | .reset :: calls => Forgetful calls
  | .process frame cfg _ :: _ => Overwrites frame cfg

theorem DifferIn.outputs_eq_iff {d : Fin 8 → ℝ} {p q : Pipeline ℝ}
    (h : DifferIn d (fun _ => 0) p q) (pos : ∀ i, 0 ≤ d i) (calls : List (PipelineCall ℝ)) :
    p.outputs calls = q.outputs calls ↔ (d = fun _ => 0) ∨ Forgetful calls := by
  induction calls generalizing p q with
  | nil => exact iff_of_true rfl (.inr trivial)
  | cons call calls ih =>
    cases call with
    | reset => exact ih h.reset
    | process frame cfg clock =>
      obtain ⟨⟨c, hp, hq⟩, out⟩ := h.process frame cfg clock
      have blank := DirectionalStage.process_eq_blank_iff pos frame cfg
      rw [outputs, outputs, serve, serve, List.singleton_append, List.singleton_append,
        List.cons.injEq, out, Forgetful, ← blank]
      refine and_iff_left_of_imp fun same => ?_
      refine outputs_congr ?_ calls
      rw [hp, hq, same]

/-- A reset pipeline runs on like a fresh one exactly when it held no buckets or the first
frame after the reset overwrites them. -/
theorem reset_restarts_iff (before later : List (PipelineCall ℝ)) :
    ((composePipeline : Pipeline ℝ).after before).reset.outputs later =
        (composePipeline : Pipeline ℝ).outputs later ↔
      (∀ d ∈ ((composePipeline : Pipeline ℝ).after before).directions, d = fun _ => 0) ∨
        Forgetful later := by
  obtain ⟨d, r, held, differ, fresh⟩ := (composed_initial.after before).reset_differIn
  have pos := BucketsNonneg.initial.after before
  rw [BucketsNonneg, held, List.forall_mem_singleton] at pos
  rw [← fresh.outputs, differ.outputs_eq_iff pos later, held, List.forall_mem_singleton]

end Pipeline

end Restart

namespace Pipeline

/-- Full scale on the only channel. -/
noncomputable def loudFrame : AnalysisFrame ℝ := AnalysisFrame.ofChunk [1] ⟨48000, 1, .mono⟩ 0 0

noncomputable def loudPass : PipelineCall ℝ :=
  .process loudFrame (Settings.defaults ℝ) ⟨0, fun _ => 0, fun _ => 0, 0⟩

private theorem loudFrame_rms : DirectionalStage.rms loudFrame 0 = 1 := by
  have channels : loudFrame.format.channels = 1 := rfl
  have frames : loudFrame.frames = 1 := rfl
  have sample : loudFrame.sample 0 0 = 1 := rfl
  rw [DirectionalStage.rms, channels, if_pos (by decide), frames, Finset.sum_range_one]
  change Real.sqrt (loudFrame.sample 0 0 * loudFrame.sample 0 0 / ((1 : ℕ) : ℝ)) = 1
  rw [sample, one_mul, Nat.cast_one, div_one, Real.sqrt_one]

private theorem loudFrame_front :
    ((⟨fun _ => 0⟩ : DirectionalStage ℝ).process loudFrame (Settings.defaults ℝ)).1.prevDir8 0 ≠
      0 := by
  have data : ¬ DirectionalStage.NoData loudFrame := by decide
  have level : DirectionalStage.measured loudFrame (Settings.defaults ℝ) 0 = 1 := by
    have front : DirectionalStage.route loudFrame.format (DirectionalStage.rms loudFrame) 0 =
        DirectionalStage.rms loudFrame 0 := rfl
    have quiet : DirectionalStage.neighbours (DirectionalStage.route loudFrame.format
        (DirectionalStage.rms loudFrame)) 0 = 0 := add_zero 0
    rw [DirectionalStage.measured, DirectionalStage.spread_eq (le_clamp _ (by norm_num)), front,
      quiet, mul_zero, add_zero, loudFrame_rms]
  have alpha : DirectionalStage.smoothing (Settings.defaults ℝ) = 0.1 := by
    change clamp (0.10 : ℝ) 0 0.95 = 0.1
    rw [clamp_of_mem (by norm_num) (by norm_num)]
    norm_num
  rw [DirectionalStage.process, if_neg data]
  dsimp only
  rw [level, alpha, DirectionalStage.smooth_eq (by norm_num)]
  norm_num

/-- A tenth of the front bucket is still there in the first frame after the reset. -/
theorem front_outlives_reset :
    ¬ ∀ before later : List (PipelineCall ℝ),
      ((composePipeline : Pipeline ℝ).after before).reset.outputs later =
        (composePipeline : Pipeline ℝ).outputs later := by
  intro always
  obtain ⟨d, r, held, differ, fresh⟩ := (composed_initial.after [loudPass]).reset_differIn
  have pos := BucketsNonneg.initial.after [loudPass]
  rw [BucketsNonneg, held, List.forall_mem_singleton] at pos
  have same := always [loudPass] [loudPass]
  rw [← fresh.outputs, differ.outputs_eq_iff pos] at same
  rcases same with rfl | ⟨-, low⟩
  · have buckets := congrArg (fun ds => ds.head?.map fun d => d 0) held
    have after : ((composePipeline : Pipeline ℝ).after [loudPass]).stages =
        (ComposedStages.initial.process loudFrame (Settings.defaults ℝ)).1.stages :=
      congrArg Prod.fst (ComposedStages.initial.runStages_stages loudFrame (Settings.defaults ℝ))
    rw [directions, after] at buckets
    have front : (ComposedStages.initial.process loudFrame
        (Settings.defaults ℝ)).1.directional.prevDir8 0 = 0 := Option.some.inj buckets
    rw [(ComposedStages.process_directional _ _ _).1] at front
    exact loudFrame_front front
  · have smoothing : (0.10 : ℝ) ≤ 0 := low
    norm_num at smoothing

end Pipeline

end Listeningway.Dsp
