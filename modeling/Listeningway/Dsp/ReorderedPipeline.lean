/- Listeningway/Dsp/ReorderedPipeline
   source: src/audio/dsp/pipeline.cpp; src/audio/dsp/i_dsp_stage.h; src/app.cpp
   digest: Pipelines that keep the order of dependent stages do the same over whole runs. -/

import Listeningway.Dsp.Independence
import Listeningway.Dsp.PopulatedReads
import Listeningway.Lib.Reorder

/-!
The stages of a pipeline have names here, so that one stage can be followed through two
pipelines that have it in different places, whatever state it is in.
-/

set_option autoImplicit false
set_option relaxedAutoImplicit false

namespace Listeningway.Dsp.Pipeline

open Listeningway.Config
open Listeningway.Lib.Reorder
open IDspStage

variable {ι K : Type}

/-- Neither of the two stages declares a write that the other one declares. -/
def Apart (stage : ι → IDspStage K) (i j : ι) : Prop := IndependentOf (stage i) (stage j)

/-- `p` has the stages in the order `names`, and `q` in the order `names'`, which differs only
in pairs that are apart. -/
def Rearranged (names names' : List ι) (p q : Pipeline K) : Prop :=
  ∃ stage : ι → IDspStage K, p.stages = names.map stage ∧ q.stages = names'.map stage ∧
    Keeps (Apart stage) names names'

theorem apart_congr {stage stage' : ι → IDspStage K} (kin : ∀ i, Kin (stage' i) (stage i)) :
    Apart stage' = Apart stage := by
  funext i j
  unfold Apart IndependentOf
  rw [(kin i).reads_eq, (kin i).writes_eq, (kin j).reads_eq, (kin j).writes_eq]

/-! ### Composition -/

theorem ordered_of_mem_iff {available available' : List FieldId}
    (same : ∀ f, f ∈ available ↔ f ∈ available') (stages : List (IDspStage K)) :
    Ordered available stages ↔ Ordered available' stages := by
  induction stages generalizing available available' with
  | nil => exact Iff.rfl
  | cons stage rest ih =>
    have more : ∀ f, f ∈ available ++ stage.writes ↔ f ∈ available' ++ stage.writes := by
      intro f
      rw [List.mem_append, List.mem_append, same]
    rw [Ordered, Ordered, ih more]
    simp only [same]

theorem ordered_exchanged {stage : ι → IDspStage K} {names names' : List ι}
    (exchanged : Exchanged (Apart stage) names names') (available : List FieldId) :
    Ordered available (names.map stage) ↔ Ordered available (names'.map stage) := by
  induction exchanged generalizing available with
  | refl => exact Iff.rfl
  | cons i _ ih =>
    rw [List.map_cons, List.map_cons, Ordered, Ordered, ih]
  | @swap i j names apart =>
    have first : (∀ f ∈ (stage j).reads, f ∈ available ++ (stage i).writes) ↔
        ∀ f ∈ (stage j).reads, f ∈ available := by
      refine forall₂_congr fun f read => ?_
      rw [List.mem_append]
      refine or_iff_left fun written => ?_
      exact apart.left f written (List.mem_append_left _ read)
    have second : (∀ f ∈ (stage i).reads, f ∈ available ++ (stage j).writes) ↔
        ∀ f ∈ (stage i).reads, f ∈ available := by
      refine forall₂_congr fun f read => ?_
      rw [List.mem_append]
      refine or_iff_left fun written => ?_
      exact apart.right f written (List.mem_append_left _ read)
    have after : Ordered (available ++ (stage i).writes ++ (stage j).writes) (names.map stage) ↔
        Ordered (available ++ (stage j).writes ++ (stage i).writes) (names.map stage) := by
      apply ordered_of_mem_iff
      intro f
      simp only [List.mem_append, or_assoc, or_comm (a := f ∈ (stage i).writes)]
    simp only [List.map_cons, Ordered, first, second, after, ← and_assoc,
      and_comm (a := ∀ f ∈ (stage i).reads, f ∈ available)]
  | trans _ _ ih ih' => exact (ih available).trans (ih' available)

/-! ### One pass -/

variable [Field K] [LinearOrder K] [FloorRing K] [Cmath K] [KissFft K]

/-- The stages by their names, and the frame between them. -/
structure Pass (ι K : Type) where
  stage : ι → IDspStage K
  frame : AnalysisFrame K

variable [DecidableEq ι]

/-- One stage processes the frame. -/
def Pass.act (cfg : Settings K) (s : Pass ι K) (i : ι) : Pass ι K :=
  let out := (s.stage i).process s.frame cfg
  ⟨Function.update s.stage i out.1, out.2⟩

variable {names names' : List ι} {cfg : Settings K}

theorem Pass.kin_act (s : Pass ι K) (i j : ι) : Kin ((s.act cfg i).stage j) (s.stage j) := by
  unfold Pass.act
  dsimp only
  rcases eq_or_ne j i with rfl | other
  · rw [Function.update_self]
    exact kin_process _ _ _
  · rw [Function.update_of_ne other]
    exact .refl _

theorem Pass.act_comm (s : Pass ι K) {i j : ι} (apart : Apart s.stage i j) :
    (s.act cfg i).act cfg j = (s.act cfg j).act cfg i := by
  rcases eq_or_ne i j with rfl | other
  · rfl
  · obtain ⟨first, second, out⟩ := apart.process_swap s.frame cfg
    unfold Pass.act
    dsimp only
    rw [Function.update_of_ne other.symm, Function.update_of_ne other, first, second, out,
      Function.update_comm other]

theorem Pass.foldl_stage (s : Pass ι K) {i : ι} (other : i ∉ names) :
    (names.foldl (Pass.act cfg) s).stage i = s.stage i := by
  induction names generalizing s with
  | nil => rfl
  | cons j names ih =>
    obtain ⟨differs, others⟩ := not_or.mp (List.mem_cons.not.mp other)
    rw [List.foldl_cons, ih _ others]
    exact Function.update_of_ne differs _ _

theorem Pass.foldl_kin (s : Pass ι K) (i : ι) :
    Kin ((names.foldl (Pass.act cfg) s).stage i) (s.stage i) := by
  induction names generalizing s with
  | nil => exact .refl _
  | cons j names ih => exact (ih _).trans (s.kin_act j i)

theorem runStages_eq_foldl (nodup : names.Nodup) (s : Pass ι K) :
    runStages cfg (names.map s.stage) s.frame =
      (names.map (names.foldl (Pass.act cfg) s).stage, (names.foldl (Pass.act cfg) s).frame) := by
  induction names generalizing s with
  | nil => rfl
  | cons i names ih =>
    obtain ⟨fresh, nodup⟩ := List.nodup_cons.mp nodup
    have rest : names.map s.stage = names.map (s.act cfg i).stage := by
      refine List.map_congr_left fun j listed => ?_
      have other : j ≠ i := fun same => fresh (same ▸ listed)
      exact (Function.update_of_ne other _ _).symm
    have head : (names.foldl (Pass.act cfg) (s.act cfg i)).stage i =
        ((s.stage i).process s.frame cfg).1 := by
      rw [Pass.foldl_stage _ fresh]
      exact Function.update_self _ _ _
    have later := ih nodup (s.act cfg i)
    rw [List.map_cons, runStages, rest, List.foldl_cons, List.map_cons, head]
    change (_ :: (runStages cfg _ (s.act cfg i).frame).1,
      (runStages cfg _ (s.act cfg i).frame).2) = _
    rw [later]

theorem foldl_act_eq (nodup : names.Nodup) (perm : names.Perm names') (s : Pass ι K)
    (keeps : Keeps (Apart s.stage) names names') :
    names.foldl (Pass.act cfg) s = names'.foldl (Pass.act cfg) s := by
  have exchanged := exchanged_of_keeps nodup perm keeps
  -- the declarations of the stages stay those at the start of the pass
  refine exchanged.foldl (fun t => ∀ i, Kin (t.stage i) (s.stage i)) ?_ ?_ fun i => .refl _
  · intro t i kin j
    exact (t.kin_act i j).trans (kin j)
  · intro t i j kin apart
    apply t.act_comm
    rwa [apart_congr kin]

/-! ### Runs -/

variable {p q : Pipeline K}

theorem Rearranged.process (h : Rearranged names names' p q) (nodup : names.Nodup)
    (perm : names.Perm names') (frame : AnalysisFrame K) (cfg : Settings K) (clock : Clock) :
    Rearranged names names' (p.process frame cfg clock).1 (q.process frame cfg clock).1 ∧
      (p.process frame cfg clock).2 = (q.process frame cfg clock).2 := by
  obtain ⟨stage, hp, hq, keeps⟩ := h
  let start : Pass ι K := ⟨stage, frame⟩
  have ran : runStages cfg p.stages frame = _ := hp ▸ runStages_eq_foldl nodup start
  have ran' : runStages cfg q.stages frame = _ :=
    hq ▸ runStages_eq_foldl (perm.nodup_iff.mp nodup) start
  rw [← foldl_act_eq nodup perm start keeps] at ran'
  rw [Pipeline.process, Pipeline.process, ran, ran']
  refine ⟨⟨_, rfl, rfl, ?_⟩, rfl⟩
  rwa [apart_congr fun i => start.foldl_kin i]

omit [LinearOrder K] [FloorRing K] [Cmath K] [KissFft K] [DecidableEq ι] in
theorem Rearranged.reset (h : Rearranged names names' p q) :
    Rearranged names names' p.reset q.reset := by
  obtain ⟨stage, hp, hq, keeps⟩ := h
  refine ⟨fun i => (stage i).reset, ?_, ?_, ?_⟩
  · rw [Pipeline.reset, hp, List.map_map]
    rfl
  · rw [Pipeline.reset, hq, List.map_map]
    rfl
  · rwa [apart_congr fun i => kin_reset (stage i)]

theorem Rearranged.run (h : Rearranged names names' p q) (nodup : names.Nodup)
    (perm : names.Perm names') (calls : List (PipelineCall K)) :
    Rearranged names names' (p.after calls) (q.after calls) ∧
      p.outputs calls = q.outputs calls := by
  induction calls generalizing p q with
  | nil => exact ⟨h, rfl⟩
  | cons call calls ih =>
    cases call with
    | process frame cfg clock =>
      obtain ⟨h', out⟩ := h.process nodup perm frame cfg clock
      obtain ⟨h'', outs⟩ := ih h'
      refine ⟨h'', ?_⟩
      rw [Pipeline.outputs, Pipeline.outputs, serve, serve, outs, out]
    | reset => exact ih h.reset

/-- Stages in any order that differs only in pairs whose declarations have nothing in common:
`validate` accepts both pipelines or neither, every frame leaves both the same over any calls,
and every stage is left in the same state. -/
theorem rearranged_pipelines_agree (nodup : names.Nodup) (perm : names.Perm names')
    (h : Rearranged names names' p q) :
    (p.validate = "" ↔ q.validate = "") ∧ ∀ calls, p.outputs calls = q.outputs calls ∧
      ∃ stage : ι → IDspStage K, (p.after calls).stages = names.map stage ∧
        (q.after calls).stages = names'.map stage := by
  constructor
  · obtain ⟨stage, hp, hq, keeps⟩ := h
    rw [validate, validate, validateFrom_eq_empty_iff, validateFrom_eq_empty_iff, hp, hq]
    exact ordered_exchanged (exchanged_of_keeps nodup perm keeps) _
  · intro calls
    obtain ⟨⟨stage, hp, hq, -⟩, outs⟩ := h.run nodup perm calls
    exact ⟨outs, stage, hp, hq⟩

/-- The composed stages by their places. -/
def composedStage (i : ℕ) : IDspStage K :=
  (ComposedStages.initial : ComposedStages K).stages.getD i .logBoost

/-- Every stage as early as what it reads allows, the loudness first. -/
def eager : List ℕ := [12, 11, 1, 0, 10, 7, 6, 2, 8, 3, 4, 5, 9]

theorem eager_keeps : Keeps (Apart (composedStage : ℕ → IDspStage ℝ)) (List.range 13) eager := by
  have pairs : ∀ a ∈ List.range 13, ∀ b ∈ List.range 13, a < b →
      ((∀ i ∈ (composedStage a : IDspStage ℝ).writes, i ∉ (composedStage b : IDspStage ℝ).reads ++
        (composedStage b : IDspStage ℝ).writes) ∧
       ∀ i ∈ (composedStage b : IDspStage ℝ).writes, i ∉ (composedStage a : IDspStage ℝ).reads ++
        (composedStage a : IDspStage ℝ).writes) ∨ [a, b].Sublist eager := by
    decide
  intro a b pair dependent
  have before : a < b := List.pairwise_iff_forall_sublist.mp List.pairwise_lt_range pair
  have listed := pair.subset (List.mem_cons_self (l := [b]))
  have listed' := pair.subset (List.mem_cons_of_mem a (List.mem_singleton_self b))
  exact (pairs a listed b listed' before).resolve_left fun apart => dependent ⟨apart.1, apart.2⟩

theorem eager_pipeline_agrees :
    ((eager.map composedStage).foldl Pipeline.add Pipeline.empty : Pipeline ℝ).validate = "" ∧
      ∀ calls, (composePipeline : Pipeline ℝ).outputs calls =
        ((eager.map composedStage).foldl Pipeline.add Pipeline.empty).outputs calls := by
  have rearranged : Rearranged (List.range 13) eager (composePipeline : Pipeline ℝ)
      ((eager.map composedStage).foldl Pipeline.add Pipeline.empty) :=
    ⟨composedStage, rfl, rfl, eager_keeps⟩
  obtain ⟨accepted, runs⟩ := rearranged_pipelines_agree List.nodup_range (by decide) rearranged
  exact ⟨accepted.mp rfl, fun calls => (runs calls).1⟩

end Listeningway.Dsp.Pipeline
