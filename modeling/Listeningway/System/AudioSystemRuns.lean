/- Listeningway/System/AudioSystemRuns
   source: src/audio/pipeline/audio_system.cpp
   digest: What a call leaves alone, and the state of the AudioSystem between calls. -/

import Listeningway.Dsp.PipelineReset
import Listeningway.System.AudioSystem
import Listeningway.System.LifecycleRuns

set_option autoImplicit false
set_option relaxedAutoImplicit false

namespace Listeningway.System.AudioSystemRuns

open Listeningway.Config
open Listeningway.Dsp
open Listeningway.Lib.Machine
open Listeningway.Lib.Script
open Listeningway.Ring.FrameRing (FrameChunk)
open Listeningway.Snapshot
open Listeningway.Source.AudioSource
open Listeningway.System.AudioSystem
open Listeningway.System.DspThread
open Listeningway.System.Lifecycle (Effect Guarded startLocked stopLocked)
open Listeningway.System.LifecycleRuns (Resting Standing)

variable {K : Type} [Field K] [LinearOrder K] [IsStrictOrderedRing K]

/-! ### Calls -/

theorem call_append (now : TimePoint) (s : State K) (es fs : List Effect) :
    call now s (es ++ fs) =
      ((call now (call now s es).1 fs).1,
        (call now s es).2 ++ (call now (call now s es).1 fs).2) := by
  induction es generalizing s with
  | nil => rfl
  | cons e es ih =>
    simp only [List.cons_append, call, ih, List.append_assoc]

theorem call_control (now : TimePoint) (s : State K) (es : List Effect) :
    (call now s es).1.control = es.foldl Control.effect s.control := by
  induction es generalizing s with
  | nil => rfl
  | cons e es ih => exact ih _

theorem effect_guarded (c : Control K) (e : Effect) :
    (c.effect e).guarded = c.guarded.exec e := by
  cases e <;> rfl

theorem foldl_guarded (c : Control K) (es : List Effect) :
    (es.foldl Control.effect c).guarded = es.foldl Guarded.exec c.guarded := by
  induction es generalizing c with
  | nil => rfl
  | cons e es ih => rw [List.foldl_cons, List.foldl_cons, ih, effect_guarded]

theorem call_rings (now : TimePoint) (s : State K) (es : List Effect) :
    (call now s es).1.queue = s.queue ∧ (call now s es).1.histories = s.histories := by
  induction es generalizing s with
  | nil => exact ⟨rfl, rfl⟩
  | cons e es ih => exact ih _

theorem call_keeps_pipeline (now : TimePoint) (s : State K) {es : List Effect}
    (h : .resetPipeline ∉ es) : (call now s es).1.pipeline = s.pipeline := by
  induction es generalizing s with
  | nil => rfl
  | cons e es ih =>
    rw [List.mem_cons, not_or] at h
    exact (ih _ h.2).trans (if_neg (Ne.symm h.1))

theorem start_locked_keeps (sources : List Info) (code : String) (out : Outcomes) :
    .resetPipeline ∉ startLocked sources code out ∧
      .publishZero ∉ startLocked sources code out := by
  cases hs : Lifecycle.selectSource sources code out with
  | none => simp [startLocked, hs]
  | some i =>
    cases ho : out.opened i <;> cases hok : out.started i <;> simp [startLocked, hs, ho, hok]

theorem start_keeps (sources : List Info) (g : Guarded) (code : String) (out : Outcomes) :
    .resetPipeline ∉ Lifecycle.start sources g code out ∧
      .publishZero ∉ Lifecycle.start sources g code out := by
  unfold Lifecycle.start
  split_ifs
  · simp
  · exact start_locked_keeps sources code out

theorem call_stopLocked_pipeline (now : TimePoint) (s : State K) {g : Guarded}
    (on : g.state ≠ .off) : (call now s (stopLocked g)).1.pipeline = s.pipeline.reset := by
  rw [stopLocked, if_neg on]
  cases g.current <;> rfl

/-! ### The invariant between calls -/

section Invariant

variable [Cmath K] [KissFft K] {s : State K}

/-- A pipeline as `Pipeline::reset` leaves it. -/
def Rested (p : Pipeline K) : Prop := ∃ q : Pipeline K, q.Composed ∧ p.stages = q.reset.stages

structure Inv (s : State K) : Prop where
  standing : Standing s.control.guarded
  resting : Resting s.control.guarded
  composed : s.pipeline.Composed
  rested : s.control.guarded.state = .off → Rested s.pipeline

theorem inv_initial : Inv (AudioSystem.initial : State K) where
  standing := LifecycleRuns.inv_initial.disciplined.1
  resting := LifecycleRuns.inv_initial.disciplined.2
  composed := Pipeline.composed_initial
  rested _ := ⟨Pipeline.composePipeline, Pipeline.composed_initial,
    Pipeline.reset_composePipeline_stages.symm⟩

theorem call_composed (now : TimePoint) {s : State K} (h : s.pipeline.Composed)
    (es : List Effect) : (call now s es).1.pipeline.Composed := by
  induction es generalizing s with
  | nil => exact h
  | cons e es ih =>
    have next : (effect now s e).1.pipeline.Composed := by
      by_cases reset : e = .resetPipeline
      · simpa [effect, reset] using h.reset
      · simpa [effect, reset] using h
    exact ih next

theorem stopped_rested (now : TimePoint) (inv : Inv s) {fs : List Effect}
    (later : .resetPipeline ∉ fs) :
    Rested (call now s (stopLocked s.control.guarded ++ fs)).1.pipeline := by
  rw [call_append, call_keeps_pipeline now _ later]
  by_cases off : s.control.guarded.state = .off
  · rw [stopLocked, if_pos off]
    exact inv.rested off
  · rw [call_stopLocked_pipeline now s off]
    exact ⟨s.pipeline, inv.composed, rfl⟩

/-- The calls that go through `stop_locked`. -/
inductive Stops : Act K → Prop
  | stop (now : TimePoint) : Stops (.stop now)
  | switchSource (code : String) (out : Outcomes) (now : TimePoint) :
    Stops (.switchSource code out now)

theorem script_rested {sources : List Info} {a : Act K} (now : TimePoint) (inv : Inv s)
    (stops : Stops a) : Rested (call now s (s.control.script sources a)).1.pipeline := by
  cases stops with
  | stop => exact stopped_rested now inv (by simp)
  | switchSource code out =>
    rw [Control.script, Lifecycle.switchSource, List.append_assoc]
    refine stopped_rested now inv fun again => ?_
    rcases List.mem_append.mp again with store | start
    · simp at store
    · exact (start_locked_keeps _ _ _).1 start

private theorem inv_call (now : TimePoint) (inv : Inv s) {es : List Effect}
    (disciplined : LifecycleRuns.Disciplined Resting s.control.guarded es)
    (rested : (call now s es).1.control.guarded.state = .off →
      Rested (call now s es).1.pipeline) : Inv (call now s es).1 := by
  obtain ⟨standing, resting⟩ := meets_end disciplined
  have guarded : (call now s es).1.control.guarded = es.foldl Guarded.exec s.control.guarded := by
    rw [call_control, foldl_guarded]
  constructor
  · rwa [guarded]
  · rwa [guarded]
  · exact call_composed now inv.composed es
  · exact rested

end Invariant

/-! ### One step -/

section Machine

variable [FloorRing K] [Cmath K] [KissFft K] {sources : List Info} {s s' t t' : State K}
  {a : Act K} {o o' : List (Event K)}

theorem step_control (hs : step sources s a = some (t, o)) :
    t.control = s.control.next sources a := by
  cases a with
  | push source chunk =>
    simp only [step, push] at hs
    split_ifs at hs
    all_goals
      obtain ⟨rfl, -⟩ := Prod.mk.inj (Option.some.inj hs)
      rfl
  | iterate tick =>
    simp only [step, iterate] at hs
    split_ifs at hs
    split at hs
    · obtain ⟨rfl, -⟩ := Prod.mk.inj (Option.some.inj hs)
      rfl
    · split at hs
      all_goals
        obtain ⟨rfl, -⟩ := Prod.mk.inj (Option.some.inj hs)
        rfl
  | publish settings =>
    obtain ⟨rfl, -⟩ := Prod.mk.inj (Option.some.inj hs)
    rfl
  | start out now
  | stop now
  | switchSource code out now =>
    obtain rfl := congrArg Prod.fst (Option.some.inj hs)
    exact call_control _ _ _

/-- Outside Off the guarded fields move in `stop_locked` only, or right after it. -/
theorem guarded_step (hs : step sources s a = some (t, o)) (going : ¬ Stops a)
    (on : s.control.guarded.state ≠ .off) : t.control.guarded = s.control.guarded := by
  rw [step_control hs]
  cases a with
  | push source chunk => rfl
  | iterate tick => exact Control.refresh_guarded _
  | publish settings => rfl
  | start out now =>
    change ((s.control.script sources (.start out now)).foldl Control.effect s.control).guarded = _
    rw [foldl_guarded, Control.script, Lifecycle.start, if_pos on]
    rfl
  | stop now => exact absurd (.stop now) going
  | switchSource code out now => exact absurd (.switchSource code out now) going

theorem off_before (hs : step sources s a = some (t, o)) (going : ¬ Stops a)
    (off : t.control.guarded.state = .off) : s.control.guarded.state = .off := by
  by_contra on
  rw [guarded_step hs going on] at off
  exact on off

theorem keep (inv : Inv s) (hs : step sources s a = some (t, o)) : Inv t := by
  cases a with
  | push source chunk =>
    simp only [step, push] at hs
    split_ifs at hs
    all_goals
      obtain ⟨rfl, -⟩ := Prod.mk.inj (Option.some.inj hs)
      exact ⟨inv.standing, inv.resting, inv.composed, inv.rested⟩
  | iterate tick =>
    have guarded : t.control.guarded = s.control.guarded := by
      rw [step_control hs, Control.next, Control.refresh_guarded]
    simp only [step, iterate] at hs
    split_ifs at hs with alive
    have running := inv.resting.joinable.mp (Bool.and_eq_true_iff.mp alive).1
    have composed : t.pipeline.Composed := by
      split at hs
      · obtain ⟨rfl, -⟩ := Prod.mk.inj (Option.some.inj hs)
        exact inv.composed
      · split at hs
        · obtain ⟨rfl, -⟩ := Prod.mk.inj (Option.some.inj hs)
          exact inv.composed.processUntil _ _ _ _
        · obtain ⟨rfl, -⟩ := Prod.mk.inj (Option.some.inj hs)
          exact inv.composed.process _ _ _
    refine ⟨by rw [guarded]; exact inv.standing, by rw [guarded]; exact inv.resting, composed, ?_⟩
    intro off
    rw [guarded, running] at off
    cases off
  | publish settings =>
    obtain ⟨rfl, -⟩ := Prod.mk.inj (Option.some.inj hs)
    exact ⟨inv.standing, inv.resting, inv.composed, inv.rested⟩
  | start out now =>
    obtain rfl := congrArg Prod.fst (Option.some.inj hs)
    refine inv_call now inv (LifecycleRuns.start_disciplined inv.standing inv.resting _ _ _)
      fun off => ?_
    by_cases before : s.control.guarded.state = .off
    · rw [Control.script, call_keeps_pipeline now s (start_keeps _ _ _ _).1]
      exact inv.rested before
    · exact absurd (off_before hs (by rintro ⟨⟩) off) before
  | stop now =>
    obtain rfl := congrArg Prod.fst (Option.some.inj hs)
    exact inv_call now inv (LifecycleRuns.stop_disciplined inv.standing inv.resting)
      fun _ => script_rested now inv (.stop now)
  | switchSource code out now =>
    obtain rfl := congrArg Prod.fst (Option.some.inj hs)
    exact inv_call now inv
      (LifecycleRuns.switch_source_disciplined inv.standing inv.resting _ _ _ _ _)
      fun _ => script_rested now inv (.switchSource code out now)

theorem inv_run {as : List (Act K)} {os : List (Event K)}
    (h : run (step sources) AudioSystem.initial as = some (s, os)) : Inv s :=
  run_invariant Inv inv_initial (fun _ _ _ _ inv hs => keep inv hs) h

end Machine

end Listeningway.System.AudioSystemRuns
