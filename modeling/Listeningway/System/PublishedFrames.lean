/- Listeningway/System/PublishedFrames
   source: src/audio/pipeline/audio_system.cpp
   digest: Every snapshot the AudioSystem publishes is zero or one processed frame. -/

import Listeningway.Dsp.BandPath
import Listeningway.System.Forgetting

set_option autoImplicit false
set_option relaxedAutoImplicit false

namespace Listeningway.System.PublishedFrames

open Listeningway.Config
open Listeningway.Dsp
open Listeningway.Lib.Machine
open Listeningway.Ring.FrameRing (FrameChunk)
open Listeningway.Snapshot
open Listeningway.Source.AudioSource
open Listeningway.System.AudioSystem
open Listeningway.System.AudioSystemRuns
open Listeningway.System.DspThread
open Listeningway.System.Lifecycle (Effect)

variable {K : Type} [Field K] [LinearOrder K] [FloorRing K] [Cmath K] [KissFft K]

/-- The settings an iteration in this state works with. -/
def settingsOf (s : State K) : Settings K := s.control.refresh.cachedSettings

/-- The chunk as the frame that is handed to the pipeline. -/
def frameOf (s : State K) (tick : Tick) (chunk : FrameChunk K) : AnalysisFrame K :=
  AnalysisFrame.ofChunk chunk.samples chunk.format tick.capturedAt s.frameIndex

/-- The pass of an iteration. -/
def passOf (s : State K) (tick : Tick) (chunk : FrameChunk K) : Pipeline K × AnalysisFrame K :=
  s.pipeline.process (frameOf s tick chunk) (settingsOf s) tick.clock

/-- The snapshot of an iteration. -/
def shown (s : State K) (tick : Tick) (chunk : FrameChunk K) : AudioSnapshot K :=
  (s.histories.record
    (project (passOf s tick chunk).2 (passOf s tick chunk).1.profile)).2

variable [IsStrictOrderedRing K]

/-- Somewhere in the run of `as`, an iteration in state `s` takes `chunk` through all
stages. -/
structure Handles (sources : List Info) (as : List (Act K)) (s : State K) (tick : Tick)
    (chunk : FrameChunk K) : Prop where
  reached : ∃ before after os, as = before ++ .iterate tick :: after ∧
    run (step sources) AudioSystem.initial before = some (s, os)
  alive : (s.control.guarded.joinable && s.control.guarded.dspRunning) = true
  next : s.queue.head? = some chunk
  unbroken : tick.fails = none

variable {sources : List Info} {as : List (Act K)} {s t : State K} {os o : List (Event K)}
  {tick : Tick} {chunk : FrameChunk K} {snap : AudioSnapshot K}

theorem Handles.composed (h : Handles sources as s tick chunk) : s.pipeline.Composed := by
  obtain ⟨_, _, _, -, reached⟩ := h.reached
  exact (inv_run reached).composed

omit [FloorRing K] [Cmath K] [KissFft K] in
theorem published_of_call {now : TimePoint} {s : State K} {es : List Effect}
    (h : .published snap ∈ (call now s es).2) : snap = zeroAt now := by
  induction es generalizing s with
  | nil => exact absurd h List.not_mem_nil
  | cons e es ih =>
    rcases List.mem_append.mp h with first | rest
    · cases e <;> simp [AudioSystem.effect] at first
      exact first
    · exact ih rest

theorem published_of_step {a : Act K} (hs : step sources s a = some (t, o))
    (h : .published snap ∈ o) :
    (∃ now, snap = zeroAt now) ∨ ∃ tick chunk, a = .iterate tick ∧
      (s.control.guarded.joinable && s.control.guarded.dspRunning) = true ∧
      s.queue.head? = some chunk ∧ tick.fails = none ∧ snap = shown s tick chunk := by
  cases a with
  | push source chunk =>
    simp only [step, push] at hs
    split_ifs at hs
    all_goals
      obtain ⟨-, rfl⟩ := Prod.mk.inj (Option.some.inj hs)
      exact absurd h List.not_mem_nil
  | iterate tick =>
    simp only [step, iterate] at hs
    split_ifs at hs with alive
    cases queue : s.queue with
    | nil =>
      simp only [queue] at hs
      obtain ⟨-, rfl⟩ := Prod.mk.inj (Option.some.inj hs)
      exact absurd h List.not_mem_nil
    | cons chunk rest =>
      simp only [queue] at hs
      cases fails : tick.fails with
      | some k =>
        simp only [fails] at hs
        obtain ⟨-, rfl⟩ := Prod.mk.inj (Option.some.inj hs)
        exact absurd h List.not_mem_nil
      | none =>
        simp only [fails] at hs
        obtain ⟨-, rfl⟩ := Prod.mk.inj (Option.some.inj hs)
        have same := List.mem_singleton.mp h
        injection same with same
        exact .inr ⟨tick, chunk, rfl, alive, by rw [List.head?_cons], fails, same⟩
  | publish settings =>
    obtain ⟨-, rfl⟩ := Prod.mk.inj (Option.some.inj hs)
    exact absurd h List.not_mem_nil
  | start out now
  | stop now
  | switchSource code out now =>
    obtain rfl := congrArg Prod.snd (Option.some.inj hs)
    exact .inl ⟨now, published_of_call h⟩

theorem step_of_handles (h : Handles sources as s tick chunk) :
    ∃ t, step sources s (.iterate tick) = some (t, [.published (shown s tick chunk)]) := by
  cases queue : s.queue with
  | nil => simpa [queue] using h.next
  | cons first rest =>
    have same : first = chunk := by simpa [queue] using h.next
    rw [← same, step, iterate, if_pos h.alive]
    simp only [queue, h.unbroken]
    exact ⟨_, rfl⟩

theorem published_of_handles (h : run (step sources) AudioSystem.initial as = some (t, os))
    (handled : Handles sources as s tick chunk) : .published (shown s tick chunk) ∈ os := by
  obtain ⟨before, after, os₁, rfl, reached⟩ := handled.reached
  obtain ⟨u, hit⟩ := step_of_handles handled
  obtain ⟨s', _, _, hs', hrest, rfl⟩ := run_append_iff.mp h
  obtain ⟨rfl, rfl⟩ := Prod.mk.inj (Option.some.inj (reached.symm.trans hs'))
  obtain ⟨_, _, _, first, -, rfl⟩ := run_cons_iff.mp hrest
  obtain ⟨rfl, rfl⟩ := Prod.mk.inj (Option.some.inj (hit.symm.trans first))
  simp

theorem all_published_iff {P : AudioSnapshot K → Prop} (zero : ∀ now, P (zeroAt now))
    (h : run (step sources) AudioSystem.initial as = some (t, os)) :
    (∀ snap, .published snap ∈ os → P snap) ↔
      ∀ s tick chunk, Handles sources as s tick chunk → P (shown s tick chunk) := by
  constructor
  · intro all s tick chunk handled
    exact all _ (published_of_handles h handled)
  · intro all snap shows
    obtain ⟨front, back, rfl⟩ := List.append_of_mem shows
    obtain ⟨before, a, after, s, u, os₁, o₁, o₂, os₂, rfl, reached, hit, -⟩ := run_emitted h
    have emitted : Event.published snap ∈ o₁ ++ .published snap :: o₂ := by simp
    rcases published_of_step hit emitted with ⟨now, rfl⟩ | ⟨tick, chunk, rfl, alive, next,
      unbroken, rfl⟩
    · exact zero now
    · exact all s tick chunk ⟨⟨before, after, os₁, rfl, reached⟩, alive, next, unbroken⟩

/-! ### A run with one frame, over the reals -/

open Listeningway.System.Forgetting (systemAndOff allStart)

/-- New settings, and a chunk that waits for the DSP thread. -/
noncomputable def framed (cfg : Settings ℝ) (chunk : FrameChunk ℝ) : List (Act ℝ) :=
  [.start allStart 0, .publish cfg, .push 0 chunk]

/-- The iteration that takes it. -/
def wholePass : Tick := ⟨0, ⟨0, fun _ => 0, fun _ => 0, 0⟩, none⟩

theorem run_framed (cfg : Settings ℝ) (chunk : FrameChunk ℝ) :
    ∃ s : State ℝ,
      run (step systemAndOff) AudioSystem.initial (framed cfg chunk) =
        some (s, [.returned (some true)]) ∧
      ((s.control.guarded.joinable && s.control.guarded.dspRunning) = true ∧
        s.queue.head? = some chunk) ∧
      settingsOf s = cfg.clampInPlace ∧ s.pipeline = Pipeline.composePipeline :=
  ⟨_, rfl, ⟨rfl, rfl⟩, rfl, rfl⟩

theorem handles_framed (cfg : Settings ℝ) (chunk : FrameChunk ℝ) :
    ∃ (s t : State ℝ) (os : List (Event ℝ)),
      run (step systemAndOff) AudioSystem.initial (framed cfg chunk ++ [.iterate wholePass]) =
        some (t, os) ∧
      Handles systemAndOff (framed cfg chunk ++ [.iterate wholePass]) s wholePass chunk ∧
      settingsOf s = cfg.clampInPlace ∧ s.pipeline = Pipeline.composePipeline := by
  obtain ⟨s, before, ⟨alive, queue⟩, settings, pipeline⟩ := run_framed cfg chunk
  have handled : Handles systemAndOff (framed cfg chunk ++ [.iterate wholePass]) s wholePass
      chunk := ⟨⟨framed cfg chunk, [], _, rfl, before⟩, alive, queue, rfl⟩
  obtain ⟨t, last⟩ := step_of_handles handled
  exact ⟨s, t, _, run_snoc_iff.mpr ⟨s, _, _, before, last, rfl⟩, handled, settings, pipeline⟩

/-- The frame is the only one of the run. -/
theorem only_framed {cfg : Settings ℝ} {chunk other : FrameChunk ℝ} {s : State ℝ} {tick : Tick}
    (h : Handles systemAndOff (framed cfg chunk ++ [.iterate wholePass]) s tick other) :
    settingsOf s = cfg.clampInPlace := by
  obtain ⟨before, after, os, split, reached⟩ := h.reached
  obtain ⟨s₀, hit, -, settings, -⟩ := run_framed cfg chunk
  have front : before = framed cfg chunk := by
    rcases before with _ | ⟨a, _ | ⟨b, _ | ⟨c, _ | ⟨d, rest⟩⟩⟩⟩ <;> simp_all [framed]
  rw [front] at reached
  obtain ⟨rfl, -⟩ := Prod.mk.inj (Option.some.inj (hit.symm.trans reached))
  exact settings

end Listeningway.System.PublishedFrames
