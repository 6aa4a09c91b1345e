/- Listeningway/System/Forgetting
   source: src/audio/pipeline/audio_system.cpp; src/audio/ring/frame_ring.h;
     src/audio/source/off_source.h
   digest: What of the old audio outlives stop and switch_source, and what it changes. -/

import Listeningway.Dsp.BandPath
import Listeningway.System.AudioSystemRuns

/-!
`stop_locked` resets the pipeline. It does not drain the ring, it does not clear the
history rings, and DirectionalStage has no reset. Two runs with the same calls but
different audio are compared from the call on: what they show afterwards can differ
through these three leftovers only.
-/

set_option autoImplicit false
set_option relaxedAutoImplicit false

namespace Listeningway.System.Forgetting

open Listeningway.Config
open Listeningway.Dsp
open Listeningway.Lib.Machine
open Listeningway.Ring.FrameRing (FrameChunk)
open Listeningway.Snapshot
open Listeningway.Source.AudioSource
open Listeningway.System.AudioSystem
open Listeningway.System.AudioSystemRuns
open Listeningway.System.DspThread
open Listeningway.System.Lifecycle (Effect findSource startLocked stopLocked)

variable {K : Type} [Field K] [LinearOrder K]

/-! ### What an observer compares -/

/-- A snapshot with `frame_index` and the timings put aside. -/
def untimed (snap : AudioSnapshot K) : AudioSnapshot K :=
  { snap with frameIndex := 0, stageTimings := fun _ => ⟨"", 0⟩, pipelineMicros := 0 }

inductive SameEvent : Event K → Event K → Prop
  | published {a b : AudioSnapshot K} (same : untimed a = untimed b) :
    SameEvent (.published a) (.published b)
  | returned (result : Option Bool) : SameEvent (.returned result) (.returned result)

omit [LinearOrder K] in
theorem SameEvent.refl (e : Event K) : SameEvent e e := by
  cases e with
  | published snap => exact .published rfl
  | returned result => exact .returned result

/-- The labels without the pushed chunks. -/
def withoutAudio (as : List (Act K)) : List (Act K) :=
  as.filter fun
    | .push _ _ => false
    | _ => true

/-- What `stop_locked` leaves behind: the queued chunks, the history rings as the next
frame finds them, and the smoothed direction buckets. -/
structure SameLeftovers (s s' : State K) : Prop where
  queue : s.queue = s'.queue
  histories : ∀ snap, s.histories.push snap = s'.histories.push snap
  directions : s.pipeline.directions = s'.pipeline.directions

/-- No continuation tells the two states apart. -/
structure Alike [Cmath K] [KissFft K] (s s' : State K) : Prop where
  control : s.control = s'.control
  queue : s.queue = s'.queue
  histories : ∀ snap, s.histories.push snap = s'.histories.push snap
  pipeline : s.pipeline.Alike s'.pipeline

omit [LinearOrder K] in
theorem untimed_record {h h' : Histories K} (same : ∀ snap, h.push snap = h'.push snap)
    (frame : AnalysisFrame K) (n : ℕ) {p p' : Profile K} (count : p'.count = p.count) :
    untimed (h'.record (project (frame.renumber n) p')).2 =
      untimed (h.record (project frame p)).2 := by
  have pushed : h'.push (project (frame.renumber n) p') = h.push (project frame p) :=
    (same (project frame p)).symm
  rw [Histories.record, Histories.record, pushed]
  unfold untimed project
  rw [count]
  rfl

/-! ### Calls on two states -/

section Calls

variable [IsStrictOrderedRing K]

theorem call_events (now : TimePoint) (s s' : State K) (es : List Effect) :
    (call now s es).2 = (call now s' es).2 := by
  induction es generalizing s s' with
  | nil => rfl
  | cons e es ih => exact congrArg ((effect now s e).2 ++ ·) (ih _ _)

theorem call_directions (now : TimePoint) (s : State K) (es : List Effect) :
    (call now s es).1.pipeline.directions = s.pipeline.directions := by
  induction es generalizing s with
  | nil => rfl
  | cons e es ih =>
    have first : (effect now s e).1.pipeline.directions = s.pipeline.directions := by
      by_cases reset : e = .resetPipeline
      · simp [effect, reset]
      · simp [effect, reset]
    exact (ih _).trans first

variable [Cmath K] [KissFft K] {s s' : State K}

theorem call_alike (now : TimePoint) (h : Alike s s') (es : List Effect) :
    Alike (call now s es).1 (call now s' es).1 := by
  induction es generalizing s s' with
  | nil => exact h
  | cons e es ih =>
    have first : Alike (effect now s e).1 (effect now s' e).1 := by
      refine ⟨congrArg (·.effect e) h.control, h.queue, h.histories, ?_⟩
      by_cases reset : e = .resetPipeline
      · simpa [effect, reset] using h.pipeline.reset
      · simpa [effect, reset] using h.pipeline
    exact ih first

omit [LinearOrder K] [IsStrictOrderedRing K] in
theorem rested_alike {p q : Pipeline K} (hp : Rested p) (hq : Rested q)
    (same : p.directions = q.directions) : p.Alike q := by
  obtain ⟨p', composed, stages⟩ := hp
  obtain ⟨q', composed', stages'⟩ := hq
  have before : p'.directions = q'.directions := by
    rw [← p'.directions_reset, ← q'.directions_reset, Pipeline.directions, Pipeline.directions,
      ← stages, ← stages']
    exact same
  rw [Pipeline.Alike, stages, stages']
  exact composed.alike_reset composed' before

theorem stopped_alike {sources : List Info} {a : Act K} (stops : Stops a) (now : TimePoint)
    (inv : Inv s) (inv' : Inv s') (control : s.control = s'.control)
    (left : SameLeftovers s s') :
    Alike (call now s (s.control.script sources a)).1
      (call now s' (s'.control.script sources a)).1 := by
  constructor
  · rw [call_control, call_control, control]
  · rw [(call_rings now s _).1, (call_rings now s' _).1, left.queue]
  · rw [(call_rings now s _).2, (call_rings now s' _).2]
    exact left.histories
  · refine rested_alike (script_rested now inv stops) (script_rested now inv' stops) ?_
    rw [call_directions, call_directions, left.directions]

end Calls

/-! ### Two runs -/

section Runs

variable [IsStrictOrderedRing K] [FloorRing K] [Cmath K] [KissFft K] {sources : List Info}
  {s s' t : State K} {a : Act K} {o : List (Event K)}

omit [IsStrictOrderedRing K] in
theorem iterate_alike (h : Alike s s') {tick : Tick} (hs : iterate s tick = some (t, o)) :
    ∃ t' o', iterate s' tick = some (t', o') ∧ Alike t t' ∧ List.Forall₂ SameEvent o o' := by
  obtain ⟨control, queue, p, h, n⟩ := s
  obtain ⟨control', queue', p', h', n'⟩ := s'
  obtain ⟨rfl, rfl, histories, pipeline⟩ := h
  simp only [iterate] at hs ⊢
  split_ifs at hs ⊢ with alive
  cases queue with
  | nil =>
    obtain ⟨rfl, rfl⟩ := Prod.mk.inj (Option.some.inj hs)
    exact ⟨_, _, rfl, ⟨rfl, rfl, histories, pipeline⟩, .nil⟩
  | cons chunk queue =>
    dsimp only at hs ⊢
    have renumbered : AnalysisFrame.ofChunk chunk.samples chunk.format tick.capturedAt n' =
      (AnalysisFrame.ofChunk chunk.samples chunk.format tick.capturedAt n).renumber n' := rfl
    rw [renumbered]
    -- The two passes differ in the number of the frame alone.
    generalize AnalysisFrame.ofChunk chunk.samples chunk.format tick.capturedAt n = frame at hs ⊢
    cases hf : tick.fails with
    | some k =>
      rw [hf] at hs
      obtain ⟨rfl, rfl⟩ := Prod.mk.inj (Option.some.inj hs)
      refine ⟨_, _, rfl, ⟨rfl, rfl, histories, ?_⟩, .nil⟩
      rw [Pipeline.processUntil_renumber]
      exact pipeline.processUntil k frame _ tick.clock
    | none =>
      rw [hf] at hs
      obtain ⟨rfl, rfl⟩ := Prod.mk.inj (Option.some.inj hs)
      rw [Pipeline.process_renumber]
      obtain ⟨out, states⟩ := pipeline.process frame control.refresh.cachedSettings tick.clock
      have count := (List.Forall₂.length_eq states).symm
      dsimp only
      rw [← out]
      refine ⟨_, _, rfl, ⟨rfl, rfl, fun snap => ?_, states⟩, .cons (.published ?_) .nil⟩
      · exact congrArg (·.push snap) (histories _)
      · exact (untimed_record histories _ n' count).symm

theorem step_alike (h : Alike s s') (hs : step sources s a = some (t, o)) :
    ∃ t' o', step sources s' a = some (t', o') ∧ Alike t t' ∧ List.Forall₂ SameEvent o o' := by
  have called : ∀ now act, some (call now s (s.control.script sources act)) = some (t, o) →
      ∃ t' o', some (call now s' (s'.control.script sources act)) = some (t', o') ∧ Alike t t' ∧
        List.Forall₂ SameEvent o o' := by
    intro now act hs
    obtain ⟨rfl, rfl⟩ := Prod.mk.inj (Option.some.inj hs)
    rw [h.control]
    refine ⟨_, _, rfl, call_alike now h _, ?_⟩
    rw [call_events now s' s]
    exact List.forall₂_same.mpr fun e _ => .refl e
  cases a with
  | push source chunk =>
    obtain ⟨control, queue, p, h, n⟩ := s
    obtain ⟨control', queue', p', h', n'⟩ := s'
    obtain ⟨rfl, rfl, histories, pipeline⟩ := h
    simp only [step, push] at hs ⊢
    split_ifs at hs ⊢ with active room
    · obtain ⟨rfl, rfl⟩ := Prod.mk.inj (Option.some.inj hs)
      exact ⟨_, _, rfl, ⟨rfl, rfl, histories, pipeline⟩, .nil⟩
    · obtain ⟨rfl, rfl⟩ := Prod.mk.inj (Option.some.inj hs)
      exact ⟨_, _, rfl, ⟨rfl, rfl, histories, pipeline⟩, .nil⟩
  | iterate tick => exact iterate_alike h hs
  | publish settings =>
    obtain ⟨rfl, rfl⟩ := Prod.mk.inj (Option.some.inj hs)
    have control := congrArg (·.next sources (.publish settings)) h.control
    exact ⟨_, _, rfl, ⟨control, h.queue, h.histories, h.pipeline⟩, .nil⟩
  | start out now => exact called now _ hs
  | stop now => exact called now _ hs
  | switchSource code out now => exact called now _ hs

theorem run_alike {as : List (Act K)} (h : Alike s s')
    (hr : run (step sources) s as = some (t, o)) :
    ∃ t' o', run (step sources) s' as = some (t', o') ∧ Alike t t' ∧
      List.Forall₂ SameEvent o o' := by
  refine run_related Alike SameEvent ?_ h hr
  exact fun _ _ _ _ _ => step_alike

theorem run_control {as : List (Act K)} {os : List (Event K)}
    (h : run (step sources) s as = some (t, os)) :
    t.control = (withoutAudio as).foldl (Control.next sources) s.control := by
  induction as generalizing s os with
  | nil =>
    obtain ⟨rfl, -⟩ := Prod.mk.inj (Option.some.inj h)
    rfl
  | cons a as ih =>
    obtain ⟨m, o₁, o₂, hs, hr, -⟩ := run_cons_iff.mp h
    have first := step_control hs
    rw [ih hr, first]
    cases a <;> rfl

/-- A call through `stop_locked`, and everything after it, shows the same from both states. -/
def SameAfter (sources : List Info) (s s' : State K) (c : Act K) : Prop :=
  ∀ later t p, run (step sources) s (c :: later) = some (t, p) →
    ∃ t' p', run (step sources) s' (c :: later) = some (t', p') ∧ List.Forall₂ SameEvent p p'

theorem same_after_of_leftovers {before before' : List (Act K)} {os os' : List (Event K)}
    {c : Act K} (stops : Stops c) (same : withoutAudio before = withoutAudio before')
    (h : run (step sources) AudioSystem.initial before = some (s, os))
    (h' : run (step sources) AudioSystem.initial before' = some (s', os'))
    (left : SameLeftovers s s') : SameAfter sources s s' c := by
  have control : s.control = s'.control := by rw [run_control h, run_control h', same]
  have scripts : s'.control.script sources c = s.control.script sources c := by rw [control]
  intro later t p hrun
  obtain ⟨m, o₁, o₂, hs, hr, rfl⟩ := run_cons_iff.mp hrun
  -- Both calls have the same script, and only the leftovers are there to tell them apart.
  obtain ⟨now, enabled⟩ : ∃ now, ∀ s : State K,
      step sources s c = some (call now s (s.control.script sources c)) := by
    cases stops with
    | stop now => exact ⟨now, fun _ => rfl⟩
    | switchSource code out now => exact ⟨now, fun _ => rfl⟩
  rw [enabled] at hs
  obtain ⟨rfl, rfl⟩ := Prod.mk.inj (Option.some.inj hs)
  have alike : Alike (call now s (s.control.script sources c)).1
      (call now s' (s'.control.script sources c)).1 :=
    stopped_alike stops now (inv_run h) (inv_run h') control left
  obtain ⟨t', p', hr', -, rest⟩ := run_alike alike hr
  refine ⟨t', _, run_cons_iff.mpr ⟨_, _, _, enabled s', hr', rfl⟩, ?_⟩
  rw [scripts, call_events now s' s]
  exact List.rel_append (List.forall₂_same.mpr fun e _ => .refl e) rest

end Runs

/-! ### The last published snapshot -/

section Observed

/-- The snapshots among the events. -/
def published (os : List (Event K)) : List (AudioSnapshot K) :=
  os.filterMap fun
    | .published snap => some snap
    | .returned _ => none

/-- What the consumers read: the last published snapshot, `AudioSnapshot{}` before the first. -/
def observed (os : List (Event K)) : AudioSnapshot K :=
  (published os).getLast?.getD (AudioSnapshot.zero K)

/-- The consumers read a zero snapshot. -/
def Silent (os : List (Event K)) : Prop := ∃ now, observed os = zeroAt now

omit [Field K] [LinearOrder K] in
theorem published_append (os o : List (Event K)) :
    published (os ++ o) = published os ++ published o := by
  simp [published]

omit [LinearOrder K] in
theorem observed_append {os o : List (Event K)} (quiet : published o = []) :
    observed (os ++ o) = observed os := by
  rw [observed, published_append, quiet, List.append_nil, observed]

variable [IsStrictOrderedRing K]

theorem published_call (now : TimePoint) (s : State K) (es : List Effect) :
    published (call now s es).2 = List.replicate (es.count .publishZero) (zeroAt now) := by
  induction es generalizing s with
  | nil => rfl
  | cons e es ih =>
    rw [call, published_append, ih, List.count_cons]
    cases e <;> simp [effect, published, List.replicate_succ]

theorem silent_call {os : List (Event K)} (now : TimePoint) (s : State K) {es : List Effect}
    (h : Silent os ∨ .publishZero ∈ es) : Silent (os ++ (call now s es).2) := by
  by_cases zero : .publishZero ∈ es
  · obtain ⟨k, hk⟩ := Nat.exists_eq_succ_of_ne_zero
      (Nat.pos_iff_ne_zero.mp (List.count_pos_iff.mpr zero))
    refine ⟨now, ?_⟩
    rw [observed, published_append, published_call, hk, List.replicate_succ']
    simp
  · obtain ⟨at_, silent⟩ := h.resolve_right zero
    have quiet : published (call now s es).2 = [] := by
      rw [published_call, List.count_eq_zero.mpr zero, List.replicate_zero]
    exact ⟨at_, (observed_append quiet).trans silent⟩

variable [FloorRing K] [Cmath K] [KissFft K] {sources : List Info} {s t : State K} {a : Act K}
  {os o : List (Event K)}

theorem published_step (hs : step sources s a = some (t, o)) (going : ¬ Stops a)
    (idle : s.control.guarded.joinable = false ∨ s.queue = []) : published o = [] := by
  cases a with
  | push source chunk =>
    simp only [step, push] at hs
    split_ifs at hs <;> rw [← (Prod.mk.inj (Option.some.inj hs)).2] <;> rfl
  | iterate tick =>
    simp only [step, iterate] at hs
    split_ifs at hs with alive
    have empty : s.queue = [] := by
      refine idle.resolve_left fun down => ?_
      rw [down] at alive
      cases alive
    rw [empty] at hs
    rw [← (Prod.mk.inj (Option.some.inj hs)).2]
    rfl
  | publish settings =>
    rw [← (Prod.mk.inj (Option.some.inj hs)).2]
    rfl
  | start out now =>
    obtain rfl := congrArg Prod.snd (Option.some.inj hs)
    rw [published_call, Control.script, List.count_eq_zero.mpr (start_keeps _ _ _ _).2,
      List.replicate_zero]
  | stop now => exact absurd (.stop now) going
  | switchSource code out now => exact absurd (.switchSource code out now) going

theorem silent_stop (hs : step sources s a = some (t, o)) (stops : Stops a)
    (off : s.control.guarded.state = .off → Silent os) : Silent (os ++ o) := by
  have zero : Silent os ∨ .publishZero ∈ s.control.script sources a := by
    by_cases state : s.control.guarded.state = .off
    · exact .inl (off state)
    · right
      cases stops with
      | stop now => simp [Control.script, Lifecycle.stop, stopLocked, state]
      | switchSource code out now =>
        simp [Control.script, Lifecycle.switchSource, stopLocked, state]
  cases stops with
  | stop now =>
    obtain rfl := congrArg Prod.snd (Option.some.inj hs)
    exact silent_call now s zero
  | switchSource code out now =>
    obtain rfl := congrArg Prod.snd (Option.some.inj hs)
    exact silent_call now s zero

theorem silent_off {as : List (Act K)}
    (h : run (step sources) AudioSystem.initial as = some (s, os)) :
    s.control.guarded.state = .off → Silent os := by
  have both : Inv s ∧ (s.control.guarded.state = .off → Silent os) := by
    refine run_history
      (fun _ os (s : State K) => Inv s ∧ (s.control.guarded.state = .off → Silent os))
      ⟨inv_initial, fun _ => ⟨0, rfl⟩⟩ ?_ h
    rintro _ os s a t o ⟨inv, silent⟩ hs
    refine ⟨keep inv hs, fun off => ?_⟩
    by_cases stops : Stops a
    · exact silent_stop hs stops silent
    · have before := off_before hs stops off
      have down : s.control.guarded.joinable = false := by
        by_contra up
        have running := inv.resting.joinable.mp (by simpa using up)
        rw [before] at running
        cases running
      obtain ⟨now, zero⟩ := silent before
      exact ⟨now, (observed_append (published_step hs stops (.inl down))).trans zero⟩
  exact both.2

end Observed

/-! ### The Off source -/

section Off

variable [IsStrictOrderedRing K] {sources : List Info} {s t : State K}

theorem start_locked_true {code : String} {out : Outcomes}
    (h : .unlock (some true) ∈ startLocked sources code out) :
    ∃ i, Lifecycle.selectSource sources code out = some i ∧
      startLocked sources code out = [.setState .starting, .setCurrent (some i), .openSource i,
        .setDspRunning true, .spawnDsp, .startSource i true, .setState .running,
        .unlock (some true)] := by
  cases hs : Lifecycle.selectSource sources code out with
  | none => simp [startLocked, hs] at h
  | some i =>
    cases ho : out.opened i with
    | none => simp [startLocked, hs, ho] at h
    | some caps =>
      cases hok : out.started i with
      | false => simp [startLocked, hs, ho, hok] at h
      | true => exact ⟨i, rfl, by simp [startLocked, hs, ho, hok]⟩

theorem unlock_notMem_stopLocked (g : Lifecycle.Guarded) (r : Option Bool) :
    .unlock r ∉ stopLocked g := by
  unfold stopLocked
  split_ifs
  · simp
  · cases g.current <;> simp

theorem returned_mem {now : TimePoint} {s : State K} {es : List Effect} {r : Option Bool}
    (h : .returned r ∈ (call now s es).2) : .unlock r ∈ es := by
  induction es generalizing s with
  | nil => cases h
  | cons e es ih =>
    rcases List.mem_append.mp h with first | rest
    · cases e <;> simp [effect] at first
      rw [first]
      exact List.mem_cons_self
    · exact List.mem_cons_of_mem _ (ih rest)

variable [FloorRing K] [Cmath K] [KissFft K]

/-- The DSP thread runs, and no started source calls back. -/
structure Mute (sources : List Info) (s : State K) : Prop where
  running : s.control.guarded.state = .running
  alive : s.control.guarded.joinable = true ∧ s.control.guarded.dspRunning = true
  uncalled : ∀ i, s.control.guarded.startCalled i = true →
    ∀ info ∈ sources[i]?, info.activatesCapture = false

theorem mute_of_switch {i : ℕ} {out : Outcomes} {now : TimePoint} {o : List (Event K)}
    (inv : Inv s) (found : findSource sources "off" = some i)
    (registered : sources[i]? = some OffSource.info)
    (hs : step sources s (.switchSource "off" out now) = some (t, o))
    (ok : .returned (some true) ∈ o) : Mute sources t := by
  have inv' := keep inv hs
  obtain ⟨rfl, rfl⟩ := Prod.mk.inj (Option.some.inj hs)
  have last : .unlock (some true) ∈ startLocked sources "off" out := by
    rcases List.mem_append.mp (returned_mem ok) with front | last
    · rcases List.mem_append.mp front with stop | store
      · exact absurd stop (unlock_notMem_stopLocked _ _)
      · simp at store
    · exact last
  obtain ⟨j, selected, script⟩ := start_locked_true last
  have here : j = i := by
    rw [Lifecycle.selectSource, found] at selected
    exact (Option.some.inj selected).symm
  subst here
  have guarded :
      (call now s (s.control.script sources (.switchSource "off" out now))).1.control.guarded =
        (startLocked sources "off" out).foldl Lifecycle.Guarded.exec
          ((stopLocked s.control.guarded ++ [Effect.mutateCode "off", Effect.saveStore]).foldl
            Lifecycle.Guarded.exec s.control.guarded) := by
    rw [call_control, foldl_guarded, ← List.foldl_append]
    rfl
  rw [script] at guarded
  refine ⟨by rw [guarded]; rfl, by rw [guarded]; exact ⟨rfl, rfl⟩, ?_⟩
  intro k called info hinfo
  have current := inv'.standing.called k called
  rw [guarded] at current
  have here : j = k := Option.some.inj current
  rw [← here, registered] at hinfo
  rw [← Option.mem_some.mp hinfo]
  rfl

theorem mute_step {a : Act K} {o : List (Event K)} (h : Mute sources s)
    (hs : step sources s a = some (t, o)) (going : ¬ Stops a) (empty : s.queue = []) :
    Mute sources t ∧ t.queue = [] := by
  have on : s.control.guarded.state ≠ .off := by
    rw [h.running]
    exact nofun
  have guarded := guarded_step hs going on
  refine ⟨⟨by rw [guarded]; exact h.running, by rw [guarded]; exact h.alive,
    by rw [guarded]; exact h.uncalled⟩, ?_⟩
  cases a with
  | push source chunk =>
    simp only [step, push] at hs
    split_ifs at hs with active
    all_goals
      obtain ⟨called, info, hinfo, captures⟩ := active
      rw [h.uncalled source called info hinfo] at captures
      cases captures
  | iterate tick =>
    simp only [step, iterate] at hs
    split_ifs at hs
    rw [empty] at hs
    rw [← (Prod.mk.inj (Option.some.inj hs)).1]
  | publish settings =>
    rw [← (Prod.mk.inj (Option.some.inj hs)).1]
    exact empty
  | start out now =>
    rw [← (Prod.mk.inj (Option.some.inj hs)).1, (call_rings now s _).1, empty]
  | stop now => exact absurd (.stop now) going
  | switchSource code out now => exact absurd (.switchSource code out now) going

theorem mute_run {as : List (Act K)} {o : List (Event K)} (h : Mute sources s)
    (empty : s.queue = []) (going : ∀ a ∈ as, ¬ Stops a)
    (hr : run (step sources) s as = some (t, o)) : published o = [] := by
  induction as generalizing s o with
  | nil =>
    obtain ⟨-, rfl⟩ := Prod.mk.inj (Option.some.inj hr)
    rfl
  | cons a as ih =>
    obtain ⟨m, o₁, o₂, hs, rest, rfl⟩ := run_cons_iff.mp hr
    rw [List.forall_mem_cons] at going
    obtain ⟨mute, still⟩ := mute_step h hs going.1 empty
    rw [published_append, published_step hs going.1 (.inr empty), ih mute still going.2 rest]
    rfl

theorem queued_shows (inv : Inv s) (h : Mute sources s) (queued : s.queue ≠ []) :
    ∃ tick t snap, step sources s (.iterate tick) = some (t, [.published snap]) ∧
      snap.stageCount = 13 := by
  obtain ⟨chunk, queue, hq⟩ := List.exists_cons_of_ne_nil queued
  let clock : Clock := ⟨0, fun _ => 0, fun _ => 0, 0⟩
  let frame := AnalysisFrame.ofChunk chunk.samples chunk.format 0 s.frameIndex
  let cfg := s.control.refresh.cachedSettings
  have stages := (inv.composed.process frame cfg clock).kin.length_eq
  let out := s.pipeline.process frame cfg clock
  let record := s.histories.record (project out.2 out.1.profile)
  refine ⟨⟨0, clock, none⟩,
    ⟨s.control.refresh, queue, out.1, record.1, (s.frameIndex + 1) % 2 ^ 64⟩, record.2, ?_, ?_⟩
  · simp only [step, iterate]
    rw [if_pos (by rw [h.alive.1, h.alive.2]; rfl), hq]
  · change min out.1.stages.length kMaxStages = 13
    rw [stages, ComposedStages.composePipeline_stages]
    rfl

/-- A run that only differs in the audio before a call through `stop_locked` shows the
same afterwards when nothing different is left over; and after `switch_source("off")` the
consumers read zeros exactly when no chunk was queued. -/
theorem forgets_all_but_leftovers (sources : List Info) :
    (∀ (before before' : List (Act K)) (c : Act K) (s s' : State K) (os os' : List (Event K)),
      Stops c → withoutAudio before = withoutAudio before' →
      run (step sources) AudioSystem.initial before = some (s, os) →
      run (step sources) AudioSystem.initial before' = some (s', os') →
      SameLeftovers s s' → SameAfter sources s s' c) ∧
    ∀ (before : List (Act K)) (s t : State K) (os o : List (Event K)) (i : ℕ) (out : Outcomes)
      (now : TimePoint), run (step sources) AudioSystem.initial before = some (s, os) →
      findSource sources "off" = some i → sources[i]? = some OffSource.info →
      step sources s (.switchSource "off" out now) = some (t, o) → .returned (some true) ∈ o →
      ((∀ later t' o', (∀ a ∈ later, ¬ Stops a) → run (step sources) t later = some (t', o') →
        Silent (os ++ o ++ o')) ↔ s.queue = []) := by
  refine ⟨fun _ _ _ _ _ _ _ stops same h h' => same_after_of_leftovers stops same h h', ?_⟩
  intro before s t os o i out now h found registered hs ok
  have inv := inv_run h
  have mute := mute_of_switch inv found registered hs ok
  have queue : t.queue = s.queue := by
    rw [← (Prod.mk.inj (Option.some.inj hs)).1, (call_rings now s _).1]
  rw [← queue]
  constructor
  · intro silent
    by_contra queued
    obtain ⟨tick, t', snap, hit, stages⟩ := queued_shows (keep inv hs) mute queued
    obtain ⟨at_, zero⟩ := silent [.iterate tick] t' _ (by rintro a ha ⟨⟩ <;> simp at ha)
      (run_singleton_iff.mpr hit)
    have last : observed (os ++ o ++ [.published snap]) = snap := by
      rw [observed, published_append]
      simp [published]
    rw [← last, zero] at stages
    cases stages
  · intro empty later t' o' going hr
    obtain ⟨at_, zero⟩ := silent_stop hs (.switchSource "off" out now) (silent_off h)
    exact ⟨at_, (observed_append (mute_run mute empty going hr)).trans zero⟩

end Off

/-! ### A chunk and its negation -/

/-- The frame with the opposite sign on every sample. -/
def negated (f : AnalysisFrame ℝ) : AnalysisFrame ℝ := { f with samples := f.samples.map (- ·) }

section Negated

variable (f : AnalysisFrame ℝ) (cfg : Settings ℝ)

theorem getD_negated (i : ℕ) : (negated f).samples.getD i 0 = -f.samples.getD i 0 := by
  show (f.samples.map (- ·)).getD i 0 = _
  rw [← neg_zero, List.getD_map, neg_zero]

theorem sample_negated (i c : ℕ) : (negated f).sample i c = -f.sample i c := getD_negated f _

theorem frames_negated : (negated f).frames = f.frames := by
  simp [AnalysisFrame.frames, negated]

theorem noData_negated : DirectionalStage.NoData (negated f) ↔ DirectionalStage.NoData f := by
  rw [DirectionalStage.NoData, DirectionalStage.NoData, frames_negated]
  show _ ∨ f.samples.map (- ·) = [] ∨ _ ↔ _
  rw [List.map_eq_nil_iff]
  rfl

theorem input_negated (hann : List ℝ) (i : ℕ) :
    FftStage.input hann (negated f) i =
      (-(FftStage.input hann f i).1, -(FftStage.input hann f i).2) := by
  have mono : FftStage.downmix (negated f) i = -FftStage.downmix f i := by
    simp only [FftStage.downmix, getD_negated, Finset.sum_neg_distrib, neg_div]
    rfl
  have length : (negated f).samples.length = f.samples.length := List.length_map _
  unfold FftStage.input
  rw [length, mono]
  show (if _ / max f.format.channels 1 > _ then _ else _) = _
  split_ifs <;> simp

theorem magnitude_negated (hann : List ℝ) (size : ℕ) (k : Fin (size / 2)) :
    FftStage.magnitude (FftStage.bin hann (negated f) size k) =
      FftStage.magnitude (FftStage.bin hann f size k) := by
  have turned : FftStage.bin hann (negated f) size k =
      (-(FftStage.bin hann f size k).1, -(FftStage.bin hann f size k).2) := by
    simp only [FftStage.bin, input_negated, KissFft.fft, neg_mul, ← neg_add,
      Finset.sum_neg_distrib, neg_sub_neg, Prod.mk.injEq, true_and]
    rw [← Finset.sum_neg_distrib]
    exact Finset.sum_congr rfl fun j _ => (neg_sub _ _).symm
  rw [turned, FftStage.magnitude, FftStage.magnitude]
  simp only [neg_mul_neg]

theorem magnitudes_negated (st : FftStage ℝ) :
    (st.process (negated f) cfg).2.magnitudes = (st.process f cfg).2.magnitudes := by
  rw [FftStage.process_magnitudes, FftStage.process_magnitudes]
  simp only [magnitude_negated]
  rfl

theorem process_negated {f : AnalysisFrame ℝ} (blank : f.Blank) (c : ComposedStages ℝ)
    (profile profile' : Profile ℝ) (h : Histories ℝ) :
    h.push (project (c.process (negated f) cfg).2 profile') =
        h.push (project (c.process f cfg).2 profile) ∧
      (c.process (negated f) cfg).1.directional = (c.process f cfg).1.directional := by
  have format : (negated f).format = f.format := rfl
  have level (ch : Fin 8) : DirectionalStage.rms (negated f) ch = DirectionalStage.rms f ch := by
    simp only [DirectionalStage.rms, frames_negated, sample_negated, neg_mul_neg, format]
  constructor
  · have volume : (c.process (negated f) cfg).2.volume = (c.process f cfg).2.volume := by
      have first (g : AnalysisFrame ℝ) : (c.process g cfg).2.volume =
          (c.volume.process g cfg).2.volume :=
        c.process_get_stage (k := 0) rfl g cfg (i := .volume) (by decide)
      have mean : VolumeStage.meanAbs (negated f) = VolumeStage.meanAbs f := by
        simp only [VolumeStage.meanAbs, frames_negated, sample_negated, abs_neg, format]
        rw [negated, List.length_map]
      have empty : (negated f).samples = [] ↔ f.samples = [] := List.map_eq_nil_iff
      rw [first, first, VolumeStage.process, VolumeStage.process]
      simp only [mean, frames_negated, empty, format]
      split_ifs <;> rfl
    have bands : srcBands (c.process (negated f) cfg).2 = srcBands (c.process f cfg).2 := by
      have blank' : (negated f).Blank := ⟨blank.1, blank.2, blank.3, blank.4⟩
      rw [c.srcBands_eq cfg blank', c.srcBands_eq cfg blank, magnitudes_negated]
      rfl
    rw [Histories.push, Histories.push, project, project, volume, bands]
  · have same : DirectionalStage.measured (negated f) cfg = DirectionalStage.measured f cfg := by
      rw [DirectionalStage.measured, DirectionalStage.measured, funext level, format]
    rw [(c.process_directional _ _).1, (c.process_directional _ _).1, DirectionalStage.process,
      DirectionalStage.process, same]
    simp only [noData_negated]
    split_ifs <;> rfl

end Negated

/-! ### Short runs over the reals -/

def systemAndOff : List Info := [⟨"system", "System Audio", true, 0, true⟩, OffSource.info]

def allStart : Outcomes where
  availableDefault _ := true
  availableAny _ := true
  opened _ := some ⟨⟨48000, 2, .stereo⟩, 480, 960⟩
  started _ := true

/-- One frame of a stereo chunk. -/
def heard (v : ℝ) : Act ℝ := .push 0 ⟨[v, v], ⟨48000, 2, .stereo⟩⟩

def clock : Clock := ⟨0, fun _ => 0, fun _ => 0, 0⟩

def pass : Act ℝ := .iterate ⟨0, clock, none⟩

/-- The frame of a stereo chunk as the first one that the thread takes. -/
def firstFrame (xs : List ℝ) : AnalysisFrame ℝ := .ofChunk xs ⟨48000, 2, .stereo⟩ 0 0

/-- A chunk that is processed and published. -/
def played (xs : List ℝ) : List (Act ℝ) :=
  [.start allStart 0, .push 0 ⟨xs, ⟨48000, 2, .stereo⟩⟩, pass]

theorem withoutAudio_played (xs : List ℝ) :
    withoutAudio (played xs) = [.start allStart 0, pass] := rfl

/-- The first frame through the composed pipeline. -/
noncomputable def firstPass (xs : List ℝ) : Pipeline ℝ × AnalysisFrame ℝ :=
  Pipeline.composePipeline.process (firstFrame xs) (Store.initial : Store ℝ).snapshot clock

theorem run_played (xs : List ℝ) :
    ∃ (s t : State ℝ) (snap : AudioSnapshot ℝ),
      run (step systemAndOff) AudioSystem.initial (played xs) =
        some (s, [.returned (some true), .published snap]) ∧
      step systemAndOff s (.switchSource "off" allStart 1) =
        some (t, [.published (zeroAt 1), .returned (some true)]) ∧
      s.queue = [] ∧ s.pipeline = (firstPass xs).1 ∧
        s.histories =
          Histories.initial.push (project (firstPass xs).2 (firstPass xs).1.profile) ∧
        snap.volume = (firstPass xs).2.volume.getD 0 :=
  ⟨_, _, _, rfl, rfl, rfl, rfl, rfl, rfl⟩

theorem firstPass_eq (xs : List ℝ) :
    (firstPass xs).2 = (ComposedStages.initial.process (firstFrame xs)
        (Store.initial : Store ℝ).snapshot).2 ∧
      (firstPass xs).1.directions = [(ComposedStages.initial.process (firstFrame xs)
        (Store.initial : Store ℝ).snapshot).1.directional.prevDir8] := by
  have stages := ComposedStages.runStages_stages ComposedStages.initial (firstFrame xs)
    (Store.initial : Store ℝ).snapshot
  rw [firstPass, Pipeline.process, ComposedStages.composePipeline_stages, stages]
  exact ⟨rfl, rfl⟩

theorem firstFrame_negated (xs : List ℝ) : firstFrame (xs.map (- ·)) = negated (firstFrame xs) :=
  rfl

/-- A stereo chunk of two frames. -/
noncomputable def chord : List ℝ := [1, 0.5, -1, 0.5]

theorem chord_volume : (firstPass chord).2.volume.getD 0 = 0.75 := by
  have amplifier : (Store.initial : Store ℝ).snapshot.frequency.amplifierVolume = 1 := by
    show Lib.Clamp.clamp (FrequencyConfig.defaults ℝ).amplifierVolume 1 11.0 = 1
    norm_num [Lib.Clamp.clamp, FrequencyConfig.defaults]
  have mean : VolumeStage.meanAbs (firstFrame chord) = 0.75 := by
    norm_num [VolumeStage.meanAbs, AnalysisFrame.frames, AnalysisFrame.sample, firstFrame, chord,
      AnalysisFrame.ofChunk, Finset.sum_range_succ]
  have first : (firstPass chord).2.volume = (VolumeStage.initial.process (firstFrame chord)
      (Store.initial : Store ℝ).snapshot).2.volume := by
    rw [(firstPass_eq chord).1]
    exact ComposedStages.initial.process_get_stage (k := 0) rfl _ _ (i := .volume) (by decide)
  rw [first, VolumeStage.process, if_neg (by simp [firstFrame, chord, AnalysisFrame.ofChunk]),
    if_neg (by simp [firstFrame, chord, AnalysisFrame.ofChunk, AnalysisFrame.frames])]
  show min 1 (VolumeStage.meanAbs _ * _) = _
  rw [mean, amplifier]
  norm_num

/-- A chunk and its negation, both processed and shown before the call. -/
theorem negated_chord_forgotten :
    ∃ (s s' t : State ℝ) (snap snap' : AudioSnapshot ℝ) (o : List (Event ℝ)),
      run (step systemAndOff) AudioSystem.initial (played chord) =
        some (s, [.returned (some true), .published snap]) ∧
      run (step systemAndOff) AudioSystem.initial (played (chord.map (- ·))) =
        some (s', [.returned (some true), .published snap']) ∧
      snap.volume = 0.75 ∧ SameAfter systemAndOff s s' (.stop 1) ∧
      step systemAndOff s (.switchSource "off" allStart 1) = some (t, o) ∧
      ∀ later t' o', (∀ a ∈ later, ¬ Stops a) → run (step systemAndOff) t later = some (t', o') →
        Silent ([.returned (some true), .published snap] ++ o ++ o') := by
  obtain ⟨s, t, snap, h, off, queue, pipeline, histories, volume⟩ := run_played chord
  obtain ⟨s', t', snap', h', -, queue', pipeline', histories', -⟩ := run_played (chord.map (- ·))
  have blank : (firstFrame chord).Blank := AnalysisFrame.blank_ofChunk _ _ _ _
  have mirrored := process_negated (Store.initial : Store ℝ).snapshot blank ComposedStages.initial
  obtain ⟨forgotten, silenced⟩ := forgets_all_but_leftovers (K := ℝ) systemAndOff
  refine ⟨s, s', t, snap, snap', _, h, h', volume.trans chord_volume, ?_, off, ?_⟩
  · refine forgotten _ _ _ _ _ _ _ (.stop 1) ?_ h h' ⟨queue.trans queue'.symm, ?_, ?_⟩
    · rw [withoutAudio_played, withoutAudio_played]
    · have same : s.histories = s'.histories := by
        rw [histories, histories', (firstPass_eq _).1, (firstPass_eq _).1, firstFrame_negated]
        exact (mirrored _ _ _).1.symm
      exact fun _ => by rw [same]
    · rw [pipeline, pipeline', (firstPass_eq _).2, (firstPass_eq _).2, firstFrame_negated]
      rw [(mirrored (firstPass chord).1.profile (firstPass chord).1.profile Histories.initial).2]
  · exact (silenced _ _ _ _ _ 1 allStart 1 h rfl rfl off (by simp)).mpr queue

/-- One queued chunk is shown after the switch to Off, as if it were new. -/
theorem queued_chunk_outlives_switch :
    ∃ (s s' t t' : State ℝ) (os os' o o' : List (Event ℝ)),
      withoutAudio [.start allStart 0, heard 1] = withoutAudio [.start allStart 0] ∧
      run (step systemAndOff) AudioSystem.initial [.start allStart 0, heard 1] = some (s, os) ∧
      run (step systemAndOff) AudioSystem.initial [.start allStart 0] = some (s', os') ∧
      ¬ SameAfter systemAndOff s s' (.switchSource "off" allStart 1) ∧
      step systemAndOff s (.switchSource "off" allStart 1) = some (t, o) ∧
      .returned (some true) ∈ o ∧ run (step systemAndOff) t [pass] = some (t', o') ∧
      ¬ Silent (os ++ o ++ o') := by
  have shown : ∃ (s t t' : State ℝ) (snap : AudioSnapshot ℝ),
      run (step systemAndOff) AudioSystem.initial [.start allStart 0, heard 1] =
        some (s, [.returned (some true)]) ∧
      step systemAndOff s (.switchSource "off" allStart 1) =
        some (t, [.published (zeroAt 1), .returned (some true)]) ∧
      step systemAndOff t (pass) = some (t', [.published snap]) ∧ snap.stageCount = 13 :=
    ⟨_, _, _, _, rfl, rfl, rfl, rfl⟩
  have quiet : ∃ s t t' : State ℝ,
      run (step systemAndOff) AudioSystem.initial [.start allStart 0] =
        some (s, [.returned (some true)]) ∧
      step systemAndOff s (.switchSource "off" allStart 1) =
        some (t, [.published (zeroAt 1), .returned (some true)]) ∧
      step systemAndOff t (pass) = some (t', []) :=
    ⟨_, _, _, rfl, rfl, rfl⟩
  obtain ⟨s, t, t', snap, before, switch, after, stages⟩ := shown
  obtain ⟨s', m, m', before', switch', after'⟩ := quiet
  refine ⟨s, s', t, t', _, _, _, _, rfl, before, before', ?_, switch, by simp,
    run_singleton_iff.mpr after, ?_⟩
  · intro same
    have shows := run_cons_iff.mpr ⟨t, _, _, switch, run_singleton_iff.mpr after, rfl⟩
    have silent := run_cons_iff.mpr ⟨m, _, _, switch', run_singleton_iff.mpr after', rfl⟩
    obtain ⟨_, p', h', events⟩ := same _ _ _ shows
    obtain ⟨-, rfl⟩ := Prod.mk.inj (Option.some.inj (silent.symm.trans h'))
    cases events.length_eq
  · rintro ⟨now, zero⟩
    have last := congrArg AudioSnapshot.stageCount zero
    cases stages.symm.trans last

end Listeningway.System.Forgetting
