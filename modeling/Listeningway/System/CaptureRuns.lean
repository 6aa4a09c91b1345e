/- Listeningway/System/CaptureRuns
   source: src/audio/pipeline/audio_system.cpp; src/audio/source/wasapi_loopback_source.cpp;
     src/audio/source/process_audio_source.cpp
   digest: One producer for the ring, under every interleaving of calls and capture threads. -/

import Listeningway.System.CaptureThreads
import Listeningway.System.LifecycleRuns
import Mathlib.Algebra.Order.Ring.Int

set_option autoImplicit false
set_option relaxedAutoImplicit false

namespace Listeningway.System.CaptureThreads

open Listeningway.Lib
open Listeningway.Lib.Script
open Listeningway.Ring.FrameRing (FrameChunk)
open Listeningway.Source.AudioSource
open Listeningway.Source
open Listeningway.Source.CaptureSource
open Listeningway.System.Lifecycle (Effect)

variable {K : Type}

/-! ### What a step does -/

section Steps

variable {kinds : List Kind} {hasStore : Bool} {s t : State} {o : List (Event K)}

theorem lift_some {moved : Option (Lifecycle.State × List Lifecycle.Event)}
    (hs : s.lift moved = some (t, o)) :
    ∃ sys es, moved = some (sys, es) ∧ t = { s with system := sys } ∧ o = es.map .audio := by
  obtain ⟨⟨sys, es⟩, moves, same⟩ := Option.map_eq_some_iff.mp hs
  obtain ⟨rfl, rfl⟩ := Prod.mk.inj same
  exact ⟨sys, es, moves, rfl, rfl⟩

/-- What the calls do to the sources and their threads. -/
inductive Called (kinds : List Kind) (s : State) (e : Effect) : State → Prop
  | other : (∀ i, e ≠ .stopSource i ∨ kindAt kinds i = .off) → (∀ i, e ≠ .startSource i true) →
      Called kinds s e s
  | opened (i : ℕ) (src : SourceState) : e = .openSource i →
      src.running = (s.source i).running → src.joinable = (s.source i).joinable →
      Called kinds s e (s.setSource i src)
  | running (i : ℕ) : e = .startSource i true → (s.source i).running = true → Called kinds s e s
  | silent (i : ℕ) : e = .startSource i true → kindAt kinds i = .off → Called kinds s e s
  | spawned (i : ℕ) (src : SourceState) : e = .startSource i true → kindAt kinds i ≠ .off →
      (s.source i).running = false → src.running = true → src.joinable = true →
      Called kinds s e { s.setSource i src with
        threads := s.threads ++ [(i, .setup)]
        terminated := s.terminated || (s.source i).joinable }
  | joined (i : ℕ) : e = .stopSource i → kindAt kinds i ≠ .off → s.stopping = true →
      ((s.source i).joinable = true → ∀ thread ∈ s.threads, thread.1 ≠ i) →
      Called kinds s e { s.setSource i { s.source i with joinable := false } with
        stopping := false }

theorem opens_keeps (kind : Kind) (src : SourceState) (met : Opening) :
    (kind.opens src met).1.running = src.running ∧
      (kind.opens src met).1.joinable = src.joinable := by
  cases kind with
  | loopback =>
    unfold Kind.opens
    dsimp only
    split_ifs
    · exact ⟨rfl, rfl⟩
    · exact ⟨rfl, rfl⟩
    · cases met.probed <;> exact ⟨rfl, rfl⟩
  | process =>
    unfold Kind.opens
    dsimp only
    split_ifs <;> exact ⟨rfl, rfl⟩
  | off => exact ⟨rfl, rfl⟩

theorem start_cases (kind : Kind) (src : SourceState) :
    kind.start src = ⟨src, false, false⟩ ∨
    (kind = .off ∨ src.running = true) ∧ kind.start src = ⟨src, true, false⟩ ∨
    kind ≠ .off ∧ src.running = false ∧ ∃ src' : SourceState,
      src'.running = true ∧ src'.joinable = true ∧ kind.start src = ⟨src', true, true⟩ := by
  cases kind with
  | loopback =>
    unfold Kind.start
    dsimp only
    split_ifs with up blind
    · exact .inr (.inl ⟨.inr up, rfl⟩)
    · exact .inl rfl
    · exact .inr (.inr ⟨by decide, by simpa using up, _, rfl, rfl, rfl⟩)
  | process =>
    unfold Kind.start
    dsimp only
    split_ifs with up
    · exact .inr (.inl ⟨.inr up, rfl⟩)
    · exact .inr (.inr ⟨by decide, by simpa using up, _, rfl, rfl, rfl⟩)
  | off => exact .inr (.inl ⟨.inl rfl, rfl⟩)

theorem advance_moves {met : Opening} (hs : advance kinds s met = some (t, o)) :
    (∃ i rest, s.system.pending = .stopSource i :: rest ∧ kindAt kinds i ≠ .off ∧
      s.stopping = false ∧ o = [] ∧
      t = { s.setSource i { s.source i with running := false } with stopping := true }) ∨
    ∃ e rest sys u, s.system.pending = e :: rest ∧ Called kinds s e u ∧
      Lifecycle.advanceStep s.system = some (sys, [.did e]) ∧ t = { u with system := sys } ∧
      o = [.audio (.did e)] := by
  have single : ∀ {e : Effect} {rest : List Effect} {u : State},
      s.system.pending = e :: rest → Called kinds s e u →
      u.lift (Lifecycle.advanceStep s.system) = some (t, o) →
      ∃ e rest sys u, s.system.pending = e :: rest ∧ Called kinds s e u ∧
        Lifecycle.advanceStep s.system = some (sys, [.did e]) ∧ t = { u with system := sys } ∧
        o = [.audio (.did e)] := by
    intro e rest u pending called lifted
    obtain ⟨sys, es, moved, rfl, rfl⟩ := lift_some lifted
    obtain ⟨e', rest', pending', rfl, -⟩ := LifecycleRuns.advance_cases moved
    obtain ⟨rfl, -⟩ := List.cons.inj (pending.symm.trans pending')
    exact ⟨e, rest, sys, u, pending, called, moved, rfl, rfl⟩
  unfold advance at hs
  split at hs
  case h_1 i rest pending =>
    obtain ⟨-, hs⟩ := Option.ite_none_right_eq_some.mp hs
    obtain ⟨running, joinable⟩ := opens_keeps (kindAt kinds i) (s.source i) met
    exact .inr (single pending (.opened i _ rfl running joinable) hs)
  case h_2 i ok rest pending =>
    obtain ⟨answer, hs⟩ := Option.ite_none_right_eq_some.mp hs
    rcases start_cases (kindAt kinds i) (s.source i) with
      refused | ⟨idle, kept⟩ | ⟨captures, rested, src, running, joinable, made⟩
    · rw [refused] at answer hs
      have failed : ok = false := answer.symm
      have same : s.setSource i (s.source i) = s := by
        rw [State.setSource, Function.update_eq_self]
      dsimp only at hs
      rw [if_neg Bool.false_ne_true, same] at hs
      refine .inr (single pending (.other (fun j => .inl (by simp)) ?_) hs)
      intro j started
      obtain ⟨-, ok'⟩ := Effect.startSource.inj started
      rw [failed] at ok'
      cases ok'
    · rw [kept] at answer hs
      have worked : ok = true := answer.symm
      have same : s.setSource i (s.source i) = s := by
        rw [State.setSource, Function.update_eq_self]
      dsimp only at hs
      rw [if_neg Bool.false_ne_true, same] at hs
      rcases idle with off | up
      · exact .inr (single pending (.silent i (by rw [worked]) off) hs)
      · exact .inr (single pending (.running i (by rw [worked]) up) hs)
    · rw [made] at answer hs
      have worked : ok = true := answer.symm
      dsimp only at hs
      rw [if_pos rfl] at hs
      exact .inr (single pending
        (.spawned i src (by rw [worked]) captures rested running joinable) hs)
  case h_3 i rest pending =>
    by_cases off : kindAt kinds i = .off
    · rw [if_pos off] at hs
      refine .inr (single pending (.other (fun j => ?_) fun j => by simp) hs)
      by_cases here : j = i
      · exact .inr (here ▸ off)
      · exact .inl fun same => here (Effect.stopSource.inj same).symm
    · rw [if_neg off] at hs
      cases halting : s.stopping with
      | false =>
        rw [halting, if_pos (by decide : (!false) = true)] at hs
        obtain ⟨rfl, rfl⟩ := Prod.mk.inj (Option.some.inj hs)
        exact .inl ⟨i, rest, pending, off, rfl, rfl, rfl⟩
      | true =>
        rw [halting, if_neg (by decide : ¬ (!true) = true)] at hs
        obtain ⟨gone, hs⟩ := Option.ite_none_left_eq_some.mp hs
        refine .inr (single pending (.joined i rfl off halting ?_) hs)
        intro up thread listed here
        refine gone (Bool.and_eq_true_iff.mpr ⟨up, List.any_eq_true.mpr ⟨thread, listed, ?_⟩⟩)
        exact decide_eq_true here
  case h_4 opens starts stops =>
    obtain ⟨sys, es, moved, -, -⟩ := lift_some hs
    obtain ⟨e, rest, pending, -⟩ := LifecycleRuns.advance_cases moved
    refine .inr (single pending (.other (fun i => .inl ?_) fun i same => ?_) hs)
    · intro same
      exact stops i rest (same ▸ pending)
    · exact starts i true rest (same ▸ pending)

/-- What a capture thread leaves alone, and raises in no step. -/
structure Kept (src src' : SourceState) : Prop where
  joinable : src'.joinable = src.joinable
  running : src'.running = true → src.running = true

theorem kept_rfl (src : SourceState) : Kept src src := ⟨rfl, id⟩

theorem setup_kept (kind : Kind) (src : SourceState) (mix : Option MixFormat)
    (converted fallback streams : Bool) :
    Kept src (kind.setup src mix converted fallback streams).1 := by
  cases kind with
  | loopback =>
    unfold Kind.setup
    cases mix with
    | none =>
      dsimp only
      split_ifs <;> exact kept_rfl src
    | some wfx =>
      dsimp only
      split_ifs <;> exact ⟨rfl, id⟩
  | process => exact kept_rfl src
  | off => exact kept_rfl src

theorem woken_kept (kind : Kind) (src : SourceState) (format : SourceFormat.Format)
    (wait : Wake) : Kept src (kind.woken src format wait).1 := by
  unfold Kind.woken
  split
  · split_ifs <;> exact ⟨rfl, id⟩
  · exact kept_rfl src
  · exact kept_rfl src

variable [Zero K]

theorem chunk_whole {kind : Kind} {format : SourceFormat.Format} {packet : Packet K}
    {chunk : FrameChunk K} (made : kind.chunk format packet = some chunk) :
    chunk.format = format ∧ chunk.samples.length = packet.frames * format.channels ∧
      kind ≠ .off := by
  cases kind with
  | loopback =>
    unfold Kind.chunk at made
    dsimp only at made
    split at made
    · obtain ⟨-, made⟩ := Option.ite_none_right_eq_some.mp made
      rw [← Option.some.inj made]
      exact ⟨rfl, by rw [List.length_map, List.length_range], by decide⟩
    · cases made
  | process =>
    unfold Kind.chunk at made
    dsimp only at made
    obtain ⟨-, made⟩ := Option.ite_none_left_eq_some.mp made
    split_ifs at made
    · rw [← Option.some.inj made]
      exact ⟨rfl, List.length_replicate, by decide⟩
    · obtain ⟨data, -, rfl⟩ := Option.map_eq_some_iff.mp made
      exact ⟨rfl, by rw [List.length_map, List.length_range], by decide⟩
  | off => cases made

theorem capture_step {kind : Kind} {src : SourceState} {thread : Capture} {met : Met K}
    {moved : Moved K} (hs : thread.step kind src met = some moved) :
    Kept src moved.source ∧ ∀ chunk, moved.chunk = some chunk →
      chunk.format.channels ∣ chunk.samples.length ∧ kind ≠ .off := by
  have nothing : ∀ {src' : SourceState} {next : Option Capture},
      some ⟨src', next, none⟩ = some moved → Kept src src' → Kept src moved.source ∧
        ∀ chunk, moved.chunk = some chunk →
          chunk.format.channels ∣ chunk.samples.length ∧ kind ≠ .off := by
    intro src' next same kept
    rw [← Option.some.inj same]
    exact ⟨kept, fun chunk made => absurd made (Option.some_ne_none chunk).symm⟩
  unfold Capture.step at hs
  split at hs
  · exact nothing hs (setup_kept _ _ _ _ _ _)
  · exact nothing hs (kept_rfl src)
  · split_ifs at hs
    · exact nothing hs (woken_kept _ _ _ _)
    · exact nothing hs (kept_rfl src)
  · rw [← Option.some.inj hs]
    refine ⟨kept_rfl src, fun chunk made => ?_⟩
    obtain ⟨format, length, captures⟩ := chunk_whole made
    exact ⟨⟨_, by rw [length, format, Nat.mul_comm]⟩, captures⟩
  · exact nothing hs (kept_rfl src)
  · split_ifs at hs
    · exact nothing hs ⟨rfl, id⟩
    · exact nothing hs (kept_rfl src)
  · exact nothing hs ⟨rfl, fun up => absurd up Bool.false_ne_true⟩
  · cases hs

theorem capture_moves {k : ℕ} {met : Met K} (hs : capture kinds s k met = some (t, o)) :
    ∃ i thread moved, s.threads[k]? = some (i, thread) ∧
      thread.step (kindAt kinds i) (s.source i) met = some moved ∧
      t = { s.setSource i moved.source with
        threads := match moved.thread with
          | some next => s.threads.set k (i, next)
          | none => s.threads.eraseIdx k } ∧
      o = moved.chunk.toList.map (.pushed i) := by
  unfold capture at hs
  split at hs
  · cases hs
  · rename_i i thread there
    obtain ⟨moved, steps, same⟩ := Option.map_eq_some_iff.mp hs
    obtain ⟨rfl, rfl⟩ := Prod.mk.inj same
    exact ⟨i, thread, moved, there, steps, rfl, rfl⟩

end Steps

/-! ### The invariant -/

/-- Only the current source is joinable, `running_` is set only under a handle, a thread lives
only under the handle of its source, and there is at most one. -/
structure Inv (kinds : List Kind) (s : State) : Prop where
  audio : LifecycleRuns.Inv s.system
  alive : s.terminated = false
  few : s.threads.length ≤ 1
  owned : ∀ thread ∈ s.threads, (s.source thread.1).joinable = true
  called : ∀ i, (s.source i).joinable = true → s.system.guarded.startCalled i = true
  running : ∀ i, (s.source i).running = true → (s.source i).joinable = true
  captures : ∀ i, (s.source i).joinable = true → kindAt kinds i ≠ .off
  stopping : s.stopping = true → ∃ i rest, s.system.pending = .stopSource i :: rest ∧
    kindAt kinds i ≠ .off ∧ (s.source i).running = false

variable {kinds : List Kind} {hasStore : Bool} {s t : State}

theorem inv_initial (kinds : List Kind) : Inv kinds initial where
  audio := LifecycleRuns.inv_initial
  alive := rfl
  few := Nat.zero_le 1
  owned _ listed := absurd listed List.not_mem_nil
  called _ up := absurd up Bool.false_ne_true
  running _ up := absurd up Bool.false_ne_true
  captures _ up := absurd up Bool.false_ne_true
  stopping halting := absurd halting Bool.false_ne_true

theorem Inv.mono (inv : Inv kinds s) (audio : LifecycleRuns.Inv t.system)
    (called : ∀ i, (s.source i).joinable = true → t.system.guarded.startCalled i = true)
    (kept : ∀ i, Kept (s.source i) (t.source i)) (alive : t.terminated = s.terminated)
    (few : t.threads.length ≤ s.threads.length)
    (owners : ∀ thread ∈ t.threads, ∃ thread' ∈ s.threads, thread'.1 = thread.1)
    (stopping : t.stopping = true → ∃ i rest, t.system.pending = .stopSource i :: rest ∧
      kindAt kinds i ≠ .off ∧ (t.source i).running = false) :
    Inv kinds t where
  audio := audio
  alive := alive.trans inv.alive
  few := Nat.le_trans few inv.few
  owned thread listed := by
    obtain ⟨thread', listed', same⟩ := owners thread listed
    rw [(kept thread.1).joinable, ← same]
    exact inv.owned thread' listed'
  called i up := called i ((kept i).joinable ▸ up)
  running i up := (kept i).joinable ▸ inv.running i ((kept i).running up)
  captures i up := inv.captures i ((kept i).joinable ▸ up)
  stopping := stopping

theorem setSource_source (s : State) (i : ℕ) (src : SourceState) (j : ℕ) :
    (s.setSource i src).source j = if j = i then src else s.source j :=
  Function.update_apply s.source i src j

theorem setSource_kept {i : ℕ} {src : SourceState} (kept : Kept (s.source i) src) (j : ℕ) :
    Kept (s.source j) ((s.setSource i src).source j) := by
  rw [setSource_source]
  split_ifs with here
  · rwa [here]
  · exact kept_rfl _

theorem down_of_kept {src src' : SourceState} (kept : Kept src src')
    (down : src.running = false) : src'.running = false := by
  cases up : src'.running with
  | false => rfl
  | true =>
    rw [kept.running up] at down
    cases down

theorem startCalled_exec (g : Lifecycle.Guarded) (e : Effect) (j : ℕ) :
    (g.exec e).startCalled j = true ↔
      (∃ ok, e = .startSource j ok) ∨ g.startCalled j = true ∧ e ≠ .stopSource j := by
  cases e with
  | startSource i ok =>
    by_cases here : j = i
    · simp [Lifecycle.Guarded.exec, here]
    · simp [Lifecycle.Guarded.exec, here, Ne.symm here]
  | stopSource i =>
    by_cases here : j = i
    · simp [Lifecycle.Guarded.exec, here]
    · simp [Lifecycle.Guarded.exec, here, Ne.symm here]
  | _ => simp [Lifecycle.Guarded.exec]

theorem keep_calm (inv : Inv kinds s) {a : Lifecycle.Act} (calm : a ≠ .advance)
    {sys : Lifecycle.State} {es : List Lifecycle.Event}
    (moved : Lifecycle.step (kinds.map Kind.info) hasStore s.system a = some (sys, es)) :
    sys.guarded = s.system.guarded ∧ (∀ e, .did e ∉ es) ∧ Inv kinds { s with system := sys } := by
  have frame : sys.guarded = s.system.guarded ∧ (∀ e, .did e ∉ es) ∧
      (s.system.pending = [] ∨ sys.pending = s.system.pending) := by
    have locked : ∀ {script : List Effect},
        ((if s.system.pending = [] then some { s.system with pending := script } else none).map
          fun t => (t, ([] : List Lifecycle.Event))) = some (sys, es) →
        sys.guarded = s.system.guarded ∧ (∀ e, .did e ∉ es) ∧
          (s.system.pending = [] ∨ sys.pending = s.system.pending) := by
      intro script locks
      obtain ⟨held, locks, same⟩ := Option.map_eq_some_iff.mp locks
      obtain ⟨free, made⟩ := Option.ite_none_right_eq_some.mp locks
      obtain ⟨rfl, rfl⟩ := Prod.mk.inj same
      rw [← Option.some.inj made]
      exact ⟨rfl, fun e => List.not_mem_nil, .inl free⟩
    cases a with
    | advance => exact absurd rfl calm
    | dsp k =>
      obtain ⟨guarded, pending, -⟩ := LifecycleRuns.dsp_frame moved
      refine ⟨guarded, fun e listed => ?_, .inr pending⟩
      rcases LifecycleRuns.dsp_emits moved with rfl | rfl
      · cases listed
      · cases List.mem_singleton.mp listed
    | start code out => exact locked moved
    | stop => exact locked moved
    | switchSource code code' out => exact locked moved
  refine ⟨frame.1, frame.2.1, inv.mono (LifecycleRuns.keep _ _ _ _ inv.audio moved) ?_
    (fun i => kept_rfl _) rfl (Nat.le_refl _) (fun thread listed => ⟨thread, listed, rfl⟩) ?_⟩
  · intro i up
    dsimp only
    rw [frame.1]
    exact inv.called i up
  · intro halting
    obtain ⟨i, rest, pending, captures, down⟩ := inv.stopping halting
    refine ⟨i, rest, ?_, captures, down⟩
    rcases frame.2.2 with free | same
    · rw [free] at pending
      cases pending
    · exact same.trans pending

theorem no_threads (inv : Inv kinds s) (idle : ∀ i, s.system.guarded.startCalled i = false) :
    s.threads = [] := by
  cases threads : s.threads with
  | nil => rfl
  | cons thread threads' =>
    have listed : thread ∈ s.threads := by
      rw [threads]
      exact List.mem_cons_self
    have called := inv.called _ (inv.owned thread listed)
    rw [idle] at called
    cases called

theorem idle_before_start (inv : Inv kinds s) {i : ℕ} {ok : Bool} {rest : List Effect}
    (pending : s.system.pending = .startSource i ok :: rest) (j : ℕ) :
    s.system.guarded.startCalled j = false := by
  have disciplined := inv.audio.disciplined
  rw [pending] at disciplined
  obtain ⟨standing, ⟨current, idle⟩, -⟩ := disciplined
  by_contra called
  have called' : s.system.guarded.startCalled j = true := by simpa using called
  have mine := standing.called j called'
  rw [current] at mine
  rw [← Option.some.inj mine, idle] at called'
  cases called'

theorem keep_called (inv : Inv kinds s) {e : Effect} {rest : List Effect}
    (pending : s.system.pending = e :: rest) {u : State} (called : Called kinds s e u)
    {sys : Lifecycle.State} {es : List Lifecycle.Event}
    (moved : Lifecycle.advanceStep s.system = some (sys, es)) :
    Inv kinds { u with system := sys } := by
  obtain ⟨e', rest', pending', -, -, guarded, -⟩ := LifecycleRuns.advance_cases moved
  obtain ⟨rfl, rfl⟩ := List.cons.inj (pending.symm.trans pending')
  have audio : LifecycleRuns.Inv sys :=
    LifecycleRuns.keep s.system .advance sys es inv.audio
      (show Lifecycle.step (kinds.map Kind.info) true s.system .advance = _ from moved)
  have halting : s.stopping = true → ∃ i, e = .stopSource i ∧ kindAt kinds i ≠ .off ∧
      (s.source i).running = false := by
    intro halting
    obtain ⟨i, rest', pending', captures, down⟩ := inv.stopping halting
    obtain ⟨same, -⟩ := List.cons.inj (pending.symm.trans pending')
    exact ⟨i, same, captures, down⟩
  have fresh : ∀ i, e = .startSource i true → (s.source i).joinable = false ∧ s.threads = [] := by
    rintro i rfl
    have idle := idle_before_start inv pending
    exact ⟨Bool.eq_false_iff.mpr fun up => Bool.false_ne_true ((idle i).symm.trans
      (inv.called i up)), no_threads inv idle⟩
  have quiet : ∀ {src : ℕ → SourceState}, (∀ i, e ≠ .stopSource i ∨ (src i).joinable = false) →
      (∀ i, (src i).joinable = true → s.system.guarded.startCalled i = true) →
      ∀ i, (src i).joinable = true → sys.guarded.startCalled i = true := by
    intro src unstopped called' i up
    rw [guarded, startCalled_exec]
    refine .inr ⟨called' i up, ?_⟩
    rcases unstopped i with other | down
    · exact other
    · rw [down] at up
      cases up
  cases called with
  | other unstopped unstarted =>
    refine inv.mono audio (quiet (fun i => ?_) inv.called) (fun i => kept_rfl _) rfl
      (Nat.le_refl _) (fun thread listed => ⟨thread, listed, rfl⟩) fun up => ?_
    · rcases unstopped i with other | off
      · exact .inl other
      · exact .inr (Bool.eq_false_iff.mpr fun up => inv.captures i up off)
    · obtain ⟨i, same, captures, -⟩ := halting up
      rcases unstopped i with other | off
      · exact absurd same other
      · exact absurd off captures
  | opened i src opens running joinable =>
    have kept : Kept (s.source i) src := ⟨joinable, fun up => running ▸ up⟩
    refine inv.mono audio (quiet (fun j => .inl ?_) inv.called) (setSource_kept kept) rfl
      (Nat.le_refl _) (fun thread listed => ⟨thread, listed, rfl⟩) fun up => ?_
    · rw [opens]
      simp
    · obtain ⟨j, same, -⟩ := halting up
      rw [opens] at same
      cases same
  | running i starts up =>
    have down := (fresh i starts).1
    rw [inv.running i up] at down
    cases down
  | silent i starts off =>
    refine inv.mono audio (quiet (fun j => .inl ?_) inv.called) (fun j => kept_rfl _) rfl
      (Nat.le_refl _) (fun thread listed => ⟨thread, listed, rfl⟩) fun up => ?_
    · rw [starts]
      simp
    · obtain ⟨j, same, -⟩ := halting up
      rw [starts] at same
      cases same
  | spawned i src starts captures rested running joinable =>
    obtain ⟨down, none'⟩ := fresh i starts
    have source := setSource_source s i src
    refine ⟨audio, ?_, ?_, ?_, ?_, ?_, ?_, ?_⟩
    · dsimp only
      rw [inv.alive, down]
      rfl
    · dsimp only
      rw [none']
      exact Nat.le_refl 1
    · intro thread listed
      dsimp only at listed ⊢
      rw [none', List.nil_append, List.mem_singleton] at listed
      rw [source, listed, if_pos rfl, joinable]
    · intro j up
      dsimp only at up ⊢
      rw [guarded, startCalled_exec]
      rw [source] at up
      by_cases here : j = i
      · rw [here]
        exact .inl ⟨true, starts⟩
      · rw [if_neg here] at up
        refine .inr ⟨inv.called j up, ?_⟩
        rw [starts]
        simp
    · intro j up
      dsimp only at up ⊢
      rw [source] at up ⊢
      by_cases here : j = i
      · rw [if_pos here, joinable]
      · rw [if_neg here] at up ⊢
        exact inv.running j up
    · intro j up
      dsimp only at up
      rw [source] at up
      by_cases here : j = i
      · rw [here]
        exact captures
      · rw [if_neg here] at up
        exact inv.captures j up
    · intro up
      obtain ⟨j, same, -⟩ := halting up
      rw [starts] at same
      cases same
  | joined i stops captures up gone =>
    have source := setSource_source s i { s.source i with joinable := false }
    have low : (s.source i).running = false := by
      obtain ⟨j, same, -, low⟩ := halting up
      rw [stops] at same
      rwa [Effect.stopSource.inj same]
    have elsewhere : ∀ j,
        ((s.setSource i { s.source i with joinable := false }).source j).joinable = true →
        j ≠ i ∧ (s.source j).joinable = true := by
      intro j up
      rw [source] at up
      by_cases here : j = i
      · rw [if_pos here] at up
        cases up
      · rw [if_neg here] at up
        exact ⟨here, up⟩
    refine ⟨audio, inv.alive, inv.few, ?_, ?_, ?_, ?_, fun up => absurd up Bool.false_ne_true⟩
    · intro thread listed
      have own := inv.owned thread listed
      dsimp only
      have other : thread.1 ≠ i := by
        intro here
        rw [here] at own
        exact gone own thread listed here
      rwa [source, if_neg other]
    · intro j up
      obtain ⟨other, up⟩ := elsewhere j up
      dsimp only
      rw [guarded, startCalled_exec, stops]
      exact .inr ⟨inv.called j up, fun same => other (Effect.stopSource.inj same).symm⟩
    · intro j up
      dsimp only at up ⊢
      rw [source] at up ⊢
      by_cases here : j = i
      · rw [if_pos here] at up
        dsimp only at up
        rw [low] at up
        cases up
      · rw [if_neg here] at up ⊢
        exact inv.running j up
    · intro j up
      obtain ⟨-, up⟩ := elsewhere j up
      exact inv.captures j up

/-! ### Runs -/

/-- The last call on a source was its `start`. -/
def Started (os : List (Event K)) (i : ℕ) : Prop :=
  ∃ front back ok, os = front ++ .audio (.did (.startSource i ok)) :: back ∧
    .audio (.did (.stopSource i)) ∉ back

theorem started_append {os o : List (Event K)} {i : ℕ} (started : Started os i)
    (unstopped : .audio (.did (.stopSource i)) ∉ o) : Started (os ++ o) i := by
  obtain ⟨front, back, ok, rfl, quiet⟩ := started
  refine ⟨front, back ++ o, ok, by rw [List.append_assoc, List.cons_append], fun stops => ?_⟩
  exact (List.mem_append.mp stops).elim quiet unstopped

/-- What the events of a step tell of the calls, and what a push relies on. -/
structure Tells (kinds : List Kind) (s t : State) (o : List (Event K)) : Prop where
  called : ∀ i, t.system.guarded.startCalled i = true →
    (∃ ok, o = [.audio (.did (.startSource i ok))]) ∨
      s.system.guarded.startCalled i = true ∧ .audio (.did (.stopSource i)) ∉ o
  pushed : ∀ i chunk, .pushed i chunk ∈ o → o = [.pushed i chunk] ∧
    s.system.guarded.startCalled i = true ∧ kindAt kinds i ≠ .off ∧
      chunk.format.channels ∣ chunk.samples.length

theorem tells_quiet {o : List (Event K)} (same : t.system.guarded = s.system.guarded)
    (quiet : ∀ e, .audio (.did e) ∉ o) (still : ∀ i chunk, .pushed i chunk ∉ o) :
    Tells kinds s t o where
  called _ called := .inr ⟨same ▸ called, quiet _⟩
  pushed i chunk listed := absurd listed (still i chunk)

theorem keep_lifted (inv : Inv kinds s) {a : Lifecycle.Act} (calm : a ≠ .advance)
    {o : List (Event K)}
    (hs : s.lift (Lifecycle.step (kinds.map Kind.info) hasStore s.system a) = some (t, o)) :
    Inv kinds t ∧ Tells kinds s t o := by
  obtain ⟨sys, es, moved, rfl, rfl⟩ := lift_some hs
  obtain ⟨guarded, quiet, kept⟩ := keep_calm inv calm moved
  refine ⟨kept, tells_quiet guarded (fun e listed => ?_) fun i chunk listed => ?_⟩
  · obtain ⟨e', listed', same⟩ := List.mem_map.mp listed
    exact quiet e (Event.audio.inj same ▸ listed')
  · obtain ⟨e', -, same⟩ := List.mem_map.mp listed
    cases same

theorem keep_advance (inv : Inv kinds s) {met : Opening} {o : List (Event K)}
    (hs : advance kinds s met = some (t, o)) : Inv kinds t ∧ Tells kinds s t o := by
  rcases advance_moves hs with
    ⟨i, rest, pending, captures, -, rfl, rfl⟩ |
      ⟨e, rest, sys, u, pending, called, moved, rfl, rfl⟩
  · have kept : Kept (s.source i) { s.source i with running := false } :=
      ⟨rfl, fun up => absurd up Bool.false_ne_true⟩
    refine ⟨inv.mono inv.audio inv.called (setSource_kept kept) rfl (Nat.le_refl _)
      (fun thread listed => ⟨thread, listed, rfl⟩) fun _ => ⟨i, rest, pending, captures, ?_⟩,
      tells_quiet rfl (fun e => List.not_mem_nil) fun i chunk => List.not_mem_nil⟩
    dsimp only
    rw [setSource_source, if_pos rfl]
  · refine ⟨keep_called inv pending called moved, ⟨fun i called' => ?_, fun i chunk listed => ?_⟩⟩
    · obtain ⟨e', rest', pending', -, -, guarded, -⟩ := LifecycleRuns.advance_cases moved
      obtain ⟨rfl, rfl⟩ := List.cons.inj (pending.symm.trans pending')
      dsimp only at called'
      rw [guarded, startCalled_exec] at called'
      rcases called' with ⟨ok, rfl⟩ | ⟨before, unstopped⟩
      · exact .inl ⟨ok, rfl⟩
      · refine .inr ⟨before, fun listed => unstopped ?_⟩
        cases List.mem_singleton.mp listed
        rfl
    · cases List.mem_singleton.mp listed

variable [Zero K]

theorem keep_capture (inv : Inv kinds s) {k : ℕ} {met : Met K} {o : List (Event K)}
    (hs : capture kinds s k met = some (t, o)) : Inv kinds t ∧ Tells kinds s t o := by
  obtain ⟨i, thread, moved, there, steps, rfl, rfl⟩ := capture_moves hs
  obtain ⟨kept, made⟩ := capture_step steps
  have listed : (i, thread) ∈ s.threads := List.mem_of_getElem? there
  refine ⟨inv.mono inv.audio inv.called (setSource_kept kept) rfl ?_ ?_ ?_, ?_, ?_⟩
  · dsimp only
    split
    · exact Nat.le_of_eq List.length_set
    · exact (List.eraseIdx_sublist _ _).length_le
  · intro thread' listed'
    dsimp only at listed'
    split at listed'
    · rcases List.mem_or_eq_of_mem_set listed' with old | rfl
      · exact ⟨thread', old, rfl⟩
      · exact ⟨(i, thread), listed, rfl⟩
    · exact ⟨thread', (List.eraseIdx_sublist _ _).subset listed', rfl⟩
  · intro halting
    obtain ⟨j, rest, pending, captures, down⟩ := inv.stopping halting
    exact ⟨j, rest, pending, captures, down_of_kept (setSource_kept kept j) down⟩
  · intro j called
    refine .inr ⟨called, fun stops => ?_⟩
    obtain ⟨chunk, -, same⟩ := List.mem_map.mp stops
    cases same
  · intro j chunk pushed
    cases handed : moved.chunk with
    | none =>
      rw [handed] at pushed
      cases pushed
    | some chunk' =>
      rw [handed] at pushed
      obtain ⟨rfl, rfl⟩ := Event.pushed.inj (List.mem_singleton.mp pushed)
      obtain ⟨whole, captures⟩ := made chunk handed
      exact ⟨rfl, inv.called j (inv.owned _ listed), captures, whole⟩

omit [Zero K] in
theorem keep_deviceChanged (inv : Inv kinds s) {i : ℕ} {o : List (Event K)}
    (hs : deviceChanged kinds s i = some (t, o)) : Inv kinds t ∧ Tells kinds s t o := by
  obtain ⟨-, hs⟩ := Option.ite_none_right_eq_some.mp hs
  obtain ⟨rfl, rfl⟩ := Prod.mk.inj (Option.some.inj hs)
  have kept : Kept (s.source i) { s.source i with restart := true } := ⟨rfl, id⟩
  refine ⟨inv.mono inv.audio inv.called (setSource_kept kept) rfl (Nat.le_refl _)
    (fun thread listed => ⟨thread, listed, rfl⟩) fun halting => ?_,
    tells_quiet rfl (fun e => List.not_mem_nil) fun i chunk => List.not_mem_nil⟩
  obtain ⟨j, rest, pending, captures, down⟩ := inv.stopping halting
  exact ⟨j, rest, pending, captures, down_of_kept (setSource_kept kept j) down⟩

theorem keep {a : Act K} {o : List (Event K)} (inv : Inv kinds s)
    (hs : step kinds hasStore s a = some (t, o)) : Inv kinds t ∧ Tells kinds s t o := by
  cases a with
  | start code out => exact keep_lifted inv (by simp) hs
  | stop => exact keep_lifted inv (by simp) hs
  | switchSource code code' out => exact keep_lifted inv (by simp) hs
  | advance met => exact keep_advance inv hs
  | dsp k => exact keep_lifted inv (by simp) hs
  | capture k met => exact keep_capture inv hs
  | deviceChanged i => exact keep_deviceChanged inv hs

variable {as : List (Act K)} {os : List (Event K)}

theorem inv_run (h : Machine.run (step kinds hasStore) initial as = some (s, os)) :
    Inv kinds s ∧ ∀ i, s.system.guarded.startCalled i = true → Started os i := by
  refine Machine.run_history (fun _ os s => Inv kinds s ∧
    ∀ i, s.system.guarded.startCalled i = true → Started os i)
    ⟨inv_initial kinds, fun i called => absurd called Bool.false_ne_true⟩ ?_ h
  rintro _ os s a t o ⟨inv, started⟩ moved
  obtain ⟨kept, tells⟩ := keep inv moved
  refine ⟨kept, fun i called => ?_⟩
  rcases tells.called i called with ⟨ok, rfl⟩ | ⟨before, unstopped⟩
  · exact ⟨os, [], ok, rfl, List.not_mem_nil⟩
  · exact started_append (started i before) unstopped

theorem activates_of_captures {i : ℕ} (captures : kindAt kinds i ≠ .off) :
    ∃ info ∈ (kinds.map Kind.info)[i]?, info.activatesCapture = true := by
  unfold kindAt at captures
  rw [List.getD_eq_getElem?_getD] at captures
  rw [List.getElem?_map]
  cases there : kinds[i]? with
  | none =>
    rw [there] at captures
    exact absurd rfl captures
  | some kind =>
    rw [there] at captures
    refine ⟨kind.info, rfl, ?_⟩
    cases kind with
    | loopback => rfl
    | process => rfl
    | off => exact absurd rfl captures

/-- Whatever the order of the calls, the DSP threads, the capture threads and the callbacks, and
whatever the devices answer: no `std::thread` is assigned while joinable; the ring has at most
one producer and one consumer, the producer being a thread of the current source; every `start`
that succeeds makes a thread; after `stop` there is none; and every push is made between the
`start` and the `stop` of a source that activates capture, as whole frames. -/
theorem one_capture_thread (h : Machine.run (step kinds hasStore) initial as = some (s, os)) :
    (s.terminated = false ∧ s.system.terminated = false) ∧
    (s.threads.length ≤ 1 ∧ s.system.threads.length ≤ 1) ∧
    (∀ thread ∈ s.threads, s.system.guarded.current = some thread.1) ∧
    (s.system.pending = [] → s.system.guarded.state = .off → s.threads = []) ∧
    (∀ i rest met t o, s.system.pending = .startSource i true :: rest → kindAt kinds i ≠ .off →
      step kinds hasStore s (.advance met : Act K) = some (t, o) →
      s.threads = [] ∧ t.threads = [(i, .setup)]) ∧
    (∀ pre post i chunk, os = pre ++ .pushed i chunk :: post → Started pre i ∧
      (∃ info ∈ (kinds.map Kind.info)[i]?, info.activatesCapture = true) ∧
      chunk.format.channels ∣ chunk.samples.length) := by
  obtain ⟨inv, -⟩ := inv_run h
  have standing := meets_standing inv.audio.disciplined
  refine ⟨⟨inv.alive, inv.audio.alive⟩, ⟨inv.few, ?_⟩, ?_, ?_, ?_, ?_⟩
  · refine Nat.le_trans inv.audio.threads ?_
    split_ifs
    · exact Nat.le_refl 1
    · exact Nat.zero_le 1
  · exact fun thread listed => standing.called _ (inv.called _ (inv.owned thread listed))
  · intro free off
    have resting := inv.audio.disciplined
    rw [free] at resting
    exact no_threads inv (resting.2.offIdle off)
  · intro i rest met t o pending captures moved
    have idle := idle_before_start inv pending
    have none' := no_threads inv idle
    refine ⟨none', ?_⟩
    rcases advance_moves moved with
      ⟨j, rest', pending', -⟩ | ⟨e, rest', sys, u, pending', called, -, rfl, -⟩
    · rw [pending] at pending'
      cases pending'
    · obtain ⟨rfl, -⟩ := List.cons.inj (pending.symm.trans pending')
      cases called with
      | other unstopped unstarted => exact absurd rfl (unstarted i)
      | opened j src opens => cases opens
      | running j starts up =>
        obtain ⟨rfl, -⟩ := Effect.startSource.inj starts
        have called := inv.called i (inv.running i up)
        rw [idle] at called
        cases called
      | silent j starts off =>
        obtain ⟨rfl, -⟩ := Effect.startSource.inj starts
        exact absurd off captures
      | spawned j src starts =>
        obtain ⟨rfl, -⟩ := Effect.startSource.inj starts
        dsimp only
        rw [none']
        rfl
      | joined j stops => cases stops
  · rintro pre post i chunk rfl
    obtain ⟨as₁, a, as₂, m, t, os₁, o₁, o₂, os₂, -, before, moved, -, front, -⟩ :=
      Machine.run_emitted h
    obtain ⟨inv', started⟩ := inv_run before
    obtain ⟨-, tells⟩ := keep inv' moved
    obtain ⟨alone, called, captures, whole⟩ := tells.pushed i chunk
      (List.mem_append_right _ List.mem_cons_self)
    have first : o₁ = [] := by
      cases o₁ with
      | nil => rfl
      | cons e o₁ =>
        have length := congrArg List.length alone
        rw [List.length_append, List.length_cons, List.length_cons, List.length_singleton] at length
        omega
    rw [front, first, List.append_nil]
    exact ⟨started i called, activates_of_captures captures, whole⟩

/-! ### A capture from its start to its stop -/

/-- The sources in the order of their registration. -/
def appSources : List Kind := [.loopback, .process, .off]

def allAnswer : Outcomes where
  availableDefault _ := true
  availableAny _ := true
  opened _ := some ⟨⟨48000, 2, .stereo⟩, 480, 2400⟩
  started _ := true

def noDevice : Opening := ⟨false, false, none, false⟩

def defaultDevice : Opening := ⟨true, true, some 48000, true⟩

def stereoMix : MixFormat := ⟨48000, 2, true, 3⟩

/-- One packet is captured, the default device changes, and the AudioSystem stops. -/
def capturedOnce : List (Act ℤ) :=
  .start "system" allAnswer :: List.replicate 8 (.advance defaultDevice) ++
    [.capture 0 (.setup (some stereoMix) true false true), .capture 0 .test,
      .capture 0 (.wake .object), .capture 0 (.packet ⟨some fun i => i, 3, false⟩),
      .deviceChanged 0, .stop, .advance noDevice, .advance noDevice, .capture 0 .drained,
      .capture 0 .test, .capture 0 .leave] ++
    List.replicate 2 (.advance noDevice) ++ [.dsp 0, .dsp 0] ++
    List.replicate 6 (.advance noDevice)

theorem captured_once_between :
    ∃ s os, Machine.run (step appSources true) initial capturedOnce = some (s, os) ∧
      s.threads = [] ∧ ∃ pre post chunk, os = pre ++ .pushed 0 chunk :: post ∧
        chunk.samples = [0, 1, 2, 3, 4, 5] ∧ Started pre 0 := by
  have h : ∃ p, Machine.run (step appSources true) initial capturedOnce = some p ∧
      p.1.system.pending = [] ∧ p.1.system.guarded.state = .off ∧
      ∃ chunk, p.2[8]? = some (.pushed 0 chunk) ∧ chunk.samples = [0, 1, 2, 3, 4, 5] :=
    ⟨_, rfl, rfl, rfl, _, rfl, rfl⟩
  obtain ⟨⟨s, os⟩, h, free, off, chunk, pushed, samples⟩ := h
  obtain ⟨-, -, -, stopped, -, between⟩ := one_capture_thread h
  obtain ⟨below, there⟩ := List.getElem?_eq_some_iff.mp pushed
  have split : os = os.take 8 ++ .pushed 0 chunk :: os.drop 9 := by
    rw [← there, List.getElem_cons_drop, List.take_append_drop]
  exact ⟨s, os, h, stopped free off, os.take 8, os.drop 9, chunk, split, samples,
    (between _ _ _ _ split).1⟩

end Listeningway.System.CaptureThreads
