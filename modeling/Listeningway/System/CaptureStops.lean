/- Listeningway/System/CaptureStops
   source: src/audio/pipeline/audio_system.cpp; src/audio/source/wasapi_loopback_source.cpp;
     src/audio/source/process_audio_source.cpp
   digest: The end of a capture thread: the join of stop, and a thread that left on its own. -/

import Listeningway.System.CaptureRuns

set_option autoImplicit false
set_option relaxedAutoImplicit false

namespace Listeningway.System.CaptureThreads

open Listeningway.Lib
open Listeningway.Lib.Script
open Listeningway.Source
open Listeningway.Source.AudioSource
open Listeningway.Source.CaptureSource
open Listeningway.System.Lifecycle (Effect)

variable {K : Type} {kinds : List Kind} {hasStore : Bool} {s t : State}

/-! ### Which source a call stops -/

/-- The source that is stopped next is the current one. -/
def StopsCurrent (current : Option ℕ) : List Effect → Prop
  | [] => True
  | .stopSource i :: es => current = some i ∧ ∀ j, .stopSource j ∉ es
  | .setCurrent _ :: es => ∀ j, .stopSource j ∉ es
  | _ :: es => StopsCurrent current es

theorem stopsCurrent_of_unstopped (current : Option ℕ) {es : List Effect}
    (unstopped : ∀ j, .stopSource j ∉ es) : StopsCurrent current es := by
  induction es with
  | nil => trivial
  | cons e es ih =>
    have rest : ∀ j, .stopSource j ∉ es := fun j listed =>
      unstopped j (List.mem_cons_of_mem _ listed)
    cases e with
    | stopSource i => exact absurd List.mem_cons_self (unstopped i)
    | setCurrent c => exact rest
    | _ => exact ih rest

theorem stopsCurrent_exec {g : Lifecycle.Guarded} {e : Effect} {es : List Effect}
    (stops : StopsCurrent g.current (e :: es)) : StopsCurrent (g.exec e).current es := by
  cases e with
  | stopSource i => exact stopsCurrent_of_unstopped _ stops.2
  | setCurrent c => exact stopsCurrent_of_unstopped _ stops
  | _ => exact stops

theorem start_locked_unstopped (sources : List Info) (code : String) (out : Outcomes) (j : ℕ) :
    .stopSource j ∉ Lifecycle.startLocked sources code out := by
  unfold Lifecycle.startLocked
  dsimp only
  split
  · simp
  · split
    · simp
    · split_ifs <;> simp

theorem start_unstopped (sources : List Info) (g : Lifecycle.Guarded) (code : String)
    (out : Outcomes) (j : ℕ) : .stopSource j ∉ Lifecycle.start sources g code out := by
  unfold Lifecycle.start
  split_ifs
  · simp
  · exact start_locked_unstopped sources code out j

theorem stop_locked_stopsCurrent (g : Lifecycle.Guarded) {es : List Effect}
    (unstopped : ∀ j, .stopSource j ∉ es) :
    StopsCurrent g.current (Lifecycle.stopLocked g ++ es) := by
  unfold Lifecycle.stopLocked
  split_ifs
  · exact stopsCurrent_of_unstopped _ unstopped
  · cases current : g.current with
    | none =>
      intro j listed
      simp [unstopped j] at listed
    | some i =>
      refine ⟨rfl, fun j listed => ?_⟩
      simp [unstopped j] at listed

theorem stopsCurrent_step {sources : List Info} {sys sys' : Lifecycle.State}
    {a : Lifecycle.Act} {es : List Lifecycle.Event}
    (stops : StopsCurrent sys.guarded.current sys.pending)
    (moved : Lifecycle.step sources hasStore sys a = some (sys', es)) :
    StopsCurrent sys'.guarded.current sys'.pending := by
  have locked : ∀ {script : List Effect}, StopsCurrent sys.guarded.current script →
      ((if sys.pending = [] then some { sys with pending := script } else none).map
        fun t => (t, ([] : List Lifecycle.Event))) = some (sys', es) →
      StopsCurrent sys'.guarded.current sys'.pending := by
    intro script stops locks
    obtain ⟨held, locks, same⟩ := Option.map_eq_some_iff.mp locks
    obtain ⟨-, made⟩ := Option.ite_none_right_eq_some.mp locks
    obtain ⟨rfl, -⟩ := Prod.mk.inj same
    rw [← Option.some.inj made]
    exact stops
  cases a with
  | start code out =>
    exact locked (stopsCurrent_of_unstopped _ (start_unstopped sources sys.guarded code out)) moved
  | stop => exact locked (stop_locked_stopsCurrent sys.guarded fun j => by simp) moved
  | switchSource code code' out =>
    have rest : ∀ j, .stopSource j ∉ (if hasStore then [.mutateCode code, .saveStore] else []) ++
        Lifecycle.startLocked sources code' out := by
      intro j listed
      rcases List.mem_append.mp listed with written | started
      · split_ifs at written <;> simp at written
      · exact start_locked_unstopped sources code' out j started
    have stops' := stop_locked_stopsCurrent sys.guarded rest
    rw [← List.append_assoc] at stops'
    exact locked stops' moved
  | advance =>
    obtain ⟨e, rest, pending, -, pending', guarded, -⟩ := LifecycleRuns.advance_cases moved
    rw [pending] at stops
    rw [guarded, pending']
    exact stopsCurrent_exec stops
  | dsp k =>
    obtain ⟨guarded, pending, -⟩ := LifecycleRuns.dsp_frame moved
    rw [guarded, pending]
    exact stops

section Runs

variable [Zero K] {a : Act K} {o : List (Event K)}

theorem step_system (hs : step kinds hasStore s a = some (t, o)) :
    t.system = s.system ∨ ∃ a' es,
      Lifecycle.step (kinds.map Kind.info) hasStore s.system a' = some (t.system, es) := by
  have lifted : ∀ {a' : Lifecycle.Act}, s.lift
      (Lifecycle.step (kinds.map Kind.info) hasStore s.system a') = some (t, o) →
      ∃ a' es, Lifecycle.step (kinds.map Kind.info) hasStore s.system a' =
        some (t.system, es) := by
    intro a' hs
    obtain ⟨sys, es, moved, rfl, -⟩ := lift_some hs
    exact ⟨a', es, moved⟩
  cases a with
  | start code out => exact .inr (lifted hs)
  | stop => exact .inr (lifted hs)
  | switchSource code code' out => exact .inr (lifted hs)
  | advance met =>
    rcases advance_moves hs with ⟨i, rest, -, -, -, -, rfl⟩ | ⟨e, rest, sys, u, -, -, moved, rfl, -⟩
    · exact .inl rfl
    · exact .inr ⟨.advance, [.did e], moved⟩
  | dsp k => exact .inr (lifted hs)
  | capture k met =>
    obtain ⟨i, thread, moved, -, -, rfl, -⟩ := capture_moves hs
    exact .inl rfl
  | deviceChanged i =>
    obtain ⟨-, hs⟩ := Option.ite_none_right_eq_some.mp hs
    obtain ⟨rfl, -⟩ := Prod.mk.inj (Option.some.inj hs)
    exact .inl rfl

theorem stopsCurrent_run {as : List (Act K)} {os : List (Event K)}
    (h : Machine.run (step kinds hasStore) initial as = some (s, os)) :
    StopsCurrent s.system.guarded.current s.system.pending := by
  have none' : StopsCurrent initial.system.guarded.current initial.system.pending := trivial
  refine Machine.run_invariant
    (fun s => StopsCurrent s.system.guarded.current s.system.pending) none' ?_ h
  intro s a t o stops moved
  rcases step_system moved with same | ⟨a', es, moves⟩
  · rwa [same]
  · exact stopsCurrent_step stops moves

/-! ### The join of a source's `stop` -/

/-- The moves that a thread has left once `running_` is down, besides the packets. -/
def left : Capture → ℕ
  | .setup => 3
  | .head _ => 2
  | .waiting _ => 2
  | .draining _ => 3
  | .leaving => 1

def State.left (s : State) : ℕ := (s.threads.map fun thread => CaptureThreads.left thread.2).sum

/-- A move of a capture thread that is not a packet of the device. -/
def Act.moves : Act K → Bool
  | .capture _ (.packet _) => false
  | .capture _ _ => true
  | _ => false

/-- The call that holds the mutex waits for the thread of source `i`. -/
structure Waits (i : ℕ) (s : State) : Prop where
  held : s.system.pending ≠ []
  down : (s.source i).running = false
  own : ∀ thread ∈ s.threads, thread.1 = i

theorem capture_left {kind : Kind} {src : SourceState} {thread : Capture} {met : Met K}
    {moved : Moved K} (down : src.running = false)
    (hs : thread.step kind src met = some moved) :
    match moved.thread with
    | some next => left next + (if (Act.capture 0 met).moves then 1 else 0) ≤ left thread
    | none => 1 ≤ left thread := by
  cases thread with
  | setup =>
    cases met with
    | setup mix converted fallback streams =>
      rw [← Option.some.inj hs]
      dsimp only
      have early : (kind.setup src mix converted fallback streams).2 = .leaving ∨
          ∃ format, (kind.setup src mix converted fallback streams).2 = .head format := by
        unfold Kind.setup
        cases kind with
        | loopback =>
          cases mix with
          | none =>
            dsimp only
            split_ifs <;> exact .inl rfl
          | some wfx =>
            dsimp only
            split_ifs <;> first | exact .inl rfl | exact .inr ⟨_, rfl⟩
        | process =>
          dsimp only
          split_ifs
          · exact .inr ⟨_, rfl⟩
          · exact .inl rfl
        | off => exact .inl rfl
      rcases early with next | ⟨format, next⟩
      · rw [next]
        simp [left, Act.moves]
      · rw [next]
        simp [left, Act.moves]
    | _ => cases hs
  | head format =>
    cases met with
    | test =>
      rw [← Option.some.inj hs, down]
      simp [left, Act.moves]
    | _ => cases hs
  | waiting format =>
    cases met with
    | wake wait =>
      rw [Capture.step, if_neg (by rw [down]; decide)] at hs
      rw [← Option.some.inj hs]
      simp [left, Act.moves]
    | _ => cases hs
  | draining format =>
    cases met with
    | packet packet =>
      rw [← Option.some.inj hs]
      simp [left, Act.moves]
    | drained =>
      rw [← Option.some.inj hs]
      simp [left, Act.moves]
    | refused =>
      rw [Capture.step] at hs
      split_ifs at hs <;> rw [← Option.some.inj hs] <;> simp [left, Act.moves]
    | _ => cases hs
  | leaving =>
    cases met with
    | leave =>
      rw [← Option.some.inj hs]
      exact Nat.le_refl 1
    | _ => cases hs

theorem sum_set (threads : List (ℕ × Capture)) {k : ℕ} {old : ℕ × Capture}
    (there : threads[k]? = some old) (new : ℕ × Capture) :
    ((threads.set k new).map fun thread => left thread.2).sum + left old.2 =
      (threads.map fun thread => left thread.2).sum + left new.2 := by
  induction threads generalizing k with
  | nil => cases there
  | cons thread threads ih =>
    cases k with
    | zero =>
      cases there
      rw [List.set_cons_zero, List.map_cons, List.sum_cons, List.map_cons, List.sum_cons]
      omega
    | succ k =>
      have rest := ih (k := k) there
      rw [List.set_cons_succ, List.map_cons, List.sum_cons, List.map_cons, List.sum_cons]
      omega

theorem sum_eraseIdx (threads : List (ℕ × Capture)) {k : ℕ} {old : ℕ × Capture}
    (there : threads[k]? = some old) :
    ((threads.eraseIdx k).map fun thread => left thread.2).sum + left old.2 =
      (threads.map fun thread => left thread.2).sum := by
  induction threads generalizing k with
  | nil => cases there
  | cons thread threads ih =>
    cases k with
    | zero =>
      cases there
      rw [List.eraseIdx_cons_zero, List.map_cons, List.sum_cons]
      omega
    | succ k =>
      have rest := ih (k := k) there
      rw [List.eraseIdx_cons_succ, List.map_cons, List.sum_cons, List.map_cons, List.sum_cons]
      omega

theorem waits_step {i : ℕ} (waits : Waits i s) (still : ∀ met, a ≠ .advance met)
    (hs : step kinds hasStore s a = some (t, o)) :
    Waits i t ∧ t.system.pending = s.system.pending ∧ t.stopping = s.stopping ∧
      t.left + (if a.moves then 1 else 0) ≤ s.left := by
  have locks : ∀ {script : List Effect}, s.lift
      ((if s.system.pending = [] then some { s.system with pending := script } else none).map
        fun t => (t, ([] : List Lifecycle.Event))) = some (t, o) → False := by
    intro script hs
    rw [if_neg waits.held] at hs
    cases hs
  cases a with
  | start code out => exact (locks hs).elim
  | stop => exact (locks hs).elim
  | switchSource code code' out => exact (locks hs).elim
  | advance met => exact absurd rfl (still met)
  | dsp k =>
    obtain ⟨sys, es, moved, rfl, -⟩ := lift_some hs
    obtain ⟨-, pending, -⟩ := LifecycleRuns.dsp_frame moved
    exact ⟨⟨pending ▸ waits.held, waits.down, waits.own⟩, pending, rfl, Nat.le_refl _⟩
  | capture k met =>
    obtain ⟨j, thread, moved, there, steps, rfl, -⟩ := capture_moves hs
    have here : j = i := waits.own _ (List.mem_of_getElem? there)
    subst here
    obtain ⟨kept, -⟩ := capture_step steps
    have less := capture_left waits.down steps
    refine ⟨⟨waits.held, down_of_kept (setSource_kept kept j) waits.down, ?_⟩, rfl, rfl, ?_⟩
    · intro thread' listed'
      dsimp only at listed'
      split at listed'
      · rcases List.mem_or_eq_of_mem_set listed' with old | rfl
        · exact waits.own _ old
        · rfl
      · exact waits.own _ ((List.eraseIdx_sublist _ _).subset listed')
    · unfold State.left
      dsimp only
      cases next : moved.thread with
      | some next' =>
        rw [next] at less
        have total := sum_set s.threads there (j, next')
        dsimp only at less total ⊢
        have same : (Act.capture k met).moves = (Act.capture 0 met).moves := by
          cases met <;> rfl
        rw [same]
        omega
      | none =>
        rw [next] at less
        have total := sum_eraseIdx s.threads there
        dsimp only at less total ⊢
        split_ifs <;> omega
  | deviceChanged j =>
    obtain ⟨-, hs⟩ := Option.ite_none_right_eq_some.mp hs
    obtain ⟨rfl, -⟩ := Prod.mk.inj (Option.some.inj hs)
    have kept : Kept (s.source j) { s.source j with restart := true } := ⟨rfl, id⟩
    exact ⟨⟨waits.held, down_of_kept (setSource_kept kept i) waits.down, waits.own⟩, rfl, rfl,
      Nat.le_refl _⟩

theorem waits_run {i : ℕ} {later : List (Act K)} {os : List (Event K)} (waits : Waits i s)
    (still : ∀ a ∈ later, ∀ met, a ≠ .advance met)
    (h : Machine.run (step kinds hasStore) s later = some (t, os)) :
    Waits i t ∧ t.system.pending = s.system.pending ∧ t.stopping = s.stopping ∧
      t.left + later.countP Act.moves ≤ s.left := by
  induction later generalizing s os with
  | nil =>
    obtain ⟨rfl, -⟩ := Prod.mk.inj (Option.some.inj h)
    exact ⟨waits, rfl, rfl, Nat.le_refl _⟩
  | cons a later ih =>
    obtain ⟨m, o₁, o₂, moved, rest, -⟩ := Machine.run_cons_iff.mp h
    obtain ⟨now, others⟩ := List.forall_mem_cons.mp still
    obtain ⟨waits', pending, stopping, less⟩ := waits_step waits now moved
    obtain ⟨waits'', pending', stopping', less'⟩ := ih waits' others rest
    refine ⟨waits'', pending'.trans pending, stopping'.trans stopping, ?_⟩
    rw [List.countP_cons]
    omega

theorem thread_moves (kind : Kind) (src : SourceState) (thread : Capture) :
    ∃ met : Met K, (Act.capture 0 met).moves = true ∧ (thread.step kind src met).isSome := by
  cases thread with
  | setup => exact ⟨.setup none false false false, rfl, rfl⟩
  | head format => exact ⟨.test, rfl, rfl⟩
  | waiting format =>
    refine ⟨.wake .object, rfl, ?_⟩
    rw [Capture.step]
    split_ifs <;> rfl
  | draining format => exact ⟨.drained, rfl, rfl⟩
  | leaving => exact ⟨.leave, rfl, rfl⟩

/-- A `stop` that waits for a capture thread: in every continuation of the run in which the call
has not gone on, whatever else happens, at most three moves of the thread are not packets that
it drains; while the thread lives such a move is open to it, and when it is gone the join is. The
drain of packets does not look at `running_`. -/
theorem stop_joins {as : List (Act K)} {os : List (Event K)}
    (h : Machine.run (step kinds hasStore) initial as = some (s, os)) (halting : s.stopping = true)
    {later : List (Act K)} {os' : List (Event K)} (still : ∀ a ∈ later, ∀ met, a ≠ .advance met)
    (h' : Machine.run (step kinds hasStore) s later = some (t, os')) :
    ∃ i rest, s.system.pending = .stopSource i :: rest ∧
      t.threads.length ≤ 1 ∧ later.countP Act.moves ≤ 3 ∧
      (t.threads ≠ [] → ∃ met : Met K, (Act.capture 0 met).moves = true ∧
        (step kinds hasStore t (.capture 0 met)).isSome) ∧
      (t.threads = [] → ∀ met, ∃ u, step kinds hasStore t (.advance met : Act K) =
        some (u, [.audio (.did (.stopSource i))]) ∧ u.system.pending = rest ∧
          u.stopping = false ∧ (u.source i).joinable = false) := by
  obtain ⟨inv, -⟩ := inv_run h
  obtain ⟨i, rest, pending, captures, down⟩ := inv.stopping halting
  have current := stopsCurrent_run h
  rw [pending] at current
  have standing := meets_standing inv.audio.disciplined
  have waits : Waits i s := by
    refine ⟨by rw [pending]; exact List.cons_ne_nil _ _, down, fun thread listed => ?_⟩
    have mine := standing.called _ (inv.called _ (inv.owned thread listed))
    rw [current.1] at mine
    exact (Option.some.inj mine).symm
  have few : s.left ≤ 3 := by
    have one := inv.few
    unfold State.left
    cases threads : s.threads with
    | nil => exact Nat.zero_le 3
    | cons thread threads' =>
      rw [threads, List.length_cons] at one
      have none' : threads' = [] := List.length_eq_zero_iff.mp (by omega)
      rw [none', List.map_singleton, List.sum_singleton]
      cases thread.2 <;> simp [left]
  obtain ⟨waits', pending', stopping', less⟩ := waits_run waits still h'
  obtain ⟨inv', -⟩ := inv_run (Machine.run_append_iff.mpr ⟨s, os, os', h, h', rfl⟩)
  refine ⟨i, rest, pending, inv'.few, by omega, fun lives => ?_, fun gone met => ?_⟩
  · cases threads : t.threads with
    | nil => exact absurd threads lives
    | cons thread threads' =>
      obtain ⟨j, position⟩ := thread
      obtain ⟨met, own, open'⟩ := thread_moves (K := K) (kindAt kinds j) (t.source j) position
      refine ⟨met, own, ?_⟩
      obtain ⟨moved, moves⟩ := Option.isSome_iff_exists.mp open'
      have first : t.threads[0]? = some (j, position) := by
        rw [threads]
        rfl
      rw [step, capture, first]
      dsimp only
      rw [moves]
      rfl
  · have held : t.system.pending = .stopSource i :: rest := pending'.trans pending
    have free : ¬ ((t.source i).joinable && t.threads.any fun thread => thread.1 = i) = true := by
      rw [gone, List.any_nil, Bool.and_false]
      exact Bool.false_ne_true
    rw [step, advance, held]
    dsimp only
    rw [if_neg captures, stopping', halting, if_neg (by decide : ¬ (!true) = true), if_neg free,
      State.lift, Lifecycle.advanceStep, held]
    refine ⟨_, rfl, rfl, rfl, ?_⟩
    dsimp only
    rw [setSource_source, if_pos rfl]

/-! ### A thread that left on its own -/

/-- The AudioSystem runs, no thread captures, and nothing is about to change it. -/
structure Lost (s : State) : Prop where
  threads : s.threads = []
  state : s.system.guarded.state = .running
  pending : s.system.pending = [] ∨ s.system.pending = [.unlock (some true)]

/-- What a step of a lost capture may tell. -/
def Mute (o : List (Event K)) : Prop :=
  (∀ i chunk, .pushed i chunk ∉ o) ∧
    ∀ e, .audio (.did e) ∈ o → e = .unlock (some true)

theorem lost_step (lost : Lost s) (stays : a ≠ .stop)
    (stays' : ∀ code code' out, a ≠ .switchSource code code' out)
    (hs : step kinds hasStore s a = some (t, o)) : Lost t ∧ Mute o := by
  cases a with
  | start code out =>
    obtain ⟨sys, es, moved, rfl, rfl⟩ := lift_some hs
    obtain ⟨held, locks, same⟩ := Option.map_eq_some_iff.mp moved
    obtain ⟨-, made⟩ := Option.ite_none_right_eq_some.mp locks
    obtain ⟨rfl, rfl⟩ := Prod.mk.inj same
    rw [← Option.some.inj made]
    have answers : Lifecycle.start (kinds.map Kind.info) s.system.guarded code out =
        [.unlock (some true)] := by
      rw [Lifecycle.start, lost.state, if_pos (by decide)]
      rfl
    exact ⟨⟨lost.threads, lost.state, .inr answers⟩, fun i chunk => List.not_mem_nil,
      fun e listed => absurd listed List.not_mem_nil⟩
  | stop => exact absurd rfl stays
  | switchSource code code' out => exact absurd rfl (stays' code code' out)
  | advance met =>
    rcases lost.pending with free | answers
    · rcases advance_moves hs with ⟨i, rest, pending, -⟩ | ⟨e, rest, sys, u, pending, -⟩
      · rw [free] at pending
        cases pending
      · rw [free] at pending
        cases pending
    · rw [step, advance, answers] at hs
      dsimp only at hs
      obtain ⟨sys, es, moved, rfl, rfl⟩ := lift_some hs
      rw [Lifecycle.advanceStep, answers] at moved
      obtain ⟨rfl, rfl⟩ := Prod.mk.inj (Option.some.inj moved)
      refine ⟨⟨lost.threads, lost.state, .inl rfl⟩, fun i chunk listed => ?_, fun e listed => ?_⟩
      · cases List.mem_singleton.mp listed
      · cases List.mem_singleton.mp listed
        rfl
  | dsp k =>
    obtain ⟨sys, es, moved, rfl, rfl⟩ := lift_some hs
    obtain ⟨guarded, pending, -⟩ := LifecycleRuns.dsp_frame moved
    refine ⟨⟨lost.threads, by dsimp only; rw [guarded]; exact lost.state, ?_⟩, ?_⟩
    · dsimp only
      rw [pending]
      exact lost.pending
    · rcases LifecycleRuns.dsp_emits moved with rfl | rfl
      · exact ⟨fun i chunk => List.not_mem_nil, fun e listed => absurd listed List.not_mem_nil⟩
      · refine ⟨fun i chunk listed => ?_, fun e listed => ?_⟩
        · cases List.mem_singleton.mp listed
        · cases List.mem_singleton.mp listed
  | capture k met =>
    obtain ⟨i, thread, moved, there, -⟩ := capture_moves hs
    rw [lost.threads] at there
    cases there
  | deviceChanged i =>
    obtain ⟨-, hs⟩ := Option.ite_none_right_eq_some.mp hs
    obtain ⟨rfl, rfl⟩ := Prod.mk.inj (Option.some.inj hs)
    exact ⟨⟨lost.threads, lost.state, lost.pending⟩, fun i chunk => List.not_mem_nil,
      fun e listed => absurd listed List.not_mem_nil⟩

/-- Once the capture thread has left on its own, with `restart_requested` raised or not, no
continuation without `stop` and `switch_source` pushes anything again: the AudioSystem stays in
`Running`, and `start` answers true without an effect. -/
theorem lost_capture {later : List (Act K)} {os' : List (Event K)}
    (gone : s.threads = []) (state : s.system.guarded.state = .running)
    (free : s.system.pending = [])
    (stays : ∀ a ∈ later, a ≠ .stop ∧ ∀ code code' out, a ≠ .switchSource code code' out)
    (h : Machine.run (step kinds hasStore) s later = some (t, os')) :
    t.threads = [] ∧ t.system.guarded.state = .running ∧
      (∀ i chunk, .pushed i chunk ∉ os') ∧
      ∀ e, .audio (.did e) ∈ os' → e = .unlock (some true) := by
  have lost : Lost s := ⟨gone, state, .inl free⟩
  have run : Lost t ∧ Mute os' := by
    clear gone state free
    induction later generalizing s os' with
    | nil =>
      obtain ⟨rfl, rfl⟩ := Prod.mk.inj (Option.some.inj h)
      exact ⟨lost, fun i chunk => List.not_mem_nil,
        fun e listed => absurd listed List.not_mem_nil⟩
    | cons a later ih =>
      obtain ⟨m, o₁, o₂, moved, rest, rfl⟩ := Machine.run_cons_iff.mp h
      obtain ⟨⟨now, now'⟩, others⟩ := List.forall_mem_cons.mp stays
      obtain ⟨lost', still, quiet⟩ := lost_step lost now now' moved
      obtain ⟨lost'', still', quiet'⟩ := ih others rest lost'
      refine ⟨lost'', fun i chunk listed => ?_, fun e listed => ?_⟩
      · exact (List.mem_append.mp listed).elim (still i chunk) (still' i chunk)
      · exact (List.mem_append.mp listed).elim (quiet e) (quiet' e)
  exact ⟨run.1.threads, run.1.state, run.2⟩

/-! ### A stalled capture, and a stop -/

/-- The start of the process loopback, whose events stay away until the thread leaves. -/
def stalledRun : List (Act ℤ) :=
  .start "process" allAnswer :: List.replicate 8 (.advance defaultDevice) ++
    [.capture 0 (.setup none false false true), .capture 0 .test,
      .capture 0 (.wake (.timeout true)), .capture 0 .leave]

/-- A `stop` of the system loopback up to the join, the thread being in its wait. -/
def haltedRun : List (Act ℤ) :=
  .start "system" allAnswer :: List.replicate 8 (.advance defaultDevice) ++
    [.capture 0 (.setup (some stereoMix) true false true), .capture 0 .test, .stop,
      .advance noDevice, .advance noDevice]

/-- The thread wakes and leaves. -/
def leavingRun : List (Act ℤ) :=
  [.capture 0 (.wake .object), .deviceChanged 0, .capture 0 .leave]

theorem stalled_capture_lost :
    ∃ s os, Machine.run (step appSources true) initial stalledRun = some (s, os) ∧
      (s.source 1).restart = true ∧
      ∀ (later : List (Act ℤ)) t os', (∀ a ∈ later, a ≠ .stop ∧
          ∀ code code' out, a ≠ .switchSource code code' out) →
        Machine.run (step appSources true) s later = some (t, os') →
        t.system.guarded.state = .running ∧ ∀ i chunk, .pushed i chunk ∉ os' := by
  have h : ∃ p, Machine.run (step appSources true) initial stalledRun = some p ∧
      p.1.threads = [] ∧ p.1.system.guarded.state = .running ∧ p.1.system.pending = [] ∧
      (p.1.source 1).restart = true := ⟨_, rfl, rfl, rfl, rfl, rfl⟩
  obtain ⟨⟨s, os⟩, h, gone, state, free, restart⟩ := h
  refine ⟨s, os, h, restart, fun later t os' stays run => ?_⟩
  obtain ⟨-, state', mute, -⟩ := lost_capture gone state free stays run
  exact ⟨state', mute⟩

/-- A `stop` while the thread waits for the device: two moves later the join is open. -/
theorem waiting_capture_joins :
    ∃ s os, Machine.run (step appSources true) initial haltedRun = some (s, os) ∧
      ∃ t os', Machine.run (step appSources true) s leavingRun = some (t, os') ∧
      ∃ u, step appSources true t (.advance noDevice : Act ℤ) =
        some (u, [.audio (.did (.stopSource 0))]) ∧ (u.source 0).joinable = false := by
  have h : ∃ p, Machine.run (step appSources true) initial haltedRun = some p ∧
      p.1.stopping = true ∧ (∃ rest, p.1.system.pending = .stopSource 0 :: rest) ∧
      ∃ q, Machine.run (step appSources true) p.1 leavingRun = some q ∧ q.1.threads = [] :=
    ⟨_, rfl, rfl, ⟨_, rfl⟩, _, rfl, rfl⟩
  obtain ⟨⟨s, os⟩, h, halting, ⟨rest, stops⟩, ⟨t, os'⟩, h', gone⟩ := h
  have still : ∀ a ∈ leavingRun, ∀ met, a ≠ .advance met := by simp [leavingRun]
  obtain ⟨i, rest', pending, -, -, -, joins⟩ := stop_joins h halting still h'
  obtain ⟨u, moved, -, -, down⟩ := joins gone noDevice
  have here : i = 0 := by
    obtain ⟨same, -⟩ := List.cons.inj (pending.symm.trans stops)
    exact Effect.stopSource.inj same
  rw [here] at moved down
  exact ⟨s, os, h, t, os', h', u, moved, down⟩

end Runs

end Listeningway.System.CaptureThreads
