/- Listeningway/System/LifecycleRuns
   source: src/audio/pipeline/audio_system.cpp
   digest: The lifecycle invariant over every sequence of calls and every outcome. -/

import Listeningway.Lib.Script
import Listeningway.System.Lifecycle

set_option autoImplicit false
set_option relaxedAutoImplicit false

namespace Listeningway.System.LifecycleRuns

open Listeningway.Lib.Machine
open Listeningway.Lib.Script
open Listeningway.Source.AudioSource
open Listeningway.System.Lifecycle

/-! ### The discipline of one call -/

/-- Only the current source is between a `start` and its `stop`. -/
structure Standing (g : Guarded) : Prop where
  called : ∀ i, g.startCalled i = true → g.current = some i
  started : ∀ i, g.started i = true → g.startCalled i = true

/-- What each effect relies on. -/
def Allowed (g : Guarded) : Effect → Prop
  | .spawnDsp => g.joinable = false
  | .startSource i _ => g.current = some i ∧ g.startCalled i = false
  | .joinDsp => g.dspRunning = false
  | .publishZero => g.joinable = false
  | _ => True

/-- The guarded fields whenever `state_mutex_` is free. -/
structure Resting (g : Guarded) : Prop where
  settled : g.state = .off ∨ g.state = .running ∨ g.state = .error
  joinable : g.joinable = true ↔ g.state = .running
  offIdle : g.state = .off → ∀ i, g.startCalled i = false

/-- The guarded fields between `stop_locked` and `start_locked`. -/
structure Stopped (g : Guarded) : Prop where
  state : g.state = .off
  joinable : g.joinable = false
  idle : ∀ i, g.startCalled i = false

abbrev Disciplined := Meets Guarded.exec Standing Allowed

theorem standing_of_idle {g : Guarded} (idle : ∀ i, g.startCalled i = false)
    (quiet : ∀ i, g.started i = false) : Standing g := by
  constructor
  · intro i hi
    simp [idle i] at hi
  · intro i hi
    simp [quiet i] at hi

theorem standing_of_same {g' : Guarded} {called started : ℕ → Bool} (idle : ∀ i, called i = false)
    (quiet : ∀ i, started i = false) (hcalled : g'.startCalled = called)
    (hstarted : g'.started = started) : Standing g' := by
  subst hcalled hstarted
  exact standing_of_idle idle quiet

theorem quiet_of_idle {g : Guarded} (h : Standing g) (idle : ∀ i, g.startCalled i = false)
    (i : ℕ) : g.started i = false := by
  by_contra on
  have called := h.started i (by simpa using on)
  simp [idle i] at called

theorem idle_of_no_current {g : Guarded} (h : Standing g) (none : g.current = none) (i : ℕ) :
    g.startCalled i = false := by
  by_contra on
  have cur := h.called i (by simpa using on)
  rw [none] at cur
  cases cur

theorem idle_of_stopped {g : Guarded} (h : Standing g) {c : ℕ} (hc : g.current = some c) (i : ℕ) :
    Function.update g.startCalled c false i = false := by
  by_cases hi : i = c
  · simp [hi]
  · rw [Function.update_of_ne hi]
    by_contra on
    have cur := h.called i (by simpa using on)
    rw [hc] at cur
    exact hi (Option.some.inj cur).symm

theorem quiet_of_stopped {g : Guarded} (h : Standing g) {c : ℕ} (hc : g.current = some c) (i : ℕ) :
    Function.update g.started c false i = false := by
  by_cases hi : i = c
  · simp [hi]
  · rw [Function.update_of_ne hi]
    by_contra on
    have called := idle_of_stopped h hc i
    rw [Function.update_of_ne hi, h.started i (by simpa using on)] at called
    cases called

theorem standing_of_current {g g' : Guarded} (idle : ∀ i, g.startCalled i = false)
    (quiet : ∀ i, g.started i = false) {c : ℕ} {ok : Bool} (current : g'.current = some c)
    (called : g'.startCalled = Function.update g.startCalled c true)
    (started : g'.started = Function.update g.started c (g.started c || ok)) : Standing g' := by
  constructor
  · intro i hi
    by_cases hic : i = c
    · rw [current, hic]
    · rw [called, Function.update_of_ne hic, idle i] at hi
      cases hi
  · intro i hi
    by_cases hic : i = c
    · rw [called, hic, Function.update_self]
    · rw [started, Function.update_of_ne hic, quiet i] at hi
      cases hi

theorem resting_of_error {g : Guarded} (failed : g.state = .error) (down : g.joinable = false) :
    Resting g := by
  refine ⟨.inr (.inr failed), ?_, ?_⟩ <;> simp [failed, down]

theorem stop_locked_disciplined {g : Guarded} (standing : Standing g) (resting : Resting g) :
    Disciplined Stopped g (stopLocked g) := by
  by_cases off : g.state = .off
  · have down : g.joinable = false := by
      by_contra up
      have running := resting.joinable.mp (by simpa using up)
      rw [off] at running
      cases running
    rw [stopLocked, if_pos off]
    exact ⟨standing, off, down, resting.offIdle off⟩
  · rw [stopLocked, if_neg off]
    cases hc : g.current with
    | none =>
      have idle := idle_of_no_current standing hc
      have still : ∀ g' : Guarded, g'.startCalled = g.startCalled → g'.started = g.started →
          Standing g' := fun g' => standing_of_same idle (quiet_of_idle standing idle)
      exact ⟨standing, trivial, still _ rfl rfl, trivial, still _ rfl rfl, rfl,
        still _ rfl rfl, trivial, still _ rfl rfl, rfl, still _ rfl rfl, trivial,
        still _ rfl rfl, trivial, still _ rfl rfl, rfl, rfl, idle⟩
    | some c =>
      have idle := idle_of_stopped standing hc
      have still : ∀ g' : Guarded, g'.startCalled = Function.update g.startCalled c false →
          g'.started = Function.update g.started c false → Standing g' :=
        fun g' => standing_of_same idle (quiet_of_stopped standing hc)
      exact ⟨standing, trivial, ⟨standing.called, standing.started⟩, trivial, still _ rfl rfl,
        trivial, still _ rfl rfl, rfl, still _ rfl rfl, trivial, still _ rfl rfl, rfl,
        still _ rfl rfl, trivial, still _ rfl rfl, trivial, still _ rfl rfl, rfl, rfl, idle⟩

theorem start_locked_disciplined {g : Guarded} (standing : Standing g) (stopped : Stopped g)
    (sources : List Info) (code : String) (out : Outcomes) :
    Disciplined Resting g (startLocked sources code out) := by
  have quiet := quiet_of_idle standing stopped.idle
  have still : ∀ g' : Guarded, g'.startCalled = g.startCalled → g'.started = g.started →
      Standing g' := fun g' => standing_of_same stopped.idle quiet
  cases hs : selectSource sources code out with
  | none =>
    simp only [startLocked, hs]
    exact ⟨standing, trivial, still _ rfl rfl, trivial, still _ rfl rfl, trivial, still _ rfl rfl,
      trivial, still _ rfl rfl, resting_of_error rfl stopped.joinable⟩
  | some c =>
    cases ho : out.opened c with
    | none =>
      simp only [startLocked, hs, ho]
      exact ⟨standing, trivial, still _ rfl rfl, trivial, still _ rfl rfl, trivial,
        still _ rfl rfl, trivial, still _ rfl rfl, trivial, still _ rfl rfl,
        resting_of_error rfl stopped.joinable⟩
    | some caps =>
      have mine : ∀ (ok : Bool) (g' : Guarded), g'.current = some c →
          g'.startCalled = Function.update g.startCalled c true →
          g'.started = Function.update g.started c (g.started c || ok) → Standing g' :=
        fun ok g' => standing_of_current stopped.idle quiet
      cases hok : out.started c with
      | true =>
        simp only [startLocked, hs, ho, hok]
        refine ⟨standing, trivial, still _ rfl rfl, trivial, still _ rfl rfl, trivial,
          still _ rfl rfl, trivial, still _ rfl rfl, stopped.joinable, still _ rfl rfl,
          ⟨rfl, stopped.idle c⟩, mine true _ rfl rfl rfl, trivial, mine true _ rfl rfl rfl,
          trivial, mine true _ rfl rfl rfl, .inr (.inl rfl), ?_, ?_⟩
        · simp [Guarded.exec]
        · simp [Guarded.exec]
      | false =>
        simp only [startLocked, hs, ho, hok]
        exact ⟨standing, trivial, still _ rfl rfl, trivial, still _ rfl rfl, trivial,
          still _ rfl rfl, trivial, still _ rfl rfl, stopped.joinable, still _ rfl rfl,
          ⟨rfl, stopped.idle c⟩, mine false _ rfl rfl rfl, trivial, mine false _ rfl rfl rfl,
          rfl, mine false _ rfl rfl rfl, trivial, mine false _ rfl rfl rfl, trivial,
          mine false _ rfl rfl rfl, resting_of_error rfl rfl⟩

theorem resting_of_stopped {g : Guarded} (h : Stopped g) : Resting g := by
  refine ⟨.inl h.state, ?_, fun _ => h.idle⟩
  simp [h.state, h.joinable]

theorem start_disciplined {g : Guarded} (standing : Standing g) (resting : Resting g)
    (sources : List Info) (code : String) (out : Outcomes) :
    Disciplined Resting g (start sources g code out) := by
  by_cases off : g.state = .off
  · have stopped : Stopped g := by
      have down := stop_locked_disciplined standing resting
      rw [stopLocked, if_pos off] at down
      exact down.2
    rw [start, if_neg (by simpa using off)]
    exact start_locked_disciplined standing stopped sources code out
  · rw [start, if_pos off]
    exact ⟨standing, trivial, standing, resting⟩

theorem stop_disciplined {g : Guarded} (standing : Standing g) (resting : Resting g) :
    Disciplined Resting g (stop g) :=
  meets_append (stop_locked_disciplined standing resting) fun _ standing' stopped =>
    ⟨standing', trivial, standing', resting_of_stopped stopped⟩

theorem switch_source_disciplined {g : Guarded} (standing : Standing g) (resting : Resting g)
    (sources : List Info) (hasStore : Bool) (code code' : String) (out : Outcomes) :
    Disciplined Resting g (switchSource sources hasStore g code code' out) := by
  refine meets_append (meets_append (stop_locked_disciplined standing resting) ?_)
    fun g' standing' stopped => start_locked_disciplined standing' stopped sources code' out
  intro g' standing' stopped
  cases hasStore
  · exact ⟨standing', stopped⟩
  · exact ⟨standing', trivial, standing', trivial, standing', stopped⟩

/-! ### Whole runs -/

/-- The pending effects of the call that holds the mutex are still disciplined, and
at most one DSP thread lives, under its handle. -/
structure Inv (s : State) : Prop where
  disciplined : Disciplined Resting s.guarded s.pending
  threads : s.threads.length ≤ if s.guarded.joinable then 1 else 0
  alive : s.terminated = false

variable {sources : List Info} {hasStore : Bool} {s t : State} {a : Act} {o : List Event}

theorem inv_initial : Inv Lifecycle.initial := by
  refine ⟨⟨?_, ?_⟩, by simp [Lifecycle.initial], rfl⟩
  · exact standing_of_idle (fun _ => rfl) fun _ => rfl
  · exact resting_of_stopped ⟨rfl, rfl, fun _ => rfl⟩

private theorem keep_lock (h : Inv s) (hs : lockStep sources hasStore s a = some t) : Inv t := by
  have locked {es : List Effect} : (if s.pending = [] then some { s with pending := es } else none)
      = some t → s.pending = [] ∧ t = { s with pending := es } := by
    intro hs
    obtain ⟨free, he⟩ := Option.ite_none_right_eq_some.mp hs
    exact ⟨free, (Option.some.inj he).symm⟩
  have resting : s.pending = [] → Standing s.guarded ∧ Resting s.guarded := by
    intro free
    have d := h.disciplined
    rw [free] at d
    exact d
  cases a with
  | start code out =>
    obtain ⟨free, rfl⟩ := locked hs
    obtain ⟨standing, rest⟩ := resting free
    exact ⟨start_disciplined standing rest sources code out, h.threads, h.alive⟩
  | stop =>
    obtain ⟨free, rfl⟩ := locked hs
    obtain ⟨standing, rest⟩ := resting free
    exact ⟨stop_disciplined standing rest, h.threads, h.alive⟩
  | switchSource code code' out =>
    obtain ⟨free, rfl⟩ := locked hs
    obtain ⟨standing, rest⟩ := resting free
    exact ⟨switch_source_disciplined standing rest sources hasStore code code' out, h.threads,
      h.alive⟩
  | _ => cases hs

theorem advance_cases (hs : advanceStep s = some (t, o)) :
    ∃ e es, s.pending = e :: es ∧ o = [.did e] ∧ t.pending = es ∧
      t.guarded = s.guarded.exec e ∧
      (e = .spawnDsp ∧ t.threads = s.threads ++ [.enter] ∧
          t.terminated = (s.terminated || s.guarded.joinable) ∨
        e = .joinDsp ∧ (s.guarded.joinable = true → s.threads = []) ∧ t.threads = s.threads ∧
          t.terminated = s.terminated ∨
        t.guarded.joinable = s.guarded.joinable ∧ t.threads = s.threads ∧
          t.terminated = s.terminated) := by
  cases hp : s.pending with
  | nil => simp [advanceStep, hp] at hs
  | cons e es =>
    cases e with
    | spawnDsp =>
      simp only [advanceStep, hp, Option.some.injEq, Prod.mk.injEq] at hs
      obtain ⟨rfl, rfl⟩ := hs
      exact ⟨_, _, rfl, rfl, rfl, rfl, .inl ⟨rfl, rfl, rfl⟩⟩
    | joinDsp =>
      simp only [advanceStep, hp] at hs
      obtain ⟨hnot, hs⟩ := Option.ite_none_left_eq_some.mp hs
      obtain ⟨rfl, rfl⟩ := Prod.mk.inj (Option.some.inj hs)
      refine ⟨_, _, rfl, rfl, rfl, rfl, .inr (.inl ⟨rfl, ?_, rfl, rfl⟩)⟩
      intro up
      simpa [up] using hnot
    | _ =>
      simp only [advanceStep, hp, Option.some.injEq, Prod.mk.injEq] at hs
      obtain ⟨rfl, rfl⟩ := hs
      exact ⟨_, _, rfl, rfl, rfl, rfl, .inr (.inr ⟨rfl, rfl, rfl⟩)⟩

private theorem keep_advance (h : Inv s) (hs : advanceStep s = some (t, o)) : Inv t := by
  obtain ⟨e, es, hp, -, hrest, hg, kind⟩ := advance_cases hs
  have d := h.disciplined
  rw [hp] at d
  obtain ⟨-, allowed, rest⟩ := d
  have disciplined : Disciplined Resting t.guarded t.pending := by
    rw [hg, hrest]
    exact rest
  have few := h.threads
  rcases kind with ⟨rfl, hthreads, hterm⟩ | ⟨rfl, joined, hthreads, hterm⟩ | ⟨same, hthreads, hterm⟩
  · have down : s.guarded.joinable = false := allowed
    rw [down] at few
    refine ⟨disciplined, ?_, by rw [hterm, h.alive, down]; rfl⟩
    rw [hg, hthreads, List.length_append]
    simpa [Guarded.exec] using few
  · have gone : s.threads = [] := by
      cases up : s.guarded.joinable with
      | true => exact joined up
      | false =>
        rw [up] at few
        exact List.length_eq_zero_iff.mp (by simpa using few)
    refine ⟨disciplined, ?_, by rw [hterm, h.alive]⟩
    rw [hthreads, gone]
    simp
  · refine ⟨disciplined, ?_, by rw [hterm, h.alive]⟩
    rw [hthreads, same]
    exact few

theorem lock_frame (hs : lockStep sources hasStore s a = some t) : t.guarded = s.guarded := by
  cases a with
  | advance => cases hs
  | dsp k => cases hs
  | _ =>
    obtain ⟨-, ht⟩ := Option.ite_none_right_eq_some.mp hs
    rw [← Option.some.inj ht]

theorem dsp_emits {k : ℕ} (hs : dspStep hasStore s k = some (t, o)) :
    o = [] ∨ o = [.framePublished] := by
  rw [dspStep] at hs
  split at hs
  · cases hs
  · split at hs <;> exact .inl (Prod.mk.inj (Option.some.inj hs)).2.symm
  · split at hs <;> exact .inl (Prod.mk.inj (Option.some.inj hs)).2.symm
  · exact .inr (Prod.mk.inj (Option.some.inj hs)).2.symm

theorem started_from {o₁ o₂ : List Event} {i : ℕ} {ok : Bool}
    (hs : step sources hasStore s a = some (t, o₁ ++ .did (.startSource i ok) :: o₂)) :
    o₁ = [] ∧ ∃ es, s.pending = .startSource i ok :: es := by
  cases a with
  | advance =>
    obtain ⟨e, es, hp, ho, -⟩ := advance_cases hs
    cases o₁ with
    | nil =>
      obtain ⟨he, -⟩ := List.cons.inj ho
      cases he
      exact ⟨rfl, es, hp⟩
    | cons x o₁ => simp at ho
  | dsp k =>
    rcases dsp_emits hs with ho | ho
    · simp at ho
    · cases o₁ <;> simp at ho
  | _ =>
    obtain ⟨t', ht, he⟩ := Option.map_eq_some_iff.mp hs
    have ho := (Prod.mk.inj he).2
    simp at ho

theorem dsp_frame {k : ℕ} (hs : dspStep hasStore s k = some (t, o)) :
    t.guarded = s.guarded ∧ t.pending = s.pending ∧ t.terminated = s.terminated ∧
      t.threads.length ≤ s.threads.length := by
  have shrink : (s.threads.eraseIdx k).length ≤ s.threads.length :=
    (List.eraseIdx_sublist _ _).length_le
  rw [dspStep] at hs
  split at hs
  · cases hs
  · split at hs <;> obtain ⟨rfl, rfl⟩ := Prod.mk.inj (Option.some.inj hs)
    · exact ⟨rfl, rfl, rfl, by simp⟩
    · exact ⟨rfl, rfl, rfl, shrink⟩
  · split at hs <;> obtain ⟨rfl, rfl⟩ := Prod.mk.inj (Option.some.inj hs)
    · exact ⟨rfl, rfl, rfl, by simp⟩
    · exact ⟨rfl, rfl, rfl, shrink⟩
  · obtain ⟨rfl, rfl⟩ := Prod.mk.inj (Option.some.inj hs)
    exact ⟨rfl, rfl, rfl, by simp⟩

theorem keep (s : State) (a : Act) (t : State) (o : List Event) (h : Inv s)
    (hs : step sources hasStore s a = some (t, o)) : Inv t := by
  cases a with
  | advance => exact keep_advance h hs
  | dsp k =>
    obtain ⟨hg, hp, hterm, len⟩ := dsp_frame hs
    refine ⟨by rw [hg, hp]; exact h.disciplined, ?_, by rw [hterm]; exact h.alive⟩
    rw [hg]
    exact Nat.le_trans len h.threads
  | _ =>
    obtain ⟨t', ht, he⟩ := Option.map_eq_some_iff.mp hs
    obtain ⟨rfl, rfl⟩ := Prod.mk.inj he
    exact keep_lock h ht

/-- The events remember every `start` of a source that no `stop` followed. -/
def Remembered (os : List Event) (g : Guarded) : Prop :=
  ∀ i ok pre mid, os = pre ++ .did (.startSource i ok) :: mid →
    .did (.stopSource i) ∉ mid → g.startCalled i = true

private theorem start_called_exec {g : Guarded} {e : Effect} {i : ℕ}
    (h : g.startCalled i = true) (other : e ≠ .stopSource i) :
    (g.exec e).startCalled i = true := by
  cases e with
  | startSource j ok =>
    by_cases hj : i = j
    · simp [Guarded.exec, hj]
    · simpa [Guarded.exec, hj] using h
  | stopSource j =>
    have hj : i ≠ j := by
      rintro rfl
      exact other rfl
    simpa [Guarded.exec, hj] using h
  | _ => exact h

private theorem remembered_snoc {os : List Event} {g g' : Guarded} {x : Event}
    (h : Remembered os g) (sets : ∀ i ok, x = .did (.startSource i ok) → g'.startCalled i = true)
    (keeps : ∀ i, g.startCalled i = true → x ≠ .did (.stopSource i) → g'.startCalled i = true) :
    Remembered (os ++ [x]) g' := by
  intro i ok pre mid hos quiet
  cases mid using List.reverseRecOn with
  | nil =>
    obtain ⟨-, hx⟩ := List.append_inj' hos rfl
    exact sets i ok (List.singleton_inj.mp hx)
  | append_singleton mid y =>
    rw [← List.cons_append, ← List.append_assoc] at hos
    obtain ⟨hos, hx⟩ := List.append_inj' hos rfl
    have hxy : x = y := List.singleton_inj.mp hx
    have before : .did (.stopSource i) ∉ mid := fun hm => quiet (List.mem_append_left _ hm)
    refine keeps i (h i ok pre mid hos before) ?_
    rintro rfl
    exact quiet (List.mem_append_right _ (List.mem_singleton.mpr hxy))

private theorem remembered_keep (_ : List Act) (os : List Event) (s : State) (a : Act) (t : State)
    (o : List Event) (h : Remembered os s.guarded)
    (hs : step sources hasStore s a = some (t, o)) : Remembered (os ++ o) t.guarded := by
  cases a with
  | advance =>
    obtain ⟨e, es, -, rfl, -, hg, -⟩ := advance_cases hs
    rw [hg]
    refine remembered_snoc h ?_ ?_
    · rintro i ok he
      cases he
      simp [Guarded.exec]
    · intro i called other
      exact start_called_exec called fun he => other (by rw [he])
  | dsp k =>
    obtain ⟨hg, -⟩ := dsp_frame hs
    rw [hg]
    rcases dsp_emits hs with rfl | rfl
    · rwa [List.append_nil]
    · exact remembered_snoc h (by simp) fun _ called _ => called
  | _ =>
    obtain ⟨t', ht, he⟩ := Option.map_eq_some_iff.mp hs
    obtain ⟨rfl, rfl⟩ := Prod.mk.inj he
    rw [List.append_nil, lock_frame ht]
    exact h

theorem stopped_between_starts {as : List Act} {pre mid post : List Event} {i : ℕ} {ok ok' : Bool}
    (h : run (step sources hasStore) Lifecycle.initial as =
      some (s, pre ++ .did (.startSource i ok) :: mid ++ .did (.startSource i ok') :: post)) :
    .did (.stopSource i) ∈ mid := by
  obtain ⟨as₁, a, as₂, m, t, os₁, o₁, o₂, -, -, hm, ha, -, hbefore, -⟩ := run_emitted h
  have inv : Inv m := run_invariant Inv inv_initial keep hm
  have remembered : Remembered os₁ m.guarded :=
    run_history (fun _ os s => Remembered os s.guarded) (by simp [Remembered]) remembered_keep hm
  obtain ⟨rfl, es, hp⟩ := started_from ha
  have d := inv.disciplined
  rw [hp] at d
  by_contra quiet
  rw [List.append_nil] at hbefore
  have called := remembered i ok pre mid hbefore.symm quiet
  rw [d.2.1.2] at called
  cases called

/-- In every reachable state: the settled states and the thread handle while the
mutex is free, before every effect of a call what that effect relies on, and
never two users of the snapshot writer and of the consumer side of the ring. -/
theorem lifecycle_invariant {as : List Act} {os : List Event}
    (h : run (step sources hasStore) Lifecycle.initial as = some (s, os)) :
    (s.pending = [] →
      (s.guarded.state = .off ∨ s.guarded.state = .running ∨ s.guarded.state = .error) ∧
        (s.guarded.joinable = true ↔ s.guarded.state = .running)) ∧
    ((∀ es, s.pending = .spawnDsp :: es → s.guarded.joinable = false) ∧ s.terminated = false) ∧
    (∀ pre mid post i ok ok',
      os = pre ++ .did (.startSource i ok) :: mid ++ .did (.startSource i ok') :: post →
        .did (.stopSource i) ∈ mid) ∧
    (∀ i, s.guarded.started i = true → s.guarded.current = some i) ∧
    (∀ es, s.pending = .publishZero :: es → s.guarded.joinable = false ∧ s.threads = []) ∧
    s.threads.length ≤ 1 := by
  have inv : Inv s := run_invariant Inv inv_initial keep h
  have d := inv.disciplined
  have standing := meets_standing d
  have few := inv.threads
  refine ⟨?_, ⟨?_, inv.alive⟩, ?_, ?_, ?_, ?_⟩
  · intro free
    rw [free] at d
    exact ⟨d.2.settled, d.2.joinable⟩
  · intro es hp
    rw [hp] at d
    exact d.2.1
  · rintro pre mid post i ok ok' rfl
    exact stopped_between_starts h
  · intro i hi
    exact standing.called i (standing.started i hi)
  · intro es hp
    rw [hp] at d
    have down : s.guarded.joinable = false := d.2.1
    rw [down] at few
    exact ⟨down, List.length_eq_zero_iff.mp (by simpa using few)⟩
  · exact Nat.le_trans few (by split <;> omega)

/-! ### A run through every exit -/

/-- Two sources; the first opens and starts, the second opens but does not start. -/
def twoSources : List Info :=
  [⟨"system", "System Loopback", true, 0, true⟩, ⟨"process", "Process Loopback", false, 1, true⟩]

def firstStarts : Outcomes where
  availableDefault _ := true
  availableAny _ := true
  opened _ := some ⟨⟨48000, 2, .stereo⟩, 480, 960⟩
  started i := i == 0

/-- Boot, publish a frame, switch to the source that fails to start, then stop. -/
def bootSwitchStop : List Act :=
  .start "system" firstStarts :: List.replicate 8 .advance ++ List.replicate 3 (.dsp 0) ++
    .switchSource "process" "process" firstStarts :: List.replicate 3 .advance ++
    [.dsp 0] ++ List.replicate 14 .advance ++ List.replicate 2 (.dsp 0) ++
    List.replicate 3 .advance ++ .stop :: List.replicate 9 .advance

theorem boot_switch_stop_off :
    ∃ s os, run (step twoSources true) Lifecycle.initial bootSwitchStop = some (s, os) ∧
      s.pending = [] ∧ s.threads.length ≤ 1 ∧
        (s.guarded.joinable = true ↔ s.guarded.state = .running) := by
  have h : ∃ p, run (step twoSources true) Lifecycle.initial bootSwitchStop = some p ∧
      p.1.pending = [] := ⟨_, rfl, rfl⟩
  obtain ⟨⟨s, os⟩, h, free⟩ := h
  obtain ⟨settled, -, -, -, -, few⟩ := lifecycle_invariant h
  exact ⟨s, os, h, free, few, (settled free).2⟩

end Listeningway.System.LifecycleRuns
