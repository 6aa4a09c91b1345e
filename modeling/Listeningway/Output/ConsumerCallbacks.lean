/- Listeningway/Output/ConsumerCallbacks
   source: src/output/consumer_registry.cpp; src/output/uniform_publisher_consumer.cpp;
     src/overlay/overlay_consumer.cpp
   digest: A consumer without a worker is registered with the host exactly while it is active. -/

import Listeningway.Output.ConsumerRuns

set_option autoImplicit false
set_option relaxedAutoImplicit false

namespace Listeningway.Output.ConsumerRegistry

open Listeningway.Config
open Listeningway.Lib.Machine

variable {K : Type}

/-! ### One consumer -/

namespace Entry

/-- The two flags once the effects are done. -/
def flags (e : Entry) (effects : List Effect) : Bool × Bool :=
  effects.foldl (fun flags effect =>
    match effect with
    | .storeRunning b => (b, flags.2)
    | .setActive b => (flags.1, b)
    | _ => flags) (e.running, e.active)

/-- A consumer without a thread whose flags agree once the effects are done. -/
structure Matched (e : Entry) (effects : List Effect) : Prop where
  free : e.worker = none
  quiet : .spawn ∉ effects
  flags : (e.flags effects).1 = (e.flags effects).2

variable {c : Consumer} {e : Entry}

theorem Matched.perform {effect : Effect} {rest : List Effect} {e' : Entry}
    (h : e.Matched (effect :: rest)) (done : e.exec effect = some e') : e'.Matched rest := by
  obtain ⟨first, quiet⟩ := not_or.mp fun spawns => h.quiet (List.mem_cons.mpr spawns)
  have flags := h.flags
  have free := h.free
  cases effect with
  | storeRunning b | clearWants | setActive b | destruct =>
    obtain rfl := Option.some.inj done
    exact ⟨free, quiet, flags⟩
  | spawn => exact absurd rfl first
  | join =>
    rw [exec, free] at done
    obtain rfl := Option.some.inj done
    exact ⟨free, quiet, flags⟩

theorem matched_initial : initial.Matched [] := ⟨rfl, List.not_mem_nil, rfl⟩

theorem matched_start (callback : c.hasWorker = false) (h : e.Matched []) :
    e.Matched (start c e) := by
  unfold start
  split_ifs with running own
  · exact ⟨h.free, by simp, running⟩
  · rw [callback] at own
    cases own
  · exact ⟨h.free, by simp, rfl⟩

theorem matched_stop (callback : c.hasWorker = false) (h : e.Matched []) :
    e.Matched (stop c) := by
  unfold stop stopWorker
  rw [if_neg (by rw [callback]; decide)]
  exact ⟨h.free, by simp, rfl⟩

theorem matched_destroy (callback : c.hasWorker = false) (h : e.Matched []) :
    e.Matched (destroy c) := by
  have other : c ≠ .openRgb := by
    rintro rfl
    cases callback
  unfold destroy
  rw [if_neg other]
  exact ⟨h.free, by simp, h.flags⟩

end Entry

/-! ### The registry -/

/-- What a pass of a loop can begin with a consumer. -/
inductive Begins (c : Consumer) (e : Entry) : List Effect → Prop
  | nothing : Begins c e []
  | start : Begins c e (start c e)
  | stop : Begins c e (stop c)
  | destroy : Begins c e (destroy c)

theorem begins_decision (c : Consumer) (e : Entry) (decision : Decision) :
    Begins c e (decision.effects c e) := by
  cases decision with
  | nothing => exact .nothing
  | start => exact .start
  | stop => exact .stop

/-- The loops of a shutdown. -/
inductive Loop.Ending : Loop K → Prop
  | stopAll (i : ℕ) : Ending (.stopAll i true)
  | destroy (i : ℕ) : Ending (.destroy i)
  | destroyed : Ending .destroyed

section Loops

variable [Field K] [LinearOrder K] {consumers : List Consumer} {s t : State K}
  {events : List Event}

theorem loopStep_begins (hs : loopStep consumers s = some (t, events)) :
    t.entry = s.entry ∧ t.terminated = s.terminated ∧
      (t.effects = s.effects ∧ t.current = s.current ∨
        ∃ c, consumers[t.current]? = some c ∧ Begins c (s.entry t.current) t.effects) := by
  unfold loopStep at hs
  split at hs
  case h_4 =>
    obtain ⟨rfl, -⟩ := Prod.mk.inj (Option.some.inj hs)
    exact ⟨rfl, rfl, .inl ⟨rfl, rfl⟩⟩
  case h_6 =>
    split at hs
    · split_ifs at hs <;> obtain ⟨rfl, -⟩ := Prod.mk.inj (Option.some.inj hs)
      · exact ⟨rfl, rfl, .inl ⟨rfl, rfl⟩⟩
      · exact ⟨rfl, rfl, .inl ⟨rfl, rfl⟩⟩
    · obtain ⟨rfl, -⟩ := Prod.mk.inj (Option.some.inj hs)
      exact ⟨rfl, rfl, .inl ⟨rfl, rfl⟩⟩
  case h_7 =>
    split at hs <;> obtain ⟨rfl, -⟩ := Prod.mk.inj (Option.some.inj hs)
    case h_1 c there => exact ⟨rfl, rfl, .inr ⟨c, there, .destroy⟩⟩
    case h_2 => exact ⟨rfl, rfl, .inl ⟨rfl, rfl⟩⟩
  case h_1 | h_8 => cases hs
  all_goals
    split at hs <;> obtain ⟨rfl, -⟩ := Prod.mk.inj (Option.some.inj hs)
    case h_1 c there => exact ⟨rfl, rfl, .inr ⟨c, there, begins_decision c _ _⟩⟩
    case h_2 => exact ⟨rfl, rfl, .inl ⟨rfl, rfl⟩⟩

theorem loopStep_ending (ending : s.loop.Ending)
    (hs : loopStep consumers s = some (t, events)) : t.loop.Ending := by
  generalize loop : s.loop = l at ending
  unfold loopStep at hs
  rw [loop] at hs
  cases ending with
  | stopAll i =>
    cases i with
    | zero =>
      obtain ⟨rfl, -⟩ := Prod.mk.inj (Option.some.inj hs)
      exact .destroy 0
    | succ i =>
      dsimp only at hs
      split at hs <;> obtain ⟨rfl, -⟩ := Prod.mk.inj (Option.some.inj hs)
      · exact .stopAll i
      · exact .stopAll i
  | destroy i =>
    dsimp only at hs
    split at hs <;> obtain ⟨rfl, -⟩ := Prod.mk.inj (Option.some.inj hs)
    · exact .destroy (i + 1)
    · exact .destroyed
  | destroyed => cases hs

/-- Every consumer without a worker will have its flags agree. -/
def Calling (consumers : List Consumer) (s : State K) : Prop :=
  ∀ i c, consumers[i]? = some c → c.hasWorker = false → (s.entry i).Matched (s.remaining i)

omit [Field K] [LinearOrder K] in
theorem calling_initial (consumers : List Consumer) (store : Settings K) :
    Calling consumers (initial store) := by
  intro i c _ _
  rw [remaining_nil rfl]
  exact Entry.matched_initial

theorem Calling.loopStep (h : Calling consumers s) (nothing : s.effects = [])
    (hs : loopStep consumers s = some (t, events)) : Calling consumers t := by
  obtain ⟨entry, -, begins⟩ := loopStep_begins hs
  intro i c there callback
  have now := h i c there callback
  rw [remaining_nil nothing] at now
  rw [entry]
  rcases begins with ⟨effects, -⟩ | ⟨d, there', begins⟩
  · rwa [remaining_nil (effects.trans nothing)]
  · rw [State.remaining]
    split_ifs with current
    · subst current
      obtain rfl := Option.some.inj (there.symm.trans there')
      generalize t.effects = effects at begins ⊢
      cases begins with
      | nothing => exact now
      | start => exact Entry.matched_start callback now
      | stop => exact Entry.matched_stop callback now
      | destroy => exact Entry.matched_destroy callback now
    · exact now

omit [Field K] [LinearOrder K] in
theorem Calling.effectStep (h : Calling consumers s) {effect : Effect} {rest : List Effect}
    (doing : s.effects = effect :: rest) (hs : effectStep s effect rest = some t) :
    Calling consumers t := by
  obtain ⟨e', done, rfl⟩ := Option.map_eq_some_iff.mp hs
  intro i c there callback
  have now := h i c there callback
  rw [State.remaining, doing] at now
  change Entry.Matched (Function.update s.entry s.current e' i) (if i = s.current then rest else [])
  split_ifs with current
  · subst current
    rw [if_pos rfl] at now
    rw [Function.update_self]
    exact now.perform done
  · rw [if_neg current] at now
    rwa [Function.update_of_ne current]

omit [Field K] [LinearOrder K] in
theorem Calling.workerStep (h : Calling consumers s) {i : ℕ} {fails : Bool}
    (hs : workerStep s i fails = some t) : Calling consumers t := by
  obtain ⟨e', moved, rfl⟩ := Option.map_eq_some_iff.mp hs
  intro j c there callback
  have now := h j c there callback
  change Entry.Matched (Function.update s.entry i e' j) (s.remaining j)
  by_cases same : j = i
  · subst same
    rw [Entry.workerMove, now.free] at moved
    cases moved
  · rwa [Function.update_of_ne same]

omit [Field K] [LinearOrder K] in
theorem call_frame {act : Act K}
    (hs : (match s.loop, s.effects with
      | .idle, [] => (call consumers act).map fun loop => ({ s with loop := loop }, [])
      | _, _ => none) = some (t, events)) :
    t.entry = s.entry ∧ t.effects = s.effects ∧ t.current = s.current := by
  split at hs
  · obtain ⟨loop, -, same⟩ := Option.map_eq_some_iff.mp hs
    obtain ⟨rfl, -⟩ := Prod.mk.inj same
    exact ⟨rfl, rfl, rfl⟩
  · cases hs

theorem step_loop {act : Act K} (hs : step consumers s act = some (t, events))
    (outside : ∀ i fails, act ≠ .worker i fails) :
    (∃ effect rest, s.effects = effect :: rest ∧ effectStep s effect rest = some t) ∨
      (s.effects = [] ∧ loopStep consumers s = some (t, events)) ∨
      t.entry = s.entry ∧ t.effects = s.effects ∧ t.current = s.current := by
  cases act with
  | advance =>
    cases doing : s.effects with
    | nil =>
      rw [step, doing] at hs
      exact .inr (.inl ⟨rfl, hs⟩)
    | cons effect rest =>
      rw [step, doing] at hs
      obtain ⟨t', moved, same⟩ := Option.map_eq_some_iff.mp hs
      obtain ⟨rfl, -⟩ := Prod.mk.inj same
      exact .inl ⟨effect, rest, rfl, moved⟩
  | worker i fails => exact absurd rfl (outside i fails)
  | publish cfg =>
    obtain ⟨rfl, -⟩ := Prod.mk.inj (Option.some.inj hs)
    exact .inr (.inr ⟨rfl, rfl, rfl⟩)
  | startAll _ | settingsChanged _ | stopAll | pollSelfDisarm | shutdown =>
    exact .inr (.inr (call_frame hs))

theorem Calling.step (h : Calling consumers s) {act : Act K}
    (hs : step consumers s act = some (t, events)) : Calling consumers t := by
  by_cases moves : ∃ i fails, act = .worker i fails
  · obtain ⟨i, fails, rfl⟩ := moves
    obtain ⟨t', moved, same⟩ := Option.map_eq_some_iff.mp hs
    obtain ⟨rfl, -⟩ := Prod.mk.inj same
    exact h.workerStep moved
  · have outside : ∀ i fails, act ≠ .worker i fails := fun i fails same =>
      moves ⟨i, fails, same⟩
    rcases step_loop hs outside with ⟨effect, rest, doing, moved⟩ | ⟨nothing, moved⟩ |
      ⟨entry, effects, current⟩
    · exact h.effectStep doing moved
    · exact h.loopStep nothing moved
    · intro i c there callback
      have now := h i c there callback
      rw [State.remaining] at now ⊢
      rwa [entry, effects, current]

theorem ending_step {act : Act K} (inside : act = .advance ∨ ∃ i fails, act = .worker i fails)
    (ending : s.loop.Ending) (hs : step consumers s act = some (t, events)) : t.loop.Ending := by
  rcases inside with rfl | ⟨i, fails, rfl⟩
  · unfold step at hs
    dsimp only at hs
    split at hs
    · exact loopStep_ending ending hs
    · obtain ⟨t', moved, same⟩ := Option.map_eq_some_iff.mp hs
      obtain ⟨rfl, -⟩ := Prod.mk.inj same
      obtain ⟨e', -, rfl⟩ := Option.map_eq_some_iff.mp moved
      exact ending
  · obtain ⟨t', moved, same⟩ := Option.map_eq_some_iff.mp hs
    obtain ⟨rfl, -⟩ := Prod.mk.inj same
    obtain ⟨e', -, rfl⟩ := Option.map_eq_some_iff.mp moved
    exact ending

omit [Field K] [LinearOrder K] in
/-- Behind a shutdown no consumer is left with a thread or registered. -/
theorem destroyed_idle (inv : Inv consumers s) (calling : Calling consumers s)
    (loop : s.loop = .destroyed) (nothing : s.effects = []) {i : ℕ} {c : Consumer}
    (there : consumers[i]? = some c) :
    (if c.hasWorker then (s.entry i).joinable else (s.entry i).running) = false := by
  obtain ⟨steady, down⟩ := inv.settled there (remaining_nil nothing i)
  rw [loop] at down
  have inactive := down trivial
  split_ifs with own
  · exact steady.free inactive
  · have matched := calling i c there (Bool.eq_false_iff.mpr own)
    rw [remaining_nil nothing] at matched
    exact matched.flags.trans inactive

end Loops

end Listeningway.Output.ConsumerRegistry
