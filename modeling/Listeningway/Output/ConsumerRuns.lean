/- Listeningway/Output/ConsumerRuns
   source: src/output/consumer_registry.cpp; src/output/osc_consumer.cpp;
     src/output/openrgb_consumer.cpp
   digest: No worker thread is ever overwritten, orphaned or left joinable. -/

import Listeningway.Lib.Interference
import Listeningway.Output.ConsumerRegistry

set_option autoImplicit false
set_option relaxedAutoImplicit false

namespace Listeningway.Output.ConsumerRegistry

open Listeningway.Config
open Listeningway.Lib.Interference
open Listeningway.Lib.Machine

variable {K : Type}

/-! ### One consumer under its worker -/

namespace Entry

/-- What the worker can do to its consumer. -/
def Moves (e e' : Entry) : Prop := ∃ fails, e.workerMove fails = some e'

theorem Moves.keeps {e e' : Entry} (h : e.Moves e') :
    e.joinable = true ∧ e'.joinable = true ∧ e'.active = e.active ∧
      (e.running = false → e'.running = false) := by
  obtain ⟨fails, h⟩ := h
  obtain ⟨running, wants, worker, active⟩ := e
  rcases worker with _ | _ | _ | _ | _
  · cases h
  · cases fails <;> cases running <;> cases h <;> exact ⟨rfl, rfl, rfl, fun h => h⟩
  · cases h
    exact ⟨rfl, rfl, rfl, fun _ => rfl⟩
  · cases h
    exact ⟨rfl, rfl, rfl, fun h => h⟩
  · cases h

/-- A consumer that is not being started or stopped: its flag says whether there is a
thread to join, and without one nothing is left of it. -/
structure Steady (c : Consumer) (e : Entry) : Prop where
  active : c.hasWorker = true → e.active = e.joinable
  callbacks : c.hasWorker = false → e.joinable = false
  quiet : e.joinable = false → e.wantsDisarm = false ∧ (c.hasWorker = true → e.running = false)

theorem steady_initial (c : Consumer) : Steady c initial where
  active _ := rfl
  callbacks _ := rfl
  quiet _ := ⟨rfl, fun _ => rfl⟩

/-- Steady, and stopped where the registry has passed it by. -/
def Settled (c : Consumer) (passed : Prop) (e : Entry) : Prop :=
  Steady c e ∧ (passed → e.active = false)

theorem stable_settled (c : Consumer) (passed : Prop) : Stable Moves (Settled c passed) := by
  rintro e e' ⟨steady, down⟩ moved
  obtain ⟨there, there', active, -⟩ := moved.keeps
  refine ⟨⟨fun w => ?_, fun w => ?_, fun none => ?_⟩, fun h => active.trans (down h)⟩
  · rw [active, steady.active w, there, there']
  · rw [steady.callbacks w] at there
    cases there
  · rw [none] at there'
    cases there'

theorem stable_of_not_joinable {P : Entry → Prop} (h : ∀ e, P e → e.joinable = false) :
    Stable Moves P := by
  intro e e' now moved
  have there := moved.keeps.1
  rw [h e now] at there
  cases there

/-- `effects` can be done to the consumer without ever being fatal, and leave it settled. -/
def Safe (c : Consumer) (passed : Prop) (e : Entry) (effects : List Effect) : Prop :=
  Withstands Moves exec (fun e effect => e.fatal effect = false) (Settled c passed) e effects

variable {c : Consumer} {passed : Prop} {e : Entry}

theorem safe_nil (settled : Settled c passed e) : Safe c passed e [] :=
  withstands_nil (stable_settled c passed) settled

/-- The state of a consumer whose thread object is free. -/
structure Idle (c : Consumer) (e : Entry) : Prop where
  free : e.joinable = false
  wants : e.wantsDisarm = false
  running : c.hasWorker = true → e.running = false

theorem Steady.idle (h : Steady c e) (free : e.joinable = false) : Idle c e :=
  ⟨free, (h.quiet free).1, (h.quiet free).2⟩

theorem Idle.settled (h : Idle c e) (down : e.active = false) : Settled c passed e where
  left := ⟨fun _ => down.trans h.free.symm, fun _ => h.free, fun _ => ⟨h.wants, h.running⟩⟩
  right _ := down

theorem Idle.callbacks (h : Idle c e) (w : c.hasWorker = false) : Steady c e where
  active w' := by
    rw [w] at w'
    cases w'
  callbacks _ := h.free
  quiet _ := ⟨h.wants, h.running⟩

theorem settled_spawned (w : c.hasWorker = true) (there : e.joinable = true)
    (up : e.active = true) (ahead : ¬ passed) : Settled c passed e where
  left.active _ := up.trans there.symm
  left.callbacks w' := by
    rw [w] at w'
    cases w'
  left.quiet free := by
    rw [there] at free
    cases free
  right h := absurd h ahead

theorem stable_idle (P : Entry → Prop) : Stable Moves fun e => Idle c e ∧ P e :=
  stable_of_not_joinable fun _ h => h.1.free

theorem stable_free : Stable Moves fun e => e.joinable = false :=
  stable_of_not_joinable fun _ h => h

theorem Steady.free (h : Steady c e) (down : e.active = false) : e.joinable = false := by
  cases w : c.hasWorker with
  | true => rw [← h.active w, down]
  | false => exact h.callbacks w

theorem stable_spawned : Stable Moves fun e => e.joinable = true :=
  fun _ _ _ moved => moved.keeps.2.1

theorem stable_active (b : Bool) : Stable Moves fun e => e.active = b :=
  fun _ _ active moved => moved.keeps.2.2.1.trans active

theorem stable_cleared (b : Bool) : Stable Moves fun e => e.running = false ∧ e.active = b :=
  fun _ _ cleared moved =>
    ⟨moved.keeps.2.2.2 cleared.1, moved.keeps.2.2.1.trans cleared.2⟩

theorem safe_start (steady : Steady c e) (down : e.active = false) (ahead : ¬ passed) :
    Safe c passed e (start c e) := by
  unfold start
  cases w : c.hasWorker with
  | true =>
    have free := steady.free down
    rw [if_neg (by simp [(steady.quiet free).2 w]), if_pos rfl]
    refine withstands_cons stable_free free (fun _ _ => rfl) fun e₁ e₂ free₁ done => ?_
    obtain rfl := Option.some.inj done
    refine withstands_cons stable_free free₁ (fun _ _ => rfl) fun e₂ e₃ free₂ done => ?_
    obtain rfl := Option.some.inj done
    refine withstands_cons stable_free free₂ (fun _ free => free) fun e₃ e₄ _ done => ?_
    obtain rfl := Option.some.inj done
    refine withstands_cons stable_spawned rfl (fun _ _ => rfl) fun e₄ e₅ spawned done => ?_
    obtain rfl := Option.some.inj done
    exact safe_nil (settled_spawned w spawned rfl ahead)
  | false =>
    have idle : Idle c e := steady.idle (steady.callbacks w)
    have finish : ∀ e, Idle c e → Safe c passed e [.setActive true] := by
      intro e idle
      refine withstands_cons (stable_idle fun _ => True) ⟨idle, trivial⟩ (fun _ _ => rfl)
        fun e₁ e₂ idle₁ done => ?_
      obtain rfl := Option.some.inj done
      have same : Idle c { e₁ with active := true } :=
        ⟨idle₁.1.free, idle₁.1.wants, idle₁.1.running⟩
      exact safe_nil ⟨same.callbacks w, fun h => absurd h ahead⟩
    split_ifs with running no
    · exact finish e idle
    · cases no
    · refine withstands_cons (stable_idle fun _ => True) ⟨idle, trivial⟩ (fun _ _ => rfl)
        fun e₁ e₂ idle₁ done => ?_
      obtain rfl := Option.some.inj done
      refine finish _ ⟨idle₁.1.free, idle₁.1.wants, fun w' => ?_⟩
      rw [w] at w'
      cases w'

theorem exec_join {e e' : Entry} (h : e.exec .join = some e') :
    e'.joinable = false ∧ e'.running = e.running ∧ e'.active = e.active := by
  obtain ⟨running, wants, worker, active⟩ := e
  rcases worker with _ | _ | _ | _ | _ <;> cases h <;> exact ⟨rfl, rfl, rfl⟩

theorem safe_stopWorker {rest : List Effect} (steady : Steady c e)
    (next : ∀ e', Idle c e' → e'.active = e.active → Safe c passed e' rest) :
    Safe c passed e (stopWorker c ++ rest) := by
  unfold stopWorker
  cases w : c.hasWorker with
  | true =>
    rw [if_pos rfl]
    refine withstands_cons (stable_active e.active) rfl (fun _ _ => rfl) fun e₁ e₂ same done => ?_
    obtain rfl := Option.some.inj done
    refine withstands_cons (stable_cleared e.active) ⟨rfl, same⟩ (fun _ _ => rfl)
      fun e₂ e₃ cleared done => ?_
    obtain ⟨free, running, active⟩ := exec_join done
    have joined : e₃.joinable = false ∧ e₃.running = false ∧ e₃.active = e.active :=
      ⟨free, running.trans cleared.1, active.trans cleared.2⟩
    have stays : Stable Moves fun e' =>
        e'.joinable = false ∧ e'.running = false ∧ e'.active = e.active :=
      stable_of_not_joinable fun _ h => h.1
    refine withstands_cons stays joined (fun _ _ => rfl) fun e₃ e₄ joined done => ?_
    obtain rfl := Option.some.inj done
    exact next _ ⟨joined.1, rfl, fun _ => joined.2.1⟩ joined.2.2
  | false =>
    have idle : Idle c e := steady.idle (steady.callbacks w)
    rw [if_neg Bool.false_ne_true]
    refine withstands_cons (stable_idle fun e' => e'.active = e.active) ⟨idle, rfl⟩
      (fun _ _ => rfl) fun e₁ e₂ same done => ?_
    obtain rfl := Option.some.inj done
    exact next _ ⟨same.1.free, same.1.wants, fun _ => rfl⟩ same.2

theorem safe_stop (steady : Steady c e) : Safe c passed e (stop c) := by
  refine safe_stopWorker steady fun e' idle _ => ?_
  refine withstands_cons (stable_idle fun _ => True) ⟨idle, trivial⟩ (fun _ _ => rfl)
    fun e₁ e₂ idle₁ done => ?_
  obtain rfl := Option.some.inj done
  have same : Idle c { e₁ with active := false } := ⟨idle₁.1.free, idle₁.1.wants, idle₁.1.running⟩
  exact safe_nil (same.settled rfl)

theorem safe_destroy (steady : Steady c e) (down : e.active = false) :
    Safe c passed e (destroy c) := by
  have finish : ∀ e, Idle c e → e.active = false → Safe c passed e [.destruct] := by
    intro e idle down
    refine withstands_cons (stable_idle fun e => e.active = false) ⟨idle, down⟩
      (fun _ h => h.1.free) fun e₁ e₂ idle₁ done => ?_
    obtain rfl := Option.some.inj done
    exact safe_nil (idle₁.1.settled idle₁.2)
  unfold destroy
  split_ifs with own
  · exact safe_stopWorker steady fun e' idle same => finish e' idle (same.trans down)
  · exact finish e (steady.idle (steady.free down)) down

end Entry

/-! ### The invariant -/

/-- The loop has gone past consumer `i` on its way to the end of all consumers. -/
def Loop.Passed (i : ℕ) : Loop K → Prop
  | .stopAll k _ => k ≤ i
  | .destroy _ | .destroyed => True
  | _ => False

/-- What is left to do to consumer `i` before the next pass of the loop. -/
def State.remaining (s : State K) (i : ℕ) : List Effect := if i = s.current then s.effects else []

structure Inv (consumers : List Consumer) (s : State K) : Prop where
  safe : ∀ i c, consumers[i]? = some c →
    Entry.Safe c (s.loop.Passed i) (s.entry i) (s.remaining i)
  current : s.effects ≠ [] → ∃ c, consumers[s.current]? = some c
  alive : s.terminated = false

variable {consumers : List Consumer} {s t : State K}

theorem remaining_nil (h : s.effects = []) (i : ℕ) : s.remaining i = [] := by
  rw [State.remaining, h, ite_self]

theorem Inv.settled (h : Inv consumers s) {i : ℕ} {c : Consumer} (hc : consumers[i]? = some c)
    (done : s.remaining i = []) : Entry.Settled c (s.loop.Passed i) (s.entry i) := by
  have safe := h.safe i c hc
  rw [done] at safe
  exact safe.post_of_nil

theorem Inv.workerStep (h : Inv consumers s) {i : ℕ} {fails : Bool}
    (hs : workerStep s i fails = some t) : Inv consumers t := by
  obtain ⟨e', moved, rfl⟩ := Option.map_eq_some_iff.mp hs
  refine ⟨fun j c hc => ?_, h.current, h.alive⟩
  have safe := h.safe j c hc
  by_cases same : j = i
  · subst same
    change Entry.Safe c _ (Function.update s.entry j e' j) _
    rw [Function.update_self]
    exact safe.interfere ⟨fails, moved⟩
  · change Entry.Safe c _ (Function.update s.entry i e' j) _
    rw [Function.update_of_ne same]
    exact safe

theorem Inv.effectStep (h : Inv consumers s) {effect : Effect} {rest : List Effect}
    (doing : s.effects = effect :: rest) (hs : effectStep s effect rest = some t) :
    Inv consumers t := by
  obtain ⟨e', done, rfl⟩ := Option.map_eq_some_iff.mp hs
  obtain ⟨c, hc⟩ := h.current (by rw [doing]; exact List.cons_ne_nil _ _)
  have safe := h.safe s.current c hc
  have front : s.remaining s.current = effect :: rest := by
    rw [State.remaining, if_pos rfl, doing]
  rw [front] at safe
  obtain ⟨harmless, next⟩ := safe.perform done
  refine ⟨fun j d hd => ?_, fun _ => ⟨c, hc⟩, ?_⟩
  · by_cases same : j = s.current
    · subst same
      obtain rfl := Option.some.inj (hc.symm.trans hd)
      change Entry.Safe c _ (Function.update s.entry s.current e' s.current)
        (if s.current = s.current then rest else [])
      rw [Function.update_self, if_pos rfl]
      exact next
    · have idle := h.safe j d hd
      change Entry.Safe d _ (Function.update s.entry s.current e' j)
        (if j = s.current then rest else [])
      rw [State.remaining, if_neg same] at idle
      rw [Function.update_of_ne same, if_neg same]
      exact idle
  · change (s.terminated || (s.entry s.current).fatal effect) = false
    rw [h.alive, harmless]
    rfl

theorem Inv.turn (h : Inv consumers s) (nothing : s.effects = []) {i : ℕ} {c : Consumer}
    (hc : consumers[i]? = some c) {effects : List Effect} {loop : Loop K}
    (safe : Entry.Safe c (loop.Passed i) (s.entry i) effects)
    (others : ∀ j, j ≠ i → loop.Passed j → s.loop.Passed j) :
    Inv consumers { s with current := i, effects := effects, loop := loop } := by
  refine ⟨fun j d hd => ?_, fun _ => ⟨c, hc⟩, h.alive⟩
  by_cases same : j = i
  · subst same
    obtain rfl := Option.some.inj (hc.symm.trans hd)
    change Entry.Safe c _ _ (if j = j then effects else [])
    rw [if_pos rfl]
    exact safe
  · obtain ⟨steady, down⟩ := h.settled hd (remaining_nil nothing j)
    change Entry.Safe d _ _ (if j = i then effects else [])
    rw [if_neg same]
    exact Entry.safe_nil ⟨steady, fun passed => down (others j same passed)⟩

theorem Inv.relax (h : Inv consumers s) (nothing : s.effects = []) {store : Settings K}
    {loop : Loop K} (passed : ∀ i < consumers.length, loop.Passed i → s.loop.Passed i) :
    Inv consumers { s with store := store, loop := loop } := by
  refine ⟨fun j d hd => ?_, h.current, h.alive⟩
  obtain ⟨inside, -⟩ := List.getElem?_eq_some_iff.mp hd
  obtain ⟨steady, down⟩ := h.settled hd (remaining_nil nothing j)
  change Entry.Safe d _ _ (if j = s.current then s.effects else [])
  rw [nothing, ite_self]
  exact Entry.safe_nil ⟨steady, fun here => down (passed j inside here)⟩

/-- What the events of a step have to say. -/
def Sound (events : List Event) : Prop :=
  (∀ i b, .startCalled i b ∈ events → b = false) ∧ ∀ b, .stopAllReturned b ∈ events → b = true

theorem sound_nil : Sound [] :=
  ⟨fun _ _ h => absurd h List.not_mem_nil, fun _ h => absurd h List.not_mem_nil⟩

theorem Inv.decide (h : Inv consumers s) (nothing : s.effects = []) {i : ℕ} {c : Consumer}
    (hc : consumers[i]? = some c) {decision : Decision} {loop : Loop K}
    (starts : decision = .start → (s.entry i).active = false ∧ ¬ loop.Passed i)
    (rests : decision = .nothing → loop.Passed i → (s.entry i).active = false)
    (others : ∀ j, j ≠ i → loop.Passed j → s.loop.Passed j) :
    Inv consumers (s.turn i c decision loop).1 ∧ Sound (s.turn i c decision loop).2 := by
  have steady := (h.settled hc (remaining_nil nothing i)).1
  constructor
  · refine h.turn nothing hc ?_ others
    cases decision with
    | nothing => exact Entry.safe_nil ⟨steady, rests rfl⟩
    | start => exact Entry.safe_start steady (starts rfl).1 (starts rfl).2
    | stop => exact Entry.safe_stop steady
  · unfold State.turn
    dsimp only
    split_ifs with begins
    · have free := steady.free (starts begins).1
      constructor
      · intro j b called
        obtain ⟨rfl, rfl⟩ := Event.startCalled.inj (List.mem_singleton.mp called)
        exact free
      · exact fun b returned => absurd (List.mem_singleton.mp returned) (by simp)
    · exact sound_nil

theorem startAllDecision_start {c : Consumer} {cfg : Settings K} {active : Bool}
    (h : startAllDecision c cfg active = .start) : active = false := by
  cases active with
  | true => cases h
  | false => rfl

theorem settingsChangedDecision_start {c : Consumer} {cfg : Settings K} {active : Bool}
    (h : settingsChangedDecision c cfg active = .start) : active = false := by
  cases active with
  | true =>
    unfold settingsChangedDecision at h
    split_ifs at h with _ both
    simp at both
  | false => rfl

theorem Inv.pass_turn (h : Inv consumers s) (nothing : s.effects = []) {i : ℕ} {loop : Loop K}
    {decision : Consumer → Decision} {events : List Event}
    (starts : ∀ c, decision c = .start → (s.entry i).active = false)
    (unpassed : ∀ j, ¬ loop.Passed j)
    (hs : (match consumers[i]? with
      | some c => some (s.turn i c (decision c) loop)
      | none => some ({ s with loop := .idle }, [])) = some (t, events)) :
    Inv consumers t ∧ Sound events := by
  cases hc : consumers[i]? with
  | none =>
    rw [hc] at hs
    obtain ⟨rfl, rfl⟩ := Prod.mk.inj (Option.some.inj hs)
    exact ⟨h.relax nothing fun _ _ => False.elim, sound_nil⟩
  | some c =>
    rw [hc] at hs
    obtain ⟨rfl, rfl⟩ := Prod.mk.inj (Option.some.inj hs)
    exact h.decide nothing hc (fun start => ⟨starts c start, unpassed i⟩)
      (fun _ passed => absurd passed (unpassed i)) fun j _ passed => absurd passed (unpassed j)

theorem Inv.stopAll_returns (h : Inv consumers s) (nothing : s.effects = []) {shutdown : Bool}
    (loop : s.loop = .stopAll 0 shutdown) (next : Loop K)
    (waits : ∀ i, next.Passed i → s.loop.Passed i) :
    Inv consumers { s with loop := next } ∧
      Sound [.stopAllReturned (consumers.zipIdx.all fun q => !(s.entry q.2).joinable)] := by
  refine ⟨h.relax nothing fun i _ => waits i, fun i b called => ?_, fun b returned => ?_⟩
  · exact absurd (List.mem_singleton.mp called) (by simp)
  · rw [Event.stopAllReturned.inj (List.mem_singleton.mp returned), List.all_eq_true]
    rintro ⟨c, i⟩ listed
    obtain ⟨steady, down⟩ := h.settled (List.mem_zipIdx_iff_getElem?.mp listed)
      (remaining_nil nothing i)
    rw [loop] at down
    rw [steady.free (down (Nat.zero_le i))]
    rfl

theorem Inv.stopAll_turn (h : Inv consumers s) (nothing : s.effects = []) {i : ℕ}
    {shutdown : Bool} (loop : s.loop = .stopAll (i + 1) shutdown) {c : Consumer}
    (hc : consumers[i]? = some c) :
    Inv consumers (s.turn i c (stopAllDecision (s.entry i).active) (.stopAll i shutdown)).1 ∧
      Sound (s.turn i c (stopAllDecision (s.entry i).active) (.stopAll i shutdown)).2 := by
  refine h.decide nothing hc (fun start => ?_) (fun rest _ => ?_) fun j other passed => ?_
  · unfold stopAllDecision at start
    split_ifs at start
  · unfold stopAllDecision at rest
    split_ifs at rest with up
    exact Bool.eq_false_iff.mpr up
  · have after : i ≤ j := passed
    rw [loop]
    exact Nat.succ_le_of_lt (lt_of_le_of_ne after (Ne.symm other))

theorem Inv.stopAll_skips (h : Inv consumers s) (nothing : s.effects = []) {i : ℕ}
    (shutdown : Bool) (outside : consumers[i]? = none) :
    Inv consumers { s with loop := .stopAll i shutdown } := by
  apply h.relax nothing
  intro j inside passed
  have behind := List.getElem?_eq_none_iff.mp outside
  have after : i ≤ j := passed
  omega

theorem Inv.destroy_turn (h : Inv consumers s) (nothing : s.effects = []) {i : ℕ}
    (loop : s.loop = .destroy i) {c : Consumer} (hc : consumers[i]? = some c) :
    Inv consumers { s with current := i, effects := destroy c, loop := .destroy (i + 1) } := by
  obtain ⟨steady, down⟩ := h.settled hc (remaining_nil nothing i)
  rw [loop] at down
  refine h.turn nothing hc (Entry.safe_destroy steady (down trivial)) fun _ _ _ => ?_
  rw [loop]
  trivial

variable [Field K] [LinearOrder K]

theorem Inv.loopStep (h : Inv consumers s) (nothing : s.effects = []) {events : List Event}
    (hs : loopStep consumers s = some (t, events)) : Inv consumers t ∧ Sound events := by
  cases loop : s.loop with
  | idle =>
    rw [ConsumerRegistry.loopStep, loop] at hs
    dsimp only at hs
    cases hs
  | destroyed =>
    rw [ConsumerRegistry.loopStep, loop] at hs
    dsimp only at hs
    cases hs
  | startAll i cfg =>
    rw [ConsumerRegistry.loopStep, loop] at hs
    exact h.pass_turn nothing (fun _ => startAllDecision_start) (fun _ => id) hs
  | settingsChanged i cfg =>
    rw [ConsumerRegistry.loopStep, loop] at hs
    exact h.pass_turn nothing (fun _ => settingsChangedDecision_start) (fun _ => id) hs
  | stopAll k shutdown =>
    cases k with
    | zero =>
      rw [ConsumerRegistry.loopStep, loop] at hs
      obtain ⟨rfl, rfl⟩ := Prod.mk.inj (Option.some.inj hs)
      refine h.stopAll_returns nothing loop _ fun i _ => ?_
      rw [loop]
      exact Nat.zero_le i
    | succ i =>
      rw [ConsumerRegistry.loopStep, loop] at hs
      dsimp only at hs
      cases hc : consumers[i]? with
      | none =>
        rw [hc] at hs
        obtain ⟨rfl, rfl⟩ := Prod.mk.inj (Option.some.inj hs)
        exact ⟨h.stopAll_skips nothing shutdown hc, sound_nil⟩
      | some c =>
        rw [hc] at hs
        obtain ⟨rfl, rfl⟩ := Prod.mk.inj (Option.some.inj hs)
        exact h.stopAll_turn nothing loop hc
  | poll i any =>
    rw [ConsumerRegistry.loopStep, loop] at hs
    dsimp only at hs
    cases hc : consumers[i]? with
    | none =>
      rw [hc] at hs
      obtain ⟨rfl, rfl⟩ := Prod.mk.inj (Option.some.inj hs)
      refine ⟨h.relax nothing fun j _ passed => ?_, sound_nil⟩
      cases any <;> exact passed.elim
    | some c =>
      rw [hc] at hs
      dsimp only at hs
      split_ifs at hs with wants
      · obtain ⟨rfl, rfl⟩ := Prod.mk.inj (Option.some.inj hs)
        exact ⟨h.relax nothing fun _ _ => False.elim, sound_nil⟩
      · obtain ⟨rfl, rfl⟩ := Prod.mk.inj (Option.some.inj hs)
        exact ⟨h.relax nothing fun _ _ => False.elim, sound_nil⟩
  | destroy i =>
    rw [ConsumerRegistry.loopStep, loop] at hs
    dsimp only at hs
    cases hc : consumers[i]? with
    | none =>
      rw [hc] at hs
      obtain ⟨rfl, rfl⟩ := Prod.mk.inj (Option.some.inj hs)
      refine ⟨h.relax nothing fun _ _ _ => ?_, sound_nil⟩
      rw [loop]
      trivial
    | some c =>
      rw [hc] at hs
      obtain ⟨rfl, rfl⟩ := Prod.mk.inj (Option.some.inj hs)
      exact ⟨h.destroy_turn nothing loop hc, sound_nil⟩

omit [Field K] [LinearOrder K] in
theorem Inv.call (h : Inv consumers s) {act : Act K} {events : List Event}
    (hs : (match s.loop, s.effects with
      | .idle, [] => (call consumers act).map fun loop => ({ s with loop := loop }, [])
      | _, _ => none) = some (t, events)) : Inv consumers t ∧ Sound events := by
  split at hs
  case h_1 _ nothing =>
    obtain ⟨loop, called, same⟩ := Option.map_eq_some_iff.mp hs
    obtain ⟨rfl, rfl⟩ := Prod.mk.inj same
    refine ⟨h.relax nothing fun i inside passed => ?_, sound_nil⟩
    cases act with
    | startAll _ | settingsChanged _ | pollSelfDisarm =>
      obtain rfl := Option.some.inj called
      exact passed.elim
    | stopAll | shutdown =>
      obtain rfl := Option.some.inj called
      have after : consumers.length ≤ i := passed
      omega
    | advance | worker _ _ | publish _ => cases called
  case h_2 => cases hs

theorem Inv.step (h : Inv consumers s) {act : Act K} {events : List Event}
    (hs : step consumers s act = some (t, events)) : Inv consumers t ∧ Sound events := by
  cases act with
  | advance =>
    cases doing : s.effects with
    | nil =>
      have looped : ConsumerRegistry.loopStep consumers s = some (t, events) := by
        rwa [ConsumerRegistry.step, doing] at hs
      exact h.loopStep doing looped
    | cons effect rest =>
      rw [ConsumerRegistry.step, doing] at hs
      obtain ⟨t', moved, same⟩ := Option.map_eq_some_iff.mp hs
      obtain ⟨rfl, rfl⟩ := Prod.mk.inj same
      exact ⟨h.effectStep doing moved, sound_nil⟩
  | worker i fails =>
    obtain ⟨t', moved, same⟩ := Option.map_eq_some_iff.mp hs
    obtain ⟨rfl, rfl⟩ := Prod.mk.inj same
    exact ⟨h.workerStep moved, sound_nil⟩
  | publish cfg =>
    obtain ⟨rfl, rfl⟩ := Prod.mk.inj (Option.some.inj hs)
    exact ⟨⟨h.safe, h.current, h.alive⟩, sound_nil⟩
  | startAll _ | settingsChanged _ | stopAll | pollSelfDisarm | shutdown => exact h.call hs

omit [Field K] [LinearOrder K] in
theorem inv_initial (consumers : List Consumer) (store : Settings K) :
    Inv consumers (initial store) where
  safe i c _ := by
    rw [remaining_nil rfl]
    exact Entry.safe_nil ⟨Entry.steady_initial c, False.elim⟩
  current doing := absurd rfl doing
  alive := rfl

/-- Whatever the order of the calls and of the moves of the workers: no thread object that
is still joinable is assigned to or destroyed, `start` finds it free each time it is called,
`stop_all` returns with all threads joined, and the flag of every network consumer that is
not just being started or stopped says whether its thread is there to be joined, with no
request of the worker left when it is not. -/
theorem workers_never_orphaned {store : Settings K} {acts : List (Act K)} {events : List Event}
    (h : run (step consumers) (initial store) acts = some (s, events)) :
    s.terminated = false ∧ (∀ i b, .startCalled i b ∈ events → b = false) ∧
      (∀ b, .stopAllReturned b ∈ events → b = true) ∧
      ∀ i c, consumers[i]? = some c → c.hasWorker = true → s.remaining i = [] →
        (s.entry i).active = (s.entry i).joinable ∧
          ((s.entry i).joinable = false → (s.entry i).wantsDisarm = false) := by
  have all : Inv consumers s ∧ Sound events := by
    refine run_history (fun _ events s => Inv consumers s ∧ Sound events)
      ⟨inv_initial consumers store, sound_nil⟩ ?_ h
    rintro _ before s a t new ⟨inv, sound⟩ moved
    obtain ⟨inv', sound'⟩ := inv.step moved
    refine ⟨inv', fun i b called => ?_, fun b returned => ?_⟩
    · exact (List.mem_append.mp called).elim (sound.1 i b) (sound'.1 i b)
    · exact (List.mem_append.mp returned).elim (sound.2 b) (sound'.2 b)
  obtain ⟨inv, started, stopped⟩ := all
  refine ⟨inv.alive, started, stopped, fun i c hc own outside => ?_⟩
  have steady := (inv.settled hc outside).1
  exact ⟨steady.active own, fun free => (steady.quiet free).1⟩

/-- OSC is started, fails, is disarmed while its worker still runs out, is switched on
again and is running when the addon shuts down. -/
def oscFailsAndReturns (cfg : Settings K) : List (Act K) :=
  let advance (n : ℕ) : List (Act K) := List.replicate n .advance
  [[.startAll cfg], advance 13, [.worker 2 true, .worker 2 false, .pollSelfDisarm], advance 9,
    [.worker 2 false], advance 5, [.settingsChanged cfg], advance 9, [.shutdown], advance 3,
    [.worker 2 false], advance 22].flatten

/-- The default settings with OSC on. -/
def withOsc : Settings ℚ :=
  { Settings.defaults ℚ with
    network := ⟨{ OscConfig.defaults with enabled := true }, OpenRgbConfig.defaults ℚ⟩ }

theorem osc_never_orphaned :
    ∃ s events,
      run (step appConsumers) (initial withOsc) (oscFailsAndReturns withOsc) = some (s, events) ∧
        s.terminated = false ∧ (∀ i b, .startCalled i b ∈ events → b = false) ∧
          ∀ b, .stopAllReturned b ∈ events → b = true := by
  have runs : (run (step appConsumers) (initial withOsc) (oscFailsAndReturns withOsc)).isSome =
      true := by decide +kernel
  obtain ⟨⟨s, events⟩, h⟩ := Option.isSome_iff_exists.mp runs
  obtain ⟨alive, started, stopped, -⟩ := workers_never_orphaned h
  exact ⟨s, events, h, alive, started, stopped⟩

end Listeningway.Output.ConsumerRegistry
