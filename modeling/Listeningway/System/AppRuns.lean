/- Listeningway/System/AppRuns
   source: src/app.cpp; src/listeningway_addon.cpp
   digest: From attach to detach everything is built and torn down in order, and never in use. -/

import Listeningway.Output.ConsumerCallbacks
import Listeningway.System.App
import Listeningway.System.SourceFallback
import Mathlib.Tactic.IntervalCases

/-!
The lifetimes nest: consumers inside the AudioSystem, the AudioSystem inside the store. What a
step of a subsystem cannot reach is said once (`Inside`), so that the phases of the boot and the
parts of the detach are followed call by call.
-/

set_option autoImplicit false
set_option relaxedAutoImplicit false

namespace Listeningway.System.App

open Listeningway.Config
open Listeningway.Lib.Machine
open Listeningway.Lib.Script
open Listeningway.Output.ConsumerRegistry (appConsumers)
open Listeningway.Source.AudioSource

variable {K : Type}

/-! ### What is built and destroyed -/

inductive Mark where
  | built (r : Resource)
  | saved
  | destroyed (r : Resource) (held : Bool)
  deriving DecidableEq, Repr

def Event.mark : Event K → Option Mark
  | .built r => some (.built r)
  | .saved _ => some .saved
  | .destroyed r held => some (.destroyed r held)
  | _ => none

def marks (events : List (Event K)) : List Mark := events.filterMap Event.mark

theorem marks_append (before after : List (Event K)) :
    marks (before ++ after) = marks before ++ marks after := List.filterMap_append

theorem marks_audio (events : List Lifecycle.Event) :
    marks (K := K) (events.map .audio) = [] := by
  rw [marks, List.filterMap_map]
  exact List.filterMap_eq_nil_iff.mpr fun _ _ => rfl

theorem marks_registry (events : List Output.ConsumerRegistry.Event) :
    marks (K := K) (events.map .registry) = [] := by
  rw [marks, List.filterMap_map]
  exact List.filterMap_eq_nil_iff.mpr fun _ _ => rfl

/-- How a resource goes, when nothing uses it any more. -/
def Resource.released : Resource → List Mark
  | .store => [.saved, .destroyed .store false]
  | r => [.destroyed r false]

/-- The resources built in their order, and gone in the reverse order. -/
def wholeLife (rs : List Resource) : List Mark :=
  rs.map .built ++ rs.reverse.flatMap Resource.released

/-- The order in which `tick_boot` builds. -/
def buildOrder : List Resource := [.store, .system, .consumers]

/-! ### The subsystems -/

/-- What a step of a subsystem leaves alone. -/
structure Inside (s t : State K) : Prop where
  app : t.app = s.app
  boot : t.boot = s.boot
  registered : t.registered = s.registered
  phase : t.phase = s.phase
  calls : t.calls = s.calls
  store : t.store.isSome = s.store.isSome
  system : t.system.isSome = s.system.isSome
  consumers : t.consumers.isSome = s.consumers.isSome

theorem Inside.refl (s : State K) : Inside s s := ⟨rfl, rfl, rfl, rfl, rfl, rfl, rfl, rfl⟩

theorem Inside.trans {s t u : State K} (first : Inside s t) (second : Inside t u) : Inside s u :=
  ⟨second.app.trans first.app, second.boot.trans first.boot,
    second.registered.trans first.registered, second.phase.trans first.phase,
    second.calls.trans first.calls, second.store.trans first.store,
    second.system.trans first.system, second.consumers.trans first.consumers⟩

section Subsystems

variable [Field K] [LinearOrder K] {sources : List Info} {s t : State K} {o : List (Event K)}

/-- Both subsystems keep their invariants, and no thread object was destroyed or assigned to
while it was joinable. -/
structure Sound (s : State K) : Prop where
  registry : ∀ reg, s.consumers = some reg →
    Output.ConsumerRegistry.Inv appConsumers reg ∧
      Output.ConsumerRegistry.Calling appConsumers reg
  audio : ∀ sys, s.system = some sys → LifecycleRuns.Inv sys
  alive : s.terminated = false

theorem observe_inside (s : State K) (events : List Lifecycle.Event) :
    Inside s (events.foldl State.observe s) ∧
      (events.foldl State.observe s).system = s.system ∧
      (events.foldl State.observe s).consumers = s.consumers ∧
      (events.foldl State.observe s).terminated = s.terminated := by
  induction events generalizing s with
  | nil => exact ⟨.refl s, rfl, rfl, rfl⟩
  | cons e events ih =>
    have first : Inside s (s.observe e) ∧ (s.observe e).system = s.system ∧
        (s.observe e).consumers = s.consumers ∧ (s.observe e).terminated = s.terminated := by
      unfold State.observe
      split
      · exact ⟨⟨rfl, rfl, rfl, rfl, rfl, Option.isSome_map, rfl, rfl⟩, rfl, rfl, rfl⟩
      · exact ⟨⟨rfl, rfl, rfl, rfl, rfl, rfl, rfl, rfl⟩, rfl, rfl, rfl⟩
      · exact ⟨.refl s, rfl, rfl, rfl⟩
    obtain ⟨inside, system, consumers, terminated⟩ := ih (s.observe e)
    obtain ⟨inside₁, system₁, consumers₁, terminated₁⟩ := first
    exact ⟨inside₁.trans inside, system.trans system₁, consumers.trans consumers₁,
      terminated.trans terminated₁⟩

theorem audioStep_cases {a : Lifecycle.Act} (hs : s.audioStep sources a = some (t, o)) :
    ∃ sys sys' events, s.system = some sys ∧
      Lifecycle.step sources true sys a = some (sys', events) ∧ t.system = some sys' ∧
      t.consumers = s.consumers ∧ t.terminated = (s.terminated || sys'.terminated) ∧
      o = events.map .audio ∧ Inside s t := by
  obtain ⟨sys, there, hs⟩ := Option.bind_eq_some_iff.mp hs
  obtain ⟨⟨sys', events⟩, moved, hs⟩ := Option.bind_eq_some_iff.mp hs
  obtain ⟨rfl, rfl⟩ := Prod.mk.inj (Option.some.inj hs)
  obtain ⟨inside, system, consumers, terminated⟩ := observe_inside
    { s with system := some sys', terminated := s.terminated || sys'.terminated } events
  refine ⟨sys, sys', events, there, moved, system, consumers, terminated, rfl, ?_⟩
  have front : Inside s { s with
      system := some sys', terminated := s.terminated || sys'.terminated } :=
    ⟨rfl, rfl, rfl, rfl, rfl, rfl, by rw [there]; rfl, rfl⟩
  exact front.trans inside

theorem registryStep_cases {a : Output.ConsumerRegistry.Act K}
    (hs : s.registryStep a = some (t, o)) :
    ∃ reg reg' events, s.consumers = some reg ∧
      Output.ConsumerRegistry.step appConsumers { reg with store := s.store.getD reg.store } a =
        some (reg', events) ∧ t.consumers = some reg' ∧
      t.system = s.system ∧ t.terminated = (s.terminated || reg'.terminated) ∧
      o = events.map .registry ∧ Inside s t := by
  obtain ⟨reg, there, hs⟩ := Option.bind_eq_some_iff.mp hs
  obtain ⟨⟨reg', events⟩, moved, hs⟩ := Option.bind_eq_some_iff.mp hs
  obtain ⟨rfl, rfl⟩ := Prod.mk.inj (Option.some.inj hs)
  exact ⟨reg, reg', events, there, moved, rfl, rfl, rfl, rfl, rfl, rfl, rfl, rfl, rfl,
    Option.isSome_map, rfl, by rw [there]; rfl⟩

theorem Sound.audioStep (sound : Sound s) {a : Lifecycle.Act}
    (hs : s.audioStep sources a = some (t, o)) : Sound t ∧ Inside s t ∧ marks o = [] := by
  obtain ⟨sys, sys', events, there, moved, system, consumers, terminated, rfl, inside⟩ :=
    audioStep_cases hs
  have inv := LifecycleRuns.keep sys a sys' events (sound.audio sys there) moved
  refine ⟨⟨fun reg here => ?_, fun other here => ?_, ?_⟩, inside, marks_audio events⟩
  · exact sound.registry reg (consumers ▸ here)
  · obtain rfl := Option.some.inj (system.symm.trans here)
    exact inv
  · rw [terminated, sound.alive, inv.alive]
    rfl

theorem Sound.registryStep (sound : Sound s) {a : Output.ConsumerRegistry.Act K}
    (hs : s.registryStep a = some (t, o)) : Sound t ∧ Inside s t ∧ marks o = [] := by
  obtain ⟨reg, reg', events, there, moved, consumers, system, terminated, rfl, inside⟩ :=
    registryStep_cases hs
  obtain ⟨inv, calling⟩ := sound.registry reg there
  have stored : Output.ConsumerRegistry.Inv appConsumers
      { reg with store := s.store.getD reg.store } := ⟨inv.safe, inv.current, inv.alive⟩
  have calling₁ : Output.ConsumerRegistry.Calling appConsumers
      { reg with store := s.store.getD reg.store } := calling
  have inv' := (stored.step moved).1
  have calling' := calling₁.step moved
  refine ⟨⟨fun other here => ?_, fun sys here => ?_, ?_⟩, inside, marks_registry events⟩
  · obtain rfl := Option.some.inj (consumers.symm.trans here)
    exact ⟨inv', calling'⟩
  · exact sound.audio sys (system ▸ here)
  · rw [terminated, sound.alive, inv'.alive]
    rfl

end Subsystems

/-! ### Up to the detach -/

/-- Whether the store, the AudioSystem and the registry exist in a phase. -/
def Phase.owns : Phase → Bool × Bool × Bool
  | .loadSettings => (false, false, false)
  | .buildAudioSystem => (true, false, false)
  | .startAudio | .buildConsumers | .failed => (true, true, false)
  | .startConsumers | .running => (true, true, true)

namespace State

def owned (s : State K) : Bool × Bool × Bool :=
  (s.store.isSome, s.system.isSome, s.consumers.isSome)

end State

def resources (owned : Bool × Bool × Bool) : List Resource :=
  (if owned.1 then [.store] else []) ++ (if owned.2.1 then [.system] else []) ++
    if owned.2.2 then [.consumers] else []

/-- The calls that stand alone, and where the phase allows them. -/
def Fits : Phase → Call K → Prop
  | phase, .audioStarted => phase = .startAudio
  | phase, .consumersStarted => phase = .startConsumers
  | _, .tickBoot _ _ | _, .ticked _ | _, .tickRunning => True
  | _, _ => False

/-- Attached: the phase tells what exists, and at most one part of a call is left. -/
structure Up (s : State K) : Prop where
  registered : s.registered = true
  stage : s.owned = s.phase.owns
  calls : s.calls = [] ∨ ∃ call, s.calls = [call] ∧ Fits s.phase call

theorem Inside.owned {s t : State K} (inside : Inside s t) : t.owned = s.owned := by
  rw [State.owned, inside.store, inside.system, inside.consumers]
  rfl

theorem Up.inside {s t : State K} (up : Up s) (inside : Inside s t) : Up t where
  registered := inside.registered.trans up.registered
  stage := by rw [inside.owned, inside.phase, up.stage]
  calls := by
    rw [inside.calls, inside.phase]
    exact up.calls

section Attached

variable [Field K] [LinearOrder K] {sources : List Info} {s t : State K} {o : List (Event K)}

/-- What a step of an attached addon does: the phase stays in touch, and what is built is
marked. -/
structure Grows (s t : State K) (o : List (Event K)) : Prop where
  up : Up t
  sound : Sound t
  built : (resources s.owned).map Mark.built ++ marks o = (resources t.owned).map Mark.built

omit [Field K] [LinearOrder K] in
theorem grows_of_inside (up : Up s) (step : Sound t ∧ Inside s t ∧ marks o = []) :
    Grows s t o := by
  obtain ⟨sound, inside, silent⟩ := step
  exact ⟨up.inside inside, sound, by rw [silent, List.append_nil, inside.owned]⟩

omit [Field K] [LinearOrder K] in
theorem grows_of_phase (up : Up s) (sound : Sound s) {phase : Phase} {call : Call K}
    (owns : phase.owns = s.phase.owns) (fits : Fits phase call) {boot : Option Scheduler} :
    Grows s { s with phase := phase, calls := [call], boot := boot } [] where
  up := ⟨up.registered, up.stage.trans owns.symm, .inr ⟨call, rfl, fits⟩⟩
  sound := ⟨sound.registry, sound.audio, sound.alive⟩
  built := List.append_nil _

omit [Field K] [LinearOrder K] in
theorem fits_ticked (phase : Phase) (result : StepResult) :
    Fits phase (.ticked result : Call K) := trivial

omit [Field K] [LinearOrder K] in
theorem fail_grows (up : Up s) (sound : Sound s) (nothing : s.calls = [])
    (owns : Phase.failed.owns = s.phase.owns) : Grows s s.fail.1 s.fail.2 := by
  have same : s.fail = ({ s with phase := .failed, calls := [.ticked .failed], boot := s.boot }, [])
      := by
    rw [State.fail, nothing]
  rw [same]
  exact grows_of_phase up sound owns (fits_ticked _ _)

theorem up_tickBoot (up : Up s) (sound : Sound s) (nothing : s.calls = []) {loaded : Settings K}
    {out : Outcomes} (hs : s.tickBoot sources loaded out = some (t, o)) : Grows s t o := by
  obtain ⟨store, rest⟩ := Prod.mk.inj up.stage
  obtain ⟨system, consumers⟩ := Prod.mk.inj rest
  have owned : (resources s.owned).map Mark.built = (resources s.phase.owns).map Mark.built :=
    congrArg (fun owned => (resources owned).map Mark.built) up.stage
  unfold State.tickBoot at hs
  rw [nothing] at hs
  split at hs
  case h_1 phase =>
    obtain ⟨rfl, rfl⟩ := Prod.mk.inj (Option.some.inj hs)
    rw [phase] at store system consumers owned
    refine ⟨⟨up.registered, ?_, .inr ⟨_, rfl, trivial⟩⟩,
      ⟨sound.registry, sound.audio, sound.alive⟩, ?_⟩
    · rw [State.owned, system, consumers]
      rfl
    · rw [owned, State.owned, system, consumers]
      rfl
  case h_2 phase =>
    rw [phase] at store system consumers owned
    rw [if_neg (by rw [Option.isNone_eq_false_iff.mpr store]; decide)] at hs
    obtain ⟨rfl, rfl⟩ := Prod.mk.inj (Option.some.inj hs)
    refine ⟨⟨up.registered, ?_, .inr ⟨_, rfl, trivial⟩⟩,
      ⟨sound.registry, fun sys here => ?_, sound.alive⟩, ?_⟩
    · rw [State.owned, store, consumers]
      rfl
    · obtain rfl := Option.some.inj here
      exact LifecycleRuns.inv_initial
    · rw [owned, State.owned, store, consumers]
      rfl
  case h_3 phase =>
    rw [phase] at store system
    obtain ⟨cfg, store⟩ := Option.isSome_iff_exists.mp store
    obtain ⟨sys, system⟩ := Option.isSome_iff_exists.mp system
    split at hs
    case h_2 missing => exact absurd store (missing sys cfg system)
    have called : Up { s with calls := [.audioStarted] } :=
      ⟨up.registered, up.stage, .inr ⟨_, rfl, phase⟩⟩
    have sound' : Sound { s with calls := [.audioStarted] } :=
      ⟨sound.registry, sound.audio, sound.alive⟩
    have grows := grows_of_inside called (sound'.audioStep hs)
    exact ⟨grows.up, grows.sound, grows.built⟩
  case h_4 phase =>
    rw [phase] at store system consumers owned
    split at hs
    case h_1 missing =>
      rw [missing] at store
      cases store
    obtain ⟨rfl, rfl⟩ := Prod.mk.inj (Option.some.inj hs)
    refine ⟨⟨up.registered, ?_, .inr ⟨_, rfl, trivial⟩⟩,
      ⟨fun reg here => ?_, sound.audio, sound.alive⟩, ?_⟩
    · rw [State.owned, store, system]
      rfl
    · obtain rfl := Option.some.inj here
      exact ⟨Output.ConsumerRegistry.inv_initial _ _,
        Output.ConsumerRegistry.calling_initial _ _⟩
    · rw [owned, State.owned, store, system]
      rfl
  case h_5 phase =>
    rw [phase] at store system consumers
    obtain ⟨cfg, store⟩ := Option.isSome_iff_exists.mp store
    obtain ⟨sys, system⟩ := Option.isSome_iff_exists.mp system
    obtain ⟨reg, consumers⟩ := Option.isSome_iff_exists.mp consumers
    split at hs
    case h_2 missing => exact absurd store (missing reg sys cfg consumers system)
    have called : Up { s with calls := [.consumersStarted] } :=
      ⟨up.registered, up.stage, .inr ⟨_, rfl, phase⟩⟩
    have sound' : Sound { s with calls := [.consumersStarted] } :=
      ⟨sound.registry, sound.audio, sound.alive⟩
    have grows := grows_of_inside called (sound'.registryStep hs)
    exact ⟨grows.up, grows.sound, grows.built⟩
  case h_6 =>
    obtain ⟨rfl, rfl⟩ := Prod.mk.inj (Option.some.inj hs)
    exact grows_of_phase up sound rfl (fits_ticked _ _)
  case h_7 =>
    obtain ⟨rfl, rfl⟩ := Prod.mk.inj (Option.some.inj hs)
    exact grows_of_phase up sound rfl (fits_ticked _ _)

theorem up_exec (up : Up s) (sound : Sound s) (nothing : s.calls = []) {call : Call K}
    (fits : Fits s.phase call) (hs : s.exec sources call = some (t, o)) : Grows s t o := by
  have quiet : ∀ {s'}, s' = s → Grows s s' [] := by
    rintro _ rfl
    exact ⟨up, sound, List.append_nil _⟩
  cases call with
  | tickBoot loaded out => exact up_tickBoot up sound nothing hs
  | audioStarted =>
    have phase : s.phase = .startAudio := fits
    rw [State.exec] at hs
    split_ifs at hs
    · obtain ⟨rfl, rfl⟩ := Prod.mk.inj (Option.some.inj hs)
      rw [nothing]
      exact grows_of_phase up sound (by rw [phase]; rfl) (fits_ticked _ _)
    · obtain ⟨rfl, rfl⟩ := Prod.mk.inj (Option.some.inj hs)
      exact fail_grows up sound nothing (by rw [phase]; rfl)
  | consumersStarted =>
    have phase : s.phase = .startConsumers := fits
    obtain ⟨rfl, rfl⟩ := Prod.mk.inj (Option.some.inj hs)
    rw [nothing]
    exact grows_of_phase up sound (by rw [phase]; rfl) (fits_ticked _ _)
  | ticked result =>
    obtain ⟨rfl, rfl⟩ := Prod.mk.inj (Option.some.inj hs)
    exact ⟨⟨up.registered, up.stage, .inl nothing⟩, ⟨sound.registry, sound.audio, sound.alive⟩,
      List.append_nil _⟩
  | tickRunning =>
    rw [State.exec] at hs
    split_ifs at hs
    · obtain ⟨rfl, rfl⟩ := Prod.mk.inj (Option.some.inj hs)
      exact quiet rfl
    · exact grows_of_inside up (sound.registryStep hs)
  | stopConsumers | freeConsumers | stopSystem | freeSystem | saveStore | freeStore | freeApp |
      freeBoot => exact fits.elim

end Attached

/-! ### The detach -/

abbrev Stops (sys : Lifecycle.State) : Prop :=
  LifecycleRuns.Disciplined LifecycleRuns.Stopped sys.guarded sys.pending

/-- The registry lives inside the AudioSystem, and the AudioSystem inside the store. -/
structure Nested (s : State K) : Prop where
  inner : s.consumers.isSome = true → s.system.isSome = true
  outer : s.system.isSome = true → s.store.isSome = true

/-- What the first `n` parts of the call leave. -/
def Left (s : State K) : ℕ → Prop
  | 0 => Nested s
  | 1 => Nested s ∧ ∀ reg, s.consumers = some reg → reg.loop.Ending
  | 2 => Nested s ∧ s.consumers = none
  | 3 | 4 => Nested s ∧ s.consumers = none ∧ ∀ sys, s.system = some sys → Stops sys
  | 5 | 6 => s.consumers = none ∧ s.system = none
  | n + 7 => s.consumers = none ∧ s.system = none ∧ s.store = none ∧
      (8 ≤ n → s.app = false) ∧ (9 ≤ n → s.boot = none)

/-- Detaching, with the first `n` parts of the call done. -/
structure Down (s : State K) (n : ℕ) : Prop where
  registered : s.registered = false
  calls : s.calls = detach.drop n
  bound : n ≤ 16
  left : Left s n

theorem nested_of_gone {s : State K} (consumers : s.consumers = none) (system : s.system = none) :
    Nested s where
  inner there := by
    rw [consumers] at there
    cases there
  outer there := by
    rw [system] at there
    cases there

theorem nested_of_left {s : State K} {n : ℕ} (left : Left s n) : Nested s :=
  match n, left with
  | 0, nested => nested
  | 1, ⟨nested, _⟩ | 2, ⟨nested, _⟩ | 3, ⟨nested, _⟩ | 4, ⟨nested, _⟩ => nested
  | 5, ⟨consumers, system⟩ | 6, ⟨consumers, system⟩ => nested_of_gone consumers system
  | _ + 7, ⟨consumers, system, _⟩ => nested_of_gone consumers system

theorem Inside.nested {s t : State K} (inside : Inside s t) (nested : Nested s) : Nested t := by
  constructor
  · rw [inside.consumers, inside.system]
    exact nested.inner
  · rw [inside.system, inside.store]
    exact nested.outer

/-- What is still to be marked. -/
def owed (s : State K) (n : ℕ) : List Mark :=
  if n ≤ 5 then (resources s.owned).reverse.flatMap Resource.released
  else if n = 6 ∧ s.store.isSome then [.destroyed .store false]
  else []

theorem owed_kept {s t : State K} {m n : ℕ} {o : List (Event K)} (here : m ≤ 5) (there : n ≤ 5)
    (silent : marks o = []) (same : t.owned = s.owned) : marks o ++ owed t n = owed s m := by
  rw [silent, List.nil_append, owed, owed, if_pos here, if_pos there, same]

theorem owed_late {n : ℕ} (s : State K) (late : 7 ≤ n) : owed s n = [] := by
  rw [owed, if_neg (by omega), if_neg (fun last => by omega)]

theorem stops_stop {g : Lifecycle.Guarded} (standing : LifecycleRuns.Standing g)
    (resting : LifecycleRuns.Resting g) :
    LifecycleRuns.Disciplined LifecycleRuns.Stopped g (Lifecycle.stop g) :=
  meets_append (LifecycleRuns.stop_locked_disciplined standing resting)
    fun _ standing' stopped => ⟨standing', trivial, standing', stopped⟩

theorem stops_step {sources : List Info} {sys sys' : Lifecycle.State} {a : Lifecycle.Act}
    {events : List Lifecycle.Event} (stops : Stops sys)
    (inside : SourceFallback.Act.Inside a)
    (hs : Lifecycle.step sources true sys a = some (sys', events)) : Stops sys' := by
  unfold Stops at stops ⊢
  cases a with
  | advance =>
    obtain ⟨e, es, pending, -, rest, guarded, -⟩ := LifecycleRuns.advance_cases hs
    rw [pending] at stops
    rw [rest, guarded]
    exact stops.2.2
  | dsp k =>
    obtain ⟨guarded, pending, -⟩ := LifecycleRuns.dsp_frame hs
    rwa [guarded, pending]
  | start _ _ | stop | switchSource _ _ _ => exact inside.elim

section Detached

variable [Field K] [LinearOrder K] {sources : List Info} {s t : State K} {o : List (Event K)}
  {n : ℕ}

/-- What a step of a detaching addon does: `n` parts of the call are done behind it. -/
structure Shrinks (s : State K) (m : ℕ) (t : State K) (n : ℕ) (o : List (Event K)) : Prop where
  down : Down t n
  sound : Sound t
  owed : marks o ++ owed t n = owed s m

omit [Field K] [LinearOrder K] in
theorem Sound.withCalls (sound : Sound s) (calls : List (Call K)) :
    Sound { s with calls := calls } := ⟨sound.registry, sound.audio, sound.alive⟩

omit [Field K] [LinearOrder K] in
theorem shrinks_of_inside (down : Down s n) (step : Sound t ∧ Inside s t ∧ marks o = [])
    (left : Left t n) : Shrinks s n t n o := by
  obtain ⟨sound, inside, silent⟩ := step
  refine ⟨⟨inside.registered.trans down.registered, inside.calls.trans down.calls, down.bound,
    left⟩, sound, ?_⟩
  rw [silent, owed, owed, inside.owned, inside.store]
  rfl

theorem down_audioStep (down : Down s n) (sound : Sound s) {a : Lifecycle.Act}
    (act : SourceFallback.Act.Inside a) (hs : s.audioStep sources a = some (t, o)) :
    Shrinks s n t n o := by
  have step := sound.audioStep hs
  obtain ⟨sys, sys', events, there, moved, system, consumers, -, -, inside⟩ := audioStep_cases hs
  refine shrinks_of_inside down step ?_
  have left := down.left
  have gone : s.system ≠ none := by
    rw [there]
    exact Option.some_ne_none sys
  have stops : (∀ sys, s.system = some sys → Stops sys) → ∀ sys, t.system = some sys →
      Stops sys := by
    intro before other here
    obtain rfl := Option.some.inj (system.symm.trans here)
    exact stops_step (before sys there) act moved
  match n, left with
  | 0, nested => exact inside.nested nested
  | 1, ⟨nested, ending⟩ => exact ⟨inside.nested nested, consumers ▸ ending⟩
  | 2, ⟨nested, none'⟩ => exact ⟨inside.nested nested, consumers.trans none'⟩
  | 3, ⟨nested, none', before⟩ | 4, ⟨nested, none', before⟩ =>
    exact ⟨inside.nested nested, consumers.trans none', stops before⟩
  | 5, ⟨_, none'⟩ | 6, ⟨_, none'⟩ => exact absurd none' gone
  | n + 7, ⟨_, none', _⟩ => exact absurd none' gone

theorem down_registryStep (down : Down s n) (sound : Sound s)
    {a : Output.ConsumerRegistry.Act K} (act : a = .advance ∨ ∃ i fails, a = .worker i fails)
    (hs : s.registryStep a = some (t, o)) : Shrinks s n t n o := by
  have step := sound.registryStep hs
  obtain ⟨reg, reg', events, there, moved, consumers, system, -, -, inside⟩ := registryStep_cases hs
  refine shrinks_of_inside down step ?_
  have left := down.left
  have gone : s.consumers ≠ none := by
    rw [there]
    exact Option.some_ne_none reg
  match n, left with
  | 0, nested => exact inside.nested nested
  | 1, ⟨nested, ending⟩ =>
    refine ⟨inside.nested nested, fun other here => ?_⟩
    obtain rfl := Option.some.inj (consumers.symm.trans here)
    have before : ({ reg with store := s.store.getD reg.store } :
        Output.ConsumerRegistry.State K).loop.Ending := ending reg there
    exact Output.ConsumerRegistry.ending_step act before moved
  | 2, ⟨_, none'⟩ | 3, ⟨_, none', _⟩ | 4, ⟨_, none', _⟩ => exact absurd none' gone
  | 5, ⟨none', _⟩ | 6, ⟨none', _⟩ => exact absurd none' gone
  | n + 7, ⟨none', _⟩ => exact absurd none' gone

/-! ### The parts of the call -/

theorem down_stopConsumers (down : Down s 0) (sound : Sound s)
    (hs : ({ s with calls := detach.drop 1 } : State K).exec sources .stopConsumers =
      some (t, o)) : Shrinks s 0 t 1 o := by
  have nested : Nested s := down.left
  have sound₁ := sound.withCalls (detach.drop 1)
  rw [State.exec] at hs
  split_ifs at hs with absent
  · obtain ⟨rfl, rfl⟩ := Prod.mk.inj (Option.some.inj hs)
    have none' : s.consumers = none := Option.isNone_iff_eq_none.mp absent
    refine ⟨⟨down.registered, rfl, by decide, ⟨nested.inner, nested.outer⟩, fun reg here => ?_⟩,
      sound₁, owed_kept (by decide) (by decide) rfl rfl⟩
    rw [none'] at here
    cases here
  · obtain ⟨sound', inside, silent⟩ := sound₁.registryStep hs
    obtain ⟨reg, reg', events, there, moved, consumers, -⟩ := registryStep_cases hs
    refine ⟨⟨inside.registered.trans down.registered, inside.calls, by decide,
      inside.nested ⟨nested.inner, nested.outer⟩, fun other here => ?_⟩, sound', ?_⟩
    · obtain rfl := Option.some.inj (consumers.symm.trans here)
      unfold Output.ConsumerRegistry.step at moved
      dsimp only at moved
      split at moved
      · obtain ⟨rfl, -⟩ := Prod.mk.inj (Option.some.inj moved)
        exact .stopAll _
      · cases moved
    · exact owed_kept (by decide) (by decide) silent inside.owned

omit [Field K] [LinearOrder K] in
theorem idle_of_ending {reg : Output.ConsumerRegistry.State K}
    (inv : Output.ConsumerRegistry.Inv appConsumers reg)
    (calling : Output.ConsumerRegistry.Calling appConsumers reg) (ending : reg.loop.Ending)
    (rests : resting reg = true) : busy reg = false := by
  have ended : reg.loop = .destroyed ∧ reg.effects = [] := by
    unfold resting at rests
    generalize reg.loop = loop at ending rests
    generalize reg.effects = effects at rests
    cases ending with
    | stopAll i | destroy i => cases rests
    | destroyed =>
      cases effects with
      | nil => exact ⟨rfl, rfl⟩
      | cons effect rest => cases rests
  rw [busy, List.any_eq_false]
  rintro ⟨c, i⟩ listed
  rw [Output.ConsumerRegistry.destroyed_idle inv calling ended.1 ended.2
    (List.mem_zipIdx_iff_getElem?.mp listed)]
  exact Bool.false_ne_true

theorem down_freeConsumers (down : Down s 1) (sound : Sound s) (rests : s.registryRests = true)
    (hs : ({ s with calls := detach.drop 2 } : State K).exec sources .freeConsumers =
      some (t, o)) : Shrinks s 1 t 2 o := by
  obtain ⟨nested, ending⟩ := down.left
  rw [State.exec] at hs
  split at hs
  case h_1 none' =>
    obtain ⟨rfl, rfl⟩ := Prod.mk.inj (Option.some.inj hs)
    have left : Left ({ s with calls := detach.drop 2 } : State K) 2 :=
      ⟨⟨nested.inner, nested.outer⟩, none'⟩
    have sound₁ := sound.withCalls (detach.drop 2)
    refine ⟨⟨down.registered, rfl, by decide, left⟩, sound₁, ?_⟩
    exact owed_kept (by decide) (by decide) rfl rfl
  case h_2 reg there =>
    obtain ⟨rfl, rfl⟩ := Prod.mk.inj (Option.some.inj hs)
    have here : s.consumers = some reg := there
    obtain ⟨inv, calling⟩ := sound.registry reg here
    have rested : resting reg = true := by
      rwa [State.registryRests, here] at rests
    have idle := idle_of_ending inv calling (ending reg here) rested
    have system := nested.inner (by rw [here]; rfl)
    have store := nested.outer system
    have left : Left ({ s with calls := detach.drop 2, consumers := none } : State K) 2 :=
      ⟨⟨fun absent => absurd absent Bool.false_ne_true, nested.outer⟩, rfl⟩
    have sound₁ : Sound ({ s with calls := detach.drop 2, consumers := none } : State K) :=
      ⟨fun _ absent => (Option.some_ne_none _ absent.symm).elim, sound.audio, sound.alive⟩
    refine ⟨⟨down.registered, rfl, by decide, left⟩, sound₁, ?_⟩
    rw [idle, owed, owed, State.owned, State.owned, here, store, system]
    rfl

theorem exec_stopSystem (consumers : s.consumers = none) (sound : Sound s)
    (hs : s.exec sources .stopSystem = some (t, o)) :
    Sound t ∧ Inside s t ∧ marks o = [] ∧ t.consumers = none ∧
      ∀ sys, t.system = some sys → Stops sys := by
  rw [State.exec] at hs
  split_ifs at hs with absent
  · obtain ⟨rfl, rfl⟩ := Prod.mk.inj (Option.some.inj hs)
    refine ⟨sound, .refl s, rfl, consumers, fun sys here => ?_⟩
    rw [Option.isNone_iff_eq_none.mp absent] at here
    cases here
  · obtain ⟨sound', inside, silent⟩ := sound.audioStep hs
    obtain ⟨sys, sys', events, there, moved, system, same, -⟩ := audioStep_cases hs
    refine ⟨sound', inside, silent, same.trans consumers, fun other here => ?_⟩
    obtain rfl := Option.some.inj (system.symm.trans here)
    obtain ⟨locked, taken, same⟩ := Option.map_eq_some_iff.mp moved
    obtain ⟨rfl, -⟩ := Prod.mk.inj same
    obtain ⟨free, taken⟩ := Option.ite_none_right_eq_some.mp taken
    obtain rfl := Option.some.inj taken
    have disciplined := (sound.audio sys there).disciplined
    rw [free] at disciplined
    exact stops_stop disciplined.1 disciplined.2

theorem down_stopSystem {m : ℕ} (twice : m = 2 ∨ m = 3) (down : Down s m) (sound : Sound s)
    (hs : ({ s with calls := detach.drop (m + 1) } : State K).exec sources .stopSystem =
      some (t, o)) : Shrinks s m t (m + 1) o := by
  have left : Nested s ∧ s.consumers = none := by
    have left := down.left
    rcases twice with rfl | rfl
    · exact left
    · exact ⟨left.1, left.2.1⟩
  have nested : Nested ({ s with calls := detach.drop (m + 1) } : State K) :=
    ⟨left.1.inner, left.1.outer⟩
  have none' : ({ s with calls := detach.drop (m + 1) } : State K).consumers = none := left.2
  obtain ⟨sound', inside, silent, consumers, stops⟩ :=
    exec_stopSystem none' (sound.withCalls (detach.drop (m + 1))) hs
  have registered := inside.registered.trans down.registered
  have nested' := inside.nested nested
  rcases twice with rfl | rfl
  · exact ⟨⟨registered, inside.calls, by decide, nested', consumers, stops⟩, sound',
      owed_kept (by decide) (by decide) silent inside.owned⟩
  · exact ⟨⟨registered, inside.calls, by decide, nested', consumers, stops⟩, sound',
      owed_kept (by decide) (by decide) silent inside.owned⟩

omit [Field K] [LinearOrder K] in
theorem silent_of_stops {sys : Lifecycle.State} (inv : LifecycleRuns.Inv sys)
    (stops : Stops sys) (rests : sys.pending = []) :
    sys.guarded.joinable = false ∧ sounding sources sys = false := by
  unfold Stops at stops
  rw [rests] at stops
  obtain ⟨-, stopped⟩ := stops
  have few := inv.threads
  rw [stopped.joinable, if_neg Bool.false_ne_true] at few
  have none' : sys.threads = [] := List.length_eq_zero_iff.mp (Nat.le_zero.mp few)
  refine ⟨stopped.joinable, ?_⟩
  have quiet : (List.range sources.length).any sys.guarded.startCalled = false :=
    List.any_eq_false.mpr fun i _ => by
      rw [stopped.idle i]
      exact Bool.false_ne_true
  rw [sounding, none', quiet]
  rfl

theorem down_freeSystem (down : Down s 4) (sound : Sound s) (rests : s.audioRests = true)
    (hs : ({ s with calls := detach.drop 5 } : State K).exec sources .freeSystem =
      some (t, o)) : Shrinks s 4 t 5 o := by
  obtain ⟨nested, consumers, stops⟩ := down.left
  rw [State.exec] at hs
  split at hs
  case h_1 none' =>
    obtain ⟨rfl, rfl⟩ := Prod.mk.inj (Option.some.inj hs)
    have left : Left ({ s with calls := detach.drop 5 } : State K) 5 := ⟨consumers, none'⟩
    have sound₁ := sound.withCalls (detach.drop 5)
    refine ⟨⟨down.registered, rfl, by decide, left⟩, sound₁, ?_⟩
    exact owed_kept (by decide) (by decide) rfl rfl
  case h_2 sys there =>
    obtain ⟨rfl, rfl⟩ := Prod.mk.inj (Option.some.inj hs)
    have here : s.system = some sys := there
    have rested : sys.pending = [] := by
      rw [State.audioRests, here] at rests
      exact List.isEmpty_iff.mp rests
    obtain ⟨free, quiet⟩ : sys.guarded.joinable = false ∧ sounding sources sys = false :=
      silent_of_stops (sound.audio sys here) (stops sys here) rested
    have store := nested.outer (by rw [here]; rfl)
    refine ⟨⟨down.registered, rfl, by decide, consumers, rfl⟩, ⟨sound.registry, ?_, ?_⟩, ?_⟩
    · exact fun _ absent => (Option.some_ne_none _ absent.symm).elim
    · dsimp only
      rw [sound.alive, free]
      rfl
    · dsimp only
      rw [quiet, owed, owed, State.owned, State.owned, here, store, consumers]
      rfl

theorem down_saveStore (down : Down s 5) (sound : Sound s)
    (hs : ({ s with calls := detach.drop 6 } : State K).exec sources .saveStore =
      some (t, o)) : Shrinks s 5 t 6 o := by
  obtain ⟨consumers, system⟩ := down.left
  have left : Left ({ s with calls := detach.drop 6 } : State K) 6 := ⟨consumers, system⟩
  have sound₁ := sound.withCalls (detach.drop 6)
  rw [State.exec] at hs
  split at hs
  case h_1 absent =>
    obtain ⟨rfl, rfl⟩ := Prod.mk.inj (Option.some.inj hs)
    have none' : s.store = none := absent
    refine ⟨⟨down.registered, rfl, by decide, left⟩, sound₁, ?_⟩
    rw [owed, owed, State.owned, State.owned, none', system, consumers]
    rfl
  case h_2 cfg there =>
    obtain ⟨rfl, rfl⟩ := Prod.mk.inj (Option.some.inj hs)
    have here : s.store = some cfg := there
    refine ⟨⟨down.registered, rfl, by decide, left⟩, sound₁, ?_⟩
    rw [owed, owed, State.owned, State.owned, here, system, consumers]
    rfl

theorem down_freeStore (down : Down s 6) (sound : Sound s)
    (hs : ({ s with calls := detach.drop 7 } : State K).exec sources .freeStore =
      some (t, o)) : Shrinks s 6 t 7 o := by
  obtain ⟨consumers, system⟩ := down.left
  rw [State.exec] at hs
  split at hs
  case h_1 absent =>
    obtain ⟨rfl, rfl⟩ := Prod.mk.inj (Option.some.inj hs)
    have none' : s.store = none := absent
    have left : Left ({ s with calls := detach.drop 7 } : State K) 7 :=
      ⟨consumers, system, none', fun late => absurd late (by decide),
        fun late => absurd late (by decide)⟩
    refine ⟨⟨down.registered, rfl, by decide, left⟩, sound.withCalls _, ?_⟩
    rw [owed, owed, none']
    rfl
  case h_2 cfg there =>
    obtain ⟨rfl, rfl⟩ := Prod.mk.inj (Option.some.inj hs)
    have here : s.store = some cfg := there
    have left : Left ({ s with calls := detach.drop 7, store := none } : State K) 7 :=
      ⟨consumers, system, rfl, fun late => absurd late (by decide),
        fun late => absurd late (by decide)⟩
    refine ⟨⟨down.registered, rfl, by decide, left⟩,
      ⟨sound.registry, sound.audio, sound.alive⟩, ?_⟩
    dsimp only
    rw [owed, owed, here, system, consumers]
    rfl

theorem exec_gone (store : s.store = none) (system : s.system = none)
    (consumers : s.consumers = none) {call : Call K} (among : call ∈ (stop : List (Call K))) :
    s.exec sources call = some (s, []) := by
  simp only [stop, List.mem_cons, List.not_mem_nil, or_false] at among
  rcases among with rfl | rfl | rfl | rfl | rfl | rfl | rfl <;>
    simp [State.exec, store, system, consumers]

theorem down_rest (down : Down s n) (sound : Sound s) (late : 7 ≤ n) {call : Call K}
    {rest : List (Call K)} (calls : detach.drop n = call :: rest)
    (hs : ({ s with calls := rest } : State K).exec sources call = some (t, o)) :
    Shrinks s n t (n + 1) o := by
  have next : rest = detach.drop (n + 1) := by
    rw [← List.tail_drop, calls]
    rfl
  have inside : n < 16 := by
    by_contra past
    have ended : (detach : List (Call K)).drop n = [] :=
      List.drop_eq_nil_of_le (Nat.le_of_not_lt past)
    rw [ended] at calls
    cases calls
  obtain ⟨k, rfl⟩ := Nat.exists_eq_add_of_le' late
  obtain ⟨consumers, system, store, app, boot⟩ := down.left
  have sound₁ := sound.withCalls rest
  have gone : ∀ t : State K, marks (K := K) [] ++ owed t (k + 7 + 1) = owed s (k + 7) := by
    intro t
    rw [owed_late s late, owed_late t (by omega)]
    rfl
  rcases Nat.lt_or_ge k 7 with second | own
  · have among : call ∈ (stop : List (Call K)) := by
      interval_cases k <;> obtain ⟨rfl, -⟩ := List.cons.inj calls <;> simp [stop]
    have nothing : ({ s with calls := rest } : State K).exec sources call =
        some ({ s with calls := rest }, []) :=
      exec_gone (s := { s with calls := rest }) store system consumers among
    obtain ⟨rfl, rfl⟩ := Prod.mk.inj (Option.some.inj (hs.symm.trans nothing))
    exact ⟨⟨down.registered, next, inside, consumers, system, store, fun _ => by omega,
      fun _ => by omega⟩, sound₁, gone _⟩
  · obtain rfl | rfl : k = 7 ∨ k = 8 := by omega
    · obtain ⟨rfl, -⟩ := List.cons.inj calls
      obtain ⟨rfl, rfl⟩ := Prod.mk.inj (Option.some.inj hs)
      exact ⟨⟨down.registered, next, inside, consumers, system, store, fun _ => rfl,
        fun late => absurd late (by decide)⟩, ⟨sound.registry, sound.audio, sound.alive⟩, gone _⟩
    · obtain ⟨rfl, -⟩ := List.cons.inj calls
      obtain ⟨rfl, rfl⟩ := Prod.mk.inj (Option.some.inj hs)
      exact ⟨⟨down.registered, next, inside, consumers, system, store, fun _ => app le_rfl,
        fun _ => rfl⟩,
        ⟨sound.registry, sound.audio, sound.alive⟩, gone _⟩

theorem down_exec (down : Down s n) (sound : Sound s) (registry : s.registryRests = true)
    (audio : s.audioRests = true) {call : Call K} {rest : List (Call K)}
    (calls : s.calls = call :: rest)
    (hs : ({ s with calls := rest } : State K).exec sources call = some (t, o)) :
    Shrinks s n t (n + 1) o := by
  have same : detach.drop n = call :: rest := down.calls.symm.trans calls
  match n, down, same with
  | 0, down, same =>
    obtain ⟨rfl, rfl⟩ := List.cons.inj same
    exact down_stopConsumers down sound hs
  | 1, down, same =>
    obtain ⟨rfl, rfl⟩ := List.cons.inj same
    exact down_freeConsumers down sound registry hs
  | 2, down, same =>
    obtain ⟨rfl, rfl⟩ := List.cons.inj same
    exact down_stopSystem (.inl rfl) down sound hs
  | 3, down, same =>
    obtain ⟨rfl, rfl⟩ := List.cons.inj same
    exact down_stopSystem (.inr rfl) down sound hs
  | 4, down, same =>
    obtain ⟨rfl, rfl⟩ := List.cons.inj same
    exact down_freeSystem down sound audio hs
  | 5, down, same =>
    obtain ⟨rfl, rfl⟩ := List.cons.inj same
    exact down_saveStore down sound hs
  | 6, down, same =>
    obtain ⟨rfl, rfl⟩ := List.cons.inj same
    exact down_freeStore down sound hs
  | n + 7, down, same => exact down_rest down sound (Nat.le_add_left 7 n) same hs

end Detached

/-! ### Runs -/

section Runs

variable [Field K] [LinearOrder K] {sources : List Info} {s t : State K} {o : List (Event K)}

/-- Attached, with what exists marked, or detaching, with a whole life owed. -/
def Alive (os : List (Event K)) (s : State K) : Prop :=
  Sound s ∧ (Up s ∧ marks os = (resources s.owned).map .built ∨
    ∃ n rs, Down s n ∧ rs <+: buildOrder ∧ marks os ++ owed s n = wholeLife rs)

omit [Field K] [LinearOrder K] in
theorem alive_of_grows {os : List (Event K)} (built : marks os = (resources s.owned).map .built)
    (grows : Grows s t o) : Alive (os ++ o) t :=
  ⟨grows.sound, .inl ⟨grows.up, by rw [marks_append, built, grows.built]⟩⟩

omit [Field K] [LinearOrder K] in
theorem alive_of_shrinks {os : List (Event K)} {m n : ℕ} {rs : List Resource}
    (order : rs <+: buildOrder) (life : marks os ++ owed s m = wholeLife rs)
    (shrinks : Shrinks s m t n o) : Alive (os ++ o) t := by
  refine ⟨shrinks.sound, .inr ⟨n, rs, shrinks.down, order, ?_⟩⟩
  rw [marks_append, List.append_assoc, shrinks.owed, life]

theorem owns_prefix (phase : Phase) : resources phase.owns <+: buildOrder := by
  cases phase <;> decide

omit [Field K] [LinearOrder K] in
theorem nested_of_stage (stage : s.owned = s.phase.owns) : Nested s := by
  obtain ⟨store, rest⟩ := Prod.mk.inj stage
  obtain ⟨system, consumers⟩ := Prod.mk.inj rest
  constructor
  · rw [consumers, system]
    cases s.phase <;> decide
  · rw [system, store]
    cases s.phase <;> decide

theorem advance_cases (hs : s.advance sources = some (t, o)) :
    s.registryStep .advance = some (t, o) ∨ s.audioStep sources .advance = some (t, o) ∨
      s.registryRests = true ∧ s.audioRests = true ∧ ∃ call rest, s.calls = call :: rest ∧
        ({ s with calls := rest } : State K).exec sources call = some (t, o) := by
  unfold State.advance at hs
  by_cases registry : s.registryRests = true
  · rw [if_neg (not_not.mpr registry)] at hs
    by_cases audio : s.audioRests = true
    · rw [if_neg (not_not.mpr audio)] at hs
      cases calls : s.calls with
      | nil =>
        rw [calls] at hs
        cases hs
      | cons call rest =>
        rw [calls] at hs
        exact .inr (.inr ⟨registry, audio, call, rest, rfl, hs⟩)
    · rw [if_pos audio] at hs
      exact .inr (.inl hs)
  · rw [if_pos registry] at hs
    exact .inl hs

theorem advance_alive {os : List (Event K)} (alive : Alive os s)
    (hs : s.advance sources = some (t, o)) : Alive (os ++ o) t := by
  obtain ⟨sound, ⟨up, built⟩ | ⟨n, rs, down, order, life⟩⟩ := alive
  · rcases advance_cases hs with hs | hs | ⟨-, -, call, rest, calls, hs⟩
    · exact alive_of_grows built (grows_of_inside up (sound.registryStep hs))
    · exact alive_of_grows built (grows_of_inside up (sound.audioStep hs))
    · rcases up.calls with nothing | ⟨only, single, fits⟩
      · rw [nothing] at calls
        cases calls
      · obtain ⟨rfl, rfl⟩ := List.cons.inj (single.symm.trans calls)
        have taken : Up ({ s with calls := [] } : State K) :=
          ⟨up.registered, up.stage, .inl rfl⟩
        have grows := up_exec taken (sound.withCalls []) rfl fits hs
        exact alive_of_grows built ⟨grows.up, grows.sound, grows.built⟩
  · rcases advance_cases hs with hs | hs | ⟨registry, audio, call, rest, calls, hs⟩
    · exact alive_of_shrinks order life (down_registryStep down sound (.inl rfl) hs)
    · exact alive_of_shrinks order life (down_audioStep (a := .advance) down sound trivial hs)
    · exact alive_of_shrinks order life (down_exec down sound registry audio calls hs)

omit [Field K] [LinearOrder K] in
theorem left_of_done {n : ℕ} (down : Down s n) (nothing : s.calls = []) :
    n = 16 ∧ Left s 16 := by
  have ended : (detach : List (Call K)).drop n = [] := down.calls.symm.trans nothing
  have past : 16 ≤ n := List.drop_eq_nil_iff.mp ended
  have done := le_antisymm down.bound past
  exact ⟨done, done ▸ down.left⟩

omit [Field K] [LinearOrder K] in
theorem calls_of_free (free : s.free = true) : s.calls = [] := by
  rw [State.free, Bool.and_eq_true, Bool.and_eq_true] at free
  exact List.isEmpty_iff.mp free.1.1

omit [Field K] [LinearOrder K] in
theorem up_of_overlay {os : List (Event K)} (alive : Alive os s)
    (ready : (s.overlayShown && s.free) = true) :
    Up s ∧ marks os = (resources s.owned).map .built := by
  obtain ⟨shown, free⟩ := Bool.and_eq_true_iff.mp ready
  obtain ⟨-, attached | ⟨n, rs, down, -, -⟩⟩ := alive
  · exact attached
  · obtain ⟨-, gone, -⟩ := left_of_done down (calls_of_free free)
    rw [State.overlayShown, gone] at shown
    cases shown

omit [Field K] [LinearOrder K] in
theorem frame_grows (up : Up s) (sound : Sound s) (loaded : Settings K)
    (out : Outcomes) : Grows s (s.frame loaded out) [] := by
  have same : Up ({ s with boot := none } : State K) := ⟨up.registered, up.stage, up.calls⟩
  have called : ∀ call : Call K, Fits s.phase call →
      Grows s { s with calls := [call] } [] := fun call fits =>
    ⟨⟨up.registered, up.stage, .inr ⟨call, rfl, fits⟩⟩, sound.withCalls _, List.append_nil _⟩
  unfold State.frame
  split
  · split_ifs
    · exact ⟨same, ⟨sound.registry, sound.audio, sound.alive⟩, List.append_nil _⟩
    · exact called (.tickBoot loaded out) trivial
    · exact called (.ticked .failed) trivial
  · split_ifs
    · exact called .tickRunning trivial
    · exact ⟨up, sound, List.append_nil _⟩

theorem step_alive {os : List (Event K)} {a : Act K} (alive : Alive os s)
    (hs : step sources s a = some (t, o)) : Alive (os ++ o) t := by
  cases a with
  | advance => exact advance_alive alive hs
  | frame loaded out =>
    obtain ⟨ready, hs⟩ := Option.ite_none_right_eq_some.mp hs
    obtain ⟨registered, free⟩ := Bool.and_eq_true_iff.mp ready
    obtain ⟨rfl, rfl⟩ := Prod.mk.inj (Option.some.inj hs)
    obtain ⟨sound, ⟨up, built⟩ | ⟨n, rs, down, -, -⟩⟩ := alive
    · exact alive_of_grows built (frame_grows up sound loaded out)
    · rw [down.registered] at registered
      cases registered
  | detach =>
    obtain ⟨ready, hs⟩ := Option.ite_none_right_eq_some.mp hs
    obtain ⟨registered, free⟩ := Bool.and_eq_true_iff.mp ready
    obtain ⟨rfl, rfl⟩ := Prod.mk.inj (Option.some.inj hs)
    obtain ⟨sound, ⟨up, built⟩ | ⟨n, rs, down, -, -⟩⟩ := alive
    · have nested := nested_of_stage up.stage
      refine ⟨⟨sound.registry, sound.audio, sound.alive⟩, .inr ⟨0, resources s.owned,
        ⟨rfl, rfl, by decide, ⟨nested.inner, nested.outer⟩⟩, ?_, ?_⟩⟩
      · rw [up.stage]
        exact owns_prefix s.phase
      · rw [List.append_nil, built]
        rfl
    · rw [down.registered] at registered
      cases registered
  | publish cfg =>
    obtain ⟨ready, hs⟩ := Option.ite_none_right_eq_some.mp hs
    obtain ⟨rfl, rfl⟩ := Prod.mk.inj (Option.some.inj hs)
    obtain ⟨up, built⟩ := up_of_overlay alive ready
    exact alive_of_grows built (grows_of_inside up
      ⟨⟨alive.1.registry, alive.1.audio, alive.1.alive⟩,
        ⟨rfl, rfl, rfl, rfl, rfl, Option.isSome_map, rfl, rfl⟩, rfl⟩)
  | settingsChanged =>
    obtain ⟨ready, hs⟩ := Option.ite_none_right_eq_some.mp hs
    obtain ⟨up, built⟩ := up_of_overlay alive ready
    obtain ⟨cfg, -, hs⟩ := Option.bind_eq_some_iff.mp hs
    exact alive_of_grows built (grows_of_inside up (alive.1.registryStep hs))
  | switchSource code out =>
    obtain ⟨ready, hs⟩ := Option.ite_none_right_eq_some.mp hs
    obtain ⟨up, built⟩ := up_of_overlay alive ready
    obtain ⟨cfg, -, hs⟩ := Option.bind_eq_some_iff.mp hs
    exact alive_of_grows built (grows_of_inside up (alive.1.audioStep hs))
  | dsp k =>
    obtain ⟨sound, ⟨up, built⟩ | ⟨n, rs, down, order, life⟩⟩ := alive
    · exact alive_of_grows built (grows_of_inside up (sound.audioStep hs))
    · exact alive_of_shrinks order life (down_audioStep (a := .dsp k) down sound trivial hs)
  | worker i fails =>
    obtain ⟨sound, ⟨up, built⟩ | ⟨n, rs, down, order, life⟩⟩ := alive
    · exact alive_of_grows built (grows_of_inside up (sound.registryStep hs))
    · exact alive_of_shrinks order life
        (down_registryStep down sound (.inr ⟨i, fails, rfl⟩) hs)

omit [Field K] [LinearOrder K] in
theorem alive_initial : Alive [] (initial : State K) := by
  refine ⟨⟨?_, ?_, rfl⟩, .inl ⟨⟨rfl, rfl, .inl rfl⟩, rfl⟩⟩
  · exact fun _ absent => (Option.some_ne_none _ absent.symm).elim
  · exact fun _ absent => (Option.some_ne_none _ absent.symm).elim

/-- From attach on, whatever the frames, the overlay, the sources, the threads and the time of the
detach: the process is never terminated for a thread that is not joined; the registry exists only
while the AudioSystem does, and that only while the store does; what is built is built in order
and goes in the reverse order, the store saved first, each when no thread and no callback uses it
any more; and a detach that has returned has left nothing behind. -/
theorem app_lifetimes {as : List (Act K)} {os : List (Event K)}
    (h : run (step sources) initial as = some (s, os)) :
    s.terminated = false ∧ Nested s ∧ ∃ rs, rs <+: buildOrder ∧ marks os <+: wholeLife rs ∧
      (s.registered = false → s.calls = [] → marks os = wholeLife rs ∧
        s.consumers = none ∧ s.system = none ∧ s.store = none ∧ s.app = false ∧ s.boot = none) := by
  have alive : Alive os s :=
    run_history (fun _ os s => Alive os s) alive_initial
      (fun _ _ _ _ _ _ alive moved => step_alive alive moved) h
  obtain ⟨sound, ⟨up, built⟩ | ⟨n, rs, down, order, life⟩⟩ := alive
  · refine ⟨sound.alive, nested_of_stage up.stage, resources s.owned, ?_, ?_, fun gone => ?_⟩
    · rw [up.stage]
      exact owns_prefix s.phase
    · rw [built]
      exact List.prefix_append _ _
    · rw [up.registered] at gone
      cases gone
  · refine ⟨sound.alive, ?_, rs, order, ⟨owed s n, life⟩, fun _ nothing => ?_⟩
    · exact nested_of_left down.left
    · obtain ⟨rfl, consumers, system, store, app, boot⟩ := left_of_done down nothing
      rw [owed_late s (by decide), List.append_nil] at life
      exact ⟨life, consumers, system, store, app (by decide), boot (by decide)⟩

end Runs

/-- The Off source opens and starts. -/
def offOpens : Outcomes where
  availableDefault _ := true
  availableAny _ := true
  opened _ := OffSource.opened
  started _ := true

/-- Five frames boot the addon with OSC on; the detach waits for its worker and for the DSP
thread. -/
def bootAndDetach : List (Act ℚ) :=
  let advance (n : ℕ) : List (Act ℚ) := List.replicate n .advance
  let frame : Act ℚ := .frame Output.ConsumerRegistry.withOsc offOpens
  [[frame], advance 2, [frame], advance 2, [frame], advance 11, [frame], advance 2, [frame],
    advance 16, [.detach], advance 4, [.worker 2 false], advance 27, [.dsp 0, .dsp 0],
    advance 20].flatten

theorem boot_and_detach_lifetimes :
    ∃ s os, run (step [OffSource.info]) initial bootAndDetach = some (s, os) ∧
      s.terminated = false ∧ s.system = none ∧
        ∃ rs, rs <+: buildOrder ∧ marks os = wholeLife rs := by
  have runs : (run (step [OffSource.info]) initial bootAndDetach).any (fun p =>
      !p.1.registered && p.1.calls.isEmpty) = true := by decide +kernel
  obtain ⟨⟨s, os⟩, h, ended⟩ := (Option.any_eq_true _ _).mp runs
  obtain ⟨detached, nothing⟩ := Bool.and_eq_true_iff.mp ended
  obtain ⟨alive, -, rs, order, -, done⟩ := app_lifetimes h
  obtain ⟨life, -, system, -⟩ := done (by simpa using detached) (List.isEmpty_iff.mp nothing)
  exact ⟨s, os, h, alive, system, rs, order, life⟩

end Listeningway.System.App
