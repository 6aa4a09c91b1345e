/- Listeningway/Output/ConsumerRegistry
   source: src/output/consumer_registry.cpp; src/output/osc_consumer.cpp;
     src/output/openrgb_consumer.cpp; src/output/uniform_publisher_consumer.cpp;
     src/overlay/overlay_consumer.cpp; src/app.cpp
   digest: The output consumers with their workers, and the calls that start and stop them. -/

import Listeningway.Config.Store
import Listeningway.Lib.Machine
import Mathlib.Data.List.Basic
import Mathlib.Logic.Function.Basic

/-!
All calls come from the render thread, one after the other. A call is unfolded into the
stores, joins and thread creations it performs; the worker threads may move between any
two of them.
-/

set_option autoImplicit false
set_option relaxedAutoImplicit false

namespace Listeningway.Output.ConsumerRegistry

open Listeningway.Config
open Listeningway.Lib.Machine

variable {K : Type}

/-- The implementations of `IOutputConsumer`. -/
inductive Consumer where
  | uniformPublisher
  | overlay
  | osc
  | openRgb
  deriving DecidableEq, Repr

namespace Consumer

def isUserConfigurable : Consumer → Bool
  | osc | openRgb => true
  | uniformPublisher | overlay => false

def isEnabled (s : Settings K) : Consumer → Bool
  | osc => s.network.osc.enabled
  | openRgb => s.network.openrgb.enabled
  | uniformPublisher | overlay => true

def disarmInSettings (s : Settings K) : Consumer → Settings K
  | osc => { s with network := { s.network with osc := { s.network.osc with enabled := false } } }
  | openRgb =>
    { s with
      network := { s.network with openrgb := { s.network.openrgb with enabled := false } } }
  | uniformPublisher | overlay => s

/-- The network consumers own a worker thread; the others register callbacks only. -/
def hasWorker : Consumer → Bool
  | osc | openRgb => true
  | uniformPublisher | overlay => false

end Consumer

/-- `worker_main`: anywhere before its exit, with `wants_disarm_` stored, with `running_`
cleared too, and returned. -/
inductive Worker where
  | work
  | failing
  | failed
  | returned
  deriving DecidableEq, Repr

/-- One registered consumer and its `active_` flag. `running` is `running_` of a network
consumer and `registered_` of the others; without a worker `worker_` is not joinable. -/
structure Entry where
  running : Bool
  wantsDisarm : Bool
  worker : Option Worker
  active : Bool

namespace Entry

def initial : Entry where
  running := false
  wantsDisarm := false
  worker := none
  active := false

/-- `worker_.joinable()`; a thread that has returned is joinable until it is joined. -/
def joinable (e : Entry) : Bool := e.worker.isSome

end Entry

/-- What a call does to one consumer, step by step. -/
inductive Effect where
  | storeRunning (b : Bool)
  | clearWants
  | spawn
  | join
  | setActive (b : Bool)
  | destruct
  deriving DecidableEq, Repr

namespace Entry

/-- One effect on the consumer. Joining a thread that is not joinable is skipped; joining
one that has not returned blocks. -/
def exec (e : Entry) : Effect → Option Entry
  | .storeRunning b => some { e with running := b }
  | .clearWants => some { e with wantsDisarm := false }
  | .spawn => some { e with worker := some .work }
  | .join =>
    match e.worker with
    | none => some e
    | some .returned => some { e with worker := none }
    | some _ => none
  | .setActive b => some { e with active := b }
  | .destruct => some e

/-- Assigning to a joinable `std::thread` or destroying one terminates the process. -/
def fatal (e : Entry) : Effect → Bool
  | .spawn | .destruct => e.joinable
  | _ => false

/-- One move of the worker; it may fail anywhere, and otherwise ends when it finds
`running_` cleared. -/
def workerMove (e : Entry) (fails : Bool) : Option Entry :=
  match e.worker with
  | some .work =>
    if fails then some { e with wantsDisarm := true, worker := some .failing }
    else if e.running then some e
    else some { e with worker := some .returned }
  | some .failing => some { e with running := false, worker := some .failed }
  | some .failed => some { e with worker := some .returned }
  | _ => none

end Entry

/-- `active_[i] = c.start(..)`; starting a running consumer is a no-op that returns true.
`store_` is set by the constructor. -/
def start (c : Consumer) (e : Entry) : List Effect :=
  if e.running then [.setActive true]
  else if c.hasWorker then [.clearWants, .storeRunning true, .spawn, .setActive true]
  else [.storeRunning true, .setActive true]

/-- `c.stop()` without the flag of the registry. -/
def stopWorker (c : Consumer) : List Effect :=
  if c.hasWorker then [.storeRunning false, .join, .clearWants] else [.storeRunning false]

/-- `c.stop(); active_[i] = false`. -/
def stop (c : Consumer) : List Effect := stopWorker c ++ [.setActive false]

/-- The destructor: that of OpenRgbConsumer stops first, the others destroy their members. -/
def destroy (c : Consumer) : List Effect :=
  if c = .openRgb then stopWorker c ++ [.destruct] else [.destruct]

/-- What a pass of a registry loop decides for one consumer. -/
inductive Decision where
  | nothing
  | start
  | stop
  deriving DecidableEq, Repr

def startAllDecision (c : Consumer) (s : Settings K) (active : Bool) : Decision :=
  if active then .nothing
  else if !c.isUserConfigurable || c.isEnabled s then .start
  else .nothing

def settingsChangedDecision (c : Consumer) (s : Settings K) (active : Bool) : Decision :=
  if !c.isUserConfigurable then .nothing
  else if c.isEnabled s && !active then .start
  else if !c.isEnabled s && active then .stop
  else .nothing

def stopAllDecision (active : Bool) : Decision := if active then .stop else .nothing

namespace Decision

def effects (c : Consumer) (e : Entry) : Decision → List Effect
  | nothing => []
  | start => ConsumerRegistry.start c e
  | stop => ConsumerRegistry.stop c

end Decision

/-- Where the render thread stands: between calls, or before consumer `i` in a loop.
`stop_all` goes downwards from `i - 1`; `App::stop` destroys the registry after it. -/
inductive Loop (K : Type) where
  | idle
  | startAll (i : ℕ) (s : Settings K)
  | settingsChanged (i : ℕ) (s : Settings K)
  | stopAll (i : ℕ) (shutdown : Bool)
  | poll (i : ℕ) (any : Bool)
  | destroy (i : ℕ)
  | destroyed

/-- `effects` is what is left to do to consumer `current` before the loop goes on. -/
structure State (K : Type) where
  entry : ℕ → Entry
  store : Settings K
  current : ℕ
  effects : List Effect
  loop : Loop K
  terminated : Bool

inductive Act (K : Type) where
  | startAll (s : Settings K)
  | settingsChanged (s : Settings K)
  | stopAll
  | pollSelfDisarm
  | shutdown
  | advance
  | worker (i : ℕ) (fails : Bool)
  | publish (s : Settings K)

/-- Calls of `start` with the state of the thread object they find, and returns of
`stop_all` with whether no thread is left to join. -/
inductive Event where
  | startCalled (i : ℕ) (joinable : Bool)
  | stopAllReturned (joined : Bool)
  deriving DecidableEq, Repr

namespace State

def setEntry (s : State K) (i : ℕ) (e : Entry) : State K :=
  { s with entry := Function.update s.entry i e }

/-- The pass over consumer `i` does what was decided, and the loop goes on to `loop`. -/
def turn (s : State K) (i : ℕ) (c : Consumer) (decision : Decision) (loop : Loop K) :
    State K × List Event :=
  ({ s with current := i, effects := decision.effects c (s.entry i), loop := loop },
    if decision = .start then [.startCalled i (s.entry i).joinable] else [])

end State

def effectStep (s : State K) (effect : Effect) (rest : List Effect) : Option (State K) :=
  let e := s.entry s.current
  (e.exec effect).map fun e' =>
    { s.setEntry s.current e' with effects := rest, terminated := s.terminated || e.fatal effect }

def workerStep (s : State K) (i : ℕ) (fails : Bool) : Option (State K) :=
  ((s.entry i).workerMove fails).map fun e => s.setEntry i e

variable [Field K] [LinearOrder K]

/-- The next pass of the loop, once all effects of the previous one are done. -/
def loopStep (consumers : List Consumer) (s : State K) : Option (State K × List Event) :=
  match s.loop with
  | .idle => none
  | .startAll i cfg =>
    match consumers[i]? with
    | some c =>
      some (s.turn i c (startAllDecision c cfg (s.entry i).active) (.startAll (i + 1) cfg))
    | none => some ({ s with loop := .idle }, [])
  | .settingsChanged i cfg =>
    match consumers[i]? with
    | some c =>
      some (s.turn i c (settingsChangedDecision c cfg (s.entry i).active)
        (.settingsChanged (i + 1) cfg))
    | none => some ({ s with loop := .idle }, [])
  | .stopAll 0 shutdown =>
    let joined := consumers.zipIdx.all fun q => !(s.entry q.2).joinable
    some ({ s with loop := if shutdown then .destroy 0 else .idle }, [.stopAllReturned joined])
  | .stopAll (i + 1) shutdown =>
    match consumers[i]? with
    | some c => some (s.turn i c (stopAllDecision (s.entry i).active) (.stopAll i shutdown))
    | none => some ({ s with loop := .stopAll i shutdown }, [])
  | .poll i any =>
    match consumers[i]? with
    | some c =>
      if (s.entry i).wantsDisarm then
        some ({ s with store := (c.disarmInSettings s.store).clampInPlace
                       loop := .poll (i + 1) true }, [])
      else some ({ s with loop := .poll (i + 1) any }, [])
    | none => some ({ s with loop := if any then .settingsChanged 0 s.store else .idle }, [])
  | .destroy i =>
    match consumers[i]? with
    | some c => some ({ s with current := i, effects := destroy c, loop := .destroy (i + 1) }, [])
    | none => some ({ s with loop := .destroyed }, [])
  | .destroyed => none

/-- The loop that a call begins with. -/
def call (consumers : List Consumer) : Act K → Option (Loop K)
  | .startAll s => some (.startAll 0 s)
  | .settingsChanged s => some (.settingsChanged 0 s)
  | .stopAll => some (.stopAll consumers.length false)
  | .pollSelfDisarm => some (.poll 0 false)
  | .shutdown => some (.stopAll consumers.length true)
  | _ => none

def step (consumers : List Consumer) : Step (State K) (Act K) Event
  | s, .advance =>
    match s.effects with
    | [] => loopStep consumers s
    | effect :: rest => (effectStep s effect rest).map fun t => (t, [])
  | s, .worker i fails => (workerStep s i fails).map fun t => (t, [])
  | s, .publish cfg => some ({ s with store := cfg.clampInPlace }, [])
  | s, act =>
    match s.loop, s.effects with
    | .idle, [] => (call consumers act).map fun loop => ({ s with loop := loop }, [])
    | _, _ => none

/-- Before the first call, over any store. -/
def initial (store : Settings K) : State K where
  entry _ := Entry.initial
  store := store
  current := 0
  effects := []
  loop := .idle
  terminated := false

/-- The registry of `App`. -/
def appConsumers : List Consumer := [.uniformPublisher, .overlay, .osc, .openRgb]

end Listeningway.Output.ConsumerRegistry
