/- Listeningway/System/App
   source: src/app.h; src/app.cpp; src/boot/scheduler.h; src/boot/scheduler.cpp;
     src/listeningway_addon.cpp
   digest: The addon from attach to detach: what is built, started, stopped and destroyed. -/

import Listeningway.Output.ConsumerRegistry
import Listeningway.System.AudioSystem

/-!
The host calls the addon from one thread: a frame, an overlay callback or the detach runs to its
end before the next. A call is a list of what it has left to do; the DSP thread and the workers
of the consumers move between any two effects of it. The overlay's calls come in any order here.
-/

set_option autoImplicit false
set_option relaxedAutoImplicit false

namespace Listeningway.System.App

open Listeningway.Config
open Listeningway.Lib.Machine
open Listeningway.Output.ConsumerRegistry (appConsumers)
open Listeningway.Source.AudioSource

/-! ### The boot scheduler -/

/-- `again` is `Continue`. -/
inductive StepResult where
  | done
  | again
  | failed
  deriving DecidableEq, Repr

structure Scheduler where
  names : List String
  next : ℕ
  failed : Bool
  deriving DecidableEq, Repr

namespace Scheduler

def empty (b : Scheduler) : Bool := decide (b.names.length ≤ b.next)

/-- `tick` once its step has returned. -/
def tick (b : Scheduler) : StepResult → Scheduler
  | .done => { b with next := b.next + 1 }
  | .again => b
  | .failed => { b with failed := true }

end Scheduler

/-! ### The state -/

inductive Phase where
  | loadSettings
  | buildAudioSystem
  | startAudio
  | buildConsumers
  | startConsumers
  | running
  | failed
  deriving DecidableEq, Repr

/-- What `App` owns. -/
inductive Resource where
  | store
  | system
  | consumers
  deriving DecidableEq, Repr

/-- What is left of a call of the host. `loaded` is what the settings file holds, `out` what the
sources answer. -/
inductive Call (K : Type) where
  | tickBoot (loaded : Settings K) (out : Outcomes)
  | audioStarted
  | consumersStarted
  | ticked (result : StepResult)
  | tickRunning
  | stopConsumers
  | freeConsumers
  | stopSystem
  | freeSystem
  | saveStore
  | freeStore
  | freeApp
  | freeBoot

structure State (K : Type) where
  app : Bool
  boot : Option Scheduler
  registered : Bool
  phase : Phase
  store : Option (Settings K)
  system : Option Lifecycle.State
  consumers : Option (Output.ConsumerRegistry.State K)
  calls : List (Call K)
  /-- What `system_->start()` returned last. -/
  returned : Option Bool
  terminated : Bool

/-- `held` says that a thread or a callback still uses what is destroyed. -/
inductive Event (K : Type) where
  | audio (e : Lifecycle.Event)
  | registry (e : Output.ConsumerRegistry.Event)
  | built (r : Resource)
  | saved (cfg : Settings K)
  | destroyed (r : Resource) (held : Bool)

inductive Act (K : Type) where
  | frame (loaded : Settings K) (out : Outcomes)
  | publish (cfg : Settings K)
  | settingsChanged
  | switchSource (code : String) (out : Outcomes)
  | detach
  | advance
  | dsp (k : ℕ)
  | worker (i : ℕ) (fails : Bool)

variable {K : Type}

/-- A worker that is not joined, or a callback that is registered. -/
def busy (reg : Output.ConsumerRegistry.State K) : Bool :=
  appConsumers.zipIdx.any fun q =>
    if q.1.hasWorker then (reg.entry q.2).joinable else (reg.entry q.2).running

/-- A DSP thread that has not returned, or a source that is not stopped. -/
def sounding (sources : List Info) (sys : Lifecycle.State) : Bool :=
  !sys.threads.isEmpty || (List.range sources.length).any sys.guarded.startCalled

/-- The registry is between two calls, or gone. -/
def resting (reg : Output.ConsumerRegistry.State K) : Bool :=
  match reg.loop, reg.effects with
  | .idle, [] | .destroyed, [] => true
  | _, _ => false

namespace State

def registryRests (s : State K) : Bool := s.consumers.all resting

def audioRests (s : State K) : Bool := s.system.all fun sys => sys.pending.isEmpty

/-- No call of the host is under way. -/
def free (s : State K) : Bool := s.calls.isEmpty && s.registryRests && s.audioRests

def overlayShown (s : State K) : Bool := s.consumers.any fun reg => (reg.entry 1).running

variable [Field K] [LinearOrder K]

/-- What an effect inside the AudioSystem does outside it. -/
def observe (s : State K) : Lifecycle.Event → State K
  | .did (.mutateCode code) =>
    { s with store := s.store.map fun cfg => (AudioSystem.setCode code cfg).clampInPlace }
  | .did (.unlock (some result)) => { s with returned := some result }
  | _ => s

/-- A step of the AudioSystem. -/
def audioStep (sources : List Info) (s : State K) (a : Lifecycle.Act) :
    Option (State K × List (Event K)) := do
  let sys ← s.system
  let (sys, events) ← Lifecycle.step sources true sys a
  return (events.foldl observe { s with
    system := some sys
    terminated := s.terminated || sys.terminated }, events.map .audio)

/-- A step of the registry, which holds a reference to the store. -/
def registryStep (s : State K) (a : Output.ConsumerRegistry.Act K) :
    Option (State K × List (Event K)) := do
  let reg ← s.consumers
  let (reg, events) ← Output.ConsumerRegistry.step appConsumers
    { reg with store := s.store.getD reg.store } a
  return ({ s with
    consumers := some reg
    store := s.store.map fun _ => reg.store
    terminated := s.terminated || reg.terminated }, events.map .registry)

def fail (s : State K) : State K × List (Event K) :=
  ({ s with phase := .failed, calls := .ticked .failed :: s.calls }, [])

/-- `tick_boot` up to the return of a call into a subsystem. -/
def tickBoot (sources : List Info) (s : State K) (loaded : Settings K) (out : Outcomes) :
    Option (State K × List (Event K)) :=
  match s.phase with
  | .loadSettings =>
    some ({ s with
      store := some loaded.clampInPlace
      phase := .buildAudioSystem
      calls := .ticked .again :: s.calls }, [.built .store])
  | .buildAudioSystem =>
    if s.store.isNone then some s.fail
    else some ({ s with
      system := some Lifecycle.initial
      phase := .startAudio
      calls := .ticked .again :: s.calls }, [.built .system])
  | .startAudio =>
    match s.system, s.store with
    | some _, some cfg => audioStep sources { s with calls := .audioStarted :: s.calls }
        (.start cfg.audio.captureSourceCode out)
    | _, _ => some s.fail
  | .buildConsumers =>
    match s.store with
    | none => some s.fail
    | some cfg => some ({ s with
        consumers := some (Output.ConsumerRegistry.initial cfg)
        phase := .startConsumers
        calls := .ticked .again :: s.calls }, [.built .consumers])
  | .startConsumers =>
    match s.consumers, s.system, s.store with
    | some _, some _, some cfg =>
      registryStep { s with calls := .consumersStarted :: s.calls } (.startAll cfg)
    | _, _, _ => some s.fail
  | .running => some ({ s with calls := .ticked .done :: s.calls }, [])
  | .failed => some ({ s with calls := .ticked .failed :: s.calls }, [])

/-- The next part of a call, which is already taken off the list. -/
def exec (sources : List Info) (s : State K) : Call K → Option (State K × List (Event K))
  | .tickBoot loaded out => s.tickBoot sources loaded out
  | .audioStarted =>
    if s.returned = some true then
      some ({ s with phase := .buildConsumers, calls := .ticked .again :: s.calls }, [])
    else some s.fail
  | .consumersStarted => some ({ s with phase := .running, calls := .ticked .done :: s.calls }, [])
  | .ticked result =>
    some ({ s with
      boot := (s.boot.map (·.tick result)).filter fun b => !(b.empty || b.failed) }, [])
  | .tickRunning =>
    if s.phase ≠ .running ∨ s.consumers.isNone ∨ s.system.isNone ∨ s.store.isNone then
      some (s, [])
    else s.registryStep .pollSelfDisarm
  | .stopConsumers => if s.consumers.isNone then some (s, []) else s.registryStep .shutdown
  | .freeConsumers =>
    match s.consumers with
    | none => some (s, [])
    | some reg => some ({ s with consumers := none }, [.destroyed .consumers (busy reg)])
  | .stopSystem => if s.system.isNone then some (s, []) else s.audioStep sources .stop
  | .freeSystem =>
    match s.system with
    | none => some (s, [])
    | some sys => some ({ s with
        system := none
        terminated := s.terminated || sys.guarded.joinable },
      [.destroyed .system (sounding sources sys || s.consumers.any busy)])
  | .saveStore =>
    match s.store with
    | none => some (s, [])
    | some cfg => some (s, [.saved cfg])
  | .freeStore =>
    match s.store with
    | none => some (s, [])
    | some _ => some ({ s with store := none },
      [.destroyed .store (s.system.any (sounding sources) || s.consumers.any busy)])
  | .freeApp => some ({ s with app := false }, [])
  | .freeBoot => some ({ s with boot := none }, [])

/-- The next effect of the call of the host. -/
def advance (sources : List Info) (s : State K) : Option (State K × List (Event K)) :=
  if ¬ s.registryRests then s.registryStep .advance
  else if ¬ s.audioRests then s.audioStep sources .advance
  else
    match s.calls with
    | [] => none
    | call :: rest => exec sources { s with calls := rest } call

/-- `on_frame_tick`. -/
def frame (s : State K) (loaded : Settings K) (out : Outcomes) : State K :=
  match s.boot with
  | some b =>
    if b.failed || b.empty then { s with boot := none }
    else { s with calls := [if s.app then .tickBoot loaded out else .ticked .failed] }
  | none => if s.app then { s with calls := [.tickRunning] } else s

end State

/-- `App::stop`; the destructor of the AudioSystem stops it once more. -/
def stop : List (Call K) :=
  [.stopConsumers, .freeConsumers, .stopSystem, .stopSystem, .freeSystem, .saveStore, .freeStore]

/-- `DLL_PROCESS_DETACH`; the destructor of `App` stops once more. -/
def detach : List (Call K) := stop ++ stop ++ [.freeApp, .freeBoot]

variable [Field K] [LinearOrder K]

def step (sources : List Info) : Step (State K) (Act K) (Event K)
  | s, .frame loaded out =>
    if s.registered && s.free then some (s.frame loaded out, []) else none
  | s, .publish cfg =>
    if s.overlayShown && s.free then
      some ({ s with store := s.store.map fun _ => cfg.clampInPlace }, [])
    else none
  | s, .settingsChanged =>
    if s.overlayShown && s.free then
      s.store.bind fun cfg => s.registryStep (.settingsChanged cfg)
    else none
  | s, .switchSource code out =>
    if s.overlayShown && s.free then
      s.store.bind fun cfg => s.audioStep sources (.switchSource code
        (AudioSystem.setCode code cfg).clampInPlace.audio.captureSourceCode out)
    else none
  | s, .detach =>
    if s.registered && s.free then some ({ s with registered := false, calls := detach }, [])
    else none
  | s, .advance => s.advance sources
  | s, .dsp k => s.audioStep sources (.dsp k)
  | s, .worker i fails => s.registryStep (.worker i fails)

/-- As `DLL_PROCESS_ATTACH` leaves it. -/
def initial : State K where
  app := true
  boot := some { names := ["start"], next := 0, failed := false }
  registered := true
  phase := .loadSettings
  store := none
  system := none
  consumers := none
  calls := []
  returned := none
  terminated := false

end Listeningway.System.App
