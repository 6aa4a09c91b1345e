/- Listeningway/System/Lifecycle
   source: src/audio/pipeline/audio_system.cpp; src/audio/pipeline/audio_system.h
   digest: start, stop and switch_source as scripts of effects under state_mutex_. -/

import Listeningway.Lib.Machine
import Listeningway.Source.AudioSource
import Mathlib.Data.List.Basic
import Mathlib.Logic.Function.Basic

/-!
All three entry points hold `state_mutex_`, so their control flow depends only on
what the mutex guards and on the answers of the sources and of the store. A call
is unfolded into the list of its effects when it takes the mutex; the DSP thread
may move between any two of them.
-/

set_option autoImplicit false
set_option relaxedAutoImplicit false

namespace Listeningway.System.Lifecycle

open Listeningway.Lib.Machine
open Listeningway.Source.AudioSource

inductive AudioState where
  | off
  | starting
  | running
  | stopping
  | error
  deriving DecidableEq, Repr

inductive Effect where
  | setState (st : AudioState)
  | setCurrent (source : Option ℕ)
  | openSource (i : ℕ)
  | setDspRunning (b : Bool)
  | spawnDsp
  | startSource (i : ℕ) (ok : Bool)
  | stopSource (i : ℕ)
  | joinDsp
  | resetPipeline
  | publishZero
  | mutateCode (code : String)
  | saveStore
  | unlock (result : Option Bool)
  deriving DecidableEq, Repr

/-- Position of the first source that `p` accepts; `p` sees the position too. -/
def firstSource (sources : List Info) (p : Info → ℕ → Bool) : Option ℕ :=
  (sources.zipIdx.find? fun q => p q.1 q.2).map Prod.snd

def findSource (sources : List Info) (code : String) : Option ℕ :=
  firstSource sources fun info _ => info.code == code

/-- The search of `start_locked`: by code, then any default-marked available
source, then any available one. -/
def selectSource (sources : List Info) (code : String) (out : Outcomes) : Option ℕ :=
  (findSource sources code).orElse fun _ =>
    (firstSource sources fun info i => info.isDefault && out.availableDefault i).orElse fun _ =>
      firstSource sources fun _ i => out.availableAny i

/-- `code` is the `capture_source_code` that the store's snapshot answers. -/
def startLocked (sources : List Info) (code : String) (out : Outcomes) : List Effect :=
  let source := selectSource sources code out
  [.setState .starting, .setCurrent source] ++
    match source with
    | none => [.setState .error, .unlock (some false)]
    | some i =>
      .openSource i ::
        match out.opened i with
        | none => [.setState .error, .unlock (some false)]
        | some _ =>
          [.setDspRunning true, .spawnDsp, .startSource i (out.started i)] ++
            if out.started i then [.setState .running, .unlock (some true)]
            else [.setDspRunning false, .joinDsp, .setState .error, .unlock (some false)]

/-- What `state_mutex_` guards, together with what the sources have seen of it. -/
structure Guarded where
  state : AudioState
  current : Option ℕ
  dspRunning : Bool
  joinable : Bool
  /-- `start` was called on the source and no `stop` since. -/
  startCalled : ℕ → Bool
  /-- `start` returned true and no `stop` was called since. -/
  started : ℕ → Bool

/-- `joinDsp` stands for the test of `joinable` and the join. -/
def stopLocked (g : Guarded) : List Effect :=
  if g.state = .off then []
  else
    .setState .stopping ::
      (match g.current with
        | some i => [.stopSource i]
        | none => []) ++
      [.setDspRunning false, .joinDsp, .resetPipeline, .publishZero, .setCurrent none,
        .setState .off]

def start (sources : List Info) (g : Guarded) (code : String) (out : Outcomes) : List Effect :=
  if g.state ≠ .off then [.unlock (some (decide (g.state = .running)))]
  else startLocked sources code out

def stop (g : Guarded) : List Effect :=
  stopLocked g ++ [.unlock none]

/-- `code'` is the configured code at the time `start_locked` reads it: with the
mutex of the store free in between, it need not be the one just written. -/
def switchSource (sources : List Info) (hasStore : Bool) (g : Guarded) (code code' : String)
    (out : Outcomes) : List Effect :=
  stopLocked g ++ (if hasStore then [.mutateCode code, .saveStore] else []) ++
    startLocked sources code' out

namespace Guarded

/-- The effects on the guarded fields. Joining a thread that is not joinable is
skipped by the source, and leaves `joinable` false either way. -/
def exec (g : Guarded) : Effect → Guarded
  | .setState st => { g with state := st }
  | .setCurrent source => { g with current := source }
  | .setDspRunning b => { g with dspRunning := b }
  | .spawnDsp => { g with joinable := true }
  | .startSource i ok => { g with
      startCalled := Function.update g.startCalled i true
      started := Function.update g.started i (g.started i || ok) }
  | .stopSource i => { g with
      startCalled := Function.update g.startCalled i false
      started := Function.update g.started i false }
  | .joinDsp => { g with joinable := false }
  | _ => g

def initial : Guarded where
  state := .off
  current := none
  dspRunning := false
  joinable := false
  startCalled _ := false
  started _ := false

end Guarded

/-- `dsp_thread_main`: before the store test, at the loop head, inside one iteration. -/
inductive Dsp where
  | enter
  | head
  | body
  deriving DecidableEq, Repr

/-- `pending` is the rest of the call that holds the mutex, empty when it is free.
`threads` are the DSP threads that have not returned. -/
structure State where
  guarded : Guarded
  pending : List Effect
  threads : List Dsp
  terminated : Bool

inductive Act where
  | start (code : String) (out : Outcomes)
  | stop
  | switchSource (code code' : String) (out : Outcomes)
  | advance
  | dsp (k : ℕ)

inductive Event where
  | did (e : Effect)
  | framePublished
  deriving DecidableEq, Repr

/-- A call takes the free mutex. -/
def lockStep (sources : List Info) (hasStore : Bool) (s : State) : Act → Option State
  | .start code out =>
    if s.pending = [] then some { s with pending := start sources s.guarded code out } else none
  | .stop => if s.pending = [] then some { s with pending := stop s.guarded } else none
  | .switchSource code code' out =>
    if s.pending = [] then
      some { s with pending := switchSource sources hasStore s.guarded code code' out }
    else none
  | _ => none

/-- The call that holds the mutex performs its next effect. Assigning to a joinable
`std::thread` terminates the process; joining blocks until the thread returned. -/
def advanceStep (s : State) : Option (State × List Event) :=
  match s.pending with
  | [] => none
  | .spawnDsp :: es =>
    some ({ s with
      guarded := s.guarded.exec .spawnDsp
      pending := es
      threads := s.threads ++ [.enter]
      terminated := s.terminated || s.guarded.joinable }, [.did .spawnDsp])
  | .joinDsp :: es =>
    if s.guarded.joinable && !s.threads.isEmpty then none
    else some ({ s with guarded := s.guarded.exec .joinDsp, pending := es }, [.did .joinDsp])
  | e :: es => some ({ s with guarded := s.guarded.exec e, pending := es }, [.did e])

/-- One move of DSP thread `k`; returning removes it. -/
def dspStep (hasStore : Bool) (s : State) (k : ℕ) : Option (State × List Event) :=
  match s.threads[k]? with
  | none => none
  | some .enter =>
    if hasStore then some ({ s with threads := s.threads.set k .head }, [])
    else some ({ s with threads := s.threads.eraseIdx k }, [])
  | some .head =>
    if s.guarded.dspRunning then some ({ s with threads := s.threads.set k .body }, [])
    else some ({ s with threads := s.threads.eraseIdx k }, [])
  | some .body => some ({ s with threads := s.threads.set k .head }, [.framePublished])

def step (sources : List Info) (hasStore : Bool) : Step State Act Event
  | s, .advance => advanceStep s
  | s, .dsp k => dspStep hasStore s k
  | s, a => (lockStep sources hasStore s a).map fun t => (t, [])

def initial : State where
  guarded := Guarded.initial
  pending := []
  threads := []
  terminated := false

end Listeningway.System.Lifecycle
