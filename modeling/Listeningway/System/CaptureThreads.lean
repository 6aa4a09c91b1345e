/- Listeningway/System/CaptureThreads
   source: src/audio/pipeline/audio_system.cpp; src/audio/source/wasapi_loopback_source.cpp;
     src/audio/source/process_audio_source.cpp
   digest: The calls of the AudioSystem interleaved with the capture threads of its sources. -/

import Listeningway.Source.CaptureSource
import Listeningway.System.Lifecycle

/-!
What a source answers is chosen when the call takes the mutex; a label where the source then
answers otherwise is not enabled. `stop` of a source is two steps, the store to `running_` and
the join.
-/

set_option autoImplicit false
set_option relaxedAutoImplicit false

namespace Listeningway.System.CaptureThreads

open Listeningway.Lib
open Listeningway.Ring.FrameRing (FrameChunk)
open Listeningway.Source.AudioSource
open Listeningway.Source.CaptureSource
open Listeningway.System.Lifecycle (Effect)

variable {K : Type}

/-- `threads` are the capture threads that have not returned, each with its source; `stopping`
stands between the two statements of a source's `stop`. -/
structure State where
  system : Lifecycle.State
  source : ℕ → SourceState
  threads : List (ℕ × Capture)
  stopping : Bool
  terminated : Bool

inductive Act (K : Type) where
  | start (code : String) (out : Outcomes)
  | stop
  | switchSource (code code' : String) (out : Outcomes)
  | advance (met : Opening)
  | dsp (k : ℕ)
  | capture (k : ℕ) (met : Met K)
  | deviceChanged (i : ℕ)

inductive Event (K : Type) where
  | audio (e : Lifecycle.Event)
  | pushed (i : ℕ) (chunk : FrameChunk K)

def kindAt (kinds : List Kind) (i : ℕ) : Kind := kinds.getD i .off

def State.setSource (s : State) (i : ℕ) (src : SourceState) : State :=
  { s with source := Function.update s.source i src }

/-- A step of the AudioSystem alone. -/
def State.lift (s : State) (moved : Option (Lifecycle.State × List Lifecycle.Event)) :
    Option (State × List (Event K)) :=
  moved.map fun p => ({ s with system := p.1 }, p.2.map .audio)

/-- Whether the call that holds the mutex goes on behind `open`. -/
def answered (rest : List Effect) : Bool := rest.head? ≠ some (.setState .error)

/-- The call that holds the mutex performs its next effect, the sources theirs of it. -/
def advance (kinds : List Kind) (s : State) (met : Opening) : Option (State × List (Event K)) :=
  match s.system.pending with
  | .openSource i :: rest =>
    let opened := (kindAt kinds i).opens (s.source i) met
    if opened.2 = answered rest then
      (s.setSource i opened.1).lift (Lifecycle.advanceStep s.system)
    else none
  | .startSource i ok :: _ =>
    let started := (kindAt kinds i).start (s.source i)
    if started.result = ok then
      let moved := s.setSource i started.source
      let moved := if started.spawned then
          { moved with
            threads := s.threads ++ [(i, .setup)]
            terminated := s.terminated || (s.source i).joinable }
        else moved
      moved.lift (Lifecycle.advanceStep s.system)
    else none
  | .stopSource i :: _ =>
    if kindAt kinds i = .off then s.lift (Lifecycle.advanceStep s.system)
    else if !s.stopping then
      some ({ s.setSource i { s.source i with running := false } with stopping := true }, [])
    else if (s.source i).joinable && s.threads.any (fun thread => thread.1 = i) then none
    else
      let joined := s.setSource i { s.source i with joinable := false }
      { joined with stopping := false }.lift (Lifecycle.advanceStep s.system)
  | _ => s.lift (Lifecycle.advanceStep s.system)

/-- One move of capture thread `k`; what it hands to the sink is pushed into the ring. -/
def capture [Zero K] (kinds : List Kind) (s : State) (k : ℕ) (met : Met K) :
    Option (State × List (Event K)) :=
  match s.threads[k]? with
  | none => none
  | some (i, thread) =>
    (thread.step (kindAt kinds i) (s.source i) met).map fun moved =>
      ({ s.setSource i moved.source with
        threads := match moved.thread with
          | some next => s.threads.set k (i, next)
          | none => s.threads.eraseIdx k },
        moved.chunk.toList.map (.pushed i))

/-- The callback of the notification client, registered by `open`. -/
def deviceChanged (kinds : List Kind) (s : State) (i : ℕ) : Option (State × List (Event K)) :=
  if kindAt kinds i = .loopback ∧ (s.source i).enumerator = true then
    some (s.setSource i { s.source i with restart := true }, [])
  else none

def step [Zero K] (kinds : List Kind) (hasStore : Bool) : Machine.Step State (Act K) (Event K)
  | s, .start code out =>
    s.lift (Lifecycle.step (kinds.map Kind.info) hasStore s.system (.start code out))
  | s, .stop => s.lift (Lifecycle.step (kinds.map Kind.info) hasStore s.system .stop)
  | s, .switchSource code code' out =>
    s.lift (Lifecycle.step (kinds.map Kind.info) hasStore s.system (.switchSource code code' out))
  | s, .advance met => advance kinds s met
  | s, .dsp k => s.lift (Lifecycle.step (kinds.map Kind.info) hasStore s.system (.dsp k))
  | s, .capture k met => capture kinds s k met
  | s, .deviceChanged i => deviceChanged kinds s i

def initial : State where
  system := Lifecycle.initial
  source _ := SourceState.initial
  threads := []
  stopping := false
  terminated := false

end Listeningway.System.CaptureThreads
