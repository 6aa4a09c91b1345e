/- Listeningway/System/AudioSystem
   source: src/audio/pipeline/audio_system.cpp; src/audio/pipeline/audio_system.h;
     src/audio/ring/frame_ring.h; src/config/store.cpp
   digest: AudioSystem as a machine of whole calls, pushed chunks and DSP iterations. -/

import Listeningway.Config.Store
import Listeningway.Ring.FrameRing
import Listeningway.System.DspThread
import Listeningway.System.Lifecycle

/-!
A call holds `state_mutex_` from end to end and is one step here, made of the effects of
Lifecycle. A chunk that the capture thread pushes while a call runs counts as pushed
before or after it, and so does an iteration of the DSP thread.
-/

set_option autoImplicit false
set_option relaxedAutoImplicit false

namespace Listeningway.System.AudioSystem

open Listeningway.Config
open Listeningway.Dsp
open Listeningway.Lib.Machine
open Listeningway.Ring.FrameRing (FrameChunk)
open Listeningway.Snapshot
open Listeningway.Source.AudioSource
open Listeningway.System.DspThread
open Listeningway.System.Lifecycle

variable {K : Type} [Field K] [LinearOrder K]

/-- `ring_(64)`. -/
def ringChunks : ℕ := 64

/-- What no sample ever reaches: the guarded fields, the store, and the settings that the
DSP thread has cached from it. -/
structure Control (K : Type) [Field K] [LinearOrder K] where
  guarded : Guarded
  store : Store K
  cachedSettings : Settings K
  cachedVersion : ℕ

structure State (K : Type) [Field K] [LinearOrder K] where
  control : Control K
  queue : List (FrameChunk K)
  pipeline : Pipeline K
  histories : Histories K
  frameIndex : ℕ

/-- One iteration of the DSP thread: its clock readings, and the stage whose exception
is swallowed, if any. -/
structure Tick where
  capturedAt : TimePoint
  clock : Clock
  fails : Option ℕ

inductive Act (K : Type) where
  | push (source : ℕ) (chunk : FrameChunk K)
  | iterate (tick : Tick)
  | publish (settings : Settings K)
  | start (out : Outcomes) (now : TimePoint)
  | stop (now : TimePoint)
  | switchSource (code : String) (out : Outcomes) (now : TimePoint)

inductive Event (K : Type) where
  | published (snap : AudioSnapshot K)
  | returned (result : Option Bool)

/-- `AudioSnapshot zero{}` of `stop_locked`. -/
def zeroAt (now : TimePoint) : AudioSnapshot K :=
  { AudioSnapshot.zero K with capturedAt := now }

def setCode (code : String) (s : Settings K) : Settings K :=
  { s with audio := { s.audio with captureSourceCode := code } }

def code (store : Store K) : String := store.snapshot.audio.captureSourceCode

namespace Control

/-- The version test at the head of the loop. -/
def refresh (c : Control K) : Control K :=
  if c.store.version = c.cachedVersion then c
  else { c with cachedSettings := c.store.snapshot, cachedVersion := c.store.version }

theorem refresh_guarded (c : Control K) : c.refresh.guarded = c.guarded := by
  unfold refresh
  split_ifs <;> rfl

variable [IsStrictOrderedRing K]

def effect (c : Control K) (e : Effect) : Control K :=
  let c := { c with guarded := c.guarded.exec e }
  match e with
  | .spawnDsp =>
    { c with cachedSettings := c.store.snapshot, cachedVersion := c.store.version }
  | .mutateCode code => { c with store := c.store.mutate (setCode code) }
  | _ => c

/-- The effects of a call. -/
def script (sources : List Info) (c : Control K) : Act K → List Effect
  | .start out _ => start sources c.guarded (code c.store) out
  | .stop _ => stop c.guarded
  | .switchSource code' out _ =>
    switchSource sources true c.guarded code' (code (c.store.mutate (setCode code'))) out
  | _ => []

/-- The effect of any label on what audio does not reach. -/
def next (sources : List Info) (c : Control K) : Act K → Control K
  | .push _ _ => c
  | .iterate _ => c.refresh
  | .publish settings => { c with store := c.store.publish settings }
  | a => (c.script sources a).foldl effect c

def initial : Control K where
  guarded := Guarded.initial
  store := Store.initial
  cachedSettings := (Store.initial : Store K).snapshot
  cachedVersion := (Store.initial : Store K).version

end Control

section Calls

variable [IsStrictOrderedRing K]

def effect (now : TimePoint) (s : State K) (e : Effect) : State K × List (Event K) :=
  ({ s with
      control := s.control.effect e
      pipeline := if e = .resetPipeline then s.pipeline.reset else s.pipeline },
    match e with
    | .publishZero => [.published (zeroAt now)]
    | .unlock result => [.returned result]
    | _ => [])

/-- The effects of a call in order. -/
def call (now : TimePoint) : State K → List Effect → State K × List (Event K)
  | s, [] => (s, [])
  | s, e :: es =>
    let first := effect now s e
    let rest := call now first.1 es
    (rest.1, first.2 ++ rest.2)

end Calls

/-- `FrameRing::push` from the callback of a started source; a source that does not
activate capture never calls it, and a chunk for which no free one is left is lost. -/
def push (sources : List Info) (s : State K) (source : ℕ) (chunk : FrameChunk K) :
    Option (State K × List (Event K)) :=
  if s.control.guarded.startCalled source ∧ ∃ info ∈ sources[source]?, info.activatesCapture then
    some (if s.queue.length < ringChunks then { s with queue := s.queue ++ [chunk] } else s, [])
  else none

variable [FloorRing K] [Cmath K] [KissFft K]

/-- The loop body of `dsp_thread_main`. -/
def iterate (s : State K) (tick : Tick) : Option (State K × List (Event K)) :=
  if s.control.guarded.joinable && s.control.guarded.dspRunning then
    let s := { s with control := s.control.refresh }
    match s.queue with
    | [] => some (s, [])
    | chunk :: queue =>
      let frame := AnalysisFrame.ofChunk chunk.samples chunk.format tick.capturedAt s.frameIndex
      let s := { s with queue := queue, frameIndex := (s.frameIndex + 1) % 2 ^ 64 }
      match tick.fails with
      | some k =>
        some ({ s with
          pipeline := s.pipeline.processUntil k frame s.control.cachedSettings tick.clock }, [])
      | none =>
        let out := s.pipeline.process frame s.control.cachedSettings tick.clock
        let record := s.histories.record (project out.2 out.1.profile)
        some ({ s with pipeline := out.1, histories := record.1 }, [.published record.2])
  else none

variable [IsStrictOrderedRing K]

def step (sources : List Info) : Step (State K) (Act K) (Event K)
  | s, .push source chunk => push sources s source chunk
  | s, .iterate tick => iterate s tick
  | s, .publish settings =>
    some ({ s with control := s.control.next sources (.publish settings) }, [])
  | s, .start out now => some (call now s (s.control.script sources (.start out now)))
  | s, .stop now => some (call now s (s.control.script sources (.stop now)))
  | s, .switchSource code out now =>
    some (call now s (s.control.script sources (.switchSource code out now)))

/-- As App builds it: the composed pipeline, nothing captured yet. -/
def initial : State K where
  control := Control.initial
  queue := []
  pipeline := Pipeline.composePipeline
  histories := Histories.initial
  frameIndex := 0

end Listeningway.System.AudioSystem
