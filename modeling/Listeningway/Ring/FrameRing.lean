/- Listeningway/Ring/FrameRing
   source: src/audio/ring/frame_ring.h; src/audio/pipeline/audio_system.cpp
   digest: The chunk ring between the capture thread and the DSP thread, step by step. -/

import Listeningway.Lib.Machine
import Listeningway.Source.SourceFormat
import Mathlib.Logic.Function.Basic

/-!
A chunk is a pointer into a heap, so that a recycled vector is really reused. The
two queues are FIFO lists of pointers; `room n k` says whether a
`ReaderWriterQueue(n)` that holds `k` elements takes one more.
-/

set_option autoImplicit false
set_option relaxedAutoImplicit false

namespace Listeningway.Ring.FrameRing

open Listeningway.Lib.Machine
open Listeningway.Source.SourceFormat

/-- One unit of audio that flows from capture to DSP. -/
structure FrameChunk (σ : Type) where
  samples : List σ
  format : Format

/-- `ReaderWriterQueue::try_enqueue`; the flag is the returned bool. -/
def tryEnqueue {β : Type} (room : ℕ → ℕ → Bool) (n : ℕ) (q : List β) (x : β) : List β × Bool :=
  if room n q.length then (q ++ [x], true) else (q, false)

/-- The capture thread inside `push`: before it, after `try_dequeue`, after `assign`. -/
inductive Producer (σ : Type) where
  | idle
  | dequeued (c : ℕ) (chunk : FrameChunk σ)
  | assigned (c : ℕ) (chunk : FrameChunk σ)

/-- The DSP thread: at the loop head, before and after the pipeline call, and
inside `recycle` after `clear`. -/
inductive Consumer where
  | top
  | holding (c : ℕ)
  | processed (c : ℕ)
  | cleared (c : ℕ)

structure State (σ : Type) where
  heap : ℕ → FrameChunk σ
  queue : List ℕ
  freeList : List ℕ
  producer : Producer σ
  consumer : Consumer

inductive Act (σ : Type) where
  | push (chunk : FrameChunk σ)
  | assign
  | enqueue
  | pop
  | process (threw : Bool)
  | clear
  | recycle

/-- `pushed chunk ok` is the return of `push`; `destroyed` is a `unique_ptr` that
goes out of scope still owning its chunk. -/
inductive Event (σ : Type) where
  | pushed (chunk : FrameChunk σ) (ok : Bool)
  | popped (chunk : FrameChunk σ)
  | analysed (chunk : FrameChunk σ)
  | destroyed (c : ℕ)

variable {σ : Type}

def Producer.hand : Producer σ → List ℕ
  | .idle => []
  | .dequeued c _ => [c]
  | .assigned c _ => [c]

def Consumer.hand : Consumer → List ℕ
  | .top => []
  | .holding c => [c]
  | .processed c => [c]
  | .cleared c => [c]

/-- Every chunk that exists. -/
def State.chunks (s : State σ) : List ℕ :=
  s.freeList ++ s.queue ++ s.producer.hand ++ s.consumer.hand

/-- The constructor's loop over `free_list_.try_enqueue`. -/
def prefill (room : ℕ → ℕ → Bool) (n : ℕ) (cs : List ℕ) : List ℕ :=
  cs.foldl (fun q c => (tryEnqueue room n q c).1) []

/-- `FrameRing(capacity_chunks)`. -/
def initial (room : ℕ → ℕ → Bool) (n : ℕ) : State σ where
  heap _ := ⟨[], Format.empty⟩
  queue := []
  freeList := prefill room n (List.range n)
  producer := .idle
  consumer := .top

/-- `FrameRing::push`, one queue or vector operation at a time. -/
def pushStep (room : ℕ → ℕ → Bool) (n : ℕ) (s : State σ) :
    Act σ → Option (State σ × List (Event σ))
  | .push chunk =>
    match s.producer, s.freeList with
    | .idle, [] => some (s, [.pushed chunk false])
    | .idle, c :: free => some ({ s with freeList := free, producer := .dequeued c chunk }, [])
    | _, _ => none
  | .assign =>
    match s.producer with
    | .dequeued c chunk =>
      some ({ s with
        heap := Function.update s.heap c chunk
        producer := .assigned c chunk }, [])
    | _ => none
  | .enqueue =>
    match s.producer with
    | .assigned c chunk =>
      match tryEnqueue room n s.queue c with
      | (q, true) => some ({ s with queue := q, producer := .idle }, [.pushed chunk true])
      | (q, false) =>
        some ({ s with queue := q, producer := .idle }, [.pushed chunk false, .destroyed c])
    | _ => none
  | _ => none

/-- The loop body of `dsp_thread_main` as far as the ring is concerned. -/
def drainStep (room : ℕ → ℕ → Bool) (n : ℕ) (s : State σ) :
    Act σ → Option (State σ × List (Event σ))
  | .pop =>
    match s.consumer, s.queue with
    | .top, [] => some (s, [])
    | .top, c :: q =>
      some ({ s with queue := q, consumer := .holding c }, [.popped (s.heap c)])
    | _, _ => none
  | .process _ =>
    match s.consumer with
    -- the catch block recycles too, so both outcomes go on alike
    | .holding c => some ({ s with consumer := .processed c }, [.analysed (s.heap c)])
    | _ => none
  | .clear =>
    match s.consumer with
    | .processed c =>
      some ({ s with
        heap := Function.update s.heap c ⟨[], Format.empty⟩
        consumer := .cleared c }, [])
    | _ => none
  | .recycle =>
    match s.consumer with
    | .cleared c =>
      match tryEnqueue room n s.freeList c with
      | (free, true) => some ({ s with freeList := free, consumer := .top }, [])
      | (free, false) => some ({ s with freeList := free, consumer := .top }, [.destroyed c])
    | _ => none
  | _ => none

/-- One step of the capture thread or of the DSP thread. -/
def step (room : ℕ → ℕ → Bool) (n : ℕ) : Step (State σ) (Act σ) (Event σ) :=
  fun s a => (pushStep room n s a).orElse fun _ => drainStep room n s a

def accepted (os : List (Event σ)) : List (FrameChunk σ) :=
  os.filterMap fun
    | .pushed chunk true => some chunk
    | _ => none

def popped (os : List (Event σ)) : List (FrameChunk σ) :=
  os.filterMap fun
    | .popped chunk => some chunk
    | _ => none

def analysed (os : List (Event σ)) : List (FrameChunk σ) :=
  os.filterMap fun
    | .analysed chunk => some chunk
    | _ => none

end Listeningway.Ring.FrameRing
