/- Listeningway/Source/CaptureSource
   source: src/audio/source/wasapi_loopback_source.h; src/audio/source/wasapi_loopback_source.cpp;
     src/audio/source/process_audio_source.h; src/audio/source/process_audio_source.cpp;
     src/audio/source/off_source.h
   digest: The registered sources and the capture threads that two of them start. -/

import Listeningway.Ring.FrameRing
import Listeningway.Source.AudioSource

/-!
The device is outside: every call on it is answered by the label of the step. A capture thread
stands between two accesses of `running_`, and reads a packet in one step.
-/

set_option autoImplicit false
set_option relaxedAutoImplicit false

namespace Listeningway.Source.CaptureSource

open Listeningway.Ring.FrameRing (FrameChunk)
open Listeningway.Source.AudioSource
open Listeningway.Source.SourceFormat

inductive Kind where
  | loopback
  | process
  | off
  deriving DecidableEq, Repr

def Kind.info : Kind → Info
  | loopback => {
      code := "system"
      display := "System Audio (WASAPI Loopback)"
      isDefault := true
      order := 0
      activatesCapture := true }
  | process => {
      code := "process"
      display := "Game Audio Only (Process Loopback)"
      isDefault := false
      order := 1
      activatesCapture := true }
  | off => OffSource.info

/-- The fields of a source: `device_enumerator_` is set, `capabilities_`, `running_`,
`device_change_pending_` or `need_restart_`, and `thread_` is joinable. -/
structure SourceState where
  enumerator : Bool
  format : Format
  running : Bool
  restart : Bool
  joinable : Bool
  deriving DecidableEq, Repr

def SourceState.initial : SourceState where
  enumerator := false
  format := Format.empty
  running := false
  restart := false
  joinable := false

/-! ### The calls of the AudioSystem -/

/-- What `open` meets: COM, the enumerator, and the sample rate of the default endpoint; for
the process loopback, whether it is available and the activation succeeds. -/
structure Opening where
  com : Bool
  enumerator : Bool
  probed : Option ℕ
  activated : Bool

/-- `open`, with whether it answers capabilities. -/
def Kind.opens : Kind → SourceState → Opening → SourceState × Bool
  | loopback, src, met =>
    if !met.com then (src, false)
    else if !src.enumerator && !met.enumerator then (src, false)
    else
      let src := { src with enumerator := true }
      match met.probed with
      | none => (src, false)
      | some rate => ({ src with format := ⟨rate, 2, .stereo⟩ }, true)
  | process, src, met =>
    if !met.com then (src, false)
    else if !met.activated then (src, false)
    else ({ src with format := ⟨48000, 2, .stereo⟩ }, true)
  | off, src, _ => (src, true)

/-- What `start` leaves: its result, and whether it makes a thread. -/
structure Starting where
  source : SourceState
  result : Bool
  spawned : Bool

def Kind.start : Kind → SourceState → Starting
  | loopback, src =>
    if src.running then ⟨src, true, false⟩
    else if !src.enumerator then ⟨src, false, false⟩
    else ⟨{ src with running := true, restart := false, joinable := true }, true, true⟩
  | process, src =>
    if src.running then ⟨src, true, false⟩
    else ⟨{ src with running := true, restart := false, joinable := true }, true, true⟩
  | off, src => ⟨src, true, false⟩

/-! ### The capture thread -/

/-- What `GetMixFormat` answers. -/
structure MixFormat where
  samplesPerSec : ℕ
  channels : ℕ
  extensible : Bool
  channelMask : ℕ

def detectLayout (wfx : MixFormat) : ChannelLayout :=
  if wfx.channels = 1 then .mono
  else if wfx.channels = 2 then .stereo
  else if wfx.extensible && wfx.channels = 6 then .surround51
  else if wfx.extensible && wfx.channels = 8 then
    if wfx.channelMask &&& 0x600 = 0x600 then .surround71Side else .surround71Rear
  else .unknown

/-- `capture_loop`: before the loop, at its head, in the wait, in the inner loop, and before the
last store to `running_`. -/
inductive Capture where
  | setup
  | head (format : Format)
  | waiting (format : Format)
  | draining (format : Format)
  | leaving
  deriving DecidableEq, Repr

inductive Wake where
  | object
  | timeout (stalled : Bool)
  | failed
  deriving DecidableEq, Repr

/-- What `GetBuffer` answers; the data is the memory from the pointer on. -/
structure Packet (K : Type) where
  data : Option (ℕ → K)
  frames : ℕ
  silent : Bool

/-- What a step of the thread meets. -/
inductive Met (K : Type) where
  | setup (mix : Option MixFormat) (converted fallback streams : Bool)
  | test
  | wake (wait : Wake)
  | packet (packet : Packet K)
  | drained
  | refused
  | leave

variable {K : Type}

/-- What the source hands to the sink. -/
def Kind.chunk [Zero K] (format : Format) (packet : Packet K) : Kind → Option (FrameChunk K)
  | loopback =>
    match packet.data with
    | some data =>
      if 0 < packet.frames && !packet.silent then
        some ⟨(List.range (packet.frames * format.channels)).map data, format⟩
      else none
    | none => none
  | process =>
    if packet.frames = 0 then none
    else if packet.silent then
      some ⟨List.replicate (packet.frames * format.channels) 0, format⟩
    else packet.data.map fun data =>
      ⟨(List.range (packet.frames * format.channels)).map data, format⟩
  | off => none

/-- The thread up to its loop. -/
def Kind.setup (src : SourceState) (mix : Option MixFormat) (converted fallback streams : Bool) :
    Kind → SourceState × Capture
  | loopback =>
    if !src.enumerator then (src, .leaving)
    else
      match mix with
      | none => (src, .leaving)
      | some wfx =>
        if converted then (src, if streams then .head src.format else .leaving)
        else if fallback then
          let src := { src with
            format := ⟨wfx.samplesPerSec, wfx.channels, detectLayout wfx⟩ }
          (src, if streams then .head src.format else .leaving)
        else (src, .leaving)
  | process => (src, if streams then .head ⟨48000, 2, .stereo⟩ else .leaving)
  | off => (src, .leaving)

/-- After the wait and the second test of `running_`. -/
def Kind.woken (src : SourceState) (format : Format) : Kind → Wake → SourceState × Capture
  | process, .timeout stalled =>
    if stalled then ({ src with restart := true }, .leaving) else (src, .head format)
  | process, .failed => (src, .leaving)
  | _, _ => (src, .draining format)

/-- What a step leaves: the fields, the thread unless it returned, and what it handed over. -/
structure Moved (K : Type) where
  source : SourceState
  thread : Option Capture
  chunk : Option (FrameChunk K)

def Capture.step [Zero K] (kind : Kind) (src : SourceState) : Capture → Met K → Option (Moved K)
  | setup, .setup mix converted fallback streams =>
    let ready := kind.setup src mix converted fallback streams
    some ⟨ready.1, some ready.2, none⟩
  | head format, .test =>
    some ⟨src, some (if src.running then .waiting format else .leaving), none⟩
  | waiting format, .wake wait =>
    if src.running then
      let next := kind.woken src format wait
      some ⟨next.1, some next.2, none⟩
    else some ⟨src, some .leaving, none⟩
  | draining format, .packet packet =>
    some ⟨src, some (.draining format), kind.chunk format packet⟩
  | draining format, .drained => some ⟨src, some (.head format), none⟩
  | draining format, .refused =>
    if kind = .process then some ⟨{ src with restart := true }, some .leaving, none⟩
    else some ⟨src, some (.head format), none⟩
  | leaving, .leave => some ⟨{ src with running := false }, none, none⟩
  | _, _ => none

end Listeningway.Source.CaptureSource
