/- Listeningway/Source/SourceFormat
   source: src/audio/source/source_format.h
   digest: The wire format that travels with every chunk of samples. -/

import Mathlib.Data.Nat.Notation

set_option autoImplicit false
set_option relaxedAutoImplicit false

namespace Listeningway.Source.SourceFormat

inductive ChannelLayout where
  | unknown
  | mono
  | stereo
  | surround51
  | surround71Side
  | surround71Rear
  deriving DecidableEq, Repr

/-- Wire format of the float frames a source produces. -/
structure Format where
  sampleRate : ℕ
  channels : ℕ
  layout : ChannelLayout
  deriving DecidableEq, Repr

namespace Format

/-- `Format{}`. -/
def empty : Format := ⟨0, 0, .unknown⟩

def valid (f : Format) : Bool :=
  decide (0 < f.sampleRate) && decide (0 < f.channels)

end Format

/-- What `IAudioSource::open()` reports back; nothing downstream reads the latency. -/
structure Capabilities where
  format : Format
  typicalFrameCount : ℕ
  maxFrameCount : ℕ
  deriving DecidableEq, Repr

end Listeningway.Source.SourceFormat
