/- Listeningway/Source/AudioSource
   source: src/audio/source/i_audio_source.h; src/audio/source/off_source.h
   digest: Registered sources: their metadata and what their calls may answer. -/

import Listeningway.Source.SourceFormat
import Mathlib.Data.Int.Notation

set_option autoImplicit false
set_option relaxedAutoImplicit false

namespace Listeningway.Source.AudioSource

open Listeningway.Source.SourceFormat

/-- Metadata used by the UI dropdown, state machine, and configuration code. -/
structure Info where
  code : String
  display : String
  isDefault : Bool
  order : ℤ
  activatesCapture : Bool
  deriving DecidableEq, Repr

/-- What the sources answer during one call of the AudioSystem. `start_locked`
may ask `available()` in two loops, and the answer may change in between. -/
structure Outcomes where
  availableDefault : ℕ → Bool
  availableAny : ℕ → Bool
  opened : ℕ → Option Capabilities
  started : ℕ → Bool

namespace OffSource

def info : Info where
  code := "off"
  display := "None (Audio Analysis Off)"
  isDefault := false
  order := 100
  activatesCapture := false

/-- `Capabilities{}`: no capture, no format. -/
def opened : Option Capabilities := some ⟨Format.empty, 0, 0⟩

end OffSource

end Listeningway.Source.AudioSource
