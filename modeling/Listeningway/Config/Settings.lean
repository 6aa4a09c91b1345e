/- Listeningway/Config/Settings
   source: src/config/settings.h
   digest: The persisted settings with the defaults of the source. -/

import Mathlib.Algebra.Field.Defs
import Mathlib.Data.Fin.VecNotation
import Mathlib.Data.Rat.Cast.Defs

set_option autoImplicit false
set_option relaxedAutoImplicit false

namespace Listeningway.Config

def kCurrentSchemaVersion : ℤ := 1

/-- `S` holds the texts: `ByteArray` is what a `std::string` can hold. -/
structure AudioConfig (K : Type) (S : Type := String) where
  analysisEnabled : Bool
  captureSourceCode : S
  simdEnabled : Bool
  panSmoothing : K
  panOffset : K

inductive BeatMode where
  | auto
  | profile
  | custom
  deriving DecidableEq, Repr

inductive BeatProfile where
  | percussive
  | melodic
  | sustained
  deriving DecidableEq, Repr

structure BeatConfig (K : Type) where
  mode : BeatMode
  profile : BeatProfile
  pulseStrength : K

inductive BandScale where
  | linear
  | log
  | mel
  deriving DecidableEq, Repr

structure FrequencyConfig (K : Type) where
  bandCount : ℤ
  fftSize : ℤ
  bandScale : BandScale
  logStrength : K
  bandNorm : K
  minFreq : K
  maxFreq : K
  equalizerBands : Fin 5 → K
  equalizerWidth : K
  amplifierVolume : K
  amplifierBands : K
  amplifierDirection : K
  spatialSpread : K
  spatialSmoothing : K

structure AgcConfig (K : Type) where
  windowSeconds : K
  clampMax : K
  attAttackMs : K
  attReleaseMs : K

structure ChronotensityConfig (K : Type) where
  gainVolume : K
  gainBass : K
  gainTreble : K

structure LoudnessConfig (K : Type) where
  windowMs : K

structure DebugConfig where
  debugLogging : Bool
  overlayEnabled : Bool
  deriving DecidableEq, Repr

inductive SpectrumOrientation where
  | vertical
  | horizontal
  deriving DecidableEq, Repr

structure UiConfig where
  spectrumOrientation : SpectrumOrientation
  deriving DecidableEq, Repr

structure OscConfig (S : Type := String) where
  enabled : Bool
  host : S
  port : ℤ
  rateHz : ℤ
  deriving DecidableEq, Repr

inductive SinglePattern where
  | beatFlash
  | volumePulse
  | spectralHue
  | chronotensityCycle
  | static
  | off
  deriving DecidableEq, Repr

inductive LinearPattern where
  | spectrumBar
  | vuMeter
  | chaseOrbit
  | pulseFromCenter
  | stereoSplit
  | colorWash
  | static
  | off
  deriving DecidableEq, Repr

inductive MatrixPattern where
  | spatialMap
  | equalizerColumns
  | perRegion
  | spectrogramWaterfall
  | beatFlash
  | colorWash
  | static
  | off
  deriving DecidableEq, Repr

structure OpenRgbConfig (K : Type) (S : Type := String) where
  enabled : Bool
  host : S
  port : ℤ
  rateHz : ℤ
  brightness : K
  patternSingle : SinglePattern
  patternLinear : LinearPattern
  patternMatrix : MatrixPattern

structure NetworkConfig (K : Type) (S : Type := String) where
  osc : OscConfig S
  openrgb : OpenRgbConfig K S

/-- Every persisted tunable; `K` is the arithmetic of the floats. -/
structure Settings (K : Type) (S : Type := String) where
  schemaVersion : ℤ
  audio : AudioConfig K S
  beat : BeatConfig K
  frequency : FrequencyConfig K
  agc : AgcConfig K
  chronotensity : ChronotensityConfig K
  loudness : LoudnessConfig K
  debug : DebugConfig
  network : NetworkConfig K S
  ui : UiConfig

section Defaults

variable (K : Type) [Field K]

def AudioConfig.defaults : AudioConfig K where
  analysisEnabled := true
  captureSourceCode := "system"
  simdEnabled := true
  panSmoothing := 0.1
  panOffset := 0

def BeatConfig.defaults : BeatConfig K where
  mode := .auto
  profile := .percussive
  pulseStrength := 1

def FrequencyConfig.defaults : FrequencyConfig K where
  bandCount := 64
  fftSize := 2048
  bandScale := .mel
  logStrength := 0.10
  bandNorm := 0.10
  minFreq := 30.0
  maxFreq := 22050.0
  equalizerBands := ![1.11, 1.29, 2.11, 1.80, 1.63]
  equalizerWidth := 0.15
  amplifierVolume := 1
  amplifierBands := 1
  amplifierDirection := 1
  spatialSpread := 0.25
  spatialSmoothing := 0.10

def AgcConfig.defaults : AgcConfig K where
  windowSeconds := 5.0
  clampMax := 4.0
  attAttackMs := 50.0
  attReleaseMs := 200.0

def ChronotensityConfig.defaults : ChronotensityConfig K where
  gainVolume := 0.5
  gainBass := 0.5
  gainTreble := 0.5

def LoudnessConfig.defaults : LoudnessConfig K where
  windowMs := 400.0

def DebugConfig.defaults : DebugConfig where
  debugLogging := false
  overlayEnabled := false

def UiConfig.defaults : UiConfig where
  spectrumOrientation := .horizontal

def OscConfig.defaults : OscConfig where
  enabled := false
  host := "127.0.0.1"
  port := 9000
  rateHz := 60

def OpenRgbConfig.defaults : OpenRgbConfig K where
  enabled := false
  host := "127.0.0.1"
  port := 6742
  rateHz := 30
  brightness := 1
  patternSingle := .spectralHue
  patternLinear := .spectrumBar
  patternMatrix := .perRegion

/-- `Settings{}`. -/
def Settings.defaults : Settings K where
  schemaVersion := kCurrentSchemaVersion
  audio := AudioConfig.defaults K
  beat := BeatConfig.defaults K
  frequency := FrequencyConfig.defaults K
  agc := AgcConfig.defaults K
  chronotensity := ChronotensityConfig.defaults K
  loudness := LoudnessConfig.defaults K
  debug := DebugConfig.defaults
  network := { osc := OscConfig.defaults, openrgb := OpenRgbConfig.defaults K }
  ui := UiConfig.defaults

end Defaults

end Listeningway.Config
