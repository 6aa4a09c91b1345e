/- Listeningway/Config/SettingsJson
   source: src/config/settings_json.h
   digest: The JSON document of the settings, and the texts that a document holds. -/

import Listeningway.Config.Settings

set_option autoImplicit false
set_option relaxedAutoImplicit false

namespace Listeningway.Config

/-- The values of `nlohmann::json`; a text is any `std::string`, a key is one of the names
that the macros spell out. -/
inductive Json (K : Type) where
  | null
  | boolean (b : Bool)
  | integer (i : ℤ)
  | number (x : K)
  | string (text : ByteArray)
  | array (items : List (Json K))
  | object (fields : List (String × Json K))

variable {K : Type}

namespace Json

/-- An enumerator under its serialised name. -/
def enumerator (name : String) : Json K := .string name.toUTF8

mutual

/-- The texts of a document, keys apart. -/
def texts : Json K → List ByteArray
  | .string text => [text]
  | .array items => itemTexts items
  | .object fields => fieldTexts fields
  | _ => []

def itemTexts : List (Json K) → List ByteArray
  | [] => []
  | item :: rest => item.texts ++ itemTexts rest

def fieldTexts : List (String × Json K) → List ByteArray
  | [] => []
  | (_, value) :: rest => value.texts ++ fieldTexts rest

end

/-- Every text of the document is UTF-8. -/
def WellFormed (j : Json K) : Prop := ∀ text ∈ j.texts, text.IsValidUTF8

instance (j : Json K) : Decidable j.WellFormed :=
  inferInstanceAs (Decidable (∀ text ∈ j.texts, text.IsValidUTF8))

end Json

def AudioConfig.toJson (a : AudioConfig K ByteArray) : Json K :=
  .object
    [("analysis_enabled", .boolean a.analysisEnabled),
      ("capture_source_code", .string a.captureSourceCode),
      ("simd_enabled", .boolean a.simdEnabled),
      ("pan_smoothing", .number a.panSmoothing),
      ("pan_offset", .number a.panOffset)]

def BeatMode.name : BeatMode → String
  | .auto => "auto"
  | .profile => "profile"
  | .custom => "custom"

def BeatProfile.name : BeatProfile → String
  | .percussive => "percussive"
  | .melodic => "melodic"
  | .sustained => "sustained"

def BeatConfig.toJson (b : BeatConfig K) : Json K :=
  .object
    [("mode", .enumerator b.mode.name),
      ("profile", .enumerator b.profile.name),
      ("pulse_strength", .number b.pulseStrength)]

def BandScale.name : BandScale → String
  | .linear => "linear"
  | .log => "log"
  | .mel => "mel"

def FrequencyConfig.toJson (f : FrequencyConfig K) : Json K :=
  .object
    [("band_count", .integer f.bandCount),
      ("fft_size", .integer f.fftSize),
      ("band_scale", .enumerator f.bandScale.name),
      ("log_strength", .number f.logStrength),
      ("band_norm", .number f.bandNorm),
      ("min_freq", .number f.minFreq),
      ("max_freq", .number f.maxFreq),
      ("equalizer_bands", .array (List.ofFn fun i => .number (f.equalizerBands i))),
      ("equalizer_width", .number f.equalizerWidth),
      ("amplifier_volume", .number f.amplifierVolume),
      ("amplifier_bands", .number f.amplifierBands),
      ("amplifier_direction", .number f.amplifierDirection),
      ("spatial_spread", .number f.spatialSpread),
      ("spatial_smoothing", .number f.spatialSmoothing)]

def AgcConfig.toJson (a : AgcConfig K) : Json K :=
  .object
    [("window_seconds", .number a.windowSeconds),
      ("clamp_max", .number a.clampMax),
      ("att_attack_ms", .number a.attAttackMs),
      ("att_release_ms", .number a.attReleaseMs)]

def ChronotensityConfig.toJson (c : ChronotensityConfig K) : Json K :=
  .object
    [("gain_volume", .number c.gainVolume),
      ("gain_bass", .number c.gainBass),
      ("gain_treble", .number c.gainTreble)]

def LoudnessConfig.toJson (l : LoudnessConfig K) : Json K :=
  .object [("window_ms", .number l.windowMs)]

def DebugConfig.toJson (d : DebugConfig) : Json K :=
  .object
    [("debug_logging", .boolean d.debugLogging), ("overlay_enabled", .boolean d.overlayEnabled)]

def SpectrumOrientation.name : SpectrumOrientation → String
  | .vertical => "vertical"
  | .horizontal => "horizontal"

def UiConfig.toJson (u : UiConfig) : Json K :=
  .object [("spectrum_orientation", .enumerator u.spectrumOrientation.name)]

def OscConfig.toJson (o : OscConfig ByteArray) : Json K :=
  .object
    [("enabled", .boolean o.enabled),
      ("host", .string o.host),
      ("port", .integer o.port),
      ("rate_hz", .integer o.rateHz)]

def SinglePattern.name : SinglePattern → String
  | .beatFlash => "beat_flash"
  | .volumePulse => "volume_pulse"
  | .spectralHue => "spectral_hue"
  | .chronotensityCycle => "chronotensity_cycle"
  | .static => "static"
  | .off => "off"

def LinearPattern.name : LinearPattern → String
  | .spectrumBar => "spectrum_bar"
  | .vuMeter => "vu_meter"
  | .chaseOrbit => "chase_orbit"
  | .pulseFromCenter => "pulse_from_center"
  | .stereoSplit => "stereo_split"
  | .colorWash => "color_wash"
  | .static => "static"
  | .off => "off"

def MatrixPattern.name : MatrixPattern → String
  | .spatialMap => "spatial_map"
  | .equalizerColumns => "equalizer_columns"
  | .perRegion => "per_region"
  | .spectrogramWaterfall => "spectrogram_waterfall"
  | .beatFlash => "beat_flash"
  | .colorWash => "color_wash"
  | .static => "static"
  | .off => "off"

def OpenRgbConfig.toJson (o : OpenRgbConfig K ByteArray) : Json K :=
  .object
    [("enabled", .boolean o.enabled),
      ("host", .string o.host),
      ("port", .integer o.port),
      ("rate_hz", .integer o.rateHz),
      ("brightness", .number o.brightness),
      ("pattern_single", .enumerator o.patternSingle.name),
      ("pattern_linear", .enumerator o.patternLinear.name),
      ("pattern_matrix", .enumerator o.patternMatrix.name)]

def NetworkConfig.toJson (n : NetworkConfig K ByteArray) : Json K :=
  .object [("osc", n.osc.toJson), ("openrgb", n.openrgb.toJson)]

namespace Settings

def toJson (s : Settings K ByteArray) : Json K :=
  .object
    [("schema_version", .integer s.schemaVersion),
      ("audio", s.audio.toJson),
      ("beat", s.beat.toJson),
      ("frequency", s.frequency.toJson),
      ("agc", s.agc.toJson),
      ("chronotensity", s.chronotensity.toJson),
      ("loudness", s.loudness.toJson),
      ("debug", s.debug.toJson),
      ("network", s.network.toJson),
      ("ui", s.ui.toJson)]

/-- Each text in its bytes. -/
def utf8 (s : Settings K) : Settings K ByteArray :=
  { s with
    audio := { s.audio with captureSourceCode := s.audio.captureSourceCode.toUTF8 }
    network :=
      { osc := { s.network.osc with host := s.network.osc.host.toUTF8 }
        openrgb := { s.network.openrgb with host := s.network.openrgb.host.toUTF8 } } }

/-- The texts that the user or a hand-edited file brings in. -/
def freeTexts (s : Settings K ByteArray) : List ByteArray :=
  [s.audio.captureSourceCode, s.network.osc.host, s.network.openrgb.host]

def ValidTexts (s : Settings K ByteArray) : Prop := ∀ text ∈ s.freeTexts, text.IsValidUTF8

instance (s : Settings K ByteArray) : Decidable s.ValidTexts :=
  inferInstanceAs (Decidable (∀ text ∈ s.freeTexts, text.IsValidUTF8))

end Settings

/-! ### The texts of the document -/

namespace Json

@[simp] theorem wellFormed_boolean (b : Bool) : (boolean b : Json K).WellFormed :=
  fun _ h => absurd h List.not_mem_nil

@[simp] theorem wellFormed_integer (i : ℤ) : (integer i : Json K).WellFormed :=
  fun _ h => absurd h List.not_mem_nil

@[simp] theorem wellFormed_number (x : K) : (number x).WellFormed :=
  fun _ h => absurd h List.not_mem_nil

@[simp] theorem wellFormed_string {text : ByteArray} :
    (string text : Json K).WellFormed ↔ text.IsValidUTF8 := by
  rw [WellFormed, texts, List.forall_mem_singleton]

@[simp] theorem wellFormed_enumerator (name : String) : (enumerator name : Json K).WellFormed :=
  wellFormed_string.mpr name.isValidUTF8

@[simp] theorem wellFormed_array {items : List (Json K)} :
    (array items).WellFormed ↔ ∀ item ∈ items, item.WellFormed := by
  rw [WellFormed, texts]
  induction items with
  | nil => simp [itemTexts]
  | cons item rest ih =>
    rw [itemTexts, List.forall_mem_append, ih, List.forall_mem_cons]
    rfl

@[simp] theorem wellFormed_object {fields : List (String × Json K)} :
    (object fields).WellFormed ↔ ∀ field ∈ fields, field.2.WellFormed := by
  rw [WellFormed, texts]
  induction fields with
  | nil => simp [fieldTexts]
  | cons field rest ih =>
    rw [fieldTexts, List.forall_mem_append, ih, List.forall_mem_cons]
    rfl

end Json

/-- Only the source code and the two hosts can keep the document from being UTF-8. -/
theorem Settings.wellFormed_toJson_iff (s : Settings K ByteArray) :
    s.toJson.WellFormed ↔ s.ValidTexts := by
  have audio : s.audio.toJson.WellFormed ↔ s.audio.captureSourceCode.IsValidUTF8 := by
    simp [AudioConfig.toJson]
  have osc : s.network.osc.toJson.WellFormed (K := K) ↔ s.network.osc.host.IsValidUTF8 := by
    simp [OscConfig.toJson]
  have openrgb : s.network.openrgb.toJson.WellFormed ↔ s.network.openrgb.host.IsValidUTF8 := by
    simp [OpenRgbConfig.toJson]
  have network : s.network.toJson.WellFormed ↔
      s.network.osc.host.IsValidUTF8 ∧ s.network.openrgb.host.IsValidUTF8 := by
    simp [NetworkConfig.toJson, osc, openrgb]
  have frequency : s.frequency.toJson.WellFormed := by
    simp [FrequencyConfig.toJson]
  simp only [toJson, ValidTexts, freeTexts, Json.wellFormed_object, List.forall_mem_cons, audio,
    network, frequency, Json.wellFormed_integer, true_and]
  simp [BeatConfig.toJson, AgcConfig.toJson, ChronotensityConfig.toJson, LoudnessConfig.toJson,
    DebugConfig.toJson, UiConfig.toJson]

theorem Settings.validTexts_utf8 (s : Settings K) : s.utf8.ValidTexts := by
  intro text held
  simp only [freeTexts, utf8, List.mem_cons, List.not_mem_nil, or_false] at held
  rcases held with rfl | rfl | rfl
  · exact s.audio.captureSourceCode.isValidUTF8
  · exact s.network.osc.host.isValidUTF8
  · exact s.network.openrgb.host.isValidUTF8

end Listeningway.Config
