/- Listeningway/Config/SettingsParse
   source: src/config/settings_json.h
   digest: What the settings read back from a document, and that they read back what they wrote. -/

import Listeningway.Config.SettingsJson
import Mathlib.Data.Int.Basic
import Mathlib.Data.List.Nodup
import Mathlib.Data.List.Sort
import Mathlib.Data.Fintype.Basic
import Mathlib.Data.Rat.Floor
import Mathlib.Tactic.FinCases

set_option autoImplicit false
set_option relaxedAutoImplicit false

namespace Listeningway.Config

variable {K : Type}

/-- Texts are compared byte by byte. -/
instance decidableEqBytes : DecidableEq ByteArray := fun a b =>
  decidable_of_iff (a.data = b.data) ⟨fun same => ByteArray.ext same, fun same => same ▸ rfl⟩

/-! ### Documents as they are held in memory -/

namespace Json

mutual

/-- The document with the members of every object in the order of their keys, as the
`std::map` of a parsed object holds them. -/
def ordered : Json K → Json K
  | .array items => .array (orderedItems items)
  | .object fields => .object ((orderedFields fields).mergeSort fun a b => a.1 ≤ b.1)
  | j => j

def orderedItems : List (Json K) → List (Json K)
  | [] => []
  | item :: rest => item.ordered :: orderedItems rest

def orderedFields : List (String × Json K) → List (String × Json K)
  | [] => []
  | (key, value) :: rest => (key, value.ordered) :: orderedFields rest

end

end Json

/-- The conversions of nlohmann-json that the macros call, nothing where they throw. Which
documents they take is up to the library. -/
structure Readers (K : Type) where
  /-- Whether a struct may be `null` and has then all its fields at their defaults. -/
  takesNull : Bool
  /-- One field of the `_WITH_DEFAULT` macros. -/
  value : {T : Type} → Json K → String → (Json K → Option T) → T → Option T
  getBool : Json K → Option Bool
  getString : Json K → Option ByteArray
  getFloat : Json K → Option K
  getInt : Json K → Option ℤ
  getFive : Json K → Option (Fin 5 → K)
  /-- `NLOHMANN_JSON_SERIALIZE_ENUM` with the table of the enumerators. -/
  getEnum : {E : Type} → List E → (E → String) → Json K → Option E

/-! ### The tables of enumerators -/

variable (r : Readers K)

def BeatMode.fromJson : Json K → Option BeatMode :=
  r.getEnum [.auto, .profile, .custom] BeatMode.name

def BeatProfile.fromJson : Json K → Option BeatProfile :=
  r.getEnum [.percussive, .melodic, .sustained] BeatProfile.name

def BandScale.fromJson : Json K → Option BandScale :=
  r.getEnum [.linear, .log, .mel] BandScale.name

def SpectrumOrientation.fromJson : Json K → Option SpectrumOrientation :=
  r.getEnum [.vertical, .horizontal] SpectrumOrientation.name

def SinglePattern.fromJson : Json K → Option SinglePattern :=
  r.getEnum
    [.beatFlash, .volumePulse, .spectralHue, .chronotensityCycle, .static, .off]
    SinglePattern.name

def LinearPattern.fromJson : Json K → Option LinearPattern :=
  r.getEnum
    [.spectrumBar, .vuMeter, .chaseOrbit, .pulseFromCenter, .stereoSplit, .colorWash, .static,
      .off]
    LinearPattern.name

def MatrixPattern.fromJson : Json K → Option MatrixPattern :=
  r.getEnum
    [.spatialMap, .equalizerColumns, .perRegion, .spectrogramWaterfall, .beatFlash, .colorWash,
      .static, .off]
    MatrixPattern.name

/-! ### `from_json` of every struct -/

def DebugConfig.fromJson (j : Json K) : Option DebugConfig := do
  let d := DebugConfig.defaults
  return {
    debugLogging := ← r.value j "debug_logging" r.getBool d.debugLogging
    overlayEnabled := ← r.value j "overlay_enabled" r.getBool d.overlayEnabled }

def UiConfig.fromJson (j : Json K) : Option UiConfig := do
  let d := UiConfig.defaults
  return {
    spectrumOrientation :=
      ← r.value j "spectrum_orientation" (SpectrumOrientation.fromJson r) d.spectrumOrientation }

section FromJson

variable [Field K]

def AudioConfig.fromJson (j : Json K) : Option (AudioConfig K ByteArray) := do
  let d := (Settings.defaults K).utf8.audio
  return {
    analysisEnabled := ← r.value j "analysis_enabled" r.getBool d.analysisEnabled
    captureSourceCode := ← r.value j "capture_source_code" r.getString d.captureSourceCode
    simdEnabled := ← r.value j "simd_enabled" r.getBool d.simdEnabled
    panSmoothing := ← r.value j "pan_smoothing" r.getFloat d.panSmoothing
    panOffset := ← r.value j "pan_offset" r.getFloat d.panOffset }

def BeatConfig.fromJson (j : Json K) : Option (BeatConfig K) := do
  let d := BeatConfig.defaults K
  return {
    mode := ← r.value j "mode" (BeatMode.fromJson r) d.mode
    profile := ← r.value j "profile" (BeatProfile.fromJson r) d.profile
    pulseStrength := ← r.value j "pulse_strength" r.getFloat d.pulseStrength }

def AgcConfig.fromJson (j : Json K) : Option (AgcConfig K) := do
  let d := AgcConfig.defaults K
  return {
    windowSeconds := ← r.value j "window_seconds" r.getFloat d.windowSeconds
    clampMax := ← r.value j "clamp_max" r.getFloat d.clampMax
    attAttackMs := ← r.value j "att_attack_ms" r.getFloat d.attAttackMs
    attReleaseMs := ← r.value j "att_release_ms" r.getFloat d.attReleaseMs }

def ChronotensityConfig.fromJson (j : Json K) : Option (ChronotensityConfig K) := do
  let d := ChronotensityConfig.defaults K
  return {
    gainVolume := ← r.value j "gain_volume" r.getFloat d.gainVolume
    gainBass := ← r.value j "gain_bass" r.getFloat d.gainBass
    gainTreble := ← r.value j "gain_treble" r.getFloat d.gainTreble }

def LoudnessConfig.fromJson (j : Json K) : Option (LoudnessConfig K) := do
  let d := LoudnessConfig.defaults K
  return { windowMs := ← r.value j "window_ms" r.getFloat d.windowMs }

def FrequencyConfig.fromJson (j : Json K) : Option (FrequencyConfig K) := do
  let d := FrequencyConfig.defaults K
  return {
    bandCount := ← r.value j "band_count" r.getInt d.bandCount
    fftSize := ← r.value j "fft_size" r.getInt d.fftSize
    bandScale := ← r.value j "band_scale" (BandScale.fromJson r) d.bandScale
    logStrength := ← r.value j "log_strength" r.getFloat d.logStrength
    bandNorm := ← r.value j "band_norm" r.getFloat d.bandNorm
    minFreq := ← r.value j "min_freq" r.getFloat d.minFreq
    maxFreq := ← r.value j "max_freq" r.getFloat d.maxFreq
    equalizerBands := ← r.value j "equalizer_bands" r.getFive d.equalizerBands
    equalizerWidth := ← r.value j "equalizer_width" r.getFloat d.equalizerWidth
    amplifierVolume := ← r.value j "amplifier_volume" r.getFloat d.amplifierVolume
    amplifierBands := ← r.value j "amplifier_bands" r.getFloat d.amplifierBands
    amplifierDirection := ← r.value j "amplifier_direction" r.getFloat d.amplifierDirection
    spatialSpread := ← r.value j "spatial_spread" r.getFloat d.spatialSpread
    spatialSmoothing := ← r.value j "spatial_smoothing" r.getFloat d.spatialSmoothing }

def OscConfig.fromJson (j : Json K) : Option (OscConfig ByteArray) := do
  let d := (Settings.defaults K).utf8.network.osc
  return {
    enabled := ← r.value j "enabled" r.getBool d.enabled
    host := ← r.value j "host" r.getString d.host
    port := ← r.value j "port" r.getInt d.port
    rateHz := ← r.value j "rate_hz" r.getInt d.rateHz }

def OpenRgbConfig.fromJson (j : Json K) : Option (OpenRgbConfig K ByteArray) := do
  let d := (Settings.defaults K).utf8.network.openrgb
  return {
    enabled := ← r.value j "enabled" r.getBool d.enabled
    host := ← r.value j "host" r.getString d.host
    port := ← r.value j "port" r.getInt d.port
    rateHz := ← r.value j "rate_hz" r.getInt d.rateHz
    brightness := ← r.value j "brightness" r.getFloat d.brightness
    patternSingle := ← r.value j "pattern_single" (SinglePattern.fromJson r) d.patternSingle
    patternLinear := ← r.value j "pattern_linear" (LinearPattern.fromJson r) d.patternLinear
    patternMatrix := ← r.value j "pattern_matrix" (MatrixPattern.fromJson r) d.patternMatrix }

def NetworkConfig.fromJson (j : Json K) : Option (NetworkConfig K ByteArray) := do
  let d := (Settings.defaults K).utf8.network
  return {
    osc := ← r.value j "osc" (OscConfig.fromJson r) d.osc
    openrgb := ← r.value j "openrgb" (OpenRgbConfig.fromJson r) d.openrgb }

namespace Settings

/-- `j.get<Settings>()`; nothing when it throws. -/
def fromJson (j : Json K) : Option (Settings K ByteArray) := do
  let d := (Settings.defaults K).utf8
  return {
    schemaVersion := ← r.value j "schema_version" r.getInt d.schemaVersion
    audio := ← r.value j "audio" (AudioConfig.fromJson r) d.audio
    beat := ← r.value j "beat" (BeatConfig.fromJson r) d.beat
    frequency := ← r.value j "frequency" (FrequencyConfig.fromJson r) d.frequency
    agc := ← r.value j "agc" (AgcConfig.fromJson r) d.agc
    chronotensity := ← r.value j "chronotensity" (ChronotensityConfig.fromJson r) d.chronotensity
    loudness := ← r.value j "loudness" (LoudnessConfig.fromJson r) d.loudness
    debug := ← r.value j "debug" (DebugConfig.fromJson r) d.debug
    network := ← r.value j "network" (NetworkConfig.fromJson r) d.network
    ui := ← r.value j "ui" (UiConfig.fromJson r) d.ui }

end Settings

end FromJson

/-! ### Reading back -/

namespace Json

@[simp] theorem ordered_boolean (b : Bool) : (boolean b : Json K).ordered = boolean b := rfl

@[simp] theorem ordered_integer (i : ℤ) : (integer i : Json K).ordered = integer i := rfl

@[simp] theorem ordered_number (x : K) : (number x).ordered = number x := rfl

@[simp] theorem ordered_string (text : ByteArray) :
    (string text : Json K).ordered = string text := rfl

@[simp] theorem ordered_enumerator (name : String) :
    (enumerator name : Json K).ordered = enumerator name := rfl

theorem orderedFields_eq_map (fields : List (String × Json K)) :
    orderedFields fields = fields.map fun field => (field.1, field.2.ordered) := by
  induction fields with
  | nil => rfl
  | cons field rest ih => rw [orderedFields, ih, List.map_cons]

theorem lookup_perm {T : Type} {fields fields' : List (String × T)} (perm : fields.Perm fields')
    (nodup : (fields.map Prod.fst).Nodup) (key : String) :
    fields.lookup key = fields'.lookup key := by
  induction perm with
  | nil => rfl
  | cons field rest ih =>
    obtain ⟨k, v⟩ := field
    rw [List.lookup_cons, List.lookup_cons, ih (List.nodup_cons.mp nodup).2]
  | swap a b rest =>
    obtain ⟨k, v⟩ := a
    obtain ⟨k', v'⟩ := b
    have apart : k' ≠ k := by
      rintro rfl
      simp at nodup
    simp only [List.lookup_cons]
    cases second : key == k' with
    | false => rfl
    | true =>
      rw [eq_of_beq second, beq_false_of_ne apart]
  | trans first _ ih₁ ih₂ =>
    rw [ih₁ nodup, ih₂ ((first.map Prod.fst).nodup_iff.mp nodup)]

theorem lookup_orderedFields (fields : List (String × Json K)) (key : String) :
    (orderedFields fields).lookup key = (fields.lookup key).map ordered := by
  induction fields with
  | nil => rfl
  | cons field rest ih =>
    rw [orderedFields, List.lookup_cons, List.lookup_cons, ih]
    cases key == field.1 <;> rfl

theorem lookup_ordered {fields : List (String × Json K)} (nodup : (fields.map Prod.fst).Nodup)
    (key : String) :
    ((orderedFields fields).mergeSort fun a b => a.1 ≤ b.1).lookup key =
      (fields.lookup key).map ordered := by
  have keys : ((orderedFields fields).map Prod.fst).Nodup := by
    rwa [orderedFields_eq_map, List.map_map]
  have sorted := List.mergeSort_perm (orderedFields fields) fun a b => a.1 ≤ b.1
  rw [lookup_perm sorted ((sorted.map Prod.fst).nodup_iff.mpr keys), lookup_orderedFields]

/-- Rewriting with `Option.elim_some` itself has the kernel evaluate both sides. -/
theorem elim_member {T : Type} {default : Option T} {get : Json K → Option T} {member : Json K} :
    (some member).elim default get = get member := by
  rw [Option.elim_some]

end Json

/-- The values of an `int`. -/
def IsInt (i : ℤ) : Prop := -2 ^ 31 ≤ i ∧ i < 2 ^ 31

instance (i : ℤ) : Decidable (IsInt i) := inferInstanceAs (Decidable (_ ∧ _))

/-- Every field of type `int` holds one. -/
structure Settings.IntsFit {S : Type} (s : Settings K S) : Prop where
  schemaVersion : IsInt s.schemaVersion
  bandCount : IsInt s.frequency.bandCount
  fftSize : IsInt s.frequency.fftSize
  oscPort : IsInt s.network.osc.port
  oscRate : IsInt s.network.osc.rateHz
  openrgbPort : IsInt s.network.openrgb.port
  openrgbRate : IsInt s.network.openrgb.rateHz

/-- The readers take what the settings write, and any object for a struct: `value` has the member
where there is one and the default elsewhere. -/
structure Readers.ReadWritten (r : Readers K) : Prop where
  value_object : ∀ {T : Type} (fields : List (String × Json K)) (key : String)
    (get : Json K → Option T) (default : T),
    r.value (.object fields) key get default = (fields.lookup key).elim (some default) get
  getBool_boolean : ∀ b, r.getBool (.boolean b) = some b
  getString_string : ∀ text, r.getString (.string text) = some text
  getFloat_number : ∀ x, r.getFloat (.number x) = some x
  getInt_integer : ∀ i, IsInt i → r.getInt (.integer i) = some i
  getFive_numbers : ∀ f : Fin 5 → K,
    r.getFive (.array (List.ofFn fun i => .number (f i))) = some f
  getEnum_enumerator : ∀ {E : Type} {table : List E} {name : E → String} {e : E}, e ∈ table →
    (∀ e' ∈ table, name e' = name e → e' = e) →
    r.getEnum table name (.enumerator (name e)) = some e

section ReadBack

variable {r : Readers K} (written : r.ReadWritten)

include written

theorem Readers.ReadWritten.value_ordered {T : Type} {fields : List (String × Json K)}
    (nodup : (fields.map Prod.fst).Nodup) (key : String) (get : Json K → Option T)
    (default : T) :
    r.value (Json.object fields).ordered key get default =
      (fields.lookup key).elim (some default) fun member => get member.ordered := by
  rw [Json.ordered, written.value_object, Json.lookup_ordered nodup]
  cases fields.lookup key <;> rfl

theorem BeatMode.fromJson_name (m : BeatMode) : fromJson r (.enumerator m.name) = some m :=
  written.getEnum_enumerator (by cases m <;> simp) (by cases m <;> simp [name])

theorem BeatProfile.fromJson_name (p : BeatProfile) :
    fromJson r (.enumerator p.name) = some p :=
  written.getEnum_enumerator (by cases p <;> simp) (by cases p <;> simp [name])

theorem BandScale.fromJson_name (b : BandScale) : fromJson r (.enumerator b.name) = some b :=
  written.getEnum_enumerator (by cases b <;> simp) (by cases b <;> simp [name])

theorem SpectrumOrientation.fromJson_name (o : SpectrumOrientation) :
    fromJson r (.enumerator o.name) = some o :=
  written.getEnum_enumerator (by cases o <;> simp) (by cases o <;> simp [name])

theorem SinglePattern.fromJson_name (p : SinglePattern) :
    fromJson r (.enumerator p.name) = some p :=
  written.getEnum_enumerator (by cases p <;> simp) (by cases p <;> simp [name])

theorem LinearPattern.fromJson_name (p : LinearPattern) :
    fromJson r (.enumerator p.name) = some p :=
  written.getEnum_enumerator (by cases p <;> simp) (by cases p <;> simp [name])

theorem MatrixPattern.fromJson_name (p : MatrixPattern) :
    fromJson r (.enumerator p.name) = some p :=
  written.getEnum_enumerator (by cases p <;> simp) (by cases p <;> simp [name])

theorem DebugConfig.fromJson_toJson (d : DebugConfig) : fromJson r d.toJson.ordered = some d := by
  simp [toJson, fromJson, written.value_ordered, List.lookup_cons, written.getBool_boolean]

theorem UiConfig.fromJson_toJson (u : UiConfig) : fromJson r u.toJson.ordered = some u := by
  simp [toJson, fromJson, written.value_ordered, SpectrumOrientation.fromJson_name written]

variable [Field K]

theorem AudioConfig.fromJson_toJson (a : AudioConfig K ByteArray) :
    fromJson r a.toJson.ordered = some a := by
  simp [toJson, fromJson, written.value_ordered, List.lookup_cons, written.getBool_boolean,
    written.getString_string, written.getFloat_number]

theorem BeatConfig.fromJson_toJson (b : BeatConfig K) :
    fromJson r b.toJson.ordered = some b := by
  simp [toJson, fromJson, written.value_ordered, List.lookup_cons,
    BeatMode.fromJson_name written, BeatProfile.fromJson_name written, written.getFloat_number]

theorem AgcConfig.fromJson_toJson (a : AgcConfig K) : fromJson r a.toJson.ordered = some a := by
  simp [toJson, fromJson, written.value_ordered, List.lookup_cons, written.getFloat_number]

theorem ChronotensityConfig.fromJson_toJson (c : ChronotensityConfig K) :
    fromJson r c.toJson.ordered = some c := by
  simp [toJson, fromJson, written.value_ordered, List.lookup_cons, written.getFloat_number]

theorem LoudnessConfig.fromJson_toJson (l : LoudnessConfig K) :
    fromJson r l.toJson.ordered = some l := by
  simp [toJson, fromJson, written.value_ordered, written.getFloat_number]

theorem FrequencyConfig.fromJson_toJson {f : FrequencyConfig K} (bandCount : IsInt f.bandCount)
    (fftSize : IsInt f.fftSize) : fromJson r f.toJson.ordered = some f := by
  have five : r.getFive (Json.array (List.ofFn fun i => .number (f.equalizerBands i))).ordered =
      some f.equalizerBands := written.getFive_numbers f.equalizerBands
  simp [toJson, fromJson, written.value_ordered, List.lookup_cons,
    written.getInt_integer _ bandCount, written.getInt_integer _ fftSize,
    BandScale.fromJson_name written, written.getFloat_number, Json.elim_member, five,
    -List.ofFn_succ, -Option.elim_some]

theorem OscConfig.fromJson_toJson {o : OscConfig ByteArray} (port : IsInt o.port)
    (rate : IsInt o.rateHz) : fromJson r o.toJson.ordered = some o := by
  simp [toJson, fromJson, written.value_ordered, List.lookup_cons, written.getBool_boolean,
    written.getString_string, written.getInt_integer _ port, written.getInt_integer _ rate]

theorem OpenRgbConfig.fromJson_toJson {o : OpenRgbConfig K ByteArray} (port : IsInt o.port)
    (rate : IsInt o.rateHz) : fromJson r o.toJson.ordered = some o := by
  simp [toJson, fromJson, written.value_ordered, List.lookup_cons, written.getBool_boolean,
    written.getString_string, written.getInt_integer _ port, written.getInt_integer _ rate,
    written.getFloat_number, SinglePattern.fromJson_name written,
    LinearPattern.fromJson_name written, MatrixPattern.fromJson_name written]

theorem NetworkConfig.fromJson_toJson {s : Settings K ByteArray} (fit : s.IntsFit) :
    fromJson r s.network.toJson.ordered = some s.network := by
  have osc := OscConfig.fromJson_toJson written fit.oscPort fit.oscRate
  have openrgb := OpenRgbConfig.fromJson_toJson written fit.openrgbPort fit.openrgbRate
  simp [toJson, fromJson, written.value_ordered, List.lookup_cons, osc, openrgb]

/-- The settings read back every document that they wrote. -/
theorem Settings.fromJson_toJson {s : Settings K ByteArray} (fit : s.IntsFit) :
    fromJson r s.toJson.ordered = some s := by
  have frequency := FrequencyConfig.fromJson_toJson written fit.bandCount fit.fftSize
  have network := NetworkConfig.fromJson_toJson written fit
  simp [toJson, fromJson, written.value_ordered, List.lookup_cons,
    AudioConfig.fromJson_toJson written, BeatConfig.fromJson_toJson written, frequency,
    AgcConfig.fromJson_toJson written, ChronotensityConfig.fromJson_toJson written,
    LoudnessConfig.fromJson_toJson written, DebugConfig.fromJson_toJson written,
    UiConfig.fromJson_toJson written, network, written.getInt_integer _ fit.schemaVersion]

end ReadBack

/-! ### Readers like those of the library -/

namespace Json

/-- Every number and `bool` is cast to `float`. -/
def plainFloat : Json ℚ → Option ℚ
  | .integer i => some i
  | .number x => some x
  | .boolean b => some (b.toInt : ℤ)
  | _ => none

/-- The same cast to `int`, a 64-bit integer modulo `2 ^ 32`. -/
def plainInt : Json ℚ → Option ℤ
  | .integer i => some (i.bmod (2 ^ 32))
  | .number x => some (if 0 ≤ x then ⌊x⌋ else ⌈x⌉)
  | .boolean b => some b.toInt
  | _ => none

/-- `at(0)` to `at(4)`, further entries are not looked at. -/
def plainFive : Json ℚ → Option (Fin 5 → ℚ)
  | .array (a :: b :: c :: d :: e :: _) => do
    return ![← a.plainFloat, ← b.plainFloat, ← c.plainFloat, ← d.plainFloat, ← e.plainFloat]
  | _ => none

/-- The entry of the table with this name, the first entry of all otherwise. -/
def plainEnum {E : Type} (table : List E) (name : E → String) : Json ℚ → Option E
  | .string text => (table.find? fun e => (name e).toUTF8 = text).or table.head?
  | _ => table.head?

end Json

/-- Readers that behave like those of a version with `null` for a struct. -/
def plainReaders : Readers ℚ where
  takesNull := true
  value j key get default :=
    match j with
    | .null => some default
    | .object fields => (fields.lookup key).elim (some default) get
    | _ => none
  getBool
    | .boolean b => some b
    | _ => none
  getString
    | .string text => some text
    | _ => none
  getFloat := Json.plainFloat
  getInt := Json.plainInt
  getFive := Json.plainFive
  getEnum := Json.plainEnum

theorem plainReaders_readWritten : plainReaders.ReadWritten where
  value_object _ _ _ _ := rfl
  getBool_boolean _ := rfl
  getString_string _ := rfl
  getFloat_number _ := rfl
  getInt_integer i fits := by
    obtain ⟨low, high⟩ := fits
    have kept : i.bmod (2 ^ 32) = i := Int.bmod_eq_of_le (by omega) (by omega)
    exact congrArg some kept
  getFive_numbers f := by
    have entries : ![f 0, f 1, f 2, f 3, f 4] = f := by
      funext i
      fin_cases i <;> rfl
    exact congrArg some entries
  getEnum_enumerator {E table name e} listed apart := by
    have found : table.find? (fun e' => (name e').toUTF8 = (name e).toUTF8) = some e := by
      cases search : table.find? (fun e' => (name e').toUTF8 = (name e).toUTF8) with
      | none =>
        have missed := List.find?_eq_none.mp search e listed
        simp at missed
      | some e' =>
        have same := List.find?_some search
        rw [decide_eq_true_eq, String.toUTF8_eq_toByteArray, String.toUTF8_eq_toByteArray,
          String.toByteArray_inj] at same
        rw [apart e' (List.mem_of_find?_eq_some search) same]
    change (table.find? fun e' => (name e').toUTF8 = (name e).toUTF8).or table.head? = some e
    rw [found, Option.some_or]

end Listeningway.Config
