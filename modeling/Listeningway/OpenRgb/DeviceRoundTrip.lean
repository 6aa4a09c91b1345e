/- Listeningway/OpenRgb/DeviceRoundTrip
   source: third_party/Youda008-OpenRGB-cppSDK: src/DeviceInfo.cpp, ProtocolCommon.hpp
   digest: A device description is read back as it was written, in every protocol version. -/

import Listeningway.OpenRgb.DeviceInfo

/-!
The reader numbers what it reads, and before version 3 it leaves the brightness fields at zero:
`received` is what it makes of a description. `Sound` is what the widths of the fields ask for.
-/

set_option autoImplicit false
set_option relaxedAutoImplicit false

namespace Listeningway.OpenRgb

open Listeningway.Lib.ByteStream

/-! ### Strings and arrays -/

def FitsString (str : Text) : Prop := str.length + 1 < 2 ^ 16

instance (str : Text) : Decidable (FitsString str) := inferInstanceAs (Decidable (_ < _))

theorem length_writeString (str : Text) : (writeString str).length = sizeofString str := by
  simp only [writeString, sizeofString, List.length_append, length_putUint16, List.length_cons,
    List.length_nil]
  omega

theorem reads_string {str : Text} (fits : FitsString str) :
    Reads readString (writeString str) str := by
  have size : (UInt16.ofNat (str.length + 1)).toNat = str.length + 1 :=
    UInt16.toNat_ofNat_of_lt' fits
  have positive : UInt16.ofNat (str.length + 1) > 0 := by
    rw [gt_iff_lt, UInt16.lt_iff_toNat_lt, size]
    exact Nat.succ_pos _
  have body : Reads (takeBytes (if UInt16.ofNat (str.length + 1) > 0
      then (UInt16.ofNat (str.length + 1)).toNat - 1 else 0)) str str := by
    rw [if_pos positive, size]
    exact reads_takeBytes str
  exact (reads_uint16 _).bind (body.bind ((reads_takeBytes [0]).returning _))

theorem confined_string : Confined readString :=
  confined_uint16.bind fun _ => (confined_takeBytes _).bind fun _ =>
    (confined_takeBytes _).bind fun _ => Confined.pure _

section Arrays

variable {α β : Type}

theorem length_flatMap_of {serialize : α → List UInt8} {calcSize : α → ℕ} {vec : List α}
    (each : ∀ x ∈ vec, (serialize x).length = calcSize x) :
    (vec.flatMap serialize).length = (vec.map calcSize).sum := by
  rw [List.length_flatMap]
  exact congrArg List.sum (List.map_congr_left each)

theorem length_writeArray {serialize : α → List UInt8} {calcSize : α → ℕ} {vec : List α}
    (each : ∀ x ∈ vec, (serialize x).length = calcSize x) :
    (writeArray serialize vec).length = sizeofArray calcSize vec := by
  rw [writeArray, sizeofArray, List.length_append, length_putUint16, length_flatMap_of each]

def FitsArray (vec : List α) : Prop := vec.length < 2 ^ 16

instance (vec : List α) : Decidable (FitsArray vec) := inferInstanceAs (Decidable (_ < _))

theorem FitsArray.toNat {vec : List α} (fits : FitsArray vec) :
    (UInt16.ofNat vec.length).toNat = vec.length := UInt16.toNat_ofNat_of_lt' fits

theorem reads_writeArray {element : ℕ → Reader β} {serialize : α → List UInt8} {f : ℕ → α → β}
    {vec : List α} (fits : FitsArray vec)
    (each : ∀ i, ∀ x ∈ vec, Reads (element i) (serialize x) (f i x)) :
    Reads (readArray element) (writeArray serialize vec) (indexed f vec) := by
  have body := reads_array each
  rw [← fits.toNat] at body
  exact (reads_uint16 _).bind body

theorem confined_readArray {element : ℕ → Reader α} (each : ∀ i, Confined (element i)) :
    Confined (readArray element) :=
  confined_uint16.bind fun _ => confined_arrayFrom each 0 _

end Arrays

/-! ### Colours -/

namespace Color

theorem length_serialize (color : Color) : color.serialize.length = color.calcSize := rfl

theorem reads_serialize (color : Color) : Reads deserialize color.serialize color :=
  (reads_uint8 _).bind ((reads_uint8 _).bind ((reads_uint8 _).bind ((reads_uint8 _).returning _)))

theorem confined_deserialize : Confined deserialize :=
  confined_uint8.bind fun _ => confined_uint8.bind fun _ => confined_uint8.bind fun _ =>
    confined_uint8.bind fun _ => Confined.pure _

end Color

theorem reads_colors {colors : List Color} (fits : FitsArray colors) :
    Reads (readArray fun _ => Color.deserialize) (writeArray Color.serialize colors) colors := by
  have reads := reads_writeArray fits fun _ color _ => color.reads_serialize
  rwa [indexed_same] at reads

theorem length_colors (colors : List Color) :
    (writeArray Color.serialize colors).length = sizeofArray Color.calcSize colors :=
  length_writeArray fun color _ => color.length_serialize

theorem confined_colors : Confined (readArray fun _ => Color.deserialize) :=
  confined_readArray fun _ => Color.confined_deserialize

/-! ### LEDs -/

namespace LED

def Sound (led : LED) : Prop := FitsString led.name

def received (idx parentIdx : UInt32) (led : LED) : LED := { led with idx, parentIdx }

theorem length_serialize (led : LED) : led.serialize.length = led.calcSize := by
  rw [serialize, calcSize, List.length_append, length_writeString, length_putUint32]

theorem reads_serialize (idx parentIdx : UInt32) {led : LED} (sound : led.Sound) :
    Reads (deserialize idx parentIdx) led.serialize (led.received idx parentIdx) :=
  (reads_string sound).bind ((reads_uint32 _).returning _)

theorem confined_deserialize (idx parentIdx : UInt32) : Confined (deserialize idx parentIdx) :=
  confined_string.bind fun _ => confined_uint32.bind fun _ => Confined.pure _

end LED

/-! ### Zones -/

theorem zoneTypeOf_code (type : ZoneType) : zoneTypeOf type.code = some type := by
  cases type <;> rfl

namespace Zone

/-- Without values the block is left out, and the reader leaves both sides of the matrix at zero;
with values their number has to be what the reader multiplies out, and the length of the block
must not be cut to zero. -/
def MatrixSound (zone : Zone) : Prop :=
  if zone.matrixValues = [] then zone.matrixHeight = 0 ∧ zone.matrixWidth = 0
  else (zone.matrixHeight * zone.matrixWidth).toNat = zone.matrixValues.length ∧
    zone.matrixLength > 0

instance (zone : Zone) : Decidable zone.MatrixSound := by
  unfold MatrixSound
  infer_instance

structure Sound (zone : Zone) : Prop where
  name : FitsString zone.name
  matrix : zone.MatrixSound

def received (idx parentIdx : UInt32) (zone : Zone) : Zone := { zone with idx, parentIdx }

theorem length_matrixValues (values : List UInt32) :
    (values.flatMap putUint32).length = 4 * values.length := by
  have each : (values.flatMap putUint32).length = (values.map fun _ => 4).sum :=
    length_flatMap_of fun v _ => length_putUint32 v
  rw [each, List.map_const', List.sum_replicate_nat, mul_comm]

theorem matrixLength_of_nil {zone : Zone} (empty : zone.matrixValues = []) :
    zone.matrixLength = 0 := by
  rw [matrixLength, empty]
  rfl

theorem length_serialize {zone : Zone} (sound : zone.Sound) :
    zone.serialize.length = zone.calcSize := by
  have matrix := sound.matrix
  unfold MatrixSound at matrix
  simp only [serialize, calcSize, List.length_append, length_writeString, length_putUint32,
    length_putUint16]
  split_ifs at matrix with empty
  · rw [matrixLength_of_nil empty, empty]
    simp
  · have block := matrix.2
    have values := List.length_pos_iff.mpr empty
    rw [if_pos block, if_pos values]
    simp only [List.length_append, length_putUint32, length_matrixValues]
    omega

theorem reads_matrix {zone : Zone} (sound : zone.MatrixSound) :
    Reads (deserializeMatrix zone.matrixLength)
      (if zone.matrixLength > 0 then
        putUint32 zone.matrixHeight ++ (putUint32 zone.matrixWidth ++
          zone.matrixValues.flatMap putUint32)
      else [])
      (zone.matrixHeight, zone.matrixWidth, zone.matrixValues) := by
  unfold MatrixSound at sound
  split_ifs at sound with empty
  · rw [matrixLength_of_nil empty, sound.1, sound.2, empty]
    exact Reads.pure _
  · obtain ⟨count, block⟩ := sound
    have values : Reads (readArrayFrom (fun _ => uint32) 0 zone.matrixValues.length)
        (zone.matrixValues.flatMap putUint32) (indexed (fun _ v => v) zone.matrixValues) :=
      reads_array fun _ v _ => reads_uint32 v
    rw [indexed_same, ← count] at values
    rw [deserializeMatrix, if_pos block, if_pos block]
    exact (reads_uint32 _).bind ((reads_uint32 _).bind (values.returning _))

theorem reads_serialize (idx parentIdx : UInt32) {zone : Zone} (sound : zone.Sound) :
    Reads (deserialize idx parentIdx) zone.serialize (zone.received idx parentIdx) := by
  unfold serialize
  rw [← List.append_nil (ite _ _ _)]
  refine (reads_string sound.name).bind ?_
  refine (reads_uint32 _).bind ?_
  refine (reads_uint32 _).bind ?_
  refine (reads_uint32 _).bind ?_
  refine (reads_uint32 _).bind ?_
  refine (reads_uint16 _).bind ?_
  refine (reads_matrix sound.matrix).bind ?_
  simp only [zoneTypeOf_code]
  exact Reads.pure _

theorem confined_matrix (matrixLength : UInt16) : Confined (deserializeMatrix matrixLength) := by
  unfold deserializeMatrix
  split_ifs
  · exact confined_uint32.bind fun _ => confined_uint32.bind fun _ =>
      (confined_arrayFrom (fun _ => confined_uint32) 0 _).bind fun _ => Confined.pure _
  · exact Confined.pure _

theorem confined_deserialize (idx parentIdx : UInt32) : Confined (deserialize idx parentIdx) := by
  refine confined_string.bind fun name => ?_
  refine confined_uint32.bind fun code => ?_
  refine confined_uint32.bind fun ledsMin => ?_
  refine confined_uint32.bind fun ledsMax => ?_
  refine confined_uint32.bind fun ledsCount => ?_
  refine confined_uint16.bind fun matrixLength => ?_
  refine (confined_matrix matrixLength).bind fun block => ?_
  cases zoneTypeOf code with
  | some type => exact Confined.pure _
  | none => exact Confined.failure

end Zone

/-! ### Modes -/

namespace Mode

structure Sound (stray : UInt32 → Bool) (mode : Mode) : Prop where
  name : FitsString mode.name
  direction : isValidDirection stray mode.direction mode.flags = true
  colorMode : isValidColorMode mode.colorMode = true
  colors : FitsArray mode.colors

def received (version idx parentIdx : UInt32) (mode : Mode) : Mode :=
  if version ≥ 3 then { mode with idx, parentIdx }
  else { mode with idx, parentIdx, brightnessMin := 0, brightnessMax := 0, brightness := 0 }

theorem length_serialize (version : UInt32) (mode : Mode) :
    (mode.serialize version).length = mode.calcSize version := by
  simp only [serialize, calcSize, serializeBrightness, List.length_append, length_writeString,
    length_putUint32, length_colors]
  split_ifs
  · simp only [List.flatMap_cons, List.flatMap_nil, List.length_append, length_putUint32,
      List.length_nil]
    omega
  · simp only [List.length_nil]
    omega

theorem reads_brightness (version v : UInt32) :
    Reads (deserializeBrightness version) (serializeBrightness version [v])
      (if version ≥ 3 then v else 0) := by
  unfold deserializeBrightness serializeBrightness
  split_ifs
  · rw [List.flatMap_singleton]
    exact reads_uint32 v
  · exact Reads.pure 0

theorem serializeBrightness_cons (version v : UInt32) (values : List UInt32) :
    serializeBrightness version (v :: values) =
      serializeBrightness version [v] ++ serializeBrightness version values := by
  unfold serializeBrightness
  split_ifs <;> simp

theorem reads_serialize (stray : UInt32 → Bool) (version idx parentIdx : UInt32) {mode : Mode}
    (sound : mode.Sound stray) :
    Reads (deserialize version stray idx parentIdx) (mode.serialize version)
      (mode.received version idx parentIdx) := by
  have seen : mode.received version idx parentIdx =
      { mode with
        idx, parentIdx
        brightnessMin := if version ≥ 3 then mode.brightnessMin else 0
        brightnessMax := if version ≥ 3 then mode.brightnessMax else 0
        brightness := if version ≥ 3 then mode.brightness else 0 } := by
    unfold received
    split_ifs <;> rfl
  rw [seen, serialize, serializeBrightness_cons version mode.brightnessMin, List.append_assoc,
    ← List.append_nil (writeArray _ _)]
  refine (reads_string sound.name).bind ?_
  refine (reads_uint32 _).bind ?_
  refine (reads_uint32 _).bind ?_
  refine (reads_uint32 _).bind ?_
  refine (reads_uint32 _).bind ?_
  refine (reads_brightness _ _).bind ?_
  refine (reads_brightness _ _).bind ?_
  refine (reads_uint32 _).bind ?_
  refine (reads_uint32 _).bind ?_
  refine (reads_uint32 _).bind ?_
  refine (reads_brightness _ _).bind ?_
  refine (reads_uint32 _).bind ?_
  refine (reads_uint32 _).bind ?_
  refine (reads_colors sound.colors).bind ?_
  exact Reads.guarded sound.direction (Reads.guarded sound.colorMode (Reads.pure _))

theorem confined_brightness (version : UInt32) : Confined (deserializeBrightness version) := by
  unfold deserializeBrightness
  split_ifs
  · exact confined_uint32
  · exact Confined.pure 0

theorem confined_deserialize (stray : UInt32 → Bool) (version idx parentIdx : UInt32) :
    Confined (deserialize version stray idx parentIdx) := by
  refine confined_string.bind fun name => ?_
  refine confined_uint32.bind fun value => ?_
  refine confined_uint32.bind fun flags => ?_
  refine confined_uint32.bind fun speedMin => ?_
  refine confined_uint32.bind fun speedMax => ?_
  refine (confined_brightness version).bind fun brightnessMin => ?_
  refine (confined_brightness version).bind fun brightnessMax => ?_
  refine confined_uint32.bind fun colorsMin => ?_
  refine confined_uint32.bind fun colorsMax => ?_
  refine confined_uint32.bind fun speed => ?_
  refine (confined_brightness version).bind fun brightness => ?_
  refine confined_uint32.bind fun direction => ?_
  refine confined_uint32.bind fun colorMode => ?_
  refine confined_colors.bind fun colors => ?_
  exact (confined_guard _).bind fun _ => (confined_guard _).bind fun _ => Confined.pure _

end Mode

/-! ### Devices -/

namespace Device

structure Sound (stray : UInt32 → Bool) (device : Device) : Prop where
  name : FitsString device.name
  vendor : FitsString device.vendor
  description : FitsString device.description
  version : FitsString device.version
  serial : FitsString device.serial
  location : FitsString device.location
  numModes : FitsArray device.modes
  numZones : FitsArray device.zones
  numLeds : FitsArray device.leds
  numColors : FitsArray device.colors
  modes : ∀ mode ∈ device.modes, mode.Sound stray
  zones : ∀ zone ∈ device.zones, zone.Sound
  leds : ∀ led ∈ device.leds, led.Sound

def received (version deviceIdx : UInt32) (device : Device) : Device :=
  { device with
    idx := deviceIdx
    modes := indexed (fun i => Mode.received version (UInt32.ofNat i) deviceIdx) device.modes
    zones := indexed (fun i => Zone.received (UInt32.ofNat i) deviceIdx) device.zones
    leds := indexed (fun i => LED.received (UInt32.ofNat i) deviceIdx) device.leds }

variable (stray : UInt32 → Bool) (version : UInt32)

theorem length_serialize {device : Device} (sound : device.Sound stray) :
    (device.serialize version).length = device.calcSize version := by
  have modes : (device.modes.flatMap (Mode.serialize version)).length =
      (device.modes.map (Mode.calcSize version)).sum :=
    length_flatMap_of fun mode _ => mode.length_serialize version
  have zones : (writeArray Zone.serialize device.zones).length =
      sizeofArray Zone.calcSize device.zones :=
    length_writeArray fun zone among => Zone.length_serialize (sound.zones zone among)
  have leds : (writeArray LED.serialize device.leds).length =
      sizeofArray LED.calcSize device.leds :=
    length_writeArray fun led _ => led.length_serialize
  simp only [serialize, calcSize, List.length_append, length_putUint32, length_writeString,
    length_putUint16, modes, zones, leds, length_colors, sizeofArray]
  omega

theorem reads_serialize (deviceIdx : UInt32) {device : Device} (sound : device.Sound stray) :
    Reads (deserialize version stray deviceIdx) (device.serialize version)
      (device.received version deviceIdx) := by
  have modes := reads_array fun i mode among =>
    Mode.reads_serialize stray version (UInt32.ofNat i) deviceIdx (sound.modes mode among)
  rw [← sound.numModes.toNat] at modes
  have zones := reads_writeArray sound.numZones fun i zone among =>
    Zone.reads_serialize (UInt32.ofNat i) deviceIdx (sound.zones zone among)
  have leds := reads_writeArray sound.numLeds fun i led among =>
    LED.reads_serialize (UInt32.ofNat i) deviceIdx (sound.leds led among)
  refine (reads_uint32 _).bind ?_
  refine (reads_string sound.name).bind ?_
  refine (reads_string sound.vendor).bind ?_
  refine (reads_string sound.description).bind ?_
  refine (reads_string sound.version).bind ?_
  refine (reads_string sound.serial).bind ?_
  refine (reads_string sound.location).bind ?_
  refine (reads_uint16 _).bind ?_
  refine (reads_uint32 _).bind ?_
  refine modes.bind ?_
  refine zones.bind ?_
  refine leds.bind ?_
  exact (reads_colors sound.numColors).returning _

theorem confined_deserialize (deviceIdx : UInt32) :
    Confined (deserialize version stray deviceIdx) := by
  refine confined_uint32.bind fun type => ?_
  refine confined_string.bind fun name => ?_
  refine confined_string.bind fun vendor => ?_
  refine confined_string.bind fun description => ?_
  refine confined_string.bind fun version' => ?_
  refine confined_string.bind fun serial => ?_
  refine confined_string.bind fun location => ?_
  refine confined_uint16.bind fun numModes => ?_
  refine confined_uint32.bind fun activeMode => ?_
  refine (confined_arrayFrom (fun i => Mode.confined_deserialize stray version _ _) 0 _).bind
    fun modes => ?_
  refine (confined_readArray fun i => Zone.confined_deserialize _ _).bind fun zones => ?_
  refine (confined_readArray fun i => LED.confined_deserialize _ _).bind fun leds => ?_
  exact confined_colors.bind fun colors => Confined.pure _

end Device

/-! ### What is accepted -/

theorem yields_string : Yields readString FitsString := by
  refine (Yields.anything uint16).bind fun size _ => (yields_takeBytes _).bind fun str taken => ?_
  refine (yields_takeBytes 1).bind fun _ _ => Yields.pure ?_
  have bound := size.toNat_lt
  unfold FitsString
  split_ifs at taken <;> omega

section Arrays

variable {α : Type}

theorem yields_readArray {element : ℕ → Reader α} {P : ℕ → α → Prop}
    (each : ∀ i, Yields (element i) (P i)) :
    Yields (readArray element) fun vec =>
      FitsArray vec ∧ ∀ (i : ℕ) (inside : i < vec.length), P i vec[i] :=
  (Yields.anything uint16).bind fun size _ bytes vec rest found =>
    have accepted := yields_array each size.toNat bytes vec rest found
    ⟨lt_of_eq_of_lt accepted.1 size.toNat_lt, accepted.2⟩

end Arrays

theorem yields_colors : Yields (readArray fun _ => Color.deserialize) FitsArray := fun bytes vec
    rest found => (yields_readArray (fun _ => Yields.anything _) bytes vec rest found).1

theorem LED.yields_deserialize (idx parentIdx : UInt32) :
    Yields (deserialize idx parentIdx) fun led => led.Sound ∧ led.received idx parentIdx = led :=
  yields_string.bind fun _ fits => (Yields.anything uint32).bind fun _ _ => Yields.pure ⟨fits, rfl⟩

namespace Zone

/-- The matrix has as many values as its sides say. -/
def Filled (zone : Zone) : Prop :=
  (zone.matrixHeight * zone.matrixWidth).toNat = zone.matrixValues.length

theorem yields_matrix (matrixLength : UInt16) :
    Yields (deserializeMatrix matrixLength) fun block =>
      (block.1 * block.2.1).toNat = block.2.2.length := by
  unfold deserializeMatrix
  split_ifs
  · refine (Yields.anything uint32).bind fun h _ => (Yields.anything uint32).bind fun w _ => ?_
    refine (yields_array (fun _ => Yields.anything uint32) _).bind fun values counted => ?_
    exact Yields.pure counted.1.symm
  · exact Yields.pure rfl

theorem yields_deserialize (idx parentIdx : UInt32) :
    Yields (deserialize idx parentIdx) fun zone =>
      FitsString zone.name ∧ zone.Filled ∧ zone.received idx parentIdx = zone := by
  refine yields_string.bind fun name fits => ?_
  refine (Yields.anything uint32).bind fun code _ => ?_
  refine (Yields.anything uint32).bind fun ledsMin _ => ?_
  refine (Yields.anything uint32).bind fun ledsMax _ => ?_
  refine (Yields.anything uint32).bind fun ledsCount _ => ?_
  refine (Yields.anything uint16).bind fun matrixLength _ => ?_
  refine (yields_matrix matrixLength).bind fun block filled => ?_
  cases zoneTypeOf code with
  | some type => exact Yields.pure ⟨fits, filled, rfl⟩
  | none => exact Yields.failure _

end Zone

namespace Mode

theorem yields_brightness (version : UInt32) :
    Yields (deserializeBrightness version) fun v => ¬ version ≥ 3 → v = 0 := by
  unfold deserializeBrightness
  split_ifs with recent
  · exact fun _ _ _ _ old => absurd recent old
  · exact Yields.pure fun _ => rfl

theorem yields_deserialize (stray : UInt32 → Bool) (version idx parentIdx : UInt32) :
    Yields (deserialize version stray idx parentIdx) fun mode =>
      mode.Sound stray ∧ mode.received version idx parentIdx = mode := by
  refine yields_string.bind fun name fits => ?_
  refine (Yields.anything uint32).bind fun value _ => ?_
  refine (Yields.anything uint32).bind fun flags _ => ?_
  refine (Yields.anything uint32).bind fun speedMin _ => ?_
  refine (Yields.anything uint32).bind fun speedMax _ => ?_
  refine (yields_brightness version).bind fun brightnessMin least => ?_
  refine (yields_brightness version).bind fun brightnessMax most => ?_
  refine (Yields.anything uint32).bind fun colorsMin _ => ?_
  refine (Yields.anything uint32).bind fun colorsMax _ => ?_
  refine (Yields.anything uint32).bind fun speed _ => ?_
  refine (yields_brightness version).bind fun brightness set => ?_
  refine (Yields.anything uint32).bind fun direction _ => ?_
  refine (Yields.anything uint32).bind fun colorMode _ => ?_
  refine yields_colors.bind fun colors few => ?_
  refine (yields_guard _).bind fun _ pointed => (yields_guard _).bind fun _ coloured => ?_
  refine Yields.pure ⟨⟨fits, pointed, coloured, few⟩, ?_⟩
  unfold received
  split_ifs with recent
  · rfl
  · rw [least recent, most recent, set recent]

end Mode

namespace Device

variable {stray : UInt32 → Bool} {version deviceIdx : UInt32}

/-- What the reader promises of a description: all that `Sound` asks for, but that a matrix may be
one that the writer leaves out. -/
structure Accepted (stray : UInt32 → Bool) (version deviceIdx : UInt32) (device : Device) :
    Prop where
  numbered : device.received version deviceIdx = device
  name : FitsString device.name
  vendor : FitsString device.vendor
  description : FitsString device.description
  version : FitsString device.version
  serial : FitsString device.serial
  location : FitsString device.location
  numModes : FitsArray device.modes
  numZones : FitsArray device.zones
  numLeds : FitsArray device.leds
  numColors : FitsArray device.colors
  modes : ∀ mode ∈ device.modes, mode.Sound stray
  zones : ∀ zone ∈ device.zones, FitsString zone.name ∧ zone.Filled
  leds : ∀ led ∈ device.leds, led.Sound

theorem yields_deserialize (stray : UInt32 → Bool) (version deviceIdx : UInt32) :
    Yields (deserialize version stray deviceIdx) (Accepted stray version deviceIdx) := by
  refine (Yields.anything uint32).bind fun type _ => ?_
  refine yields_string.bind fun name nameFits => ?_
  refine yields_string.bind fun vendor vendorFits => ?_
  refine yields_string.bind fun description descriptionFits => ?_
  refine yields_string.bind fun version' versionFits => ?_
  refine yields_string.bind fun serial serialFits => ?_
  refine yields_string.bind fun location locationFits => ?_
  refine (Yields.anything uint16).bind fun numModes _ => ?_
  refine (Yields.anything uint32).bind fun activeMode _ => ?_
  refine (yields_array (fun i => Mode.yields_deserialize stray version (UInt32.ofNat i) deviceIdx)
    _).bind fun modes readModes => ?_
  refine (yields_readArray fun i => Zone.yields_deserialize (UInt32.ofNat i) deviceIdx).bind
    fun zones readZones => ?_
  refine (yields_readArray fun i => LED.yields_deserialize (UInt32.ofNat i) deviceIdx).bind
    fun leds readLeds => ?_
  refine yields_colors.bind fun colors few => Yields.pure ?_
  refine ⟨?_, nameFits, vendorFits, descriptionFits, versionFits, serialFits, locationFits,
    lt_of_eq_of_lt readModes.1 numModes.toNat_lt, readZones.1, readLeds.1, few, ?_, ?_, ?_⟩
  · have modesSame := indexed_eq_self fun i inside => (readModes.2 i inside).2
    have zonesSame := indexed_eq_self fun i inside => (readZones.2 i inside).2.2
    have ledsSame := indexed_eq_self fun i inside => (readLeds.2 i inside).2
    unfold received
    rw [modesSame, zonesSame, ledsSame]
  · intro mode among
    obtain ⟨i, inside, rfl⟩ := List.getElem_of_mem among
    exact (readModes.2 i inside).1
  · intro zone among
    obtain ⟨i, inside, rfl⟩ := List.getElem_of_mem among
    exact ⟨(readZones.2 i inside).1, (readZones.2 i inside).2.1⟩
  · intro led among
    obtain ⟨i, inside, rfl⟩ := List.getElem_of_mem among
    exact (readLeds.2 i inside).1

theorem Accepted.sound {device : Device} (accepted : device.Accepted stray version deviceIdx)
    (matrices : ∀ zone ∈ device.zones, zone.MatrixSound) : device.Sound stray :=
  { accepted with
    zones := fun zone among => ⟨(accepted.zones zone among).1, matrices zone among⟩ }

end Device

/-! ### The results -/

/-- A sound description is written in the announced number of bytes, is read back from them
whatever follows, and from nothing shorter. -/
theorem device_round_trip (stray : UInt32 → Bool) (version deviceIdx : UInt32) (device : Device)
    (sound : device.Sound stray) :
    (device.serialize version).length = device.calcSize version ∧
      (∀ rest, (Device.deserialize version stray deviceIdx).run (device.serialize version ++ rest) =
        some (device.received version deviceIdx, rest)) ∧
      ∀ n < device.calcSize version,
        (Device.deserialize version stray deviceIdx).run ((device.serialize version).take n) =
          none := by
  have size := Device.length_serialize stray version sound
  have reads := Device.reads_serialize stray version deviceIdx sound
  refine ⟨size, reads, fun n short => ?_⟩
  exact reads.truncated (Device.confined_deserialize stray version deviceIdx) (size ▸ short)

/-- A mode of version 2 loses its brightness, and what is numbered 7 by the writer is numbered by
its place. -/
theorem device_round_trip_old :
    let mode : Mode := ⟨7, 7, [0x61], 1, 0, 0, 0, 4, 5, 0, 0, 0, 6, 9, 1, [⟨1, 2, 3, 0⟩]⟩
    let device : Device := ⟨7, 1, [], [], [], [], [], [], 0, [mode], [], [], []⟩
    (device.serialize 2).length = device.calcSize 2 ∧
      (∀ rest, (Device.deserialize 2 (fun _ => false) 0).run (device.serialize 2 ++ rest) =
        some (device.received 2 0, rest)) ∧
      ∀ n < device.calcSize 2,
        (Device.deserialize 2 (fun _ => false) 0).run ((device.serialize 2).take n) = none := by
  intro mode device
  refine device_round_trip (fun _ => false) 2 0 device ⟨?_, ?_, ?_, ?_, ?_, ?_, ?_, ?_, ?_, ?_,
    ?_, ?_, ?_⟩
  case refine_11 =>
    intro m among
    obtain rfl := List.mem_singleton.mp among
    exact ⟨by decide, by decide, by decide, by decide⟩
  case refine_12 => exact fun zone among => absurd among List.not_mem_nil
  case refine_13 => exact fun led among => absurd among List.not_mem_nil
  all_goals decide

/-- Whatever bytes are accepted as a description, its parts carry their own indices and the
device's, and where the matrices are such that the writer keeps them the description is written
and read back unchanged. -/
theorem accepted_device (stray : UInt32 → Bool) (version deviceIdx : UInt32)
    (bytes rest : List UInt8) (device : Device)
    (found : (Device.deserialize version stray deviceIdx).run bytes = some (device, rest)) :
    device.Accepted stray version deviceIdx ∧
      ((∀ zone ∈ device.zones, zone.MatrixSound) → ∀ more,
        (Device.deserialize version stray deviceIdx).run (device.serialize version ++ more) =
          some (device, more)) := by
  have accepted := Device.yields_deserialize stray version deviceIdx _ _ _ found
  refine ⟨accepted, fun matrices more => ?_⟩
  have reads := Device.reads_serialize stray version deviceIdx (accepted.sound matrices)
  rw [accepted.numbered] at reads
  exact reads more

/-- A description with one LED, whose sender left bytes behind it. -/
theorem accepted_device_led :
    let device : Device :=
      ⟨9, 1, [], [], [], [], [], [], 0, [], [], [⟨0, 9, [0x61], 5⟩], []⟩
    device.Accepted (fun _ => false) 3 9 ∧
      ((∀ zone ∈ device.zones, zone.MatrixSound) → ∀ more,
        (Device.deserialize 3 (fun _ => false) 9).run (device.serialize 3 ++ more) =
          some (device, more)) := by
  exact accepted_device (fun _ => false) 3 9
    ([1, 0, 0, 0] ++ (List.replicate 6 [1, 0, 0]).flatten ++ [0, 0, 0, 0, 0, 0, 0, 0] ++
      [1, 0, 2, 0, 0x61, 0, 5, 0, 0, 0] ++ [0, 0] ++ [255]) [255] _ (by decide)

end Listeningway.OpenRgb
