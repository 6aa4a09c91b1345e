/- Listeningway/OpenRgb/DeviceInfo
   source: third_party/Youda008-OpenRGB-cppSDK: include/OpenRGB/DeviceInfo.hpp, Color.hpp;
     src/DeviceInfo.cpp, Color.cpp, ProtocolCommon.hpp; external/CppUtils-Essential/BinaryStream
   digest: The device descriptions of the OpenRGB client, written to a stream and read from one. -/

import Listeningway.Lib.ByteStream

/-!
The input stream keeps one failed flag, and every caller drops what it read once the flag is
set: a reader that fails stands for it. A `std::string` is its bytes.
-/

set_option autoImplicit false
set_option relaxedAutoImplicit false

namespace Listeningway.OpenRgb

open Listeningway.Lib.ByteStream

abbrev Text := List UInt8

/-! ### Strings and arrays of the protocol -/

def sizeofString (str : Text) : ℕ := 2 + str.length + 1

def writeString (str : Text) : List UInt8 :=
  putUint16 (UInt16.ofNat (str.length + 1)) ++ (str ++ [0])

def readString : Reader Text := do
  let size ← uint16
  let str ← takeBytes (if size > 0 then size.toNat - 1 else 0)
  let _ ← takeBytes 1
  return str

section Arrays

variable {α β : Type}

def sizeofArray (calcSize : α → ℕ) (vec : List α) : ℕ := 2 + (vec.map calcSize).sum

def writeArray (serialize : α → List UInt8) (vec : List α) : List UInt8 :=
  putUint16 (UInt16.ofNat vec.length) ++ vec.flatMap serialize

def readArray (deserialize : ℕ → Reader α) : Reader (List α) := do
  let size ← uint16
  readArrayFrom deserialize 0 size.toNat

end Arrays

/-! ### Enumerations -/

/-- The bits of `ModeFlags` that allow a direction. -/
def HasDirectionLR : UInt32 := (1 : UInt32) <<< 1

def HasDirectionUD : UInt32 := (1 : UInt32) <<< 2

def HasDirectionHV : UInt32 := (1 : UInt32) <<< 3

/-- `isValidDirection`: the entry of `allowedDirections` at `dir`, which `stray` gives where `dir`
is no index of that array. -/
def isValidDirection (stray : UInt32 → Bool) (dir modeFlags : UInt32) : Bool :=
  let lr := modeFlags &&& HasDirectionLR ≠ 0
  let ud := modeFlags &&& HasDirectionUD ≠ 0
  let hv := modeFlags &&& HasDirectionHV ≠ 0
  if ¬ (lr ∨ ud ∨ hv) then true
  else
    match dir.toNat with
    | 0 | 1 => lr
    | 2 | 3 => ud
    | 4 | 5 => hv
    | _ => stray dir

/-- `ColorMode::Random` is the last. -/
def isValidColorMode (mode : UInt32) : Bool := mode ≤ 3

inductive ZoneType where
  | single
  | linear
  | matrix
  deriving DecidableEq, Repr

def ZoneType.code : ZoneType → UInt32
  | single => 0
  | linear => 1
  | matrix => 2

/-- `isValidZoneType`, and the type it lets through. -/
def zoneTypeOf (code : UInt32) : Option ZoneType :=
  if code = 0 then some .single
  else if code = 1 then some .linear
  else if code = 2 then some .matrix
  else none

/-! ### The descriptions -/

structure Color where
  r : UInt8
  g : UInt8
  b : UInt8
  padding : UInt8
  deriving DecidableEq, Repr

structure LED where
  idx : UInt32
  parentIdx : UInt32
  name : Text
  value : UInt32
  deriving DecidableEq, Repr

structure Zone where
  idx : UInt32
  parentIdx : UInt32
  name : Text
  type : ZoneType
  ledsMin : UInt32
  ledsMax : UInt32
  ledsCount : UInt32
  matrixHeight : UInt32
  matrixWidth : UInt32
  matrixValues : List UInt32
  deriving DecidableEq, Repr

structure Mode where
  idx : UInt32
  parentIdx : UInt32
  name : Text
  value : UInt32
  flags : UInt32
  speedMin : UInt32
  speedMax : UInt32
  brightnessMin : UInt32
  brightnessMax : UInt32
  colorsMin : UInt32
  colorsMax : UInt32
  speed : UInt32
  brightness : UInt32
  direction : UInt32
  colorMode : UInt32
  colors : List Color
  deriving DecidableEq, Repr

structure Device where
  idx : UInt32
  type : UInt32
  name : Text
  vendor : Text
  description : Text
  version : Text
  serial : Text
  location : Text
  activeMode : UInt32
  modes : List Mode
  zones : List Zone
  leds : List LED
  colors : List Color
  deriving DecidableEq, Repr

/-! ### Colours -/

namespace Color

def calcSize (_ : Color) : ℕ := 1 + 1 + 1 + 1

def serialize (color : Color) : List UInt8 :=
  putUint8 color.r ++ (putUint8 color.g ++ (putUint8 color.b ++ putUint8 color.padding))

def deserialize : Reader Color := do
  let r ← uint8
  let g ← uint8
  let b ← uint8
  let padding ← uint8
  return { r, g, b, padding }

end Color

/-! ### LEDs -/

namespace LED

def calcSize (led : LED) : ℕ := sizeofString led.name + 4

def serialize (led : LED) : List UInt8 := writeString led.name ++ putUint32 led.value

def deserialize (idx parentIdx : UInt32) : Reader LED := do
  let name ← readString
  let value ← uint32
  return { idx, parentIdx, name, value }

end LED

/-! ### Zones -/

namespace Zone

def calcSize (zone : Zone) : ℕ :=
  sizeofString zone.name + 4 + 4 + 4 + 4 + 2 +
    (if zone.matrixValues.length > 0 then 4 + 4 + 4 * zone.matrixValues.length else 0)

/-- The length of the optional matrix block, cut to 16 bits. -/
def matrixLength (zone : Zone) : UInt16 :=
  UInt16.ofNat (if zone.matrixValues.length > 0 then 4 + 4 + 4 * zone.matrixValues.length else 0)

def serialize (zone : Zone) : List UInt8 :=
  writeString zone.name ++ (putUint32 zone.type.code ++ (putUint32 zone.ledsMin ++
    (putUint32 zone.ledsMax ++ (putUint32 zone.ledsCount ++ (putUint16 zone.matrixLength ++
      (if zone.matrixLength > 0 then
        putUint32 zone.matrixHeight ++ (putUint32 zone.matrixWidth ++
          zone.matrixValues.flatMap putUint32)
      else []))))))

/-- The optional matrix block; the number of its values is a product of 32 bits. -/
def deserializeMatrix (matrixLength : UInt16) : Reader (UInt32 × UInt32 × List UInt32) :=
  if matrixLength > 0 then do
    let matrixHeight ← uint32
    let matrixWidth ← uint32
    let matrixValues ← readArrayFrom (fun _ => uint32) 0 (matrixHeight * matrixWidth).toNat
    return (matrixHeight, matrixWidth, matrixValues)
  else return (0, 0, [])

def deserialize (idx parentIdx : UInt32) : Reader Zone := do
  let name ← readString
  let code ← uint32
  let ledsMin ← uint32
  let ledsMax ← uint32
  let ledsCount ← uint32
  let matrixLength ← uint16
  let (matrixHeight, matrixWidth, matrixValues) ← deserializeMatrix matrixLength
  match zoneTypeOf code with
  | some type =>
    return { idx, parentIdx, name, type, ledsMin, ledsMax, ledsCount, matrixHeight, matrixWidth,
             matrixValues }
  | none => failure

end Zone

/-! ### Modes -/

namespace Mode

variable (version : UInt32)

def calcSize (mode : Mode) : ℕ :=
  sizeofString mode.name + 4 + 4 + 4 + 4 + (if version ≥ 3 then 4 + 4 else 0) + 4 + 4 + 4 +
    (if version ≥ 3 then 4 else 0) + 4 + 4 + sizeofArray Color.calcSize mode.colors

/-- The fields that the protocol has from version 3 on. -/
def serializeBrightness (values : List UInt32) : List UInt8 :=
  if version ≥ 3 then values.flatMap putUint32 else []

def serialize (mode : Mode) : List UInt8 :=
  writeString mode.name ++ (putUint32 mode.value ++ (putUint32 mode.flags ++
    (putUint32 mode.speedMin ++ (putUint32 mode.speedMax ++
      (serializeBrightness version [mode.brightnessMin, mode.brightnessMax] ++
        (putUint32 mode.colorsMin ++ (putUint32 mode.colorsMax ++ (putUint32 mode.speed ++
          (serializeBrightness version [mode.brightness] ++ (putUint32 mode.direction ++
            (putUint32 mode.colorMode ++ writeArray Color.serialize mode.colors)))))))))))

/-- A field that the protocol has from version 3 on, zero before. -/
def deserializeBrightness : Reader UInt32 := if version ≥ 3 then uint32 else return 0

def deserialize (stray : UInt32 → Bool) (idx parentIdx : UInt32) : Reader Mode := do
  let name ← readString
  let value ← uint32
  let flags ← uint32
  let speedMin ← uint32
  let speedMax ← uint32
  let brightnessMin ← deserializeBrightness version
  let brightnessMax ← deserializeBrightness version
  let colorsMin ← uint32
  let colorsMax ← uint32
  let speed ← uint32
  let brightness ← deserializeBrightness version
  let direction ← uint32
  let colorMode ← uint32
  let colors ← readArray fun _ => Color.deserialize
  guard (isValidDirection stray direction flags)
  guard (isValidColorMode colorMode)
  return { idx, parentIdx, name, value, flags, speedMin, speedMax, brightnessMin, brightnessMax,
           colorsMin, colorsMax, speed, brightness, direction, colorMode, colors }

end Mode

/-! ### Devices -/

namespace Device

variable (version : UInt32)

def calcSize (device : Device) : ℕ :=
  4 + sizeofString device.name + sizeofString device.vendor + sizeofString device.description +
    sizeofString device.version + sizeofString device.serial + sizeofString device.location + 4 +
    sizeofArray (Mode.calcSize version) device.modes + sizeofArray Zone.calcSize device.zones +
    sizeofArray LED.calcSize device.leds + sizeofArray Color.calcSize device.colors

/-- The number of modes stands before `active_mode`, apart from the modes. -/
def serialize (device : Device) : List UInt8 :=
  putUint32 device.type ++ (writeString device.name ++ (writeString device.vendor ++
    (writeString device.description ++ (writeString device.version ++
      (writeString device.serial ++ (writeString device.location ++
        (putUint16 (UInt16.ofNat device.modes.length) ++ (putUint32 device.activeMode ++
          (device.modes.flatMap (Mode.serialize version) ++
            (writeArray Zone.serialize device.zones ++ (writeArray LED.serialize device.leds ++
              writeArray Color.serialize device.colors)))))))))))

def deserialize (stray : UInt32 → Bool) (deviceIdx : UInt32) : Reader Device := do
  let type ← uint32
  let name ← readString
  let vendor ← readString
  let description ← readString
  let version' ← readString
  let serial ← readString
  let location ← readString
  let numModes ← uint16
  let activeMode ← uint32
  let modes ← readArrayFrom
    (fun i => Mode.deserialize version stray (UInt32.ofNat i) deviceIdx) 0 numModes.toNat
  let zones ← readArray fun i => Zone.deserialize (UInt32.ofNat i) deviceIdx
  let leds ← readArray fun i => LED.deserialize (UInt32.ofNat i) deviceIdx
  let colors ← readArray fun _ => Color.deserialize
  return { idx := deviceIdx, type, name, vendor, description, version := version', serial,
           location, activeMode, modes, zones, leds, colors }

end Device

end Listeningway.OpenRgb
