/- Listeningway/OpenRgb/ProtocolMessages
   source: third_party/Youda008-OpenRGB-cppSDK: src/ProtocolMessages.hpp, ProtocolMessages.cpp,
     Client.cpp; external/CppUtils-Essential/BinaryStream
   digest: The messages between the OpenRGB client and its server, and how one is sent. -/

import Listeningway.OpenRgb.DeviceRoundTrip

/-!
A request and its reply share a message type. `data_size` is the header's `message_size` once
more, but for the reply with the profiles, whose constructor does not set it; no reader looks at
it.
-/

set_option autoImplicit false
set_option relaxedAutoImplicit false

namespace Listeningway.OpenRgb

open Listeningway.Lib.ByteStream

def implementedProtocolVersion : UInt32 := 3

/-! ### The header -/

inductive MessageType where
  | requestControllerCount
  | requestControllerData
  | requestProtocolVersion
  | setClientName
  | deviceListUpdated
  | requestProfileList
  | requestSaveProfile
  | requestLoadProfile
  | requestDeleteProfile
  | rgbControllerResizeZone
  | rgbControllerUpdateLeds
  | rgbControllerUpdateZoneLeds
  | rgbControllerUpdateSingleLed
  | rgbControllerSetCustomMode
  | rgbControllerUpdateMode
  | rgbControllerSaveMode
  deriving DecidableEq, Repr

namespace MessageType

def code : MessageType → UInt32
  | requestControllerCount => 0
  | requestControllerData => 1
  | requestProtocolVersion => 40
  | setClientName => 50
  | deviceListUpdated => 100
  | requestProfileList => 150
  | requestSaveProfile => 151
  | requestLoadProfile => 152
  | requestDeleteProfile => 153
  | rgbControllerResizeZone => 1000
  | rgbControllerUpdateLeds => 1050
  | rgbControllerUpdateZoneLeds => 1051
  | rgbControllerUpdateSingleLed => 1052
  | rgbControllerSetCustomMode => 1100
  | rgbControllerUpdateMode => 1101
  | rgbControllerSaveMode => 1102

/-- `isValidMessageType`, and the type it lets through. -/
def ofCode (code : UInt32) : Option MessageType :=
  match code.toNat with
  | 0 => some requestControllerCount
  | 1 => some requestControllerData
  | 40 => some requestProtocolVersion
  | 50 => some setClientName
  | 100 => some deviceListUpdated
  | 150 => some requestProfileList
  | 151 => some requestSaveProfile
  | 152 => some requestLoadProfile
  | 153 => some requestDeleteProfile
  | 1000 => some rgbControllerResizeZone
  | 1050 => some rgbControllerUpdateLeds
  | 1051 => some rgbControllerUpdateZoneLeds
  | 1052 => some rgbControllerUpdateSingleLed
  | 1100 => some rgbControllerSetCustomMode
  | 1101 => some rgbControllerUpdateMode
  | 1102 => some rgbControllerSaveMode
  | _ => none

theorem ofCode_code (type : MessageType) : ofCode type.code = some type := by
  cases type <;> rfl

end MessageType

structure Header where
  deviceIdx : UInt32
  messageType : MessageType
  messageSize : UInt32
  deriving DecidableEq, Repr

namespace Header

def size : ℕ := 16

/-- `ORGB`. -/
def magic : List UInt8 := [0x4F, 0x52, 0x47, 0x42]

def serialize (header : Header) : List UInt8 :=
  magic ++ (putUint32 header.deviceIdx ++ (putUint32 header.messageType.code ++
    putUint32 header.messageSize))

def deserialize : Reader Header := do
  let magic' ← takeBytes 4
  let deviceIdx ← uint32
  let code ← uint32
  let messageSize ← uint32
  guard (magic' = magic)
  match MessageType.ofCode code with
  | some messageType => return { deviceIdx, messageType, messageSize }
  | none => failure

theorem length_serialize (header : Header) : header.serialize.length = size := by
  simp [serialize, magic, size]

theorem reads_serialize (header : Header) : Reads deserialize header.serialize header := by
  unfold serialize
  rw [← List.append_nil (putUint32 header.messageSize)]
  refine (reads_takeBytes magic).bind ?_
  refine (reads_uint32 _).bind ?_
  refine (reads_uint32 _).bind ?_
  refine (reads_uint32 _).bind ?_
  refine Reads.guarded rfl ?_
  rw [MessageType.ofCode_code]
  exact Reads.pure header

end Header

/-! ### Texts up to a zero -/

def writeString0 (str : Text) : List UInt8 := str ++ [0]

def readString0 : Reader Text := fun bytes =>
  let size := bytes.findIdx (· = 0)
  if size < bytes.length then some (bytes.take size, bytes.drop (size + 1)) else none

theorem reads_string0 {str : Text} (clean : 0 ∉ str) :
    Reads readString0 (writeString0 str) str := by
  intro rest
  have size : (writeString0 str ++ rest).findIdx (· = 0) = str.length := by
    rw [writeString0, List.append_assoc, List.findIdx_append, List.findIdx_eq_length_of_false]
    · simp [List.findIdx_cons]
    · intro b among
      simpa using fun zero : b = 0 => clean (zero ▸ among)
  have inside : str.length < (writeString0 str ++ rest).length := by
    simp [writeString0]
  change (if _ then _ else _) = _
  rw [size, if_pos inside, writeString0, List.append_assoc, List.take_left]
  simp [List.drop_append]

/-- The frame of `awaitMessage`: the header is read from a buffer of its own, then the body from
one of the size it announces. -/
def receive {α : Type} (deserializeBody : Header → Reader α) : Reader α := do
  let header ← Header.deserialize
  let bodyBuffer ← takeBytes header.messageSize.toNat
  match (deserializeBody header).run bodyBuffer with
  | some (message, _) => return message
  | none => failure

/-! ### What the client sends -/

inductive Request where
  | controllerCount
  | controllerData (deviceIdx protocolVersion : UInt32)
  | protocolVersion (clientVersion : UInt32)
  | setClientName (name : Text)
  | resizeZone (deviceIdx zoneIdx newSize : UInt32)
  | updateLEDs (deviceIdx : UInt32) (colors : List Color)
  | updateZoneLEDs (deviceIdx zoneIdx : UInt32) (colors : List Color)
  | updateSingleLED (deviceIdx ledIdx : UInt32) (color : Color)
  | setCustomMode (deviceIdx : UInt32)
  | updateMode (deviceIdx modeIdx : UInt32) (mode : Mode)
  | saveMode (deviceIdx modeIdx : UInt32) (mode : Mode)
  | profileList
  | saveProfile (profileName : Text)
  | loadProfile (profileName : Text)
  | deleteProfile (profileName : Text)
  deriving DecidableEq, Repr

namespace Request

def messageType : Request → MessageType
  | controllerCount => .requestControllerCount
  | controllerData .. => .requestControllerData
  | protocolVersion _ => .requestProtocolVersion
  | setClientName _ => .setClientName
  | resizeZone .. => .rgbControllerResizeZone
  | updateLEDs .. => .rgbControllerUpdateLeds
  | updateZoneLEDs .. => .rgbControllerUpdateZoneLeds
  | updateSingleLED .. => .rgbControllerUpdateSingleLed
  | setCustomMode _ => .rgbControllerSetCustomMode
  | updateMode .. => .rgbControllerUpdateMode
  | saveMode .. => .rgbControllerSaveMode
  | profileList => .requestProfileList
  | saveProfile _ => .requestSaveProfile
  | loadProfile _ => .requestLoadProfile
  | deleteProfile _ => .requestDeleteProfile

/-- The `device_idx` of the header. -/
def deviceIdx : Request → UInt32
  | controllerData deviceIdx _ | resizeZone deviceIdx _ _ | updateLEDs deviceIdx _
  | updateZoneLEDs deviceIdx _ _ | updateSingleLED deviceIdx _ _ | setCustomMode deviceIdx
  | updateMode deviceIdx _ _ | saveMode deviceIdx _ _ => deviceIdx
  | _ => 0

/-- The size before it is cut to 32 bits. -/
def dataSize (version : UInt32) : Request → ℕ
  | controllerCount | setCustomMode _ | profileList => 0
  | controllerData .. | protocolVersion _ => 4
  | setClientName name => name.length + 1
  | resizeZone .. => 4 + 4
  | updateLEDs _ colors => 4 + sizeofArray Color.calcSize colors
  | updateZoneLEDs _ _ colors => 4 + 4 + sizeofArray Color.calcSize colors
  | updateSingleLED _ _ color => 4 + color.calcSize
  | updateMode _ _ mode | saveMode _ _ mode => 4 + 4 + mode.calcSize version
  | saveProfile profileName | loadProfile profileName | deleteProfile profileName =>
    profileName.length + 1

def calcDataSize (version : UInt32) (request : Request) : UInt32 :=
  UInt32.ofNat (request.dataSize version)

def header (version : UInt32) (request : Request) : Header where
  deviceIdx := request.deviceIdx
  messageType := request.messageType
  messageSize := request.calcDataSize version

/-- What `serialize` writes behind the header. -/
def serializeBody (version : UInt32) (request : Request) : List UInt8 :=
  match request with
  | controllerCount | setCustomMode _ | profileList => []
  | controllerData _ asked => putUint32 asked
  | protocolVersion clientVersion => putUint32 clientVersion
  | setClientName name => writeString0 name
  | resizeZone _ zoneIdx newSize => putUint32 zoneIdx ++ putUint32 newSize
  | updateLEDs _ colors =>
    putUint32 (request.calcDataSize version) ++ writeArray Color.serialize colors
  | updateZoneLEDs _ zoneIdx colors =>
    putUint32 (request.calcDataSize version) ++ (putUint32 zoneIdx ++
      writeArray Color.serialize colors)
  | updateSingleLED _ ledIdx color => putUint32 ledIdx ++ color.serialize
  | updateMode _ modeIdx mode | saveMode _ modeIdx mode =>
    putUint32 (request.calcDataSize version) ++ (putUint32 modeIdx ++ mode.serialize version)
  | saveProfile profileName | loadProfile profileName | deleteProfile profileName =>
    writeString0 profileName

def serialize (version : UInt32) (request : Request) : List UInt8 :=
  (request.header version).serialize ++ request.serializeBody version

/-- `UpdateMode` and `SaveMode` hand `Mode::deserialize` its arguments in another order than it
takes them: the index of the mode as the version, the device as the index, the version as the
parent. -/
def deserializeMode (version : UInt32) (stray : UInt32 → Bool) (header : Header) :
    Reader (UInt32 × Mode) := do
  let _dataSize ← uint32
  let modeIdx ← uint32
  let mode ← Mode.deserialize modeIdx stray header.deviceIdx version
  return (modeIdx, mode)

/-- `deserializeBody` of the request that the header announces. -/
def deserializeBody (version : UInt32) (stray : UInt32 → Bool) (header : Header) :
    Reader Request :=
  match header.messageType with
  | .requestControllerCount => return controllerCount
  | .requestControllerData => return controllerData header.deviceIdx (← uint32)
  | .requestProtocolVersion => return protocolVersion (← uint32)
  | .setClientName => return setClientName (← readString0)
  | .rgbControllerResizeZone => do
    let zoneIdx ← uint32
    let newSize ← uint32
    return resizeZone header.deviceIdx zoneIdx newSize
  | .rgbControllerUpdateLeds => do
    let _dataSize ← uint32
    let colors ← readArray fun _ => Color.deserialize
    return updateLEDs header.deviceIdx colors
  | .rgbControllerUpdateZoneLeds => do
    let _dataSize ← uint32
    let zoneIdx ← uint32
    let colors ← readArray fun _ => Color.deserialize
    return updateZoneLEDs header.deviceIdx zoneIdx colors
  | .rgbControllerUpdateSingleLed => do
    let ledIdx ← uint32
    let color ← Color.deserialize
    return updateSingleLED header.deviceIdx ledIdx color
  | .rgbControllerSetCustomMode => return setCustomMode header.deviceIdx
  | .rgbControllerUpdateMode => do
    let (modeIdx, mode) ← deserializeMode version stray header
    return updateMode header.deviceIdx modeIdx mode
  | .rgbControllerSaveMode => do
    let (modeIdx, mode) ← deserializeMode version stray header
    return saveMode header.deviceIdx modeIdx mode
  | .requestProfileList => return profileList
  | .requestSaveProfile => return saveProfile (← readString0)
  | .requestLoadProfile => return loadProfile (← readString0)
  | .requestDeleteProfile => return deleteProfile (← readString0)
  | .deviceListUpdated => failure

end Request

/-! ### What the server sends -/

inductive Reply where
  | controllerCount (count : UInt32)
  | controllerData (deviceIdx : UInt32) (device : Device)
  | protocolVersion (serverVersion : UInt32)
  | deviceListUpdated
  | profileList (dataSize : UInt32) (profiles : List Text)
  deriving DecidableEq, Repr

namespace Reply

def messageType : Reply → MessageType
  | controllerCount _ => .requestControllerCount
  | controllerData .. => .requestControllerData
  | protocolVersion _ => .requestProtocolVersion
  | deviceListUpdated => .deviceListUpdated
  | profileList .. => .requestProfileList

def deviceIdx : Reply → UInt32
  | controllerData deviceIdx _ => deviceIdx
  | _ => 0

/-- The size before it is cut to 32 bits. -/
def dataSize (version : UInt32) : Reply → ℕ
  | controllerCount _ | protocolVersion _ => 4
  | controllerData _ device => 4 + device.calcSize version
  | deviceListUpdated => 0
  | profileList _ profiles => 4 + 2 + (profiles.map fun profile => 2 + profile.length).sum

def calcDataSize (version : UInt32) (reply : Reply) : UInt32 :=
  UInt32.ofNat (reply.dataSize version)

def header (version : UInt32) (reply : Reply) : Header where
  deviceIdx := reply.deviceIdx
  messageType := reply.messageType
  messageSize := reply.calcDataSize version

/-- What `serialize` writes behind the header; the names of the profiles end without a zero. -/
def serializeBody (version : UInt32) (reply : Reply) : List UInt8 :=
  match reply with
  | controllerCount count => putUint32 count
  | protocolVersion serverVersion => putUint32 serverVersion
  | controllerData _ device => putUint32 (reply.calcDataSize version) ++ device.serialize version
  | deviceListUpdated => []
  -- whatever the member holds
  | profileList dataSize profiles =>
    putUint32 dataSize ++ (putUint16 (UInt16.ofNat profiles.length) ++
      profiles.flatMap fun profile => putUint16 (UInt16.ofNat profile.length) ++ profile)

def serialize (version : UInt32) (reply : Reply) : List UInt8 :=
  (reply.header version).serialize ++ reply.serializeBody version

/-- `deserializeBody` of the reply that the header announces. -/
def deserializeBody (version : UInt32) (stray : UInt32 → Bool) (header : Header) : Reader Reply :=
  match header.messageType with
  | .requestControllerCount => return controllerCount (← uint32)
  | .requestControllerData => do
    let _dataSize ← uint32
    let device ← Device.deserialize version stray header.deviceIdx
    return controllerData header.deviceIdx device
  | .requestProtocolVersion => return protocolVersion (← uint32)
  | .deviceListUpdated => return deviceListUpdated
  | .requestProfileList => do
    let dataSize ← uint32
    let profiles ← readArray fun _ => readString
    return profileList dataSize profiles
  | _ => failure

end Reply

end Listeningway.OpenRgb
