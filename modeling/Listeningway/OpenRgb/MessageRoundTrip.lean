/- Listeningway/OpenRgb/MessageRoundTrip
   source: third_party/Youda008-OpenRGB-cppSDK: src/ProtocolMessages.hpp, ProtocolMessages.cpp,
     Client.cpp
   digest: Every message fills the buffer allocated for it and is read back as it was sent. -/

import Listeningway.OpenRgb.ProtocolMessages

set_option autoImplicit false
set_option relaxedAutoImplicit false

namespace Listeningway.OpenRgb

open Listeningway.Lib.ByteStream

theorem length_writeString0 (str : Text) : (writeString0 str).length = str.length + 1 := by
  rw [writeString0, List.length_append, List.length_singleton]

/-! ### Frames -/

section Frames

variable {α : Type}

theorem reads_frame {deserializeBody : Header → Reader α} {header : Header} {body : List UInt8}
    {message : α} (size : header.messageSize.toNat = body.length)
    (reads : Reads (deserializeBody header) body message) :
    Reads (receive deserializeBody) (header.serialize ++ body) message := by
  have buffer := reads_takeBytes body
  rw [← size] at buffer
  rw [← List.append_nil body]
  refine (Header.reads_serialize header).bind (buffer.bind ?_)
  rw [reads.whole]
  exact Reads.pure message

theorem reads_stream {deserializeBody : Header → Reader α} {β : Type} {serialize : β → List UInt8}
    {received : β → α} {messages : List β}
    (each : ∀ m ∈ messages, Reads (receive deserializeBody) (serialize m) (received m)) :
    Reads (readArrayFrom (fun _ => receive deserializeBody) 0 messages.length)
      (messages.flatMap serialize) (messages.map received) := by
  have reads := reads_array (f := fun _ m => received m) fun _ m among => each m among
  rwa [indexed_map] at reads

end Frames

/-! ### Requests -/

namespace Request

/-- The buffer of `sendMessage`. -/
def bufferSize (version : UInt32) (request : Request) : ℕ :=
  Header.size + (request.header version).messageSize.toNat

theorem length_serializeBody (version : UInt32) (request : Request) :
    (request.serializeBody version).length = request.dataSize version := by
  cases request <;>
    simp only [serializeBody, dataSize, List.length_nil, List.length_append, length_putUint32,
      length_writeString0, length_colors, Color.length_serialize, Mode.length_serialize,
      Nat.add_assoc]

theorem length_serialize {version : UInt32} {request : Request}
    (small : request.dataSize version < 2 ^ 32) :
    (request.serialize version).length = request.bufferSize version := by
  have size : (request.header version).messageSize.toNat = request.dataSize version :=
    UInt32.toNat_ofNat_of_lt' small
  rw [serialize, bufferSize, size, List.length_append, Header.length_serialize,
    length_serializeBody]

/-- What has to hold of a request for its reader to find it again. -/
def Sound (version : UInt32) (stray : UInt32 → Bool) : Request → Prop
  | setClientName text | saveProfile text | loadProfile text | deleteProfile text => 0 ∉ text
  | updateLEDs _ colors | updateZoneLEDs _ _ colors => FitsArray colors
  | updateMode _ modeIdx mode | saveMode _ modeIdx mode =>
    mode.Sound stray ∧ (modeIdx ≥ 3 ↔ version ≥ 3)
  | _ => True

/-- What the reader makes of a request. -/
def received (version : UInt32) : Request → Request
  | updateMode deviceIdx modeIdx mode =>
    updateMode deviceIdx modeIdx (mode.received version deviceIdx version)
  | saveMode deviceIdx modeIdx mode =>
    saveMode deviceIdx modeIdx (mode.received version deviceIdx version)
  | request => request

variable {version : UInt32} {stray : UInt32 → Bool}

theorem reads_mode {header : Header} {size modeIdx : UInt32} {mode : Mode}
    (sound : mode.Sound stray) (agree : modeIdx ≥ 3 ↔ version ≥ 3) :
    Reads (deserializeMode version stray header)
      (putUint32 size ++ (putUint32 modeIdx ++ mode.serialize version))
      (modeIdx, mode.received version header.deviceIdx version) := by
  have written : mode.serialize version = mode.serialize modeIdx := by
    simp only [Mode.serialize, Mode.serializeBrightness, agree]
  have seen : mode.received version header.deviceIdx version =
      mode.received modeIdx header.deviceIdx version := by
    simp only [Mode.received, agree]
  rw [written, seen]
  refine (reads_uint32 _).bind ?_
  refine (reads_uint32 _).bind ?_
  exact (Mode.reads_serialize stray modeIdx header.deviceIdx version sound).returning _

theorem reads_body {request : Request} (sound : request.Sound version stray) :
    Reads (deserializeBody version stray (request.header version))
      (request.serializeBody version) (request.received version) := by
  cases request with
  | controllerCount => exact Reads.pure _
  | controllerData => exact (reads_uint32 _).returning _
  | protocolVersion => exact (reads_uint32 _).returning _
  | setClientName => exact (reads_string0 sound).returning _
  | resizeZone => exact (reads_uint32 _).bind ((reads_uint32 _).returning _)
  | updateLEDs => exact (reads_uint32 _).bind ((reads_colors sound).returning _)
  | updateZoneLEDs =>
    exact (reads_uint32 _).bind ((reads_uint32 _).bind ((reads_colors sound).returning _))
  | updateSingleLED => exact (reads_uint32 _).bind ((Color.reads_serialize _).returning _)
  | setCustomMode => exact Reads.pure _
  | updateMode => exact (reads_mode sound.1 sound.2).returning _
  | saveMode => exact (reads_mode sound.1 sound.2).returning _
  | profileList => exact Reads.pure _
  | saveProfile => exact (reads_string0 sound).returning _
  | loadProfile => exact (reads_string0 sound).returning _
  | deleteProfile => exact (reads_string0 sound).returning _

theorem reads_receive {request : Request} (small : request.dataSize version < 2 ^ 32)
    (sound : request.Sound version stray) :
    Reads (receive (deserializeBody version stray)) (request.serialize version)
      (request.received version) := by
  have size : (request.header version).messageSize.toNat = request.dataSize version :=
    UInt32.toNat_ofNat_of_lt' small
  rw [← length_serializeBody] at size
  exact reads_frame size (reads_body sound)

end Request

/-! ### Replies -/

namespace Reply

/-- What has to hold of a reply for its reader to find it again. -/
def Sound (stray : UInt32 → Bool) : Reply → Prop
  | controllerData _ device => device.Sound stray
  | profileList _ profiles =>
    FitsArray profiles ∧ ∀ profile ∈ profiles, profile ≠ [] ∧ profile.length < 2 ^ 16
  | _ => True

/-- What the reader makes of a reply: it takes the last byte of every profile's name for the
zero behind it. -/
def received (version : UInt32) : Reply → Reply
  | controllerData deviceIdx device =>
    controllerData deviceIdx (device.received version deviceIdx)
  | profileList dataSize profiles => profileList dataSize (profiles.map List.dropLast)
  | reply => reply

variable {version : UInt32} {stray : UInt32 → Bool}

theorem length_serializeBody {reply : Reply} (sound : reply.Sound stray) :
    (reply.serializeBody version).length = reply.dataSize version := by
  cases reply with
  | controllerCount => exact length_putUint32 _
  | controllerData =>
    rw [serializeBody, dataSize, List.length_append, length_putUint32,
      Device.length_serialize stray version sound]
  | protocolVersion => exact length_putUint32 _
  | deviceListUpdated => rfl
  | profileList stored profiles =>
    have names : (profiles.flatMap fun profile =>
        putUint16 (UInt16.ofNat profile.length) ++ profile).length =
        (profiles.map fun profile => 2 + profile.length).sum :=
      length_flatMap_of fun profile _ => by rw [List.length_append, length_putUint16]
    rw [serializeBody, dataSize, List.length_append, List.length_append, length_putUint32,
      length_putUint16, names, Nat.add_assoc]

theorem reads_profile {profile : Text} (name : profile ≠ []) (small : profile.length < 2 ^ 16) :
    Reads readString (putUint16 (UInt16.ofNat profile.length) ++ profile) profile.dropLast := by
  have size : (UInt16.ofNat profile.length).toNat = profile.length :=
    UInt16.toNat_ofNat_of_lt' small
  have positive : UInt16.ofNat profile.length > 0 := by
    rw [gt_iff_lt, UInt16.lt_iff_toNat_lt, size]
    exact List.length_pos_iff.mpr name
  have body : Reads (takeBytes (if UInt16.ofNat profile.length > 0
      then (UInt16.ofNat profile.length).toNat - 1 else 0)) profile.dropLast profile.dropLast := by
    rw [if_pos positive, size, ← List.length_dropLast]
    exact reads_takeBytes _
  have last : profile = profile.dropLast ++ [profile.getLast name] :=
    (List.dropLast_append_getLast name).symm
  have written : putUint16 (UInt16.ofNat profile.length) ++ profile =
      putUint16 (UInt16.ofNat profile.length) ++ (profile.dropLast ++ [profile.getLast name]) := by
    rw [← last]
  rw [written]
  exact (reads_uint16 _).bind (body.bind ((reads_takeBytes [profile.getLast name]).returning _))

theorem reads_body {reply : Reply} (sound : reply.Sound stray) :
    Reads (deserializeBody version stray (reply.header version)) (reply.serializeBody version)
      (reply.received version) := by
  cases reply with
  | controllerCount => exact (reads_uint32 _).returning _
  | controllerData =>
    exact (reads_uint32 _).bind ((Device.reads_serialize stray version _ sound).returning _)
  | protocolVersion => exact (reads_uint32 _).returning _
  | deviceListUpdated => exact Reads.pure _
  | profileList stored profiles =>
    have names : Reads (readArrayFrom (fun _ => readString) 0 profiles.length)
        (profiles.flatMap fun profile => putUint16 (UInt16.ofNat profile.length) ++ profile)
        (indexed (fun _ profile => profile.dropLast) profiles) :=
      reads_array fun _ profile among =>
        reads_profile (sound.2 profile among).1 (sound.2 profile among).2
    rw [indexed_map, ← sound.1.toNat] at names
    exact (reads_uint32 _).bind (((reads_uint16 _).bind names).returning _)

theorem reads_receive {reply : Reply} (small : reply.dataSize version < 2 ^ 32)
    (sound : reply.Sound stray) :
    Reads (receive (deserializeBody version stray)) (reply.serialize version)
      (reply.received version) := by
  have size : (reply.header version).messageSize.toNat = reply.dataSize version :=
    UInt32.toNat_ofNat_of_lt' small
  rw [← length_serializeBody sound] at size
  exact reads_frame size (reads_body sound)

end Reply

/-! ### The results -/

/-- The bytes of a request fill the buffer allocated for them, and a stream of requests is cut
into the requests again. -/
theorem request_stream (version : UInt32) (stray : UInt32 → Bool) (requests : List Request)
    (small : ∀ request ∈ requests, request.dataSize version < 2 ^ 32) :
    (∀ request ∈ requests,
      (request.serialize version).length = request.bufferSize version) ∧
      ((∀ request ∈ requests, request.Sound version stray) → ∀ rest,
        (readArrayFrom (fun _ => receive (Request.deserializeBody version stray)) 0
            requests.length).run (requests.flatMap (Request.serialize version) ++ rest) =
          some (requests.map (Request.received version), rest)) := by
  refine ⟨fun request among => Request.length_serialize (small request among), fun sound => ?_⟩
  exact reads_stream fun request among =>
    Request.reads_receive (small request among) (sound request among)

/-- A mode as a request carries it. -/
def breathing : Mode :=
  { idx := 4, parentIdx := 1, name := [0x42], value := 2, flags := 0, speedMin := 0, speedMax := 9,
    brightnessMin := 0, brightnessMax := 100, colorsMin := 0, colorsMax := 1, speed := 5,
    brightness := 50, direction := 0, colorMode := 1, colors := [⟨255, 0, 0, 0⟩] }

/-- The mode of an update is numbered by the device, in the place of its parent by the version. -/
theorem request_stream_frame :
    let requests : List Request :=
      [.protocolVersion 3, .setClientName [0x4C, 0x77], .controllerCount,
        .updateLEDs 1 [⟨255, 0, 0, 0⟩, ⟨0, 255, 0, 0⟩], .updateMode 1 4 breathing]
    (∀ request ∈ requests, (request.serialize 3).length = request.bufferSize 3) ∧ ∀ rest,
      (readArrayFrom (fun _ => receive (Request.deserializeBody 3 fun _ => false)) 0
          requests.length).run (requests.flatMap (Request.serialize 3) ++ rest) =
        some ([.protocolVersion 3, .setClientName [0x4C, 0x77], .controllerCount,
          .updateLEDs 1 [⟨255, 0, 0, 0⟩, ⟨0, 255, 0, 0⟩],
          .updateMode 1 4 { breathing with idx := 1, parentIdx := 3 }], rest) := by
  intro requests
  obtain ⟨sizes, stream⟩ := request_stream 3 (fun _ => false) requests (by decide)
  refine ⟨sizes, stream fun request among => ?_⟩
  simp only [requests, List.mem_cons, List.not_mem_nil, or_false] at among
  rcases among with rfl | rfl | rfl | rfl | rfl
  · trivial
  · change 0 ∉ [0x4C, 0x77]
    decide
  · trivial
  · change FitsArray _
    decide
  · exact ⟨⟨by decide, by decide, by decide, by decide⟩, by decide⟩

/-- A stream of replies is cut into the replies again, up to the numbers and the fields of a
device and the last bytes of the profiles' names. -/
theorem reply_stream (version : UInt32) (stray : UInt32 → Bool) (replies : List Reply)
    (small : ∀ reply ∈ replies, reply.dataSize version < 2 ^ 32)
    (sound : ∀ reply ∈ replies, reply.Sound stray) (rest : List UInt8) :
    (readArrayFrom (fun _ => receive (Reply.deserializeBody version stray)) 0
        replies.length).run (replies.flatMap (Reply.serialize version) ++ rest) =
      some (replies.map (Reply.received version), rest) :=
  reads_stream (fun reply among =>
    Reply.reads_receive (small reply among) (sound reply among)) rest

theorem reply_stream_profiles :
    let replies : List Reply := [.deviceListUpdated, .profileList 7 [[0x61, 0x62], [0x63]]]
    (readArrayFrom (fun _ => receive (Reply.deserializeBody 3 fun _ => false)) 0
        replies.length).run (replies.flatMap (Reply.serialize 3) ++ []) =
      some ([.deviceListUpdated, .profileList 7 [[0x61], []]], []) := by
  intro replies
  refine reply_stream 3 (fun _ => false) replies (by decide) (fun reply among => ?_) []
  rcases List.mem_cons.mp among with rfl | among
  · trivial
  · obtain rfl := List.mem_singleton.mp among
    exact ⟨by decide, by decide⟩

end Listeningway.OpenRgb
