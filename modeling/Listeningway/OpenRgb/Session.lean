/- Listeningway/OpenRgb/Session
   source: third_party/Youda008-OpenRGB-cppSDK: src/Client.cpp, protocol_description.txt
   digest: The client of OpenRGB and a server it knows by its messages, over a queue of them. -/

import Listeningway.Lib.Machine
import Listeningway.OpenRgb.ClientStatus
import Listeningway.OpenRgb.MessageRoundTrip

/-!
The server is another program and a parameter here; `Documented` is what the description of the
protocol says of it. A session is one connection, from the version request to the first failure.
`past` and `began` are history, nothing reads them.
-/

set_option autoImplicit false
set_option relaxedAutoImplicit false

namespace Listeningway.OpenRgb

open Listeningway.Lib Listeningway.Lib.ByteStream

/-! ### The server -/

/-- A list of devices that a server can present. -/
structure Roster (stray : UInt32 → Bool) where
  devices : List Device
  few : devices.length < 2 ^ 32
  sound : ∀ device ∈ devices, device.Sound stray
  small : ∀ device ∈ devices, ∀ version, 4 + device.calcSize version < 2 ^ 32

/-- The list as a client reads it. -/
def Roster.seen {stray : UInt32 → Bool} (version : UInt32) (roster : Roster stray) : List Device :=
  indexed (fun i => Device.received version (UInt32.ofNat i)) roster.devices

/-- The messages that nobody answers. -/
def Request.quiet : Request → Bool
  | controllerCount | controllerData .. | protocolVersion _ | profileList => false
  | _ => true

/-- The other program: the list it presents, and what it does by itself and for a request, with
the messages it sends for it and the version it writes them in. -/
structure Server (stray : UInt32 → Bool) where
  State : Type
  Event : Type
  roster : State → Roster stray
  act : State → Event → State × List (UInt32 × Reply)
  answer : State → Request → State × List (UInt32 × Reply)

namespace Server

variable {stray : UInt32 → Bool} (server : Server stray)

/-- The list is as it was and nothing is sent, or it is announced that it may be another one. -/
def Announced (state : server.State) (next : server.State × List (UInt32 × Reply)) : Prop :=
  (server.roster next.1 = server.roster state ∧ next.2 = []) ∨
    ∃ version, next.2 = [(version, .deviceListUpdated)]

/-- What the description of the protocol says of a server. -/
structure Documented : Prop where
  act : ∀ state event, server.Announced state (server.act state event)
  quiet : ∀ state request, request.quiet = true →
    server.Announced state (server.answer state request)
  keeps : ∀ state request, request.quiet = false →
    server.roster (server.answer state request).1 = server.roster state
  count : ∀ state, ∃ version, (server.answer state .controllerCount).2 =
    [(version, .controllerCount (UInt32.ofNat (server.roster state).devices.length))]
  data : ∀ state deviceIdx asked, (server.answer state (.controllerData deviceIdx asked)).2 =
    match (server.roster state).devices[deviceIdx.toNat]? with
    | some device => [(asked, .controllerData deviceIdx device)]
    | none => []
  version : ∀ state asked, ∃ version serverVersion,
    (server.answer state (.protocolVersion asked)).2 = [(version, .protocolVersion serverVersion)]

end Server

/-! ### The client -/

/-- Where a call of the client stands that waits for a reply. -/
inductive Call where
  | idle
  | version
  | count
  | listCount
  | listData (count : UInt32) (devices : List Device)
  | closed
  deriving DecidableEq, Repr

/-- What the calls of the client return. -/
inductive Output where
  | connected
  | versionNotSupported
  | deviceCount (count : UInt32)
  | deviceList (devices : List Device)
  | update (status : UpdateStatus)
  | failed (status : RequestStatus)
  deriving DecidableEq, Repr

/-- A call gave up, or found what it did not expect. -/
def Output.failure : Output → Bool
  | failed _ | update .unexpectedMessage => true
  | _ => false

structure Core {stray : UInt32 → Bool} (server : Server stray) where
  past : List (Roster stray)
  state : server.State
  requests : List Request
  outOfDate : Bool
  version : UInt32
  call : Call
  began : ℕ
  held : List Device

namespace Core

variable {stray : UInt32 → Bool} {server : Server stray} (core : Core server)

/-- The list the server presents now. -/
def current : Roster stray := server.roster core.state

/-- The server moves on, and its list becomes history. -/
def turn (state : server.State) : Core server :=
  { core with past := core.past ++ [core.current], state }

def act (event : server.Event) : Core server × List (UInt32 × Reply) :=
  let acted := server.act core.state event
  (core.turn acted.1, acted.2)

/-- The server takes the next request. -/
def answer : Option (Core server × List (UInt32 × Reply)) :=
  match core.requests with
  | [] => none
  | request :: requests =>
    let answered := server.answer core.state request
    some ({ core with requests }.turn answered.1, answered.2)

def sendMessage (request : Request) : Core server :=
  { core with requests := core.requests ++ [request] }

/-- A `DeviceListUpdated` was read. -/
def notice : Core server := { core with outOfDate := true }

def requestDeviceCount : Core server :=
  { core.sendMessage .controllerCount with call := .count }

/-- One round of the loop of `_requestDeviceList`, up to its first `awaitMessage`. -/
def startList : Core server :=
  { core.sendMessage .controllerCount with outOfDate := false, call := .listCount }

def requestDeviceList : Core server :=
  { core.startList with began := core.past.length }

/-- The test of the inner loop of `_requestDeviceList` and, behind it, that of the outer one. -/
def nextDevice (count : UInt32) (devices : List Device) : Core server × List Output :=
  if devices.length < count.toNat then
    ({ core.sendMessage (.controllerData (UInt32.ofNat devices.length) core.version) with
        call := .listData count devices }, [])
  else if core.outOfDate then (core.startList, [])
  else ({ core with call := .idle, held := devices }, [.deviceList devices])

/-- `_connect` reverts the connection, every other call returns. -/
def fail (status : RequestStatus) : Core server × List Output :=
  ({ core with call := if core.call = .version then .closed else .idle }, [.failed status])

/-- What the waiting call does with the message it got. -/
def advance (clientName : Text) (reply : Reply) : Core server × List Output :=
  match core.call, reply with
  | .version, .protocolVersion serverVersion =>
    if serverVersion = 0 then ({ core with call := .closed }, [.versionNotSupported])
    else
      ({ core.sendMessage (.setClientName clientName) with
          version := min implementedProtocolVersion serverVersion
          outOfDate := true
          call := .idle }, [.connected])
  | .count, .controllerCount count => ({ core with call := .idle }, [.deviceCount count])
  | .listCount, .controllerCount count => core.nextDevice count []
  | .listData count devices, .controllerData _ device => core.nextDevice count (devices ++ [device])
  | _, _ => core.fail .invalidReply

end Core

/-! ### The machine -/

structure Session {stray : UInt32 → Bool} (server : Server stray) where
  core : Core server
  replies : List Reply

namespace Session

variable {stray : UInt32 → Bool} {server : Server stray}

inductive Event (server : Server stray) where
  | act (event : server.Event)
  | answer
  | requestDeviceCount
  | requestDeviceList
  | send (request : Request)
  | checkForDeviceUpdates (arrived : Bool)
  | receive

/-- The version request is on its way; what the client kept of an earlier session may be
anything. -/
def start (state : server.State) (outOfDate : Bool) (version : UInt32) (held : List Device) :
    Session server where
  core :=
    { past := [], state, outOfDate, version, held, began := 0
      requests := [.protocolVersion implementedProtocolVersion]
      call := .version }
  replies := []

/-- `checkForUpdateMessageArrival` when there is a message. -/
def check (s : Session server) : Option (Session server × List Output) :=
  match s.replies with
  | [] => none
  | .deviceListUpdated :: replies => some (⟨s.core.notice, replies⟩, [.update .outOfDate])
  | _ :: replies => some (⟨s.core, replies⟩, [.update .unexpectedMessage])

/-- One turn of the loop of `awaitMessage`. -/
def receive (clientName : Text) (s : Session server) : Option (Session server × List Output) :=
  match s.replies with
  | [] => none
  | .deviceListUpdated :: replies => some (⟨s.core.notice, replies⟩, [])
  | reply :: replies =>
    let advanced := s.core.advance clientName (reply.received s.core.version)
    some (⟨advanced.1, replies⟩, advanced.2)

def step (clientName : Text) : Machine.Step (Session server) (Event server) Output
  | s, .act event => some (⟨(s.core.act event).1,
      s.replies ++ (s.core.act event).2.map Prod.snd⟩, [])
  | s, .answer => s.core.answer.map fun r => (⟨r.1, s.replies ++ r.2.map Prod.snd⟩, [])
  | s, .requestDeviceCount =>
    if s.core.call = .idle then some ({ s with core := s.core.requestDeviceCount }, []) else none
  | s, .requestDeviceList =>
    if s.core.call = .idle then some ({ s with core := s.core.requestDeviceList }, []) else none
  | s, .send request =>
    if s.core.call = .idle ∧ request.quiet then
      some ({ s with core := s.core.sendMessage request }, [])
    else none
  | s, .checkForDeviceUpdates arrived =>
    if s.core.call = .idle then
      if s.core.outOfDate then some (s, [.update .outOfDate])
      else if arrived then s.check
      else some (s, [.update .upToDate])
    else none
  | s, .receive =>
    if s.core.call = .idle ∨ s.core.call = .closed then none else s.receive clientName

end Session

end Listeningway.OpenRgb
