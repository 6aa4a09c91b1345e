/- Listeningway/OpenRgb/Connection
   source: third_party/Youda008-OpenRGB-cppSDK: src/Client.cpp; external/CppUtils-Network/Socket.cpp
   digest: The session over a connection that carries bytes, cut wherever the network cuts them. -/

import Listeningway.OpenRgb.SessionRuns

/-!
What the server has written and the client's socket does not have yet is `wire`. A receive that
gives up drops the bytes it already has, and so does the look that does not wait.
-/

set_option autoImplicit false
set_option relaxedAutoImplicit false

namespace Listeningway.OpenRgb

open Listeningway.Lib Listeningway.Lib.ByteStream

/-- `Message::thisType` of the `awaitMessage` that the call is in. -/
def Call.expects : Call → Option MessageType
  | .version => some .requestProtocolVersion
  | .count | .listCount => some .requestControllerCount
  | .listData .. => some .requestControllerData
  | .idle | .closed => none

/-- Which of its two receives `awaitMessage` is in. -/
inductive Await where
  | header
  | body (header : Header)
  deriving DecidableEq, Repr

structure Connection {stray : UInt32 → Bool} (server : Server stray) where
  core : Core server
  wire : List UInt8
  arrived : List UInt8
  await : Await

namespace Connection

variable {stray : UInt32 → Bool} {server : Server stray}

inductive Event (server : Server stray) where
  | act (event : server.Event)
  | answer
  | arrive (count : ℕ)
  | requestDeviceCount
  | requestDeviceList
  | send (request : Request)
  | checkForDeviceUpdates
  | receive
  | timeout

def start (state : server.State) (outOfDate : Bool) (version : UInt32) (held : List Device) :
    Connection server where
  core := (Session.start state outOfDate version held).core
  wire := []
  arrived := []
  await := .header

/-- How many bytes the receive waits for. -/
def wanted (c : Connection server) : ℕ :=
  match c.await with
  | .header => Header.size
  | .body header => header.messageSize.toNat

/-- The bytes of a finished receive are taken from the socket. -/
def taken (c : Connection server) (core : Core server) (await : Await) : Connection server :=
  { c with core, await, arrived := c.arrived.drop c.wanted }

def fail (c : Connection server) (status : RequestStatus) : Connection server × List Output :=
  (c.taken (c.core.fail status).1 .header, (c.core.fail status).2)

def receiveHeader (c : Connection server) : Connection server × List Output :=
  match Header.deserialize.run (c.arrived.take c.wanted) with
  | none => c.fail .invalidReply
  | some (header, _) =>
    if header.messageType = .deviceListUpdated then (c.taken c.core.notice .header, [])
    else if c.core.call.expects ≠ some header.messageType then c.fail .invalidReply
    else (c.taken c.core (.body header), [])

def receiveBody (clientName : Text) (c : Connection server) (header : Header) :
    Connection server × List Output :=
  match (Reply.deserializeBody c.core.version stray header).run (c.arrived.take c.wanted) with
  | none => c.fail .invalidReply
  | some (reply, _) =>
    let advanced := c.core.advance clientName reply
    (c.taken advanced.1 .header, advanced.2)

/-- `checkForUpdateMessageArrival`, the socket being set not to wait. -/
def checkForUpdateMessageArrival (c : Connection server) : Connection server × List Output :=
  if c.arrived.length < Header.size then ({ c with arrived := [] }, [.update .upToDate])
  else
    let c' := { c with arrived := c.arrived.drop Header.size }
    match Header.deserialize.run (c.arrived.take Header.size) with
    | some (⟨_, .deviceListUpdated, _⟩, _) =>
      ({ c' with core := c.core.notice }, [.update .outOfDate])
    | _ => (c', [.update .unexpectedMessage])

/-- The bytes of messages, each in its version. -/
def written (messages : List (UInt32 × Reply)) : List UInt8 :=
  messages.flatMap fun m => m.2.serialize m.1

def step (clientName : Text) : Machine.Step (Connection server) (Event server) Output
  | c, .act event =>
    some ({ c with
      core := (c.core.act event).1
      wire := c.wire ++ written (c.core.act event).2 }, [])
  | c, .answer => c.core.answer.map fun r =>
    ({ c with core := r.1, wire := c.wire ++ written r.2 }, [])
  | c, .arrive count =>
    some ({ c with arrived := c.arrived ++ c.wire.take count, wire := c.wire.drop count }, [])
  | c, .requestDeviceCount =>
    if c.core.call = .idle then some ({ c with core := c.core.requestDeviceCount }, []) else none
  | c, .requestDeviceList =>
    if c.core.call = .idle then some ({ c with core := c.core.requestDeviceList }, []) else none
  | c, .send request =>
    if c.core.call = .idle ∧ request.quiet then
      some ({ c with core := c.core.sendMessage request }, [])
    else none
  | c, .checkForDeviceUpdates =>
    if c.core.call = .idle then
      if c.core.outOfDate then some (c, [.update .outOfDate])
      else some c.checkForUpdateMessageArrival
    else none
  | c, .receive =>
    if c.core.call = .idle ∨ c.core.call = .closed ∨ c.arrived.length < c.wanted then none
    else
      match c.await with
      | .header => some c.receiveHeader
      | .body header => some (c.receiveBody clientName header)
  | c, .timeout =>
    if c.core.call = .idle ∨ c.core.call = .closed ∨ c.wanted ≤ c.arrived.length then none
    else some (c.fail .noReply)

/-- No receive gives up, and the look that does not wait finds a whole header or nothing. -/
def Clean (c : Connection server) : Event server → Prop
  | .timeout => False
  | .checkForDeviceUpdates =>
    c.core.outOfDate = true ∨ c.arrived = [] ∨ Header.size ≤ c.arrived.length
  | _ => True

end Connection

end Listeningway.OpenRgb
