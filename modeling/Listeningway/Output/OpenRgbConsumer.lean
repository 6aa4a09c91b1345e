/- Listeningway/Output/OpenRgbConsumer
   source: src/output/openrgb_consumer.h, openrgb_consumer.cpp
   digest: The worker that paints the zones of every OpenRGB device, tick by tick. -/

import Listeningway.Lib.Clamp
import Listeningway.Lib.Machine
import Listeningway.OpenRgb.ClientStatus
import Listeningway.OpenRgb.DeviceInfo
import Listeningway.Output.LinearPatterns
import Listeningway.Output.MatrixPatterns
import Listeningway.Output.SinglePatterns

/-!
What the client's calls return, and what the store and the audio system hold, comes with the
tick. A read or a write outside a vector makes a tick fail. `orgb::Color` is its three channels:
`to_orgb` leaves the padding byte unset.
-/

set_option autoImplicit false
set_option relaxedAutoImplicit false

namespace Listeningway.Output.OpenRgbConsumer

open Listeningway.Config
open Listeningway.Dsp
open Listeningway.Lib
open Listeningway.Lib.Clamp
open Listeningway.Lib.SpanWrites
open Listeningway.OpenRgb
open Listeningway.Output.Patterns
open Listeningway.Snapshot

/-! ### One zone -/

section Painting

variable {K : Type} [Field K] [LinearOrder K] [FloorRing K] [Cmath K]

/-- What a tick paints from. -/
structure Picture (K : Type) where
  config : OpenRgbConfig K
  snap : AudioSnapshot K
  dtSec : K

def geometry (zone : Zone) : MatrixGeometry where
  width := zone.matrixWidth.toNat
  height := zone.matrixHeight.toNat
  values := zone.matrixValues.map UInt32.toNat

/-- The zone buffer, filled with black and then painted. -/
def renderZone (picture : Picture K) (zone : Zone) (state : PatternState K) :
    Option (List ColorRgb × PatternState K) :=
  let out := List.replicate zone.ledsCount.toNat ColorRgb.black
  let brightness := picture.config.brightness
  match zone.type with
  | .single =>
    let lit := renderSingle picture.config.patternSingle picture.snap state brightness
    some (fill out lit.1, lit.2)
  | .linear =>
    renderLinear picture.config.patternLinear picture.snap out state brightness picture.dtSec
  | .matrix =>
    renderMatrix picture.config.patternMatrix picture.snap (geometry zone) out state brightness

/-! ### One device -/

/-- The loop that copies a zone into the LEDs of its device. -/
def copyZone (leds : List ColorRgb) (ledOffset : ℕ) : List ColorRgb → List ColorRgb
  | [] => leds
  | c :: out =>
    if ledOffset < leds.length then copyZone (leds.set ledOffset c) (ledOffset + 1) out else leds

/-- The loop over the zones: the LEDs of a device stand in the order of its zones. -/
def renderZones (picture : Picture K) :
    List Zone → List (PatternState K) → ℕ → List ColorRgb →
      Option (List ColorRgb × List (PatternState K))
  | [], states, _, leds => some (leds, states)
  | _ :: _, [], _, _ => none
  | zone :: zones, state :: states, ledOffset, leds => do
    if zone.ledsCount = 0 then
      let (leds, states) ← renderZones picture zones states ledOffset leds
      return (leds, state :: states)
    else
      let (out, state) ← renderZone picture zone state
      let (leds, states) ← renderZones picture zones states (ledOffset + zone.ledsCount.toNat)
        (copyZone leds ledOffset out)
      return (leds, state :: states)

structure DeviceFrame (K : Type) where
  leds : List ColorRgb
  zoneStates : List (PatternState K)

/-- What `resize_dev_frames` makes of one device. -/
def DeviceFrame.blank (dev : Device) : DeviceFrame K where
  leds := List.replicate dev.leds.length .black
  zoneStates := List.replicate dev.zones.length .initial

def renderDevice (picture : Picture K) (dev : Device) (frame : DeviceFrame K) :
    Option (DeviceFrame K) := do
  let leds := if frame.leds.length ≠ dev.leds.length then
    List.replicate dev.leds.length .black else frame.leds
  let states := if frame.zoneStates.length ≠ dev.zones.length then
    List.replicate dev.zones.length .initial else frame.zoneStates
  let (leds, zoneStates) ← renderZones picture dev.zones states 0 leds
  return { leds, zoneStates }

/-- `Client::setDeviceColors`, by whether the socket is connected and the send succeeds. -/
def setDeviceColors (link : Bool × Bool) : RequestStatus :=
  if ¬ link.1 then .notConnected else if ¬ link.2 then .sendRequestFailed else .success

/-- A call of `setDeviceColors`. -/
structure Sent where
  dev : Device
  leds : List ColorRgb

/-- What the loop over the devices leaves. -/
structure Painted (K : Type) where
  devFrames : List (DeviceFrame K)
  sent : List Sent
  anyFailed : Bool
  closed : Bool

/-- The loop over the devices from `di` on. -/
def renderDevices (picture : Picture K) (link : ℕ → Bool × Bool) :
    ℕ → List Device → List (DeviceFrame K) → Option (Painted K)
  | _, [], frames => some { devFrames := frames, sent := [], anyFailed := false, closed := false }
  | _, _ :: _, [] => none
  | di, dev :: devices, frame :: frames => do
    if dev.leds = [] then
      let rest ← renderDevices picture link (di + 1) devices frames
      return { rest with devFrames := frame :: rest.devFrames }
    else
      let frame ← renderDevice picture dev frame
      let rs := setDeviceColors (link di)
      let sent : Sent := { dev, leds := frame.leds }
      if rs = .connectionClosed then
        return { devFrames := frame :: frames, sent := [sent], anyFailed := true, closed := true }
      else
        let rest ← renderDevices picture link (di + 1) devices frames
        return { rest with
          devFrames := frame :: rest.devFrames
          sent := sent :: rest.sent
          anyFailed := rest.anyFailed || rs ≠ .success }

end Painting

/-! ### The status -/

structure Status where
  connected : Bool
  lastError : String
  deviceCount : ℕ
  framesSent : ℕ
  currentRateHz : ℤ
  countSingle : ℕ
  countLinear : ℕ
  countMatrix : ℕ
  deriving DecidableEq, Repr

namespace Status

/-- What `start` leaves for the worker. -/
def starting (rateHz : ℤ) (countSingle countLinear countMatrix : ℕ) : Status where
  connected := false
  lastError := ""
  deviceCount := 0
  framesSent := 0
  currentRateHz := clamp rateHz 5 60
  countSingle
  countLinear
  countMatrix

def recordError (status : Status) (msg : String) : Status :=
  { status with lastError := msg, connected := false }

/-- `try_connect`, by what `Client::connect` returns. -/
def tryConnect (status : Status) (cs : ConnectStatus) : Status :=
  if cs = .success then { status with connected := true, lastError := "" }
  else status.recordError ("connect: " ++ cs.enumString)

end Status

/-! ### The device list -/

/-- What the client's calls return to `refresh_devices`. -/
structure Refresh where
  count : RequestStatus × UInt32
  lists : ℕ → RequestStatus × List Device
  modes : Device → RequestStatus

namespace Refresh

def kRetries : ℕ := 3

def reportedCount (answers : Refresh) : UInt32 :=
  if answers.count.1 = .success then answers.count.2 else 0

/-- The count as the messages give it. -/
def reported (answers : Refresh) : String :=
  toString answers.reportedCount.toNat ++ " / " ++ answers.count.1.enumString

/-- The attempts from `attempt` on: the devices that were left by the last request, and the
message of one that failed. -/
def attempts (answers : Refresh) (attempt : ℕ) : ℕ → List Device × Option String
  | 0 => ([], none)
  | more + 1 =>
    let result := answers.lists attempt
    if result.1 ≠ .success then
      (result.2, some ("device list (attempt " ++ toString (attempt + 1) ++ "): " ++
        result.1.enumString ++ " [count was " ++ answers.reported ++ "]"))
    else if result.2.length > 0 ∨ more = 0 then (result.2, none)
    else attempts answers (attempt + 1) more

/-- The zones that have LEDs, of one type. -/
def zoneCount (devices : List Device) (type : ZoneType) : ℕ :=
  (devices.flatMap Device.zones).countP fun zone => zone.ledsCount ≠ 0 ∧ zone.type = type

/-- The messages of the devices whose mode could not be set, the last of them kept. -/
def modeError (answers : Refresh) (devices : List Device) (text : Text → String)
    (lastError : String) : String :=
  devices.foldl (fun lastError dev =>
    if answers.modes dev ≠ .success then
      "switchToCustomMode failed for " ++ text dev.name ++ ": " ++ (answers.modes dev).enumString
    else lastError) lastError

/-- `refresh_devices`; `text` is a name's bytes as a text. -/
def refreshDevices (answers : Refresh) (text : Text → String) (status : Status) :
    List Device × Status :=
  let (devices, failed) := answers.attempts 0 kRetries
  match failed with
  | some msg => (devices, { status.recordError msg with deviceCount := 0 })
  | none =>
    let got := devices.length
    let status := { status with deviceCount := got }
    if got = 0 then
      (devices, { status with
        lastError := "device list empty after " ++ toString kRetries ++ " attempts (count: " ++
          answers.reported ++ ")" })
    else
      let lastError := if UInt32.ofNat got ≠ answers.reportedCount then
          "device count mismatch: list returned " ++ toString got ++ " but count says " ++
            toString answers.reportedCount.toNat
        else status.lastError
      (devices, { status with
        lastError := answers.modeError devices text lastError
        countSingle := zoneCount devices .single
        countLinear := zoneCount devices .linear
        countMatrix := zoneCount devices .matrix })

end Refresh

/-! ### The worker -/

section Worker

variable {K : Type} [Field K] [LinearOrder K] [FloorRing K] [Cmath K]

/-- `shown` is history: the pictures painted since `resize_dev_frames` ran last. -/
structure Worker (K : Type) where
  rateHz : ℤ
  cachedSettingsVersion : ℕ
  ticksSinceUpdateCheck : ℤ
  devices : List Device
  devFrames : List (DeviceFrame K)
  status : Status
  shown : List (Picture K)

/-- `refresh_devices` and `resize_dev_frames`. -/
def Worker.refresh (w : Worker K) (text : Text → String) (answers : Refresh) : Worker K :=
  let (devices, status) := answers.refreshDevices text w.status
  { w with devices, status, devFrames := devices.map .blank, shown := [] }

/-- `worker_main` up to its loop, when the first connect succeeds. -/
def Worker.start (text : Text → String) (config : OpenRgbConfig K) (version : ℕ)
    (status : Status) (answers : Refresh) : Worker K :=
  Worker.refresh
    { rateHz := clamp config.rateHz 5 60
      cachedSettingsVersion := version
      ticksSinceUpdateCheck := 0
      devices := []
      devFrames := []
      status := status.tryConnect .success
      shown := [] } text answers

/-- What a turn of the loop finds: the store's version and settings, the answers of the client,
the time since the last turn and the snapshot. -/
structure Tick (K : Type) where
  version : ℕ
  newConfig : OpenRgbConfig K
  update : UpdateStatus
  reconnect : ConnectStatus
  refresh : Refresh
  elapsed : K
  snap : AudioSnapshot K
  config : OpenRgbConfig K
  link : ℕ → Bool × Bool
  connected : Bool
  retry : ConnectStatus
  retryRefresh : Refresh

def Tick.picture (tick : Tick K) : Picture K where
  config := tick.config
  snap := tick.snap
  dtSec := clamp tick.elapsed 0.001 0.250

/-- The settings are read again when their version changed. -/
def Worker.readSettings (w : Worker K) (tick : Tick K) : Worker K :=
  if tick.version ≠ w.cachedSettingsVersion then
    let newRate := clamp tick.newConfig.rateHz 5 60
    { w with
      cachedSettingsVersion := tick.version
      rateHz := newRate
      status := if newRate ≠ w.rateHz then { w.status with currentRateHz := newRate }
        else w.status }
  else w

/-- The hot-plug check; the flag tells whether the turn goes on. -/
def Worker.checkUpdates (w : Worker K) (text : Text → String) (tick : Tick K) : Worker K × Bool :=
  let ticks := w.ticksSinceUpdateCheck + 1
  if ticks ≥ w.rateHz * 2 then
    let w := { w with ticksSinceUpdateCheck := 0 }
    if tick.update = .outOfDate then (w.refresh text tick.refresh, true)
    else if tick.update = .connectionClosed ∨ tick.update = .otherSystemError then
      let lost := w.status.recordError "server connection lost; will retry"
      let w := { w with status := lost.tryConnect tick.reconnect }
      if tick.reconnect ≠ .success then (w, false) else (w.refresh text tick.refresh, true)
    else (w, true)
  else ({ w with ticksSinceUpdateCheck := ticks }, true)

/-- The status after the loop over the devices. -/
def Status.painted (status : Status) (painted : Painted K) : Status :=
  if painted.closed then status.recordError "server closed connection"
  else if painted.anyFailed then status
  else
    let status := { status with framesSent := status.framesSent + 1 }
    if status.connected ∧ status.lastError ≠ "" then { status with lastError := "" } else status

/-- The retry at the end of a turn. -/
def Worker.reconnect (w : Worker K) (text : Text → String) (tick : Tick K) (closed : Bool) :
    Worker K :=
  if tick.connected ∧ ¬ closed then w
  else
    let w := { w with status := w.status.tryConnect tick.retry }
    if tick.retry = .success then w.refresh text tick.retryRefresh else w

/-- One turn of the loop. -/
def Worker.step (text : Text → String) : Machine.Step (Worker K) (Tick K) Sent
  | w, tick =>
    let (w, goesOn) := (w.readSettings tick).checkUpdates text tick
    if ¬ goesOn then some (w, [])
    else do
      let painted ← renderDevices tick.picture tick.link 0 w.devices w.devFrames
      let w := { w with
        devFrames := painted.devFrames
        status := w.status.painted painted
        shown := w.shown ++ [tick.picture] }
      return (w.reconnect text tick painted.closed, painted.sent)

end Worker

end Listeningway.Output.OpenRgbConsumer
