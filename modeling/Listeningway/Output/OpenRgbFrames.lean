/- Listeningway/Output/OpenRgbFrames
   source: src/output/openrgb_consumer.cpp
   digest: A device is sent what its zones show, each zone by itself, at every turn of any run. -/

import Listeningway.Output.BrightnessCap
import Listeningway.Output.OpenRgbConsumer

/-!
The state of a zone is what its own pictures made of it since the devices were listed last, and
a frame is the zones side by side. Neither the other zones nor the turns that fail have a part in
it.
-/

set_option autoImplicit false
set_option relaxedAutoImplicit false

namespace Listeningway.Output.OpenRgbConsumer

open Listeningway.Config
open Listeningway.Lib
open Listeningway.Lib.SpanWrites
open Listeningway.OpenRgb
open Listeningway.Output.Patterns

/-! ### What a zone shows -/

section Zones

variable (shown : List (Picture ℝ)) (picture : Picture ℝ) (zone : Zone)

/-- The state of a zone after its pictures. -/
noncomputable def zoneState : PatternState ℝ :=
  shown.foldl (fun state picture => ((renderZone picture zone state).map Prod.snd).getD state)
    .initial

/-- A zone without LEDs is passed over. -/
noncomputable def keptState : PatternState ℝ :=
  if zone.ledsCount = 0 then .initial else zoneState shown zone

/-- The LEDs of a zone at the next picture. -/
noncomputable def zoneLeds : List ColorRgb :=
  if zone.ledsCount = 0 then []
  else ((renderZone picture zone (zoneState shown zone)).map Prod.fst).getD []

end Zones

/-- The LEDs of a device at the next picture: its zones in their order, cut to the LEDs it has,
and black where no zone reaches. -/
noncomputable def deviceLeds (shown : List (Picture ℝ)) (picture : Picture ℝ) (dev : Device) :
    List ColorRgb :=
  (dev.zones.flatMap (zoneLeds shown picture) ++
    List.replicate dev.leds.length ColorRgb.black).take dev.leds.length

/-- What holds of the colours of a zone or a device at a brightness. -/
structure Moderate (brightness : ℝ) (leds : List ColorRgb) : Prop where
  capped : ∀ c ∈ leds, c.AtMost 242
  dark : brightness ≤ 0 → ∀ c ∈ leds, c = .black

theorem black_atMost (bound : UInt8) : ColorRgb.black.AtMost bound :=
  ⟨UInt8.zero_le, UInt8.zero_le, UInt8.zero_le⟩

theorem moderate_of_dimmed {brightness : ℝ} {leds : List ColorRgb}
    (each : ∀ c ∈ leds, c = .black ∨ ∃ raw, c = applyBrightness raw brightness) :
    Moderate brightness leds := by
  constructor
  · intro c among
    rcases each c among with rfl | ⟨raw, rfl⟩
    · exact black_atMost 242
    · exact (safe_applyBrightness raw).capped brightness
  · intro dark c among
    rcases each c among with rfl | ⟨raw, rfl⟩
    · rfl
    · exact (safe_applyBrightness raw).dark brightness dark

theorem moderate_of_lights {n : ℕ}
    {render : ℝ → List ColorRgb → Option (List ColorRgb × PatternState ℝ)}
    {state' : PatternState ℝ} (lights : Lights n render state') (brightness : ℝ) :
    ∃ out, render brightness (List.replicate n .black) = some (out, state') ∧ out.length = n ∧
      Moderate brightness out := by
  obtain ⟨prog, ⟨paint, paints⟩, runs⟩ := lights
  have black : (List.replicate n ColorRgb.black).length = n := List.length_replicate
  refine ⟨_, (runs brightness _ black).trans (by rw [paints brightness _ black]; rfl),
    (length_overlay _ _).trans black, ?_⟩
  refine moderate_of_dimmed fun c among => ?_
  obtain ⟨i, there⟩ := List.mem_iff_getElem?.mp among
  rw [getElem?_overlay] at there
  obtain ⟨old, found, rfl⟩ := Option.map_eq_some_iff.mp there
  cases painted : paint i with
  | none => exact .inl (List.eq_of_mem_replicate (List.mem_of_getElem? found))
  | some raw => exact .inr ⟨raw, rfl⟩

theorem renderZone_total (picture : Picture ℝ) (zone : Zone) {state : PatternState ℝ}
    (reached : Reached state) :
    ∃ out state', renderZone picture zone state = some (out, state') ∧
      out.length = zone.ledsCount.toNat ∧ Moderate picture.config.brightness out ∧
        Reached state' := by
  have rect := reached.rectangular
  unfold renderZone
  cases zone.type with
  | single =>
    obtain ⟨raw, dimmed⟩ := single_dimmed picture.config.patternSingle picture.snap state
    refine ⟨_, _, rfl, by rw [fill, List.length_map, List.length_replicate],
      moderate_of_dimmed fun c among => ?_, reached.single _ _ _⟩
    obtain ⟨old, -, rfl⟩ := List.mem_map.mp among
    exact .inr ⟨raw, dimmed _⟩
  | linear =>
    obtain ⟨state', -, lights⟩ := lights_linear (n := zone.ledsCount.toNat)
      picture.config.patternLinear picture.snap rect picture.dtSec
    obtain ⟨out, run, length, moderate⟩ := moderate_of_lights lights picture.config.brightness
    exact ⟨out, state', run, length, moderate, reached.linear run⟩
  | matrix =>
    obtain ⟨state', -, lights⟩ := lights_matrix (n := zone.ledsCount.toNat)
      picture.config.patternMatrix picture.snap (geometry zone) rect
    obtain ⟨out, run, length, moderate⟩ := moderate_of_lights lights picture.config.brightness
    exact ⟨out, state', run, length, moderate, reached.matrix run⟩

theorem zoneState_reached (shown : List (Picture ℝ)) (zone : Zone) :
    Reached (zoneState shown zone) := by
  induction shown using List.reverseRecOn with
  | nil => exact .initial
  | append_singleton shown picture ih =>
    obtain ⟨out, state', run, -, -, reached⟩ := renderZone_total picture zone ih
    have next : zoneState (shown ++ [picture]) zone = state' := by
      unfold zoneState at run ⊢
      rw [List.foldl_concat, run]
      rfl
    rwa [next]

theorem renderZone_run (shown : List (Picture ℝ)) (picture : Picture ℝ) {zone : Zone}
    (lit : zone.ledsCount ≠ 0) :
    renderZone picture zone (zoneState shown zone) =
      some (zoneLeds shown picture zone, zoneState (shown ++ [picture]) zone) := by
  obtain ⟨out, state', run, -, -, -⟩ := renderZone_total picture zone (zoneState_reached shown zone)
  have leds : zoneLeds shown picture zone = out := by
    rw [zoneLeds, if_neg lit, run]
    rfl
  have next : zoneState (shown ++ [picture]) zone = state' := by
    unfold zoneState at run ⊢
    rw [List.foldl_concat, run]
    rfl
  rw [leds, next, run]

theorem length_zoneLeds (shown : List (Picture ℝ)) (picture : Picture ℝ) (zone : Zone) :
    (zoneLeds shown picture zone).length = zone.ledsCount.toNat := by
  unfold zoneLeds
  split_ifs with dark
  · rw [dark]
    rfl
  · obtain ⟨out, state', run, length, -, -⟩ :=
      renderZone_total picture zone (zoneState_reached shown zone)
    rw [run]
    exact length

theorem moderate_zoneLeds (shown : List (Picture ℝ)) (picture : Picture ℝ) (zone : Zone) :
    Moderate picture.config.brightness (zoneLeds shown picture zone) := by
  unfold zoneLeds
  split_ifs with dark
  · exact ⟨fun _ among => absurd among List.not_mem_nil, fun _ _ among =>
      absurd among List.not_mem_nil⟩
  · obtain ⟨out, state', run, -, moderate, -⟩ :=
      renderZone_total picture zone (zoneState_reached shown zone)
    rw [run]
    exact moderate

theorem length_deviceLeds (shown : List (Picture ℝ)) (picture : Picture ℝ) (dev : Device) :
    (deviceLeds shown picture dev).length = dev.leds.length := by
  rw [deviceLeds, List.length_take, List.length_append, List.length_replicate]
  omega

theorem moderate_deviceLeds (shown : List (Picture ℝ)) (picture : Picture ℝ) (dev : Device) :
    Moderate picture.config.brightness (deviceLeds shown picture dev) := by
  have each : ∀ c ∈ deviceLeds shown picture dev,
      c = .black ∨ ∃ zone, c ∈ zoneLeds shown picture zone := by
    intro c among
    rcases List.mem_append.mp (List.mem_of_mem_take among) with lit | dark
    · obtain ⟨zone, -, lit⟩ := List.mem_flatMap.mp lit
      exact .inr ⟨zone, lit⟩
    · exact .inl (List.eq_of_mem_replicate dark)
  constructor
  · intro c among
    rcases each c among with rfl | ⟨zone, lit⟩
    · exact black_atMost 242
    · exact (moderate_zoneLeds shown picture zone).capped c lit
  · intro dark c among
    rcases each c among with rfl | ⟨zone, lit⟩
    · rfl
    · exact (moderate_zoneLeds shown picture zone).dark dark c lit

/-! ### The zones of a device side by side -/

/-- The LEDs of which the first are `front`. -/
def covered (front old : List ColorRgb) : List ColorRgb :=
  (front ++ old.drop front.length).take old.length

theorem length_covered (front old : List ColorRgb) : (covered front old).length = old.length := by
  rw [covered, List.length_take, List.length_append, List.length_drop]
  omega

theorem covered_of_le {front old : List ColorRgb} (room : front.length ≤ old.length) :
    covered front old = front ++ old.drop front.length := by
  refine List.take_of_length_le ?_
  rw [List.length_append, List.length_drop]
  omega

theorem set_covered {front old : List ColorRgb} (inside : front.length < old.length)
    (c : ColorRgb) : (covered front old).set front.length c = covered (front ++ [c]) old := by
  have room : (front ++ [c]).length ≤ old.length := by
    rw [List.length_append, List.length_singleton]
    exact inside
  rw [covered_of_le inside.le, covered_of_le room, List.length_append, List.length_singleton,
    List.set_append_right _ _ le_rfl, Nat.sub_self, List.drop_eq_getElem_cons inside,
    List.set_cons_zero, List.append_assoc, List.singleton_append]

theorem copyZone_covered (front old out : List ColorRgb) :
    copyZone (covered front old) front.length out = covered (front ++ out) old := by
  induction out generalizing front with
  | nil => rw [copyZone, List.append_nil]
  | cons c out ih =>
    rw [copyZone, length_covered]
    split_ifs with inside
    · have rest := ih (front ++ [c])
      rw [List.length_append, List.length_singleton, List.append_assoc,
        List.singleton_append] at rest
      rw [set_covered inside, rest]
    · have past : old.length ≤ front.length := Nat.le_of_not_lt inside
      unfold covered
      rw [List.take_append_of_le_length past, List.append_assoc,
        List.take_append_of_le_length past]

theorem renderZones_run (shown : List (Picture ℝ)) (picture : Picture ℝ) (zones : List Zone)
    (front old : List ColorRgb) :
    renderZones picture zones (zones.map (keptState shown)) front.length (covered front old) =
      some (covered (front ++ zones.flatMap (zoneLeds shown picture)) old,
        zones.map (keptState (shown ++ [picture]))) := by
  induction zones generalizing front with
  | nil =>
    rw [List.flatMap_nil, List.append_nil]
    rfl
  | cons zone zones ih =>
    rw [List.map_cons, List.map_cons, List.flatMap_cons, renderZones]
    split_ifs with dark
    · have none' : zoneLeds shown picture zone = [] := if_pos dark
      have kept : keptState shown zone = .initial := if_pos dark
      have kept' : keptState (shown ++ [picture]) zone = .initial := if_pos dark
      rw [ih, none', kept, kept', List.nil_append]
      rfl
    · have kept : keptState shown zone = zoneState shown zone := if_neg dark
      have kept' : keptState (shown ++ [picture]) zone = zoneState (shown ++ [picture]) zone :=
        if_neg dark
      have rest := ih (front ++ zoneLeds shown picture zone)
      rw [List.length_append, length_zoneLeds, List.append_assoc] at rest
      rw [kept, kept', renderZone_run shown picture dark, Option.bind_eq_bind, Option.bind_some]
      dsimp only
      rw [copyZone_covered, rest]
      rfl

/-! ### A device -/

/-- The frame of a device after its pictures. -/
noncomputable def frameAfter (shown : List (Picture ℝ)) (dev : Device) : DeviceFrame ℝ :=
  if dev.leds = [] then .blank dev
  else
    { leds := match shown.getLast? with
        | none => List.replicate dev.leds.length .black
        | some picture => deviceLeds shown.dropLast picture dev
      zoneStates := dev.zones.map (keptState shown) }

theorem map_keptState_nil (zones : List Zone) :
    zones.map (keptState []) = List.replicate zones.length .initial := by
  rw [← List.map_const']
  refine List.map_congr_left fun zone _ => ?_
  unfold keptState
  split_ifs <;> rfl

theorem frameAfter_nil (dev : Device) : frameAfter [] dev = .blank dev := by
  unfold frameAfter
  split_ifs
  · rfl
  · rw [map_keptState_nil]
    rfl

theorem frameAfter_concat (shown : List (Picture ℝ)) (picture : Picture ℝ) {dev : Device}
    (some' : dev.leds ≠ []) : frameAfter (shown ++ [picture]) dev =
      { leds := deviceLeds shown picture dev
        zoneStates := dev.zones.map (keptState (shown ++ [picture])) } := by
  rw [frameAfter, if_neg some', List.getLast?_concat, List.dropLast_concat]

theorem length_zones (shown : List (Picture ℝ)) (picture : Picture ℝ) (zones : List Zone) :
    (zones.flatMap (zoneLeds shown picture)).length =
      (zones.map fun zone => zone.ledsCount.toNat).sum := by
  rw [List.length_flatMap]
  exact congrArg List.sum (List.map_congr_left fun zone _ => length_zoneLeds shown picture zone)

theorem drop_frame (shown : List (Picture ℝ)) {dev : Device} (some' : dev.leds ≠ []) :
    (frameAfter shown dev).leds.drop (dev.zones.map fun zone => zone.ledsCount.toNat).sum =
      List.replicate (dev.leds.length - (dev.zones.map fun zone => zone.ledsCount.toNat).sum)
        .black := by
  rcases shown.eq_nil_or_concat with rfl | ⟨shown, picture, rfl⟩
  · rw [frameAfter_nil, DeviceFrame.blank, List.drop_replicate]
  · rw [List.concat_eq_append, frameAfter_concat shown picture some']
    dsimp only
    rw [deviceLeds, List.drop_take, ← length_zones shown picture, List.drop_left,
      List.take_replicate]
    congr 1
    omega

theorem covered_frame (shown : List (Picture ℝ)) (picture : Picture ℝ) {dev : Device}
    (some' : dev.leds ≠ []) (length : (frameAfter shown dev).leds.length = dev.leds.length) :
    covered (dev.zones.flatMap (zoneLeds shown picture)) (frameAfter shown dev).leds =
      deviceLeds shown picture dev := by
  rw [covered, length, length_zones, drop_frame shown some', deviceLeds, List.take_append,
    List.take_append, length_zones, List.take_replicate, List.take_replicate]
  congr 2
  omega

theorem length_frame (shown : List (Picture ℝ)) (dev : Device) :
    (frameAfter shown dev).leds.length = dev.leds.length := by
  by_cases none' : dev.leds = []
  · rw [frameAfter, if_pos none', DeviceFrame.blank, List.length_replicate]
  rcases shown.eq_nil_or_concat with rfl | ⟨shown, picture, rfl⟩
  · rw [frameAfter_nil, DeviceFrame.blank, List.length_replicate]
  · rw [List.concat_eq_append, frameAfter_concat shown picture none']
    exact length_deviceLeds shown picture dev

theorem renderDevice_run (shown : List (Picture ℝ)) (picture : Picture ℝ) {dev : Device}
    (some' : dev.leds ≠ []) : renderDevice picture dev (frameAfter shown dev) =
      some (frameAfter (shown ++ [picture]) dev) := by
  have leds := length_frame shown dev
  have states : (frameAfter shown dev).zoneStates = dev.zones.map (keptState shown) := by
    rw [frameAfter, if_neg some']
  have run := renderZones_run shown picture dev.zones [] (frameAfter shown dev).leds
  have front : covered [] (frameAfter shown dev).leds = (frameAfter shown dev).leds :=
    covered_of_le (Nat.zero_le _)
  rw [front, List.nil_append, covered_frame shown picture some' leds] at run
  rw [frameAfter_concat shown picture some']
  unfold renderDevice
  rw [if_neg (not_not.mpr leds), states, List.length_map, if_neg (not_not.mpr rfl)]
  rw [List.length_nil] at run
  dsimp only
  rw [run]
  rfl

/-! ### All devices -/

/-- What the devices with LEDs are sent at the next picture. -/
noncomputable def sentFrames (shown : List (Picture ℝ)) (picture : Picture ℝ)
    (devices : List Device) : List Sent :=
  (devices.filter fun dev => dev.leds ≠ []).map fun dev =>
    { dev, leds := deviceLeds shown picture dev }

theorem setDeviceColors_open (link : Bool × Bool) : setDeviceColors link ≠ .connectionClosed := by
  unfold setDeviceColors
  split_ifs <;> decide

theorem renderDevices_run (shown : List (Picture ℝ)) (picture : Picture ℝ)
    (link : ℕ → Bool × Bool) (di : ℕ) (devices : List Device) :
    ∃ anyFailed, renderDevices picture link di devices (devices.map (frameAfter shown)) =
      some { devFrames := devices.map (frameAfter (shown ++ [picture]))
             sent := sentFrames shown picture devices
             anyFailed
             closed := false } := by
  induction devices generalizing di with
  | nil => exact ⟨false, rfl⟩
  | cons dev devices ih =>
    obtain ⟨anyFailed, rest⟩ := ih (di + 1)
    rw [List.map_cons, List.map_cons, renderDevices]
    by_cases none' : dev.leds = []
    · have still : frameAfter (shown ++ [picture]) dev = frameAfter shown dev := by
        rw [frameAfter, frameAfter, if_pos none', if_pos none']
      have passed :
          sentFrames shown picture (dev :: devices) = sentFrames shown picture devices := by
        rw [sentFrames, List.filter_cons_of_neg (by simpa using none')]
        rfl
      rw [if_pos none', rest, still, passed]
      exact ⟨anyFailed, rfl⟩
    · have sent : sentFrames shown picture (dev :: devices) =
          ⟨dev, deviceLeds shown picture dev⟩ :: sentFrames shown picture devices := by
        rw [sentFrames, List.filter_cons_of_pos (by simpa using none')]
        rfl
      rw [if_neg none', renderDevice_run shown picture none', Option.bind_eq_bind,
        Option.bind_some]
      dsimp only
      rw [if_neg (setDeviceColors_open _), rest, sent, frameAfter_concat shown picture none']
      exact ⟨_, rfl⟩

/-! ### Runs -/

section Runs

variable (text : Text → String)

/-- Every device has its frame, and the frame is what its pictures made of it. -/
def Framed (w : Worker ℝ) : Prop := w.devFrames = w.devices.map (frameAfter w.shown)

theorem framed_refresh (w : Worker ℝ) (answers : Refresh) : Framed (w.refresh text answers) := by
  unfold Framed Worker.refresh
  exact List.map_congr_left fun dev _ => (frameAfter_nil dev).symm

theorem framed_readSettings {w : Worker ℝ} (framed : Framed w) (tick : Tick ℝ) :
    Framed (w.readSettings tick) := by
  unfold Worker.readSettings
  split_ifs
  · exact framed
  · exact framed

theorem framed_checkUpdates {w : Worker ℝ} (framed : Framed w) (tick : Tick ℝ) :
    Framed (w.checkUpdates text tick).1 := by
  unfold Worker.checkUpdates
  dsimp only
  split_ifs
  · exact framed_refresh text _ _
  · exact framed
  · exact framed_refresh text _ _
  · exact framed
  · exact framed

theorem framed_reconnect {w : Worker ℝ} (framed : Framed w) (tick : Tick ℝ) (closed : Bool) :
    Framed (w.reconnect text tick closed) := by
  unfold Worker.reconnect
  dsimp only
  split_ifs
  · exact framed
  · exact framed_refresh text _ _
  · exact framed

/-- The worker as it paints in a turn. -/
noncomputable def Worker.painting (w : Worker ℝ) (tick : Tick ℝ) : Worker ℝ × Bool :=
  (w.readSettings tick).checkUpdates text tick

theorem step_framed {w : Worker ℝ} (framed : Framed w) (tick : Tick ℝ) :
    ∃ w', Framed w' ∧ Worker.step text w tick = some (w',
      if (w.painting text tick).2 then
        sentFrames (w.painting text tick).1.shown tick.picture (w.painting text tick).1.devices
      else []) := by
  have ready := framed_checkUpdates text (framed_readSettings framed tick) tick
  unfold Worker.painting Worker.step
  dsimp only
  split_ifs with goesOn
  · obtain ⟨anyFailed, painted⟩ := renderDevices_run _ tick.picture tick.link 0 _
    rw [← ready] at painted
    rw [painted, Option.bind_eq_bind, Option.bind_some]
    refine ⟨_, framed_reconnect text ?_ tick false, rfl⟩
    rfl
  · exact ⟨_, ready, rfl⟩

theorem run_framed (config : OpenRgbConfig ℝ) (version : ℕ) (status : Status) (answers : Refresh)
    (ticks : List (Tick ℝ)) :
    ∃ w sent, Machine.run (Worker.step text) (Worker.start text config version status answers)
      ticks = some (w, sent) ∧ Framed w := by
  induction ticks using List.reverseRecOn with
  | nil => exact ⟨_, [], rfl, framed_refresh text _ answers⟩
  | append_singleton ticks tick ih =>
    obtain ⟨w, sent, run, framed⟩ := ih
    obtain ⟨w', framed', moved⟩ := step_framed text framed tick
    exact ⟨w', _, Machine.run_snoc_iff.mpr ⟨w, sent, _, run, moved, rfl⟩, framed'⟩

end Runs

/-- After any turns of the worker the next one does not fail, and unless it finds the connection
lost it sends every device with LEDs one frame: of the size of the device, made of what each zone
shows by its own pictures since the devices were listed, and within the brightness. -/
theorem openrgb_frames (text : Text → String) (config : OpenRgbConfig ℝ) (version : ℕ)
    (status : Status) (answers : Refresh) (ticks : List (Tick ℝ)) :
    ∃ w sent, Machine.run (Worker.step text) (Worker.start text config version status answers)
      ticks = some (w, sent) ∧ ∀ tick, ∃ w',
        Worker.step text w tick = some (w', if (w.painting text tick).2 then
          sentFrames (w.painting text tick).1.shown tick.picture (w.painting text tick).1.devices
        else []) ∧
        ∀ dev ∈ (w.painting text tick).1.devices,
          (deviceLeds (w.painting text tick).1.shown tick.picture dev).length = dev.leds.length ∧
          Moderate tick.config.brightness
            (deviceLeds (w.painting text tick).1.shown tick.picture dev) := by
  obtain ⟨w, sent, run, framed⟩ := run_framed text config version status answers ticks
  refine ⟨w, sent, run, fun tick => ?_⟩
  obtain ⟨w', -, moved⟩ := step_framed text framed tick
  refine ⟨w', moved, fun dev _ => ⟨length_deviceLeds _ _ dev, ?_⟩⟩
  exact moderate_deviceLeds (w.painting text tick).1.shown tick.picture dev

end Listeningway.Output.OpenRgbConsumer
