/- Listeningway/Output/OpenRgbStatus
   source: src/output/openrgb_consumer.cpp
   digest: What the status of the OpenRGB worker tells over a run, and the error that stays. -/

import Listeningway.Output.OpenRgbFrames

/-!
A failed device list marks the status as not connected although the connection stands, and only
`try_connect`, which a standing connection never reaches, marks it as connected again.
-/

set_option autoImplicit false
set_option relaxedAutoImplicit false

namespace Listeningway.Output.OpenRgbConsumer

open Listeningway.Config
open Listeningway.Lib
open Listeningway.OpenRgb
open Listeningway.Snapshot

/-- What `status_line` prints, before it is cut to its buffer. -/
inductive StatusLine where
  | off
  | error (dest lastError : String)
  | connecting (dest : String)
  | live (dest : String) (rateHz : ℤ) (deviceCount framesSent : ℕ)
  deriving DecidableEq, Repr

def Status.line (status : Status) (running : Bool) (dest : String) : StatusLine :=
  if ¬ running then .off
  else if status.lastError ≠ "" then .error dest status.lastError
  else if ¬ status.connected then .connecting dest
  else .live dest status.currentRateHz status.deviceCount status.framesSent

/-! ### One call -/

/-- A call either keeps the connection as it is told and loses no error, or tells of an error. -/
structure Tells (before after : Status) : Prop where
  told : (after.connected = before.connected ∧ (before.lastError ≠ "" → after.lastError ≠ "")) ∨
    (after.connected = false ∧ after.lastError ≠ "")
  frames : after.framesSent = before.framesSent

theorem attempts_message (answers : Refresh) (attempt more : ℕ) {msg : String}
    (failed : (answers.attempts attempt more).2 = some msg) : msg ≠ "" := by
  induction more generalizing attempt with
  | zero => exact absurd failed nofun
  | succ more ih =>
    rw [Refresh.attempts] at failed
    split_ifs at failed
    · obtain rfl := Option.some.inj failed
      simp
    · exact ih (attempt + 1) failed

theorem modeError_kept (answers : Refresh) (devices : List Device) (text : Text → String)
    {lastError : String} (told : lastError ≠ "") :
    answers.modeError devices text lastError ≠ "" := by
  induction devices generalizing lastError with
  | nil => exact told
  | cons dev devices ih =>
    refine ih ?_
    beta_reduce
    split_ifs
    · simp
    · exact told

theorem refreshDevices_tells (answers : Refresh) (text : Text → String) (status : Status) :
    Tells status (answers.refreshDevices text status).2 := by
  unfold Refresh.refreshDevices
  cases failed : (answers.attempts 0 Refresh.kRetries).2 with
  | some msg =>
    have told : msg ≠ "" := attempts_message answers _ _ failed
    rw [← Prod.mk.eta (p := answers.attempts 0 Refresh.kRetries), failed]
    exact ⟨.inr ⟨rfl, told⟩, rfl⟩
  | none =>
    rw [← Prod.mk.eta (p := answers.attempts 0 Refresh.kRetries), failed]
    dsimp only
    split_ifs
    · exact ⟨.inl ⟨rfl, fun _ => by simp⟩, rfl⟩
    · exact ⟨.inl ⟨rfl, fun _ => modeError_kept answers _ text (by simp)⟩, rfl⟩
    · exact ⟨.inl ⟨rfl, fun told => modeError_kept answers _ text told⟩, rfl⟩

theorem refresh_tells (w : Worker ℝ) (text : Text → String) (answers : Refresh) :
    Tells w.status (w.refresh text answers).status := refreshDevices_tells answers text w.status

theorem readSettings_tells (w : Worker ℝ) (tick : Tick ℝ) :
    Tells w.status (w.readSettings tick).status := by
  unfold Worker.readSettings
  dsimp only
  split_ifs
  · exact ⟨.inl ⟨rfl, id⟩, rfl⟩
  · exact ⟨.inl ⟨rfl, id⟩, rfl⟩
  · exact ⟨.inl ⟨rfl, id⟩, rfl⟩

namespace Tells

variable {before between after : Status}

theorem refl (status : Status) : Tells status status := ⟨.inl ⟨rfl, id⟩, rfl⟩

theorem trans (first : Tells before between) (second : Tells between after) :
    Tells before after := by
  refine ⟨?_, second.frames.trans first.frames⟩
  rcases second.told with ⟨same, kept⟩ | wrong
  · rcases first.told with ⟨same', kept'⟩ | ⟨down, told⟩
    · exact .inl ⟨same.trans same', kept ∘ kept'⟩
    · exact .inr ⟨same.trans down, kept told⟩
  · exact .inr wrong

end Tells

/-! ### One turn -/

/-- Not connected, with an error. -/
def Stale (status : Status) : Prop := status.connected = false ∧ status.lastError ≠ ""

/-- Connected, or with an error. -/
def Told (status : Status) : Prop := status.connected = true ∨ status.lastError ≠ ""

theorem line_stale {status : Status} (stale : Stale status) (dest : String) :
    status.line true dest = .error dest status.lastError := by
  rw [Status.line, if_neg (not_not.mpr rfl), if_pos stale.2]

theorem line_live {status : Status} (connected : status.connected = true)
    (clear : status.lastError = "") (dest : String) : status.line true dest =
      .live dest status.currentRateHz status.deviceCount status.framesSent := by
  rw [Status.line, if_neg (not_not.mpr rfl), if_neg (not_not.mpr clear),
    if_neg (not_not.mpr connected)]

theorem line_told {status : Status} (told : Told status) (dest : String) :
    status.line true dest ≠ .connecting dest := by
  by_cases wrong : status.lastError ≠ ""
  · rw [Status.line, if_neg (not_not.mpr rfl), if_pos wrong]
    nofun
  · rw [line_live (told.resolve_right wrong) (not_not.mp wrong)]
    nofun

theorem Stale.of_tells {before after : Status} (stale : Stale before)
    (tells : Tells before after) : Stale after := by
  rcases tells.told with ⟨same, kept⟩ | wrong
  · exact ⟨same.trans stale.1, kept stale.2⟩
  · exact wrong

theorem Told.of_tells {before after : Status} (told : Told before)
    (tells : Tells before after) : Told after := by
  rcases tells.told with ⟨same, kept⟩ | wrong
  · exact told.imp same.trans kept
  · exact .inr wrong.2

theorem told_tryConnect (status : Status) (cs : ConnectStatus) :
    Told (status.tryConnect cs) := by
  unfold Status.tryConnect
  split_ifs
  · exact .inl rfl
  · exact .inr (by simp [Status.recordError])

theorem told_painted {status : Status} (told : Told status) (painted : Painted ℝ) :
    Told (status.painted painted) := by
  unfold Status.painted
  dsimp only
  split_ifs with closed failed clears
  · exact .inr (by simp [Status.recordError])
  · exact told
  · exact .inl clears.1
  · exact told

theorem stale_painted {status : Status} (stale : Stale status) {painted : Painted ℝ}
    (opened : painted.closed = false) : Stale (status.painted painted) := by
  have down : ¬ (status.connected = true ∧ status.lastError ≠ "") := by simp [stale.1]
  unfold Status.painted
  rw [opened]
  dsimp only
  rw [if_neg Bool.false_ne_true, if_neg down]
  split_ifs
  · exact stale
  · exact stale

theorem framesSent_painted {status : Status} {painted : Painted ℝ}
    (opened : painted.closed = false) (sound : painted.anyFailed = false) :
    (status.painted painted).framesSent = status.framesSent + 1 := by
  unfold Status.painted
  rw [opened, sound]
  dsimp only
  rw [if_neg Bool.false_ne_true, if_neg Bool.false_ne_true]
  split_ifs <;> rfl

theorem clear_painted {status : Status} (connected : status.connected = true)
    {painted : Painted ℝ} (opened : painted.closed = false) (sound : painted.anyFailed = false) :
    (status.painted painted).connected = true ∧ (status.painted painted).lastError = "" := by
  unfold Status.painted
  rw [opened, sound]
  dsimp only
  rw [if_neg Bool.false_ne_true, if_neg Bool.false_ne_true]
  split_ifs with wrong
  · exact ⟨connected, rfl⟩
  · exact ⟨connected, by_contra fun told => wrong ⟨connected, told⟩⟩

/-- A turn that finds the connection standing. -/
structure Tick.Held (tick : Tick ℝ) : Prop where
  update : tick.update ≠ .connectionClosed ∧ tick.update ≠ .otherSystemError
  connected : tick.connected = true

/-- A turn at which every frame is sent. -/
def Tick.Delivered (tick : Tick ℝ) : Prop := ∀ di, tick.link di = (true, true)

section Turn

variable (text : Text → String)

theorem checkUpdates_tells (w : Worker ℝ) {tick : Tick ℝ} (held : tick.Held) :
    Tells w.status (w.checkUpdates text tick).1.status ∧ (w.checkUpdates text tick).2 = true := by
  have open' : ¬ (tick.update = .connectionClosed ∨ tick.update = .otherSystemError) :=
    not_or.mpr held.update
  unfold Worker.checkUpdates
  dsimp only
  rw [if_neg open']
  split_ifs
  · exact ⟨refresh_tells _ text tick.refresh, rfl⟩
  · exact ⟨.refl _, rfl⟩
  · exact ⟨.refl _, rfl⟩

theorem painting_tells (w : Worker ℝ) {tick : Tick ℝ} (held : tick.Held) :
    Tells w.status (w.painting text tick).1.status ∧ (w.painting text tick).2 = true := by
  obtain ⟨tells, goesOn⟩ := checkUpdates_tells text (w.readSettings tick) held
  exact ⟨(readSettings_tells w tick).trans tells, goesOn⟩

theorem painting_connected (w : Worker ℝ) {tick : Tick ℝ} (held : tick.Held)
    (steady : tick.update ≠ .outOfDate) :
    (w.painting text tick).1.status.connected = w.status.connected := by
  have open' : ¬ (tick.update = .connectionClosed ∨ tick.update = .otherSystemError) :=
    not_or.mpr held.update
  unfold Worker.painting Worker.checkUpdates Worker.readSettings
  dsimp only
  rw [if_neg open', if_neg steady]
  split_ifs <;> rfl

theorem told_refresh {w : Worker ℝ} (told : Told w.status) (answers : Refresh) :
    Told (w.refresh text answers).status := told.of_tells (refresh_tells w text answers)

theorem told_checkUpdates {w : Worker ℝ} (told : Told w.status) (tick : Tick ℝ) :
    Told (w.checkUpdates text tick).1.status := by
  unfold Worker.checkUpdates
  dsimp only
  split_ifs
  · exact told_refresh text told _
  · exact told_tryConnect _ _
  · exact told_refresh text (told_tryConnect _ _) _
  · exact told
  · exact told

theorem told_reconnect {w : Worker ℝ} (told : Told w.status) (tick : Tick ℝ) (closed : Bool) :
    Told (w.reconnect text tick closed).status := by
  unfold Worker.reconnect
  dsimp only
  split_ifs
  · exact told
  · exact told_refresh text (told_tryConnect _ _) _
  · exact told_tryConnect _ _

theorem told_step {w w' : Worker ℝ} (told : Told w.status) (tick : Tick ℝ) {sent : List Sent}
    (moved : Worker.step text w tick = some (w', sent)) : Told w'.status := by
  have ready : Told (w.painting text tick).1.status :=
    told_checkUpdates text (told.of_tells (readSettings_tells w tick)) tick
  unfold Worker.step at moved
  dsimp only at moved
  split_ifs at moved with goesOn
  · obtain ⟨painted, -, moved⟩ := Option.bind_eq_some_iff.mp moved
    obtain ⟨rfl, -⟩ := Prod.mk.inj (Option.some.inj moved)
    exact told_reconnect text (told_painted ready painted) tick painted.closed
  · obtain ⟨rfl, -⟩ := Prod.mk.inj (Option.some.inj moved)
    exact ready

theorem renderDevices_delivered {picture : Picture ℝ} {link : ℕ → Bool × Bool} {di : ℕ}
    {devices : List Device} {frames : List (DeviceFrame ℝ)} {painted : Painted ℝ}
    (delivered : ∀ di, link di = (true, true))
    (run : renderDevices picture link di devices frames = some painted) :
    painted.anyFailed = false := by
  have success : ∀ di, setDeviceColors (link di) = .success := by
    intro di
    rw [delivered]
    rfl
  induction devices generalizing di frames painted with
  | nil =>
    rw [renderDevices] at run
    rw [← Option.some.inj run]
  | cons dev devices ih =>
    cases frames with
    | nil =>
      rw [renderDevices] at run
      cases run
    | cons frame frames =>
      rw [renderDevices] at run
      split_ifs at run with dark
      · obtain ⟨rest, run, same⟩ := Option.bind_eq_some_iff.mp run
        rw [← Option.some.inj same]
        have delivered' := ih run
        exact delivered'
      · obtain ⟨lit, -, run⟩ := Option.bind_eq_some_iff.mp run
        rw [success, if_neg (by decide)] at run
        obtain ⟨rest, run, same⟩ := Option.bind_eq_some_iff.mp run
        rw [← Option.some.inj same]
        simp [ih run]

theorem step_held {w : Worker ℝ} (framed : Framed w) {tick : Tick ℝ} (held : tick.Held) :
    ∃ w' sent, ∃ painted : Painted ℝ, Worker.step text w tick = some (w', sent) ∧ Framed w' ∧
      painted.closed = false ∧ (tick.Delivered → painted.anyFailed = false) ∧
      w'.status = (w.painting text tick).1.status.painted painted := by
  obtain ⟨w', framed', moves⟩ := step_framed text framed tick
  obtain ⟨sent, moved⟩ : ∃ sent, Worker.step text w tick = some (w', sent) := ⟨_, moves⟩
  obtain ⟨-, goesOn⟩ := painting_tells text w held
  unfold Worker.painting at goesOn ⊢
  have ready := framed_checkUpdates text (framed_readSettings framed tick) tick
  obtain ⟨anyFailed, painted⟩ := renderDevices_run
    ((w.readSettings tick).checkUpdates text tick).1.shown tick.picture tick.link 0
    ((w.readSettings tick).checkUpdates text tick).1.devices
  rw [← ready] at painted
  refine ⟨w', sent, _, moved, framed', rfl,
    fun delivered => renderDevices_delivered delivered painted, ?_⟩
  unfold Worker.step at moved
  dsimp only at moved
  rw [goesOn, if_neg (not_not.mpr rfl), painted, Option.bind_eq_bind, Option.bind_some] at moved
  obtain ⟨same, -⟩ := Prod.mk.inj (Option.some.inj moved)
  rw [← same]
  unfold Worker.reconnect
  rw [if_pos ⟨held.connected, Bool.false_ne_true⟩]

/-! ### Runs -/

theorem run_stale {w : Worker ℝ} (framed : Framed w) (stale : Stale w.status)
    {later : List (Tick ℝ)} (held : ∀ tick ∈ later, tick.Held) :
    ∃ w' sent, Machine.run (Worker.step text) w later = some (w', sent) ∧ Stale w'.status ∧
      ((∀ tick ∈ later, tick.Delivered) →
        w'.status.framesSent = w.status.framesSent + later.length) := by
  induction later generalizing w with
  | nil => exact ⟨w, [], rfl, stale, fun _ => rfl⟩
  | cons tick later ih =>
    obtain ⟨now, next⟩ := List.forall_mem_cons.mp held
    obtain ⟨w₁, sent₁, painted, moved, framed₁, opened, sound, status⟩ := step_held text framed now
    obtain ⟨tells, -⟩ := painting_tells text w now
    have stale₁ : Stale w₁.status := by
      rw [status]
      exact stale_painted (stale.of_tells tells) opened
    obtain ⟨w', sent, run, stale', counts⟩ := ih framed₁ stale₁ next
    refine ⟨w', _, Machine.run_cons_iff.mpr ⟨w₁, _, _, moved, run, rfl⟩, stale', fun all => ?_⟩
    obtain ⟨first, rest⟩ := List.forall_mem_cons.mp all
    have counted : w₁.status.framesSent = w.status.framesSent + 1 := by
      rw [status, framesSent_painted opened (sound first), tells.frames]
    rw [counts rest, counted, List.length_cons]
    omega

theorem run_connected {w : Worker ℝ} (framed : Framed w) (connected : w.status.connected = true)
    {later : List (Tick ℝ)} (held : ∀ tick ∈ later, tick.Held)
    (steady : ∀ tick ∈ later, tick.update ≠ .outOfDate) (all : ∀ tick ∈ later, tick.Delivered) :
    ∃ w' sent, Machine.run (Worker.step text) w later = some (w', sent) ∧
      w'.status.connected = true ∧
      (w.status.lastError = "" ∨ later ≠ [] → w'.status.lastError = "") ∧
      w'.status.framesSent = w.status.framesSent + later.length := by
  induction later generalizing w with
  | nil => exact ⟨w, [], rfl, connected, fun clear => clear.resolve_right (not_not.mpr rfl), rfl⟩
  | cons tick later ih =>
    obtain ⟨now, next⟩ := List.forall_mem_cons.mp held
    obtain ⟨here, there⟩ := List.forall_mem_cons.mp steady
    obtain ⟨first, rest⟩ := List.forall_mem_cons.mp all
    obtain ⟨w₁, sent₁, painted, moved, framed₁, opened, sound, status⟩ := step_held text framed now
    have painting := (painting_connected text w now here).trans connected
    have frames := (painting_tells text w now).1.frames
    obtain ⟨connected₁, clear₁⟩ := clear_painted painting opened (sound first)
    rw [← status] at connected₁ clear₁
    obtain ⟨w', sent, run, connected', clear, counts⟩ := ih framed₁ connected₁ next there rest
    refine ⟨w', _, Machine.run_cons_iff.mpr ⟨w₁, _, _, moved, run, rfl⟩, connected',
      fun _ => clear (.inl clear₁), ?_⟩
    rw [counts, status, framesSent_painted opened (sound first), frames, List.length_cons]
    omega

end Turn

theorem stale_start (text : Text → String) (config : OpenRgbConfig ℝ) (version : ℕ)
    (status : Status) {answers : Refresh} (failed : (answers.lists 0).1 ≠ .success) :
    Stale (Worker.start text config version status answers).status := by
  have message : ∃ msg, (answers.attempts 0 Refresh.kRetries).2 = some msg := by
    rw [Refresh.kRetries, Refresh.attempts, if_pos failed]
    exact ⟨_, rfl⟩
  obtain ⟨msg, found⟩ := message
  have told : msg ≠ "" := attempts_message answers _ _ found
  unfold Worker.start Worker.refresh Refresh.refreshDevices
  rw [← Prod.mk.eta (p := answers.attempts 0 Refresh.kRetries), found]
  exact ⟨rfl, told⟩

/-- Once the first connect succeeded the status line never tells of connecting again. A status that
is not connected, as a device list that fails leaves it, shows an error for as long as the
connection stands, even when every frame is sent; one that is connected shows its frames
after any turns that send them all and do not list the devices. -/
theorem status_over_runs (text : Text → String) (config : OpenRgbConfig ℝ) (version : ℕ)
    (status : Status) (answers : Refresh) (ticks : List (Tick ℝ)) (dest : String) :
    ((answers.lists 0).1 ≠ .success →
      (Worker.start text config version status answers).status.connected = false) ∧
    ∃ w sent,
      Machine.run (Worker.step text) (Worker.start text config version status answers) ticks =
        some (w, sent) ∧
      w.status.line true dest ≠ .connecting dest ∧
      ∀ later : List (Tick ℝ), (∀ tick ∈ later, tick.Held) →
        (w.status.connected = false → ∃ w' sent' lastError,
          Machine.run (Worker.step text) w later = some (w', sent') ∧
          w'.status.line true dest = .error dest lastError ∧
          ((∀ tick ∈ later, tick.Delivered) →
            w'.status.framesSent = w.status.framesSent + later.length)) ∧
        (w.status.connected = true → later ≠ [] → (∀ tick ∈ later, tick.update ≠ .outOfDate) →
          (∀ tick ∈ later, tick.Delivered) → ∃ w' sent',
          Machine.run (Worker.step text) w later = some (w', sent') ∧
          w'.status.line true dest = .live dest w'.status.currentRateHz w'.status.deviceCount
            (w.status.framesSent + later.length)) := by
  refine ⟨fun failed => (stale_start text config version status failed).1, ?_⟩
  obtain ⟨w, sent, run, framed⟩ := run_framed text config version status answers ticks
  have told : Told w.status := by
    refine Machine.run_invariant (fun w => Told w.status) ?_ ?_ run
    · exact told_refresh text (told_tryConnect _ _) answers
    · exact fun _ tick _ _ told moved => told_step text told tick moved
  refine ⟨w, sent, run, line_told told dest, fun later held => ⟨fun down => ?_, ?_⟩⟩
  · have stale : Stale w.status := ⟨down, told.resolve_left (by rw [down]; decide)⟩
    obtain ⟨w', sent', run', stale', counts⟩ := run_stale text framed stale held
    exact ⟨w', sent', _, run', line_stale stale' dest, counts⟩
  · intro connected some' steady all
    obtain ⟨w', sent', run', connected', clear, counts⟩ :=
      run_connected text framed connected held steady all
    refine ⟨w', sent', run', ?_⟩
    rw [← counts]
    exact line_live connected' (clear (.inr some')) dest

section Strip

/-- A strip of two LEDs in one zone. -/
def strip : Device :=
  let led : LED := { idx := 0, parentIdx := 0, name := [0x31], value := 0 }
  { idx := 0, type := 4, name := [0x53], vendor := [], description := [], version := []
    serial := [], location := [], activeMode := 0, modes := []
    zones := [{ idx := 0, parentIdx := 0, name := [], type := .linear, ledsMin := 2, ledsMax := 2
                ledsCount := 2, matrixHeight := 0, matrixWidth := 0, matrixValues := [] }]
    leds := [led, led], colors := [] }

/-- The server lists the strip, or does not answer the first request for its list. -/
def listing (answered : Bool) : Refresh where
  count := (.success, 1)
  lists attempt := if answered ∨ attempt ≠ 0 then (.success, [strip]) else (.noReply, [])
  modes _ := .success

/-- A turn on the standing connection at which every frame is sent. -/
noncomputable def steadyTick : Tick ℝ where
  version := 0
  newConfig := OpenRgbConfig.defaults ℝ
  update := .upToDate
  reconnect := .success
  refresh := listing true
  elapsed := 0.033
  snap := AudioSnapshot.zero ℝ
  config := OpenRgbConfig.defaults ℝ
  link _ := (true, true)
  connected := true
  retry := .success
  retryRefresh := listing true

theorem steadyTick_held : ∀ tick ∈ [steadyTick, steadyTick], tick.Held := by
  intro tick among
  obtain rfl | rfl := List.mem_pair.mp among <;> exact ⟨⟨nofun, nofun⟩, rfl⟩

theorem steadyTick_delivered : ∀ tick ∈ [steadyTick, steadyTick], tick.Delivered := by
  intro tick among
  obtain rfl | rfl := List.mem_pair.mp among <;> exact fun _ => rfl

/-- Two turns that send their frames: with the list in time the line is live with both, without
it the error stays. -/
theorem first_list_decides :
    let start answered := Worker.start (fun _ => "strip") (OpenRgbConfig.defaults ℝ) 0
      (Status.starting 30 0 0 0) (listing answered)
    (∃ w sent lastError, Machine.run (Worker.step fun _ => "strip") (start false)
        [steadyTick, steadyTick] = some (w, sent) ∧
      w.status.line true "127.0.0.1" = .error "127.0.0.1" lastError ∧
        w.status.framesSent = 2) ∧
    ∃ w sent rateHz count, Machine.run (Worker.step fun _ => "strip") (start true)
        [steadyTick, steadyTick] = some (w, sent) ∧
      w.status.line true "127.0.0.1" = .live "127.0.0.1" rateHz count 2 := by
  intro start
  constructor
  · obtain ⟨failed, w, sent, run, -, later⟩ := status_over_runs (fun _ => "strip")
      (OpenRgbConfig.defaults ℝ) 0 (Status.starting 30 0 0 0) (listing false) [] "127.0.0.1"
    obtain ⟨rfl, -⟩ := Prod.mk.inj (Option.some.inj run)
    obtain ⟨w', sent', lastError, run', line, frames⟩ :=
      (later _ steadyTick_held).1 (failed (by decide))
    exact ⟨w', sent', lastError, run', line, frames steadyTick_delivered⟩
  · obtain ⟨-, w, sent, run, -, later⟩ := status_over_runs (fun _ => "strip")
      (OpenRgbConfig.defaults ℝ) 0 (Status.starting 30 0 0 0) (listing true) [] "127.0.0.1"
    obtain ⟨rfl, -⟩ := Prod.mk.inj (Option.some.inj run)
    have quiet : ∀ tick ∈ [steadyTick, steadyTick], tick.update ≠ .outOfDate := by
      intro tick among
      obtain rfl | rfl := List.mem_pair.mp among <;> exact nofun
    obtain ⟨w', sent', run', line⟩ :=
      (later _ steadyTick_held).2 rfl (List.cons_ne_nil _ _) quiet steadyTick_delivered
    exact ⟨w', sent', _, _, run', line⟩

end Strip

end Listeningway.Output.OpenRgbConsumer
