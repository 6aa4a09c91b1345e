/- Listeningway/Overlay/DrawOverlay
   source: src/overlay/overlay.cpp; src/output/consumer_registry.cpp; src/app.cpp
   digest: An overlay frame with all its buttons, and when the running consumers follow it. -/

import Listeningway.Config.Persistence
import Listeningway.Lib.Machine
import Listeningway.Output.ConsumerRegistry
import Listeningway.System.AudioSystem

/-!
Overlay frames and `tick_running` both run on the render thread, so each is one step here,
and so is each call that it makes into the registry. A worker that fails inside a frame or a
tick counts as failing before or after it.
-/

set_option autoImplicit false
set_option relaxedAutoImplicit false

namespace Listeningway.Overlay

open Listeningway.Config
open Listeningway.Lib.Machine
open Listeningway.Output.ConsumerRegistry (Consumer Decision appConsumers settingsChangedDecision
  startAllDecision)
open Listeningway.System.AudioSystem (setCode)

variable {K : Type}

/-! ### The registry between calls -/

/-- A registered consumer with its `active_` flag; `hasStore` says that `store_` is set. -/
structure Registered where
  consumer : Consumer
  hasStore : Bool
  active : Bool
  wantsDisarm : Bool
  deriving DecidableEq, Repr

namespace Registered

/-- What `start` returns; only the network consumers need the store. -/
def starts (r : Registered) : Bool := !r.consumer.hasWorker || r.hasStore

def start (r : Registered) : Registered :=
  if r.starts then { r with active := true, wantsDisarm := false } else { r with active := false }

def stop (r : Registered) : Registered := { r with active := false, wantsDisarm := false }

def decide (r : Registered) : Decision → Registered
  | .nothing => r
  | .start => r.start
  | .stop => r.stop

@[simp] theorem decide_consumer (r : Registered) (d : Decision) :
    (r.decide d).consumer = r.consumer := by
  cases d with
  | nothing => rfl
  | start =>
    unfold decide start
    split_ifs <;> rfl
  | stop => rfl

@[simp] theorem decide_starts (r : Registered) (d : Decision) :
    (r.decide d).starts = r.starts := by
  cases d with
  | nothing => rfl
  | start =>
    unfold decide start
    split_ifs <;> rfl
  | stop => rfl

theorem start_active (r : Registered) : r.start.active = r.starts := by
  unfold start
  split_ifs with able
  · exact able.symm
  · exact (Bool.eq_false_iff.mpr able).symm

end Registered

def startAll (cfg : Settings K) (registry : List Registered) : List Registered :=
  registry.map fun r => r.decide (startAllDecision r.consumer cfg r.active)

def onSettingsChanged (cfg : Settings K) (registry : List Registered) : List Registered :=
  registry.map fun r => r.decide (settingsChangedDecision r.consumer cfg r.active)

/-! ### Frames and ticks -/

structure State (K : Type) [Field K] [LinearOrder K] where
  store : Store K
  registry : List Registered

/-- What the user does in one frame. `edit` and `dirty` stand for all widgets up to the
settings section; `load` is what the file parses to when Load is pressed. Save only writes
the file. -/
structure Frame (K : Type) where
  switchTo : Option String
  edit : Settings K → Settings K
  dirty : Bool
  load : Option (Option (Settings K))
  reset : Bool
  restart : Bool
  debugLogging : Option Bool

inductive Act (K : Type) where
  | frame (f : Frame K)
  | tick
  | workerFails (i : ℕ)

namespace Frame

/-- `cfg` after all widgets. -/
def edited (f : Frame K) (cfg : Settings K) : Settings K :=
  match f.debugLogging with
  | some on => { f.edit cfg with debug := { (f.edit cfg).debug with debugLogging := on } }
  | none => f.edit cfg

def isDirty (f : Frame K) : Bool := f.dirty || f.debugLogging.isSome

end Frame

variable [Field K] [LinearOrder K] [IsStrictOrderedRing K]

/-- `switch_source`, as far as the settings go. -/
def switchSource (code : String) (store : Store K) : Store K := store.mutate (setCode code)

namespace Frame

/-- What the source box and the buttons do to the store, in the order of `draw_overlay`. -/
def buttons (f : Frame K) (store : Store K) : Store K :=
  let cfg := f.edit store.snapshot
  let store := match f.switchTo with
    | some code => switchSource code store
    | none => store
  let store := match f.load with
    | some file => (store.load file).2
    | none => store
  let store := if f.reset then store.publish (Settings.defaults K) else store
  if f.restart then switchSource cfg.audio.captureSourceCode store else store

end Frame

/-- The frame works on a copy of the settings that it took first, and publishes the copy if
an edit made it dirty. -/
def drawOverlay (f : Frame K) (s : State K) : State K :=
  let cfg := f.edited s.store.snapshot
  if f.isDirty then
    { store := (f.buttons s.store).publish cfg, registry := onSettingsChanged cfg s.registry }
  else { s with store := f.buttons s.store }

def pollSelfDisarm (s : State K) : State K :=
  let wanting := s.registry.filter Registered.wantsDisarm
  let store := wanting.foldl (fun store r => store.mutate r.consumer.disarmInSettings) s.store
  if wanting.isEmpty then s
  else { store := store, registry := onSettingsChanged store.snapshot s.registry }

/-- Only a worker that has been started can fail. -/
def workerFails (i : ℕ) (s : State K) : Option (State K) :=
  s.registry[i]?.bind fun r =>
    if r.consumer.hasWorker && r.active then
      some { s with registry := s.registry.set i { r with wantsDisarm := true } }
    else none

def step : Step (State K) (Act K) Unit
  | s, .frame f => some (drawOverlay f s, [])
  | s, .tick => some (pollSelfDisarm s, [])
  | s, .workerFails i => (workerFails i s).map fun t => (t, [])

/-- The registry of `App` with every consumer stopped. -/
def appRegistry : List Registered := appConsumers.map fun c => ⟨c, true, false, false⟩

/-- The state that the boot phases end in. -/
def booted (store : Store K) : State K where
  store := store
  registry := startAll store.snapshot appRegistry

/-! ### The running consumers and the settings -/

/-- The consumer can follow the settings, and `cfg` says what it should do. -/
def Registered.Follows (cfg : Settings K) (r : Registered) : Prop :=
  r.consumer.isUserConfigurable = true → r.starts = true → r.active = r.consumer.isEnabled cfg

def Matches (s : State K) : Prop := ∀ r ∈ s.registry, r.Follows s.store.snapshot

/-- The settings by which Load or Reset replaces those of the store. -/
def Frame.replacement (f : Frame K) : Option (Settings K) :=
  if f.reset then some (Settings.defaults K)
  else match f.load with
    | some (some loaded) =>
      if loaded.schemaVersion = kCurrentSchemaVersion then some loaded else none
    | _ => none

/-- An edit in the same frame, or no consumer that Load or Reset switches on or off. -/
def Frame.Harmless (f : Frame K) (s : State K) : Prop :=
  f.isDirty = true ∨
    ∀ cfg ∈ f.replacement, ∀ r ∈ s.registry, r.consumer.isUserConfigurable = true →
      r.starts = true → r.consumer.isEnabled cfg = r.consumer.isEnabled s.store.snapshot

omit [Field K] [LinearOrder K] [IsStrictOrderedRing K] in
theorem follows_congr {cfg cfg' : Settings K} {r : Registered}
    (same : r.consumer.isEnabled cfg = r.consumer.isEnabled cfg') :
    r.Follows cfg ↔ r.Follows cfg' := by
  rw [Registered.Follows, Registered.Follows, same]

omit [IsStrictOrderedRing K] in
theorem isEnabled_clampInPlace (cfg : Settings K) (c : Consumer) :
    c.isEnabled cfg.clampInPlace = c.isEnabled cfg := by
  cases c <;> rfl

theorem isEnabled_switchSource (code : String) (store : Store K) (c : Consumer) :
    c.isEnabled (switchSource code store).snapshot = c.isEnabled store.snapshot := by
  have unchanged : c.isEnabled (setCode code store.snapshot) = c.isEnabled store.snapshot := by
    cases c <;> rfl
  exact (isEnabled_clampInPlace _ c).trans unchanged

omit [Field K] [LinearOrder K] [IsStrictOrderedRing K] in
theorem follows_decide (cfg : Settings K) (r : Registered) :
    (r.decide (settingsChangedDecision r.consumer cfg r.active)).Follows cfg := by
  intro configurable starts
  rw [r.decide_consumer] at configurable ⊢
  rw [r.decide_starts] at starts
  unfold settingsChangedDecision
  rw [configurable]
  cases enabled : r.consumer.isEnabled cfg with
  | true =>
    cases active : r.active with
    | true => exact active
    | false => exact r.start_active.trans starts
  | false =>
    cases active : r.active with
    | true => rfl
    | false => exact active

omit [Field K] [LinearOrder K] [IsStrictOrderedRing K] in
theorem follows_onSettingsChanged (cfg : Settings K) (registry : List Registered) :
    ∀ r ∈ onSettingsChanged cfg registry, r.Follows cfg := by
  intro r listed
  obtain ⟨before, -, rfl⟩ := List.mem_map.mp listed
  exact follows_decide cfg before

theorem matches_of_dirty {f : Frame K} (dirty : f.isDirty = true) (s : State K) :
    Matches (drawOverlay f s) := by
  unfold Matches drawOverlay
  rw [if_pos dirty]
  intro r listed
  refine (follows_congr ?_).mpr (follows_onSettingsChanged (f.edited s.store.snapshot) _ r listed)
  exact isEnabled_clampInPlace _ _

theorem isEnabled_buttons (f : Frame K) (store : Store K) (c : Consumer) :
    c.isEnabled (f.buttons store).snapshot =
      c.isEnabled (f.replacement.getD store.snapshot) := by
  obtain ⟨switchTo, edit, dirty, load, reset, restart, debugLogging⟩ := f
  have restarted (store : Store K) (code : String) :
      c.isEnabled (if restart then switchSource code store else store).snapshot =
        c.isEnabled store.snapshot := by
    split_ifs
    · exact isEnabled_switchSource code store c
    · rfl
  have switched : c.isEnabled (match switchTo with
      | some code => switchSource code store
      | none => store).snapshot = c.isEnabled store.snapshot := by
    cases switchTo with
    | some code => exact isEnabled_switchSource code store c
    | none => rfl
  refine (restarted _ _).trans ?_
  cases reset with
  | true => exact isEnabled_clampInPlace _ c
  | false =>
    rcases load with _ | _ | loaded
    · exact switched
    · exact switched
    · by_cases known : loaded.schemaVersion = kCurrentSchemaVersion
      · simp [Frame.replacement, Store.load, known, Store.snapshot, isEnabled_clampInPlace]
      · simpa [Frame.replacement, Store.load, known] using switched

theorem matches_clean_iff {f : Frame K} (clean : f.isDirty = false) {s : State K}
    (before : Matches s) :
    Matches (drawOverlay f s) ↔ f.Harmless s := by
  have kept : Matches (drawOverlay f s) ↔
      ∀ r ∈ s.registry, r.Follows (f.replacement.getD s.store.snapshot) := by
    unfold Matches drawOverlay
    rw [if_neg (by rw [clean]; exact Bool.false_ne_true)]
    refine forall₂_congr fun r _ => ?_
    exact follows_congr (isEnabled_buttons f s.store r.consumer)
  rw [kept, Frame.Harmless, clean]
  simp only [Bool.false_eq_true, false_or]
  cases f.replacement with
  | none => exact iff_of_true before fun _ none => absurd none (by simp)
  | some cfg =>
    constructor
    · intro now cfg' same r listed configurable starts
      obtain rfl := Option.some.inj same
      exact (now r listed configurable starts).symm.trans (before r listed configurable starts)
    · intro same r listed configurable starts
      exact (before r listed configurable starts).trans
        (same cfg rfl r listed configurable starts).symm

theorem matches_drawOverlay_iff (f : Frame K) {s : State K} (before : Matches s) :
    Matches (drawOverlay f s) ↔ f.Harmless s := by
  cases dirty : f.isDirty with
  | true => exact iff_of_true (matches_of_dirty dirty s) (.inl dirty)
  | false => exact matches_clean_iff dirty before

theorem matches_pollSelfDisarm {s : State K} (before : Matches s) :
    Matches (pollSelfDisarm s) := by
  unfold pollSelfDisarm
  dsimp only
  split_ifs with quiet
  · exact before
  · exact follows_onSettingsChanged _ _

omit [IsStrictOrderedRing K] in
theorem matches_workerFails {i : ℕ} {s t : State K} (before : Matches s)
    (failed : workerFails i s = some t) : Matches t := by
  obtain ⟨r, found, failed⟩ := Option.bind_eq_some_iff.mp failed
  split_ifs at failed
  obtain rfl := Option.some.inj failed
  intro r' listed
  rcases List.mem_or_eq_of_mem_set listed with old | rfl
  · exact before r' old
  · exact before r (List.mem_of_getElem? found)

/-- Whatever the user does in the frames, wherever the ticks fall and whichever workers
fail: the running consumers match the settings at the end of every frame exactly when every
frame is harmless. -/
theorem consumers_match_iff {s : State K} (before : Matches s) (as : List (Act K)) :
    Along step (fun t a => ∀ f, a = .frame f → Matches (drawOverlay f t)) s as ↔
      Along step (fun t a => ∀ f, a = .frame f → f.Harmless t) s as := by
  refine along_iff_along Matches ?_ ?_ before as
  · intro t a matched
    refine forall₂_congr fun f _ => ?_
    exact matches_drawOverlay_iff f matched
  · intro t a u os matched ended moved
    cases a with
    | frame f =>
      obtain ⟨rfl, -⟩ := Prod.mk.inj (Option.some.inj moved)
      exact ended f rfl
    | tick =>
      obtain ⟨rfl, -⟩ := Prod.mk.inj (Option.some.inj moved)
      exact matches_pollSelfDisarm matched
    | workerFails i =>
      obtain ⟨u', failed, same⟩ := Option.map_eq_some_iff.mp moved
      obtain ⟨rfl, -⟩ := Prod.mk.inj same
      exact matches_workerFails matched failed

/-! ### After the boot -/

omit [Field K] [LinearOrder K] [IsStrictOrderedRing K] in
theorem follows_startAll (cfg : Settings K) {registry : List Registered}
    (stopped : ∀ r ∈ registry, r.active = false) :
    ∀ r ∈ startAll cfg registry, r.Follows cfg := by
  intro r' listed configurable starts
  obtain ⟨r, before, rfl⟩ := List.mem_map.mp listed
  rw [r.decide_consumer] at configurable ⊢
  rw [r.decide_starts] at starts
  unfold startAllDecision
  rw [configurable, stopped r before]
  cases enabled : r.consumer.isEnabled cfg with
  | true => exact r.start_active.trans starts
  | false => exact stopped r before

omit [IsStrictOrderedRing K] in
theorem matches_booted (store : Store K) : Matches (booted store) := by
  refine follows_startAll _ fun r listed => ?_
  obtain ⟨c, -, rfl⟩ := List.mem_map.mp listed
  rfl

def Frame.untouched : Frame K where
  switchTo := none
  edit := id
  dirty := false
  load := none
  reset := false
  restart := false
  debugLogging := none

/-- The OSC checkbox. -/
def oscOn (cfg : Settings K) : Settings K :=
  { cfg with network := { cfg.network with osc := { cfg.network.osc with enabled := true } } }

/-- OSC is switched on and fails, and the source is switched. -/
def oscTried : List (Act ℚ) :=
  [.frame { Frame.untouched with edit := oscOn, dirty := true }, .workerFails 2, .tick,
    .frame { Frame.untouched with switchTo := some "off" }]

theorem oscTried_matches :
    Along step (fun t a => ∀ f, a = .frame f → Matches (drawOverlay f t))
      (booted (Store.initial : Store ℚ)) oscTried := by
  refine (consumers_match_iff (matches_booted _) _).mpr (along_of_forall ?_ _)
  intro a listed t f same
  subst same
  simp only [oscTried, List.mem_cons, Act.frame.injEq, reduceCtorEq, List.not_mem_nil, or_false,
    false_or] at listed
  rcases listed with rfl | rfl
  · exact .inl rfl
  · exact .inr fun cfg none => absurd none (Option.not_mem_none cfg)

/-- Reset with OSC on: the settings say off, and OSC goes on sending. -/
theorem reset_leaves_osc_running :
    ¬ ∀ (s : State ℚ) (as : List (Act ℚ)), Matches s →
      Along step (fun t a => ∀ f, a = .frame f → Matches (drawOverlay f t)) s as := by
  intro always
  let s : State ℚ := booted (Store.initial.publish (oscOn (Settings.defaults ℚ)))
  have ended := always s [.frame { Frame.untouched with reset := true }] (matches_booted _)
  have osc : (⟨.osc, true, true, false⟩ : Registered) ∈ s.registry := by
    exact .tail _ (.tail _ (.head _))
  exact absurd (ended.1 _ rfl _ osc rfl rfl) (by decide)

end Listeningway.Overlay
