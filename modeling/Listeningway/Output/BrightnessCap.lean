/- Listeningway/Output/BrightnessCap
   source: src/output/openrgb_patterns/*.cpp; docs/adr/0014-openrgb-pattern-matrix.md
   digest: Every LED passes through the brightness last, and no LED exceeds its cap. -/

import Listeningway.Output.LinearPatterns
import Listeningway.Output.SinglePatterns
import Listeningway.Output.Waterfall
import Mathlib.Algebra.Order.Floor.Ring

/-!
What a pattern paints does not depend on the brightness; the brightness only dims it. Black
is what black is dimmed to, so the patterns that write black directly are no exception.
-/

set_option autoImplicit false
set_option relaxedAutoImplicit false

namespace Listeningway.Output.Patterns

open Listeningway.Config
open Listeningway.Dsp
open Listeningway.Lib.SpanWrites
open Listeningway.Snapshot
open Set (Icc)

/-! ### One colour -/

/-- No channel is above `bound`. -/
structure ColorRgb.AtMost (c : ColorRgb) (bound : UInt8) : Prop where
  r : c.r ≤ bound
  g : c.g ≤ bound
  b : c.b ≤ bound

/-- No channel of `c` is above that of `c'`. -/
structure ColorRgb.Below (c c' : ColorRgb) : Prop where
  r : c.r ≤ c'.r
  g : c.g ≤ c'.g
  b : c.b ≤ c'.b

theorem clamp01_mem (x : ℝ) : clamp01 x ∈ Icc (0 : ℝ) 1 := by
  unfold clamp01
  split_ifs with below above
  · exact ⟨le_rfl, zero_le_one⟩
  · exact ⟨zero_le_one, le_rfl⟩
  · exact ⟨not_lt.mp below, not_lt.mp above⟩

theorem clamp01_mono {x y : ℝ} (le : x ≤ y) : clamp01 x ≤ clamp01 y := by
  have upper := (clamp01_mem y).1
  unfold clamp01 at *
  split_ifs at * <;> linarith

theorem clamp01_of_nonpos {x : ℝ} (le : x ≤ 0) : clamp01 x = 0 := by
  apply le_antisymm _ (clamp01_mem x).1
  calc clamp01 x ≤ clamp01 0 := clamp01_mono le
    _ = 0 := by
      unfold clamp01
      norm_num

/-- The factor a brightness dims with. -/
noncomputable def level (brightness : ℝ) : ℝ :=
  clamp01 (min (clamp01 brightness) kBrightnessSafetyCap)

theorem level_nonneg (brightness : ℝ) : 0 ≤ level brightness := (clamp01_mem _).1

theorem level_le (brightness : ℝ) : level brightness ≤ 0.95 := by
  have cap : clamp01 (0.95 : ℝ) = 0.95 := by
    unfold clamp01
    norm_num
  rw [← cap]
  exact clamp01_mono (min_le_right _ _)

theorem level_mono {b b' : ℝ} (le : b ≤ b') : level b ≤ level b' :=
  clamp01_mono (min_le_min_right _ (clamp01_mono le))

theorem level_of_nonpos {b : ℝ} (dark : b ≤ 0) : level b = 0 := by
  unfold level
  rw [clamp01_of_nonpos dark]
  exact clamp01_of_nonpos (min_le_left _ _)

theorem truncate_mono {x y : ℝ} (le : x ≤ y) : truncate x ≤ truncate y :=
  Int.toNat_le_toNat (Int.floor_mono le)

theorem toNat_castByte {x : ℝ} {n : ℕ} (small : x < n + 1) (byte : n ≤ 255) :
    (castByte x).toNat = truncate x ∧ truncate x ≤ n := by
  have below : truncate x ≤ n := by
    unfold truncate
    have floor : ⌊x⌋ < (n : ℤ) + 1 := by
      rw [Int.floor_lt]
      push_cast
      exact small
    omega
  refine ⟨?_, below⟩
  rw [castByte, UInt8.toNat_ofNat']
  exact Nat.mod_eq_of_lt (by omega)

theorem dimmed_lt (v : UInt8) (b : ℝ) : (v.toNat : ℝ) * level b < 242 + 1 := by
  have byte : (v.toNat : ℝ) ≤ 255 := by
    exact_mod_cast Nat.lt_succ_iff.mp v.toNat_lt
  have nonneg := level_nonneg b
  have cap := level_le b
  norm_num at cap
  nlinarith

theorem dimmed_le (v : UInt8) (b : ℝ) : castByte ((v.toNat : ℝ) * level b) ≤ 242 := by
  obtain ⟨cut, below⟩ := toNat_castByte (n := 242) (by exact_mod_cast dimmed_lt v b) (by decide)
  rw [UInt8.le_iff_toNat_le, cut]
  exact below

theorem dimmed_mono (v : UInt8) {b b' : ℝ} (le : b ≤ b') :
    castByte ((v.toNat : ℝ) * level b) ≤ castByte ((v.toNat : ℝ) * level b') := by
  obtain ⟨cut, -⟩ := toNat_castByte (n := 242) (by exact_mod_cast dimmed_lt v b) (by decide)
  obtain ⟨cut', -⟩ := toNat_castByte (n := 242) (by exact_mod_cast dimmed_lt v b') (by decide)
  rw [UInt8.le_iff_toNat_le, cut, cut']
  apply truncate_mono
  exact mul_le_mul_of_nonneg_left (level_mono le) (Nat.cast_nonneg _)

theorem castByte_zero : castByte (0 : ℝ) = 0 := by
  unfold castByte truncate
  rw [Int.floor_zero]
  rfl

theorem dimmed_dark (v : UInt8) {b : ℝ} (dark : b ≤ 0) :
    castByte ((v.toNat : ℝ) * level b) = 0 := by
  rw [level_of_nonpos dark, mul_zero, castByte_zero]

/-- What the colours written under each brightness keep to. -/
structure Safe (colour : ℝ → ColorRgb) : Prop where
  capped : ∀ b, (colour b).AtMost 242
  dark : ∀ b ≤ 0, colour b = .black
  monotone : ∀ b b', b ≤ b' → (colour b).Below (colour b')

theorem safe_applyBrightness (c : ColorRgb) : Safe (applyBrightness c) where
  capped b := ⟨dimmed_le c.r b, dimmed_le c.g b, dimmed_le c.b b⟩
  dark b dark := by
    change ColorRgb.mk _ _ _ = _
    rw [ColorRgb.black, ColorRgb.mk.injEq]
    exact ⟨dimmed_dark c.r dark, dimmed_dark c.g dark, dimmed_dark c.b dark⟩
  monotone b b' le := ⟨dimmed_mono c.r le, dimmed_mono c.g le, dimmed_mono c.b le⟩

theorem applyBrightness_black (b : ℝ) : applyBrightness .black b = .black := by
  have channel : castByte ((((0 : UInt8).toNat : ℕ) : ℝ) * level b) = 0 := by
    rw [UInt8.toNat_zero, Nat.cast_zero, zero_mul, castByte_zero]
  change ColorRgb.mk _ _ _ = ColorRgb.mk _ _ _
  rw [ColorRgb.mk.injEq]
  exact ⟨channel, channel, channel⟩

/-! ### Painting a span -/

/-- A renderer without its state, over a span of `n` LEDs. -/
abbrev PaintsLeds (n : ℕ) (prog : ℝ → List ColorRgb → Option (List ColorRgb)) : Prop :=
  Paints (fun b c => applyBrightness c b) n prog

variable {n : ℕ} {state : PatternState ℝ}

theorem paints_black : PaintsLeds n fun _ out => some (fill out .black) := by
  apply (paints_fill .black).congr
  intro b out _
  rw [applyBrightness_black]

/-- The colour of a cell under each brightness is one colour, dimmed. -/
def Dimmed (cell : ℝ → ColorRgb) : Prop := ∃ c, ∀ b, cell b = applyBrightness c b

theorem dimmed_applyBrightness (c : ColorRgb) : Dimmed fun b => applyBrightness c b :=
  ⟨c, fun _ => rfl⟩

theorem dimmed_black : Dimmed fun _ => .black :=
  ⟨.black, fun b => (applyBrightness_black b).symm⟩

theorem Dimmed.ite {p : Prop} [Decidable p] {cell cell' : ℝ → ColorRgb} (yes : Dimmed cell)
    (no : Dimmed cell') : Dimmed fun b => if p then cell b else cell' b := by
  split_ifs
  · exact yes
  · exact no

namespace Linear

theorem paints_forEachLed {led : ℝ → ℕ → ℕ → ColorRgb} (each : ∀ i, Dimmed fun b => led b n i) :
    PaintsLeds n fun b out => forEachLed out (led b) := by
  choose lit dimmed using each
  have loop : PaintsLeds n fun b out =>
      (List.range n).foldlM (fun out i => store out i (applyBrightness (lit i) b)) out := by
    apply paints_foldlM
    intro i listed
    exact paints_store (List.mem_range.mp listed) (lit i)
  apply loop.congr
  intro b out length
  unfold forEachLed
  simp only [length, dimmed]

variable (snap : AudioSnapshot ℝ)

theorem paints_off : PaintsLeds n fun _ out => some (renderOff out) := paints_black

theorem paints_static : PaintsLeds n fun b out => some (renderStatic out b) := paints_fill _

theorem paints_colorWash : PaintsLeds n fun b out => some (renderColorWash snap out b) :=
  paints_fill _

theorem paints_spectrumBar : PaintsLeds n fun b out => renderSpectrumBar snap out b := by
  unfold renderSpectrumBar
  apply paints_forEachLed
  intro i
  exact dimmed_applyBrightness _

theorem paints_chaseOrbit : PaintsLeds n fun b out => renderChaseOrbit snap out b := by
  unfold renderChaseOrbit
  apply paints_forEachLed
  intro i
  exact dimmed_black.ite (dimmed_applyBrightness _)

theorem paints_pulseFromCenter : PaintsLeds n fun b out => renderPulseFromCenter snap out b := by
  unfold renderPulseFromCenter
  apply paints_forEachLed
  intro i
  exact dimmed_applyBrightness _

theorem paints_stereoSplit : PaintsLeds n fun b out => renderStereoSplit snap out b := by
  unfold renderStereoSplit
  apply paints_forEachLed
  intro i
  exact dimmed_applyBrightness _

end Linear

namespace Matrix

variable (snap : AudioSnapshot ℝ) (geom : MatrixGeometry)

theorem paints_setPixel (led : ℕ) {cell : ℝ → ColorRgb} (dimmed : Dimmed cell) :
    PaintsLeds n fun b out => setPixel out led (cell b) := by
  obtain ⟨c, dimmed⟩ := dimmed
  by_cases inside : led < n
  · apply (paints_store inside c).congr
    intro b out length
    rw [setPixel, if_neg (by omega), dimmed]
  · apply paints_skip.congr
    intro b out length
    rw [setPixel, if_pos (by omega)]

theorem paints_cell (row col : ℕ) {draw : ℝ → ℕ → List ColorRgb → Option (List ColorRgb)}
    (each : ∀ led, PaintsLeds n fun b out => draw b led out) :
    PaintsLeds n fun b out =>
      match cellToLed geom row col with
      | none => some out
      | some led => draw b led out := by
  cases cellToLed geom row col with
  | none => exact paints_skip
  | some led => exact each led

theorem paints_off : PaintsLeds n fun _ out => some (renderOff out) := paints_black

theorem paints_static : PaintsLeds n fun b out => some (renderStatic out b) := paints_fill _

theorem paints_colorWash : PaintsLeds n fun b out => some (renderColorWash snap out b) :=
  paints_fill _

theorem paints_beatFlash : PaintsLeds n fun b out => some (renderBeatFlash snap out b) :=
  paints_fill _

theorem paints_cleared {prog : ℝ → List ColorRgb → Option (List ColorRgb)}
    (loop : PaintsLeds n prog) : PaintsLeds n fun b out => prog b (clearAll out) :=
  paints_black.bind loop

theorem paints_spatialMap : PaintsLeds n fun b out => renderSpatialMap snap geom out b := by
  unfold renderSpatialMap
  refine Paints.ite (fun _ => paints_black) fun _ => paints_cleared (paints_foldlM ?_)
  intro row _
  apply paints_foldlM
  intro col _
  apply paints_cell
  intro led
  refine Paints.ite (fun _ => ?_) fun _ => paints_skip
  exact paints_setPixel led (dimmed_applyBrightness _)

theorem paints_equalizerColumns :
    PaintsLeds n fun b out => renderEqualizerColumns snap geom out b := by
  unfold renderEqualizerColumns
  refine Paints.ite (fun _ => paints_black) fun _ => Paints.ite (fun _ => paints_black) fun _ =>
    paints_cleared (paints_foldlM ?_)
  intro col _
  apply paints_foldlM
  intro row _
  refine Paints.ite (fun _ => paints_skip) fun _ => ?_
  apply paints_cell
  intro led
  exact paints_setPixel led (dimmed_applyBrightness _)

theorem paints_perRegion : PaintsLeds n fun b out => renderPerRegion snap geom out b := by
  unfold renderPerRegion
  refine Paints.ite (fun _ => paints_black) fun _ => paints_foldlM ?_
  intro row _
  apply paints_foldlM
  intro col _
  apply paints_cell
  intro led
  exact paints_setPixel led (dimmed_applyBrightness _)

end Matrix

/-! ### The waterfall -/

/-- The waterfall is empty, or its rows are of one length and the head is one of them. -/
structure Rectangular (state : PatternState ℝ) : Prop where
  rows : ∃ width, ∀ row ∈ state.waterfallRows, row.length = width
  head : state.waterfallRows = [] ∨ state.waterfallHead < state.waterfallRows.length

theorem rectangular_initial : Rectangular .initial where
  rows := ⟨0, fun _ listed => absurd listed List.not_mem_nil⟩
  head := .inl rfl

namespace Matrix

/-- The waterfall is of the size of the matrix. -/
structure Fits (geom : MatrixGeometry) (state : PatternState ℝ) : Prop where
  height : state.waterfallRows.length = geom.height
  width : ∀ row ∈ state.waterfallRows, row.length = geom.width
  head : state.waterfallHead < geom.height

variable (snap : AudioSnapshot ℝ) {geom : MatrixGeometry}

theorem Fits.rectangular (fits : Fits geom state) : Rectangular state where
  rows := ⟨geom.width, fits.width⟩
  head := .inr (fits.height ▸ fits.head)

theorem fits_resized (rect : Rectangular state) (some : 0 < geom.height) :
    Fits geom (resized geom state) := by
  unfold resized
  split_ifs with differs
  · constructor
    · exact List.length_replicate
    · intro row listed
      rw [List.eq_of_mem_replicate listed]
      exact List.length_replicate
    · exact some
  · obtain ⟨sameHeight, sameWidth⟩ := not_or.mp differs
    have height : state.waterfallRows.length = geom.height := not_not.mp sameHeight
    obtain ⟨width, rows⟩ := rect.rows
    have nonempty : state.waterfallRows ≠ [] := by
      intro none
      rw [none, List.length_nil] at height
      omega
    -- the first row has the width of the matrix, and the others that of the first
    have first : width = geom.width := by
      by_contra other
      apply sameWidth
      refine ⟨state.waterfallRows.head nonempty, List.head?_eq_some_head nonempty, ?_⟩
      rw [rows _ (List.head_mem nonempty)]
      exact other
    refine ⟨height, fun row listed => (rows row listed).trans first, ?_⟩
    exact height ▸ rect.head.resolve_left nonempty

theorem fits_sampleHeadRow (fits : Fits geom state) :
    ∃ sampled, sampleHeadRow snap geom state = some sampled ∧ Fits geom sampled := by
  have inside : state.waterfallHead < state.waterfallRows.length := fits.height.symm ▸ fits.head
  refine ⟨sampled snap geom state, sampleHeadRow_eq inside fits.width snap, ?_⟩
  constructor
  · exact length_sampled.trans fits.height
  · exact width_sampled fits.width snap
  · exact fits.head

end Matrix

/-! ### Renderers with their state -/

/-- A renderer that paints and leaves the same state at every brightness. -/
def Lights (n : ℕ) (render : ℝ → List ColorRgb → Option (List ColorRgb × PatternState ℝ))
    (state' : PatternState ℝ) : Prop :=
  ∃ prog, PaintsLeds n prog ∧
    ∀ b out, out.length = n → render b out = (prog b out).map fun out => (out, state')

theorem lights_of_paints {prog : ℝ → List ColorRgb → Option (List ColorRgb)}
    (paints : PaintsLeds n prog) (state' : PatternState ℝ) :
    Lights n (fun b out => (prog b out).map fun out => (out, state')) state' :=
  ⟨prog, paints, fun _ _ _ => rfl⟩

theorem vuPeak_waterfall (snap : AudioSnapshot ℝ) (state : PatternState ℝ) (dt : ℝ) :
    (Linear.vuPeak snap state dt).waterfallRows = state.waterfallRows ∧
      (Linear.vuPeak snap state dt).waterfallHead = state.waterfallHead := by
  unfold Linear.vuPeak
  dsimp only
  split_ifs <;> exact ⟨rfl, rfl⟩

theorem lights_vuMeter (snap : AudioSnapshot ℝ) (rect : Rectangular state) (dt : ℝ) :
    ∃ state', Rectangular state' ∧
      Lights n (fun b out => Linear.renderVuMeter snap out state b dt) state' := by
  rcases Nat.eq_zero_or_pos n with none | some
  · refine ⟨state, rect, _, paints_skip, fun b out length => ?_⟩
    exact if_pos (length.trans none)
  · obtain ⟨rows, head⟩ := vuPeak_waterfall snap state dt
    have loop : PaintsLeds n fun b out => Linear.forEachLed out fun n i => applyBrightness
        (Linear.vuColour (Linear.vuLevel snap) (Linear.vuPeak snap state dt).vuPeakPos n i) b :=
      Linear.paints_forEachLed fun _ => dimmed_applyBrightness _
    refine ⟨Linear.vuPeak snap state dt, ?_, _, loop, fun b out length => ?_⟩
    · exact ⟨rows ▸ rect.rows, rows ▸ head ▸ rect.head⟩
    · exact if_neg (length ▸ some.ne')

theorem Matrix.paints_waterfall {geom : MatrixGeometry} (fits : Matrix.Fits geom state) :
    PaintsLeds n fun b out => Matrix.drawWaterfall geom out state b := by
  unfold Matrix.drawWaterfall
  apply paints_foldlM
  intro row listed
  have inside : (state.waterfallHead + state.waterfallRows.length - row) %
      state.waterfallRows.length < state.waterfallRows.length := by
    apply Nat.mod_lt
    have below := List.mem_range.mp listed
    have height := fits.height
    omega
  have width := fits.width _ (List.getElem_mem inside)
  simp only [List.getElem?_eq_getElem inside, Option.bind_eq_bind, Option.bind_some]
  apply paints_foldlM
  intro col column
  apply paints_cell
  intro led
  have there := width ▸ List.mem_range.mp column
  simp only [List.getElem?_eq_getElem there, Option.bind_some]
  exact paints_setPixel led (dimmed_applyBrightness _)

theorem lights_waterfall (snap : AudioSnapshot ℝ) (geom : MatrixGeometry)
    (rect : Rectangular state) :
    ∃ state', Rectangular state' ∧
      Lights n (fun b out => Matrix.renderSpectrogramWaterfall snap geom out state b) state' := by
  by_cases flat : geom.width = 0 ∨ geom.height = 0
  · refine ⟨state, rect, _, paints_black, fun b out _ => ?_⟩
    exact if_pos flat
  · have tall : 0 < geom.height := Nat.pos_of_ne_zero (not_or.mp flat).2
    obtain ⟨sampled, sample, fits⟩ := Matrix.fits_sampleHeadRow snap
      (Matrix.fits_resized rect tall)
    have turned : (sampled.waterfallHead + 1) % sampled.waterfallRows.length <
        sampled.waterfallRows.length := Nat.mod_lt _ (fits.height.symm ▸ tall)
    refine ⟨{ sampled with
      waterfallHead := (sampled.waterfallHead + 1) % sampled.waterfallRows.length }, ?_, _,
      Matrix.paints_waterfall fits, fun b out _ => ?_⟩
    · exact ⟨fits.rectangular.rows, .inr turned⟩
    · change Matrix.renderSpectrogramWaterfall snap geom out state b = _
      unfold Matrix.renderSpectrogramWaterfall
      rw [if_neg flat, sample, Option.bind_eq_bind, Option.bind_some]
      cases Matrix.drawWaterfall geom out sampled b <;> rfl

theorem lights_linear (pattern : LinearPattern) (snap : AudioSnapshot ℝ) (rect : Rectangular state)
    (dt : ℝ) : ∃ state', Rectangular state' ∧
      Lights n (fun b out => renderLinear pattern snap out state b dt) state' := by
  cases pattern with
  | spectrumBar => exact ⟨state, rect, lights_of_paints (Linear.paints_spectrumBar snap) state⟩
  | vuMeter => exact lights_vuMeter snap rect dt
  | chaseOrbit => exact ⟨state, rect, lights_of_paints (Linear.paints_chaseOrbit snap) state⟩
  | pulseFromCenter =>
    exact ⟨state, rect, lights_of_paints (Linear.paints_pulseFromCenter snap) state⟩
  | stereoSplit => exact ⟨state, rect, lights_of_paints (Linear.paints_stereoSplit snap) state⟩
  | colorWash => exact ⟨state, rect, lights_of_paints (Linear.paints_colorWash snap) state⟩
  | static => exact ⟨state, rect, lights_of_paints Linear.paints_static state⟩
  | off => exact ⟨state, rect, lights_of_paints Linear.paints_off state⟩

theorem lights_matrix (pattern : MatrixPattern) (snap : AudioSnapshot ℝ) (geom : MatrixGeometry)
    (rect : Rectangular state) : ∃ state', Rectangular state' ∧
      Lights n (fun b out => renderMatrix pattern snap geom out state b) state' := by
  cases pattern with
  | spatialMap => exact ⟨state, rect, lights_of_paints (Matrix.paints_spatialMap snap geom) state⟩
  | equalizerColumns =>
    exact ⟨state, rect, lights_of_paints (Matrix.paints_equalizerColumns snap geom) state⟩
  | perRegion => exact ⟨state, rect, lights_of_paints (Matrix.paints_perRegion snap geom) state⟩
  | spectrogramWaterfall => exact lights_waterfall snap geom rect
  | beatFlash => exact ⟨state, rect, lights_of_paints (Matrix.paints_beatFlash snap) state⟩
  | colorWash => exact ⟨state, rect, lights_of_paints (Matrix.paints_colorWash snap) state⟩
  | static => exact ⟨state, rect, lights_of_paints Matrix.paints_static state⟩
  | off => exact ⟨state, rect, lights_of_paints Matrix.paints_off state⟩

theorem single_dimmed (pattern : SinglePattern) (snap : AudioSnapshot ℝ) (state : PatternState ℝ) :
    Dimmed fun b => (renderSingle pattern snap state b).1 := by
  cases pattern with
  | off => exact dimmed_black
  | beatFlash => exact dimmed_applyBrightness _
  | volumePulse => exact dimmed_applyBrightness _
  | spectralHue => exact dimmed_applyBrightness _
  | chronotensityCycle => exact dimmed_applyBrightness _
  | static => exact dimmed_applyBrightness _

/-! ### Zones over their frames -/

/-- The scratch states of a zone after any frames, whatever they show and whatever becomes of
its type and its LEDs in between. -/
inductive Reached : PatternState ℝ → Prop
  | initial : Reached .initial
  | single {state : PatternState ℝ} (pattern : SinglePattern) (snap : AudioSnapshot ℝ)
      (brightness : ℝ) : Reached state → Reached (renderSingle pattern snap state brightness).2
  | linear {state state' : PatternState ℝ} {pattern : LinearPattern} {snap : AudioSnapshot ℝ}
      {out out' : List ColorRgb} {brightness dt : ℝ} : Reached state →
      renderLinear pattern snap out state brightness dt = some (out', state') → Reached state'
  | matrix {state state' : PatternState ℝ} {pattern : MatrixPattern} {snap : AudioSnapshot ℝ}
      {geom : MatrixGeometry} {out out' : List ColorRgb} {brightness : ℝ} : Reached state →
      renderMatrix pattern snap geom out state brightness = some (out', state') → Reached state'

theorem Lights.state_eq {render : ℝ → List ColorRgb → Option (List ColorRgb × PatternState ℝ)}
    {state' final : PatternState ℝ} {out out' : List ColorRgb} {b : ℝ}
    (lights : Lights out.length render final) (run : render b out = some (out', state')) :
    state' = final := by
  obtain ⟨prog, -, runs⟩ := lights
  rw [runs b out rfl, Option.map_eq_some_iff] at run
  obtain ⟨_, -, same⟩ := run
  exact (Prod.mk.inj same).2.symm

theorem Reached.rectangular {state : PatternState ℝ} (reached : Reached state) :
    Rectangular state := by
  induction reached with
  | initial => exact rectangular_initial
  | single pattern snap brightness _ ih =>
    cases pattern <;> exact ⟨ih.rows, ih.head⟩
  | linear _ run ih =>
    obtain ⟨final, rect, lights⟩ := lights_linear _ _ ih _
    rw [lights.state_eq run]
    exact rect
  | matrix _ run ih =>
    obtain ⟨final, rect, lights⟩ := lights_matrix _ _ _ ih
    rw [lights.state_eq run]
    exact rect

/-! ### The cap -/

/-- The renderer does not fail, writes the same LEDs at every brightness, each of them safely,
and leaves the others alone; without brightness a zone of black LEDs stays black. -/
def RendersSafely (n : ℕ) (render : ℝ → List ColorRgb → Option (List ColorRgb × PatternState ℝ)) :
    Prop :=
  ∃ (lit : ℕ → Option (ℝ → ColorRgb)) (state' : PatternState ℝ),
    (∀ i colour, lit i = some colour → Safe colour) ∧
    (∀ b out, out.length = n →
      render b out = some (overlay (fun i => (lit i).map fun colour => colour b) out, state')) ∧
    ∀ b ≤ 0, render b (List.replicate n .black) = some (List.replicate n .black, state')

theorem Dimmed.safe {cell : ℝ → ColorRgb} (dimmed : Dimmed cell) : Safe cell := by
  obtain ⟨c, same⟩ := dimmed
  rw [funext same]
  exact safe_applyBrightness c

theorem Lights.rendersSafely
    {render : ℝ → List ColorRgb → Option (List ColorRgb × PatternState ℝ)}
    {state' : PatternState ℝ} (lights : Lights n render state') : RendersSafely n render := by
  obtain ⟨prog, ⟨paint, paints⟩, runs⟩ := lights
  have run : ∀ b out, out.length = n → render b out = some
      (overlay (fun i => ((paint i).map applyBrightness).map fun colour => colour b) out,
        state') := by
    intro b out length
    rw [runs b out length, paints b out length]
    simp only [Option.map_map]
    rfl
  refine ⟨fun i => (paint i).map applyBrightness, state', ?_, run, ?_⟩
  · intro i colour written
    obtain ⟨c, -, rfl⟩ := Option.map_eq_some_iff.mp written
    exact safe_applyBrightness c
  · intro b dark
    rw [run b _ List.length_replicate]
    congr 2
    apply overlay_replicate
    intro i c written
    obtain ⟨colour, painted, rfl⟩ := Option.map_eq_some_iff.mp written
    obtain ⟨raw, -, rfl⟩ := Option.map_eq_some_iff.mp painted
    exact (safe_applyBrightness raw).dark b dark

/-- No pattern exceeds the cap, leaves its span or is brighter at less brightness. -/
theorem brightness_is_capped {state : PatternState ℝ} (reached : Reached state)
    (snap : AudioSnapshot ℝ) :
    (∀ pattern, Safe fun b => (renderSingle pattern snap state b).1) ∧
    (∀ pattern n dt, RendersSafely n fun b out => renderLinear pattern snap out state b dt) ∧
    ∀ pattern geom n, RendersSafely n fun b out => renderMatrix pattern snap geom out state b := by
  have rect := reached.rectangular
  refine ⟨fun pattern => (single_dimmed pattern snap state).safe, ?_, ?_⟩
  · intro pattern n dt
    obtain ⟨_, -, lights⟩ := lights_linear pattern snap rect dt
    exact lights.rendersSafely
  · intro pattern geom n
    obtain ⟨_, -, lights⟩ := lights_matrix pattern snap geom rect
    exact lights.rendersSafely

/-- A zone that changes its type, to a meter or to a grid with a gap and an entry past its
LEDs. -/
theorem brightness_is_capped_after_static :
    (Safe fun b => (renderSingle .beatFlash (AudioSnapshot.zero ℝ)
      (renderSingle .static (AudioSnapshot.zero ℝ) .initial 1).2 b).1) ∧
    (RendersSafely 16 fun b out => renderLinear .vuMeter (AudioSnapshot.zero ℝ) out
      (renderSingle .static (AudioSnapshot.zero ℝ) .initial 1).2 b 0.016) ∧
    RendersSafely 3 fun b out => renderMatrix .spectrogramWaterfall (AudioSnapshot.zero ℝ)
      { width := 2, height := 2, values := [0, 1, 0xFFFFFFFF, 7] } out
      (renderSingle .static (AudioSnapshot.zero ℝ) .initial 1).2 b := by
  obtain ⟨single, linear, matrix⟩ := brightness_is_capped
    (Reached.initial.single .static (AudioSnapshot.zero ℝ) 1) (AudioSnapshot.zero ℝ)
  exact ⟨single _, linear _ _ _, matrix _ _ _⟩

end Listeningway.Output.Patterns
