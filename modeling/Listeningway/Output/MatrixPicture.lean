/- Listeningway/Output/MatrixPicture
   source: src/output/openrgb_patterns/matrix_patterns.cpp
   digest: What a key grid shows does not depend on how its keys are wired to the LEDs. -/

import Listeningway.Lib.Wiring
import Listeningway.Output.BrightnessCap

/-!
A frame has one picture for all lookup tables of its size: a colour that every LED gets first,
or none, and colours of cells over it. Where the LEDs are not cleared first, the picture has a
colour for each cell, so no key is left with what it showed before.
-/

set_option autoImplicit false
set_option relaxedAutoImplicit false

namespace Listeningway.Output.Patterns.Matrix

open Listeningway.Config
open Listeningway.Dsp
open Listeningway.Lib.SpanWrites
open Listeningway.Lib.Wiring
open Listeningway.Snapshot

/-! ### Pictures -/

/-- `ground` is written to every LED before the cells are drawn in `order`. -/
structure Picture where
  ground : Option ColorRgb
  order : List (ℕ × ℕ)
  cell : ℕ × ℕ → Option ColorRgb

def wire (geom : MatrixGeometry) (cell : ℕ × ℕ) : Option ℕ := cellToLed geom cell.1 cell.2

/-- What an LED shows of the picture; `none` where it is left as it was. -/
def Picture.led (p : Picture) (geom : MatrixGeometry) (led : ℕ) : Option ColorRgb :=
  (through p.order (wire geom) p.cell led).or p.ground

/-- What the picture has for a cell. -/
def Picture.at (p : Picture) (cell : ℕ × ℕ) : Option ColorRgb := (p.cell cell).or p.ground

/-- Only this cell is wired to the LED. -/
structure Alone (geom : MatrixGeometry) (row col led : ℕ) : Prop where
  wired : cellToLed geom row col = some led
  only : ∀ row' col', cellToLed geom row' col' = some led → row' = row ∧ col' = col

def Unwired (geom : MatrixGeometry) (led : ℕ) : Prop :=
  ∀ row col, cellToLed geom row col ≠ some led

/-- The picture has every cell of a grid of this size. -/
structure Picture.Complete (p : Picture) (width height : ℕ) : Prop where
  drawn : ∀ row < height, ∀ col < width, (row, col) ∈ p.order
  shows : ∀ row < height, ∀ col < width, (p.at (row, col)).isSome

theorem inside_of_wired {geom : MatrixGeometry} {row col led : ℕ}
    (wired : cellToLed geom row col = some led) : row < geom.height ∧ col < geom.width := by
  by_contra outside
  rw [cellToLed, if_pos (by omega)] at wired
  cases wired

variable {p : Picture} {geom : MatrixGeometry} {row col led : ℕ}

theorem Picture.Complete.led_alone (complete : p.Complete geom.width geom.height)
    (alone : Alone geom row col led) : p.led geom led = p.at (row, col) := by
  obtain ⟨tall, wide⟩ := inside_of_wired alone.wired
  have shown : through p.order (wire geom) p.cell led = p.cell (row, col) := by
    apply through_alone (complete.drawn row tall col wide) alone.wired
    intro cell _ same
    exact Prod.ext_iff.mpr (alone.only cell.1 cell.2 same)
  rw [Picture.led, shown, Picture.at]

theorem Picture.led_unwired (unwired : Unwired geom led) : p.led geom led = p.ground := by
  rw [Picture.led, through_unwired fun cell _ => unwired cell.1 cell.2, Option.none_or]

/-- However a grid of this size is wired, the program draws one complete picture. -/
def Shows (width height : ℕ)
    (prog : MatrixGeometry → List ColorRgb → Option (List ColorRgb)) : Prop :=
  ∃ p : Picture, p.Complete width height ∧ ∀ values out, prog ⟨width, height, values⟩ out =
    some (overlay (p.led ⟨width, height, values⟩) out)

variable {width height : ℕ} {prog prog' : MatrixGeometry → List ColorRgb → Option (List ColorRgb)}

theorem Shows.congr (same : ∀ values out,
    prog ⟨width, height, values⟩ out = prog' ⟨width, height, values⟩ out)
    (shows' : Shows width height prog') : Shows width height prog := by
  obtain ⟨p, complete, runs⟩ := shows'
  exact ⟨p, complete, fun values out => (same values out).trans (runs values out)⟩

/-! ### Loops over the cells -/

/-- The cells in reading order. -/
def reading (width height : ℕ) : List (ℕ × ℕ) := List.range height ×ˢ List.range width

theorem mem_reading : (row, col) ∈ reading width height ↔ row < height ∧ col < width := by
  rw [reading, List.mem_product, List.mem_range, List.mem_range]

/-- The cells column by column. -/
def columns (width height : ℕ) : List (ℕ × ℕ) := (reading height width).map Prod.swap

theorem mem_columns : (row, col) ∈ columns width height ↔ row < height ∧ col < width := by
  rw [columns, List.mem_map]
  constructor
  · rintro ⟨⟨col', row'⟩, listed, same⟩
    obtain ⟨rfl, rfl⟩ := Prod.mk.inj same
    exact (mem_reading.mp listed).symm
  · rintro ⟨tall, wide⟩
    exact ⟨(col, row), mem_reading.mpr ⟨wide, tall⟩, rfl⟩

/-- However the grid is wired, the step writes one colour to the LED of the cell; it may pass
the cell over where there is a ground. -/
def ShowsCell (width height : ℕ) (ground : Option ColorRgb) (cell : ℕ × ℕ)
    (step : MatrixGeometry → List ColorRgb → Option (List ColorRgb)) : Prop :=
  ∃ colour : Option ColorRgb, (colour.or ground).isSome ∧ ∀ values out,
    step ⟨width, height, values⟩ out = some (overlay (fun k =>
      if wire ⟨width, height, values⟩ cell = some k then colour else none) out)

variable {ground : Option ColorRgb} {cell : ℕ × ℕ}

theorem showsCell_wired (colour : Option ColorRgb) (shown : (colour.or ground).isSome)
    {draw : MatrixGeometry → ℕ → List ColorRgb → Option (List ColorRgb)}
    (draws : ∀ values led out, draw ⟨width, height, values⟩ led out =
      some (overlay (fun k => if k = led then colour else none) out)) :
    ShowsCell width height ground (row, col) fun geom out =>
      match cellToLed geom row col with
      | none => some out
      | some led => draw geom led out := by
  refine ⟨colour, shown, fun values out => ?_⟩
  rcases Option.eq_none_or_eq_some (cellToLed ⟨width, height, values⟩ row col) with
    gap | ⟨led, wired⟩
  · simp only [wire, gap, reduceCtorEq, if_false, overlay_none]
  · simp only [wire, wired, draws, Option.some_inj, eq_comm]

theorem showsCell_setPixel {c : MatrixGeometry → ColorRgb}
    (free : ∀ values, c ⟨width, height, values⟩ = c ⟨width, height, []⟩) :
    ShowsCell width height ground (row, col) fun geom out =>
      match cellToLed geom row col with
      | none => some out
      | some led => setPixel out led (c geom) := by
  apply showsCell_wired (some (c ⟨width, height, []⟩)) rfl
  intro values led out
  rw [free, setPixel_eq_overlay]

theorem showsCell_setPixel_if (g : ColorRgb) {p : MatrixGeometry → Prop} [DecidablePred p]
    {c : MatrixGeometry → ColorRgb}
    (free : ∀ values, p ⟨width, height, values⟩ = p ⟨width, height, []⟩)
    (free' : ∀ values, c ⟨width, height, values⟩ = c ⟨width, height, []⟩) :
    ShowsCell width height (some g) (row, col) fun geom out =>
      match cellToLed geom row col with
      | none => some out
      | some led => if p geom then setPixel out led (c geom) else some out := by
  by_cases holds : p ⟨width, height, []⟩
  · apply showsCell_wired (some (c ⟨width, height, []⟩)) rfl
    intro values led out
    rw [if_pos (free values ▸ holds), free', setPixel_eq_overlay]
  · apply showsCell_wired none rfl
    intro values led out
    rw [if_neg (free values ▸ holds)]
    simp only [ite_self, overlay_none]

theorem showsCell_unless (g : ColorRgb) {p : MatrixGeometry → Prop} [DecidablePred p]
    {step : MatrixGeometry → List ColorRgb → Option (List ColorRgb)}
    (free : ∀ values, p ⟨width, height, values⟩ = p ⟨width, height, []⟩)
    (shows' : ShowsCell width height (some g) (row, col) step) :
    ShowsCell width height (some g) (row, col) fun geom out =>
      if p geom then some out else step geom out := by
  by_cases holds : p ⟨width, height, []⟩
  · refine ⟨none, rfl, fun values out => ?_⟩
    dsimp only
    rw [if_pos (free values ▸ holds)]
    simp only [ite_self, overlay_none]
  · obtain ⟨colour, shown, runs⟩ := shows'
    refine ⟨colour, shown, fun values out => ?_⟩
    dsimp only
    rw [if_neg (free values ▸ holds), runs]

/-- What is there before the cells are drawn. -/
def prepared (ground : Option ColorRgb) (out : List ColorRgb) : List ColorRgb :=
  match ground with
  | none => out
  | some c => fill out c

theorem shows_order {order : List (ℕ × ℕ)}
    (all : ∀ {row col}, (row, col) ∈ order ↔ row < height ∧ col < width)
    (step : MatrixGeometry → List ColorRgb → ℕ × ℕ → Option (List ColorRgb))
    (each : ∀ cell ∈ order, ShowsCell width height ground cell fun geom out => step geom out cell) :
    Shows width height fun geom out => order.foldlM (step geom) (prepared ground out) := by
  choose! colour shown runs using each
  refine ⟨⟨ground, order, colour⟩, ⟨fun row tall col wide => all.mpr ⟨tall, wide⟩,
    fun row tall col wide => shown _ (all.mpr ⟨tall, wide⟩)⟩, fun values out => ?_⟩
  dsimp only
  rw [foldlM_through _ fun cell listed out => runs cell listed values out]
  cases ground with
  | none =>
    congr 2
    funext led
    exact Option.or_none.symm
  | some c =>
    dsimp only [prepared]
    rw [fill_eq_overlay, overlay_overlay]
    rfl

theorem shows_rows (ground : Option ColorRgb)
    {step : MatrixGeometry → List ColorRgb → ℕ → ℕ → Option (List ColorRgb)}
    (each : ∀ row < height, ∀ col < width,
      ShowsCell width height ground (row, col) fun geom out => step geom out row col) :
    Shows width height fun geom out =>
      (List.range geom.height).foldlM (fun out row =>
        (List.range geom.width).foldlM (fun out col => step geom out row col) out)
        (prepared ground out) := by
  have cells : ∀ cell ∈ reading width height, ShowsCell width height ground cell fun geom out =>
      step geom out cell.1 cell.2 := by
    rintro ⟨row, col⟩ listed
    obtain ⟨tall, wide⟩ := mem_reading.mp listed
    exact each row tall col wide
  apply (shows_order mem_reading _ cells).congr
  intro values out
  rw [reading, foldlM_product]

theorem shows_columns (ground : Option ColorRgb)
    {step : MatrixGeometry → List ColorRgb → ℕ → ℕ → Option (List ColorRgb)}
    (each : ∀ row < height, ∀ col < width,
      ShowsCell width height ground (row, col) fun geom out => step geom out row col) :
    Shows width height fun geom out =>
      (List.range geom.width).foldlM (fun out col =>
        (List.range geom.height).foldlM (fun out row => step geom out row col) out)
        (prepared ground out) := by
  have cells : ∀ cell ∈ columns width height, ShowsCell width height ground cell fun geom out =>
      step geom out cell.1 cell.2 := by
    rintro ⟨row, col⟩ listed
    obtain ⟨tall, wide⟩ := mem_columns.mp listed
    exact each row tall col wide
  apply (shows_order mem_columns _ cells).congr
  intro values out
  rw [columns, List.foldlM_map, reading, foldlM_product]
  rfl

/-! ### The patterns -/

theorem shows_fill (c : ColorRgb) : Shows width height fun _ out => some (fill out c) := by
  refine ⟨⟨some c, reading width height, fun _ => none⟩,
    ⟨fun row tall col wide => mem_reading.mpr ⟨tall, wide⟩, fun row _ col _ => rfl⟩,
    fun values out => ?_⟩
  dsimp only
  rw [fill_eq_overlay]
  congr 2
  funext led
  have bare : through (reading width height) (wire ⟨width, height, values⟩)
      (fun _ => (none : Option ColorRgb)) led = none := by
    simp only [through, ite_self, List.findSome?_eq_none_iff, implies_true]
  rw [Picture.led, bare, Option.none_or]

theorem shows_unless_flat (cells : ¬ (width = 0 ∨ height = 0) → Shows width height prog) :
    Shows width height fun geom out =>
      if geom.width = 0 ∨ geom.height = 0 then some (clearAll out) else prog geom out := by
  by_cases flat : width = 0 ∨ height = 0
  · apply (shows_fill .black).congr
    intro values out
    exact if_pos flat
  · apply (cells flat).congr
    intro values out
    exact if_neg flat

variable (snap : AudioSnapshot ℝ) (brightness : ℝ)

theorem shows_spatialMap :
    Shows width height fun geom out => renderSpatialMap snap geom out brightness := by
  unfold renderSpatialMap
  apply shows_unless_flat
  intro _
  apply shows_rows (some .black)
  intro row _ col _
  exact showsCell_setPixel_if .black (fun _ => rfl) fun _ => rfl

theorem shows_equalizerColumns :
    Shows width height fun geom out => renderEqualizerColumns snap geom out brightness := by
  unfold renderEqualizerColumns
  apply shows_unless_flat
  intro _
  by_cases silent : bandCount snap = 0
  · simp only [if_pos silent]
    exact shows_fill .black
  · simp only [if_neg silent]
    apply shows_columns (some .black)
    intro row _ col _
    apply showsCell_unless .black fun _ => rfl
    exact showsCell_setPixel fun _ => rfl

theorem shows_perRegion :
    Shows width height fun geom out => renderPerRegion snap geom out brightness := by
  unfold renderPerRegion
  apply shows_unless_flat
  intro _
  apply shows_rows none
  intro row _ col _
  exact showsCell_setPixel fun _ => rfl

theorem shows_waterfall {state : PatternState ℝ} (fits : Fits ⟨width, height, []⟩ state) :
    Shows width height fun geom out => drawWaterfall geom out state brightness := by
  set source : ℕ → ℕ := fun row =>
    (state.waterfallHead + state.waterfallRows.length - row) % state.waterfallRows.length
    with source_def
  have rows : ∀ row < height, ∃ samples, state.waterfallRows[source row]? = some samples ∧
      samples.length = width := by
    intro row tall
    have inside : source row < state.waterfallRows.length := by
      apply Nat.mod_lt
      have same : state.waterfallRows.length = height := fits.height
      omega
    exact ⟨_, List.getElem?_eq_getElem inside, fits.width _ (List.getElem_mem inside)⟩
  choose! samples read length using rows
  -- the reads do not fail, so the loops only draw
  have drawn : Shows width height fun geom out =>
      (List.range geom.height).foldlM (fun out row =>
        (List.range geom.width).foldlM (fun out col =>
          match cellToLed geom row col with
          | none => some out
          | some led => setPixel out led (applyBrightness (dim
              (spectrumRamp (position col geom.width : ℝ))
              (clamp01 ((samples row).getD col 0 * 1.4))) brightness)) out)
        (prepared none out) := by
    apply shows_rows none
    intro row _ col _
    exact showsCell_setPixel fun _ => rfl
  apply drawn.congr
  intro values out
  unfold drawWaterfall
  apply foldlM_ext
  intro row listed out
  have tall : row < height := List.mem_range.mp listed
  have at_row := read row tall
  dsimp only [source_def] at at_row ⊢
  rw [at_row, Option.bind_eq_bind, Option.bind_some]
  apply foldlM_ext
  intro col listed out
  have wide : col < (samples row).length := by
    rw [length row tall]
    exact List.mem_range.mp listed
  cases cellToLed ⟨width, height, values⟩ row col with
  | none => rfl
  | some led =>
    dsimp only
    rw [List.getElem?_eq_getElem wide, Option.bind_eq_bind, Option.bind_some,
      List.getD_eq_getElem _ _ wide]

/-! ### Frames -/

/-- The arguments of `render_matrix` but for the state. -/
structure Frame where
  pattern : MatrixPattern
  snap : AudioSnapshot ℝ
  geom : MatrixGeometry
  out : List ColorRgb
  brightness : ℝ

noncomputable def Frame.render (state : PatternState ℝ) (frame : Frame) :
    Option (List ColorRgb × PatternState ℝ) :=
  renderMatrix frame.pattern frame.snap frame.geom frame.out state frame.brightness

/-- The state that frames leave behind. -/
noncomputable def afterFrames (state : PatternState ℝ) (frames : List Frame) :
    Option (PatternState ℝ) :=
  frames.foldlM (fun state frame => (frame.render state).map Prod.snd) state

/-- The same frame for a grid of the same size, with other LEDs and another lookup table. -/
structure Frame.Rewired (frame frame' : Frame) : Prop where
  pattern : frame'.pattern = frame.pattern
  snap : frame'.snap = frame.snap
  width : frame'.geom.width = frame.geom.width
  height : frame'.geom.height = frame.geom.height
  brightness : frame'.brightness = frame.brightness

/-- The picture of a frame and the state after it. -/
def ShowsFrame (width height : ℕ)
    (render : MatrixGeometry → List ColorRgb → Option (List ColorRgb × PatternState ℝ)) : Prop :=
  ∃ (p : Picture) (final : PatternState ℝ), p.Complete width height ∧ Rectangular final ∧
    ∀ values out, render ⟨width, height, values⟩ out =
      some (overlay (p.led ⟨width, height, values⟩) out, final)

variable {state : PatternState ℝ}

theorem Shows.frame (shows' : Shows width height prog) (rect : Rectangular state) :
    ShowsFrame width height fun geom out => (prog geom out).map fun out => (out, state) := by
  obtain ⟨p, complete, runs⟩ := shows'
  refine ⟨p, state, complete, rect, fun values out => ?_⟩
  dsimp only
  rw [runs, Option.map_some]

theorem showsFrame_waterfall (rect : Rectangular state) : ShowsFrame width height fun geom out =>
    renderSpectrogramWaterfall snap geom out state brightness := by
  by_cases flat : width = 0 ∨ height = 0
  · have cleared : Shows width height fun _ out => some (clearAll out) := shows_fill .black
    obtain ⟨p, final, complete, rect', runs⟩ := cleared.frame rect
    exact ⟨p, final, complete, rect', fun values out => (if_pos flat).trans (runs values out)⟩
  · have tall : 0 < height := Nat.pos_of_ne_zero (not_or.mp flat).2
    have fits : Fits ⟨width, height, []⟩ (resized ⟨width, height, []⟩ state) :=
      fits_resized rect tall
    obtain ⟨sampled, sample, fits⟩ := fits_sampleHeadRow snap fits
    obtain ⟨p, complete, runs⟩ := shows_waterfall brightness fits
    have turned : (sampled.waterfallHead + 1) % sampled.waterfallRows.length <
        sampled.waterfallRows.length := Nat.mod_lt _ (fits.height.symm ▸ tall)
    refine ⟨p, { sampled with
      waterfallHead := (sampled.waterfallHead + 1) % sampled.waterfallRows.length }, complete,
      ⟨fits.rectangular.rows, .inr turned⟩, fun values out => ?_⟩
    have sample' : sampleHeadRow snap ⟨width, height, values⟩
        (resized ⟨width, height, values⟩ state) = some sampled := sample
    have drawn := runs values out
    dsimp only at drawn ⊢
    unfold renderSpectrogramWaterfall
    rw [if_neg flat, sample', Option.bind_eq_bind, Option.bind_some, drawn]
    rfl

theorem showsFrame_matrix (pattern : MatrixPattern) (rect : Rectangular state) :
    ShowsFrame width height fun geom out =>
      renderMatrix pattern snap geom out state brightness := by
  cases pattern with
  | spatialMap => exact (shows_spatialMap snap brightness).frame rect
  | equalizerColumns => exact (shows_equalizerColumns snap brightness).frame rect
  | perRegion => exact (shows_perRegion snap brightness).frame rect
  | spectrogramWaterfall => exact showsFrame_waterfall snap brightness rect
  | beatFlash => exact (shows_fill _).frame rect
  | colorWash => exact (shows_fill _).frame rect
  | static => exact (shows_fill _).frame rect
  | off => exact (shows_fill _).frame rect

theorem frames_agree {frame frame' : Frame} (rewired : frame.Rewired frame')
    (rect : Rectangular state) : ∃ (p : Picture) (final : PatternState ℝ),
      p.Complete frame.geom.width frame.geom.height ∧ Rectangular final ∧
      frame.render state = some (overlay (p.led frame.geom) frame.out, final) ∧
      frame'.render state = some (overlay (p.led frame'.geom) frame'.out, final) := by
  obtain ⟨pattern, snap, ⟨width, height, values⟩, out, brightness⟩ := frame
  obtain ⟨pattern', snap', ⟨width', height', values'⟩, out', brightness'⟩ := frame'
  obtain ⟨rfl, rfl, rfl, rfl, rfl⟩ := rewired
  have shown : ShowsFrame width' height' fun geom out =>
    renderMatrix pattern' snap' geom out state brightness' :=
      showsFrame_matrix snap' brightness' pattern' rect
  obtain ⟨p, final, complete, rect', runs⟩ := shown
  exact ⟨p, final, complete, rect', runs values out, runs values' out'⟩

theorem afterFrames_agree {frames frames' : List Frame}
    (rewired : List.Forall₂ Frame.Rewired frames frames') (rect : Rectangular state) :
    ∃ before, Rectangular before ∧ afterFrames state frames = some before ∧
      afterFrames state frames' = some before := by
  induction rewired generalizing state with
  | nil => exact ⟨state, rect, rfl, rfl⟩
  | cons first _ ih =>
    obtain ⟨p, final, -, rect', run, run'⟩ := frames_agree first rect
    obtain ⟨before, rect'', runs, runs'⟩ := ih rect'
    unfold afterFrames at runs runs' ⊢
    refine ⟨before, rect'', ?_, ?_⟩
    · rw [List.foldlM_cons, run]
      exact runs
    · rw [List.foldlM_cons, run']
      exact runs'

/-- Two grids of one size, wired in any way and with any number of LEDs, are given the same
frames, whatever the zone showed before. No write or read is out of range, both are left in the
same state, and an LED with a key of its own shows on both what its key has, also where it kept
another colour before; LEDs without a key agree if they did before. -/
theorem rewired_grids_agree (reached : Reached state) {frames frames' : List Frame}
    (rewired : List.Forall₂ Frame.Rewired frames frames') {frame frame' : Frame}
    (last : frame.Rewired frame') :
    ∃ before out out' final, afterFrames state frames = some before ∧
      afterFrames state frames' = some before ∧ frame.render before = some (out, final) ∧
      frame'.render before = some (out', final) ∧ out.length = frame.out.length ∧
      out'.length = frame'.out.length ∧
      (∀ row col led led', Alone frame.geom row col led → Alone frame'.geom row col led' →
        led < out.length → led' < out'.length → out[led]? = out'[led']?) ∧
      ∀ led led', Unwired frame.geom led → Unwired frame'.geom led' →
        frame.out[led]? = frame'.out[led']? → out[led]? = out'[led']? := by
  obtain ⟨before, rect, runs, runs'⟩ := afterFrames_agree rewired reached.rectangular
  obtain ⟨p, final, complete, -, run, run'⟩ := frames_agree last rect
  refine ⟨before, _, _, final, runs, runs', run, run', length_overlay _ _, length_overlay _ _,
    ?_, ?_⟩
  · intro row col led led' alone alone' inside inside'
    rw [length_overlay] at inside inside'
    obtain ⟨tall, wide⟩ := inside_of_wired alone.wired
    obtain ⟨c, shown⟩ := Option.isSome_iff_exists.mp (complete.shows row tall col wide)
    have complete' : p.Complete frame'.geom.width frame'.geom.height := by
      rwa [last.width, last.height]
    rw [getElem?_overlay, getElem?_overlay, complete.led_alone alone,
      complete'.led_alone alone', shown, List.getElem?_eq_getElem inside,
      List.getElem?_eq_getElem inside']
    rfl
  · intro led led' unwired unwired' same
    rw [getElem?_overlay, getElem?_overlay, Picture.led_unwired unwired,
      Picture.led_unwired unwired', same]

/-- Two keys of a board without a table, and of one that has them crosswise with a third LED. -/
theorem crossed_keys_agree :
    ∃ before out out' final,
      afterFrames .initial [⟨.spectrogramWaterfall, AudioSnapshot.zero ℝ, ⟨2, 1, []⟩,
        [.black, .black], 1⟩] = some before ∧
      Frame.render before ⟨.perRegion, AudioSnapshot.zero ℝ, ⟨2, 1, []⟩, [.black, .black], 1⟩ =
        some (out, final) ∧
      Frame.render before ⟨.perRegion, AudioSnapshot.zero ℝ, ⟨2, 1, [2, 0]⟩,
        [.black, ⟨1, 2, 3⟩, ⟨9, 9, 9⟩], 1⟩ = some (out', final) ∧
      out[0]? = out'[2]? ∧ out[1]? = out'[0]? := by
  have grids : List.Forall₂ Frame.Rewired
      [⟨.spectrogramWaterfall, AudioSnapshot.zero ℝ, ⟨2, 1, []⟩, [.black, .black], 1⟩]
      [⟨.spectrogramWaterfall, AudioSnapshot.zero ℝ, ⟨2, 1, [2, 0]⟩, [], 1⟩] :=
    .cons ⟨rfl, rfl, rfl, rfl, rfl⟩ .nil
  have last : Frame.Rewired
      ⟨.perRegion, AudioSnapshot.zero ℝ, ⟨2, 1, []⟩, [.black, .black], 1⟩
      ⟨.perRegion, AudioSnapshot.zero ℝ, ⟨2, 1, [2, 0]⟩, [.black, ⟨1, 2, 3⟩, ⟨9, 9, 9⟩], 1⟩ :=
    ⟨rfl, rfl, rfl, rfl, rfl⟩
  obtain ⟨before, out, out', final, runs, -, run, run', length, length', keys, -⟩ :=
    rewired_grids_agree .initial grids last
  have alone {values : List ℕ} {col led : ℕ}
      (wired : cellToLed ⟨2, 1, values⟩ 0 col = some led)
      (other : cellToLed ⟨2, 1, values⟩ 0 (1 - col) ≠ some led) :
      Alone ⟨2, 1, values⟩ 0 col led := by
    refine ⟨wired, fun row' col' wired' => ?_⟩
    obtain ⟨tall, wide⟩ := inside_of_wired wired
    obtain ⟨tall', wide'⟩ := inside_of_wired wired'
    dsimp only at tall wide tall' wide'
    have row : row' = 0 := by omega
    subst row
    refine ⟨rfl, ?_⟩
    by_contra differs
    have swapped : col' = 1 - col := by omega
    exact other (swapped ▸ wired')
  refine ⟨before, out, out', final, runs, run, run', ?_, ?_⟩
  · exact keys 0 0 0 2 (alone rfl (by decide)) (alone rfl (by decide)) (length ▸ by decide)
      (length' ▸ by decide)
  · exact keys 0 1 1 0 (alone rfl (by decide)) (alone rfl (by decide)) (length ▸ by decide)
      (length' ▸ by decide)

end Listeningway.Output.Patterns.Matrix
