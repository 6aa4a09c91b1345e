/- Listeningway/Output/Waterfall
   source: src/output/openrgb_patterns/matrix_patterns.cpp, pattern_common.h
   digest: The rows of the spectrogram waterfall are the spectra of its last calls. -/

import Listeningway.Lib.ListRing
import Listeningway.Output.MatrixPatterns
import Mathlib.Data.Rat.Floor

set_option autoImplicit false
set_option relaxedAutoImplicit false

namespace Listeningway.Output.Patterns.Matrix

open Listeningway.Dsp
open Listeningway.Lib.HistoryRing (entry)
open Listeningway.Lib.ListRing
open Listeningway.Lib.SpanWrites
open Listeningway.Snapshot

variable {K : Type} [Field K] [LinearOrder K] [FloorRing K]

/-! ### Calls and what they should show -/

/-- The arguments of a call but for the state. -/
structure Call (K : Type) where
  snap : AudioSnapshot K
  geom : MatrixGeometry
  out : List ColorRgb
  brightness : K

def render (state : PatternState K) (call : Call K) : Option (List ColorRgb × PatternState K) :=
  renderSpectrogramWaterfall call.snap call.geom call.out state call.brightness

/-- The state that a run of calls leaves behind. -/
def after (calls : List (Call K)) : Option (PatternState K) :=
  calls.foldlM (fun state call => (render state call).map Prod.snd) .initial

/-- The spectrum of a snapshot, interpolated to the columns. -/
def spectrumRow (width : ℕ) (snap : AudioSnapshot K) : List K :=
  (List.range width).map fun col =>
    if bandCount snap = 0 then 0 else bandAt snap (position col width)

/-- A matrix of another size starts anew; one without cells is passed over. -/
def note (geom : MatrixGeometry) (snaps : List (AudioSnapshot K)) (call : Call K) :
    List (AudioSnapshot K) :=
  if call.geom.width = 0 ∨ call.geom.height = 0 then snaps
  else if call.geom.width = geom.width ∧ call.geom.height = geom.height then snaps ++ [call.snap]
  else []

/-- The snapshots of the calls since the last change of the size, oldest first. -/
def streak (geom : MatrixGeometry) (calls : List (Call K)) : List (AudioSnapshot K) :=
  calls.foldl (note geom) []

/-- `run` are the calls at one size from the start, or after a change of the size. -/
structure Since (geom : MatrixGeometry) (earlier run : List (Call K)) : Prop where
  same : ∀ call ∈ run, call.geom.width = geom.width ∧ call.geom.height = geom.height
  change : ∀ call ∈ earlier.getLast?, 0 < call.geom.width ∧ 0 < call.geom.height ∧
    ¬ (call.geom.width = geom.width ∧ call.geom.height = geom.height)

omit [Field K] [LinearOrder K] [FloorRing K] in
theorem Since.streak_eq {geom : MatrixGeometry} {earlier run : List (Call K)}
    (h : Since geom earlier run) (wide : 0 < geom.width) (tall : 0 < geom.height) :
    streak geom (earlier ++ run) = run.map Call.snap := by
  obtain ⟨same, change⟩ := h
  have fresh : streak geom earlier = [] := by
    induction earlier using List.reverseRecOn with
    | nil => rfl
    | append_singleton earlier call _ =>
      obtain ⟨wide', tall', other⟩ := change call List.getLast?_concat
      rw [streak, List.foldl_append]
      change note geom _ call = []
      rw [note, if_neg (by omega), if_neg other]
  induction run using List.reverseRecOn with
  | nil => rwa [List.append_nil]
  | append_singleton run call ih =>
    obtain ⟨width, height⟩ := same call (List.mem_append_right _ List.mem_cons_self)
    have before := ih fun call listed => same call (List.mem_append_left _ listed)
    rw [← List.append_assoc, streak, List.foldl_append, ← streak, before, List.map_append]
    change note geom _ call = _
    rw [note, if_neg (by omega), if_pos ⟨width, height⟩]
    rfl

omit [Field K] [LinearOrder K] [FloorRing K] in
theorem streak_congr {geom geom' : MatrixGeometry} (width : geom.width = geom'.width)
    (height : geom.height = geom'.height) (calls : List (Call K)) :
    streak geom calls = streak geom' calls := by
  have same : note (K := K) geom = note geom' := by
    funext snaps call
    rw [note, width, height, note]
  rw [streak, same, streak]

/-- Row `row` of the matrix after the calls with `snaps`: that many calls ago, else zeros. -/
def historyRow (width : ℕ) (snaps : List (AudioSnapshot K)) (row : ℕ) : List K :=
  entry (snaps.map (spectrumRow width)) (List.replicate width 0) row

/-- Colour of a cell that shows `v`. -/
def cellColour (width col : ℕ) (v brightness : K) : ColorRgb :=
  applyBrightness (dim (spectrumRamp (position col width : K)) (clamp01 (v * 1.4))) brightness

/-- The last cell in reading order that lists an LED colours it. -/
def shownAt (geom : MatrixGeometry) (colour : ℕ → ℕ → ColorRgb) (led : ℕ) : Option ColorRgb :=
  (List.range geom.height).reverse.findSome? fun row =>
    (List.range geom.width).reverse.findSome? fun col =>
      if cellToLed geom row col = some led then some (colour row col) else none

theorem shownAt_eq_some {geom : MatrixGeometry} {row col led : ℕ}
    (listed : cellToLed geom row col = some led)
    (alone : ∀ row' col', cellToLed geom row' col' = some led → row' = row ∧ col' = col)
    (colour : ℕ → ℕ → ColorRgb) : shownAt geom colour led = some (colour row col) := by
  have inside : row < geom.height ∧ col < geom.width := by
    by_contra outside
    rw [cellToLed, if_pos (by omega)] at listed
    cases listed
  have found : ∃ c, shownAt geom colour led = some c := by
    rw [← Option.isSome_iff_exists, shownAt, List.findSome?_isSome_iff]
    refine ⟨row, by simpa using inside.1, ?_⟩
    rw [List.findSome?_isSome_iff]
    exact ⟨col, by simpa using inside.2, by rw [if_pos listed]; rfl⟩
  obtain ⟨c, shown⟩ := found
  obtain ⟨row', -, at_row⟩ := List.exists_of_findSome?_eq_some shown
  obtain ⟨col', -, at_cell⟩ := List.exists_of_findSome?_eq_some at_row
  split_ifs at at_cell with same
  obtain ⟨rfl, rfl⟩ := alone row' col' same
  rw [shown, ← at_cell]

/-! ### The buffer -/

/-- The waterfall is of the size of the matrix and holds the spectra of the last calls. -/
structure Holds (geom : MatrixGeometry) (snaps : List (AudioSnapshot K))
    (state : PatternState K) : Prop where
  height : state.waterfallRows.length = geom.height
  width : ∀ row ∈ state.waterfallRows, row.length = geom.width
  head : state.waterfallHead < state.waterfallRows.length
  shown : oldestFirst state.waterfallRows state.waterfallHead =
    lastPadded state.waterfallRows.length (List.replicate geom.width 0)
      (snaps.map (spectrumRow geom.width))

omit [LinearOrder K] [FloorRing K] in
theorem resized_congr {geom geom' : MatrixGeometry} (width : geom.width = geom'.width)
    (height : geom.height = geom'.height) (state : PatternState K) :
    resized geom state = resized geom' state := by
  rw [resized, width, height, resized]

variable {geom : MatrixGeometry} {state : PatternState K} {snaps : List (AudioSnapshot K)}
  {snap : AudioSnapshot K}

theorem holds_blank (tall : 0 < geom.height)
    (other : state.waterfallRows.length ≠ geom.height ∨
      ∃ row ∈ state.waterfallRows.head?, row.length ≠ geom.width) :
    Holds geom [] (resized geom state) := by
  rw [resized, if_pos other]
  constructor
  · exact List.length_replicate
  · intro row listed
    rw [List.eq_of_mem_replicate listed]
    exact List.length_replicate
  · rw [List.length_replicate]
    exact tall
  · rw [List.length_replicate, List.map_nil, lastPadded_nil, oldestFirst, List.rotate_zero]

theorem Holds.congr {geom' : MatrixGeometry} (h : Holds geom snaps state)
    (width : geom.width = geom'.width) (height : geom.height = geom'.height) :
    Holds geom' snaps state := by
  obtain ⟨rows, columns, head, shown⟩ := h
  rw [height] at rows
  rw [width] at columns shown
  exact ⟨rows, columns, head, shown⟩

theorem Holds.resized (h : Holds geom snaps state) : Matrix.resized geom state = state := by
  refine if_neg (not_or.mpr ⟨not_not.mpr h.height, ?_⟩)
  rintro ⟨row, first, other⟩
  exact other (h.width row (List.mem_of_mem_head? first))

theorem Holds.resized_other {geom' : MatrixGeometry} (h : Holds geom snaps state)
    (tall : 0 < geom'.height)
    (other : ¬ (geom.width = geom'.width ∧ geom.height = geom'.height)) :
    Holds geom' [] (Matrix.resized geom' state) := by
  apply holds_blank tall
  rcases eq_or_ne state.waterfallRows.length geom'.height with same | differs
  · right
    cases rows : state.waterfallRows with
    | nil =>
      have none := h.head
      rw [rows] at none
      exact absurd none (Nat.not_lt_zero _)
    | cons row rest =>
      refine ⟨row, rfl, fun width => other ⟨?_, h.height.symm.trans same⟩⟩
      rw [← width, h.width row (rows ▸ List.mem_cons_self)]
  · exact .inl differs

/-- The state once the spectrum is in the head row. -/
def sampled (snap : AudioSnapshot K) (geom : MatrixGeometry) (state : PatternState K) :
    PatternState K :=
  { state with
    waterfallRows := state.waterfallRows.set state.waterfallHead (spectrumRow geom.width snap) }

/-- The state after a call with cells. -/
def written (snap : AudioSnapshot K) (geom : MatrixGeometry) (state : PatternState K) :
    PatternState K :=
  { sampled snap geom state with
    waterfallHead := (state.waterfallHead + 1) % (sampled snap geom state).waterfallRows.length }

theorem length_sampled :
    (sampled snap geom state).waterfallRows.length = state.waterfallRows.length :=
  List.length_set

theorem width_sampled (width : ∀ row ∈ state.waterfallRows, row.length = geom.width)
    (snap : AudioSnapshot K) :
    ∀ row ∈ (sampled snap geom state).waterfallRows, row.length = geom.width := by
  intro row listed
  rcases List.mem_or_eq_of_mem_set listed with old | rfl
  · exact width row old
  · rw [spectrumRow, List.length_map, List.length_range]

theorem Holds.written (h : Holds geom snaps state) (snap : AudioSnapshot K) :
    Holds geom (snaps ++ [snap]) (written snap geom state) where
  height := length_sampled.trans h.height
  width := width_sampled h.width snap
  head := by
    have some : 0 < (sampled snap geom state).waterfallRows.length := by
      rw [length_sampled]
      exact Nat.zero_lt_of_lt h.head
    exact Nat.mod_lt _ some
  shown := by
    have next := oldestFirst_write_eq h.head h.shown (spectrumRow geom.width snap)
    change oldestFirst _ (_ % (sampled snap geom state).waterfallRows.length) =
      lastPadded (sampled snap geom state).waterfallRows.length _ _
    rw [length_sampled, List.map_append]
    exact next

theorem sampleHeadRow_eq (inside : state.waterfallHead < state.waterfallRows.length)
    (width : ∀ row ∈ state.waterfallRows, row.length = geom.width) (snap : AudioSnapshot K) :
    sampleHeadRow snap geom state = some (sampled snap geom state) := by
  have headRow : state.waterfallRows[state.waterfallHead]? =
      some state.waterfallRows[state.waterfallHead] := List.getElem?_eq_getElem inside
  have loop := foldlM_store_range
    (fun col => if bandCount snap = 0 then 0 else bandAt snap (position col geom.width))
    (width _ (List.getElem_mem inside))
  unfold sampleHeadRow
  rw [headRow]
  simp only [Option.bind_eq_bind, Option.bind_some]
  rw [loop, Option.bind_some, store, if_pos inside]
  rfl

/-! ### The painting -/

omit [Field K] [LinearOrder K] [FloorRing K] in
theorem setPixel_eq_overlay (out : List ColorRgb) (led : ℕ) (c : ColorRgb) :
    setPixel out led c = some (overlay (fun i => if i = led then some c else none) out) := by
  unfold setPixel
  split_ifs with outside
  · congr 1
    apply List.ext_getElem?
    intro i
    rw [getElem?_overlay]
    rcases Nat.lt_or_ge i out.length with inside | beyond
    · rw [if_neg (by omega)]
      exact Option.map_id'.symm
    · rw [List.getElem?_eq_none beyond]
      rfl
  · exact store_eq_overlay out (not_le.mp outside) c

theorem getElem?_source (h : Holds geom (snaps ++ [snap]) (written snap geom state)) {row : ℕ}
    (inside : row < geom.height) :
    let rows := (sampled snap geom state).waterfallRows
    rows[(state.waterfallHead + rows.length - row) % rows.length]? =
      some (historyRow geom.width (snaps ++ [snap]) row) := by
  intro rows
  have height : rows.length = geom.height := h.height
  have shown : oldestFirst rows ((state.waterfallHead + 1) % rows.length) =
      lastPadded rows.length _ _ := h.shown
  have slot : (state.waterfallHead + rows.length - row) % rows.length < rows.length :=
    Nat.mod_lt _ (by omega)
  rw [List.getElem?_eq_getElem slot, ← List.getD_eq_getElem _ (List.replicate geom.width 0) slot,
    getD_recent shown (by omega)]
  rfl

theorem length_historyRow (h : Holds geom (snaps ++ [snap]) (written snap geom state)) {row : ℕ}
    (inside : row < geom.height) :
    (historyRow geom.width (snaps ++ [snap]) row).length = geom.width :=
  h.width _ (List.mem_of_getElem? (getElem?_source h inside))

/-- The colours of the cells after the calls with `snaps`. -/
def historyColour (width : ℕ) (snaps : List (AudioSnapshot K)) (brightness : K) (row col : ℕ) :
    ColorRgb :=
  cellColour width col ((historyRow width snaps row).getD col 0) brightness

theorem drawWaterfall_eq (h : Holds geom (snaps ++ [snap]) (written snap geom state))
    (out : List ColorRgb) (brightness : K) :
    drawWaterfall geom out (sampled snap geom state) brightness =
      some (overlay
        (shownAt geom (historyColour geom.width (snaps ++ [snap]) brightness)) out) := by
  unfold drawWaterfall shownAt
  refine foldlM_overlay (fun row listed out _ => ?_) rfl
  have inside := List.mem_range.mp listed
  have source := getElem?_source h inside
  dsimp only at source ⊢
  rw [show (sampled snap geom state).waterfallHead = state.waterfallHead from rfl, source,
    Option.bind_eq_bind, Option.bind_some]
  refine foldlM_overlay (fun col column out _ => ?_) rfl
  have there : col < (historyRow geom.width (snaps ++ [snap]) row).length := by
    rw [length_historyRow h inside]
    exact List.mem_range.mp column
  cases listing : cellToLed geom row col with
  | none =>
    refine congrArg some ((overlay_none out).symm.trans (congrArg (overlay · out) ?_))
    funext i
    rw [if_neg (Option.some_ne_none i).symm]
  | some led =>
    dsimp only
    rw [List.getElem?_eq_getElem there, Option.bind_eq_bind, Option.bind_some,
      setPixel_eq_overlay]
    congr 2
    funext i
    rw [historyColour, List.getD_eq_getElem _ _ there]
    exact if_congr (eq_comm.trans Option.some_inj.symm) rfl rfl

theorem render_eq (call : Call K) (wide : 0 < call.geom.width) (tall : 0 < call.geom.height)
    (h : Holds call.geom snaps (resized call.geom state)) :
    render state call =
      some (overlay (shownAt call.geom
          (historyColour call.geom.width (snaps ++ [call.snap]) call.brightness)) call.out,
        written call.snap call.geom (resized call.geom state)) := by
  unfold render renderSpectrogramWaterfall
  rw [if_neg (by omega), sampleHeadRow_eq h.head h.width, Option.bind_eq_bind, Option.bind_some,
    drawWaterfall_eq (h.written call.snap)]
  rfl

/-! ### Runs -/

theorem holds_after (calls : List (Call K)) :
    ∃ state, after calls = some state ∧ ∀ geom : MatrixGeometry, 0 < geom.height →
      Holds geom (streak geom calls) (resized geom state) := by
  induction calls using List.reverseRecOn with
  | nil =>
    refine ⟨.initial, rfl, fun geom tall => holds_blank tall (.inl ?_)⟩
    exact tall.ne
  | append_singleton calls call ih =>
    obtain ⟨state, ran, holds⟩ := ih
    have next : after (calls ++ [call]) = (render state call).map Prod.snd := by
      rw [after, List.foldlM_append, ← after, ran, Option.bind_eq_bind, Option.bind_some,
        List.foldlM_cons]
      exact bind_pure _
    rw [next]
    have noted (geom : MatrixGeometry) :
        streak geom (calls ++ [call]) = note geom (streak geom calls) call := by
      rw [streak, List.foldl_append]
      rfl
    simp only [noted]
    by_cases flat : call.geom.width = 0 ∨ call.geom.height = 0
    · refine ⟨state, ?_, fun geom tall => ?_⟩
      · rw [render, renderSpectrogramWaterfall, if_pos flat]
        rfl
      · rw [note, if_pos flat]
        exact holds geom tall
    · have tall' : 0 < call.geom.height := by omega
      have drawn := holds call.geom tall'
      have stored := drawn.written call.snap
      rw [render_eq call (by omega) tall' drawn]
      refine ⟨_, rfl, fun geom tall => ?_⟩
      rw [note, if_neg flat]
      split_ifs with same
      · obtain ⟨width, height⟩ := same
        rw [← streak_congr width height, ← resized_congr width height, stored.resized]
        exact stored.congr width height
      · exact stored.resized_other tall same

/-- What a call shows and leaves behind: row `row` the spectrum of `row` calls ago, or zeros. -/
structure ShowsHistory (snaps : List (AudioSnapshot K)) (call : Call K) (out : List ColorRgb)
    (state : PatternState K) : Prop where
  painted : out = overlay (shownAt call.geom
    (historyColour call.geom.width snaps call.brightness)) call.out
  cells : ∀ row col led, cellToLed call.geom row col = some led →
    (∀ row' col', cellToLed call.geom row' col' = some led → row' = row ∧ col' = col) →
      led < call.out.length →
        out[led]? = some (historyColour call.geom.width snaps call.brightness row col)
  height : state.waterfallRows.length = call.geom.height
  width : ∀ row ∈ state.waterfallRows, row.length = call.geom.width
  head : state.waterfallHead < state.waterfallRows.length

/-- After any calls, a call with cells finds its rows and shows the calls since the last change
of the size and itself. -/
theorem waterfall_shows_history (calls : List (Call K)) (call : Call K)
    (wide : 0 < call.geom.width) (tall : 0 < call.geom.height) :
    (∃ state out state', after calls = some state ∧ render state call = some (out, state') ∧
      ShowsHistory (streak call.geom calls ++ [call.snap]) call out state') ∧
    ∀ earlier run, calls = earlier ++ run → Since call.geom earlier run →
      streak call.geom calls = run.map Call.snap := by
  obtain ⟨state, ran, holds⟩ := holds_after calls
  have drawn := holds call.geom tall
  have stored := drawn.written call.snap
  constructor
  · refine ⟨state, _, _, ran, render_eq call wide tall drawn, rfl, ?_, stored.height, stored.width,
      stored.head⟩
    intro row col led listed alone inside
    rw [getElem?_overlay, shownAt_eq_some listed alone, List.getElem?_eq_getElem inside]
    rfl
  · rintro earlier run rfl since
    exact since.streak_eq wide tall

/-- A spectrum of one band. -/
def tone (v : ℚ) : AudioSnapshot ℚ :=
  { AudioSnapshot.zero ℚ with freqBandCount := 1, freqBands := fun _ => v }

/-- A call on a matrix of one row. -/
def flat (v : ℚ) : Call ℚ := ⟨tone v, ⟨3, 1, []⟩, [.black, .black, .black], 1⟩

/-- A call on a matrix of one column that is wired from its last row on. -/
def column (v : ℚ) : Call ℚ := ⟨tone v, ⟨1, 3, [2, 1, 0]⟩, [.black, .black, .black], 1⟩

theorem column_wired {row col led : ℕ} (listed : cellToLed (column 0).geom row col = some led) :
    col = 0 ∧ row + led = 2 := by
  have inside : row < 3 ∧ col < 1 := by
    by_contra outside
    rw [cellToLed, if_pos (by change 3 ≤ row ∨ 1 ≤ col; omega)] at listed
    cases listed
  obtain ⟨above, left⟩ := inside
  obtain rfl : col = 0 := by omega
  refine ⟨rfl, ?_⟩
  obtain rfl | rfl | rfl : row = 0 ∨ row = 1 ∨ row = 2 := by omega
  all_goals
    obtain rfl := Option.some.inj listed
    rfl

/-- Three calls after the matrix was turned: silence on top of half a tone and a whole one. -/
theorem turned_matrix_shows_history :
    ∃ state out state', after [flat 1, column 1, column 0.5] = some state ∧
      render state (column 0) = some (out, state') ∧ out[2]? = some (cellColour 1 0 (0 : ℚ) 1) ∧
        out[1]? = some (cellColour 1 0 (0.5 : ℚ) 1) ∧
        out[0]? = some (cellColour 1 0 (1 : ℚ) 1) := by
  obtain ⟨⟨state, out, state', ran, drawn, shows⟩, since⟩ :=
    waterfall_shows_history [flat 1, column 1, column 0.5] (column 0) (by decide) (by decide)
  have turned : Since (column 0).geom [flat 1] [column 1, column 0.5] := by
    constructor
    · intro call listed
      obtain rfl | rfl := List.mem_pair.mp listed <;> exact ⟨rfl, rfl⟩
    · intro call last
      obtain rfl : flat 1 = call := Option.some.inj last
      decide
  rw [since [flat 1] [column 1, column 0.5] rfl turned] at shows
  have cell : ∀ row led, cellToLed (column 0).geom row 0 = some led → led < 3 →
      out[led]? = some (historyColour 1 [tone 1, tone 0.5, tone 0] 1 row 0) := by
    intro row led listed inside
    refine shows.cells row 0 led listed (fun row' col' other => ?_) inside
    have here := column_wired listed
    obtain ⟨left, there⟩ := column_wired other
    exact ⟨by omega, left⟩
  have silent : (historyRow 1 [tone 1, tone 0.5, tone 0] 0).getD 0 0 = 0 := by decide +kernel
  have half : (historyRow 1 [tone 1, tone 0.5, tone 0] 1).getD 0 0 = 0.5 := by decide +kernel
  have whole : (historyRow 1 [tone 1, tone 0.5, tone 0] 2).getD 0 0 = 1 := by decide +kernel
  refine ⟨state, out, state', ran, drawn, ?_, ?_, ?_⟩
  · rw [cell 0 2 rfl (by decide), historyColour, silent]
  · rw [cell 1 1 rfl (by decide), historyColour, half]
  · rw [cell 2 0 rfl (by decide), historyColour, whole]

end Listeningway.Output.Patterns.Matrix
