/- Listeningway/Dsp/BeatBuffers
   source: src/audio/dsp/beat/beat_tracker.h, beat_tracker.cpp
   digest: What the tracker computes does not depend on what its buffers held before. -/

import Listeningway.Dsp.Beat.BufferedTracker
import Listeningway.Dsp.BeatRecurrence

/-!
Every buffer is written as far as it is read in the same call: the weights and expectations from
their front, the projection behind the history and only from the samples before. So a call is
the one of buffers made anew.
-/

set_option autoImplicit false
set_option relaxedAutoImplicit false

namespace Listeningway.Dsp.BufferedTracker

open Listeningway.Lib.Clamp
open Listeningway.Lib.FoldMax
open Listeningway.Lib.ForwardLoop
open Listeningway.Lib.SpanWrites
open BeatTracker

/-! ### The loops of one call -/

section Loops

variable {K : Type} [Field K] [LinearOrder K]

omit [LinearOrder K] in
theorem le_length_grown (buffer : List K) (size : ℕ) : size ≤ (grown buffer size).length := by
  unfold grown
  split_ifs with short
  · rw [List.length_append, List.length_replicate]
    omega
  · exact not_lt.mp short

variable [Cmath K]

theorem logGaussianWindow_eq {out : List K} {size : ℕ} (period : K) (room : size ≤ out.length) :
    logGaussianWindow out size period =
      some (BeatTracker.logGaussianWindow size period ++ out.drop size) := by
  let place (i : ℕ) : K := -2.0 * period + (i : K)
  have begins : place 0 = -2.0 * period := by
    change -2.0 * period + ((0 : ℕ) : K) = _
    rw [Nat.cast_zero, add_zero]
  have moves : ∀ i, place i + 1 = place (i + 1) := by
    intro i
    change _ = -2.0 * period + ((i + 1 : ℕ) : K)
    rw [Nat.cast_succ, ← add_assoc]
  have loop := foldlM_carry (fun (out : List K) i v =>
      let ratio := -v / max period 1e-6
      let a := if 0 < ratio then kTightness * Cmath.log ratio else 0
      store out i (Cmath.exp (-(a * a) * 0.5))) (· + 1) place moves out size
  rw [begins] at loop
  rw [logGaussianWindow, logGaussianWindow_eq_map]
  refine (congrArg (Option.map Prod.fst) loop).trans ?_
  rw [foldlM_store_first _ room]
  rfl

variable [FloorRing K]

omit [LinearOrder K] [Cmath K] [FloorRing K] in
theorem linearised_eq (st : BufferedTracker K) {future : List K} (room : 512 ≤ future.length) :
    st.linearised future = some (st.linear ++ List.replicate (future.length - 512) 0) := by
  have front : (List.range kBufferSize).map (fun i =>
      st.cumulativeScore ⟨(st.csHead + i) % kBufferSize, Nat.mod_lt _ (by decide)⟩) =
      st.linear := rfl
  have length : st.linear.length = kBufferSize := st.length_linear
  have total : (st.linear ++ future.drop kBufferSize).length = future.length := by
    rw [List.length_append, List.length_drop, length]
    exact Nat.add_sub_of_le room
  have whole : kBufferSize ≤ future.length := room
  unfold linearised
  rw [foldlM_store_first _ whole, front, Option.bind_eq_bind, Option.bind_some, total,
    List.take_left' length]
  rfl

theorem synthesised_eq (period : K) {future : List K}
    (room : 512 + beatWindow period ≤ future.length) :
    synthesised period (BeatTracker.logGaussianWindow (windowSize period) period) future =
      some (forward (windowMax period) 512 future (beatWindow period)) := by
  let bracket (i : ℕ) : ℤ × ℤ := (windowStart period + i, windowEnd period + i)
  have begins : bracket 0 = (windowStart period, windowEnd period) := by
    change (windowStart period + ((0 : ℕ) : ℤ), windowEnd period + ((0 : ℕ) : ℤ)) = _
    rw [Nat.cast_zero, add_zero, add_zero]
  have moves : ∀ i, ((bracket i).1 + 1, (bracket i).2 + 1) = bracket (i + 1) := by
    intro i
    refine Prod.ext ?_ ?_
    · exact (add_assoc _ _ _).trans rfl
    · exact (add_assoc _ _ _).trans rfl
  have loop := foldlM_carry (fun (out : List K) i window => store out (kBufferSize + i)
      (weightedMaxInWindow out window.1 window.2
        (BeatTracker.logGaussianWindow (windowSize period) period)))
    (fun window => (window.1 + 1, window.2 + 1)) bracket moves future (beatWindow period)
  rw [begins] at loop
  refine (congrArg (Option.map Prod.fst) loop).trans ?_
  have filled := foldlM_store_forward (windowMax period) 512 future room
  rw [Option.map_map]
  exact (congrArg (Option.map _) filled).trans rfl

omit [Cmath K] [FloorRing K] in
theorem argmax_eq {window : ℕ} {future w2 : List K} (room : 512 + window ≤ future.length)
    (room' : window ≤ w2.length) :
    argmax window future w2 = some ((List.range window).foldl (fun (best : K × ℕ) i =>
      if best.1 < future.getD (512 + i) 0 * w2.getD i 0
        then (future.getD (512 + i) 0 * w2.getD i 0, i) else best) (0, 0)) := by
  apply foldlM_of_some
  intro i listed best
  have inside := List.mem_range.mp listed
  have here : kBufferSize + i < future.length := by
    have size : kBufferSize = 512 := rfl
    omega
  have there : i < w2.length := inside.trans_le room'
  rw [List.getElem?_eq_getElem here, List.getElem?_eq_getElem there,
    List.getD_eq_getElem _ _ there]
  have sample : future.getD (512 + i) 0 = future[kBufferSize + i] :=
    List.getD_eq_getElem _ _ here
  rw [sample]
  rfl

end Loops

/-! ### The calls -/

section Calls

variable {K : Type} [Field K] [LinearOrder K] [FloorRing K] [Cmath K] [IsStrictOrderedRing K]

theorem getD_forward_linear (st : BeatTracker K) {period : K} (usable : Usable period) {m : ℕ}
    (room : beatWindow period ≤ m) {j : ℕ} (known : j < 512 + beatWindow period) :
    (forward (windowMax period) 512 (st.linear ++ List.replicate m 0)
      (beatWindow period)).getD j 0 = (st.extended period (beatWindow period)).getD j 0 := by
  rw [extended_eq_forward]
  apply (looksBack_windowMax usable).congr _ _ _ known
  · rw [length_linear_append]
    omega
  · rw [length_extended]
    omega
  · intro j past
    rw [getD_linear_append st _ past, getD_extended_zero_past st period past]

theorem take_forward_linear (st : BeatTracker K) {period : K} (usable : Usable period) {m : ℕ}
    (room : beatWindow period ≤ m) :
    (forward (windowMax period) 512 (st.linear ++ List.replicate m 0) (beatWindow period)).take
        (512 + beatWindow period) =
      (st.extended period (beatWindow period)).take (512 + beatWindow period) := by
  have size : (forward (windowMax period) 512 (st.linear ++ List.replicate m 0)
      (beatWindow period)).length = 512 + m := by
    rw [length_forward, length_linear_append]
  have size' := st.length_extended period (beatWindow period)
  apply List.ext_getElem
  · rw [List.length_take, List.length_take, size, size']
    omega
  · intro j inside inside'
    rw [List.length_take] at inside inside'
    have entry := getD_forward_linear st usable room (Nat.lt_of_lt_of_le inside (min_le_left _ _))
    rw [List.getD_eq_getElem _ _ (by omega), List.getD_eq_getElem _ _ (by omega)] at entry
    rw [List.getElem_take, List.getElem_take, entry]

omit [FloorRing K] [IsStrictOrderedRing K] in
theorem weights_written (buffer : List K) (size : ℕ) (period : K) :
    ∃ w1, logGaussianWindow (grown buffer size) size period = some w1 ∧
      w1.take size = BeatTracker.logGaussianWindow size period :=
  ⟨_, logGaussianWindow_eq period (le_length_grown buffer size),
    List.take_left' (length_logGaussianWindow size period)⟩

theorem argmax_projected (st : BeatTracker K) (usable : Usable st.beatPeriod) {m : ℕ}
    (room : beatWindow st.beatPeriod ≤ m) (rest : List K) :
    ∃ best, argmax (beatWindow st.beatPeriod)
      (forward (windowMax st.beatPeriod) 512 (st.linear ++ List.replicate m 0)
        (beatWindow st.beatPeriod))
      ((List.range (beatWindow st.beatPeriod)).map (beatExpectation st.beatPeriod) ++ rest) =
        some (best, st.bestBeat) := by
  have projected : 512 + beatWindow st.beatPeriod ≤
      (forward (windowMax st.beatPeriod) 512 (st.linear ++ List.replicate m 0)
        (beatWindow st.beatPeriod)).length := by
    rw [length_forward, length_linear_append]
    omega
  have expected : ((List.range (beatWindow st.beatPeriod)).map
      (beatExpectation st.beatPeriod)).length = beatWindow st.beatPeriod := by
    rw [List.length_map, List.length_range]
  have filled : beatWindow st.beatPeriod ≤ ((List.range (beatWindow st.beatPeriod)).map
      (beatExpectation st.beatPeriod) ++ rest).length := by
    rw [List.length_append, expected]
    omega
  have split : ∀ r : K × ℕ, r.2 = st.bestBeat → ∃ best, some r = some (best, st.bestBeat) :=
    fun r same => ⟨r.1, by rw [← same]⟩
  rw [argmax_eq projected filled]
  apply split
  rw [bestBeat, futureCs_eq_extended]
  refine congrArg Prod.snd (List.foldl_ext _ _ _ fun best i listed => ?_)
  have inside := List.mem_range.mp listed
  have expectation : ((List.range (beatWindow st.beatPeriod)).map
      (beatExpectation st.beatPeriod) ++ rest).getD i 0 = beatExpectation st.beatPeriod i := by
    have there := inside.trans_eq expected.symm
    rw [List.getD_append _ _ _ _ there, List.getD_eq_getElem _ _ there, List.getElem_map,
      List.getElem_range]
  rw [getD_forward_linear st usable room (by omega), expectation]
  rfl

theorem predictBeat_eq (st : BufferedTracker K) (usable : Usable st.beatPeriod) :
    ∃ st', st.predictBeat = some st' ∧ st'.toBeatTracker = st.toBeatTracker.predictBeat ∧
      ∃ m, beatWindow st.beatPeriod ≤ m ∧
        st'.futureCs = forward (windowMax st.beatPeriod) 512
          (st.linear ++ List.replicate m 0) (beatWindow st.beatPeriod) := by
  have size : kBufferSize = 512 := rfl
  have grows := le_length_grown st.futureCs (kBufferSize + beatWindow st.beatPeriod)
  obtain ⟨m, total⟩ : ∃ m,
      (grown st.futureCs (kBufferSize + beatWindow st.beatPeriod)).length = 512 + m :=
    Nat.exists_eq_add_of_le (by omega)
  have room : beatWindow st.beatPeriod ≤ m := by omega
  have front := linearised_eq st (total.ge.trans' (Nat.le_add_right 512 m))
  rw [total, Nat.add_sub_cancel_left] at front
  have expectations := foldlM_store_first (beatExpectation st.beatPeriod)
    (le_length_grown st.w2Window (beatWindow st.beatPeriod))
  obtain ⟨w1, weights, span⟩ := weights_written st.w1Window (windowSize st.beatPeriod)
    st.beatPeriod
  have enough : 512 + beatWindow st.beatPeriod ≤ (st.linear ++ List.replicate m 0).length := by
    rw [length_linear_append]
    omega
  have projected := synthesised_eq st.beatPeriod enough
  obtain ⟨best, found⟩ := argmax_projected st.toBeatTracker usable room
    ((grown st.w2Window (beatWindow st.beatPeriod)).drop (beatWindow st.beatPeriod))
  have run : st.predictBeat = some { st with
      futureCs := forward (windowMax st.beatPeriod) 512 (st.linear ++ List.replicate m 0)
        (beatWindow st.beatPeriod)
      w1Window := w1
      w2Window := (List.range (beatWindow st.beatPeriod)).map (beatExpectation st.beatPeriod) ++
        (grown st.w2Window (beatWindow st.beatPeriod)).drop (beatWindow st.beatPeriod)
      toBeatTracker := st.toBeatTracker.predictBeat } := by
    unfold predictBeat
    dsimp only
    rw [front, Option.bind_eq_bind, Option.bind_some, expectations, Option.bind_some, weights,
      Option.bind_some, span, projected, Option.bind_some, found]
    rfl
  exact ⟨_, run, rfl, m, room, rfl⟩

theorem process_eq (st : BufferedTracker K) (odf period : K) :
    ∃ st', st.process odf period = some (st', (st.toBeatTracker.process odf period).2) ∧
      st'.toBeatTracker = (st.toBeatTracker.process odf period).1 := by
  obtain ⟨w1, weights, span⟩ := weights_written st.w1Window (windowSize (usedPeriod period))
    (usedPeriod period)
  let pushed : BufferedTracker K :=
    { st with toBeatTracker := st.toBeatTracker.advanced odf period, w1Window := w1 }
  have settled : ∃ st₁,
      (if pushed.timeToNextPrediction ≤ 0 then predictBeat pushed else some pushed) = some st₁ ∧
        st₁.toBeatTracker = if pushed.timeToNextPrediction ≤ 0
          then (st.toBeatTracker.advanced odf period).predictBeat
          else st.toBeatTracker.advanced odf period := by
    by_cases predicts : pushed.timeToNextPrediction ≤ 0
    · obtain ⟨st₁, ran, tracker, -⟩ := predictBeat_eq pushed (usable_usedPeriod period)
      rw [if_pos predicts, if_pos predicts]
      exact ⟨st₁, ran, tracker⟩
    · rw [if_neg predicts, if_neg predicts]
      exact ⟨pushed, rfl, rfl⟩
  obtain ⟨st₁, ran, tracker⟩ := settled
  have run : st.process odf period = some (
      if st₁.timeToNextBeat ≤ 0 then
        ({ st₁ with beatPhaseCounter := 0, timeToNextBeat := roundAway (usedPeriod period) }, true)
      else (st₁, false)) := by
    have used : clamp period 10.0 ((kBufferSize : K) * 0.5) = usedPeriod period := rfl
    unfold process
    dsimp only
    rw [used, weights, Option.bind_eq_bind, Option.bind_some, span]
    exact congrArg (Option.map _) ran
  have plain : st.toBeatTracker.process odf period =
      if st₁.toBeatTracker.timeToNextBeat ≤ 0 then
        ({ st₁.toBeatTracker with
            beatPhaseCounter := 0
            timeToNextBeat := roundAway (usedPeriod period) }, true)
      else (st₁.toBeatTracker, false) := by
    rw [BeatTracker.process_eq, tracker]
  rw [run, plain]
  split_ifs
  · exact ⟨_, rfl, rfl⟩
  · exact ⟨_, rfl, rfl⟩

end Calls

/-! ### The recurrence -/

section Exact

variable {period : ℝ}

/-- The sample that `process` adds to the score. -/
structure Samples (period odf : ℝ) (st st' : BufferedTracker ℝ) (best : ℝ) : Prop where
  score : st'.cumulativeScore = Function.update st.cumulativeScore st.csHead
    ((1 - kAlpha) * (|odf| + 1e-4) + kAlpha * best)
  floored : IsGreatest (insert 0 (lookedBack period (fun j => st.linear.getD j 0) 512)) best
  recurrence : (∀ slot, 0 ≤ st.cumulativeScore slot) →
    IsGreatest (lookedBack period (fun j => st.linear.getD j 0) 512) best

/-- What `predict_beat` leaves in `future_cs_`: the history, then the recurrence. -/
structure Projects (period : ℝ) (st st' : BufferedTracker ℝ) : Prop where
  room : 512 + beatWindow period ≤ st'.futureCs.length
  past : ∀ j < 512, st'.futureCs.getD j 0 = st.linear.getD j 0
  window : ∀ i < beatWindow period,
    st'.futureCs.getD (512 + i) 0 = windowMax period st'.futureCs i
  floored : ∀ n, 512 ≤ n → n < 512 + beatWindow period →
    IsGreatest (insert 0 (lookedBack period (fun j => st'.futureCs.getD j 0) n))
      (st'.futureCs.getD n 0)
  recurrence : (∀ slot, 0 ≤ st.cumulativeScore slot) →
    ∀ n, 512 ≤ n → n < 512 + beatWindow period →
      IsGreatest (lookedBack period (fun j => st'.futureCs.getD j 0) n) (st'.futureCs.getD n 0)

theorem samples (usable : Usable period) (odf : ℝ) {st st' : BufferedTracker ℝ}
    (tracker : st'.toBeatTracker = (st.toBeatTracker.process odf period).1) :
    Samples period odf st st' (windowMax period st.linear 0) := by
  have floored := isGreatest_windowMax usable (i := 0) st.length_linear.ge
  refine ⟨?_, floored, fun nonneg => ?_⟩
  · rw [tracker, cumulativeScore_process, usedPeriod_of_usable usable, newCs_eq]
  · exact isGreatest_lookedBack usable (by omega) (fun j past => linear_nonneg nonneg past) floored

theorem projects (usable : Usable period) {st st' : BufferedTracker ℝ} {m : ℕ}
    (enough : beatWindow period ≤ m)
    (future : st'.futureCs = forward (windowMax period) 512 (st.linear ++ List.replicate m 0)
      (beatWindow period)) : Projects period st st' := by
  have length := st.length_linear_append m
  have room : 512 + beatWindow period ≤ st'.futureCs.length := by
    rw [future, length_forward, length]
    omega
  have past : ∀ j < 512, st'.futureCs.getD j 0 = st.linear.getD j 0 := by
    intro j past
    rw [future, getD_forward_past _ _ _ _ _ past, getD_linear_append _ _ past, linear_getD _ past]
  have window : ∀ i < beatWindow period,
      st'.futureCs.getD (512 + i) 0 = windowMax period st'.futureCs i := by
    intro i inside
    rw [future]
    exact (looksBack_windowMax usable).recurrence (by omega) inside
  have floored : ∀ n, 512 ≤ n → n < 512 + beatWindow period →
      IsGreatest (insert 0 (lookedBack period (fun j => st'.futureCs.getD j 0) n))
        (st'.futureCs.getD n 0) := by
    intro n ahead inside
    obtain ⟨i, rfl⟩ := Nat.exists_eq_add_of_le ahead
    rw [window i (by omega)]
    exact isGreatest_windowMax usable (by omega)
  refine ⟨room, past, window, floored, fun nonneg n ahead inside => ?_⟩
  refine isGreatest_lookedBack usable (by omega) (fun j earlier => ?_) (floored n ahead inside)
  rcases Nat.lt_or_ge j 512 with behind | known
  · rw [past j behind]
    exact linear_nonneg nonneg behind
  · exact (floored j known (by omega)).2 (Set.mem_insert _ _)

end Exact

/-! ### Runs -/

section Runs

variable {K : Type} [Field K] [LinearOrder K] [FloorRing K] [Cmath K]

inductive Act (K : Type) where
  | reset
  | process (odf period : K)

def step (st : BufferedTracker K) : Act K → Option (BufferedTracker K)
  | .reset => some st.reset
  | .process odf period => (st.process odf period).map Prod.fst

/-- The tracker after calls of `reset` and `process`. -/
def after (acts : List (Act K)) : Option (BufferedTracker K) := acts.foldlM step initial

/-- The same calls on the tracker without buffers. -/
def plainStep (st : BeatTracker K) : Act K → BeatTracker K
  | .reset => st.reset
  | .process odf period => (st.process odf period).1

def plainAfter (acts : List (Act K)) : BeatTracker K := acts.foldl plainStep .initial

theorem after_eq [IsStrictOrderedRing K] (acts : List (Act K)) :
    ∃ st, after acts = some st ∧ st.toBeatTracker = plainAfter acts := by
  induction acts using List.reverseRecOn with
  | nil => exact ⟨initial, rfl, rfl⟩
  | append_singleton acts act ih =>
    obtain ⟨st, ran, tracker⟩ := ih
    have last : after (acts ++ [act]) = step st act := by
      rw [after, List.foldlM_append, ← after, ran, Option.bind_eq_bind, Option.bind_some,
        List.foldlM_cons]
      exact bind_pure _
    rw [last, plainAfter, List.foldl_append, ← plainAfter, ← tracker]
    cases act with
    | reset => exact ⟨st.reset, rfl, rfl⟩
    | process odf period =>
      obtain ⟨st', run, same⟩ := process_eq st odf period
      refine ⟨st', ?_, same⟩
      rw [step, run]
      rfl

end Runs

theorem plainAfter_nonneg (acts : List (Act ℝ)) (slot : Fin kBufferSize) :
    0 ≤ (plainAfter acts).cumulativeScore slot := by
  induction acts using List.reverseRecOn generalizing slot with
  | nil => exact le_rfl
  | append_singleton acts act ih =>
    rw [plainAfter, List.foldl_append]
    cases act with
    | reset => exact le_rfl
    | process odf period =>
      change 0 ≤ ((plainAfter acts).process odf period).1.cumulativeScore slot
      rw [cumulativeScore_process]
      by_cases written : slot = (plainAfter acts).csHead
      · have lower := le_newCs (plainAfter acts) (le_add_of_nonneg_left (abs_nonneg odf))
          (usedPeriod period)
        rw [written, Function.update_self]
        linarith
      · rw [Function.update_of_ne written]
        exact ih slot

/-! ### Any two trackers that differ in their buffers -/

theorem process_alike {st other : BufferedTracker ℝ}
    (same : st.toBeatTracker = other.toBeatTracker) (odf period : ℝ) :
    (st.process odf period).map (fun r => (r.1.toBeatTracker, r.2)) =
      (other.process odf period).map fun r => (r.1.toBeatTracker, r.2) := by
  obtain ⟨st', run, tracker⟩ := process_eq st odf period
  obtain ⟨other', run', tracker'⟩ := process_eq other odf period
  rw [run, run', Option.map_some, Option.map_some, tracker, tracker', same]

theorem predictBeat_alike {st other : BufferedTracker ℝ}
    (same : st.toBeatTracker = other.toBeatTracker) (usable : Usable st.beatPeriod) :
    st.predictBeat.map
        (fun r => (r.toBeatTracker, r.futureCs.take (512 + beatWindow st.beatPeriod))) =
      other.predictBeat.map
        fun r => (r.toBeatTracker, r.futureCs.take (512 + beatWindow st.beatPeriod)) := by
  have period : other.beatPeriod = st.beatPeriod := by rw [same]
  obtain ⟨st', run, tracker, m, room, future⟩ := predictBeat_eq st usable
  obtain ⟨other', run', tracker', m', room', future'⟩ := predictBeat_eq other (period ▸ usable)
  rw [period] at room' future'
  have projection : st'.futureCs.take (512 + beatWindow st.beatPeriod) =
      other'.futureCs.take (512 + beatWindow st.beatPeriod) := by
    rw [future, future', take_forward_linear _ usable room, take_forward_linear _ usable room',
      same]
  rw [run, run', Option.map_some, Option.map_some, projection, tracker, tracker', same]

/-- At every usable period and over every score: the windows stay within the known samples and
have a weight for each of their places, a projected sample depends on those before it, neither
call fails or depends on its buffers, and both compute the recurrence. Its floor of zero is
below every score that a run can reach. -/
theorem projection_causal_in_bounds {period : ℝ} (usable : Usable period) :
    (∀ i, InBounds period i) ∧ LooksBack (windowMax period) 512 0 ∧
    (∀ st : BufferedTracker ℝ, st.beatPeriod = period → ∃ st', st.predictBeat = some st' ∧
      st'.toBeatTracker = st.toBeatTracker.predictBeat ∧ Projects period st st') ∧
    (∀ (st : BufferedTracker ℝ) (odf : ℝ), ∃ st' best,
      st.process odf period = some (st', (st.toBeatTracker.process odf period).2) ∧
        st'.toBeatTracker = (st.toBeatTracker.process odf period).1 ∧
          Samples period odf st st' best) ∧
    (∀ st other : BufferedTracker ℝ, st.toBeatTracker = other.toBeatTracker →
      (∀ odf, (st.process odf period).map (fun r => (r.1.toBeatTracker, r.2)) =
        (other.process odf period).map fun r => (r.1.toBeatTracker, r.2)) ∧
      (st.beatPeriod = period →
        st.predictBeat.map
            (fun r => (r.toBeatTracker, r.futureCs.take (512 + beatWindow period))) =
          other.predictBeat.map
            fun r => (r.toBeatTracker, r.futureCs.take (512 + beatWindow period)))) ∧
    ∀ acts : List (Act ℝ), ∃ st, after acts = some st ∧ ∀ slot, 0 ≤ st.cumulativeScore slot := by
  refine ⟨inBounds usable, looksBack_windowMax usable, ?_, fun st odf => ?_,
    fun st other same => ⟨fun odf => process_alike same odf period, ?_⟩, fun acts => ?_⟩
  · rintro st rfl
    obtain ⟨st', run, tracker, m, room, future⟩ := predictBeat_eq st usable
    exact ⟨st', run, tracker, projects usable room future⟩
  · obtain ⟨st', run, tracker⟩ := process_eq st odf period
    exact ⟨st', _, run, tracker, samples usable odf tracker⟩
  · rintro rfl
    exact predictBeat_alike same usable
  · obtain ⟨st, ran, tracker⟩ := after_eq acts
    refine ⟨st, ran, fun slot => ?_⟩
    rw [tracker]
    exact plainAfter_nonneg acts slot

/-- Buffers that are too short, or hold anything, at the period of a fresh tracker. -/
theorem odd_buffers_project :
    ∃ st', ({ (initial : BufferedTracker ℝ) with
          futureCs := [7], w1Window := [], w2Window := List.replicate 1000 (-1) }).predictBeat =
        some st' ∧
      IsGreatest (lookedBack 86.0 (fun j => st'.futureCs.getD j 0) 512)
        (st'.futureCs.getD 512 0) := by
  have usable : Usable (86.0 : ℝ) := by constructor <;> norm_num
  obtain ⟨-, -, predicts, -⟩ := projection_causal_in_bounds usable
  obtain ⟨st', run, -, projected⟩ := predicts { (initial : BufferedTracker ℝ) with
    futureCs := [7], w1Window := [], w2Window := List.replicate 1000 (-1) } rfl
  have some : 512 < 512 + beatWindow (86.0 : ℝ) := by
    unfold beatWindow
    omega
  exact ⟨st', run, projected.recurrence (fun _ => le_rfl) 512 le_rfl some⟩

end Listeningway.Dsp.BufferedTracker
