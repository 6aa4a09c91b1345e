/- Listeningway/Dsp/OnsetRuns
   source: src/audio/dsp/beat/odf_csd.cpp; src/audio/dsp/stages/fft_stage.cpp
   digest: The onset value of a run in closed form, its bounds and its symmetries. -/

import Listeningway.Dsp.Beat.Odf
import Mathlib.Data.List.Forall2
import Mathlib.Data.List.GetD
import Mathlib.Data.NNReal.Basic
import Mathlib.Tactic.SplitIfs

/-!
What OdfCsd keeps is a function of the last two frames of the present size. The closed form
carries every result about runs; the state machine is looked at once.
-/

set_option autoImplicit false
set_option relaxedAutoImplicit false

namespace Listeningway.Dsp.OdfCsd

open scoped NNReal

/-- A magnitude and a phase for every bin, as FftStage writes them. -/
structure Spectrum where
  magnitudes : List ℝ
  phases : List ℝ
  paired : phases.length = magnitudes.length
  nonneg : ∀ m ∈ magnitudes, 0 ≤ m

namespace Spectrum

def size (f : Spectrum) : ℕ := f.magnitudes.length

def magnitude (f : Spectrum) (k : ℕ) : ℝ := f.magnitudes.getD k 0

def phase (f : Spectrum) (k : ℕ) : ℝ := f.phases.getD k 0

theorem magnitude_nonneg (f : Spectrum) (k : ℕ) : 0 ≤ f.magnitude k := by
  unfold magnitude
  rcases lt_or_ge k f.magnitudes.length with inside | outside
  · rw [List.getD_eq_getElem _ _ inside]
    exact f.nonneg _ (List.getElem_mem inside)
  · rw [List.getD_eq_default _ _ outside]

end Spectrum

/-! ### Runs -/

inductive Act where
  | reset
  | frame (f : Spectrum)

noncomputable section

def step (st : OdfCsd ℝ) : Act → OdfCsd ℝ
  | .reset => st.reset
  | .frame f => (st.process f.magnitudes f.phases).1

def after (acts : List Act) : OdfCsd ℝ := acts.foldl step initial

/-- What `process` returns for `f` at the end of a run. -/
def onset (acts : List Act) (f : Spectrum) : ℝ :=
  ((after acts).process f.magnitudes f.phases).2

/-- A frame of another size starts anew, one without bins is passed over. -/
def note (n : ℕ) (frames : List Spectrum) : Act → List Spectrum
  | .reset => []
  | .frame f => if f.size = 0 then frames else if f.size = n then f :: frames else []

/-- The frames of size `n` since construction, reset or a size change, newest first. -/
def streak (n : ℕ) (acts : List Act) : List Spectrum := acts.foldl (note n) []

theorem streak_append (n : ℕ) (acts : List Act) (act : Act) :
    streak n (acts ++ [act]) = note n (streak n acts) act := by
  rw [streak, List.foldl_append]
  rfl

theorem size_of_mem_streak {n : ℕ} {acts : List Act} :
    ∀ f ∈ streak n acts, f.size = n := by
  induction acts using List.reverseRecOn with
  | nil => exact fun f listed => absurd listed List.not_mem_nil
  | append_singleton acts act ih =>
    intro f listed
    rw [streak_append] at listed
    cases act with
    | reset => exact absurd listed List.not_mem_nil
    | frame g =>
      simp only [note] at listed
      split_ifs at listed with blank same
      · exact ih f listed
      · rcases List.mem_cons.mp listed with rfl | earlier
        · exact same
        · exact ih f earlier
      · exact absurd listed List.not_mem_nil

/-! ### The state in closed form -/

/-- The state at size `n` after the frames of a streak. -/
def stateOf (n : ℕ) : List Spectrum → OdfCsd ℝ
  | [] => ⟨List.replicate n 0, List.replicate n 0, List.replicate n 0, false, 0⟩
  | [p] => ⟨p.magnitudes, p.phases, List.replicate n 0, false, 1⟩
  | p :: q :: _ => ⟨p.magnitudes, p.phases, q.phases, true, 2⟩

/-- The bins whose magnitude rose. -/
def rising (f p : Spectrum) : Finset ℕ :=
  (Finset.range f.size).filter fun k => 0 < f.magnitude k - p.magnitude k

/-- `phase_dev`. -/
def phaseDev (f p q : Spectrum) (k : ℕ) : ℝ := f.phase k - 2.0 * p.phase k + q.phase k

/-- What `process` takes the square root of. -/
def radicand (f p q : Spectrum) (k : ℕ) : ℝ :=
  f.magnitude k * f.magnitude k + p.magnitude k * p.magnitude k -
    2.0 * f.magnitude k * p.magnitude k * Real.cos (phaseDev f p q k)

def onsetOf (f : Spectrum) : List Spectrum → ℝ
  | p :: q :: _ => ∑ k ∈ rising f p, Real.sqrt (radicand f p q k)
  | _ => 0

theorem length_stateOf_cons (f : Spectrum) (frames : List Spectrum) :
    (stateOf f.size (f :: frames)).prevMag.length = f.size := by
  cases frames <;> rfl

theorem reset_stateOf {n : ℕ} {frames : List Spectrum} (sizes : ∀ f ∈ frames, f.size = n) :
    (stateOf n frames).reset = stateOf n [] := by
  match frames with
  | [] => simp [stateOf, reset]
  | [p] =>
    have mags : p.magnitudes.length = n := sizes p List.mem_cons_self
    simp [stateOf, reset, p.paired, mags]
  | p :: q :: _ =>
    have mags : p.magnitudes.length = n := sizes p List.mem_cons_self
    have mags' : q.magnitudes.length = n := sizes q (by simp)
    simp [stateOf, reset, p.paired, q.paired, mags, mags']

theorem ensureSize_of_length {st : OdfCsd ℝ} {n : ℕ} (same : st.prevMag.length = n) :
    st.ensureSize n = st := if_pos same

theorem ensureSize_of_other {st : OdfCsd ℝ} {n : ℕ} (other : st.prevMag.length ≠ n) :
    st.ensureSize n = stateOf n [] := if_neg other

theorem process_eq {st : OdfCsd ℝ} {f : Spectrum} {frames : List Spectrum} (some : f.size ≠ 0)
    (sized : st.ensureSize f.size = stateOf f.size frames) :
    st.process f.magnitudes f.phases = (stateOf f.size (f :: frames), onsetOf f frames) := by
  have bins : min f.magnitudes.length f.phases.length = f.size := by
    rw [f.paired, min_self, Spectrum.size]
  have magnitudes : f.magnitudes.take f.size = f.magnitudes := List.take_length
  have phases : f.phases.take f.size = f.phases := List.take_of_length_le f.paired.le
  unfold process
  rw [bins]
  dsimp only
  rw [if_neg some, sized, magnitudes, phases]
  match frames with
  | [] => rfl
  | [p] => rfl
  | p :: q :: _ =>
    refine Prod.ext rfl ?_
    change ∑ k ∈ Finset.range f.size, rise _ _ _ _ _ = ∑ k ∈ rising f p, _
    rw [rising, Finset.sum_filter]
    rfl

theorem ensureSize_after (acts : List Act) {n : ℕ} (some : n ≠ 0) :
    (after acts).ensureSize n = stateOf n (streak n acts) := by
  induction acts using List.reverseRecOn generalizing n with
  | nil => exact ensureSize_of_other some.symm
  | append_singleton acts act ih =>
    rw [streak_append, after, List.foldl_append]
    change (step (after acts) act).ensureSize n = _
    cases act with
    | reset =>
      have same : (after acts).reset.prevMag.length = (after acts).prevMag.length :=
        List.length_map _
      rcases eq_or_ne (after acts).prevMag.length n with sized | other
      · have now : after acts = stateOf n (streak n acts) := by
          rw [← ih some, ensureSize_of_length sized]
        rw [step, ensureSize_of_length (same.trans sized), now, reset_stateOf size_of_mem_streak]
        rfl
      · exact ensureSize_of_other (same.trans_ne other)
    | frame f =>
      simp only [step, note]
      split_ifs with blank sized
      · have none : min f.magnitudes.length f.phases.length = 0 := by
          rw [f.paired, min_self]
          exact blank
        rw [process, none]
        exact ih some
      · subst sized
        rw [process_eq some (ih some)]
        exact ensureSize_of_length (length_stateOf_cons _ _)
      · rw [process_eq blank (ih blank)]
        refine ensureSize_of_other ?_
        rwa [length_stateOf_cons]

theorem streak_zero (acts : List Act) : streak 0 acts = [] := by
  induction acts using List.reverseRecOn with
  | nil => rfl
  | append_singleton acts act ih =>
    rw [streak_append, ih]
    cases act with
    | reset => rfl
    | frame f =>
      simp only [note]
      split_ifs <;> rfl

theorem onset_eq (acts : List Act) (f : Spectrum) :
    onset acts f = onsetOf f (streak f.size acts) := by
  rcases eq_or_ne f.size 0 with blank | some
  · have none : min f.magnitudes.length f.phases.length = 0 := by
      rw [f.paired, min_self]
      exact blank
    rw [onset, process, none, blank, streak_zero]
    rfl
  · rw [onset, process_eq some (ensureSize_after acts some)]

/-! ### Bounds -/

theorem radicand_eq (f p q : Spectrum) (k : ℕ) :
    radicand f p q k = (f.magnitude k - p.magnitude k) ^ 2 +
      2 * (f.magnitude k * p.magnitude k) * (1 - Real.cos (phaseDev f p q k)) := by
  rw [radicand, two_eq]
  ring

theorem radicand_bounds (f p q : Spectrum) (k : ℕ) :
    (f.magnitude k - p.magnitude k) ^ 2 ≤ radicand f p q k ∧
      radicand f p q k ≤ (f.magnitude k + p.magnitude k) ^ 2 := by
  have product : 0 ≤ f.magnitude k * p.magnitude k :=
    mul_nonneg (f.magnitude_nonneg k) (p.magnitude_nonneg k)
  have below := Real.neg_one_le_cos (phaseDev f p q k)
  have above := Real.cos_le_one (phaseDev f p q k)
  rw [radicand_eq]
  constructor
  · nlinarith only [product, above]
  · nlinarith only [product, below]

theorem radicand_nonneg (f p q : Spectrum) (k : ℕ) : 0 ≤ radicand f p q k :=
  (sq_nonneg _).trans (radicand_bounds f p q k).1

theorem onsetOf_bounds (f p q : Spectrum) (rest : List Spectrum) :
    ∑ k ∈ rising f p, (f.magnitude k - p.magnitude k) ≤ onsetOf f (p :: q :: rest) ∧
      onsetOf f (p :: q :: rest) ≤ ∑ k ∈ rising f p, (f.magnitude k + p.magnitude k) := by
  constructor
  · refine Finset.sum_le_sum fun k _ => Real.le_sqrt_of_sq_le ?_
    exact (radicand_bounds f p q k).1
  · refine Finset.sum_le_sum fun k _ => Real.sqrt_le_iff.mpr ⟨?_, (radicand_bounds f p q k).2⟩
    exact add_nonneg (f.magnitude_nonneg k) (p.magnitude_nonneg k)

/-! ### Scaled magnitudes -/

/-- All magnitudes times `c`. -/
def Spectrum.scale (c : ℝ≥0) (f : Spectrum) : Spectrum where
  magnitudes := f.magnitudes.map fun m => c * m
  phases := f.phases
  paired := by rw [List.length_map, f.paired]
  nonneg m listed := by
    obtain ⟨m', listed', rfl⟩ := List.mem_map.mp listed
    exact mul_nonneg c.2 (f.nonneg m' listed')

def Act.scale (c : ℝ≥0) : Act → Act
  | .reset => .reset
  | .frame f => .frame (f.scale c)

@[simp] theorem Spectrum.size_scale (c : ℝ≥0) (f : Spectrum) : (f.scale c).size = f.size :=
  List.length_map _

@[simp] theorem Spectrum.magnitude_scale (c : ℝ≥0) (f : Spectrum) (k : ℕ) :
    (f.scale c).magnitude k = c * f.magnitude k := by
  have map := List.getD_map (l := f.magnitudes) (n := k) (d := 0) fun m => (c : ℝ) * m
  rwa [mul_zero] at map

theorem streak_scale (c : ℝ≥0) (n : ℕ) (acts : List Act) :
    streak n (acts.map (Act.scale c)) = (streak n acts).map (Spectrum.scale c) := by
  induction acts using List.reverseRecOn with
  | nil => rfl
  | append_singleton acts act ih =>
    rw [List.map_append, List.map_singleton, streak_append, streak_append, ih]
    cases act with
    | reset => rfl
    | frame f =>
      simp only [Act.scale, note, Spectrum.size_scale]
      split_ifs <;> rfl

theorem radicand_scale (c : ℝ≥0) (f p q : Spectrum) (k : ℕ) :
    radicand (f.scale c) (p.scale c) (q.scale c) k = c ^ 2 * radicand f p q k := by
  have same : phaseDev (f.scale c) (p.scale c) (q.scale c) k = phaseDev f p q k := rfl
  simp only [radicand_eq, Spectrum.magnitude_scale, same]
  ring

theorem onsetOf_scale (c : ℝ≥0) (f : Spectrum) (frames : List Spectrum) :
    onsetOf (f.scale c) (frames.map (Spectrum.scale c)) = c * onsetOf f frames := by
  match frames with
  | [] => exact (mul_zero _).symm
  | [p] => exact (mul_zero _).symm
  | p :: q :: _ =>
    have root (k : ℕ) : Real.sqrt (radicand (f.scale c) (p.scale c) (q.scale c) k) =
        c * Real.sqrt (radicand f p q k) := by
      rw [radicand_scale, Real.sqrt_mul (sq_nonneg _), Real.sqrt_sq c.coe_nonneg]
    rw [List.map_cons, List.map_cons, onsetOf, onsetOf]
    simp only [root]
    rw [← Finset.mul_sum]
    rcases c.coe_nonneg.eq_or_lt with zero | positive
    · rw [← zero, zero_mul, zero_mul]
    · congr 2
      ext k
      simp only [rising, Finset.mem_filter, Spectrum.size_scale, Spectrum.magnitude_scale,
        ← mul_sub, mul_pos_iff_of_pos_left positive]

/-! ### Turned phases -/

/-- The same magnitudes, each phase some whole turns away. -/
structure Spectrum.Turned (f g : Spectrum) : Prop where
  magnitudes : g.magnitudes = f.magnitudes
  phases : List.Forall₂ (fun x y => ∃ z : ℤ, y = x + z * (2 * Real.pi)) f.phases g.phases

inductive Act.Turned : Act → Act → Prop
  | reset : Act.Turned .reset .reset
  | frame {f g : Spectrum} : f.Turned g → Act.Turned (.frame f) (.frame g)

theorem Spectrum.Turned.size {f g : Spectrum} (h : f.Turned g) : g.size = f.size :=
  congrArg List.length h.magnitudes

theorem Spectrum.Turned.magnitude {f g : Spectrum} (h : f.Turned g) (k : ℕ) :
    g.magnitude k = f.magnitude k := by
  rw [Spectrum.magnitude, h.magnitudes, Spectrum.magnitude]

theorem Spectrum.Turned.phase {f g : Spectrum} (h : f.Turned g) (k : ℕ) :
    ∃ z : ℤ, g.phase k = f.phase k + z * (2 * Real.pi) := by
  unfold Spectrum.phase
  have lengths := h.phases.length_eq
  rcases lt_or_ge k f.phases.length with inside | outside
  · rw [List.getD_eq_getElem _ _ inside, List.getD_eq_getElem _ _ (lengths ▸ inside)]
    exact h.phases.get inside (lengths ▸ inside)
  · rw [List.getD_eq_default _ _ outside, List.getD_eq_default _ _ (lengths ▸ outside)]
    exact ⟨0, by simp⟩

/-- The predicted deviation turns with its three phases. -/
theorem radicand_turned {f f' p p' q q' : Spectrum} (hf : f.Turned f') (hp : p.Turned p')
    (hq : q.Turned q') (k : ℕ) : radicand f' p' q' k = radicand f p q k := by
  obtain ⟨a, ha⟩ := hf.phase k
  obtain ⟨b, hb⟩ := hp.phase k
  obtain ⟨c, hc⟩ := hq.phase k
  have turns : phaseDev f' p' q' k =
      phaseDev f p q k + ((a - 2 * b + c : ℤ) : ℝ) * (2 * Real.pi) := by
    rw [phaseDev, phaseDev, two_eq, ha, hb, hc]
    push_cast
    ring
  rw [radicand, hf.magnitude, hp.magnitude, turns, Real.cos_add_int_mul_two_pi, radicand]

theorem onsetOf_turned {f f' : Spectrum} (hf : f.Turned f') {frames frames' : List Spectrum}
    (h : List.Forall₂ Spectrum.Turned frames frames') : onsetOf f' frames' = onsetOf f frames := by
  match h with
  | .nil => rfl
  | .cons _ .nil => rfl
  | .cons (a := p) (b := p') hp (.cons (a := q) (b := q') hq _) =>
    have same : rising f' p' = rising f p := by
      ext k
      rw [rising, rising, Finset.mem_filter, Finset.mem_filter, hf.size, hf.magnitude,
        hp.magnitude]
    change ∑ k ∈ rising f' p', _ = ∑ k ∈ rising f p, _
    rw [same]
    exact Finset.sum_congr rfl fun k _ => by rw [radicand_turned hf hp hq]

theorem note_turned {n : ℕ} {frames frames' : List Spectrum} {act act' : Act}
    (h : List.Forall₂ Spectrum.Turned frames frames') (turned : act.Turned act') :
    List.Forall₂ Spectrum.Turned (note n frames act) (note n frames' act') := by
  cases turned with
  | reset => exact .nil
  | frame hf =>
    simp only [note, hf.size]
    split_ifs
    · exact h
    · exact .cons hf h
    · exact .nil

theorem streak_turned {n : ℕ} {acts acts' : List Act} (h : List.Forall₂ Act.Turned acts acts') :
    List.Forall₂ Spectrum.Turned (streak n acts) (streak n acts') := by
  have fold : ∀ frames frames', List.Forall₂ Spectrum.Turned frames frames' →
      List.Forall₂ Spectrum.Turned (acts.foldl (note n) frames) (acts'.foldl (note n) frames') := by
    induction h with
    | nil => exact fun _ _ before => before
    | cons turned _ ih => exact fun _ _ before => ih _ _ (note_turned before turned)
  exact fold [] [] .nil

/-- Two frames warm up, then the law of cosines bounds the value; it scales with the magnitudes
and takes no notice of whole turns. -/
structure Sound (acts : List Act) (f : Spectrum) : Prop where
  warmUp : (streak f.size acts).length < 2 → onset acts f = 0
  radicands : ∀ p q rest, streak f.size acts = p :: q :: rest →
    onset acts f = ∑ k ∈ rising f p, Real.sqrt (radicand f p q k) ∧
      ∀ k, 0 ≤ radicand f p q k
  bounds : ∀ p q rest, streak f.size acts = p :: q :: rest →
    ∑ k ∈ rising f p, (f.magnitude k - p.magnitude k) ≤ onset acts f ∧
      onset acts f ≤ ∑ k ∈ rising f p, (f.magnitude k + p.magnitude k)
  scaled : ∀ c : ℝ≥0, onset (acts.map (Act.scale c)) (f.scale c) = c * onset acts f
  turned : ∀ acts' f', List.Forall₂ Act.Turned acts acts' → f.Turned f' →
    onset acts' f' = onset acts f

theorem onset_sound (acts : List Act) (f : Spectrum) : Sound acts f where
  warmUp young := by
    rw [onset_eq]
    match streak f.size acts, young with
    | [], _ => rfl
    | [p], _ => rfl
  radicands p q rest streak := by
    rw [onset_eq, streak]
    exact ⟨rfl, radicand_nonneg f p q⟩
  bounds p q rest streak := by
    rw [onset_eq, streak]
    exact onsetOf_bounds f p q rest
  scaled c := by
    rw [onset_eq, onset_eq, Spectrum.size_scale, streak_scale, onsetOf_scale]
  turned acts' f' turned hf := by
    rw [onset_eq, onset_eq, hf.size]
    exact onsetOf_turned hf (streak_turned turned)

end

end Listeningway.Dsp.OdfCsd
