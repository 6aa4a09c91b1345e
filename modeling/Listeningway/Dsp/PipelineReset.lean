/- Listeningway/Dsp/PipelineReset
   source: src/audio/dsp/pipeline.cpp; the reset functions of src/audio/dsp/stages
   digest: What a reset pipeline still remembers: the direction buckets and nothing else. -/

import Listeningway.Dsp.ComposedPipeline

/-!
Two stage states are alike when no sequence of frames tells them apart. After `reset`
they need not be equal: a cached FFT plan, the lengths of zeroed vectors and filter
coefficients that are computed anew before their next use may differ.
-/

set_option autoImplicit false
set_option relaxedAutoImplicit false

namespace Listeningway.Dsp

open Listeningway.Config

variable {K : Type} [Field K] [LinearOrder K]

/-! ### FftStage: the plan follows the size -/

namespace FftStage

variable [Cmath K] [KissFft K]

structure Planned (st : FftStage K) : Prop where
  allocated : st.allocated = (decide (st.fftSize ≠ 0) && KissFft.alloc K st.fftSize)
  hann : st.fftSize ≠ 0 → st.hann = hannWindow st.fftSize

omit [LinearOrder K] in
theorem planned_initial : Planned (initial : FftStage K) := ⟨rfl, fun h => absurd rfl h⟩

omit [LinearOrder K] in
theorem planned_configure {st : FftStage K} (h : st.Planned) (size : ℕ) :
    (st.configure size).Planned := by
  unfold configure
  split_ifs with same zero
  · exact h
  · exact ⟨rfl, fun pos => absurd rfl pos⟩
  · exact ⟨by simp [zero], fun _ => rfl⟩

omit [LinearOrder K] in
theorem planned_process {st : FftStage K} (h : st.Planned) (frame : AnalysisFrame K)
    (cfg : Settings K) : (st.process frame cfg).1.Planned := by
  have configured := planned_configure h (max 64 cfg.frequency.fftSize).toNat
  unfold process
  dsimp only
  split_ifs
  · exact ⟨configured.allocated, configured.hann⟩
  · exact configured

omit [LinearOrder K] in
theorem process_planned_eq {st st' : FftStage K} (h : st.Planned) (h' : st'.Planned)
    (frame : AnalysisFrame K) (cfg : Settings K) :
    (st.process frame cfg).2 = (st'.process frame cfg).2 := by
  have pos : (max 64 cfg.frequency.fftSize).toNat ≠ 0 := by omega
  have size := configure_fftSize st pos
  have size' := configure_fftSize st' pos
  have plan := planned_configure h (max 64 cfg.frequency.fftSize).toNat
  have plan' := planned_configure h' (max 64 cfg.frequency.fftSize).toNat
  have hann : (st.configure (max 64 cfg.frequency.fftSize).toNat).hann =
      (st'.configure (max 64 cfg.frequency.fftSize).toNat).hann := by
    rw [plan.hann (by rw [size]; exact pos), plan'.hann (by rw [size']; exact pos), size, size']
  have allocated : (st.configure (max 64 cfg.frequency.fftSize).toNat).allocated =
      (st'.configure (max 64 cfg.frequency.fftSize).toNat).allocated := by
    rw [plan.allocated, plan'.allocated, size, size']
  unfold process
  dsimp only
  rw [allocated, hann, size, size']
  split_ifs <;> rfl

end FftStage

/-! ### OdfCsd: zeroed vectors of any length -/

namespace OdfCsd

/-- The three vectors have one length. -/
structure Even (st : OdfCsd K) : Prop where
  phase : st.prevPhase.length = st.prevMag.length
  phase2 : st.prevPhase2.length = st.prevMag.length

/-- As after construction or `reset`, for some length. -/
def Fresh (st : OdfCsd K) : Prop :=
  ∃ n, st = ⟨List.replicate n 0, List.replicate n 0, List.replicate n 0, false, 0⟩

def Alike (a b : OdfCsd K) : Prop := a = b ∨ a.Fresh ∧ b.Fresh

omit [LinearOrder K] in
theorem fresh_initial : Fresh (initial : OdfCsd K) := ⟨0, rfl⟩

omit [LinearOrder K] in
theorem Fresh.even {st : OdfCsd K} (h : st.Fresh) : st.Even := by
  obtain ⟨n, rfl⟩ := h
  exact ⟨by simp, by simp⟩

omit [LinearOrder K] in
theorem Even.fresh_reset {st : OdfCsd K} (h : st.Even) : st.reset.Fresh := by
  refine ⟨st.prevMag.length, ?_⟩
  rw [reset, List.map_const', List.map_const', List.map_const', h.phase, h.phase2]

omit [LinearOrder K] in
theorem Even.ensureSize {st : OdfCsd K} (h : st.Even) (n : ℕ) :
    (st.ensureSize n).Even ∧ (st.ensureSize n).prevMag.length = n := by
  unfold OdfCsd.ensureSize
  split_ifs with same
  · exact ⟨h, same⟩
  · exact ⟨⟨by simp, by simp⟩, by simp⟩

omit [LinearOrder K] in
theorem Fresh.ensureSize {st : OdfCsd K} (h : st.Fresh) (n : ℕ) :
    st.ensureSize n = ⟨List.replicate n 0, List.replicate n 0, List.replicate n 0, false, 0⟩ := by
  obtain ⟨m, rfl⟩ := h
  unfold OdfCsd.ensureSize
  split_ifs with same
  · rw [List.length_replicate] at same
    rw [same]
  · rfl

variable [Cmath K]

theorem Even.process {st : OdfCsd K} (h : st.Even) (magnitudes phases : List K) :
    (st.process magnitudes phases).1.Even := by
  obtain ⟨even, size⟩ := h.ensureSize (min magnitudes.length phases.length)
  unfold OdfCsd.process
  dsimp only
  split_ifs
  · exact h
  all_goals
    refine ⟨?_, ?_⟩
    · simp
    · rw [List.length_take, even.phase, size]
      omega

theorem Alike.process {a b : OdfCsd K} (h : Alike a b) (magnitudes phases : List K) :
    (a.process magnitudes phases).2 = (b.process magnitudes phases).2 ∧
      Alike (a.process magnitudes phases).1 (b.process magnitudes phases).1 := by
  rcases h with rfl | ⟨ha, hb⟩
  · exact ⟨rfl, .inl rfl⟩
  · unfold OdfCsd.process
    dsimp only
    by_cases empty : min magnitudes.length phases.length = 0
    · rw [if_pos empty, if_pos empty]
      exact ⟨rfl, .inr ⟨ha, hb⟩⟩
    · rw [if_neg empty, if_neg empty, ha.ensureSize, hb.ensureSize]
      exact ⟨rfl, .inl rfl⟩

omit [LinearOrder K] [Cmath K] in
theorem Alike.reset {a b : OdfCsd K} (h : Alike a b) : Alike a.reset b.reset := by
  rcases h with rfl | ⟨ha, hb⟩
  · exact .inl rfl
  · exact .inr ⟨ha.even.fresh_reset, hb.even.fresh_reset⟩

end OdfCsd

/-! ### BeatStage and LoudnessStage -/

namespace BeatStage

/-- Only the onset detector may differ. -/
structure Alike (a b : BeatStage K) : Prop where
  csd : a.csd.Alike b.csd
  rest : { a with csd := b.csd } = b

omit [LinearOrder K] in
theorem Alike.reset {a b : BeatStage K} (h : Alike a b) : Alike a.reset b.reset :=
  ⟨h.csd.reset, rfl⟩

omit [LinearOrder K] in
theorem alike_reset {a b : BeatStage K} (ha : a.csd.Even) (hb : b.csd.Even) :
    Alike a.reset b.reset :=
  ⟨.inr ⟨ha.fresh_reset, hb.fresh_reset⟩, rfl⟩

variable [Cmath K]

theorem onset_alike {a b : OdfCsd K} (h : a.Alike b) (frame : AnalysisFrame K) :
    (onset a frame).2 = (onset b frame).2 ∧ (onset a frame).1.Alike (onset b frame).1 := by
  unfold onset
  split
  · exact h.process _ _
  · exact ⟨rfl, h⟩

theorem onset_even {a : OdfCsd K} (h : a.Even) (frame : AnalysisFrame K) :
    (onset a frame).1.Even := by
  unfold onset
  split
  · exact h.process _ _
  · exact h

variable [FloorRing K] [KissFft K]

theorem Alike.process {a b : BeatStage K} (h : Alike a b) (frame : AnalysisFrame K)
    (cfg : Settings K) :
    (a.process frame cfg).2 = (b.process frame cfg).2 ∧
      Alike (a.process frame cfg).1 (b.process frame cfg).1 := by
  obtain ⟨csd, rest⟩ := h
  obtain ⟨value, state⟩ := onset_alike csd frame
  rw [← rest]
  unfold BeatStage.process
  dsimp only
  rw [value]
  exact ⟨rfl, state, rfl⟩

end BeatStage

namespace LoudnessStage

/-- An unconfigured stage computes everything anew before its first use. -/
def Alike (a b : LoudnessStage K) : Prop := a = b ∨ a.configuredFor = 0 ∧ b.configuredFor = 0

omit [LinearOrder K] in
theorem alike_reset (a b : LoudnessStage K) : Alike a.reset b.reset := .inr ⟨rfl, rfl⟩

variable [Cmath K] [FloorRing K]

theorem configure_blank {a b : LoudnessStage K} (ha : a.configuredFor = 0)
    (hb : b.configuredFor = 0) {sampleRate : ℕ} (rate : sampleRate ≠ 0) (channels : ℕ)
    (windowMs : K) :
    a.configure sampleRate channels windowMs = b.configure sampleRate channels windowMs := by
  unfold configure
  rw [ha, hb, if_neg fun h => rate h.1, if_neg fun h => rate h.1]

theorem Alike.process {a b : LoudnessStage K} (h : Alike a b) (frame : AnalysisFrame K)
    (cfg : Settings K) :
    (a.process frame cfg).2 = (b.process frame cfg).2 ∧
      Alike (a.process frame cfg).1 (b.process frame cfg).1 := by
  rcases h with rfl | ⟨ha, hb⟩
  · exact ⟨rfl, .inl rfl⟩
  · unfold LoudnessStage.process
    dsimp only
    by_cases empty : frame.format.sampleRate = 0 ∨ frame.format.channels = 0 ∨ frame.samples = []
    · rw [if_pos empty, if_pos empty]
      exact ⟨rfl, .inr ⟨ha, hb⟩⟩
    · rw [if_neg empty, if_neg empty, configure_blank ha hb (fun h => empty (.inl h))]
      exact ⟨rfl, .inl rfl⟩

end LoudnessStage

/-! ### Stages -/

namespace IDspStage

/-- The same kind of stage, in any two states. -/
inductive Kin : IDspStage K → IDspStage K → Prop
  | volume (a b) : Kin (volume a) (volume b)
  | fft (a b) : Kin (fft a) (fft b)
  | bands (a b) : Kin (bands a) (bands b)
  | logBoost : Kin logBoost logBoost
  | equalizer : Kin equalizer equalizer
  | bandNorm (a b) : Kin (bandNorm a) (bandNorm b)
  | spectralCentroid : Kin spectralCentroid spectralCentroid
  | flux (a b) : Kin (flux a) (flux b)
  | beat (a b) : Kin (beat a) (beat b)
  | chronotensity (a b) : Kin (chronotensity a) (chronotensity b)
  | pan (a b) : Kin (pan a) (pan b)
  | directional (a b) : Kin (directional a) (directional b)
  | loudness (a b) : Kin (loudness a) (loudness b)

omit [Field K] [LinearOrder K] in
theorem Kin.refl (a : IDspStage K) : Kin a a := by cases a <;> constructor

omit [Field K] [LinearOrder K] in
theorem Kin.symm {a b : IDspStage K} (h : Kin a b) : Kin b a := by cases h <;> constructor

omit [Field K] [LinearOrder K] in
theorem Kin.trans {a b c : IDspStage K} (h : Kin a b) (h' : Kin b c) : Kin a c := by
  cases h <;> cases h' <;> constructor

omit [Field K] [LinearOrder K] in
theorem Kin.reads_eq {a b : IDspStage K} (h : Kin a b) : a.reads = b.reads := by cases h <;> rfl

omit [Field K] [LinearOrder K] in
theorem Kin.writes_eq {a b : IDspStage K} (h : Kin a b) : a.writes = b.writes := by
  cases h <;> rfl

/-- `prev_dir8_` of a DirectionalStage. -/
def direction : IDspStage K → Option (Fin 8 → K)
  | directional st => some st.prevDir8
  | _ => none

section

variable [Cmath K] [KissFft K]

/-- What the members of the stages promise each other. -/
def Sound : IDspStage K → Prop
  | fft st => st.Planned
  | beat st => st.csd.Even
  | _ => True

/-- No sequence of frames tells the two apart. -/
inductive Alike : IDspStage K → IDspStage K → Prop
  | volume (st) : Alike (volume st) (volume st)
  | fft {a b} (ha : a.Planned) (hb : b.Planned) : Alike (fft a) (fft b)
  | bands (st) : Alike (bands st) (bands st)
  | logBoost : Alike logBoost logBoost
  | equalizer : Alike equalizer equalizer
  | bandNorm (st) : Alike (bandNorm st) (bandNorm st)
  | spectralCentroid : Alike spectralCentroid spectralCentroid
  | flux (st) : Alike (flux st) (flux st)
  | beat {a b} (h : a.Alike b) : Alike (beat a) (beat b)
  | chronotensity (st) : Alike (chronotensity st) (chronotensity st)
  | pan (st) : Alike (pan st) (pan st)
  | directional (st) : Alike (directional st) (directional st)
  | loudness {a b} (h : a.Alike b) : Alike (loudness a) (loudness b)

omit [LinearOrder K] in
theorem Kin.alike_reset {a b : IDspStage K} (h : Kin a b) (sa : a.Sound) (sb : b.Sound)
    (same : a.direction = b.direction) : Alike a.reset b.reset := by
  cases h with
  | volume a b => exact .volume _
  | fft a b => exact .fft ⟨sa.allocated, sa.hann⟩ ⟨sb.allocated, sb.hann⟩
  | bands a b => exact .bands _
  | logBoost => exact .logBoost
  | equalizer => exact .equalizer
  | bandNorm a b => exact .bandNorm _
  | spectralCentroid => exact .spectralCentroid
  | flux a b => exact .flux _
  | beat a b => exact .beat (BeatStage.alike_reset sa sb)
  | chronotensity a b => exact .chronotensity _
  | pan a b => exact .pan _
  | directional a b =>
    obtain ⟨prev⟩ := a
    obtain rfl := Option.some.inj same
    exact .directional _
  | loudness a b => exact .loudness (LoudnessStage.alike_reset a b)

omit [LinearOrder K] in
theorem Alike.reset {a b : IDspStage K} (h : Alike a b) : Alike a.reset b.reset := by
  cases h with
  | fft ha hb => exact .fft ⟨ha.allocated, ha.hann⟩ ⟨hb.allocated, hb.hann⟩
  | beat h => exact .beat h.reset
  | @loudness a b h => exact .loudness (LoudnessStage.alike_reset a b)
  | _ => constructor

omit [LinearOrder K] in
theorem sound_reset {a : IDspStage K} (h : a.Sound) : a.reset.Sound := by
  cases a with
  | fft st => exact ⟨h.allocated, h.hann⟩
  | beat st => exact (OdfCsd.Even.fresh_reset h).even
  | _ => trivial

omit [LinearOrder K] [Cmath K] [KissFft K] in
theorem kin_reset (a : IDspStage K) : Kin a.reset a := by cases a <;> constructor

variable [FloorRing K]

theorem kin_process (a : IDspStage K) (frame : AnalysisFrame K) (cfg : Settings K) :
    Kin (a.process frame cfg).1 a := by cases a <;> constructor

theorem sound_process {a : IDspStage K} (h : a.Sound) (frame : AnalysisFrame K)
    (cfg : Settings K) : (a.process frame cfg).1.Sound := by
  cases a with
  | fft st => exact FftStage.planned_process h frame cfg
  | beat st => exact BeatStage.onset_even h frame
  | _ => trivial

theorem Alike.process {a b : IDspStage K} (h : Alike a b) (frame : AnalysisFrame K)
    (cfg : Settings K) :
    (a.process frame cfg).2 = (b.process frame cfg).2 ∧
      Alike (a.process frame cfg).1 (b.process frame cfg).1 := by
  cases h with
  | fft ha hb =>
    exact ⟨FftStage.process_planned_eq ha hb frame cfg,
      .fft (FftStage.planned_process ha frame cfg) (FftStage.planned_process hb frame cfg)⟩
  | beat h =>
    obtain ⟨out, state⟩ := h.process frame cfg
    exact ⟨out, .beat state⟩
  | loudness h =>
    obtain ⟨out, state⟩ := h.process frame cfg
    exact ⟨out, .loudness state⟩
  | _ => exact ⟨rfl, by constructor⟩

end

end IDspStage

/-! ### Pipelines -/

namespace Pipeline

/-- `prev_dir8_` of every DirectionalStage. -/
def directions (p : Pipeline K) : List (Fin 8 → K) := p.stages.filterMap IDspStage.direction

variable [Cmath K] [KissFft K]

/-- The pipeline of `compose_pipeline` in some state. -/
structure Composed (p : Pipeline K) : Prop where
  kin : List.Forall₂ IDspStage.Kin p.stages composePipeline.stages
  sound : ∀ a ∈ p.stages, a.Sound

def Alike (p q : Pipeline K) : Prop := List.Forall₂ IDspStage.Alike p.stages q.stages

omit [LinearOrder K] in
theorem composed_initial : Composed (composePipeline : Pipeline K) where
  kin := List.forall₂_same.mpr fun a _ => .refl a
  sound := by
    intro a ha
    rw [ComposedStages.composePipeline_stages] at ha
    simp only [ComposedStages.stages, List.mem_cons, List.not_mem_nil, or_false] at ha
    rcases ha with rfl | rfl | rfl | rfl | rfl | rfl | rfl | rfl | rfl | rfl | rfl | rfl | rfl
    case inr.inl => exact FftStage.planned_initial
    case inr.inr.inr.inr.inr.inr.inr.inr.inl => exact OdfCsd.fresh_initial.even
    all_goals trivial

omit [Field K] [LinearOrder K] [Cmath K] [KissFft K] in
theorem exists_stages_of_kin {as : List (IDspStage K)} {c : ComposedStages K}
    (kin : List.Forall₂ IDspStage.Kin as c.stages) : ∃ d : ComposedStages K, as = d.stages := by
  obtain _ | ⟨⟨⟩, kin⟩ := kin
  obtain _ | ⟨⟨⟩, kin⟩ := kin
  obtain _ | ⟨⟨⟩, kin⟩ := kin
  obtain _ | ⟨⟨⟩, kin⟩ := kin
  obtain _ | ⟨⟨⟩, kin⟩ := kin
  obtain _ | ⟨⟨⟩, kin⟩ := kin
  obtain _ | ⟨⟨⟩, kin⟩ := kin
  obtain _ | ⟨⟨⟩, kin⟩ := kin
  obtain _ | ⟨⟨⟩, kin⟩ := kin
  obtain _ | ⟨⟨⟩, kin⟩ := kin
  obtain _ | ⟨⟨⟩, kin⟩ := kin
  obtain _ | ⟨⟨⟩, kin⟩ := kin
  obtain _ | ⟨⟨⟩, kin⟩ := kin
  cases kin
  exact ⟨⟨_, _, _, _, _, _, _, _, _, _⟩, rfl⟩

omit [LinearOrder K] in
theorem Composed.exists_stages {p : Pipeline K} (h : p.Composed) :
    ∃ c : ComposedStages K, p.stages = c.stages ∧ c.fft.Planned ∧ c.beat.csd.Even := by
  obtain ⟨kin, sound⟩ := h
  rw [ComposedStages.composePipeline_stages] at kin
  obtain ⟨c, shape⟩ := exists_stages_of_kin kin
  rw [shape] at sound
  exact ⟨c, shape, sound (.fft c.fft) (by simp [ComposedStages.stages]),
    sound (.beat c.beat) (by simp [ComposedStages.stages])⟩

omit [LinearOrder K] in
theorem Composed.reset {p : Pipeline K} (h : p.Composed) : p.reset.Composed where
  kin := by
    rw [Pipeline.reset, List.forall₂_map_left_iff]
    exact h.kin.imp fun a b kin => a.kin_reset.trans kin
  sound := by
    intro a ha
    obtain ⟨b, hb, rfl⟩ := List.mem_map.mp ha
    exact IDspStage.sound_reset (h.sound b hb)

omit [Field K] [LinearOrder K] [Cmath K] [KissFft K] in
private theorem kin_of_common {as bs cs : List (IDspStage K)}
    (ha : List.Forall₂ IDspStage.Kin as cs) (hb : List.Forall₂ IDspStage.Kin bs cs) :
    List.Forall₂ IDspStage.Kin as bs := by
  induction ha generalizing bs with
  | nil =>
    cases hb
    exact .nil
  | cons kin _ ih =>
    cases hb with
    | cons kin' rest => exact .cons (kin.trans kin'.symm) (ih rest)

omit [LinearOrder K] in
private theorem alike_reset_stages {as bs : List (IDspStage K)}
    (kin : List.Forall₂ IDspStage.Kin as bs) (sa : ∀ a ∈ as, a.Sound) (sb : ∀ b ∈ bs, b.Sound)
    (same : as.filterMap IDspStage.direction = bs.filterMap IDspStage.direction) :
    List.Forall₂ IDspStage.Alike (as.map IDspStage.reset) (bs.map IDspStage.reset) := by
  induction kin with
  | nil => exact .nil
  | @cons a b as bs h _ ih =>
    rw [List.forall_mem_cons] at sa sb
    have heads : a.direction = b.direction ∧
        as.filterMap IDspStage.direction = bs.filterMap IDspStage.direction := by
      cases h with
      | directional a b =>
        obtain ⟨first, rest⟩ := List.cons.inj same
        exact ⟨congrArg some first, rest⟩
      | _ => exact ⟨rfl, same⟩
    exact .cons (h.alike_reset sa.1 sb.1 heads.1) (ih sa.2 sb.2 heads.2)

omit [LinearOrder K] in
/-- Two resets of the composed pipeline are alike as soon as the direction buckets agree. -/
theorem Composed.alike_reset {p q : Pipeline K} (hp : p.Composed) (hq : q.Composed)
    (same : p.directions = q.directions) : p.reset.Alike q.reset :=
  alike_reset_stages (kin_of_common hp.kin hq.kin) hp.sound hq.sound same

omit [LinearOrder K] in
theorem Alike.reset {p q : Pipeline K} (h : p.Alike q) : p.reset.Alike q.reset := by
  rw [Alike, Pipeline.reset, Pipeline.reset, List.forall₂_map_left_iff, List.forall₂_map_right_iff]
  exact h.imp fun a b alike => alike.reset

omit [LinearOrder K] [Cmath K] [KissFft K] in
@[simp] theorem directions_reset (p : Pipeline K) : p.reset.directions = p.directions := by
  rw [directions, directions, reset, List.filterMap_map]
  congr 1
  funext a
  cases a <;> rfl

variable [FloorRing K]

theorem runStages_kin (cfg : Settings K) {as cs : List (IDspStage K)}
    (h : List.Forall₂ IDspStage.Kin as cs) (frame : AnalysisFrame K) :
    List.Forall₂ IDspStage.Kin (runStages cfg as frame).1 cs := by
  induction h generalizing frame with
  | nil => exact .nil
  | @cons a c as cs kin _ ih => exact .cons ((a.kin_process frame cfg).trans kin) (ih _)

theorem runStages_sound (cfg : Settings K) {as : List (IDspStage K)}
    (h : ∀ a ∈ as, a.Sound) (frame : AnalysisFrame K) :
    ∀ a ∈ (runStages cfg as frame).1, a.Sound := by
  induction as generalizing frame with
  | nil => exact h
  | cons a as ih =>
    rw [List.forall_mem_cons] at h
    exact List.forall_mem_cons.mpr ⟨IDspStage.sound_process h.1 frame cfg, ih h.2 _⟩

theorem runStages_alike (cfg : Settings K) {as bs : List (IDspStage K)}
    (h : List.Forall₂ IDspStage.Alike as bs) (frame : AnalysisFrame K) :
    (runStages cfg as frame).2 = (runStages cfg bs frame).2 ∧
      List.Forall₂ IDspStage.Alike (runStages cfg as frame).1 (runStages cfg bs frame).1 := by
  induction h generalizing frame with
  | nil => exact ⟨rfl, .nil⟩
  | @cons a b as bs alike _ ih =>
    obtain ⟨out, state⟩ := alike.process frame cfg
    rw [runStages, runStages, out]
    obtain ⟨later, states⟩ := ih (b.process frame cfg).2
    exact ⟨later, .cons state states⟩

theorem Composed.process {p : Pipeline K} (h : p.Composed) (frame : AnalysisFrame K)
    (cfg : Settings K) (clock : Clock) : (p.process frame cfg clock).1.Composed where
  kin := runStages_kin cfg h.kin frame
  sound := runStages_sound cfg h.sound frame

theorem Composed.processUntil {p : Pipeline K} (h : p.Composed) (k : ℕ)
    (frame : AnalysisFrame K) (cfg : Settings K) (clock : Clock) :
    (p.processUntil k frame cfg clock).Composed where
  kin := by
    have front := runStages_kin cfg (List.forall₂_take k h.kin) frame
    rw [← List.take_append_drop k composePipeline.stages]
    exact List.rel_append front (List.forall₂_drop k h.kin)
  sound := by
    intro a ha
    rcases List.mem_append.mp ha with front | back
    · exact runStages_sound cfg (fun b hb => h.sound b (List.mem_of_mem_take hb)) frame a front
    · exact h.sound a (List.mem_of_mem_drop back)

theorem Alike.process {p q : Pipeline K} (h : p.Alike q) (frame : AnalysisFrame K)
    (cfg : Settings K) (clock : Clock) :
    (p.process frame cfg clock).2 = (q.process frame cfg clock).2 ∧
      (p.process frame cfg clock).1.Alike (q.process frame cfg clock).1 :=
  runStages_alike cfg h frame

theorem process_renumber (p : Pipeline K) (frame : AnalysisFrame K) (n : ℕ) (cfg : Settings K)
    (clock : Clock) :
    p.process (frame.renumber n) cfg clock =
      ((p.process frame cfg clock).1, (p.process frame cfg clock).2.renumber n) := by
  rw [process, runStages_renumber]
  rfl

theorem processUntil_renumber (p : Pipeline K) (k : ℕ) (frame : AnalysisFrame K) (n : ℕ)
    (cfg : Settings K) (clock : Clock) :
    p.processUntil k (frame.renumber n) cfg clock = p.processUntil k frame cfg clock := by
  rw [processUntil, runStages_renumber]
  rfl

theorem Alike.processUntil {p q : Pipeline K} (h : p.Alike q) (k : ℕ) (frame : AnalysisFrame K)
    (cfg : Settings K) (clock : Clock) :
    (p.processUntil k frame cfg clock).Alike (q.processUntil k frame cfg clock) :=
  List.rel_append (runStages_alike cfg (List.forall₂_take k h) frame).2 (List.forall₂_drop k h)

end Pipeline

end Listeningway.Dsp
