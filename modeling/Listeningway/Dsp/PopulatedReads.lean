/- Listeningway/Dsp/PopulatedReads
   source: src/audio/dsp/pipeline.cpp; src/audio/dsp/i_dsp_stage.h;
     docs/adr/0002-pipeline-architecture.md
   digest: When the stages of a validated pipeline find every field they declare to read. -/

import Listeningway.Config.Store
import Listeningway.Dsp.BandPath

/-!
`Pipeline::validate` compares declarations. They are kept by every path through every
stage but two: BandsStage writes no bands without a sample rate, and FftStage no spectrum
without a plan.
-/

set_option autoImplicit false
set_option relaxedAutoImplicit false

namespace Listeningway.Dsp

open Listeningway.Config

variable {K : Type}

/-! ### Populated fields -/

/-- Whether a field has a value. The band vectors start empty and are never written
without a band; what the capture delivers and the fixed arrays are always there. -/
def FieldId.HasValue : (i : FieldId) → i.Carrier K → Prop
  | .samples, _ | .format, _ | .bands16, _ | .bands32, _ => True
  | .rawBands, v | .bands, v => v ≠ []
  | .magnitudes, v | .phases, v => v.isSome
  | .tempoDetected, v | .beatAutoLocked, v => v.isSome
  | .direction8, v => v.isSome
  | .volume, v | .volumeLeft, v | .volumeRight, v | .volumeNorm, v | .volumeAtt, v => v.isSome
  | .bassNorm, v | .midNorm, v | .trebNorm, v | .bassAtt, v | .midAtt, v | .trebAtt, v => v.isSome
  | .spectralCentroid, v | .loudness, v => v.isSome
  | .fluxTotal, v | .fluxLow, v | .fluxMid, v | .fluxHigh, v => v.isSome
  | .beat, v | .beatPhase, v | .tempoBpm, v | .tempoConfidence, v | .beatPulseStrength, v =>
    v.isSome
  | .phaseVolume, v | .phaseBass, v | .phaseTreble, v | .audioPan, v => v.isSome

def AnalysisFrame.Populated (f : AnalysisFrame K) (i : FieldId) : Prop := i.HasValue (f.get i)

/-- The frame as `dsp_thread_main` hands it to the pipeline. -/
def AnalysisFrame.Captured [Zero K] (f : AnalysisFrame K) : Prop :=
  ∃ samples format capturedAt frameIndex, f = ofChunk samples format capturedAt frameIndex

/-- What the writers of a field need besides their own reads: the bands a sample rate, the
spectrum a plan that kissfft can allocate. -/
def Fed [KissFft K] (frame : AnalysisFrame K) (cfg : Settings K) : FieldId → Prop
  | .rawBands => frame.format.sampleRate ≠ 0
  | .magnitudes | .phases => KissFft.alloc K (FftStage.usedSize cfg)
  | _ => True

theorem eq_of_starved [KissFft K] {frame : AnalysisFrame K} {cfg : Settings K} {i : FieldId}
    (h : ¬ Fed frame cfg i) : i = .rawBands ∨ i = .magnitudes ∨ i = .phases := by
  cases i with
  | rawBands => exact .inl rfl
  | magnitudes => exact .inr (.inl rfl)
  | phases => exact .inr (.inr rfl)
  | _ => exact absurd trivial h

namespace FluxStage

variable [Field K] [LinearOrder K] [Cmath K]

theorem process_setFlux (st : FluxStage K) (frame : AnalysisFrame K) (cfg : Settings K) :
    ∃ total low mid high, (st.process frame cfg).2 = setFlux frame total low mid high := by
  unfold process
  split
  · exact ⟨_, _, _, _, rfl⟩
  · split_ifs <;> exact ⟨_, _, _, _, rfl⟩

end FluxStage

namespace IDspStage

variable [Field K] [LinearOrder K]

/-- A stage as its constructor leaves it. -/
inductive Fresh : IDspStage K → Prop
  | volume : Fresh (volume VolumeStage.initial)
  | fft : Fresh (fft FftStage.initial)
  | bands : Fresh (bands BandsStage.initial)
  | logBoost : Fresh logBoost
  | equalizer : Fresh equalizer
  | bandNorm : Fresh (bandNorm BandNormStage.initial)
  | spectralCentroid : Fresh spectralCentroid
  | flux : Fresh (flux FluxStage.initial)
  | beat : Fresh (beat BeatStage.initial)
  | chronotensity : Fresh (chronotensity ChronotensityStage.initial)
  | pan : Fresh (pan PanStage.initial)
  | directional : Fresh (directional DirectionalStage.initial)
  | loudness : Fresh (loudness LoudnessStage.initial)

variable [Cmath K] [KissFft K]

omit [LinearOrder K] in
theorem Fresh.sound {a : IDspStage K} (h : a.Fresh) : a.Sound := by
  cases h with
  | fft => exact FftStage.planned_initial
  | beat => exact OdfCsd.fresh_initial.even
  | _ => trivial

variable [FloorRing K] {frame : AnalysisFrame K} {cfg : Settings K}

/-- A spectrum, where there is one, has bins. -/
def Spectral (frame : AnalysisFrame K) : Prop := ∀ mags, frame.magnitudes = some mags → mags ≠ []

theorem spectral_process (stage : IDspStage K) (h : Spectral frame) :
    Spectral (stage.process frame cfg).2 := by
  intro mags found
  by_cases wrote : FieldId.magnitudes ∈ stage.writes
  · cases stage with
    | fft st =>
      have size : (max 64 cfg.frequency.fftSize).toNat ≠ 0 := by omega
      have shown := FftStage.process_magnitudes st frame cfg
      rw [show (st.process frame cfg).2.magnitudes = some mags from found] at shown
      split_ifs at shown
      · rw [Option.some.inj shown, ne_eq, List.ofFn_eq_nil_iff, FftStage.configure_fftSize _ size]
        omega
      · exact h mags shown.symm
    | _ => exact absurd wrote (of_decide_eq_false rfl)
  · have kept : (stage.process frame cfg).2.magnitudes = frame.magnitudes :=
      (stage.touches frame cfg).get .magnitudes wrote
    exact h mags (kept.symm.trans found)

omit [KissFft K] in
theorem rawBands_ne_nil [IsStrictOrderedRing K] (st : BandsStage K) {mags : List K}
    (found : frame.magnitudes = some mags) (some : mags ≠ [])
    (rate : frame.format.sampleRate ≠ 0) : (st.process frame cfg).2.rawBands ≠ [] := by
  have bins : mags.length ≠ 0 := mt List.length_eq_zero_iff.mp some
  have positive : ¬ (frame.format.sampleRate : K) ≤ 0 :=
    not_le.mpr (Nat.cast_pos.mpr (Nat.pos_of_ne_zero rate))
  have count := BandsStage.bandCount_pos cfg
  rw [BandsStage.process, found]
  dsimp only
  rw [if_neg bins, if_neg positive]
  intro none
  have length := congrArg List.length none
  rw [BandsStage.rawBands, List.length_map, List.length_range, List.length_nil] at length
  omega

theorem process_populates [IsStrictOrderedRing K] {stage : IDspStage K} (sound : stage.Sound)
    (spectral : Spectral frame) (reads : ∀ i ∈ stage.reads, frame.Populated i) {i : FieldId}
    (hi : i ∈ stage.writes) (fed : Fed frame cfg i) :
    (stage.process frame cfg).2.Populated i := by
  cases stage with
  | volume st =>
    simp only [writes, VolumeStage.writes, List.mem_cons, List.not_mem_nil, or_false] at hi
    dsimp only [process, VolumeStage.process]
    rcases hi with rfl | rfl | rfl | rfl | rfl <;> split_ifs <;> rfl
  | fft st =>
    have plan := FftStage.configure_allocated sound cfg
    simp only [writes, FftStage.writes, List.mem_cons, List.not_mem_nil, or_false] at hi
    dsimp only [process, FftStage.process]
    rcases hi with rfl | rfl <;> rw [if_pos (plan.trans fed)] <;> rfl
  | bands st =>
    obtain ⟨mags, found⟩ := Option.isSome_iff_exists.mp (reads .magnitudes (List.mem_cons_self))
    simp only [writes, BandsStage.writes, List.mem_cons, List.not_mem_nil, or_false] at hi
    rcases hi with rfl | rfl | rfl
    · exact rawBands_ne_nil st found (spectral mags found) fed
    · trivial
    · trivial
  | logBoost =>
    obtain rfl := List.mem_singleton.mp hi
    have bands : frame.rawBands ≠ [] := reads .rawBands (List.mem_singleton_self _)
    change (LogBoostStage.process frame cfg).rawBands ≠ []
    rw [LogBoostStage.process_rawBands]
    exact mt List.mapIdx_eq_nil_iff.mp bands
  | equalizer =>
    obtain rfl := List.mem_singleton.mp hi
    have bands : frame.rawBands ≠ [] := reads .rawBands (List.mem_singleton_self _)
    exact mt List.mapIdx_eq_nil_iff.mp bands
  | bandNorm st =>
    have bands : frame.bands ≠ [] := reads .bands List.mem_cons_self
    simp only [writes, BandNormStage.writes, List.mem_cons, List.not_mem_nil, or_false] at hi
    dsimp only [process, BandNormStage.process]
    rw [if_neg bands]
    rcases hi with rfl | rfl | rfl | rfl | rfl | rfl <;> rfl
  | spectralCentroid =>
    obtain rfl := List.mem_singleton.mp hi
    dsimp only [process, SpectralCentroidStage.process]
    split
    · rfl
    · split_ifs <;> rfl
  | flux st =>
    simp only [writes, FluxStage.writes, List.mem_cons, List.not_mem_nil, or_false] at hi
    obtain ⟨total, low, mid, high, out⟩ := FluxStage.process_setFlux st frame cfg
    dsimp only [process]
    rw [out]
    rcases hi with rfl | rfl | rfl | rfl <;> rfl
  | beat st =>
    simp only [writes, BeatStage.writes, List.mem_cons, List.not_mem_nil, or_false] at hi
    rcases hi with rfl | rfl | rfl | rfl | rfl | rfl | rfl <;> rfl
  | chronotensity st =>
    simp only [writes, ChronotensityStage.writes, List.mem_cons, List.not_mem_nil, or_false] at hi
    rcases hi with rfl | rfl | rfl <;> rfl
  | pan st =>
    obtain rfl := List.mem_singleton.mp hi
    dsimp only [process, PanStage.process]
    split_ifs <;> rfl
  | directional st =>
    obtain rfl := List.mem_singleton.mp hi
    dsimp only [process, DirectionalStage.process]
    split_ifs <;> rfl
  | loudness st =>
    obtain rfl := List.mem_singleton.mp hi
    dsimp only [process, LoudnessStage.process]
    split_ifs <;> rfl

theorem process_starves {stage : IDspStage K} (sound : stage.Sound)
    {i : FieldId} (starved : ¬ Fed frame cfg i) (empty : ¬ frame.Populated i) :
    ¬ (stage.process frame cfg).2.Populated i := by
  by_cases written : i ∈ stage.writes
  · cases stage with
    | fft st =>
      have noPlan : (st.configure (max 64 cfg.frequency.fftSize).toNat).allocated ≠ true := by
        rw [FftStage.configure_allocated sound]
        simp only [writes, FftStage.writes, List.mem_cons, List.not_mem_nil, or_false] at written
        rcases written with rfl | rfl <;> exact starved
      dsimp only [process, FftStage.process]
      rw [if_neg noPlan]
      exact empty
    | bands st =>
      simp only [writes, BandsStage.writes, List.mem_cons, List.not_mem_nil, or_false] at written
      rcases written with rfl | rfl | rfl
      · have rate : (frame.format.sampleRate : K) ≤ 0 := by
          rw [not_not.mp starved, Nat.cast_zero]
        dsimp only [process, BandsStage.process]
        split
        · exact empty
        · rw [if_pos rate, ite_self]
          exact empty
      · exact absurd trivial starved
      · exact absurd trivial starved
    | logBoost =>
      obtain rfl := List.mem_singleton.mp written
      have none : frame.rawBands = [] := not_not.mp empty
      change ¬ (LogBoostStage.process frame cfg).rawBands ≠ []
      rw [LogBoostStage.process_rawBands, none]
      exact fun some => some rfl
    | _ =>
      rcases eq_of_starved starved with rfl | rfl | rfl <;>
        exact absurd written (of_decide_eq_false rfl)
  · have kept := (stage.touches frame cfg).get i written
    rw [AnalysisFrame.Populated, kept]
    exact empty

end IDspStage

/-! ### Validated pipelines -/

namespace Pipeline

/-- Every stage reads only what is available or written before it. -/
def Ordered (available : List FieldId) : List (IDspStage K) → Prop
  | [] => True
  | stage :: rest =>
    (∀ i ∈ stage.reads, i ∈ available) ∧ Ordered (available ++ stage.writes) rest

theorem compositionError_ne_empty (idx : ℕ) (stage : IDspStage K) (f : FieldId) :
    compositionError idx stage f ≠ "" := by
  intro empty
  unfold compositionError at empty
  simp only [String.append_eq_empty_iff] at empty
  exact absurd empty.2 (by decide)

theorem validateFrom_eq_empty_iff (available : List FieldId) (idx : ℕ)
    (stages : List (IDspStage K)) :
    validateFrom available idx stages = "" ↔ Ordered available stages := by
  induction stages generalizing available idx with
  | nil => exact iff_of_true rfl trivial
  | cons stage rest ih =>
    rw [validateFrom, Ordered]
    cases missing : stage.reads.find? fun f => decide (f ∉ available) with
    | none =>
      have all : ∀ i ∈ stage.reads, i ∈ available := by
        simpa using missing
      exact (ih _ _).trans (and_iff_right all).symm
    | some f =>
      refine iff_of_false (compositionError_ne_empty idx stage f) fun all => ?_
      have lacking := List.find?_some missing
      exact of_decide_eq_true lacking (all.1 f (List.mem_of_find?_eq_some missing))

theorem ordered_congr {as bs : List (IDspStage K)} (h : List.Forall₂ IDspStage.Kin as bs)
    (available : List FieldId) : Ordered available as ↔ Ordered available bs := by
  induction h generalizing available with
  | nil => exact Iff.rfl
  | cons kin _ ih => rw [Ordered, Ordered, kin.reads_eq, kin.writes_eq, ih]

theorem Ordered.reads_of_writes {P : FieldId → Prop} {available : List FieldId}
    {stages : List (IDspStage K)} (h : Ordered available stages) (there : ∀ i ∈ available, P i)
    (writes : ∀ a ∈ stages, ∀ i ∈ a.writes, P i) : ∀ a ∈ stages, ∀ i ∈ a.reads, P i := by
  induction stages generalizing available with
  | nil => exact fun a ha => absurd ha List.not_mem_nil
  | cons a rest ih =>
    obtain ⟨now, later⟩ := List.forall_mem_cons.mp writes
    refine List.forall_mem_cons.mpr ⟨fun i hi => there i (h.1 i hi), ih h.2 ?_ later⟩
    exact List.forall_mem_append.mpr ⟨there, now⟩

section Pass

variable [Field K] [LinearOrder K] [FloorRing K] [Cmath K] [KissFft K]

/-- `P` holds of every stage of a pass with the frames before and after it. -/
def AlongPass (P : IDspStage K → AnalysisFrame K → AnalysisFrame K → Prop) (cfg : Settings K) :
    List (IDspStage K) → AnalysisFrame K → Prop
  | [], _ => True
  | stage :: rest, frame =>
    let out := (stage.process frame cfg).2
    P stage frame out ∧ AlongPass P cfg rest out

/-- A stage finds what it reads. -/
def ReadsPopulated (stage : IDspStage K) (before _ : AnalysisFrame K) : Prop :=
  ∀ i ∈ stage.reads, before.Populated i

/-- A stage leaves what it writes. -/
def WritesPopulated (stage : IDspStage K) (_ after : AnalysisFrame K) : Prop :=
  ∀ i ∈ stage.writes, after.Populated i

variable {cfg : Settings K} {stages : List (IDspStage K)} {frame origin : AnalysisFrame K}
  {P Q : IDspStage K → AnalysisFrame K → AnalysisFrame K → Prop}

theorem AlongPass.and (h : AlongPass P cfg stages frame) (h' : AlongPass Q cfg stages frame) :
    AlongPass (fun a f g => P a f g ∧ Q a f g) cfg stages frame := by
  induction stages generalizing frame with
  | nil => trivial
  | cons a rest ih => exact ⟨⟨h.1, h'.1⟩, ih h.2 h'.2⟩

theorem AlongPass.imp (h : AlongPass P cfg stages frame)
    (sub : ∀ a ∈ stages, ∀ f g, P a f g → Q a f g) : AlongPass Q cfg stages frame := by
  induction stages generalizing frame with
  | nil => trivial
  | cons a rest ih =>
    obtain ⟨first, others⟩ := List.forall_mem_cons.mp sub
    exact ⟨first _ _ h.1, ih h.2 others⟩

theorem AlongPass.forall_mem {R : IDspStage K → Prop} (h : AlongPass P cfg stages frame)
    (sub : ∀ a f g, P a f g → R a) : ∀ a ∈ stages, R a := by
  induction stages generalizing frame with
  | nil => exact fun a ha => absurd ha List.not_mem_nil
  | cons a rest ih => exact List.forall_mem_cons.mpr ⟨sub _ _ _ h.1, ih h.2⟩

omit [Field K] [LinearOrder K] [FloorRing K] [Cmath K] in
theorem fed_congr {f g : AnalysisFrame K} (format : f.format = g.format) (i : FieldId) :
    Fed f cfg i ↔ Fed g cfg i := by
  cases i <;> simp only [Fed, format]

theorem process_format (stage : IDspStage K) (frame : AnalysisFrame K) (cfg : Settings K) :
    (stage.process frame cfg).2.format = frame.format := by
  refine (stage.touches frame cfg).get .format ?_
  cases stage <;> exact of_decide_eq_false rfl

theorem along_of_fed [IsStrictOrderedRing K] {available : List FieldId}
    (format : frame.format = origin.format) (sound : ∀ a ∈ stages, a.Sound)
    (ordered : Ordered available stages) (spectral : IDspStage.Spectral frame)
    (there : ∀ i ∈ available, Fed origin cfg i → frame.Populated i)
    (fed : ∀ a ∈ stages, ∀ i ∈ a.reads, Fed origin cfg i) :
    AlongPass (fun a before after => ReadsPopulated a before after ∧
      ∀ i ∈ a.writes, Fed origin cfg i → after.Populated i) cfg stages frame := by
  induction stages generalizing available frame with
  | nil => trivial
  | cons a rest ih =>
    obtain ⟨fedNow, fedLater⟩ := List.forall_mem_cons.mp fed
    obtain ⟨soundNow, soundLater⟩ := List.forall_mem_cons.mp sound
    have reads : ∀ i ∈ a.reads, frame.Populated i := fun i hi =>
      there i (ordered.1 i hi) (fedNow i hi)
    have writes : ∀ i ∈ a.writes, Fed origin cfg i → (a.process frame cfg).2.Populated i :=
      fun i hi now => a.process_populates soundNow spectral reads hi ((fed_congr format i).mpr now)
    refine ⟨⟨reads, writes⟩, ih ((process_format a frame cfg).trans format) soundLater ordered.2
      (a.spectral_process spectral) ?_ fedLater⟩
    intro i hi now
    by_cases written : i ∈ a.writes
    · exact writes i written now
    · have before := there i ((List.mem_append.mp hi).resolve_right written) now
      rw [AnalysisFrame.Populated, (a.touches frame cfg).get i written]
      exact before

theorem along_of_starved (format : frame.format = origin.format)
    (sound : ∀ a ∈ stages, a.Sound)
    (empty : ∀ i, ¬ Fed origin cfg i → ¬ frame.Populated i) :
    AlongPass (fun _ before after => ∀ i, ¬ Fed origin cfg i →
      ¬ before.Populated i ∧ ¬ after.Populated i) cfg stages frame := by
  induction stages generalizing frame with
  | nil => trivial
  | cons a rest ih =>
    obtain ⟨soundNow, soundLater⟩ := List.forall_mem_cons.mp sound
    have after : ∀ i, ¬ Fed origin cfg i → ¬ (a.process frame cfg).2.Populated i := fun i unfed =>
      a.process_starves soundNow (mt (fed_congr format i).mp unfed) (empty i unfed)
    exact ⟨fun i unfed => ⟨empty i unfed, after i unfed⟩,
      ih ((process_format a frame cfg).trans format) soundLater after⟩

omit [LinearOrder K] [FloorRing K] [Cmath K] in
theorem captured_starved (h : frame.Captured) (i : FieldId) (unfed : ¬ Fed frame cfg i) :
    ¬ frame.Populated i := by
  obtain ⟨samples, format, capturedAt, frameIndex, rfl⟩ := h
  rcases eq_of_starved unfed with rfl | rfl | rfl
  · exact fun some => some rfl
  · exact Bool.false_ne_true
  · exact Bool.false_ne_true

variable (cfg) in
theorem along_pass [IsStrictOrderedRing K] (captured : frame.Captured)
    (sound : ∀ a ∈ stages, a.Sound) (ordered : Ordered [.samples, .format] stages) :
    (AlongPass ReadsPopulated cfg stages frame ↔
        ∀ a ∈ stages, ∀ i ∈ a.reads, Fed frame cfg i) ∧
      (AlongPass WritesPopulated cfg stages frame ↔
        ∀ a ∈ stages, ∀ i ∈ a.writes, Fed frame cfg i) := by
  have empty : ∀ i, ¬ Fed frame cfg i → ¬ frame.Populated i := captured_starved captured
  have starved := along_of_starved rfl sound empty
  have spectral : IDspStage.Spectral frame := by
    obtain ⟨samples, format, capturedAt, frameIndex, rfl⟩ := captured
    exact fun mags none => absurd none (Option.some_ne_none mags).symm
  have there : ∀ i ∈ [FieldId.samples, .format], Fed frame cfg i ∧ frame.Populated i := by
    intro i hi
    simp only [List.mem_cons, List.not_mem_nil, or_false] at hi
    rcases hi with rfl | rfl <;> exact ⟨trivial, trivial⟩
  have run := along_of_fed rfl sound ordered spectral
    fun i hi (_ : Fed frame cfg i) => (there i hi).2
  constructor
  · constructor
    · intro h
      refine (h.and starved).forall_mem fun a before after now i hi => ?_
      by_contra unfed
      exact (now.2 i unfed).1 (now.1 i hi)
    · exact fun fed => (run fed).imp fun a _ _ _ now => now.1
  · constructor
    · intro h
      refine (h.and starved).forall_mem fun a before after now i hi => ?_
      by_contra unfed
      exact (now.2 i unfed).2 (now.1 i hi)
    · intro fed
      have reads := ordered.reads_of_writes (fun i hi => (there i hi).1) fed
      exact (run reads).imp fun a ha _ _ now i hi => now.2 i hi (fed a ha i hi)

end Pass

/-! ### Runs -/

/-- A pipeline of the given stages. -/
def ofStages [Zero K] (stages : List (IDspStage K)) : Pipeline K := stages.foldl add empty

theorem ofStages_stages [Zero K] (stages : List (IDspStage K)) :
    (ofStages stages).stages = stages := by
  have built (p : Pipeline K) : (stages.foldl add p).stages = p.stages ++ stages := by
    induction stages generalizing p with
    | nil => exact (List.append_nil _).symm
    | cons a rest ih => rw [List.foldl_cons, ih, add, List.append_assoc, List.singleton_append]
  exact built empty

section Runs

variable [Field K] [LinearOrder K] [FloorRing K] [Cmath K] [KissFft K]

/-- `P` holds along every pass of a run. -/
def AlongRun (P : IDspStage K → AnalysisFrame K → AnalysisFrame K → Prop) (p : Pipeline K) :
    List (PipelineCall K) → Prop
  | [] => True
  | .process frame cfg clock :: calls =>
    AlongPass P cfg p.stages frame ∧ AlongRun P (p.process frame cfg clock).1 calls
  | .reset :: calls => AlongRun P p.reset calls

end Runs

end Pipeline

namespace PipelineCall

variable [Zero K] [KissFft K]

def Captured : PipelineCall K → Prop
  | process frame _ _ => frame.Captured
  | reset => True

/-- The fields are fed in the pass of the call, if it is one. -/
def Feeds (fields : List FieldId) : PipelineCall K → Prop
  | process frame cfg _ => ∀ i ∈ fields, Fed frame cfg i
  | reset => True

end PipelineCall

namespace Pipeline

section Theorem

variable [Field K] [LinearOrder K] [IsStrictOrderedRing K] [FloorRing K] [Cmath K] [KissFft K]

omit [Field K] [LinearOrder K] [IsStrictOrderedRing K] [FloorRing K] [Cmath K] [KissFft K] in
private theorem flatMap_kin {as bs : List (IDspStage K)} (h : List.Forall₂ IDspStage.Kin as bs)
    {fields : IDspStage K → List FieldId}
    (same : ∀ {a b}, IDspStage.Kin a b → fields a = fields b) :
    as.flatMap fields = bs.flatMap fields := by
  induction h with
  | nil => rfl
  | cons kin _ ih => rw [List.flatMap_cons, List.flatMap_cons, same kin, ih]

theorem along_run {as : List (IDspStage K)} (ordered : Ordered [.samples, .format] as)
    {p : Pipeline K} (kin : List.Forall₂ IDspStage.Kin p.stages as)
    (sound : ∀ a ∈ p.stages, a.Sound) {calls : List (PipelineCall K)}
    (captured : ∀ call ∈ calls, call.Captured) :
    (p.AlongRun ReadsPopulated calls ↔
        ∀ call ∈ calls, call.Feeds (as.flatMap IDspStage.reads)) ∧
      (p.AlongRun WritesPopulated calls ↔
        ∀ call ∈ calls, call.Feeds (as.flatMap IDspStage.writes)) := by
  induction calls generalizing p with
  | nil => simp [AlongRun]
  | cons call calls ih =>
    obtain ⟨now, later⟩ := List.forall_mem_cons.mp captured
    rw [List.forall_mem_cons, List.forall_mem_cons]
    cases call with
    | reset =>
      have kin' : List.Forall₂ IDspStage.Kin p.reset.stages as := by
        rw [Pipeline.reset, List.forall₂_map_left_iff]
        exact kin.imp fun a b kin => a.kin_reset.trans kin
      have sound' : ∀ a ∈ p.reset.stages, a.Sound := by
        rw [Pipeline.reset]
        exact List.forall_mem_map.mpr fun a ha => IDspStage.sound_reset (sound a ha)
      obtain ⟨reads, writes⟩ := ih kin' sound' later
      exact ⟨reads.trans (and_iff_right trivial).symm, writes.trans (and_iff_right trivial).symm⟩
    | process frame cfg clock =>
      obtain ⟨reads, writes⟩ := along_pass cfg now sound
        ((ordered_congr kin _).mpr ordered)
      obtain ⟨reads', writes'⟩ := ih (p := (p.process frame cfg clock).1)
        (runStages_kin cfg kin frame) (runStages_sound cfg sound frame) later
      rw [← List.forall_mem_flatMap, flatMap_kin kin fun kin => kin.reads_eq] at reads
      rw [← List.forall_mem_flatMap, flatMap_kin kin fun kin => kin.writes_eq] at writes
      exact ⟨and_congr reads reads', and_congr writes writes'⟩

/-- The stages of a validated pipeline find all they read, and leave all they write, exactly
when every pass has what the fields need: for bands a sample rate, for a spectrum its plan. -/
theorem populated_iff {as : List (IDspStage K)} (fresh : ∀ a ∈ as, a.Fresh)
    (valid : (ofStages as).validate = "") {calls : List (PipelineCall K)}
    (captured : ∀ call ∈ calls, call.Captured) :
    ((ofStages as).AlongRun ReadsPopulated calls ↔
        ∀ call ∈ calls, call.Feeds (as.flatMap IDspStage.reads)) ∧
      ((ofStages as).AlongRun WritesPopulated calls ↔
        ∀ call ∈ calls, call.Feeds (as.flatMap IDspStage.writes)) := by
  rw [validate, validateFrom_eq_empty_iff, ofStages_stages] at valid
  refine along_run valid ?_ ?_ captured
  · rw [ofStages_stages]
    exact List.forall₂_same.mpr fun a _ => .refl a
  · rw [ofStages_stages]
    exact fun a ha => (fresh a ha).sound

end Theorem

private theorem composed_fresh :
    ∀ a ∈ (ComposedStages.initial : ComposedStages ℝ).stages, a.Fresh := by
  intro a ha
  simp only [ComposedStages.stages, List.mem_cons, List.not_mem_nil, or_false] at ha
  rcases ha with rfl | rfl | rfl | rfl | rfl | rfl | rfl | rfl | rfl | rfl | rfl | rfl | rfl <;>
    constructor

private theorem composed_valid :
    (ofStages (ComposedStages.initial : ComposedStages ℝ).stages).validate = "" := rfl

/-- One mono sample at 48 kHz, under the default settings. -/
noncomputable def ratedPass : PipelineCall ℝ :=
  .process (AnalysisFrame.ofChunk [1] ⟨48000, 1, .mono⟩ 0 0) (Settings.defaults ℝ).clampInPlace
    ⟨0, fun _ => 0, fun _ => 0, 0⟩

theorem ratedPass_populated :
    ((ofStages ComposedStages.initial.stages).AlongRun ReadsPopulated [ratedPass] ↔
        ∀ call ∈ [ratedPass], call.Feeds
          ((ComposedStages.initial : ComposedStages ℝ).stages.flatMap IDspStage.reads)) ∧
      ((ofStages ComposedStages.initial.stages).AlongRun WritesPopulated [ratedPass] ↔
        ∀ call ∈ [ratedPass], call.Feeds
          ((ComposedStages.initial : ComposedStages ℝ).stages.flatMap IDspStage.writes)) := by
  refine populated_iff composed_fresh composed_valid fun call hc => ?_
  obtain rfl := List.mem_singleton.mp hc
  exact ⟨_, _, _, _, rfl⟩

/-- Without a sample rate BandsStage returns before it writes, and LogBoostStage is the
first to read the bands that are not there. -/
theorem bands_read_unwritten :
    ¬ ∀ as : List (IDspStage ℝ), (∀ a ∈ as, a.Fresh) → (ofStages as).validate = "" →
      ∀ frame : AnalysisFrame ℝ, frame.Captured → ∀ settings : Settings ℝ,
        AlongPass ReadsPopulated settings.clampInPlace as frame := by
  intro always
  have captured : (AnalysisFrame.ofChunk [1] ⟨0, 1, .mono⟩ 0 0 : AnalysisFrame ℝ).Captured :=
    ⟨_, _, _, _, rfl⟩
  have populated := always _ composed_fresh composed_valid _ captured (Settings.defaults ℝ)
  have ordered := composed_valid
  rw [validate, validateFrom_eq_empty_iff, ofStages_stages] at ordered
  have fed := (along_pass _ captured (fun a ha => (composed_fresh a ha).sound) ordered).1.mp
    populated .logBoost (by simp [ComposedStages.stages]) .rawBands (List.mem_singleton_self _)
  exact fed rfl

end Pipeline

end Listeningway.Dsp
