/- Listeningway/System/SourceFallback
   source: src/audio/pipeline/audio_system.cpp; docs/adr/0009-process-audio-source.md
   digest: Every call completes, and start() ends in Running exactly when its selection works. -/

import Listeningway.System.LifecycleRuns

set_option autoImplicit false
set_option relaxedAutoImplicit false

namespace Listeningway.System.SourceFallback

open Listeningway.Lib.Machine
open Listeningway.Lib.Script
open Listeningway.Source.SourceFormat
open Listeningway.Source.AudioSource
open Listeningway.System.Lifecycle
open Listeningway.System.LifecycleRuns

variable {sources : List Info} {hasStore : Bool} {s t : State} {as : List Act} {os : List Event}

/-! ### A call performs its script -/

/-- The moves that belong to the running call and to the DSP thread. -/
def Act.Inside : Act → Prop
  | .advance => True
  | .dsp _ => True
  | _ => False

def performed (os : List Event) : List Effect :=
  os.filterMap fun
    | .did e => some e
    | .framePublished => none

@[simp] theorem performed_append (os o : List Event) :
    performed (os ++ o) = performed os ++ performed o := by
  simp [performed]

theorem mem_performed {e : Effect} : e ∈ performed os ↔ .did e ∈ os := by
  rw [performed, List.mem_filterMap]
  constructor
  · rintro ⟨x, hx, he⟩
    cases x with
    | did e' =>
      cases he
      exact hx
    | framePublished => cases he
  · exact fun h => ⟨_, h, rfl⟩

theorem run_script (h : run (step sources hasStore) s as = some (t, os))
    (inside : ∀ a ∈ as, Act.Inside a) :
    s.pending = performed os ++ t.pending ∧
      t.guarded = (performed os).foldl Guarded.exec s.guarded := by
  induction as generalizing s os with
  | nil =>
    obtain ⟨rfl, rfl⟩ := Prod.mk.inj (Option.some.inj h)
    exact ⟨rfl, rfl⟩
  | cons a as ih =>
    obtain ⟨m, o₁, o₂, hs, hr, rfl⟩ := run_cons_iff.mp h
    obtain ⟨hp, hg⟩ := ih hr fun b hb => inside b (List.mem_cons_of_mem _ hb)
    have first := inside a List.mem_cons_self
    cases a with
    | advance =>
      obtain ⟨e, es, hpe, rfl, hes, hge, -⟩ := advance_cases hs
      rw [hes] at hp
      exact ⟨by rw [hpe, hp]; rfl, by rw [hg, hge]; rfl⟩
    | dsp k =>
      obtain ⟨hgs, hps, -⟩ := dsp_frame hs
      have silent : performed o₁ = [] := by
        rcases dsp_emits hs with rfl | rfl <;> rfl
      rw [performed_append, silent, List.nil_append, ← hps, ← hgs]
      exact ⟨hp, hg⟩
    | _ => exact first.elim

private theorem threads_drain (sources : List Info) (hasStore : Bool)
    (down : s.guarded.dspRunning = false) (few : s.threads.length ≤ 1) :
    ∃ as t os, run (step sources hasStore) s as = some (t, os) ∧ (∀ a ∈ as, Act.Inside a) ∧
      t.threads = [] ∧ t.pending = s.pending ∧ t.guarded = s.guarded := by
  have at_head : ∀ s : State, s.guarded.dspRunning = false → s.threads = [.head] →
      step sources hasStore s (.dsp 0) = some ({ s with threads := [] }, []) := by
    intro s down ht
    simp [step, dspStep, ht, down]
  cases ht : s.threads with
  | nil => exact ⟨[], s, [], rfl, by simp, ht, rfl, rfl⟩
  | cons d rest =>
    obtain rfl : rest = [] := by
      rw [ht, List.length_cons] at few
      exact List.length_eq_zero_iff.mp (by omega)
    cases d with
    | head =>
      exact ⟨[.dsp 0], _, _, run_singleton_iff.mpr (at_head s down ht), by simp [Act.Inside], rfl,
        rfl, rfl⟩
    | body =>
      have back : step sources hasStore s (.dsp 0) =
          some ({ s with threads := [.head] }, [.framePublished]) := by
        simp [step, dspStep, ht]
      exact ⟨[.dsp 0, .dsp 0], _, _,
        run_cons_iff.mpr ⟨_, _, _, back, run_singleton_iff.mpr (at_head _ down rfl), rfl⟩,
        by simp [Act.Inside], rfl, rfl, rfl⟩
    | enter =>
      cases hst : hasStore with
      | true =>
        have go : step sources true s (.dsp 0) = some ({ s with threads := [.head] }, []) := by
          simp [step, dspStep, ht]
        rw [hst] at at_head
        exact ⟨[.dsp 0, .dsp 0], _, _,
          run_cons_iff.mpr ⟨_, _, _, go, run_singleton_iff.mpr (at_head _ down rfl), rfl⟩,
          by simp [Act.Inside], rfl, rfl, rfl⟩
      | false =>
        have go : step sources false s (.dsp 0) = some ({ s with threads := [] }, []) := by
          simp [step, dspStep, ht]
        exact ⟨[.dsp 0], _, _, run_singleton_iff.mpr go, by simp [Act.Inside], rfl, rfl, rfl⟩

private theorem script_completes (sources : List Info) (hasStore : Bool) (es : List Effect) :
    ∀ s : State, s.pending = es → LifecycleRuns.Inv s →
      ∃ as t os, run (step sources hasStore) s as = some (t, os) ∧ (∀ a ∈ as, Act.Inside a) ∧
        t.pending = [] := by
  induction es with
  | nil => exact fun s hp _ => ⟨[], s, [], rfl, by simp, hp⟩
  | cons e es ih =>
    intro s hp inv
    have ready : ∃ as m os, run (step sources hasStore) s as = some (m, os) ∧
        (∀ a ∈ as, Act.Inside a) ∧ m.pending = s.pending ∧ (e = .joinDsp → m.threads = []) := by
      by_cases he : e = .joinDsp
      · have d := inv.disciplined
        rw [hp, he] at d
        have few : s.threads.length ≤ 1 := Nat.le_trans inv.threads (by split <;> omega)
        obtain ⟨as, m, os, hr, hin, gone, hpm, -⟩ :=
          threads_drain sources hasStore d.2.1 few
        exact ⟨as, m, os, hr, hin, hpm, fun _ => gone⟩
      · exact ⟨[], s, [], rfl, by simp, rfl, fun h => absurd h he⟩
    obtain ⟨as, m, os, hr, hin, hpm, gone⟩ := ready
    rw [hp] at hpm
    have next : ∃ t, step sources hasStore m .advance = some (t, [.did e]) ∧ t.pending = es := by
      cases e with
      | joinDsp => exact ⟨{ m with guarded := m.guarded.exec .joinDsp, pending := es },
          by simp [step, advanceStep, hpm, gone rfl], rfl⟩
      | _ => exact ⟨_, by simp only [step, advanceStep, hpm]; rfl, rfl⟩
    obtain ⟨t, hs, hes⟩ := next
    have inv' := keep m .advance t _ (run_invariant LifecycleRuns.Inv inv keep hr) hs
    obtain ⟨bs, u, os', hr', hin', done⟩ := ih t hes inv'
    refine ⟨as ++ .advance :: bs, u, _,
      run_append_iff.mpr ⟨m, _, _, hr, run_cons_iff.mpr ⟨t, _, _, hs, hr', rfl⟩, rfl⟩, ?_, done⟩
    intro a ha
    rcases List.mem_append.mp ha with ha | ha
    · exact hin a ha
    · rcases List.mem_cons.mp ha with rfl | ha
      · trivial
      · exact hin' a ha

theorem call_completes (sources : List Info) (hasStore : Bool) (inv : LifecycleRuns.Inv s) :
    ∃ as t os, run (step sources hasStore) s as = some (t, os) ∧ (∀ a ∈ as, Act.Inside a) ∧
      t.pending = [] :=
  script_completes sources hasStore s.pending s rfl inv

/-! ### The order of the search -/

/-- Source `i` meets `p` and no source registered before it does. -/
def FirstOf (sources : List Info) (p : Info → ℕ → Prop) (i : ℕ) : Prop :=
  (∃ info, sources[i]? = some info ∧ p info i) ∧
    ∀ j < i, ∀ info, sources[j]? = some info → ¬ p info j

/-- The source that start() is to take: the first with the configured code, whether available
or not; without one the first default that is available, and else the first available one. -/
def Chosen (sources : List Info) (code : String) (out : Outcomes) (i : ℕ) : Prop :=
  FirstOf sources (fun info _ => info.code = code) i ∨
    (∀ info ∈ sources, info.code ≠ code) ∧
      (FirstOf sources (fun info j => info.isDefault = true ∧ out.availableDefault j = true) i ∨
        (∀ j info, sources[j]? = some info →
          ¬ (info.isDefault = true ∧ out.availableDefault j = true)) ∧
          FirstOf sources (fun _ j => out.availableAny j = true) i)

theorem firstSource_eq_some_iff {p : Info → ℕ → Bool} {i : ℕ} :
    firstSource sources p = some i ↔ FirstOf sources (fun info j => p info j = true) i := by
  unfold firstSource
  rw [Option.map_eq_some_iff]
  constructor
  · rintro ⟨⟨info, _⟩, found, rfl⟩
    obtain ⟨accepted, k, below, at_k, earlier⟩ := List.find?_eq_some_iff_getElem.mp found
    rw [List.getElem_zipIdx, Prod.mk.injEq, Nat.zero_add] at at_k
    obtain ⟨rfl, rfl⟩ := at_k
    rw [List.length_zipIdx] at below
    refine ⟨⟨_, List.getElem?_eq_getElem below, accepted⟩, fun j before info there => ?_⟩
    obtain ⟨inside, rfl⟩ := List.getElem?_eq_some_iff.mp there
    simpa using earlier j before
  · rintro ⟨⟨info, there, accepted⟩, earlier⟩
    obtain ⟨below, rfl⟩ := List.getElem?_eq_some_iff.mp there
    refine ⟨(sources[i], i), List.find?_eq_some_iff_getElem.mpr ⟨accepted, i, ?_, ?_, ?_⟩, rfl⟩
    · rwa [List.length_zipIdx]
    · rw [List.getElem_zipIdx, Nat.zero_add]
    · intro j before
      have rejected := earlier j before _ (List.getElem?_eq_getElem (Nat.lt_trans before below))
      simpa using rejected

theorem firstSource_eq_none_iff {p : Info → ℕ → Bool} :
    firstSource sources p = none ↔ ∀ j info, sources[j]? = some info → ¬ p info j = true := by
  unfold firstSource
  rw [Option.map_eq_none_iff, List.find?_eq_none]
  constructor
  · intro none j info there
    exact none (info, j) (List.mem_zipIdx_iff_getElem?.mpr there)
  · rintro none ⟨info, j⟩ listed
    exact none j info (List.mem_zipIdx_iff_getElem?.mp listed)

theorem selectSource_eq_some_iff {code : String} {out : Outcomes} {i : ℕ} :
    selectSource sources code out = some i ↔ Chosen sources code out i := by
  have named : (∀ info ∈ sources, info.code ≠ code) ↔ findSource sources code = none := by
    rw [findSource, firstSource_eq_none_iff]
    simp only [beq_iff_eq, List.mem_iff_getElem?]
    exact ⟨fun h j info there => h info ⟨j, there⟩, fun h info ⟨j, there⟩ => h j info there⟩
  have coded {j : ℕ} : FirstOf sources (fun info _ => info.code = code) j ↔
      findSource sources code = some j := by
    rw [findSource, firstSource_eq_some_iff]
    simp only [beq_iff_eq]
  have default (j : ℕ) :
      firstSource sources (fun info i => info.isDefault && out.availableDefault i) = some j ↔
        FirstOf sources
          (fun info i => info.isDefault = true ∧ out.availableDefault i = true) j := by
    simp only [firstSource_eq_some_iff, Bool.and_eq_true]
  have no_default :
      firstSource sources (fun info i => info.isDefault && out.availableDefault i) = none ↔
        ∀ j info, sources[j]? = some info →
          ¬ (info.isDefault = true ∧ out.availableDefault j = true) := by
    simp only [firstSource_eq_none_iff, Bool.and_eq_true]
  rw [Chosen, coded, named, ← default, ← no_default, ← firstSource_eq_some_iff, selectSource]
  cases findSource sources code with
  | some j => simp
  | none =>
    cases firstSource sources fun info i => info.isDefault && out.availableDefault i with
    | some j => simp
    | none => simp

/-! ### start() from Off -/

/-- The chosen source opens and starts. -/
def ChosenWorks (sources : List Info) (code : String) (out : Outcomes) : Prop :=
  ∃ i, Chosen sources code out i ∧ (out.opened i).isSome = true ∧ out.started i = true

theorem start_locked_result (g : Guarded) (code : String) (out : Outcomes) :
    (∀ i, ((startLocked sources code out).foldl Guarded.exec g).current = some i ↔
        Chosen sources code out i) ∧
      (((startLocked sources code out).foldl Guarded.exec g).state = .running ↔
        ChosenWorks sources code out) ∧
      (((startLocked sources code out).foldl Guarded.exec g).state = .error ↔
        ¬ ChosenWorks sources code out) ∧
      ∀ b, .unlock (some b) ∈ startLocked sources code out ↔
        (b = true ↔ ChosenWorks sources code out) := by
  simp only [ChosenWorks, ← selectSource_eq_some_iff]
  cases hs : selectSource sources code out with
  | none => simp [startLocked, hs, Guarded.exec]
  | some c =>
    cases ho : out.opened c <;> cases hok : out.started c <;>
      simp [startLocked, hs, ho, hok, Guarded.exec]

/-- `start()` on a free AudioSystem in state Off always returns. It has then taken the source
that is chosen; it returns true in state Running if this one opens and starts, and false in
state Error otherwise. -/
theorem start_runs_iff {before : List Act} {past : List Event}
    (reached : run (step sources hasStore) Lifecycle.initial before = some (s, past))
    (free : s.pending = []) (off : s.guarded.state = .off) (code : String) (out : Outcomes) :
    (∃ as t os, run (step sources hasStore) s (.start code out :: as) = some (t, os) ∧
      (∀ a ∈ as, Act.Inside a) ∧ t.pending = []) ∧
    ∀ as t os, run (step sources hasStore) s (.start code out :: as) = some (t, os) →
      (∀ a ∈ as, Act.Inside a) → t.pending = [] →
        (∀ i, t.guarded.current = some i ↔ Chosen sources code out i) ∧
        (t.guarded.state = .running ↔ ChosenWorks sources code out) ∧
        (t.guarded.state = .error ↔ ¬ ChosenWorks sources code out) ∧
        ∀ b, .did (.unlock (some b)) ∈ os ↔ (b = true ↔ ChosenWorks sources code out) := by
  have called : step sources hasStore s (.start code out) =
      some ({ s with pending := startLocked sources code out }, []) := by
    simp [step, lockStep, free, start, off]
  have inv := keep s _ _ _ (run_invariant LifecycleRuns.Inv inv_initial keep reached) called
  constructor
  · obtain ⟨as, t, os, hr, inside, done⟩ := call_completes sources hasStore inv
    exact ⟨as, t, _, run_cons_iff.mpr ⟨_, _, _, called, hr, rfl⟩, inside, done⟩
  · intro as t os h inside done
    obtain ⟨m, o₁, o₂, hm, hr, rfl⟩ := run_cons_iff.mp h
    obtain ⟨rfl, rfl⟩ := Prod.mk.inj (Option.some.inj (called.symm.trans hm))
    obtain ⟨hp, hg⟩ := run_script hr inside
    rw [done, List.append_nil] at hp
    have script : startLocked sources code out = performed o₂ := hp
    have left : t.guarded = (performed o₂).foldl Guarded.exec s.guarded := hg
    have result := @start_locked_result sources s.guarded code out
    rw [script, ← left] at result
    simpa only [List.nil_append, mem_performed] using result

/-! ### A configured source that does not open -/

def processAndOff : List Info :=
  [⟨"process", "Game Audio Only (Process Loopback)", false, 1, true⟩, OffSource.info]

/-- Process loopback reports available but fails to open; Off always works. -/
def processFails : Outcomes where
  availableDefault _ := true
  availableAny _ := true
  opened i := if i = 1 then OffSource.opened else none
  started _ := true

theorem configured_source_not_replaced :
    ¬ ∀ (sources : List Info) (code : String) (out : Outcomes),
      (∃ i, i < sources.length ∧ out.availableDefault i = true ∧ out.availableAny i = true ∧
        (out.opened i).isSome = true ∧ out.started i = true) →
      ∀ as t os, run (step sources true) Lifecycle.initial (.start code out :: as) = some (t, os) →
        (∀ a ∈ as, Act.Inside a) → t.pending = [] →
          t.guarded.state = .running ∧ .did (.unlock (some true)) ∈ os := by
  intro always
  have h : ∃ p, run (step processAndOff true) Lifecycle.initial
      (.start "process" processFails :: List.replicate 5 .advance) = some p ∧
        p.1.pending = [] ∧ p.1.guarded.state = .error := ⟨_, rfl, rfl, rfl⟩
  obtain ⟨⟨t, os⟩, h, done, failed⟩ := h
  have inside : ∀ a ∈ List.replicate 5 Act.advance, Act.Inside a := by
    intro a ha
    rw [List.eq_of_mem_replicate ha]
    trivial
  have running := always processAndOff "process" processFails ⟨1, by decide, rfl, rfl, rfl, rfl⟩
    _ t os h inside done
  rw [running.1] at failed
  cases failed

/-- A saved code that no source has any more, and process loopback not available. -/
def processMissing : Outcomes where
  availableDefault _ := true
  availableAny i := i = 1
  opened i := if i = 1 then OffSource.opened else none
  started _ := true

theorem fallback_source_runs :
    ∃ as t os, run (step processAndOff true) Lifecycle.initial
        (.start "system" processMissing :: as) = some (t, os) ∧ t.guarded.current = some 1 ∧
      t.guarded.state = .running ∧ .did (.unlock (some true)) ∈ os := by
  have reached :
      run (step processAndOff true) Lifecycle.initial [] = some (Lifecycle.initial, []) :=
    rfl
  obtain ⟨⟨as, t, os, h, inside, done⟩, result⟩ :=
    start_runs_iff reached rfl rfl "system" processMissing
  have chosen : Chosen processAndOff "system" processMissing 1 := selectSource_eq_some_iff.mp rfl
  have works : ChosenWorks processAndOff "system" processMissing := ⟨1, chosen, rfl, rfl⟩
  obtain ⟨current, running, -, returned⟩ := result as t os h inside done
  exact ⟨as, t, os, h, (current 1).mpr chosen, running.mpr works,
    (returned true).mpr (iff_of_true rfl works)⟩

end Listeningway.System.SourceFallback
