/- Listeningway/Config/ReadModifyWrite
   source: src/config/store.h; src/overlay/overlay.cpp; src/audio/pipeline/audio_system.cpp
   digest: Two snapshot-edit-publish sequences on one store, and when both edits survive. -/

import Listeningway.Config.Store
import Listeningway.Lib.Machine

set_option autoImplicit false
set_option relaxedAutoImplicit false

namespace Listeningway.Config.ReadModifyWrite

open Listeningway.Lib.Machine
open Listeningway.Config

variable {K : Type} [Field K] [LinearOrder K]

/-- A part of the settings that is edited as one value; clamping acts on it alone. -/
structure SettingsField (K : Type) [Field K] [LinearOrder K] (β : Type) where
  get : Settings K → β
  set : Settings K → β → Settings K
  clampValue : β → β
  get_set : ∀ s v, get (set s v) = v
  get_clamp : ∀ s : Settings K, get s.clampInPlace = clampValue (get s)

namespace SettingsField

/-- Neither field sees an edit of the other. -/
def Disjoint {β γ : Type} (a : SettingsField K β) (b : SettingsField K γ) : Prop :=
  (∀ s v, a.get (b.set s v) = a.get s) ∧ ∀ s v, b.get (a.set s v) = b.get s

def captureSourceCode : SettingsField K String where
  get s := s.audio.captureSourceCode
  set s v := { s with audio := { s.audio with captureSourceCode := v } }
  clampValue v := v
  get_set _ _ := rfl
  get_clamp _ := rfl

def debugLogging : SettingsField K Bool where
  get s := s.debug.debugLogging
  set s v := { s with debug := { s.debug with debugLogging := v } }
  clampValue v := v
  get_set _ _ := rfl
  get_clamp _ := rfl

def amplifierVolume : SettingsField K K where
  get s := s.frequency.amplifierVolume
  set s v := { s with frequency := { s.frequency with amplifierVolume := v } }
  clampValue v := Lib.Clamp.clamp v 1 11.0
  get_set _ _ := rfl
  get_clamp _ := rfl

end SettingsField

/-- An edit of one field to a value in its range. -/
structure Edit (K : Type) [Field K] [LinearOrder K] where
  β : Type
  field : SettingsField K β
  value : β
  inRange : field.clampValue value = value

namespace Edit

def apply (e : Edit K) (s : Settings K) : Settings K := e.field.set s e.value

def InPlace (e : Edit K) (s : Settings K) : Prop := e.field.get s = e.value

end Edit

/-- The two sequences: `mutate`, or the snapshot and the publish of `draw_overlay`. -/
inductive Party where
  | one
  | two
  deriving DecidableEq, Repr

def Party.other : Party → Party
  | .one => .two
  | .two => .one

/-- Where a sequence stands; the local copy is already edited when it is published. -/
inductive Stage (K : Type) where
  | before
  | holding (copy : Settings K)
  | finished

structure State (K : Type) [Field K] [LinearOrder K] where
  store : Store K
  stage : Party → Stage K

inductive Act where
  | snapshot (p : Party)
  | publish (p : Party)
  deriving DecidableEq, Repr

variable [IsStrictOrderedRing K]

def step (edits : Party → Edit K) : Step (State K) Act Unit
  | s, .snapshot p =>
    match s.stage p with
    | .before =>
      some ({ s with stage := Function.update s.stage p (.holding s.store.snapshot) }, [])
    | _ => none
  | s, .publish p =>
    match s.stage p with
    | .holding copy =>
      some ({ store := s.store.publish ((edits p).apply copy)
              stage := Function.update s.stage p .finished }, [])
    | _ => none

def initial (st : Store K) : State K where
  store := st
  stage _ := .before

/-- Both sequences have finished. -/
def Complete (s : State K) : Prop := ∀ p, s.stage p = .finished

/-- One sequence publishes before the other takes its snapshot. -/
def Serial (as : List Act) : Prop :=
  ∃ p, as = [.snapshot p, .publish p, .snapshot p.other, .publish p.other]

/-! ### Every interleaving -/

section Interleavings

variable (edits : Party → Edit K) (st : Store K)

/-- The states that can be reached, with the steps that lead there. -/
inductive Reached : List Act → Settings K → (Party → Stage K) → Prop
  | idle {g} : (∀ p, g p = .before) → Reached [] st.settings g
  | reading (p) {g} : g p = .holding st.settings → g p.other = .before →
      Reached [.snapshot p] st.settings g
  | racing (p) {g} : g p = .holding st.settings → g p.other = .holding st.settings →
      Reached [.snapshot p, .snapshot p.other] st.settings g
  | published (p) {g} {s} : s = ((edits p).apply st.settings).clampInPlace →
      g p = .finished → g p.other = .before → Reached [.snapshot p, .publish p] s g
  | followed (p) {g} {s} : s = ((edits p).apply st.settings).clampInPlace →
      g p = .finished → g p.other = .holding s →
        Reached [.snapshot p, .publish p, .snapshot p.other] s g
  | stale (r p) {g} {s} : s = ((edits p).apply st.settings).clampInPlace →
      g p = .finished → g p.other = .holding st.settings →
        Reached [.snapshot r, .snapshot r.other, .publish p] s g
  | serial (p) {g} {s} :
      s = ((edits p.other).apply ((edits p).apply st.settings).clampInPlace).clampInPlace →
      g p = .finished → g p.other = .finished →
        Reached [.snapshot p, .publish p, .snapshot p.other, .publish p.other] s g
  | overwritten (r p) {g} {s} : s = ((edits p.other).apply st.settings).clampInPlace →
      g p = .finished → g p.other = .finished →
        Reached [.snapshot r, .snapshot r.other, .publish p, .publish p.other] s g

variable {edits st} {s t : State K} {a : Act} {o : List Unit} {p : Party}

theorem Party.eq_or_other (p q : Party) : q = p ∨ q = p.other := by
  cases p <;> cases q <;> simp [Party.other]

@[simp] theorem Party.other_ne (p : Party) : p.other ≠ p := by
  cases p <;> simp [Party.other]

@[simp] theorem Party.other_other (p : Party) : p.other.other = p := by
  cases p <;> rfl

theorem step_snapshot (h : step edits s (.snapshot p) = some (t, o)) :
    s.stage p = .before ∧
      t = { s with stage := Function.update s.stage p (.holding s.store.settings) } := by
  cases hp : s.stage p <;> simp [step, hp] at h
  exact ⟨rfl, h.1.symm⟩

theorem step_publish (h : step edits s (.publish p) = some (t, o)) :
    ∃ copy, s.stage p = .holding copy ∧ t.store.settings = ((edits p).apply copy).clampInPlace ∧
      t.stage = Function.update s.stage p .finished := by
  cases hp : s.stage p <;> simp [step, hp] at h
  obtain ⟨rfl, -⟩ := h
  exact ⟨_, rfl, rfl, rfl⟩

omit [IsStrictOrderedRing K] in
private theorem reached_snapshot {as : List Act} (q : Party)
    (h : Reached edits st as s.store.settings s.stage) (before : s.stage q = .before) :
    Reached edits st (as ++ [.snapshot q]) s.store.settings
      (Function.update s.stage q (.holding s.store.settings)) := by
  generalize hg : s.stage = g at h before ⊢
  generalize hs : s.store.settings = x at h ⊢
  cases h with
  | idle none =>
    refine .reading q ?_ ?_
    · simp
    · simp [none]
  | reading p one two =>
    rcases Party.eq_or_other p q with rfl | rfl
    · simp [one] at before
    · refine .racing p ?_ ?_
      · simpa [(Party.other_ne p).symm] using one
      · simp
  | racing p one two =>
    rcases Party.eq_or_other p q with rfl | rfl
    · simp [one] at before
    · simp [two] at before
  | published p value one two =>
    rcases Party.eq_or_other p q with rfl | rfl
    · simp [one] at before
    · refine .followed p value ?_ ?_
      · simpa [(Party.other_ne p).symm] using one
      · simp
  | followed p value one two
  | stale r p value one two
  | serial p value one two
  | overwritten r p value one two =>
    rcases Party.eq_or_other p q with rfl | rfl
    · simp [one] at before
    · simp [two] at before

omit [IsStrictOrderedRing K] in
private theorem reached_publish {as : List Act} {x : Settings K} {g : Party → Stage K} (q : Party)
    {copy : Settings K} (h : Reached edits st as x g) (holding : g q = .holding copy) :
    Reached edits st (as ++ [.publish q]) ((edits q).apply copy).clampInPlace
      (Function.update g q .finished) := by
  cases h with
  | idle none => simp [none q] at holding
  | reading p one two =>
    rcases Party.eq_or_other p q with rfl | rfl
    · rw [one] at holding
      cases holding
      refine .published q rfl ?_ ?_
      · simp
      · simpa using two
    · simp [two] at holding
  | racing p one two =>
    rcases Party.eq_or_other p q with rfl | rfl
    · rw [one] at holding
      cases holding
      refine .stale q q rfl ?_ ?_
      · simp
      · simpa using two
    · rw [two] at holding
      cases holding
      refine .stale p p.other rfl ?_ ?_
      · simp
      · simpa [(Party.other_ne p).symm] using one
  | published p value one two =>
    rcases Party.eq_or_other p q with rfl | rfl
    · simp [one] at holding
    · simp [two] at holding
  | followed p value one two =>
    rcases Party.eq_or_other p q with rfl | rfl
    · simp [one] at holding
    · rw [two] at holding
      cases holding
      refine .serial p (by rw [value]) ?_ ?_
      · simpa [(Party.other_ne p).symm] using one
      · simp
  | stale r p value one two =>
    rcases Party.eq_or_other p q with rfl | rfl
    · simp [one] at holding
    · rw [two] at holding
      cases holding
      refine .overwritten r p rfl ?_ ?_
      · simpa [(Party.other_ne p).symm] using one
      · simp
  | serial p value one two
  | overwritten r p value one two =>
    rcases Party.eq_or_other p q with rfl | rfl
    · simp [one] at holding
    · simp [two] at holding

theorem reached_run {as : List Act} {os : List Unit}
    (h : run (step edits) (initial st) as = some (s, os)) :
    Reached edits st as s.store.settings s.stage := by
  refine run_history (fun as _ s => Reached edits st as s.store.settings s.stage) ?_ ?_ h
  · exact .idle fun _ => rfl
  · intro as _ s a t o reached hs
    cases a with
    | snapshot q =>
      obtain ⟨before, rfl⟩ := step_snapshot hs
      exact reached_snapshot q reached before
    | publish q =>
      obtain ⟨copy, holding, value, hstage⟩ := step_publish hs
      rw [value, hstage]
      exact reached_publish q reached holding

end Interleavings

/-! ### Which edits survive -/

section Survival

variable {edits : Party → Edit K} {st : Store K} {s : State K}

omit [IsStrictOrderedRing K] in
theorem own_edit_in_place (e : Edit K) (s : Settings K) :
    e.InPlace (e.apply s).clampInPlace := by
  rw [Edit.InPlace, e.field.get_clamp, Edit.apply, e.field.get_set, e.inRange]

omit [IsStrictOrderedRing K] in
theorem other_edit_in_place {p : Party}
    (apart : (edits .one).field.Disjoint (edits .two).field) {x : Settings K}
    (fixed : x.clampInPlace = x) :
    (edits p).InPlace ((edits p.other).apply x).clampInPlace ↔ (edits p).InPlace x := by
  have frame : (edits p).field.get ((edits p.other).apply x) = (edits p).field.get x := by
    cases p
    · exact apart.1 _ _
    · exact apart.2 _ _
  have kept : (edits p).field.clampValue ((edits p).field.get x) = (edits p).field.get x := by
    rw [← (edits p).field.get_clamp, fixed]
  rw [Edit.InPlace, Edit.InPlace, (edits p).field.get_clamp, frame, kept]

/-- Both edits survive exactly when the sequences did not overlap or the edit that
the last publish overwrites was in the settings from the start. -/
theorem both_edits_iff (apart : (edits .one).field.Disjoint (edits .two).field)
    {as : List Act} {os : List Unit} (h : run (step edits) (initial st) as = some (s, os))
    (complete : Complete s) :
    (∀ p, (edits p).InPlace s.store.settings) ↔
      Serial as ∨ ∃ p, as.getLast? = some (.publish p.other) ∧ (edits p).InPlace st.settings := by
  have reached := reached_run h
  generalize s.store.settings = x at reached ⊢
  have done : ∀ p, s.stage p = .finished := complete
  cases reached with
  | idle none =>
    have finished := done .one
    simp [none .one] at finished
  | reading p one two
  | racing p one two =>
    have finished := done p
    simp [one] at finished
  | published p value one two
  | followed p value one two
  | stale r p value one two =>
    have finished := done p.other
    simp [two] at finished
  | serial p value one two =>
    refine iff_of_true ?_ (.inl ⟨p, rfl⟩)
    intro q
    rw [value]
    rcases Party.eq_or_other p q with rfl | rfl
    · exact (other_edit_in_place apart (Settings.clampInPlace_clampInPlace _)).mpr
        (own_edit_in_place _ _)
    · exact own_edit_in_place _ _
  | overwritten r p value one two =>
    have notSerial : ¬ Serial [.snapshot r, .snapshot r.other, .publish p, .publish p.other] := by
      rintro ⟨q, hq⟩
      simp at hq
    have last : ∀ q, some (Act.publish p.other) = some (.publish q.other) → q = p := by
      intro q hq
      cases p <;> cases q <;> simp_all [Party.other]
    rw [value]
    constructor
    · intro both
      exact .inr ⟨p, rfl, (other_edit_in_place apart st.clamped).mp (both p)⟩
    · rintro (serial | ⟨q, hq, inPlace⟩)
      · exact absurd serial notSerial
      · rw [last q hq] at inPlace
        intro q
        rcases Party.eq_or_other p q with rfl | rfl
        · exact (other_edit_in_place apart st.clamped).mpr inPlace
        · exact own_edit_in_place _ _

end Survival

/-! ### A source switch inside an overlay frame -/

/-- `switch_source("off")` and the debug checkbox of the overlay. -/
def switchAndCheckbox : Party → Edit ℚ
  | .one => ⟨String, .captureSourceCode, "off", rfl⟩
  | .two => ⟨Bool, .debugLogging, true, rfl⟩

theorem switch_checkbox_disjoint :
    (switchAndCheckbox .one).field.Disjoint (switchAndCheckbox .two).field :=
  ⟨fun _ _ => rfl, fun _ _ => rfl⟩

/-- `draw_overlay` calls `switch_source` between its snapshot and its publish. -/
def nested : List Act := [.snapshot .two, .snapshot .one, .publish .one, .publish .two]

theorem nested_switch_lost :
    ¬ ∀ (edits : Party → Edit ℚ) (st : Store ℚ) (as : List Act) (s : State ℚ) (os : List Unit),
      (edits .one).field.Disjoint (edits .two).field →
        run (step edits) (initial st) as = some (s, os) → Complete s →
          ∀ p, (edits p).InPlace s.store.settings := by
  intro always
  have h : ∃ q, run (step switchAndCheckbox) (initial Store.initial) nested = some q ∧
      Complete q.1 ∧ q.1.store.settings.audio.captureSourceCode = "system" := by
    refine ⟨_, rfl, ?_, rfl⟩
    intro p
    cases p <;> rfl
  obtain ⟨⟨s, os⟩, h, complete, reverted⟩ := h
  have kept : s.store.settings.audio.captureSourceCode = "off" :=
    always switchAndCheckbox Store.initial nested s os switch_checkbox_disjoint h complete .one
  rw [reverted] at kept
  revert kept
  decide

theorem switch_then_checkbox :
    ∃ s os, run (step switchAndCheckbox) (initial Store.initial)
        [.snapshot .one, .publish .one, .snapshot .two, .publish .two] = some (s, os) ∧
      s.store.settings.audio.captureSourceCode = "off" ∧
        s.store.settings.debug.debugLogging = true := by
  have h : ∃ q, run (step switchAndCheckbox) (initial Store.initial)
      [.snapshot .one, .publish .one, .snapshot .two, .publish .two] = some q ∧ Complete q.1 := by
    refine ⟨_, rfl, ?_⟩
    intro p
    cases p <;> rfl
  obtain ⟨⟨s, os⟩, h, complete⟩ := h
  have both := (both_edits_iff switch_checkbox_disjoint h complete).mpr (.inl ⟨.one, rfl⟩)
  exact ⟨s, os, h, both .one, both .two⟩

end Listeningway.Config.ReadModifyWrite
