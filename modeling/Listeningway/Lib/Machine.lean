/- Listeningway/Lib/Machine
   digest: Runs of a labelled machine with outputs, and the induction rules that follow them. -/

import Mathlib.Data.List.Induction
import Mathlib.Data.List.Forall2
import Mathlib.Data.Option.Basic

/-!
A machine is one partial step function. The label carries every outside choice
(which party moves, what it is given), so a run is determined by its labels and
an interleaving is nothing but the order of the labels.
-/

set_option autoImplicit false
set_option relaxedAutoImplicit false

namespace Listeningway.Lib.Machine

variable {σ ι ω : Type*}

/-- A label that is not enabled has no successor; an enabled one emits outputs. -/
abbrev Step (σ ι ω : Type*) := σ → ι → Option (σ × List ω)

/-- Execute the labels in order and collect all outputs in order. -/
def run (step : Step σ ι ω) : σ → List ι → Option (σ × List ω)
  | s, [] => some (s, [])
  | s, a :: as =>
    (step s a).bind fun p => (run step p.1 as).map fun q => (q.1, p.2 ++ q.2)

variable {step : Step σ ι ω}

@[simp] theorem run_nil (s : σ) : run step s [] = some (s, []) := rfl

theorem run_cons_iff {s u : σ} {a : ι} {as : List ι} {os : List ω} :
    run step s (a :: as) = some (u, os) ↔
      ∃ t o₁ o₂, step s a = some (t, o₁) ∧ run step t as = some (u, o₂) ∧ os = o₁ ++ o₂ := by
  constructor
  · intro h
    obtain ⟨⟨t, o₁⟩, hs, h⟩ := Option.bind_eq_some_iff.mp h
    obtain ⟨⟨u', o₂⟩, hr, he⟩ := Option.map_eq_some_iff.mp h
    obtain ⟨rfl, rfl⟩ := Prod.mk.inj he
    exact ⟨t, o₁, o₂, hs, hr, rfl⟩
  · rintro ⟨t, o₁, o₂, hs, hr, rfl⟩
    simp [run, hs, hr]

theorem run_append_iff {s u : σ} {as bs : List ι} {os : List ω} :
    run step s (as ++ bs) = some (u, os) ↔
      ∃ t o₁ o₂, run step s as = some (t, o₁) ∧ run step t bs = some (u, o₂) ∧
        os = o₁ ++ o₂ := by
  induction as generalizing s os with
  | nil => simp
  | cons a as ih =>
    simp only [List.cons_append, run_cons_iff, ih]
    constructor
    · rintro ⟨t, o₁, o₂, hs, ⟨m, p₁, p₂, hm, hb, rfl⟩, rfl⟩
      exact ⟨m, o₁ ++ p₁, p₂, ⟨t, o₁, p₁, hs, hm, rfl⟩, hb, (List.append_assoc _ _ _).symm⟩
    · rintro ⟨m, _, p₂, ⟨t, o₁, p₁, hs, hm, rfl⟩, hb, rfl⟩
      exact ⟨t, o₁, p₁ ++ p₂, hs, ⟨m, p₁, p₂, hm, hb, rfl⟩, List.append_assoc _ _ _⟩

@[simp] theorem run_singleton_iff {s u : σ} {a : ι} {os : List ω} :
    run step s [a] = some (u, os) ↔ step s a = some (u, os) := by
  simp [run_cons_iff]

theorem run_snoc_iff {s u : σ} {as : List ι} {a : ι} {os : List ω} :
    run step s (as ++ [a]) = some (u, os) ↔
      ∃ t o₁ o₂, run step s as = some (t, o₁) ∧ step t a = some (u, o₂) ∧ os = o₁ ++ o₂ := by
  simp only [run_append_iff, run_singleton_iff]

theorem run_history (P : List ι → List ω → σ → Prop) {s₀ : σ} (start : P [] [] s₀)
    (keep : ∀ as os s a t o, P as os s → step s a = some (t, o) → P (as ++ [a]) (os ++ o) t)
    {as : List ι} {os : List ω} {s : σ} (h : run step s₀ as = some (s, os)) : P as os s := by
  induction as using List.reverseRecOn generalizing os s with
  | nil =>
    obtain ⟨rfl, rfl⟩ := Prod.mk.inj (Option.some.inj h)
    exact start
  | append_singleton as a ih =>
    obtain ⟨t, o₁, o₂, hr, hs, rfl⟩ := run_snoc_iff.mp h
    exact keep _ _ _ _ _ _ (ih hr) hs

theorem run_invariant (I : σ → Prop) {s₀ : σ} (start : I s₀)
    (keep : ∀ s a t o, I s → step s a = some (t, o) → I t)
    {as : List ι} {os : List ω} {s : σ} (h : run step s₀ as = some (s, os)) : I s :=
  run_history (fun _ _ s => I s) start (fun _ _ s a t o hi hs => keep s a t o hi hs) h

theorem run_emitted {s₀ u : σ} {as : List ι} {before after : List ω} {e : ω}
    (h : run step s₀ as = some (u, before ++ e :: after)) :
    ∃ as₁ a as₂ s t os₁ o₁ o₂ os₂, as = as₁ ++ a :: as₂ ∧ run step s₀ as₁ = some (s, os₁) ∧
      step s a = some (t, o₁ ++ e :: o₂) ∧ run step t as₂ = some (u, os₂) ∧
      before = os₁ ++ o₁ ∧ after = o₂ ++ os₂ := by
  induction as generalizing s₀ before with
  | nil => simp at h
  | cons a as ih =>
    obtain ⟨t, o, os, hs, hr, hos⟩ := run_cons_iff.mp h
    have later : ∀ front, before = o ++ front → os = front ++ e :: after →
        ∃ as₁ b as₂ s t os₁ o₁ o₂ os₂, a :: as = as₁ ++ b :: as₂ ∧
          run step s₀ as₁ = some (s, os₁) ∧ step s b = some (t, o₁ ++ e :: o₂) ∧
          run step t as₂ = some (u, os₂) ∧ before = os₁ ++ o₁ ∧ after = o₂ ++ os₂ := by
      rintro front rfl rfl
      obtain ⟨as₁, b, as₂, m, m', os₁, o₁, o₂, os₂, rfl, hm, hb, hm', rfl, rfl⟩ := ih hr
      exact ⟨a :: as₁, b, as₂, m, m', o ++ os₁, o₁, o₂, os₂, rfl,
        run_cons_iff.mpr ⟨t, o, os₁, hs, hm, rfl⟩, hb, hm', (List.append_assoc _ _ _).symm, rfl⟩
    rcases List.append_eq_append_iff.mp hos with ⟨rest, ho, hrest⟩ | ⟨front, hfront, hrest⟩
    · cases rest with
      | nil => exact later [] (by simpa using ho.symm) (by simpa using hrest.symm)
      | cons e' rest =>
        obtain ⟨rfl, rfl⟩ := List.cons.inj hrest
        exact ⟨[], a, as, s₀, t, [], before, rest, os, rfl, rfl, by rw [hs, ho], hr, rfl, rfl⟩
    · exact later front hfront hrest

theorem run_related (R : σ → σ → Prop) (O : ω → ω → Prop)
    (keep : ∀ s s' a t o, R s s' → step s a = some (t, o) →
      ∃ t' o', step s' a = some (t', o') ∧ R t t' ∧ List.Forall₂ O o o')
    {as : List ι} {os : List ω} {s s' t : σ} (hR : R s s')
    (h : run step s as = some (t, os)) :
    ∃ t' os', run step s' as = some (t', os') ∧ R t t' ∧ List.Forall₂ O os os' := by
  induction as generalizing s s' os with
  | nil =>
    obtain ⟨rfl, rfl⟩ := Prod.mk.inj (Option.some.inj h)
    exact ⟨s', [], rfl, hR, .nil⟩
  | cons a as ih =>
    obtain ⟨m, o₁, o₂, hs, hr, rfl⟩ := run_cons_iff.mp h
    obtain ⟨m', o₁', hs', hm, ho₁⟩ := keep _ _ _ _ _ hR hs
    obtain ⟨t', o₂', hr', ht, ho₂⟩ := ih hm hr
    exact ⟨t', o₁' ++ o₂', run_cons_iff.mpr ⟨m', o₁', o₂', hs', hr', rfl⟩, ht,
      List.rel_append ho₁ ho₂⟩

/-- `P` holds wherever a label is about to be performed along the run. -/
def Along (step : Step σ ι ω) (P : σ → ι → Prop) : σ → List ι → Prop
  | _, [] => True
  | s, a :: as => P s a ∧ ∀ t os, step s a = some (t, os) → Along step P t as

theorem run_simulated {σ' ι' : Type*} {step' : Step σ' ι' ω} (R : σ → σ' → Prop)
    (P : σ → ι → Prop)
    (keep : ∀ s s' a t o, R s s' → P s a → step s a = some (t, o) →
      (o = [] ∧ R t s') ∨ ∃ a' t', step' s' a' = some (t', o) ∧ R t t')
    {as : List ι} {os : List ω} {s t : σ} {s' : σ'} (hR : R s s') (along : Along step P s as)
    (h : run step s as = some (t, os)) :
    ∃ as' t', run step' s' as' = some (t', os) ∧ R t t' := by
  induction as generalizing s s' os with
  | nil =>
    obtain ⟨rfl, rfl⟩ := Prod.mk.inj (Option.some.inj h)
    exact ⟨[], s', rfl, hR⟩
  | cons a as ih =>
    obtain ⟨m, o₁, o₂, hs, hr, rfl⟩ := run_cons_iff.mp h
    rcases keep _ _ _ _ _ hR along.1 hs with ⟨rfl, hm⟩ | ⟨a', m', hs', hm⟩
    · exact ih hm (along.2 _ _ hs) hr
    · obtain ⟨as', t', hr', ht⟩ := ih hm (along.2 _ _ hs) hr
      exact ⟨a' :: as', t', run_cons_iff.mpr ⟨m', o₁, o₂, hs', hr', rfl⟩, ht⟩

theorem along_of_forall {P : σ → ι → Prop} {as : List ι} (always : ∀ a ∈ as, ∀ s, P s a) (s : σ) :
    Along step P s as := by
  induction as generalizing s with
  | nil => trivial
  | cons a as ih =>
    obtain ⟨now, later⟩ := List.forall_mem_cons.mp always
    exact ⟨now s, fun t _ _ => ih later t⟩

/-- Two properties of labels that agree where an invariant holds agree along the run, if the
first of them is enough to keep the invariant. -/
theorem along_iff_along {P Q : σ → ι → Prop} (I : σ → Prop)
    (same : ∀ s a, I s → (P s a ↔ Q s a))
    (keep : ∀ s a t os, I s → P s a → step s a = some (t, os) → I t)
    {s : σ} (start : I s) (as : List ι) : Along step P s as ↔ Along step Q s as := by
  induction as generalizing s with
  | nil => exact Iff.rfl
  | cons a as ih =>
    unfold Along
    rw [← same s a start]
    refine and_congr_right fun here => ?_
    refine forall₃_congr fun t os moved => ?_
    exact ih (keep s a t os start here moved)

end Listeningway.Lib.Machine
