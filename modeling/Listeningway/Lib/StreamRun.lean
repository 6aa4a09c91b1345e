/- Listeningway/Lib/StreamRun
   digest: Runs of a total step function on an endless input, and how often events fall in them. -/

import Mathlib.Data.Finset.Card
import Mathlib.Order.Interval.Finset.Nat
import Mathlib.Order.Monotone.Basic

/-!
The input is a stream, a finite run is a prefix of one: state `k` depends on the first `k`
inputs only.
-/

set_option autoImplicit false
set_option relaxedAutoImplicit false

namespace Listeningway.Lib.StreamRun

variable {σ τ ι κ : Type*}

/-- The state before input `k`. -/
def stateAt (step : σ → ι → σ) (start : σ) (input : ℕ → ι) : ℕ → σ
  | 0 => start
  | k + 1 => step (stateAt step start input k) (input k)

theorem stateAt_succ (step : σ → ι → σ) (start : σ) (input : ℕ → ι) (k : ℕ) :
    stateAt step start input (k + 1) = step (stateAt step start input k) (input k) := rfl

theorem stateAt_invariant {step : σ → ι → σ} {start : σ} {input : ℕ → ι} (P : σ → Prop)
    (first : P start) (keep : ∀ s i, P s → P (step s i)) (k : ℕ) :
    P (stateAt step start input k) := by
  induction k with
  | zero => exact first
  | succ k ih => exact keep _ _ ih

theorem stateAt_related {step : σ → ι → σ} {step' : τ → κ → τ} {start : σ} {start' : τ}
    {input : ℕ → ι} {input' : ℕ → κ} (R : σ → τ → Prop) (first : R start start') {n : ℕ}
    (keep : ∀ k < n, R (stateAt step start input k) (stateAt step' start' input' k) →
      R (step (stateAt step start input k) (input k))
        (step' (stateAt step' start' input' k) (input' k))) :
    R (stateAt step start input n) (stateAt step' start' input' n) := by
  induction n with
  | zero => exact first
  | succ n ih => exact keep n (Nat.lt_succ_self n) (ih fun k early => keep k (by omega))

theorem stateAt_congr {step : σ → ι → σ} {start : σ} {input input' : ℕ → ι} {n : ℕ}
    (same : ∀ k < n, input k = input' k) :
    stateAt step start input n = stateAt step start input' n :=
  stateAt_related Eq rfl fun k early related => by rw [related, same k early]

/-! ### Events in a window -/

/-- How many of the moments `a` to `a + w - 1` have the property. -/
def countIn (P : ℕ → Prop) [DecidablePred P] (a w : ℕ) : ℕ :=
  ((Finset.Ico a (a + w)).filter P).card

section Events

variable {P : ℕ → Prop} [DecidablePred P] {b : ℕ → ℕ} {c : ℕ}

theorem apart_of_countIn_le (mono : StrictMono b) (begins : c ≤ b 0)
    (events : ∀ k, c ≤ k → (P k ↔ ∃ j, b j = k)) {n w : ℕ}
    (few : ∀ a, c ≤ a → countIn P a w ≤ n) (j : ℕ) : b j + w ≤ b (j + n) := by
  by_contra close
  have inside : (Finset.range (n + 1)).image (fun i => b (j + i)) ⊆
      (Finset.Ico (b j) (b j + w)).filter P := by
    intro k listed
    obtain ⟨i, below, rfl⟩ := Finset.mem_image.mp listed
    have lower : b j ≤ b (j + i) := mono.monotone (Nat.le_add_right j i)
    have upper : b (j + i) ≤ b (j + n) :=
      mono.monotone (Nat.add_le_add_left (Nat.lt_succ_iff.mp (Finset.mem_range.mp below)) j)
    have late : c ≤ b (j + i) := begins.trans (mono.monotone (Nat.zero_le _))
    rw [Finset.mem_filter, Finset.mem_Ico]
    exact ⟨⟨lower, by omega⟩, (events _ late).mpr ⟨j + i, rfl⟩⟩
  have many := Finset.card_le_card inside
  have apart : Function.Injective fun i => b (j + i) := fun i i' same =>
    Nat.add_left_cancel (mono.injective same)
  rw [Finset.card_image_of_injective _ apart, Finset.card_range] at many
  have bound := few (b j) (begins.trans (mono.monotone (Nat.zero_le j)))
  unfold countIn at bound
  omega

theorem countIn_le_of_apart (mono : StrictMono b) (events : ∀ k, c ≤ k → (P k ↔ ∃ j, b j = k))
    {n w : ℕ} (apart : ∀ j, b j + w ≤ b (j + n)) {a : ℕ} (late : c ≤ a) : countIn P a w ≤ n := by
  -- the first event of the window, the `n`-th after it lies outside
  have reached : ∃ j, a ≤ b j := ⟨a, mono.le_apply⟩
  have first := Nat.find_spec reached
  have covered : (Finset.Ico a (a + w)).filter P ⊆
      (Finset.Ico (Nat.find reached) (Nat.find reached + n)).image b := by
    intro k listed
    rw [Finset.mem_filter, Finset.mem_Ico] at listed
    obtain ⟨j, rfl⟩ := (events k (late.trans listed.1.1)).mp listed.2
    have begun : Nat.find reached ≤ j := Nat.find_min' reached listed.1.1
    have far := apart (Nat.find reached)
    have ended : j < Nat.find reached + n := by
      apply mono.lt_iff_lt.mp
      omega
    exact Finset.mem_image_of_mem b (Finset.mem_Ico.mpr ⟨begun, ended⟩)
  have few := (Finset.card_le_card covered).trans Finset.card_image_le
  rw [Nat.card_Ico, Nat.add_sub_cancel_left] at few
  exact few

/-- Events at increasing moments are from `c` on at most `n` to a window exactly when every
event and the `n`-th after it are at least a window apart. -/
theorem countIn_le_iff (mono : StrictMono b) (begins : c ≤ b 0)
    (events : ∀ k, c ≤ k → (P k ↔ ∃ j, b j = k)) (n w : ℕ) :
    (∀ a, c ≤ a → countIn P a w ≤ n) ↔ ∀ j, b j + w ≤ b (j + n) := by
  constructor
  · intro few
    exact apart_of_countIn_le mono begins events few
  · intro apart a late
    exact countIn_le_of_apart mono events apart late

end Events

end Listeningway.Lib.StreamRun
