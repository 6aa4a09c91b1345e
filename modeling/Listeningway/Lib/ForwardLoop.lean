/- Listeningway/Lib/ForwardLoop
   digest: A loop that fills a span forwards, each cell from the cells before it. -/

import Listeningway.Lib.SpanWrites
import Mathlib.Data.List.GetD

/-!
The span is longer than what is known of it, so a step could read cells that hold something
else. A step that looks back does not, and then the filled cells satisfy its recurrence and are
the same whatever the span held.
-/

set_option autoImplicit false
set_option relaxedAutoImplicit false

namespace Listeningway.Lib.ForwardLoop

open Listeningway.Lib.SpanWrites

variable {α : Type*}

/-- `out[first + i] = step(out, i)` for `n` values of `i`. -/
def forward (step : List α → ℕ → α) (first : ℕ) (out : List α) (n : ℕ) : List α :=
  (List.range n).foldl (fun out i => out.set (first + i) (step out i)) out

/-- Step `i` reads only cells before the one that it fills. -/
def LooksBack (step : List α → ℕ → α) (first : ℕ) (d : α) : Prop :=
  ∀ xs ys i, first + i ≤ xs.length → first + i ≤ ys.length →
    (∀ j < first + i, xs.getD j d = ys.getD j d) → step xs i = step ys i

section Fill

variable (step : List α → ℕ → α) (first : ℕ) (out : List α)

theorem forward_succ (n : ℕ) :
    forward step first out (n + 1) =
      (forward step first out n).set (first + n) (step (forward step first out n) n) := by
  rw [forward, List.range_succ, List.foldl_append]
  rfl

@[simp] theorem length_forward (n : ℕ) : (forward step first out n).length = out.length := by
  induction n with
  | zero => rfl
  | succ n ih => rw [forward_succ, List.length_set, ih]

theorem getD_forward_succ (d : α) (n j : ℕ) :
    (forward step first out (n + 1)).getD j d =
      if first + n = j ∧ j < out.length then step (forward step first out n) n
      else (forward step first out n).getD j d := by
  rw [forward_succ, List.getD_eq_getElem?_getD, List.getElem?_set, length_forward,
    List.getD_eq_getElem?_getD]
  by_cases here : first + n = j
  · subst here
    by_cases inside : first + n < out.length
    · simp [inside]
    · simp [inside]
  · simp [here]

theorem getD_forward_known (d : α) {m n j : ℕ} (order : m ≤ n) (known : j < first + m) :
    (forward step first out n).getD j d = (forward step first out m).getD j d := by
  induction order with
  | refl => rfl
  | step order ih =>
    have later := Nat.lt_of_lt_of_le known (Nat.add_le_add_left order first)
    rw [getD_forward_succ, if_neg fun here => Nat.ne_of_gt later here.1, ih]

theorem getD_forward_past (d : α) (n : ℕ) {j : ℕ} (past : j < first) :
    (forward step first out n).getD j d = out.getD j d :=
  getD_forward_known step first out d (Nat.zero_le n) past

theorem getD_forward_new (d : α) {n i : ℕ} (filled : i < n) (room : first + i < out.length) :
    (forward step first out n).getD (first + i) d = step (forward step first out i) i := by
  rw [getD_forward_known step first out d filled (by omega), getD_forward_succ,
    if_pos ⟨rfl, room⟩]

theorem foldlM_store_forward {n : ℕ} (room : first + n ≤ out.length) :
    (List.range n).foldlM (fun out i => store out (first + i) (step out i)) out =
      some (forward step first out n) := by
  induction n with
  | zero => rfl
  | succ n ih =>
    have inside : first + n < (forward step first out n).length := by
      rw [length_forward]
      omega
    rw [List.range_succ, List.foldlM_append, ih (by omega), Option.bind_eq_bind,
      Option.bind_some, List.foldlM_cons, store, if_pos inside, forward_succ]
    rfl

end Fill

variable {step : List α → ℕ → α} {first : ℕ} {d : α} {xs ys : List α} {n : ℕ}

theorem LooksBack.recurrence (back : LooksBack step first d) (room : first + n ≤ xs.length)
    {i : ℕ} (filled : i < n) :
    (forward step first xs n).getD (first + i) d = step (forward step first xs n) i := by
  rw [getD_forward_new step first xs d filled (by omega)]
  apply back
  · rw [length_forward]
    omega
  · rw [length_forward]
    omega
  · exact fun j known => (getD_forward_known step first xs d (Nat.le_of_lt filled) known).symm

/-- What the cells held that are filled makes no difference. -/
theorem LooksBack.congr (back : LooksBack step first d) (room : first + n ≤ xs.length)
    (room' : first + n ≤ ys.length) (past : ∀ j < first, xs.getD j d = ys.getD j d) {j : ℕ}
    (known : j < first + n) :
    (forward step first xs n).getD j d = (forward step first ys n).getD j d := by
  induction n generalizing j with
  | zero => exact past j known
  | succ n ih =>
    rcases Nat.lt_or_ge j (first + n) with earlier | last
    · rw [getD_forward_known step first xs d (Nat.le_succ n) earlier,
        getD_forward_known step first ys d (Nat.le_succ n) earlier]
      exact ih (by omega) (by omega) earlier
    · obtain rfl : j = first + n := by omega
      rw [getD_forward_new step first xs d (Nat.lt_succ_self n) (by omega),
        getD_forward_new step first ys d (Nat.lt_succ_self n) (by omega)]
      apply back
      · rw [length_forward]
        omega
      · rw [length_forward]
        omega
      · exact fun j earlier => ih (by omega) (by omega) earlier

end Listeningway.Lib.ForwardLoop
