/- Listeningway/Lib/Wiring
   digest: A picture seen through a table that says where in a span each cell is. -/

import Listeningway.Lib.SpanWrites
import Mathlib.Data.List.ProdSigma

/-!
The cells of a picture are drawn one after the other into a span. A cell may have no place in
the span, and several may have the same one.
-/

set_option autoImplicit false
set_option relaxedAutoImplicit false

namespace Listeningway.Lib.Wiring

open Listeningway.Lib.SpanWrites

variable {ι κ α β : Type*}

/-- What place `k` shows: of the cells with this place the last one that the picture colours. -/
def through [DecidableEq α] (order : List ι) (wire : ι → Option α) (picture : ι → Option β)
    (k : α) : Option β :=
  order.reverse.findSome? fun x => if wire x = some k then picture x else none

section

variable [DecidableEq α] {order : List ι} {wire : ι → Option α} {picture : ι → Option β} {k : α}

theorem through_unwired (unwired : ∀ x ∈ order, wire x ≠ some k) :
    through order wire picture k = none := by
  apply List.findSome?_eq_none_iff.mpr
  intro x listed
  rw [if_neg (unwired x (List.mem_reverse.mp listed))]

theorem through_alone {x : ι} (listed : x ∈ order) (wired : wire x = some k)
    (alone : ∀ y ∈ order, wire y = some k → y = x) :
    through order wire picture k = picture x := by
  cases shown : through order wire picture k with
  | none =>
    have each := List.findSome?_eq_none_iff.mp shown x (List.mem_reverse.mpr listed)
    rwa [if_pos wired, eq_comm] at each
  | some c =>
    obtain ⟨y, there, found⟩ := List.exists_of_findSome?_eq_some shown
    split_ifs at found with same
    rw [← alone y (List.mem_reverse.mp there) same, found]

end

theorem foldlM_through {order : List ι} {wire : ι → Option ℕ} {picture : ι → Option β}
    (step : List β → ι → Option (List β))
    (each : ∀ x ∈ order, ∀ out, step out x =
      some (overlay (fun k => if wire x = some k then picture x else none) out)) (out : List β) :
    order.foldlM step out = some (overlay (through order wire picture) out) :=
  foldlM_overlay (fun x listed out _ => each x listed out) rfl

theorem foldlM_ext {step step' : β → ι → Option β} {l : List ι}
    (same : ∀ x ∈ l, ∀ b, step b x = step' b x) (b : β) :
    l.foldlM step b = l.foldlM step' b := by
  induction l generalizing b with
  | nil => rfl
  | cons x rest ih =>
    rw [List.foldlM_cons, List.foldlM_cons, same x List.mem_cons_self]
    congr 1
    funext b
    exact ih (fun y listed => same y (List.mem_cons_of_mem x listed)) b

/-- A loop in a loop. -/
theorem foldlM_product (step : β → ι × κ → Option β) (l : List ι) (l' : List κ) (b : β) :
    (l ×ˢ l').foldlM step b =
      l.foldlM (fun b x => l'.foldlM (fun b y => step b (x, y)) b) b := by
  induction l generalizing b with
  | nil => rfl
  | cons x rest ih =>
    rw [List.product_cons, List.foldlM_append, List.foldlM_map, List.foldlM_cons]
    congr 1
    funext b
    exact ih b

end Listeningway.Lib.Wiring
