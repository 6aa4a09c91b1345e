/- Listeningway/Lib/SpanWrites
   digest: Programs that write into a span, with every index checked. -/

import Mathlib.Data.List.Basic
import Mathlib.Data.Nat.Notation

/-!
A program over a span is a function of the span that fails on a write outside. A family of
programs paints when all its members write the same cells, whatever the span holds, and the
parameter of the family enters only through the last operation before a write.
-/

set_option autoImplicit false
set_option relaxedAutoImplicit false

namespace Listeningway.Lib.SpanWrites

variable {α β κ ι : Type*}

/-- `out[i] = v`; `none` when there is no cell `i`. -/
def store (out : List α) (i : ℕ) (v : α) : Option (List α) :=
  if i < out.length then some (out.set i v) else none

/-- `std::fill`. -/
def fill (out : List α) (v : α) : List α := out.map fun _ => v

/-- The span after the cells where `lit` is defined have been written. -/
def overlay (lit : ℕ → Option α) (out : List α) : List α :=
  out.mapIdx fun i old => (lit i).getD old

@[simp] theorem length_overlay (lit : ℕ → Option α) (out : List α) :
    (overlay lit out).length = out.length := List.length_mapIdx

theorem getElem?_overlay (lit : ℕ → Option α) (out : List α) (i : ℕ) :
    (overlay lit out)[i]? = out[i]?.map fun old => (lit i).getD old := List.getElem?_mapIdx

theorem overlay_none (out : List α) : overlay (fun _ => none) out = out := by
  apply List.ext_getElem?
  intro i
  rw [getElem?_overlay]
  exact Option.map_id'

theorem overlay_overlay (lit lit' : ℕ → Option α) (out : List α) :
    overlay lit' (overlay lit out) = overlay (fun i => (lit' i).or (lit i)) out := by
  apply List.ext_getElem?
  intro i
  rw [getElem?_overlay, getElem?_overlay, getElem?_overlay, Option.map_map]
  congr 1
  funext old
  change (lit' i).getD ((lit i).getD old) = _
  cases lit' i <;> rfl

theorem store_eq_overlay (out : List α) {i : ℕ} (inside : i < out.length) (v : α) :
    store out i v = some (overlay (fun k => if k = i then some v else none) out) := by
  rw [store, if_pos inside]
  congr 1
  apply List.ext_getElem?
  intro k
  rw [getElem?_overlay]
  by_cases same : k = i
  · subst same
    rw [List.getElem?_set_self inside, if_pos rfl, List.getElem?_eq_getElem inside]
    rfl
  · rw [List.getElem?_set_ne (Ne.symm same), if_neg same]
    exact Option.map_id'.symm

theorem fill_eq_overlay (out : List α) (v : α) : fill out v = overlay (fun _ => some v) out := by
  apply List.ext_getElem?
  intro k
  rw [getElem?_overlay]
  exact List.getElem?_map

theorem overlay_replicate {lit : ℕ → Option α} {v : α} (same : ∀ i w, lit i = some w → w = v)
    (n : ℕ) : overlay lit (List.replicate n v) = List.replicate n v := by
  apply List.ext_getElem?
  intro i
  rw [getElem?_overlay, List.getElem?_replicate]
  split_ifs
  · cases written : lit i with
    | none => rfl
    | some w => exact congrArg some (same i w written)
  · rfl

theorem foldlM_store_first (f : ℕ → α) {out : List α} {n : ℕ} (room : n ≤ out.length) :
    (List.range n).foldlM (fun out i => store out i (f i)) out =
      some ((List.range n).map f ++ out.drop n) := by
  induction n with
  | zero => rfl
  | succ n ih =>
    have here : n < ((List.range n).map f ++ out.drop n).length := by
      simp only [List.length_append, List.length_map, List.length_range, List.length_drop]
      omega
    have rest : out.drop n = out[n] :: out.drop (n + 1) := List.drop_eq_getElem_cons (by omega)
    have prior : ((List.range n).map f).length = n := by simp
    have stored : store ((List.range n).map f ++ out.drop n) n (f n) =
        some ((List.range n ++ [n]).map f ++ out.drop (n + 1)) := by
      rw [store, if_pos here, rest, List.set_append_right _ _ (Nat.le_of_eq prior), prior,
        Nat.sub_self, List.set_cons_zero, List.map_append, List.append_assoc]
      rfl
    rw [List.range_succ, List.foldlM_append, ih (by omega), Option.bind_eq_bind,
      Option.bind_some, List.foldlM_cons, stored]
    rfl

theorem foldlM_store_range (f : ℕ → α) {out : List α} {n : ℕ} (length : out.length = n) :
    (List.range n).foldlM (fun out i => store out i (f i)) out = some ((List.range n).map f) := by
  rw [foldlM_store_first f (Nat.le_of_eq length.symm),
    List.drop_eq_nil_of_le (Nat.le_of_eq length), List.append_nil]

theorem foldlM_carry (step : β → ℕ → κ → Option β) (next : κ → κ) (carried : ℕ → κ)
    (moves : ∀ i, next (carried i) = carried (i + 1)) (start : β) (n : ℕ) :
    (List.range n).foldlM (fun (acc : β × κ) i =>
        (step acc.1 i acc.2).map fun s => (s, next acc.2)) (start, carried 0) =
      ((List.range n).foldlM (fun s i => step s i (carried i)) start).map
        fun s => (s, carried n) := by
  induction n with
  | zero => rfl
  | succ n ih =>
    rw [List.range_succ, List.foldlM_append, List.foldlM_append, ih]
    cases (List.range n).foldlM (fun s i => step s i (carried i)) start with
    | none => rfl
    | some s =>
      simp only [Option.map_some, Option.bind_eq_bind, Option.bind_some, List.foldlM_cons,
        List.foldlM_nil, moves]
      cases step s n (carried n) <;> rfl

theorem foldlM_of_some {step : β → ι → Option β} {next : β → ι → β} {l : List ι}
    (each : ∀ x ∈ l, ∀ b, step b x = some (next b x)) (b : β) :
    l.foldlM step b = some (l.foldl next b) := by
  induction l generalizing b with
  | nil => rfl
  | cons x rest ih =>
    rw [List.foldlM_cons, each x List.mem_cons_self, Option.bind_eq_bind, Option.bind_some,
      ih (fun y listed => each y (List.mem_cons_of_mem x listed)), List.foldl_cons]

theorem foldlM_overlay {step : List α → ι → Option (List α)} {lit : ι → ℕ → Option α} {n : ℕ}
    {l : List ι}
    (each : ∀ x ∈ l, ∀ out, out.length = n → step out x = some (overlay (lit x) out))
    {out : List α} (length : out.length = n) :
    l.foldlM step out =
      some (overlay (fun i => l.reverse.findSome? fun x => lit x i) out) := by
  induction l generalizing out with
  | nil => exact congrArg some (overlay_none out).symm
  | cons x rest ih =>
    have head := each x List.mem_cons_self out length
    have tail := ih (fun y listed => each y (List.mem_cons_of_mem x listed))
      ((length_overlay (lit x) out).trans length)
    rw [List.foldlM_cons, head, Option.bind_eq_bind, Option.bind_some, tail, overlay_overlay]
    congr 2
    funext i
    rw [List.reverse_cons, List.findSome?_append, List.findSome?_singleton]

/-! ### Families of programs -/

/-- Over spans of `n` cells no member of the family fails, and there are cells and raw values,
the same for all, that a member finishes with its parameter. -/
def Paints (finish : β → κ → α) (n : ℕ) (prog : β → List α → Option (List α)) : Prop :=
  ∃ paint : ℕ → Option κ, ∀ b out, out.length = n →
    prog b out = some (overlay (fun i => (paint i).map (finish b)) out)

variable {finish : β → κ → α} {n : ℕ} {prog prog' : β → List α → Option (List α)}

theorem Paints.congr (same : ∀ b out, out.length = n → prog b out = prog' b out)
    (paints : Paints finish n prog') : Paints finish n prog := by
  obtain ⟨paint, runs⟩ := paints
  exact ⟨paint, fun b out length => (same b out length).trans (runs b out length)⟩

theorem paints_skip : Paints finish n fun _ out => some out := by
  refine ⟨fun _ => none, fun b out _ => ?_⟩
  exact congrArg some (overlay_none out).symm

theorem paints_store {i : ℕ} (inside : i < n) (v : κ) :
    Paints finish n fun b out => store out i (finish b v) := by
  refine ⟨fun k => if k = i then some v else none, fun b out length => ?_⟩
  change store out i (finish b v) = _
  rw [store_eq_overlay out (length ▸ inside)]
  congr 2
  funext k
  change _ = Option.map (finish b) (if k = i then some v else none)
  split_ifs <;> rfl

theorem paints_fill (v : κ) : Paints finish n fun b out => some (fill out (finish b v)) := by
  refine ⟨fun _ => some v, fun b out _ => ?_⟩
  exact congrArg some (fill_eq_overlay out (finish b v))

theorem Paints.ite {p : Prop} [Decidable p] (yes : p → Paints finish n prog)
    (no : ¬p → Paints finish n prog') :
    Paints finish n fun b out => if p then prog b out else prog' b out := by
  by_cases holds : p
  · simp only [if_pos holds]
    exact yes holds
  · simp only [if_neg holds]
    exact no holds

theorem Paints.bind (first : Paints finish n prog) (second : Paints finish n prog') :
    Paints finish n fun b out => (prog b out).bind (prog' b) := by
  obtain ⟨paint, runs⟩ := first
  obtain ⟨paint', runs'⟩ := second
  refine ⟨fun i => (paint' i).or (paint i), fun b out length => ?_⟩
  change (prog b out).bind (prog' b) = _
  rw [runs b out length, Option.bind_some, runs' b _ (by rw [length_overlay, length]),
    overlay_overlay]
  congr 2
  funext i
  change _ = Option.map (finish b) ((paint' i).or (paint i))
  cases paint' i <;> rfl

/-- A loop. -/
theorem paints_foldlM {step : β → List α → ι → Option (List α)} {l : List ι}
    (each : ∀ x ∈ l, Paints finish n fun b out => step b out x) :
    Paints finish n fun b out => l.foldlM (step b) out := by
  induction l with
  | nil => exact paints_skip
  | cons x rest ih =>
    have head := each x List.mem_cons_self
    have tail := ih fun y listed => each y (List.mem_cons_of_mem x listed)
    exact head.bind tail

end Listeningway.Lib.SpanWrites
