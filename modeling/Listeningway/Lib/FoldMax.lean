/- Listeningway/Lib/FoldMax
   digest: Loops that keep the largest value so far, or the first place where it stands. -/

import Mathlib.Data.List.Range
import Mathlib.Order.Bounds.Basic

set_option autoImplicit false
set_option relaxedAutoImplicit false

namespace Listeningway.Lib.FoldMax

variable {α K : Type*} [LinearOrder K]

section Largest

variable {p : α → Prop} [DecidablePred p] {v : α → K}

theorem foldl_max_le {l : List α} {init bound : K} (start : init ≤ bound)
    (each : ∀ w ∈ l, p w → v w ≤ bound) :
    l.foldl (fun best w => if p w then if best < v w then v w else best else best) init ≤
      bound := by
  induction l generalizing init with
  | nil => exact start
  | cons w rest ih =>
    rw [List.foldl_cons]
    apply ih
    · split_ifs with passes
      · exact each w List.mem_cons_self passes
      · exact start
      · exact start
    · exact fun w' listed => each w' (List.mem_cons_of_mem w listed)

theorem init_le_foldl_max (l : List α) (init : K) :
    init ≤ l.foldl (fun best w => if p w then if best < v w then v w else best else best) init := by
  induction l generalizing init with
  | nil => exact le_rfl
  | cons w rest ih =>
    rw [List.foldl_cons]
    refine le_trans ?_ (ih _)
    split_ifs with passes less
    · exact less.le
    · exact le_rfl
    · exact le_rfl

theorem le_foldl_max {l : List α} (init : K) {w : α} (listed : w ∈ l) (passes : p w) :
    v w ≤ l.foldl (fun best w => if p w then if best < v w then v w else best else best) init := by
  induction l generalizing init with
  | nil => cases listed
  | cons w' rest ih =>
    rw [List.foldl_cons]
    rcases List.mem_cons.mp listed with rfl | later
    · refine le_trans ?_ (init_le_foldl_max rest _)
      rw [if_pos passes]
      split_ifs with less
      · exact le_rfl
      · exact not_lt.mp less
    · exact ih _ later

theorem foldl_max_mem (l : List α) (init : K) :
    l.foldl (fun best w => if p w then if best < v w then v w else best else best) init ∈
      insert init {x | ∃ w ∈ l, p w ∧ v w = x} := by
  induction l generalizing init with
  | nil => exact .inl rfl
  | cons w rest ih =>
    rw [List.foldl_cons]
    rcases ih (if p w then if init < v w then v w else init else init) with start | seen
    · rw [start]
      split_ifs with passes
      · exact .inr ⟨w, List.mem_cons_self, passes, rfl⟩
      · exact .inl rfl
      · exact .inl rfl
    · obtain ⟨w', listed, passes, value⟩ := seen
      exact .inr ⟨w', List.mem_cons_of_mem w listed, passes, value⟩

theorem isGreatest_foldl_max (l : List α) (init : K) :
    IsGreatest (insert init {x | ∃ w ∈ l, p w ∧ v w = x})
      (l.foldl (fun best w => if p w then if best < v w then v w else best else best) init) := by
  refine ⟨foldl_max_mem l init, ?_⟩
  rintro x (rfl | ⟨w, listed, passes, rfl⟩)
  · exact init_le_foldl_max l x
  · exact le_foldl_max init listed passes

end Largest

theorem isGreatest_of_floor {s : Set K} {floor x : K} (greatest : IsGreatest (insert floor s) x)
    (some : s.Nonempty) (above : ∀ y ∈ s, floor ≤ y) : IsGreatest s x := by
  refine ⟨?_, fun y listed => greatest.2 (.inr listed)⟩
  rcases greatest.1 with rfl | listed
  · obtain ⟨y, listed⟩ := some
    have same : y = x := le_antisymm (greatest.2 (.inr listed)) (above y listed)
    exact same ▸ listed
  · exact listed

theorem foldl_first [LinearOrder α] {v : α → K} {l : List α} {b : α}
    (sorted : (b :: l).Pairwise (· ≤ ·)) :
    let r := l.foldl (fun best w => if v best < v w then w else best) b
    (∀ w ∈ b :: l, v w ≤ v r) ∧ ∀ w ∈ b :: l, w < r → v w < v r := by
  induction l generalizing b with
  | nil =>
    refine ⟨List.forall_mem_singleton.mpr le_rfl, List.forall_mem_singleton.mpr ?_⟩
    exact fun before => absurd rfl before.ne
  | cons w rest ih =>
    obtain ⟨least, later⟩ := List.pairwise_cons.mp sorted
    rw [List.foldl_cons]
    by_cases larger : v b < v w
    · rw [if_pos larger]
      obtain ⟨most, strict⟩ := ih later
      have above := larger.trans_le (most w List.mem_cons_self)
      exact ⟨List.forall_mem_cons.mpr ⟨above.le, most⟩,
        List.forall_mem_cons.mpr ⟨fun _ => above, strict⟩⟩
    · rw [if_neg larger]
      have behind : (b :: rest).Pairwise (· ≤ ·) := by
        refine List.pairwise_cons.mpr ⟨fun w' listed => ?_, (List.pairwise_cons.mp later).2⟩
        exact least w' (List.mem_cons_of_mem w listed)
      obtain ⟨most, strict⟩ := ih behind
      have below : v w ≤ v b := not_lt.mp larger
      rw [List.forall_mem_cons] at most strict
      refine ⟨List.forall_mem_cons.mpr ⟨most.1, ?_⟩, List.forall_mem_cons.mpr ⟨strict.1, ?_⟩⟩
      · exact List.forall_mem_cons.mpr ⟨below.trans most.1, most.2⟩
      · refine List.forall_mem_cons.mpr ⟨fun before => ?_, strict.2⟩
        -- what comes before the result although it is not the first comes after the first
        have start := (least w List.mem_cons_self).trans_lt before
        exact below.trans_lt (strict.1 start)

section Place

variable {v : ℕ → K} {init : K} {n : ℕ}

theorem foldl_place_spec (v : ℕ → K) (init : K) (n : ℕ) :
    let r := (List.range n).foldl
      (fun (best : K × ℕ) i => if best.1 < v i then (v i, i) else best) (init, 0)
    (∀ i < n, v i ≤ r.1) ∧
      (r = (init, 0) ∨ r.2 < n ∧ init < v r.2 ∧ r.1 = v r.2 ∧ ∀ i < r.2, v i < v r.2) := by
  induction n with
  | zero => exact ⟨fun i inside => absurd inside (Nat.not_lt_zero i), .inl rfl⟩
  | succ n ih =>
    obtain ⟨most, found⟩ := ih
    simp only [List.range_succ, List.foldl_append, List.foldl_cons, List.foldl_nil]
    split_ifs with larger
    · refine ⟨fun i inside => ?_, .inr ⟨Nat.lt_succ_self n, ?_, rfl, fun i before =>
        (most i before).trans_lt larger⟩⟩
      · rcases Nat.lt_succ_iff_lt_or_eq.mp inside with before | rfl
        · exact ((most i before).trans_lt larger).le
        · exact le_rfl
      · rcases found with start | ⟨-, above, value, -⟩
        · rw [start] at larger
          exact larger
        · rw [value] at larger
          exact above.trans larger
    · refine ⟨fun i inside => ?_, ?_⟩
      · rcases Nat.lt_succ_iff_lt_or_eq.mp inside with before | rfl
        · exact most i before
        · exact not_lt.mp larger
      · exact found.imp_right fun ⟨inside, rest⟩ => ⟨inside.trans (Nat.lt_succ_self n), rest⟩

theorem foldl_place {i₀ : ℕ} (inside : i₀ < n) (above : init < v i₀)
    (largest : ∀ i < n, i ≠ i₀ → v i < v i₀) :
    ((List.range n).foldl (fun (best : K × ℕ) i => if best.1 < v i then (v i, i) else best)
      (init, 0)).2 = i₀ := by
  obtain ⟨most, start | ⟨found, -, value, -⟩⟩ := foldl_place_spec v init n
  · have least := most i₀ inside
    rw [start] at least
    exact absurd above least.not_gt
  · by_contra elsewhere
    have least := most i₀ inside
    rw [value] at least
    exact (largest _ found elsewhere).not_ge least

theorem foldl_place_lt (v : ℕ → K) (init : K) (some : 0 < n) :
    ((List.range n).foldl (fun (best : K × ℕ) i => if best.1 < v i then (v i, i) else best)
      (init, 0)).2 < n := by
  obtain ⟨-, start | ⟨found, -⟩⟩ := foldl_place_spec v init n
  · rw [start]
    exact some
  · exact found

theorem foldl_place_lt_iff {m : ℕ} (some : 0 < m) :
    ((List.range n).foldl (fun (best : K × ℕ) i => if best.1 < v i then (v i, i) else best)
      (init, 0)).2 < m ↔ ∀ i < n, m ≤ i → init < v i → ∃ i' < m, v i ≤ v i' := by
  obtain ⟨most, found⟩ := foldl_place_spec v init n
  constructor
  · intro early i inside late above
    rcases found with start | ⟨-, -, value, -⟩
    · have least := most i inside
      rw [start] at least
      exact absurd above least.not_gt
    · exact ⟨_, early, (most i inside).trans_eq value⟩
  · intro reached
    by_contra late
    rcases found with start | ⟨inside, above, -, first⟩
    · rw [start] at late
      exact late some
    · obtain ⟨i', early, least⟩ := reached _ inside (not_lt.mp late) above
      exact (first i' (early.trans_le (not_lt.mp late))).not_ge least

end Place

/-- A loop that moves on to a smaller value keeps its start, or ends at a place with its value;
no value it has seen is below. -/
theorem foldl_least (d : α → K) (l : List α) (best : K × α) :
    let r := l.foldl (fun (best : K × α) w => if d w < best.1 then (d w, w) else best) best
    (r = best ∨ r.2 ∈ l ∧ r.1 = d r.2) ∧ r.1 ≤ best.1 ∧ ∀ w ∈ l, r.1 ≤ d w := by
  induction l generalizing best with
  | nil => exact ⟨.inl rfl, le_rfl, fun w listed => absurd listed List.not_mem_nil⟩
  | cons w rest ih =>
    rw [List.foldl_cons]
    by_cases less : d w < best.1
    · rw [if_pos less]
      obtain ⟨found, below, least⟩ := ih (d w, w)
      refine ⟨.inr ?_, below.trans less.le, List.forall_mem_cons.mpr ⟨below, least⟩⟩
      rcases found with start | ⟨listed, value⟩
      · rw [start]
        exact ⟨List.mem_cons_self, rfl⟩
      · exact ⟨List.mem_cons_of_mem w listed, value⟩
    · rw [if_neg less]
      obtain ⟨found, below, least⟩ := ih best
      refine ⟨found.imp_right fun ⟨listed, value⟩ => ⟨List.mem_cons_of_mem w listed, value⟩,
        below, List.forall_mem_cons.mpr ⟨below.trans (not_lt.mp less), least⟩⟩

end Listeningway.Lib.FoldMax
