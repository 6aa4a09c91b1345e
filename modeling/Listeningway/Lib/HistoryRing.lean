/- Listeningway/Lib/HistoryRing
   digest: A full ring of the last n values, read by age and by offset from its head. -/

import Mathlib.Algebra.GroupWithZero.Nat
import Mathlib.Data.List.Induction
import Mathlib.Data.Nat.Notation
import Mathlib.Logic.Function.Basic

/-!
The head is the slot that the next value overwrites, so it holds the oldest value;
the newest is one slot before it. `NeZero` is what keeps every index in bounds.
-/

set_option autoImplicit false
set_option relaxedAutoImplicit false

namespace Listeningway.Lib

/-- `n` slots and the position of the next write. -/
structure HistoryRing (n : ℕ) (α : Type*) where
  slots : Fin n → α
  head : Fin n

namespace HistoryRing

variable {n : ℕ} [NeZero n] {α : Type*}

/-- The slot at position `i` modulo the length. -/
def slot (n : ℕ) [NeZero n] (i : ℕ) : Fin n := ⟨i % n, Nat.mod_lt _ (Nat.pos_of_neZero n)⟩

/-- A ring in which every slot holds `d`. -/
def filled (d : α) : HistoryRing n α := ⟨fun _ => d, slot n 0⟩

/-- Write at the head, then advance it. -/
def push (r : HistoryRing n α) (x : α) : HistoryRing n α where
  slots := Function.update r.slots r.head x
  head := slot n (r.head + 1)

/-- The value written `j` values before the newest. -/
def ago (r : HistoryRing n α) (j : ℕ) : α := r.slots (slot n (r.head + n - 1 - j))

def pushAll (r : HistoryRing n α) (xs : List α) : HistoryRing n α := xs.foldl push r

/-- Entry `j` of a history, newest first, with `d` before its beginning. -/
def entry (xs : List α) (d : α) (j : ℕ) : α := xs.reverse.getD j d

@[simp] theorem slot_val (i : ℕ) : (slot n i : ℕ) = i % n := rfl

theorem pushAll_snoc (r : HistoryRing n α) (xs : List α) (x : α) :
    r.pushAll (xs ++ [x]) = (r.pushAll xs).push x := by
  rw [pushAll, List.foldl_append]
  rfl

@[simp] theorem entry_snoc_zero (xs : List α) (x d : α) : entry (xs ++ [x]) d 0 = x := by
  simp [entry]

@[simp] theorem entry_snoc_succ (xs : List α) (x d : α) (j : ℕ) :
    entry (xs ++ [x]) d (j + 1) = entry xs d j := by
  simp [entry]

theorem entry_map {β : Type*} (g : α → β) (xs : List α) (d : α) (j : ℕ) :
    entry (xs.map g) (g d) j = g (entry xs d j) := by
  rw [entry, entry, ← List.map_reverse, List.getD_eq_getElem?_getD, List.getElem?_map,
    Option.getD_map, ← List.getD_eq_getElem?_getD]

/-- The last `k` values of a history, oldest first. -/
def lastN (k : ℕ) (xs : List α) : List α := xs.drop (xs.length - k)

theorem length_lastN {k : ℕ} {xs : List α} (enough : k ≤ xs.length) : (lastN k xs).length = k := by
  rw [lastN, List.length_drop]
  omega

theorem getD_lastN (d : α) {k i : ℕ} {xs : List α} (enough : k ≤ xs.length) (inside : i < k) :
    (lastN k xs).getD i d = entry xs d (k - 1 - i) := by
  rw [lastN, entry, List.getD_eq_getElem?_getD, List.getElem?_drop, List.getD_eq_getElem?_getD,
    List.getElem?_reverse (by omega)]
  congr 2
  omega

omit [NeZero n] in
private theorem succ_mod_add {h : ℕ} (hh : h < n) (j : ℕ) (hj : j < n) :
    ((h + 1) % n + n - 1 - j) % n = (h + n - j) % n := by
  rcases Nat.lt_or_ge (h + 1) n with inside | wrapped
  · rw [Nat.mod_eq_of_lt inside]
    congr 1
    omega
  · have last : h + 1 = n := by omega
    have shifted : h + n - j = (n - 1 - j) + n := by omega
    rw [last, Nat.mod_self, shifted, Nat.add_mod_right]
    congr 1
    omega

theorem ago_push_zero (r : HistoryRing n α) (x : α) : (r.push x).ago 0 = x := by
  have newest : slot n (((r.push x).head : ℕ) + n - 1 - 0) = r.head := by
    apply Fin.ext
    rw [push, slot_val, slot_val, succ_mod_add r.head.2 0 (Nat.pos_of_neZero n), Nat.sub_zero,
      Nat.add_mod_right, Nat.mod_eq_of_lt r.head.2]
  rw [ago, newest, push]
  exact Function.update_self _ _ _

theorem ago_push_succ (r : HistoryRing n α) (x : α) {j : ℕ} (hj : j + 1 < n) :
    (r.push x).ago (j + 1) = r.ago j := by
  have older : slot n (((r.push x).head : ℕ) + n - 1 - (j + 1)) = slot n (r.head + n - 1 - j) := by
    apply Fin.ext
    rw [push, slot_val, slot_val, slot_val, succ_mod_add r.head.2 (j + 1) hj]
    congr 1
    omega
  have kept : slot n (r.head + n - 1 - j) ≠ r.head := by
    intro same
    have same : (r.head + n - 1 - j) % n = (r.head : ℕ) := congrArg Fin.val same
    have hh := r.head.2
    rcases Nat.lt_or_ge (r.head + n - 1 - j) n with inside | wrapped
    · rw [Nat.mod_eq_of_lt inside] at same
      omega
    · rw [Nat.mod_eq_sub_mod wrapped, Nat.mod_eq_of_lt (by omega)] at same
      omega
  rw [ago, older, push]
  exact Function.update_of_ne kept _ _

theorem exists_ago (r : HistoryRing n α) (i : Fin n) : ∃ j < n, r.ago j = r.slots i := by
  have hh := r.head.2
  have hi := i.2
  rcases Nat.lt_or_ge (i : ℕ) r.head with before | behind
  · refine ⟨r.head - 1 - i, by omega, congrArg r.slots (Fin.ext ?_)⟩
    have index : (r.head + n - 1 - (r.head - 1 - i) : ℕ) = i + n := by omega
    rw [slot_val, index, Nat.add_mod_right, Nat.mod_eq_of_lt hi]
  · refine ⟨r.head + n - 1 - i, by omega, congrArg r.slots (Fin.ext ?_)⟩
    have index : (r.head + n - 1 - (r.head + n - 1 - i) : ℕ) = i := by omega
    rw [slot_val, index, Nat.mod_eq_of_lt hi]

theorem ago_pushAll (d : α) (xs : List α) {j : ℕ} (hj : j < n) :
    ((filled d : HistoryRing n α).pushAll xs).ago j = entry xs d j := by
  induction xs using List.reverseRecOn generalizing j with
  | nil =>
    rw [entry, List.reverse_nil, List.getD_nil]
    rfl
  | append_singleton xs x ih =>
    rw [pushAll_snoc]
    cases j with
    | zero => rw [ago_push_zero, entry_snoc_zero]
    | succ j => rw [ago_push_succ _ _ hj, entry_snoc_succ, ih (by omega)]

theorem slots_past_head (r : HistoryRing n α) {i : ℕ} (hi : i < n) :
    r.slots (slot n (r.head + 1 + i)) = r.ago ((n - 1 + (n - 1 - i)) % n) := by
  have hh := r.head.2
  have same : slot n (r.head + 1 + i) = slot n (r.head + n - 1 - (n - 1 + (n - 1 - i)) % n) := by
    apply Fin.ext
    rw [slot_val, slot_val]
    rcases Nat.lt_or_ge i (n - 1) with before | last
    · have wrapped : (n - 1 + (n - 1 - i)) % n = n - 2 - i := by
        rw [show n - 1 + (n - 1 - i) = (n - 2 - i) + n by omega, Nat.add_mod_right,
          Nat.mod_eq_of_lt (by omega)]
      rw [wrapped]
      congr 1
      omega
    · have stays : (n - 1 + (n - 1 - i)) % n = n - 1 := by
        rw [show n - 1 + (n - 1 - i) = n - 1 by omega, Nat.mod_eq_of_lt (by omega)]
      rw [stays, show (r.head : ℕ) + 1 + i = r.head + n by omega, Nat.add_mod_right]
      congr 1
      omega
  rw [ago, same]

/-- A reading that is off by one slot is right for constant histories only. -/
theorem rotated_iff_constant (f : ℕ → α) :
    (∀ j < n, f ((n - 1 + j) % n) = f j) ↔ ∀ j < n, f j = f 0 := by
  have npos := Nat.pos_of_neZero n
  constructor
  · intro h j hj
    induction j with
    | zero => rfl
    | succ j ih =>
      have back : (n - 1 + (j + 1)) % n = j := by
        rw [show n - 1 + (j + 1) = j + n by omega, Nat.add_mod_right, Nat.mod_eq_of_lt (by omega)]
      have moved := h (j + 1) hj
      rw [back] at moved
      exact moved.symm.trans (ih (by omega))
  · intro h j hj
    exact (h _ (Nat.mod_lt _ npos)).trans (h j hj).symm

end HistoryRing

end Listeningway.Lib
