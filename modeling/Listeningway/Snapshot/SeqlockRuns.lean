/- Listeningway/Snapshot/SeqlockRuns
   source: src/audio/snapshot/seqlock_snapshot.h
   digest: Which publish each word handed out by a seqlock read comes from. -/

import Listeningway.Snapshot.SeqlockSnapshot
import Mathlib.Data.List.GetD

/-!
The invariant counts, from the labels alone, how often each payload word has
been stored. That count is the publish number of the word in memory, so a copy
is whole exactly when all its words carry one number.
-/

set_option autoImplicit false
set_option relaxedAutoImplicit false

namespace Listeningway.Snapshot.SeqlockRuns

open Listeningway.Lib.Machine
open Listeningway.Snapshot.SeqlockSnapshot

variable {n : ℕ} {α ρ : Type} [DecidableEq ρ]

/-- Publish numbers read off the labels: of each word in memory, of each word in
a reader's copy, and of the last publish finished when a reader loaded `s1`. -/
structure Tally (n : ℕ) (ρ : Type) where
  completed : ℕ
  stored : Fin n → ℕ
  seen : ρ → Fin n → ℕ
  loadedAt : ρ → ℕ

def Tally.observe (t : Tally n ρ) : Act n α ρ → Tally n ρ
  | .storeWord w => { t with stored := Function.update t.stored w (t.stored w + 1) }
  | .storeEven => { t with completed := t.completed + 1 }
  | .read r => { t with seen := Function.update t.seen r fun _ => 0 }
  | .loadSeq r => { t with loadedAt := Function.update t.loadedAt r t.completed }
  | .copyWord r w => { t with
      seen := Function.update t.seen r (Function.update (t.seen r) w (t.stored w)) }
  | _ => t

def tally (as : List (Act n α ρ)) : Tally n ρ :=
  as.foldl Tally.observe ⟨0, fun _ => 0, fun _ _ => 0, fun _ => 0⟩

@[simp] theorem tally_snoc (as : List (Act n α ρ)) (a : Act n α ρ) :
    tally (as ++ [a]) = (tally as).observe a := by
  simp [tally]

/-- Snapshot number `k`. -/
def nth (zero : Payload n α) (as : List (Act n α ρ)) (k : ℕ) : Payload n α :=
  (snapshots zero as).getD k zero

/-- The most recent finished publish, the initial snapshot when there is none. -/
def latest (zero : Payload n α) (os : List (Event n α ρ)) : Payload n α :=
  (published os).getLastD zero

/-- Everything one step can do, guards included. -/
inductive Move (zero : Payload n α) (s : State n α ρ) :
    Act n α ρ → State n α ρ → List (Event n α ρ) → Prop
  | publish (snap : Payload n α) : s.writer = .idle →
      Move zero s (.publish snap) { s with writer := .loaded snap s.seq } []
  | storeOdd {snap : Payload n α} {q : ℕ} : s.writer = .loaded snap q →
      Move zero s .storeOdd
        { s with seq := wrap (q + 1), writer := .copying snap q fun _ => false } []
  | storeWord {snap : Payload n α} {q : ℕ} {copied : Fin n → Bool} (w : Fin n) :
      s.writer = .copying snap q copied → copied w = false →
      Move zero s (.storeWord w)
        { s with
          data := Function.update s.data w (snap w)
          writer := .copying snap q (Function.update copied w true) } []
  | storeEven {snap : Payload n α} {q : ℕ} {copied : Fin n → Bool} :
      s.writer = .copying snap q copied → (∀ w, copied w = true) →
      Move zero s .storeEven { s with seq := wrap (q + 2), writer := .idle } [.published snap]
  | read (r : ρ) : s.readers r = .idle →
      Move zero s (.read r) (s.setReader r (.spinning 0 zero)) []
  | loadOdd {r : ρ} {k : ℕ} {out : Payload n α} : s.readers r = .spinning k out →
      k < kMaxSpin → s.seq % 2 = 1 →
      Move zero s (.loadSeq r) (s.setReader r (.spinning (k + 1) out)) [.loaded r s.seq]
  | loadEven {r : ρ} {k : ℕ} {out : Payload n α} : s.readers r = .spinning k out →
      k < kMaxSpin → s.seq % 2 = 0 →
      Move zero s (.loadSeq r) (s.setReader r (.copying k s.seq out fun _ => false))
        [.loaded r s.seq]
  | copyWord {r : ρ} {k s1 : ℕ} {out : Payload n α} {copied : Fin n → Bool} (w : Fin n) :
      s.readers r = .copying k s1 out copied → copied w = false →
      Move zero s (.copyWord r w)
        (s.setReader r (.copying k s1 (Function.update out w (s.data w))
          (Function.update copied w true))) []
  | validated {r : ρ} {k s1 : ℕ} {out : Payload n α} {copied : Fin n → Bool} :
      s.readers r = .copying k s1 out copied → (∀ w, copied w = true) → s1 = s.seq →
      Move zero s (.validate r) (s.setReader r .idle) [.validated r s1 out]
  | refused {r : ρ} {k s1 : ℕ} {out : Payload n α} {copied : Fin n → Bool} :
      s.readers r = .copying k s1 out copied → (∀ w, copied w = true) → s1 ≠ s.seq →
      Move zero s (.validate r) (s.setReader r (.spinning (k + 1) out)) []
  | giveUp {r : ρ} {k : ℕ} {out : Payload n α} : s.readers r = .spinning k out →
      kMaxSpin ≤ k → Move zero s (.giveUp r) (s.setReader r .idle) [.exhausted r out]

theorem step_move {zero : Payload n α} {s t : State n α ρ} {a : Act n α ρ}
    {o : List (Event n α ρ)} (h : step zero s a = some (t, o)) : Move zero s a t o := by
  cases a with
  | publish snap =>
    cases hw : s.writer <;> simp [step, publishStep, readStep, hw] at h
    obtain ⟨rfl, rfl⟩ := h
    exact .publish snap hw
  | storeOdd =>
    cases hw : s.writer <;> simp [step, publishStep, readStep, hw] at h
    obtain ⟨rfl, rfl⟩ := h
    exact .storeOdd hw
  | storeWord w =>
    cases hw : s.writer <;> simp [step, publishStep, readStep, hw] at h
    obtain ⟨hc, rfl, rfl⟩ := h
    exact .storeWord w hw hc
  | storeEven =>
    cases hw : s.writer <;> simp [step, publishStep, readStep, hw] at h
    obtain ⟨hc, rfl, rfl⟩ := h
    exact .storeEven hw hc
  | read r =>
    cases hr : s.readers r <;> simp [step, publishStep, readStep, hr] at h
    obtain ⟨rfl, rfl⟩ := h
    exact .read r hr
  | loadSeq r =>
    cases hr : s.readers r <;> simp [step, publishStep, readStep, hr] at h
    obtain ⟨hk, h⟩ := h
    split at h
    · rename_i odd
      obtain ⟨rfl, rfl⟩ := Prod.mk.inj (Option.some.inj h)
      exact .loadOdd hr hk odd
    · rename_i even
      obtain ⟨rfl, rfl⟩ := Prod.mk.inj (Option.some.inj h)
      exact .loadEven hr hk (by omega)
  | copyWord r w =>
    cases hr : s.readers r <;> simp [step, publishStep, readStep, hr] at h
    obtain ⟨hc, rfl, rfl⟩ := h
    exact .copyWord w hr hc
  | validate r =>
    cases hr : s.readers r <;> simp [step, publishStep, readStep, hr] at h
    obtain ⟨hc, h⟩ := h
    split at h
    · rename_i same
      obtain ⟨rfl, rfl⟩ := Prod.mk.inj (Option.some.inj h)
      exact .validated hr hc same
    · rename_i moved
      obtain ⟨rfl, rfl⟩ := Prod.mk.inj (Option.some.inj h)
      exact .refused hr hc moved
  | giveUp r =>
    cases hr : s.readers r <;> simp [step, publishStep, readStep, hr] at h
    obtain ⟨hk, rfl, rfl⟩ := h
    exact .giveUp hr hk

/-! ### The invariant -/

/-- The writer's position fixes the counter and the publish number of every word;
`c` publishes are finished and `P` are the snapshots so far. -/
def WriterInv (zero : Payload n α) (P : List (Payload n α)) (c seq : ℕ) (stored : Fin n → ℕ) :
    Writer n α → Prop
  | .idle => P.length = c + 1 ∧ seq = wrap (2 * c) ∧ ∀ w, stored w = c
  | .loaded snap q => P.length = c + 2 ∧ seq = wrap (2 * c) ∧ q = seq ∧
      P.getD (c + 1) zero = snap ∧ ∀ w, stored w = c
  | .copying snap q copied => P.length = c + 2 ∧ q = wrap (2 * c) ∧ seq = wrap (2 * c + 1) ∧
      P.getD (c + 1) zero = snap ∧ ∀ w, stored w = if copied w then c + 1 else c

/-- An attempt under way remembers the event that loaded `s1`. -/
def AttemptInv (os : List (Event n α ρ)) (r : ρ) (s1 loadedAt : ℕ) : Prop :=
  ∃ pre mid, os = pre ++ .loaded r s1 :: mid ∧ (∀ x, .loaded r x ∉ mid) ∧
    (published pre).length = loadedAt

/-- Each word of a reader's copy is that word of the snapshot it was copied from. -/
def ReaderInv (P : ℕ → Payload n α) (os : List (Event n α ρ)) (r : ρ) (seen : Fin n → ℕ)
    (loadedAt : ℕ) : Reader n α → Prop
  | .idle => True
  | .spinning _ out => ∀ w, out w = P (seen w) w
  | .copying _ s1 out copied => (∀ w, out w = P (seen w) w) ∧ s1 = wrap (2 * loadedAt) ∧
      (∀ w, copied w = true → loadedAt ≤ seen w) ∧ AttemptInv os r s1 loadedAt

structure Inv (zero : Payload n α) (as : List (Act n α ρ)) (os : List (Event n α ρ))
    (s : State n α ρ) : Prop where
  completed : (tally as).completed = (published os).length
  writer : WriterInv zero (snapshots zero as) (published os).length s.seq (tally as).stored s.writer
  finished : ∀ k ≤ (published os).length, nth zero as k = (zero :: published os).getD k zero
  data : ∀ w, s.data w = nth zero as ((tally as).stored w) w
  seen : ∀ r w, (tally as).seen r w ≤ (tally as).stored w
  loadedAt : ∀ r, (tally as).loadedAt r ≤ (published os).length
  reader : ∀ r, ReaderInv (nth zero as) os r ((tally as).seen r) ((tally as).loadedAt r)
    (s.readers r)

theorem stored_bounds {zero : Payload n α} {as : List (Act n α ρ)} {os : List (Event n α ρ)}
    {s : State n α ρ} (h : Inv zero as os s) (w : Fin n) :
    (published os).length ≤ (tally as).stored w ∧
      (tally as).stored w < (snapshots zero as).length := by
  have hw := h.writer
  cases hp : s.writer with
  | idle =>
    rw [hp] at hw
    obtain ⟨len, _, st⟩ := hw
    have := st w
    omega
  | loaded snap q =>
    rw [hp] at hw
    obtain ⟨len, _, _, _, st⟩ := hw
    have := st w
    omega
  | copying snap q copied =>
    rw [hp] at hw
    obtain ⟨len, _, _, _, st⟩ := hw
    have := st w
    split at this <;> omega

theorem published_lt_snapshots {zero : Payload n α} {as : List (Act n α ρ)}
    {os : List (Event n α ρ)} {s : State n α ρ} (h : Inv zero as os s) :
    (published os).length < (snapshots zero as).length := by
  have hw := h.writer
  cases hp : s.writer <;> rw [hp] at hw <;> have := hw.1 <;> omega

theorem even_counter {zero : Payload n α} {as : List (Act n α ρ)} {os : List (Event n α ρ)}
    {s : State n α ρ} (h : Inv zero as os s) (even : s.seq % 2 = 0) :
    s.seq = wrap (2 * (published os).length) ∧
      ∀ w, (tally as).stored w = (published os).length := by
  have hw := h.writer
  cases hp : s.writer with
  | idle =>
    rw [hp] at hw
    exact ⟨hw.2.1, hw.2.2⟩
  | loaded snap q =>
    rw [hp] at hw
    exact ⟨hw.2.1, hw.2.2.2.2⟩
  | copying snap q copied =>
    rw [hp] at hw
    have odd := hw.2.2.1
    simp only [wrap] at odd
    omega

section Frame

omit [DecidableEq ρ]

variable {zero : Payload n α} {as : List (Act n α ρ)}

@[simp] theorem snapshots_publish (snap : Payload n α) :
    snapshots zero (as ++ [.publish snap]) = snapshots zero as ++ [snap] := by
  simp [snapshots]

theorem snapshots_other {a : Act n α ρ} (h : ∀ snap, a ≠ .publish snap) :
    snapshots zero (as ++ [a]) = snapshots zero as := by
  cases a <;> simp_all [snapshots]

theorem snapshots_append (bs : List (Act n α ρ)) :
    snapshots zero (as ++ bs) = snapshots zero as ++ (snapshots zero bs).tail := by
  simp [snapshots]

theorem nth_append (bs : List (Act n α ρ)) {k : ℕ} (hk : k < (snapshots zero as).length) :
    nth zero (as ++ bs) k = nth zero as k := by
  rw [nth, nth, snapshots_append, List.getD_append _ _ _ _ hk]

theorem nth_other {a : Act n α ρ} (h : ∀ snap, a ≠ .publish snap) :
    nth zero (as ++ [a]) = nth zero as := by
  funext k
  simp [nth, snapshots_other h]

@[simp] theorem published_append (os o : List (Event n α ρ)) :
    published (os ++ o) = published os ++ published o := by
  simp [published]

theorem reader_frame {P P' : ℕ → Payload n α} {os o : List (Event n α ρ)} {r : ρ}
    {seen : Fin n → ℕ} {loadedAt : ℕ} {p : Reader n α} (h : ReaderInv P os r seen loadedAt p)
    (nums : ∀ w, P' (seen w) = P (seen w)) (quiet : ∀ x, .loaded r x ∉ o) :
    ReaderInv P' (os ++ o) r seen loadedAt p := by
  cases p with
  | idle => trivial
  | spinning k out =>
    intro w
    rw [nums w]
    exact h w
  | copying k s1 out copied =>
    obtain ⟨words, hs1, since, pre, mid, hos, hmid, hlen⟩ := h
    refine ⟨fun w => by rw [nums w]; exact words w, hs1, since, pre, mid ++ o, ?_, ?_, hlen⟩
    · rw [hos, List.append_assoc, List.cons_append]
    · intro x hx
      rcases List.mem_append.mp hx with hx | hx
      · exact hmid x hx
      · exact quiet x hx

end Frame

/-! ### Each step keeps the invariant -/

section Keep

variable {zero : Payload n α} {as : List (Act n α ρ)} {os : List (Event n α ρ)}
  {s : State n α ρ}

private theorem seen_lt (h : Inv zero as os s) (r : ρ) (w : Fin n) :
    (tally as).seen r w < (snapshots zero as).length :=
  lt_of_le_of_lt (h.seen r w) (stored_bounds h w).2

private theorem keep_publish (h : Inv zero as os s) (snap : Payload n α)
    (idle : s.writer = .idle) :
    Inv zero (as ++ [.publish snap]) (os ++ []) { s with writer := .loaded snap s.seq } := by
  have hw := h.writer
  rw [idle] at hw
  obtain ⟨len, counter, st⟩ := hw
  refine ⟨?_, ?_, ?_, ?_, ?_, ?_, ?_⟩
  · simpa [Tally.observe] using h.completed
  · refine ⟨by simp [len], by simpa using counter, rfl, ?_, by simpa [Tally.observe] using st⟩
    simp [← len]
  · intro k hk
    simp only [List.append_nil] at hk ⊢
    rw [nth_append _ (by omega)]
    exact h.finished k hk
  · intro w
    simp only [tally_snoc, Tally.observe]
    rw [nth_append _ (stored_bounds h w).2]
    exact h.data w
  · simpa [Tally.observe] using h.seen
  · simpa [Tally.observe] using h.loadedAt
  · intro r
    simp only [tally_snoc, Tally.observe]
    exact reader_frame (h.reader r) (fun w => nth_append _ (seen_lt h r w)) (by simp)

private theorem keep_storeOdd (h : Inv zero as os s) {snap : Payload n α} {q : ℕ}
    (at_ : s.writer = .loaded snap q) :
    Inv zero (as ++ [.storeOdd]) (os ++ [])
      { s with seq := wrap (q + 1), writer := .copying snap q fun _ => false } := by
  have hw := h.writer
  rw [at_] at hw
  obtain ⟨len, counter, hq, hsnap, st⟩ := hw
  have same : snapshots zero (as ++ [.storeOdd]) = snapshots zero as :=
    snapshots_other (by simp)
  have nums : nth zero (as ++ [.storeOdd]) = nth zero as := nth_other (by simp)
  refine ⟨by simpa [Tally.observe] using h.completed, ?_, ?_, ?_, ?_, ?_, ?_⟩
  · refine ⟨by simpa [same] using len, by simpa [hq] using counter, ?_, by simpa [same] using hsnap,
      by simpa [Tally.observe] using st⟩
    subst hq
    simp only [List.append_nil, counter, wrap]
    omega
  · simpa [nums] using h.finished
  · simpa [nums, Tally.observe] using h.data
  · simpa [Tally.observe] using h.seen
  · simpa [Tally.observe] using h.loadedAt
  · intro r
    simp only [tally_snoc, Tally.observe, nums]
    exact reader_frame (h.reader r) (fun _ => rfl) (by simp)

private theorem keep_storeWord (h : Inv zero as os s) {snap : Payload n α} {q : ℕ}
    {copied : Fin n → Bool} (w : Fin n) (at_ : s.writer = .copying snap q copied)
    (fresh : copied w = false) :
    Inv zero (as ++ [.storeWord w]) (os ++ [])
      { s with
        data := Function.update s.data w (snap w)
        writer := .copying snap q (Function.update copied w true) } := by
  have hw := h.writer
  rw [at_] at hw
  obtain ⟨len, hq, counter, hsnap, st⟩ := hw
  have same : snapshots zero (as ++ [.storeWord w]) = snapshots zero as :=
    snapshots_other (by simp)
  have nums : nth zero (as ++ [.storeWord w]) = nth zero as := nth_other (by simp)
  have stw : (tally as).stored w = (published os).length := by simpa [fresh] using st w
  have new : nth zero as ((published os).length + 1) = snap := hsnap
  refine ⟨by simpa [Tally.observe] using h.completed, ?_, ?_, ?_, ?_, ?_, ?_⟩
  · refine ⟨by simpa [same] using len, by simpa using hq, by simpa using counter,
      by simpa [same] using hsnap, ?_⟩
    intro v
    by_cases hv : v = w
    · subst hv
      simp [Tally.observe, stw]
    · simpa [Tally.observe, hv] using st v
  · simpa [nums] using h.finished
  · intro v
    by_cases hv : v = w
    · subst hv
      simp [Tally.observe, nums, stw, new]
    · simpa [Tally.observe, nums, hv] using h.data v
  · intro r v
    by_cases hv : v = w
    · subst hv
      simpa [Tally.observe] using (h.seen r v).trans (Nat.le_succ _)
    · simpa [Tally.observe, hv] using h.seen r v
  · simpa [Tally.observe] using h.loadedAt
  · intro r
    simp only [tally_snoc, Tally.observe, nums]
    exact reader_frame (h.reader r) (fun _ => rfl) (by simp)

private theorem keep_storeEven (h : Inv zero as os s) {snap : Payload n α} {q : ℕ}
    {copied : Fin n → Bool} (at_ : s.writer = .copying snap q copied)
    (all : ∀ w, copied w = true) :
    Inv zero (as ++ [.storeEven]) (os ++ [.published snap])
      { s with seq := wrap (q + 2), writer := .idle } := by
  have hw := h.writer
  rw [at_] at hw
  obtain ⟨len, hq, counter, hsnap, st⟩ := hw
  have same : snapshots zero (as ++ [.storeEven]) = snapshots zero as :=
    snapshots_other (by simp)
  have nums : nth zero (as ++ [.storeEven]) = nth zero as := nth_other (by simp)
  have grown : published (os ++ [.published snap]) = published os ++ [snap] := by
    simp [published]
  refine ⟨by simpa [Tally.observe, grown] using h.completed, ?_, ?_, ?_, ?_, ?_, ?_⟩
  · refine ⟨by simpa [same, grown] using len, ?_, by simpa [Tally.observe, grown, all] using st⟩
    simp only [grown, List.length_append, List.length_singleton, hq, wrap]
    omega
  · intro k hk
    simp only [grown, List.length_append, List.length_singleton] at hk
    rw [nums, grown]
    by_cases hlast : k = (published os).length + 1
    · subst hlast
      have new : nth zero as ((published os).length + 1) = snap := hsnap
      simp [new]
    · have inside : k < (zero :: published os).length := by
        rw [List.length_cons]
        omega
      rw [h.finished k (by omega), ← List.cons_append, List.getD_append _ _ _ _ inside]
  · simpa [nums, Tally.observe] using h.data
  · simpa [Tally.observe] using h.seen
  · intro r
    simpa [Tally.observe, grown] using (h.loadedAt r).trans (Nat.le_succ _)
  · intro r
    simp only [tally_snoc, Tally.observe, nums]
    exact reader_frame (h.reader r) (fun _ => rfl) (by simp)

private theorem keep_setReader (h : Inv zero as os s) {a : Act n α ρ} {o : List (Event n α ρ)}
    {r : ρ} {p : Reader n α} (noPublish : ∀ snap, a ≠ .publish snap) (silent : published o = [])
    (completed : ((tally as).observe a).completed = (tally as).completed)
    (stored : ((tally as).observe a).stored = (tally as).stored)
    (others : ∀ r', r' ≠ r → ((tally as).observe a).seen r' = (tally as).seen r' ∧
      ((tally as).observe a).loadedAt r' = (tally as).loadedAt r' ∧ ∀ x, .loaded r' x ∉ o)
    (seen : ∀ w, ((tally as).observe a).seen r w ≤ (tally as).stored w)
    (loadedAt : ((tally as).observe a).loadedAt r ≤ (published os).length)
    (own : ReaderInv (nth zero as) (os ++ o) r (((tally as).observe a).seen r)
      (((tally as).observe a).loadedAt r) p) :
    Inv zero (as ++ [a]) (os ++ o) (s.setReader r p) := by
  have same : snapshots zero (as ++ [a]) = snapshots zero as := snapshots_other noPublish
  have nums : nth zero (as ++ [a]) = nth zero as := nth_other noPublish
  have quiet : published (os ++ o) = published os := by simp [silent]
  refine ⟨?_, ?_, ?_, ?_, ?_, ?_, ?_⟩
  · rw [tally_snoc, completed, quiet]
    exact h.completed
  · rw [tally_snoc, stored, quiet, same]
    exact h.writer
  · rw [quiet, nums]
    exact h.finished
  · rw [tally_snoc, stored, nums]
    exact h.data
  · intro r' w
    rw [tally_snoc, stored]
    by_cases hr : r' = r
    · subst hr
      exact seen w
    · rw [(others r' hr).1]
      exact h.seen r' w
  · intro r'
    rw [tally_snoc, quiet]
    by_cases hr : r' = r
    · subst hr
      exact loadedAt
    · rw [(others r' hr).2.1]
      exact h.loadedAt r'
  · intro r'
    rw [tally_snoc, nums]
    by_cases hr : r' = r
    · subst hr
      simpa [State.setReader] using own
    · obtain ⟨hseen, hload, hquiet⟩ := others r' hr
      rw [hseen, hload]
      simpa [State.setReader, hr] using reader_frame (h.reader r') (fun _ => rfl) hquiet

/-- Steps that touch neither the reader's own publish numbers nor anybody else's. -/
private theorem keep_quiet (h : Inv zero as os s) {a : Act n α ρ} {o : List (Event n α ρ)} {r : ρ}
    {p : Reader n α} (noPublish : ∀ snap, a ≠ .publish snap) (silent : published o = [])
    (still : (tally as).observe a = tally as) (quiet : ∀ r' x, .loaded r' x ∉ o)
    (own : ReaderInv (nth zero as) (os ++ o) r ((tally as).seen r) ((tally as).loadedAt r) p) :
    Inv zero (as ++ [a]) (os ++ o) (s.setReader r p) := by
  refine keep_setReader h noPublish silent ?_ ?_ ?_ ?_ ?_ ?_ <;> rw [still]
  · exact fun r' _ => ⟨rfl, rfl, quiet r'⟩
  · exact h.seen r
  · exact h.loadedAt r
  · exact own

private theorem keep_copyWord (h : Inv zero as os s) {r : ρ} {k s1 : ℕ} {out : Payload n α}
    {copied : Fin n → Bool} (w : Fin n) (at_ : s.readers r = .copying k s1 out copied) :
    Inv zero (as ++ [.copyWord r w]) (os ++ [])
      (s.setReader r (.copying k s1 (Function.update out w (s.data w))
        (Function.update copied w true))) := by
  have hr := h.reader r
  rw [at_] at hr
  obtain ⟨words, hs1, since, attempt⟩ := hr
  refine keep_setReader h (by simp) rfl rfl rfl ?_ ?_ ?_ ⟨?_, ?_, ?_, ?_⟩
  · intro r' hne
    simp [Tally.observe, hne]
  · intro v
    by_cases hv : v = w
    · subst hv
      simp [Tally.observe]
    · simpa [Tally.observe, hv] using h.seen r v
  · exact h.loadedAt r
  · intro v
    by_cases hv : v = w
    · subst hv
      simpa [Tally.observe] using h.data v
    · simpa [Tally.observe, hv] using words v
  · simpa [Tally.observe] using hs1
  · intro v hc
    by_cases hv : v = w
    · subst hv
      simpa [Tally.observe] using (h.loadedAt r).trans (stored_bounds h v).1
    · simpa [Tally.observe, hv] using since v (by simpa [hv] using hc)
  · simpa [Tally.observe] using attempt

private theorem keep_loadSeq (h : Inv zero as os s) {r : ρ} {p : Reader n α}
    (own : ReaderInv (nth zero as) (os ++ [.loaded r s.seq]) r ((tally as).seen r)
      (published os).length p) :
    Inv zero (as ++ [.loadSeq r]) (os ++ [.loaded r s.seq]) (s.setReader r p) := by
  refine keep_setReader h (by simp) rfl rfl rfl ?_ (h.seen r) ?_ ?_
  · intro r' hne
    simp [Tally.observe, hne]
  · simp [Tally.observe, h.completed]
  · simpa [Tally.observe, h.completed] using own

theorem keep (as : List (Act n α ρ)) (os : List (Event n α ρ)) (s : State n α ρ) (a : Act n α ρ)
    (t : State n α ρ) (o : List (Event n α ρ)) (h : Inv zero as os s)
    (hs : step zero s a = some (t, o)) : Inv zero (as ++ [a]) (os ++ o) t := by
  have reader := h.reader
  cases step_move hs with
  | publish snap idle => exact keep_publish h snap idle
  | storeOdd at_ => exact keep_storeOdd h at_
  | storeWord w at_ fresh => exact keep_storeWord h w at_ fresh
  | storeEven at_ all => exact keep_storeEven h at_ all
  | read r at_ =>
    refine keep_setReader h (by simp) rfl rfl rfl ?_ ?_ (h.loadedAt r) ?_
    · intro r' hne
      simp [Tally.observe, hne]
    · simp [Tally.observe]
    · intro w
      rw [h.finished _ (by simp [Tally.observe])]
      simp [Tally.observe]
  | @loadOdd r k out at_ _ odd =>
    have hr := reader r
    rw [at_] at hr
    exact keep_loadSeq h hr
  | @loadEven r k out at_ _ even =>
    have hr := reader r
    rw [at_] at hr
    exact keep_loadSeq h ⟨hr, (even_counter h even).1, by simp, os, [], rfl, by simp, rfl⟩
  | copyWord w at_ => exact keep_copyWord h w at_
  | validated at_ => exact keep_quiet h (by simp) rfl rfl (by simp) trivial
  | @refused r k s1 out copied at_ =>
    have hr := reader r
    rw [at_] at hr
    exact keep_quiet h (by simp) rfl rfl (by simp) hr.1
  | giveUp at_ => exact keep_quiet h (by simp) rfl rfl (by simp) trivial

theorem inv_initial : Inv zero ([] : List (Act n α ρ)) [] (initial zero) := by
  refine ⟨rfl, ⟨rfl, rfl, fun _ => rfl⟩, ?_, fun _ => rfl, fun _ _ => le_rfl, fun _ => le_rfl,
    fun _ => trivial⟩
  intro k hk
  rfl

theorem run_inv (h : run (step zero) (initial zero) as = some (s, os)) : Inv zero as os s :=
  run_history (Inv zero) inv_initial keep h

end Keep

end Listeningway.Snapshot.SeqlockRuns
