/- Listeningway/Snapshot/SeqlockReads
   source: src/audio/snapshot/seqlock_snapshot.h; docs/adr/0002-pipeline-architecture.md
   digest: Validated reads are exact; a returned value is torn exactly when its copy was split. -/

import Listeningway.Snapshot.SeqlockRuns

set_option autoImplicit false
set_option relaxedAutoImplicit false

namespace Listeningway.Snapshot.SeqlockReads

open Listeningway.Lib.Machine
open Listeningway.Snapshot.SeqlockSnapshot
open Listeningway.Snapshot.SeqlockRuns

variable {n : ℕ} {α ρ : Type} [DecidableEq ρ]

/-! ### What a return step knows -/

section Returns

variable {zero : Payload n α} {as : List (Act n α ρ)} {os o₁ o₂ : List (Event n α ρ)}
  {s t : State n α ρ} {a : Act n α ρ} {r : ρ} {s1 : ℕ} {v : Payload n α}

omit [DecidableEq ρ] in
private theorem singleton_split {e e' : Event n α ρ} (h : [e'] = o₁ ++ e :: o₂) :
    e' = e ∧ o₁ = [] ∧ o₂ = [] := by
  cases o₁ with
  | nil => simpa using h
  | cons x o₁ => simp at h

theorem validated_from (hs : step zero s a = some (t, o₁ ++ .validated r s1 v :: o₂)) :
    o₁ = [] ∧ s1 = s.seq ∧ ∃ k copied, s.readers r = .copying k s1 v copied ∧
      ∀ w, copied w = true := by
  have move := step_move hs
  generalize ho : o₁ ++ Event.validated r s1 v :: o₂ = o at move
  cases move with
  | @validated r' k s1' out copied at_ all same =>
    obtain ⟨he, rfl, -⟩ := singleton_split ho.symm
    cases he
    exact ⟨rfl, same, k, copied, at_, all⟩
  | storeEven => cases (singleton_split ho.symm).1
  | loadOdd => cases (singleton_split ho.symm).1
  | loadEven => cases (singleton_split ho.symm).1
  | giveUp => cases (singleton_split ho.symm).1
  | _ => simp at ho

theorem exhausted_from (hs : step zero s a = some (t, o₁ ++ .exhausted r v :: o₂)) :
    a = .giveUp r ∧ ∃ k, s.readers r = .spinning k v := by
  have move := step_move hs
  generalize ho : o₁ ++ Event.exhausted r v :: o₂ = o at move
  cases move with
  | @giveUp r' k out at_ =>
    cases (singleton_split ho.symm).1
    exact ⟨rfl, k, at_⟩
  | storeEven => cases (singleton_split ho.symm).1
  | loadOdd => cases (singleton_split ho.symm).1
  | loadEven => cases (singleton_split ho.symm).1
  | validated => cases (singleton_split ho.symm).1
  | _ => simp at ho

theorem returned_words (h : Inv zero as os s) {e : Event n α ρ}
    (he : (∃ s1, e = .validated r s1 v) ∨ e = .exhausted r v)
    (hs : step zero s a = some (t, o₁ ++ e :: o₂)) :
    ∀ w, v w = nth zero as ((tally as).seen r w) w := by
  have hr := h.reader r
  rcases he with ⟨s1, rfl⟩ | rfl
  · obtain ⟨-, -, k, copied, at_, -⟩ := validated_from hs
    rw [at_] at hr
    exact hr.1
  · obtain ⟨-, k, at_⟩ := exhausted_from hs
    rw [at_] at hr
    exact hr

theorem validated_whole (h : Inv zero as os s)
    (hs : step zero s a = some (t, o₁ ++ .validated r s1 v :: o₂))
    (near : (published os).length < (tally as).loadedAt r + 2 ^ 63) :
    (tally as).loadedAt r = (published os).length ∧
      ∀ w, (tally as).seen r w = (published os).length := by
  obtain ⟨-, same, k, copied, at_, all⟩ := validated_from hs
  have hr := h.reader r
  rw [at_] at hr
  obtain ⟨-, hs1, since, -⟩ := hr
  have even : s.seq % 2 = 0 := by
    rw [← same, hs1, wrap]
    omega
  obtain ⟨counter, stored⟩ := even_counter h even
  have le := h.loadedAt r
  have hload : (tally as).loadedAt r = (published os).length := by
    rw [← same, hs1] at counter
    simp only [wrap] at counter
    omega
  refine ⟨hload, fun w => ?_⟩
  have upper := h.seen r w
  have lower := since w (all w)
  rw [stored w] at upper
  omega

end Returns

/-! ### Validated reads -/

private theorem last_getD (l : List (Payload n α)) (zero : Payload n α) :
    (zero :: l).getD l.length zero = l.getLastD zero := by
  cases l using List.reverseRecOn with
  | nil => rfl
  | append_singleton l v => simp

section Validated

variable {zero : Payload n α} {as : List (Act n α ρ)} {os before after : List (Event n α ρ)}
  {s : State n α ρ} {r : ρ} {s1 : ℕ} {v : Payload n α}

private theorem counter_names_publish
    (h : run (step zero) (initial zero) as = some (s, before ++ .validated r s1 v :: after))
    (noWrap : 2 * (published before).length + 1 < 2 ^ 64) :
    s1 = 2 * (published before).length ∧ (∀ w, v w = nth zero as (published before).length w) ∧
      v = latest zero before ∧ AttemptInv before r s1 (published before).length := by
  obtain ⟨as₁, a, as₂, m, t, os₁, o₁, o₂, os₂, rfl, hm, hs, -, rfl, -⟩ := run_emitted h
  obtain ⟨rfl, -, k, copied, at_, -⟩ := validated_from hs
  rw [List.append_nil] at noWrap ⊢
  have inv := run_inv hm
  obtain ⟨hload, hseen⟩ := validated_whole inv hs (by omega)
  have hr := inv.reader r
  rw [at_, hload] at hr
  obtain ⟨words, hs1, -, attempt⟩ := hr
  have fin := inv.finished _ le_rfl
  have words' : ∀ w, v w = nth zero as₁ (published os₁).length w := by
    intro w
    rw [words w, hseen w]
  refine ⟨?_, ?_, ?_, attempt⟩
  · rw [hs1, wrap]
    omega
  · intro w
    rw [words' w, nth_append _ (published_lt_snapshots inv)]
  · funext w
    rw [words' w, fin, latest, last_getD]

/-- A read that leaves through `s1 == s2` returns publish number `s1 / 2`, the
last one finished when `s1` was loaded, and a reader's numbers never decrease. -/
theorem validated_read_exact
    (h : run (step zero) (initial zero) as = some (s, os))
    (noWrap : 2 * (published os).length + 1 < 2 ^ 64) :
    (∀ before after r s1 v, os = before ++ .validated r s1 v :: after →
      s1 % 2 = 0 ∧ v = nth zero as (s1 / 2) ∧
        ∃ pre mid, before = pre ++ .loaded r s1 :: mid ∧ (∀ x, .loaded r x ∉ mid) ∧
          (published pre).length = s1 / 2 ∧ v = latest zero pre) ∧
    (∀ before mid after r s1 s1' v v',
      os = before ++ .validated r s1 v :: mid ++ .validated r s1' v' :: after →
        s1 / 2 ≤ s1' / 2) := by
  constructor
  · rintro before after r s1 v rfl
    have small : 2 * (published before).length + 1 < 2 ^ 64 := by
      rw [published_append, List.length_append] at noWrap
      omega
    obtain ⟨hs1, words, last, pre, mid, hb, quiet, len⟩ := counter_names_publish h small
    have half : s1 / 2 = (published before).length := by omega
    refine ⟨by omega, funext fun w => by rw [half, words w], pre, mid, hb, quiet, by omega, ?_⟩
    have none_between : published (.loaded r s1 :: mid) = [] := by
      rw [hb, published_append, List.length_append] at len
      exact List.length_eq_zero_iff.mp (by omega)
    rw [last, hb, latest, latest, published_append, none_between, List.append_nil]
  · rintro before mid after r s1 s1' v v' rfl
    simp only [published_append, List.length_append] at noWrap
    have h' := h
    rw [List.append_assoc] at h'
    obtain ⟨hs1, -⟩ := counter_names_publish h' (by omega)
    obtain ⟨hs1', -⟩ := counter_names_publish h (by
      rw [published_append, List.length_append]
      omega)
    rw [published_append, List.length_append] at hs1'
    omega

end Validated

/-! ### Torn reads -/

/-- `read()` of reader `r` returned `v`, on either of its two ways out. -/
def Returned (os : List (Event n α ρ)) (r : ρ) (v : Payload n α) : Prop :=
  (∃ s1, .validated r s1 v ∈ os) ∨ .exhausted r v ∈ os

/-- Every value handed out is the initial or one single published snapshot. -/
def NeverTorn (zero : Payload n α) (as : List (Act n α ρ)) (os : List (Event n α ρ)) : Prop :=
  ∀ r v, Returned os r v → v ∈ snapshots zero as

/-- The last copies of the reader saw every word under the same number of stores. -/
def Whole (t : Tally n ρ) (r : ρ) : Prop :=
  ∀ w w', t.seen r w = t.seen r w'

/-- The order of the steps that `read()` needs: no store of the writer splits a
copy whose reader leaves through the exhausted loop, and none that is validated
after the counter came round. -/
def Undivided (zero : Payload n α) (as : List (Act n α ρ)) : Prop :=
  ∀ as₁ a as₂ s os₁ t o r, as = as₁ ++ a :: as₂ →
    run (step zero) (initial zero) as₁ = some (s, os₁) → step zero s a = some (t, o) →
      (a = .giveUp r ∨
        ((∃ s1 v, .validated r s1 v ∈ o) ∧
          (tally as₁).loadedAt r + 2 ^ 63 ≤ (tally as₁).completed)) →
        Whole (tally as₁) r

/-- No word of a snapshot occurs at the same place of another snapshot. -/
def WordsApart (zero : Payload n α) (as : List (Act n α ρ)) : Prop :=
  ∀ i j w, i < (snapshots zero as).length → j < (snapshots zero as).length →
    nth zero as i w = nth zero as j w → i = j

section Torn

variable {zero : Payload n α} {as : List (Act n α ρ)} {os : List (Event n α ρ)}
  {s : State n α ρ}

omit [DecidableEq ρ] in
private theorem nth_mem {k : ℕ} (hk : k < (snapshots zero as).length) :
    nth zero as k ∈ snapshots zero as := by
  rw [nth, List.getD_eq_getElem _ _ hk]
  exact List.getElem_mem hk

omit [DecidableEq ρ] in
private theorem mem_nth {v : Payload n α} (hv : v ∈ snapshots zero as) :
    ∃ k, k < (snapshots zero as).length ∧ v = nth zero as k := by
  obtain ⟨k, hk, rfl⟩ := List.mem_iff_getElem.mp hv
  exact ⟨k, hk, (List.getD_eq_getElem _ _ hk).symm⟩

private theorem returned_at (h : run (step zero) (initial zero) as = some (s, os)) {r : ρ}
    {v : Payload n α} (hv : Returned os r v) :
    ∃ as₁ a as₂ m os₁ t o, as = as₁ ++ a :: as₂ ∧
      run (step zero) (initial zero) as₁ = some (m, os₁) ∧ step zero m a = some (t, o) ∧
        ((∃ s1, .validated r s1 v ∈ o) ∨ a = .giveUp r) ∧
        ∀ w, v w = nth zero as₁ ((tally as₁).seen r w) w := by
  rcases hv with ⟨s1, hv⟩ | hv
  · obtain ⟨before, after, rfl⟩ := List.append_of_mem hv
    obtain ⟨as₁, a, as₂, m, t, os₁, o₁, o₂, -, rfl, hm, hs, -⟩ := run_emitted h
    exact ⟨as₁, a, as₂, m, os₁, t, _, rfl, hm, hs, .inl ⟨s1, by simp⟩,
      returned_words (run_inv hm) (.inl ⟨s1, rfl⟩) hs⟩
  · obtain ⟨before, after, rfl⟩ := List.append_of_mem hv
    obtain ⟨as₁, a, as₂, m, t, os₁, o₁, o₂, -, rfl, hm, hs, -⟩ := run_emitted h
    obtain ⟨rfl, -⟩ := exhausted_from hs
    exact ⟨as₁, .giveUp r, as₂, m, os₁, t, _, rfl, hm, hs, .inr rfl,
      returned_words (run_inv hm) (.inr rfl) hs⟩

private theorem seen_words_known (h : Inv zero as os s) (r : ρ) (w : Fin n) :
    (tally as).seen r w < (snapshots zero as).length :=
  lt_of_le_of_lt (h.seen r w) (stored_bounds h w).2

private theorem whole_is_snapshot (h : Inv zero as os s) {r : ρ} {v : Payload n α}
    (whole : Whole (tally as) r) (words : ∀ w, v w = nth zero as ((tally as).seen r w) w) :
    v ∈ snapshots zero as := by
  rcases isEmpty_or_nonempty (Fin n) with none | ⟨⟨w₀⟩⟩
  · rw [Subsingleton.elim v zero]
    exact List.mem_cons_self
  · have hv : v = nth zero as ((tally as).seen r w₀) := by
      funext w
      rw [words w, whole w w₀]
    rw [hv]
    exact nth_mem (seen_words_known h r w₀)

theorem never_torn_of_undivided (h : run (step zero) (initial zero) as = some (s, os))
    (undivided : Undivided zero as) : NeverTorn zero as os := by
  intro r v hv
  obtain ⟨as₁, a, as₂, m, os₁, t, o, rfl, hm, hs, exit, words⟩ := returned_at h hv
  have inv := run_inv hm
  have whole : Whole (tally as₁) r := by
    rcases exit with ⟨s1, hmem⟩ | rfl
    · by_cases lapped : (tally as₁).loadedAt r + 2 ^ 63 ≤ (tally as₁).completed
      · exact undivided as₁ a as₂ m os₁ t o r rfl hm hs (.inr ⟨⟨s1, v, hmem⟩, lapped⟩)
      · obtain ⟨o₁, o₂, rfl⟩ := List.append_of_mem hmem
        rw [inv.completed] at lapped
        obtain ⟨-, seen⟩ := validated_whole inv hs (by omega)
        intro w w'
        rw [seen w, seen w']
    · exact undivided as₁ _ as₂ m os₁ t o r rfl hm hs (.inl rfl)
  have known := whole_is_snapshot inv whole words
  rw [snapshots_append]
  exact List.mem_append_left _ known

theorem undivided_of_never_torn (h : run (step zero) (initial zero) as = some (s, os))
    (apart : WordsApart zero as) (whole : NeverTorn zero as os) : Undivided zero as := by
  rintro as₁ a as₂ m os₁ t o r rfl hm hs exit
  have inv := run_inv hm
  have returned : ∃ v, Returned o r v := by
    rcases exit with rfl | ⟨⟨s1, v, hmem⟩, -⟩
    · cases step_move hs with
      | @giveUp _ k out => exact ⟨out, .inr (List.mem_singleton.mpr rfl)⟩
    · exact ⟨v, .inl ⟨s1, hmem⟩⟩
  obtain ⟨v, hv⟩ := returned
  have words : ∀ w, v w = nth zero as₁ ((tally as₁).seen r w) w := by
    rcases hv with ⟨s1, hmem⟩ | hmem <;> obtain ⟨o₁, o₂, rfl⟩ := List.append_of_mem hmem
    · exact returned_words inv (.inl ⟨s1, rfl⟩) hs
    · exact returned_words inv (.inr rfl) hs
  have seenOutside : Returned os r v := by
    obtain ⟨m', p₁, p₂, hm', hr, rfl⟩ := run_append_iff.mp h
    obtain ⟨rfl, rfl⟩ := Prod.mk.inj (Option.some.inj (hm'.symm.trans hm))
    obtain ⟨t', o', os₂, hs', -, rfl⟩ := run_cons_iff.mp hr
    obtain ⟨rfl, rfl⟩ := Prod.mk.inj (Option.some.inj (hs'.symm.trans hs))
    refine hv.imp (fun ⟨s1, hmem⟩ => ⟨s1, ?_⟩) fun hmem => ?_ <;>
      exact List.mem_append_right _ (List.mem_append_left _ hmem)
  obtain ⟨k, hk, rfl⟩ := mem_nth (whole r v seenOutside)
  have named : ∀ w, (tally as₁).seen r w = k := by
    intro w
    have lt := seen_words_known inv r w
    refine apart _ _ w ?_ hk ?_
    · rw [snapshots_append, List.length_append]
      omega
    · rw [nth_append _ lt, ← words w]
  intro w w'
  rw [named w, named w']

/-- `read()` hands out only whole snapshots as long as no returned copy was split;
where the snapshots differ in every word this is also necessary. -/
theorem never_torn_iff_undivided (h : run (step zero) (initial zero) as = some (s, os)) :
    (Undivided zero as → NeverTorn zero as os) ∧
      (WordsApart zero as → (NeverTorn zero as os ↔ Undivided zero as)) :=
  ⟨never_torn_of_undivided h, fun apart =>
    ⟨undivided_of_never_torn h apart, never_torn_of_undivided h⟩⟩

end Torn

/-! ### Runs of a two-word payload -/

/-- The payload with words `a` and `b`. -/
def words (a b : ℕ) : Payload 2 ℕ := fun w => if w = 0 then a else b

/-- One publish and, after it, one read. -/
def publishThenRead : List (Act 2 ℕ Unit) :=
  [.publish (words 5 6), .storeOdd, .storeWord 0, .storeWord 1, .storeEven,
    .read (), .loadSeq (), .copyWord () 0, .copyWord () 1, .validate ()]

theorem publish_then_read :
    ∃ s, run (step (words 0 0)) (initial (words 0 0)) publishThenRead =
      some (s, [.published (words 5 6), .loaded () 2,
        .validated () 2 (Function.update (Function.update (words 0 0) 0 5) 1 6)]) :=
  ⟨_, rfl⟩

/-- The first copy straddles the stores of one publish, the other three attempts
meet an odd counter. -/
def readThroughPublish : List (Act 2 ℕ Unit) :=
  [.read (), .loadSeq (), .copyWord () 0,
    .publish (words 1 1), .storeOdd, .storeWord 0, .storeWord 1,
    .copyWord () 1, .validate (), .loadSeq (), .loadSeq (), .loadSeq (), .giveUp ()]

theorem read_through_publish :
    ∃ s, run (step (words 0 0)) (initial (words 0 0)) readThroughPublish =
      some (s, [.loaded () 0, .loaded () 1, .loaded () 1, .loaded () 1,
        .exhausted () (Function.update (Function.update (words 0 0) 0 0) 1 1)]) :=
  ⟨_, rfl⟩

theorem exhausted_read_torn :
    ¬ ∀ (as : List (Act 2 ℕ Unit)) (os : List (Event 2 ℕ Unit)) (s : State 2 ℕ Unit),
      run (step (words 0 0)) (initial (words 0 0)) as = some (s, os) →
        NeverTorn (words 0 0) as os := by
  intro always
  obtain ⟨s, h⟩ := read_through_publish
  have mixed := always _ _ s h () (Function.update (Function.update (words 0 0) 0 0) 1 1)
    (.inr (by simp))
  simp only [snapshots, readThroughPublish, List.filterMap, List.mem_cons, List.not_mem_nil,
    or_false] at mixed
  rcases mixed with same | same
  · exact absurd (congrFun same 1) (by decide)
  · exact absurd (congrFun same 0) (by decide)

theorem publish_then_read_exact :
    2 / 2 = 1 ∧ ∃ s v, run (step (words 0 0)) (initial (words 0 0)) publishThenRead =
      some (s, [.published (words 5 6), .loaded () 2, .validated () 2 v]) ∧
        v = nth (words 0 0) publishThenRead (2 / 2) := by
  obtain ⟨s, h⟩ := publish_then_read
  obtain ⟨exact_, -⟩ := validated_read_exact h (by decide)
  obtain ⟨-, hv, -⟩ := exact_ [.published (words 5 6), .loaded () 2] [] () 2 _ rfl
  exact ⟨rfl, s, _, h, hv⟩

/-- The copy of the published snapshot is whole when the next publish begins; the other three
attempts meet its odd counter. -/
def readBeforePublish : List (Act 2 ℕ Unit) :=
  [.publish (words 5 6), .storeOdd, .storeWord 0, .storeWord 1, .storeEven,
    .read (), .loadSeq (), .copyWord () 0, .copyWord () 1,
    .publish (words 7 8), .storeOdd, .validate (), .loadSeq (), .storeWord 0, .loadSeq (),
    .loadSeq (), .giveUp ()]

theorem read_before_publish :
    ∃ s, run (step (words 0 0)) (initial (words 0 0)) readBeforePublish =
      some (s, [.published (words 5 6), .loaded () 2, .loaded () 3, .loaded () 3, .loaded () 3,
        .exhausted () (Function.update (Function.update (words 0 0) 0 5) 1 6)]) :=
  ⟨_, rfl⟩

/-- The exhausted read of a whole copy and that of a split one, on either side of the condition. -/
theorem exhausted_reads_apart :
    Undivided (words 0 0) readBeforePublish ∧ ¬ Undivided (words 0 0) readThroughPublish := by
  have apart : ∀ as ∈ [readBeforePublish, readThroughPublish],
      WordsApart (words 0 0) as := by
    have finite : ∀ as ∈ [readBeforePublish, readThroughPublish],
        ∀ i < (snapshots (words 0 0) as).length, ∀ j < (snapshots (words 0 0) as).length, ∀ w,
          nth (words 0 0) as i w = nth (words 0 0) as j w → i = j := by decide
    exact fun as listed i j w hi hj => finite as listed i hi j hj w
  constructor
  · obtain ⟨s, h⟩ := read_before_publish
    refine ((never_torn_iff_undivided h).2 (apart _ (by simp))).mp ?_
    rintro r v (⟨s1, hv⟩ | hv)
    · simp at hv
    · simp only [List.mem_cons, reduceCtorEq, Event.exhausted.injEq, List.not_mem_nil, or_false,
        false_or] at hv
      have exact_ : v = words 5 6 := by
        rw [hv.2]
        decide
      rw [exact_]
      exact List.mem_cons_of_mem _ List.mem_cons_self
  · obtain ⟨s, h⟩ := read_through_publish
    intro undivided
    have mixed := ((never_torn_iff_undivided h).2 (apart _ (by simp))).mpr undivided ()
      (Function.update (Function.update (words 0 0) 0 0) 1 1) (.inr (by simp))
    have none : Function.update (Function.update (words 0 0) 0 0) 1 1 ∉
        snapshots (words 0 0) readThroughPublish := by decide
    exact none mixed

end Listeningway.Snapshot.SeqlockReads
