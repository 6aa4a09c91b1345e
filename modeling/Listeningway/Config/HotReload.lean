/- Listeningway/Config/HotReload
   source: src/config/store.cpp; src/config/store.h; src/audio/pipeline/audio_system.cpp
   digest: The settings cache of the DSP thread against publishes from any threads. -/

import Listeningway.Config.Store
import Listeningway.Lib.Machine

set_option autoImplicit false
set_option relaxedAutoImplicit false

namespace Listeningway.Config.HotReload

open Listeningway.Lib.Machine
open Listeningway.Config

variable {K π : Type}

/-- Where `dsp_thread_main` stands: before its first snapshot, between it and the
version read, at the loop head, after a version that differs, in the loop body. -/
inductive Dsp (K : Type) where
  | start
  | snapshotTaken (cachedSettings : Settings K)
  | top (cachedSettings : Settings K) (cachedVersion : ℕ)
  | refreshing (currentVersion : ℕ)
  | body (cachedSettings : Settings K) (cachedVersion : ℕ)

/-- `between p` says that thread `p` has replaced the settings and not yet
incremented the version. -/
structure State (K π : Type) [Field K] [LinearOrder K] where
  store : Store K
  between : π → Bool
  dsp : Dsp K

inductive Act (K π : Type) where
  | replace (p : π) (newSettings : Settings K)
  | bump (p : π)
  | dsp

/-- How many publishes have finished. -/
def bumps (as : List (Act K π)) : ℕ :=
  (as.filter fun
    | .bump _ => true
    | _ => false).length

@[simp] theorem bumps_snoc_bump (as : List (Act K π)) (p : π) :
    bumps (as ++ [.bump p]) = bumps as + 1 := by
  simp [bumps]

@[simp] theorem bumps_snoc_replace (as : List (Act K π)) (p : π) (new : Settings K) :
    bumps (as ++ [.replace p new]) = bumps as := by
  simp [bumps]

@[simp] theorem bumps_snoc_dsp (as : List (Act K π)) : bumps (as ++ [.dsp]) = bumps as := by
  simp [bumps]

variable [Field K] [LinearOrder K]

/-- The next atomic step of `dsp_thread_main`. -/
def dspNext (st : Store K) : Dsp K → Dsp K
  | .start => .snapshotTaken st.snapshot
  | .snapshotTaken cached => .top cached st.version
  | .top cached version => if st.version ≠ version then .refreshing st.version
      else .body cached version
  | .refreshing current => .body st.snapshot current
  | .body cached version => .top cached version

variable [IsStrictOrderedRing K] [DecidableEq π]

def step : Step (State K π) (Act K π) Unit
  | s, .replace p new =>
    if s.between p then none
    else some ({ s with
      store := s.store.replace new
      between := Function.update s.between p true }, [])
  | s, .bump p =>
    if s.between p then
      some ({ s with store := s.store.bump, between := Function.update s.between p false }, [])
    else none
  | s, .dsp => some ({ s with dsp := dspNext s.store s.dsp }, [])

def initial (st : Store K) : State K π where
  store := st
  between _ := false
  dsp := .start

/-- No publish is between its two steps. -/
def Quiescent (s : State K π) : Prop := ∀ p, s.between p = false

/-- At the loop head an unchanged version means unchanged settings. -/
def Fresh (s : State K π) : Prop :=
  ∀ cached version, s.dsp = .top cached version → Quiescent s → version = s.store.version →
    cached = s.store.settings

/-- Every state of the run is fresh. -/
def AlwaysFresh (st : Store K) (as : List (Act K π)) : Prop :=
  ∀ as₁ as₂ s os, as = as₁ ++ as₂ → run step (initial st) as₁ = some (s, os) → Fresh s

/-- When the thread reads its first version, the settings are still those of its
snapshot or a publish has its increment still ahead. -/
def CleanStart (st : Store K) (as : List (Act K π)) : Prop :=
  ∀ as₁ as₂ s os cached, as = as₁ ++ .dsp :: as₂ → run step (initial st) as₁ = some (s, os) →
    s.dsp = .snapshotTaken cached → cached = s.store.settings ∨ ∃ p, s.between p = true

/-! ### The invariant -/

/-- `n` is the number of finished publishes when the cached version was loaded. -/
def Cached (st₀ : Store K) (b : ℕ) (s : State K π) (cached : Settings K) (version : ℕ) : Prop :=
  ∃ n ≤ b, version = (st₀.version + n) % 2 ^ 64 ∧
    (n = b → cached = s.store.settings ∨ ∃ p, s.between p = true)

def DspInv (st₀ : Store K) (b : ℕ) (s : State K π) : Dsp K → Prop
  | .start => True
  | .snapshotTaken _ => True
  | .top cached version => Cached st₀ b s cached version
  | .refreshing current => ∃ n ≤ b, current = (st₀.version + n) % 2 ^ 64
  | .body cached version => Cached st₀ b s cached version

structure Inv (st₀ : Store K) (as : List (Act K π)) (s : State K π) : Prop where
  version : s.store.version = (st₀.version + bumps as) % 2 ^ 64
  dsp : DspInv st₀ (bumps as) s s.dsp

section Keep

variable {st₀ : Store K} {as : List (Act K π)} {s t : State K π}

omit [DecidableEq π] [IsStrictOrderedRing K] in
theorem dspInv_of_between {b : ℕ} {p : π} (h : DspInv st₀ b s s.dsp) (hp : t.between p = true)
    (same : t.dsp = s.dsp) : DspInv st₀ b t t.dsp := by
  rw [same]
  cases hd : s.dsp <;> rw [hd] at h
  case top cached version =>
    obtain ⟨n, hn, hv, -⟩ := h
    exact ⟨n, hn, hv, fun _ => .inr ⟨p, hp⟩⟩
  case body cached version =>
    obtain ⟨n, hn, hv, -⟩ := h
    exact ⟨n, hn, hv, fun _ => .inr ⟨p, hp⟩⟩
  all_goals exact h

omit [DecidableEq π] [IsStrictOrderedRing K] in
theorem dspInv_of_bump {b : ℕ} (h : DspInv st₀ b s s.dsp) (same : t.dsp = s.dsp) :
    DspInv st₀ (b + 1) t t.dsp := by
  rw [same]
  cases hd : s.dsp <;> rw [hd] at h
  case top cached version =>
    obtain ⟨n, hn, hv, -⟩ := h
    exact ⟨n, by omega, hv, fun _ => by omega⟩
  case body cached version =>
    obtain ⟨n, hn, hv, -⟩ := h
    exact ⟨n, by omega, hv, fun _ => by omega⟩
  case refreshing current =>
    obtain ⟨n, hn, hv⟩ := h
    exact ⟨n, by omega, hv⟩
  all_goals exact h

omit [DecidableEq π] [IsStrictOrderedRing K] in
theorem dspInv_next (h : Inv st₀ as s)
    (clean : ∀ cached, s.dsp = .snapshotTaken cached →
      cached = s.store.settings ∨ ∃ p, s.between p = true) :
    DspInv st₀ (bumps as) { s with dsp := dspNext s.store s.dsp } (dspNext s.store s.dsp) := by
  have inv := h.dsp
  cases hd : s.dsp with
  | start => trivial
  | snapshotTaken cached => exact ⟨bumps as, le_rfl, h.version, fun _ => clean cached hd⟩
  | top cached version =>
    rw [hd] at inv
    rw [dspNext]
    split_ifs with differs
    · exact ⟨bumps as, le_rfl, h.version⟩
    · exact inv
  | refreshing current =>
    rw [hd] at inv
    obtain ⟨n, hn, hv⟩ := inv
    exact ⟨n, hn, hv, fun _ => .inl rfl⟩
  | body cached version =>
    rw [hd] at inv
    exact inv

theorem keep {a : Act K π} {o : List Unit} (h : Inv st₀ as s) (hs : step s a = some (t, o))
    (clean : a = .dsp → ∀ cached, s.dsp = .snapshotTaken cached →
      cached = s.store.settings ∨ ∃ p, s.between p = true) :
    Inv st₀ (as ++ [a]) t := by
  cases a with
  | replace p new =>
    obtain ⟨-, he⟩ := Option.ite_none_left_eq_some.mp hs
    obtain ⟨rfl, -⟩ := Prod.mk.inj (Option.some.inj he)
    constructor
    · rw [bumps_snoc_replace]
      exact h.version
    · rw [bumps_snoc_replace]
      exact dspInv_of_between (p := p) h.dsp (by simp) rfl
  | bump p =>
    obtain ⟨-, he⟩ := Option.ite_none_right_eq_some.mp hs
    obtain ⟨rfl, -⟩ := Prod.mk.inj (Option.some.inj he)
    constructor
    · show (s.store.version + 1) % 2 ^ 64 = (st₀.version + bumps (as ++ [.bump p])) % 2 ^ 64
      rw [bumps_snoc_bump, h.version]
      omega
    · rw [bumps_snoc_bump]
      exact dspInv_of_bump h.dsp rfl
  | dsp =>
    obtain ⟨rfl, -⟩ := Prod.mk.inj (Option.some.inj hs)
    constructor
    · rw [bumps_snoc_dsp]
      exact h.version
    · rw [bumps_snoc_dsp]
      exact dspInv_next h (clean rfl)

end Keep

/-! ### Runs -/

section Runs

variable {st₀ : Store K} {as : List (Act K π)} {s : State K π} {os : List Unit}

theorem run_inv (clean : CleanStart st₀ as)
    (h : run step (initial st₀) as = some (s, os)) : Inv st₀ as s := by
  induction as using List.reverseRecOn generalizing s os with
  | nil =>
    obtain ⟨rfl, rfl⟩ := Prod.mk.inj (Option.some.inj h)
    refine ⟨?_, trivial⟩
    show st₀.version = (st₀.version + 0) % 2 ^ 64
    rw [Nat.add_zero, Nat.mod_eq_of_lt st₀.fits]
  | append_singleton as a ih =>
    obtain ⟨m, o₁, o₂, hm, hs, rfl⟩ := run_snoc_iff.mp h
    have clean' : CleanStart st₀ as := by
      rintro as₁ as₂ s' os' cached rfl hr
      exact clean as₁ (as₂ ++ [a]) s' os' cached (by simp) hr
    refine keep (ih clean' hm) hs ?_
    rintro rfl cached hd
    exact clean as [] m o₁ cached rfl hm hd

omit [IsStrictOrderedRing K] [DecidableEq π] in
theorem fresh_of_inv (h : Inv st₀ as s) (few : bumps as < 2 ^ 64) : Fresh s := by
  intro cached version hd quiet same
  have inv := h.dsp
  rw [hd] at inv
  obtain ⟨n, hn, hv, recent⟩ := inv
  have latest : n = bumps as := by
    have hver := h.version
    rw [← same, hv] at hver
    omega
  rcases recent latest with hc | ⟨p, hp⟩
  · exact hc
  · rw [quiet p] at hp
    cases hp

theorem clean_of_always_fresh (h : run step (initial st₀) as = some (s, os))
    (fresh : AlwaysFresh st₀ as) : CleanStart st₀ as := by
  rintro as₁ as₂ m o₁ cached rfl hm hd
  by_contra stale
  rw [not_or, not_exists] at stale
  obtain ⟨changed, quiet⟩ := stale
  have next : run step (initial st₀) (as₁ ++ [.dsp]) =
      some ({ m with dsp := .top cached m.store.version }, o₁ ++ []) :=
    run_snoc_iff.mpr ⟨m, o₁, [], hm, by rw [step, hd]; rfl, rfl⟩
  have settled := fresh (as₁ ++ [.dsp]) as₂ { m with dsp := .top cached m.store.version } _
    (by simp) next cached m.store.version rfl (fun p => by simpa using quiet p) rfl
  exact changed settled

theorem always_fresh_of_clean (clean : CleanStart st₀ as) (few : bumps as < 2 ^ 64) :
    AlwaysFresh st₀ as := by
  rintro as₁ as₂ m o₁ rfl hm
  have clean₁ : CleanStart st₀ as₁ := by
    rintro bs₁ bs₂ s' os' cached rfl hr
    exact clean bs₁ (bs₂ ++ as₂) s' os' cached (by simp) hr
  have fewer : bumps as₁ < 2 ^ 64 := by
    have le : bumps as₁ ≤ bumps (as₁ ++ as₂) := by simp [bumps]
    omega
  exact fresh_of_inv (run_inv clean₁ hm) fewer

/-- The thread has read its first version. -/
def Dsp.started : Dsp K → Bool
  | .start => false
  | .snapshotTaken _ => false
  | _ => true

theorem starts_once {t : State K π} (h : run step s as = some (t, os))
    (started : s.dsp.started = true) : t.dsp.started = true := by
  refine run_invariant (fun s => s.dsp.started = true) started ?_ h
  intro s a t o started hs
  cases a with
  | replace p new =>
    obtain ⟨-, he⟩ := Option.ite_none_left_eq_some.mp hs
    obtain ⟨rfl, -⟩ := Prod.mk.inj (Option.some.inj he)
    exact started
  | bump p =>
    obtain ⟨-, he⟩ := Option.ite_none_right_eq_some.mp hs
    obtain ⟨rfl, -⟩ := Prod.mk.inj (Option.some.inj he)
    exact started
  | dsp =>
    obtain ⟨rfl, -⟩ := Prod.mk.inj (Option.some.inj hs)
    cases hd : s.dsp with
    | start => simp [hd, Dsp.started] at started
    | snapshotTaken cached => simp [hd, Dsp.started] at started
    | top cached version =>
      simp only [dspNext]
      split <;> rfl
    | refreshing current => rfl
    | body cached version => rfl

/-- The cache goes stale exactly when the thread's first version read hides a
publish from it; the counter has to stay short of a full turn. -/
theorem always_fresh_iff (h : run step (initial st₀) as = some (s, os)) :
    (AlwaysFresh st₀ as → CleanStart st₀ as) ∧
      (CleanStart st₀ as ∧ bumps as < 2 ^ 64 → AlwaysFresh st₀ as) :=
  ⟨clean_of_always_fresh h, fun ⟨clean, few⟩ => always_fresh_of_clean clean few⟩

end Runs

/-! ### A publish inside the start-up -/

/-- The default settings with debug logging on. -/
def withLogging : Settings ℚ :=
  { Settings.defaults ℚ with debug := ⟨true, false⟩ }

/-- The whole publish falls between the first snapshot and the first version read. -/
def publishDuringStart : List (Act ℚ Unit) :=
  [.dsp, .replace () withLogging, .bump (), .dsp]

theorem start_misses_publish :
    ¬ ∀ (st : Store ℚ) (as : List (Act ℚ Unit)) (s : State ℚ Unit) (os : List Unit),
      run step (initial st) as = some (s, os) → AlwaysFresh st as := by
  intro always
  have h : ∃ q, run step (initial Store.initial) publishDuringStart = some q ∧
      q.1.dsp = .top (Store.initial (K := ℚ)).settings 2 ∧ Quiescent q.1 ∧
        q.1.store.version = 2 ∧ q.1.store.settings.debug.debugLogging = true :=
    ⟨_, rfl, rfl, fun _ => rfl, rfl, rfl⟩
  obtain ⟨⟨s, os⟩, h, top, quiet, version, logging⟩ := h
  have fresh := always Store.initial publishDuringStart s os h publishDuringStart [] s os
    (List.append_nil _).symm h _ 2 top quiet version.symm
  rw [← fresh] at logging
  revert logging
  decide

/-- The same publish after the start-up is noticed at the next loop head. -/
theorem publish_after_start_noticed :
    AlwaysFresh (Store.initial (K := ℚ))
      [.dsp, .dsp, .replace () withLogging, .bump (), .dsp, .dsp, .dsp] := by
  have h : ∃ q, run step (initial Store.initial)
      ([.dsp, .dsp, .replace () withLogging, .bump (), .dsp, .dsp, .dsp] : List (Act ℚ Unit)) =
        some q := ⟨_, rfl⟩
  obtain ⟨⟨s, os⟩, h⟩ := h
  refine (always_fresh_iff h).2 ⟨?_, by decide⟩
  rintro (_ | ⟨a, _ | ⟨b, as₁⟩⟩) as₂ m o cached has hm hd
  · obtain ⟨rfl, -⟩ := Prod.mk.inj (Option.some.inj hm)
    cases hd
  · obtain ⟨rfl, -⟩ := List.cons.inj has
    obtain ⟨rfl, -⟩ := Prod.mk.inj (Option.some.inj hm)
    cases hd
    exact .inl rfl
  · simp only [List.cons_append, List.cons.injEq] at has
    obtain ⟨rfl, rfl, -⟩ := has
    obtain ⟨m₁, o₁, o₂, h₁, hm, -⟩ := run_cons_iff.mp hm
    obtain ⟨m₂, o₃, o₄, h₂, hm, -⟩ := run_cons_iff.mp hm
    obtain ⟨rfl, -⟩ := Prod.mk.inj (Option.some.inj h₁)
    obtain ⟨rfl, -⟩ := Prod.mk.inj (Option.some.inj h₂)
    have started := starts_once hm rfl
    rw [hd] at started
    cases started

end Listeningway.Config.HotReload
