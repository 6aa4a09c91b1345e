/- Listeningway/Ring/FrameRingRuns
   source: src/audio/ring/frame_ring.h
   digest: The ring conserves its chunks and is an exact FIFO under every interleaving. -/

import Listeningway.Ring.FrameRing
import Mathlib.Algebra.GroupWithZero.Nat
import Mathlib.Data.List.Perm.Basic
import Mathlib.Data.List.Count
import Mathlib.Data.Nat.Bits
import Mathlib.Data.Nat.Log

set_option autoImplicit false
set_option relaxedAutoImplicit false

namespace Listeningway.Ring.FrameRingRuns

open Listeningway.Lib.Machine
open Listeningway.Source.SourceFormat
open Listeningway.Ring.FrameRing

variable {σ : Type} {room : ℕ → ℕ → Bool} {n : ℕ}

/-- Everything one step can do when both queues have room. -/
inductive Move (room : ℕ → ℕ → Bool) (n : ℕ) (s : State σ) :
    Act σ → State σ → List (Event σ) → Prop
  | refuse (chunk : FrameChunk σ) : s.producer = .idle → s.freeList = [] →
      Move room n s (.push chunk) s [.pushed chunk false]
  | take (chunk : FrameChunk σ) {c : ℕ} {free : List ℕ} :
      s.producer = .idle → s.freeList = c :: free →
      Move room n s (.push chunk) { s with freeList := free, producer := .dequeued c chunk } []
  | assign {c : ℕ} {chunk : FrameChunk σ} : s.producer = .dequeued c chunk →
      Move room n s .assign
        { s with heap := Function.update s.heap c chunk, producer := .assigned c chunk } []
  | enqueue {c : ℕ} {chunk : FrameChunk σ} : s.producer = .assigned c chunk →
      room n s.queue.length = true →
      Move room n s .enqueue { s with queue := s.queue ++ [c], producer := .idle }
        [.pushed chunk true]
  | enqueueFull {c : ℕ} {chunk : FrameChunk σ} : s.producer = .assigned c chunk →
      room n s.queue.length = false →
      Move room n s .enqueue { s with producer := .idle } [.pushed chunk false, .destroyed c]
  | popEmpty : s.consumer = .top → s.queue = [] → Move room n s .pop s []
  | pop {c : ℕ} {q : List ℕ} : s.consumer = .top → s.queue = c :: q →
      Move room n s .pop { s with queue := q, consumer := .holding c } [.popped (s.heap c)]
  | process (threw : Bool) {c : ℕ} : s.consumer = .holding c →
      Move room n s (.process threw) { s with consumer := .processed c } [.analysed (s.heap c)]
  | clear {c : ℕ} : s.consumer = .processed c →
      Move room n s .clear
        { s with heap := Function.update s.heap c ⟨[], Format.empty⟩, consumer := .cleared c } []
  | recycle {c : ℕ} : s.consumer = .cleared c → room n s.freeList.length = true →
      Move room n s .recycle { s with freeList := s.freeList ++ [c], consumer := .top } []
  | recycleFull {c : ℕ} : s.consumer = .cleared c → room n s.freeList.length = false →
      Move room n s .recycle { s with consumer := .top } [.destroyed c]

theorem step_move {s t : State σ} {a : Act σ} {o : List (Event σ)}
    (h : step room n s a = some (t, o)) : Move room n s a t o := by
  cases a with
  | push chunk =>
    cases hp : s.producer <;> cases hf : s.freeList <;>
      simp [step, pushStep, drainStep, hp, hf] at h <;> obtain ⟨rfl, rfl⟩ := h
    · exact .refuse chunk hp hf
    · exact .take chunk hp hf
  | assign =>
    cases hp : s.producer <;> simp [step, pushStep, drainStep, hp] at h
    obtain ⟨rfl, rfl⟩ := h
    exact .assign hp
  | enqueue =>
    cases hp : s.producer <;> simp [step, pushStep, drainStep, tryEnqueue, hp] at h
    split at h <;> rename_i hq <;> split at hq <;> rename_i hroom <;> simp at hq <;>
      obtain ⟨rfl, rfl⟩ := Prod.mk.inj (Option.some.inj h) <;> subst hq
    · exact .enqueue hp hroom
    · exact .enqueueFull hp (by simpa using hroom)
  | pop =>
    cases hc : s.consumer <;> cases hq : s.queue <;>
      simp [step, pushStep, drainStep, hc, hq] at h <;> obtain ⟨rfl, rfl⟩ := h
    · exact .popEmpty hc hq
    · exact .pop hc hq
  | process threw =>
    cases hc : s.consumer <;> simp [step, pushStep, drainStep, hc] at h
    obtain ⟨rfl, rfl⟩ := h
    exact .process threw hc
  | clear =>
    cases hc : s.consumer <;> simp [step, pushStep, drainStep, hc] at h
    obtain ⟨rfl, rfl⟩ := h
    exact .clear hc
  | recycle =>
    cases hc : s.consumer <;> simp [step, pushStep, drainStep, tryEnqueue, hc] at h
    split at h <;> rename_i hf <;> split at hf <;> rename_i hroom <;> simp at hf <;>
      obtain ⟨rfl, rfl⟩ := Prod.mk.inj (Option.some.inj h) <;> subst hf
    · exact .recycle hc hroom
    · exact .recycleFull hc (by simpa using hroom)

/-! ### The invariant -/

/-- What the producer's step left in the heap. -/
def ProducerInv (heap : ℕ → FrameChunk σ) : Producer σ → Prop
  | .assigned c chunk => heap c = chunk
  | _ => True

/-- The chunk in the consumer's hand is the last one popped, still as it was pushed. -/
def ConsumerInv (heap : ℕ → FrameChunk σ) (os : List (Event σ)) : Consumer → Prop
  | .holding c => popped os = analysed os ++ [heap c]
  | _ => popped os = analysed os

structure Inv (n : ℕ) (os : List (Event σ)) (s : State σ) : Prop where
  chunks : s.chunks.Perm (List.range n)
  fifo : accepted os = popped os ++ s.queue.map s.heap
  producer : ProducerInv s.heap s.producer
  consumer : ConsumerInv s.heap os s.consumer
  kept : ∀ c, .destroyed c ∉ os

section Events

@[simp] theorem accepted_append (os o : List (Event σ)) :
    accepted (os ++ o) = accepted os ++ accepted o := by
  simp [accepted]

@[simp] theorem popped_append (os o : List (Event σ)) :
    popped (os ++ o) = popped os ++ popped o := by
  simp [popped]

@[simp] theorem analysed_append (os o : List (Event σ)) :
    analysed (os ++ o) = analysed os ++ analysed o := by
  simp [analysed]

/-- Events that say nothing about the consumer leave its invariant alone. -/
theorem consumer_frame {heap heap' : ℕ → FrameChunk σ} {os o : List (Event σ)} {k : Consumer}
    (h : ConsumerInv heap os k) (nopop : popped o = []) (noanalysis : analysed o = [])
    (same : ∀ c ∈ k.hand, heap' c = heap c) : ConsumerInv heap' (os ++ o) k := by
  cases k with
  | holding c =>
    have hc := same c (by simp [Consumer.hand])
    simpa [ConsumerInv, nopop, noanalysis, hc] using h
  | _ => simpa [ConsumerInv, nopop, noanalysis] using h

end Events

section Count

theorem chunks_perm {s t : State σ} (h : s.chunks.Perm (List.range n))
    (same : ∀ c, t.chunks.count c = s.chunks.count c) : t.chunks.Perm (List.range n) := by
  refine List.Perm.trans (List.perm_iff_count.mpr ?_) h
  exact same

theorem chunks_nodup {os : List (Event σ)} {s : State σ} (h : Inv n os s) : s.chunks.Nodup :=
  h.chunks.nodup_iff.mpr List.nodup_range

theorem chunks_length {os : List (Event σ)} {s : State σ} (h : Inv n os s) :
    s.freeList.length + s.queue.length + s.producer.hand.length + s.consumer.hand.length = n := by
  have len := h.chunks.length_eq
  simpa [State.chunks, Nat.add_assoc] using len

theorem producer_alone {os : List (Event σ)} {s : State σ} (h : Inv n os s) {c : ℕ}
    (hc : c ∈ s.producer.hand) : c ∉ s.queue ∧ c ∉ s.consumer.hand := by
  have nodup := chunks_nodup h
  simp only [State.chunks, List.append_assoc, List.nodup_append] at nodup
  constructor
  · intro hq
    exact nodup.2.1.2.2 c hq c (List.mem_append_left _ hc) rfl
  · intro hk
    exact nodup.2.1.2.1.2.2 c hc c hk rfl

theorem consumer_alone {os : List (Event σ)} {s : State σ} (h : Inv n os s) {c : ℕ}
    (hc : c ∈ s.consumer.hand) : c ∉ s.queue ∧ c ∉ s.producer.hand := by
  have nodup := chunks_nodup h
  simp only [State.chunks, List.append_assoc, List.nodup_append] at nodup
  constructor
  · intro hq
    exact nodup.2.1.2.2 c hq c (List.mem_append_right _ hc) rfl
  · intro hk
    exact nodup.2.1.2.1.2.2 c hk c hc rfl

theorem map_update_of_not_mem {heap : ℕ → FrameChunk σ} {q : List ℕ} {c : ℕ}
    (chunk : FrameChunk σ) (hc : c ∉ q) :
    q.map (Function.update heap c chunk) = q.map heap := by
  apply List.map_congr_left
  intro k hk
  have hne : k ≠ c := by
    rintro rfl
    exact hc hk
  simp [hne]

end Count

/-! ### Each step keeps the invariant -/

section Keep

variable {os : List (Event σ)} {s : State σ}

theorem queue_has_room (accepts : ∀ n k, k < n → room n k = true) (h : Inv n os s) {c : ℕ}
    {chunk : FrameChunk σ} (at_ : s.producer = .assigned c chunk) :
    room n s.queue.length = true := by
  have len := chunks_length h
  rw [at_] at len
  simp only [Producer.hand, List.length_singleton] at len
  exact accepts _ _ (by omega)

theorem free_list_has_room (accepts : ∀ n k, k < n → room n k = true) (h : Inv n os s) {c : ℕ}
    (at_ : s.consumer = .cleared c) : room n s.freeList.length = true := by
  have len := chunks_length h
  rw [at_] at len
  simp only [Consumer.hand, List.length_singleton] at len
  exact accepts _ _ (by omega)

theorem keep_assign (h : Inv n os s) {c : ℕ} {chunk : FrameChunk σ}
    (at_ : s.producer = .dequeued c chunk) :
    Inv n os { s with heap := Function.update s.heap c chunk, producer := .assigned c chunk } := by
  have alone := producer_alone h (c := c) (by simp [at_, Producer.hand])
  have frame : ∀ k ∈ s.consumer.hand, Function.update s.heap c chunk k = s.heap k := by
    intro k hk
    have hne : k ≠ c := by
      rintro rfl
      exact alone.2 hk
    simp [hne]
  have consumer := consumer_frame (o := []) h.consumer rfl rfl frame
  rw [List.append_nil] at consumer
  refine ⟨chunks_perm h.chunks fun x => ?_, ?_, by simp [ProducerInv], consumer, h.kept⟩
  · simp [State.chunks, at_, Producer.hand]
  · simpa [map_update_of_not_mem chunk alone.1] using h.fifo

theorem keep_enqueue (h : Inv n os s) {c : ℕ} {chunk : FrameChunk σ}
    (at_ : s.producer = .assigned c chunk) :
    Inv n (os ++ [.pushed chunk true]) { s with queue := s.queue ++ [c], producer := .idle } := by
  have heapc : s.heap c = chunk := by
    have hp := h.producer
    rwa [at_] at hp
  refine ⟨chunks_perm h.chunks fun x => ?_, ?_, trivial,
    consumer_frame h.consumer rfl rfl fun _ _ => rfl, by simpa using h.kept⟩
  · simp only [State.chunks, at_, Producer.hand, List.count_append, List.count_cons,
      List.count_nil]
    omega
  · rw [accepted_append, popped_append, h.fifo]
    simp [accepted, popped, heapc]

theorem keep_pop (h : Inv n os s) {c : ℕ} {q : List ℕ} (top : s.consumer = .top)
    (front : s.queue = c :: q) :
    Inv n (os ++ [.popped (s.heap c)]) { s with queue := q, consumer := .holding c } := by
  have hcon := h.consumer
  rw [top] at hcon
  refine ⟨chunks_perm h.chunks fun x => ?_, ?_, h.producer, ?_, by simpa using h.kept⟩
  · simp only [State.chunks, top, front, Consumer.hand, List.count_append, List.count_cons,
      List.count_nil]
    omega
  · have fifo := h.fifo
    rw [front] at fifo
    simpa [accepted, popped] using fifo
  · simpa [ConsumerInv, popped, analysed] using hcon

theorem keep_clear (h : Inv n os s) {c : ℕ} (at_ : s.consumer = .processed c) :
    Inv n os { s with heap := Function.update s.heap c ⟨[], Format.empty⟩
                      consumer := .cleared c } := by
  have alone := consumer_alone h (c := c) (by simp [at_, Consumer.hand])
  have hcon := h.consumer
  rw [at_] at hcon
  refine ⟨chunks_perm h.chunks fun x => ?_, ?_, ?_, by simpa [ConsumerInv] using hcon, h.kept⟩
  · simp [State.chunks, at_, Consumer.hand]
  · simpa [map_update_of_not_mem _ alone.1] using h.fifo
  · have hp := h.producer
    cases hpc : s.producer with
    | assigned k chunk =>
      rw [hpc] at hp alone
      have hne : k ≠ c := by
        rintro rfl
        exact alone.2 (by simp [Producer.hand])
      simpa [ProducerInv, hne] using hp
    | _ => trivial

theorem keep (accepts : ∀ n k, k < n → room n k = true) (_ : List (Act σ))
    (os : List (Event σ)) (s : State σ) (a : Act σ) (t : State σ) (o : List (Event σ))
    (h : Inv n os s) (hs : step room n s a = some (t, o)) : Inv n (os ++ o) t := by
  cases step_move hs with
  | refuse chunk idle none =>
    refine ⟨h.chunks, by simpa [accepted, popped] using h.fifo, h.producer,
      consumer_frame h.consumer rfl rfl fun _ _ => rfl, by simpa using h.kept⟩
  | @take chunk c free idle front =>
    refine ⟨chunks_perm h.chunks fun x => ?_, by simpa using h.fifo, trivial,
      consumer_frame h.consumer rfl rfl fun _ _ => rfl, by simpa using h.kept⟩
    simp only [State.chunks, idle, front, Producer.hand, List.count_append, List.count_cons,
      List.count_nil]
    omega
  | assign at_ =>
    rw [List.append_nil]
    exact keep_assign h at_
  | enqueue at_ hroom => exact keep_enqueue h at_
  | enqueueFull at_ full =>
    rw [queue_has_room accepts h at_] at full
    cases full
  | popEmpty top empty =>
    rw [List.append_nil]
    exact h
  | pop top front => exact keep_pop h top front
  | @process threw c at_ =>
    have hcon := h.consumer
    rw [at_] at hcon
    refine ⟨chunks_perm h.chunks fun x => ?_, ?_, h.producer, ?_, by simpa using h.kept⟩
    · simp [State.chunks, at_, Consumer.hand]
    · simpa [accepted, popped] using h.fifo
    · simpa [ConsumerInv, popped, analysed] using hcon
  | clear at_ =>
    rw [List.append_nil]
    exact keep_clear h at_
  | @recycle c at_ hroom =>
    have hcon := h.consumer
    rw [at_] at hcon
    refine ⟨chunks_perm h.chunks fun x => ?_, by simpa using h.fifo, h.producer,
      by simpa [ConsumerInv] using hcon, by simpa using h.kept⟩
    simp only [State.chunks, at_, Consumer.hand, List.count_append, List.count_cons,
      List.count_nil]
    omega
  | recycleFull at_ full =>
    rw [free_list_has_room accepts h at_] at full
    cases full

end Keep

/-! ### Whole runs -/

section Runs

variable {as : List (Act σ)} {os : List (Event σ)} {s : State σ}

private theorem prefill_append (accepts : ∀ n k, k < n → room n k = true) (cs : List ℕ) :
    ∀ q, q.length + cs.length ≤ n →
      cs.foldl (fun q c => (tryEnqueue room n q c).1) q = q ++ cs := by
  induction cs with
  | nil => simp
  | cons c cs ih =>
    intro q hq
    rw [List.length_cons] at hq
    have hroom : room n q.length = true := accepts _ _ (by omega)
    have next := ih (q ++ [c]) (by
      rw [List.length_append, List.length_singleton]
      omega)
    simpa [tryEnqueue, hroom] using next

theorem prefill_range (accepts : ∀ n k, k < n → room n k = true) :
    prefill room n (List.range n) = List.range n := by
  have full := prefill_append accepts (List.range n) [] (by simp : 0 + (List.range n).length ≤ n)
  simpa [prefill] using full

theorem inv_initial (accepts : ∀ n k, k < n → room n k = true) :
    Inv n [] (initial room n : State σ) := by
  refine ⟨?_, rfl, trivial, rfl, fun c => List.not_mem_nil⟩
  simp [State.chunks, initial, prefill_range accepts, Producer.hand, Consumer.hand]

theorem run_inv (accepts : ∀ n k, k < n → room n k = true)
    (h : run (step room n) (initial room n) as = some (s, os)) : Inv n os s :=
  run_history (fun _ os s => Inv n os s) (inv_initial accepts) (keep accepts) h

theorem refused_iff (accepts : ∀ n k, k < n → room n k = true) (h : Inv n os s) {a : Act σ}
    {t : State σ} {o : List (Event σ)} (hs : step room n s a = some (t, o)) :
    (∃ chunk, .pushed chunk false ∈ o) ↔ (∃ chunk, a = .push chunk) ∧ s.freeList = [] := by
  cases step_move hs with
  | enqueueFull at_ full =>
    rw [queue_has_room accepts h at_] at full
    cases full
  | recycleFull at_ full =>
    rw [free_list_has_room accepts h at_] at full
    cases full
  | refuse chunk idle none => simp [none]
  | take chunk idle front => simp [front]
  | _ => simp

/-- The ring keeps its `n` chunks, never loses one to a full queue, refuses a push
only on an empty free list, and delivers what it accepted in order and unchanged. -/
theorem frame_ring_conserves (accepts : ∀ n k, k < n → room n k = true)
    (h : run (step room n) (initial room n) as = some (s, os)) :
    (s.chunks.Perm (List.range n) ∧ s.chunks.Nodup) ∧
    ((∀ c chunk, s.producer = .assigned c chunk → (tryEnqueue room n s.queue c).2 = true) ∧
      (∀ c, s.consumer = .cleared c → (tryEnqueue room n s.freeList c).2 = true) ∧
      ∀ c, .destroyed c ∉ os) ∧
    (∀ a t o, step room n s a = some (t, o) →
      ((∃ chunk, .pushed chunk false ∈ o) ↔ (∃ chunk, a = .push chunk) ∧ s.freeList = [])) ∧
    popped os <+: accepted os ∧ accepted os = popped os ++ s.queue.map s.heap ∧
      analysed os <+: popped os := by
  have inv := run_inv accepts h
  refine ⟨⟨inv.chunks, chunks_nodup inv⟩, ⟨?_, ?_, inv.kept⟩, ?_, ⟨_, inv.fifo.symm⟩, inv.fifo, ?_⟩
  · intro c chunk at_
    simp [tryEnqueue, queue_has_room accepts inv at_]
  · intro c at_
    simp [tryEnqueue, free_list_has_room accepts inv at_]
  · intro a t o hs
    exact refused_iff accepts inv hs
  · have hcon := inv.consumer
    cases hc : s.consumer with
    | holding c =>
      rw [hc] at hcon
      exact ⟨_, hcon.symm⟩
    | _ =>
      rw [hc] at hcon
      exact ⟨[], by rw [List.append_nil]; exact hcon.symm⟩

/-- `ReaderWriterQueue(n)` allocates one block of the next power of two and keeps
one of its places free. -/
def blockRoom (n k : ℕ) : Bool := decide (k < 2 ^ Nat.clog 2 (n + 1) - 1)

theorem blockRoom_accepts (n k : ℕ) (h : k < n) : blockRoom n k = true := by
  have block : n + 1 ≤ 2 ^ Nat.clog 2 (n + 1) := Nat.le_pow_clog (by omega) _
  simp only [blockRoom, decide_eq_true_eq]
  omega

/-- Two pushes fill a ring of two; the third is refused until a chunk comes back. -/
def backPressure : List (Act ℕ) :=
  [.push ⟨[1, 2], ⟨48000, 2, .stereo⟩⟩, .assign, .enqueue,
    .push ⟨[3], ⟨48000, 1, .mono⟩⟩, .assign, .pop, .enqueue,
    .push ⟨[4], ⟨48000, 1, .mono⟩⟩, .process true, .clear, .recycle,
    .push ⟨[5], ⟨48000, 1, .mono⟩⟩, .assign, .pop]

theorem back_pressure_conserves :
    ∃ s os, run (step blockRoom 2) (initial blockRoom 2) backPressure = some (s, os) ∧
      s.chunks.Perm (List.range 2) ∧ accepted os = popped os ++ s.queue.map s.heap := by
  have h : ∃ p, run (step blockRoom 2) (initial blockRoom 2) backPressure = some p := by
    apply Option.isSome_iff_exists.mp
    decide
  obtain ⟨⟨s, os⟩, h⟩ := h
  obtain ⟨⟨chunks, -⟩, -, -, -, fifo, -⟩ := frame_ring_conserves blockRoom_accepts h
  exact ⟨s, os, h, chunks, fifo⟩

end Runs

end Listeningway.Ring.FrameRingRuns
