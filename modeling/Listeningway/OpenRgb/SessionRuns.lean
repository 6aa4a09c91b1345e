/- Listeningway/OpenRgb/SessionRuns
   source: third_party/Youda008-OpenRGB-cppSDK: src/Client.cpp
   digest: No change of the device list is lost, and a list that is returned was the server's. -/

import Listeningway.OpenRgb.Session

/-!
At any time one question is open, or its answer is on the way between announcements, or nothing
is. What was collected so far agrees with a list of the server unless an announcement is flagged
or will be read before the answer.
-/

set_option autoImplicit false
set_option relaxedAutoImplicit false

namespace Listeningway.OpenRgb

open Listeningway.Lib Listeningway.Lib.ByteStream

variable {stray : UInt32 → Bool} {server : Server stray}

/-! ### What a client has collected -/

theorem length_seen (version : UInt32) (roster : Roster stray) :
    (roster.seen version).length = roster.devices.length := by
  rw [Roster.seen, indexed, List.length_map, List.length_zipIdx]

theorem getElem?_seen (version : UInt32) (roster : Roster stray) (i : ℕ) :
    (roster.seen version)[i]? =
      roster.devices[i]?.map (Device.received version (UInt32.ofNat i)) := by
  simp only [Roster.seen, indexed, List.getElem?_map, List.getElem?_zipIdx, Option.map_map,
    zero_add]
  rfl

namespace Core

/-- The lists the server has had since the call began. -/
def since (core : Core server) : List (Roster stray) :=
  (core.past ++ [core.current]).drop core.began

/-- A list of that time, and the one of now if no announcement follows. -/
def Known (core : Core server) (behind : List Reply) (roster : Roster stray) : Prop :=
  roster ∈ core.since ∧ (behind = [] → roster = core.current)

def Collected (core : Core server) (ahead behind : List Reply) (count : UInt32)
    (devices : List Device) : Prop :=
  core.outOfDate = true ∨ ahead ≠ [] ∨ ∃ roster, core.Known behind roster ∧
    count.toNat = roster.devices.length ∧
      devices = (roster.seen core.version).take devices.length

/-- The list that the client holds is the server's, unless an announcement is flagged or on its
way. -/
def Fresh (core : Core server) (replies : List Reply) : Prop :=
  core.outOfDate = true ∨ replies ≠ [] ∨ core.held = core.current.seen core.version

/-- What the call waits to have answered. -/
def question (core : Core server) : Option Request :=
  match core.call with
  | .version => some (.protocolVersion implementedProtocolVersion)
  | .count | .listCount => some .controllerCount
  | .listData _ devices =>
    some (.controllerData (UInt32.ofNat devices.length) core.version)
  | .idle | .closed => none

end Core

namespace Call

/-- What is known of a call when its question is open. -/
def WhenAsked (call : Call) (fresh : Prop) (collected : UInt32 → List Device → Prop) : Prop :=
  match call with
  | .count => fresh
  | .listData total devices => collected total devices
  | _ => True

/-- The reply answers the question of the call, and this is known with it. -/
def WhenAnswered (call : Call) (version : UInt32) (reply : Reply) (fresh : Prop)
    (collected : UInt32 → List Device → Prop) : Prop :=
  match call, reply with
  | .version, .protocolVersion _ => True
  | .count, .controllerCount _ => fresh
  | .listCount, .controllerCount total => collected total []
  | .listData total devices, .controllerData deviceIdx device =>
    collected total (devices ++ [device.received version deviceIdx])
  | _, _ => False

variable {fresh fresh' : Prop} {P Q : UInt32 → List Device → Prop}

theorem WhenAsked.mono {call : Call} (asked : call.WhenAsked fresh P) (still : fresh → fresh')
    (weaker : ∀ total devices, P total devices → Q total devices) :
    call.WhenAsked fresh' Q := by
  cases call with
  | count => exact still asked
  | listData total devices => exact weaker _ _ asked
  | _ => trivial

theorem WhenAnswered.mono {call : Call} {version : UInt32} {reply : Reply}
    (answered : call.WhenAnswered version reply fresh P) (still : fresh → fresh')
    (weaker : ∀ total devices, P total devices → Q total devices) :
    call.WhenAnswered version reply fresh' Q := by
  unfold WhenAnswered at answered ⊢
  split at answered
  · trivial
  · exact still answered
  · exact weaker _ _ answered
  · exact weaker _ _ answered
  · exact answered

end Call

def Notices (replies : List Reply) : Prop := ∀ reply ∈ replies, reply = .deviceListUpdated

def Quiet (requests : List Request) : Prop := ∀ request ∈ requests, request.quiet = true

namespace Session

inductive Phase (s : Session server) : Prop where
  | settled (call : s.core.call = .idle) (quiet : Quiet s.core.requests)
      (notices : Notices s.replies)
      (fresh : s.core.Fresh s.replies)
  | closed (call : s.core.call = .closed) (quiet : Quiet s.core.requests)
      (notices : Notices s.replies)
  | asked (early : List Request) (question : Request)
      (requests : s.core.requests = early ++ [question]) (quiet : Quiet early)
      (waits : s.core.question = some question) (notices : Notices s.replies)
      (ok : s.core.call.WhenAsked (s.core.Fresh s.replies) (s.core.Collected s.replies []))
  | answered (ahead : List Reply) (reply : Reply) (behind : List Reply)
      (replies : s.replies = ahead ++ reply :: behind) (quiet : Quiet s.core.requests)
      (before : Notices ahead) (after : Notices behind)
      (ok : s.core.call.WhenAnswered s.core.version reply (s.core.Fresh (ahead ++ behind))
        (s.core.Collected ahead behind))
  | unanswered (count : UInt32) (devices : List Device)
      (call : s.core.call = .listData count devices) (quiet : Quiet s.core.requests)
      (notices : Notices s.replies)

def Sendable (stray : UInt32 → Bool) (reply : Reply) : Prop :=
  reply.Sound stray ∧ ∀ version, reply.dataSize version < 2 ^ 32

structure Inv (s : Session server) : Prop where
  began : s.core.began ≤ s.core.past.length
  sendable : ∀ reply ∈ s.replies, Sendable stray reply
  phase : Phase s

/-! ### The server -/

theorem mem_since_turn {core : Core server} {roster : Roster stray} (had : roster ∈ core.since)
    (next : server.State) : roster ∈ (core.turn next).since := by
  unfold Core.since Core.turn
  rw [List.drop_append]
  exact List.mem_append_left _ had

theorem current_mem_since {core : Core server} (began : core.began ≤ core.past.length) :
    core.current ∈ core.since := by
  unfold Core.since
  rw [List.drop_append_of_le_length began]
  exact List.mem_append_right _ (List.mem_singleton_self _)

/-- The device that the server has at the next place extends what was collected. -/
theorem collected_next {core : Core server} {replies : List Reply} {count : UInt32}
    {devices : List Device} {device : Device} (began : core.began ≤ core.past.length)
    (collected : core.Collected replies [] count devices)
    (found : core.current.devices[(UInt32.ofNat devices.length).toNat]? = some device) :
    core.Collected replies [] count
      (devices ++ [device.received core.version (UInt32.ofNat devices.length)]) := by
  refine collected.imp_right fun collected => collected.imp_right ?_
  rintro ⟨roster, known, counted, taken⟩
  obtain rfl := known.2 rfl
  have most : devices.length ≤ core.current.devices.length := by
    rw [taken, List.length_take, length_seen]
    exact Nat.min_le_right _ _
  have index : (UInt32.ofNat devices.length).toNat = devices.length :=
    UInt32.toNat_ofNat_of_lt' (lt_of_le_of_lt most core.current.few)
  rw [index] at found
  have seen := getElem?_seen core.version core.current devices.length
  rw [found] at seen
  refine ⟨core.current, ⟨current_mem_since began, fun _ => rfl⟩, counted, ?_⟩
  rw [List.length_append, List.length_singleton, List.take_add_one, seen, ← taken]
  rfl

section Turn

variable {core : Core server} {next : server.State}

theorem began_turn (began : core.began ≤ core.past.length) :
    (core.turn next).began ≤ (core.turn next).past.length :=
  began.trans (by simp [Core.turn])

section Silent

variable (same : server.roster next = core.current)

include same

theorem fresh_silent {replies : List Reply} (fresh : core.Fresh replies) :
    (core.turn next).Fresh replies :=
  fresh.imp_right fun fresh => fresh.imp_right fun fresh =>
    fresh.trans (congrArg (Roster.seen core.version) same.symm)

theorem collected_silent {ahead behind : List Reply} {count : UInt32} {devices : List Device}
    (collected : core.Collected ahead behind count devices) :
    (core.turn next).Collected ahead behind count devices := by
  refine collected.imp_right fun collected => collected.imp_right ?_
  rintro ⟨roster, known, counted, taken⟩
  exact ⟨roster, ⟨mem_since_turn known.1 next, fun none' => (known.2 none').trans same.symm⟩,
    counted, taken⟩

theorem phase_silent {replies : List Reply} (phase : Phase ⟨core, replies⟩) :
    Phase ⟨core.turn next, replies⟩ := by
  cases phase with
  | settled call quiet notices fresh =>
    exact .settled call quiet notices (fresh_silent same fresh)
  | closed call quiet notices => exact .closed call quiet notices
  | asked early question requests quiet waits notices ok =>
    exact .asked early question requests quiet waits notices
      (ok.mono (fresh_silent same) fun _ _ => collected_silent same)
  | answered ahead reply behind replies quiet before after ok =>
    exact .answered ahead reply behind replies quiet before after
      (ok.mono (fresh_silent same) fun _ _ => collected_silent same)
  | unanswered count devices call quiet notices =>
    exact .unanswered count devices call quiet notices

end Silent

theorem collected_notice {ahead behind : List Reply} {count : UInt32}
    {devices : List Device} (collected : core.Collected ahead behind count devices)
    (next : server.State) :
    (core.turn next).Collected ahead (behind ++ [.deviceListUpdated]) count devices := by
  rcases collected with flagged | announced | ⟨roster, known, counted, taken⟩
  · exact .inl flagged
  · exact .inr (.inl announced)
  · refine .inr (.inr ⟨roster, ⟨mem_since_turn known.1 next, fun none' => ?_⟩, counted, taken⟩)
    exact absurd none' (by simp)

theorem fresh_notice (core : Core server) (next : server.State) (replies : List Reply) :
    (core.turn next).Fresh (replies ++ [.deviceListUpdated]) := .inr (.inl (by simp))

theorem notices_concat {replies : List Reply} (notices : Notices replies) :
    Notices (replies ++ [.deviceListUpdated]) := by
  intro reply among
  rcases List.mem_append.mp among with before | last
  · exact notices reply before
  · exact List.mem_singleton.mp last

theorem sendable_notice (stray : UInt32 → Bool) : Sendable stray .deviceListUpdated :=
  ⟨trivial, fun _ => Nat.two_pow_pos 32⟩

theorem phase_announced {replies : List Reply} (phase : Phase ⟨core, replies⟩)
    (next : server.State) : Phase ⟨core.turn next, replies ++ [.deviceListUpdated]⟩ := by
  cases phase with
  | settled call quiet notices fresh =>
    exact .settled call quiet (notices_concat notices) (fresh_notice _ _ _)
  | closed call quiet notices => exact .closed call quiet (notices_concat notices)
  | asked early question requests quiet waits notices ok =>
    refine .asked early question requests quiet waits (notices_concat notices) ?_
    exact ok.mono (fun _ => fresh_notice _ _ _) fun _ _ _ => .inr (.inl (by simp))
  | answered ahead reply behind split quiet before after ok =>
    refine .answered ahead reply (behind ++ [.deviceListUpdated]) ?_ quiet before
      (notices_concat after) (ok.mono (fun _ => ?_) fun _ _ => (collected_notice · next))
    · change replies ++ _ = _
      rw [show replies = _ from split, List.append_assoc, List.cons_append]
    · rw [← List.append_assoc]
      exact fresh_notice _ _ _
  | unanswered count devices call quiet notices =>
    exact .unanswered count devices call quiet (notices_concat notices)

theorem Inv.turn {replies : List Reply} (inv : Inv ⟨core, replies⟩)
    {moved : server.State × List (UInt32 × Reply)}
    (announced : server.Announced core.state moved) :
    Inv ⟨core.turn moved.1, replies ++ moved.2.map Prod.snd⟩ := by
  rcases announced with ⟨same, silent⟩ | ⟨version, notice⟩
  · rw [silent, List.map_nil, List.append_nil]
    exact ⟨began_turn inv.began, inv.sendable, phase_silent same inv.phase⟩
  · rw [notice]
    refine ⟨began_turn inv.began, ?_, phase_announced inv.phase _⟩
    intro reply among
    rcases List.mem_append.mp among with before | last
    · exact inv.sendable reply before
    · rw [List.mem_singleton.mp last]
      exact sendable_notice stray

end Turn

section Documented

variable (documented : server.Documented)

include documented

theorem answered_now {core : Core server} {replies : List Reply} {question : Request}
    (began : core.began ≤ core.past.length) (waits : core.question = some question)
    (ok : core.call.WhenAsked (core.Fresh replies) (core.Collected replies [])) :
    ((∃ count devices, core.call = .listData count devices) ∧
      (server.answer core.state question).2 = []) ∨
    ∃ version reply, (server.answer core.state question).2 = [(version, reply)] ∧
      Sendable stray reply ∧ reply.serialize version = reply.serialize core.version ∧
      core.call.WhenAnswered core.version reply (core.Fresh replies)
        (core.Collected replies []) := by
  have now : core.Known [] core.current := ⟨current_mem_since began, fun _ => rfl⟩
  unfold Core.question at waits
  cases call : core.call with
  | version =>
    rw [call] at waits
    obtain rfl := Option.some.inj waits
    obtain ⟨version, serverVersion, sent⟩ :=
      documented.version core.state implementedProtocolVersion
    exact .inr ⟨version, _, sent, ⟨trivial, fun _ => by simp [Reply.dataSize]⟩, rfl, trivial⟩
  | count =>
    rw [call] at waits ok
    obtain rfl := Option.some.inj waits
    obtain ⟨version, sent⟩ := documented.count core.state
    exact .inr ⟨version, _, sent, ⟨trivial, fun _ => by simp [Reply.dataSize]⟩, rfl, ok⟩
  | listCount =>
    rw [call] at waits
    obtain rfl := Option.some.inj waits
    obtain ⟨version, sent⟩ := documented.count core.state
    exact .inr ⟨version, _, sent, ⟨trivial, fun _ => by simp [Reply.dataSize]⟩, rfl,
      .inr (.inr ⟨core.current, now, UInt32.toNat_ofNat_of_lt' core.current.few, rfl⟩)⟩
  | listData count devices =>
    rw [call] at waits ok
    obtain rfl := Option.some.inj waits
    have sent := documented.data core.state (UInt32.ofNat devices.length) core.version
    cases found : core.current.devices[(UInt32.ofNat devices.length).toNat]? with
    | none =>
      rw [show (server.roster core.state).devices[_]? = none from found] at sent
      exact .inl ⟨⟨count, devices, rfl⟩, sent⟩
    | some device =>
      rw [show (server.roster core.state).devices[_]? = some device from found] at sent
      have among := List.mem_of_getElem? found
      exact .inr ⟨_, _, sent, ⟨core.current.sound _ among, core.current.small _ among⟩, rfl,
        collected_next began ok found⟩
  | idle =>
    rw [call] at waits
    cases waits
  | closed =>
    rw [call] at waits
    cases waits

end Documented

theorem notices_nil : Notices [] := fun _ among => absurd among List.not_mem_nil

theorem quiet_tail {request : Request} {requests : List Request}
    (quiet : Quiet (request :: requests)) : Quiet requests :=
  fun r among => quiet r (List.mem_cons_of_mem request among)

theorem phase_quiet {s : Session server} {request : Request} {requests : List Request}
    (phase : Phase s) (queue : s.core.requests = request :: requests)
    (quiet : request.quiet = true) : Phase ⟨{ s.core with requests }, s.replies⟩ := by
  cases phase with
  | settled call rest notices fresh => exact .settled call (quiet_tail (queue ▸ rest)) notices fresh
  | closed call rest notices => exact .closed call (quiet_tail (queue ▸ rest)) notices
  | asked early question open' rest waits notices ok =>
    cases early with
    | nil =>
      obtain ⟨rfl, -⟩ := List.cons.inj (queue.symm.trans open')
      unfold Core.question at waits
      cases call : s.core.call <;> rw [call] at waits <;> cases waits <;> cases quiet
    | cons first early =>
      obtain ⟨rfl, rfl⟩ := List.cons.inj (queue.symm.trans open')
      exact .asked early question rfl (quiet_tail rest) waits notices ok
  | answered ahead reply behind replies rest before after ok =>
    exact .answered ahead reply behind replies (quiet_tail (queue ▸ rest)) before after ok
  | unanswered count devices call rest notices =>
    exact .unanswered count devices call (quiet_tail (queue ▸ rest)) notices

theorem asked_of_loud {s : Session server} {request : Request} {requests : List Request}
    (phase : Phase s) (queue : s.core.requests = request :: requests)
    (loud : ¬ request.quiet = true) :
    requests = [] ∧ s.core.question = some request ∧ Notices s.replies ∧
      s.core.call.WhenAsked (s.core.Fresh s.replies) (s.core.Collected s.replies []) := by
  have first : ∀ early, Quiet early → early ≠ [] →
      ∀ later, request :: requests ≠ early ++ later := by
    rintro (_ | ⟨r, early⟩) quiet some' later same
    · exact some' rfl
    · obtain ⟨rfl, -⟩ := List.cons.inj same
      exact loud (quiet _ List.mem_cons_self)
  have all : ¬ Quiet s.core.requests := fun quiet =>
    loud (quiet request (by rw [queue]; exact List.mem_cons_self))
  cases phase with
  | settled call quiet notices fresh => exact absurd quiet all
  | closed call quiet notices => exact absurd quiet all
  | answered ahead reply behind replies quiet before after ok => exact absurd quiet all
  | unanswered count devices call quiet notices => exact absurd quiet all
  | asked early question open' quiet waits notices ok =>
    have none' : early = [] := by
      by_contra some'
      exact first early quiet some' _ (queue.symm.trans open')
    rw [queue, none'] at open'
    obtain ⟨rfl, rfl⟩ := List.cons.inj open'
    exact ⟨rfl, waits, notices, ok⟩

theorem Inv.answer (documented : server.Documented) {s : Session server} (inv : s.Inv)
    {core : Core server} {sent : List (UInt32 × Reply)}
    (answer : s.core.answer = some (core, sent)) :
    Inv ⟨core, s.replies ++ sent.map Prod.snd⟩ := by
  unfold Core.answer at answer
  split at answer
  · cases answer
  case h_2 request requests queue =>
    obtain ⟨rfl, rfl⟩ := Prod.mk.inj (Option.some.inj answer)
    by_cases quiet : request.quiet = true
    · have taken : Inv ⟨{ s.core with requests }, s.replies⟩ :=
        ⟨inv.began, inv.sendable, phase_quiet inv.phase queue quiet⟩
      exact taken.turn (documented.quiet _ _ quiet)
    · obtain ⟨rfl, waits, notices, ok⟩ := asked_of_loud inv.phase queue quiet
      have empty : Quiet [] := fun _ among => absurd among List.not_mem_nil
      have same := documented.keeps s.core.state request (eq_false_of_ne_true quiet)
      rcases answered_now documented inv.began waits ok with
        ⟨⟨count, devices, call⟩, none'⟩ | ⟨version, reply, one, sendable, -, ok'⟩
      · rw [none', List.map_nil, List.append_nil]
        exact ⟨began_turn inv.began, inv.sendable, .unanswered count devices call empty notices⟩
      · rw [one]
        refine ⟨began_turn inv.began, ?_, ?_⟩
        · intro m among
          rcases List.mem_append.mp among with before | now
          · exact inv.sendable m before
          · rw [List.mem_singleton.mp now]
            exact sendable
        · have asked : Phase ⟨{ s.core with requests := [] }, s.replies ++ [reply]⟩ :=
            .answered s.replies reply [] rfl empty notices notices_nil
              (by rwa [List.append_nil])
          have still : server.roster (server.answer s.core.state request).1 =
              ({ s.core with requests := [] } : Core server).current := same
          exact phase_silent still asked

/-! ### The client -/

/-- What a call may return: a list that the server had since the call began, and no failure. -/
def Honest (core : Core server) : Output → Prop
  | .deviceList devices =>
    core.held = devices ∧ ∃ roster ∈ core.since, devices = roster.seen core.version
  | .failed _ | .update .unexpectedMessage => False
  | _ => True

/-- What a step of the client keeps, and what it may say. -/
structure Kept (core : Core server) (replies : List Reply) (outputs : List Output) : Prop where
  began : core.began ≤ core.past.length
  phase : Phase ⟨core, replies⟩
  honest : ∀ output ∈ outputs, Honest core output

theorem silent (core : Core server) : ∀ output ∈ ([] : List Output), Honest core output :=
  fun _ among => absurd among List.not_mem_nil

theorem honest_one {core : Core server} {output : Output} (honest : Honest core output) :
    ∀ e ∈ [output], Honest core e := by
  intro e among
  rwa [List.mem_singleton.mp among]

theorem quiet_concat {requests : List Request} {request : Request} (quiet : Quiet requests)
    (last : request.quiet = true) : Quiet (requests ++ [request]) := by
  intro r among
  rcases List.mem_append.mp among with before | now
  · exact quiet r before
  · rwa [List.mem_singleton.mp now]

theorem kept_startList {core : Core server} {replies : List Reply}
    (began : core.began ≤ core.past.length) (quiet : Quiet core.requests)
    (notices : Notices replies) : Kept core.startList replies [] :=
  ⟨began, .asked core.requests _ rfl quiet rfl notices trivial, silent _⟩

theorem kept_nextDevice {core : Core server} {replies : List Reply} {count : UInt32}
    {devices : List Device} (began : core.began ≤ core.past.length) (quiet : Quiet core.requests)
    (notices : Notices replies) (collected : core.Collected [] replies count devices) :
    Kept (core.nextDevice count devices).1 replies (core.nextDevice count devices).2 := by
  unfold Core.nextDevice
  split_ifs with more flagged
  · refine ⟨began, .asked core.requests _ rfl quiet rfl notices ?_, silent _⟩
    rcases collected with flagged | never | ⟨roster, known, counted, taken⟩
    · exact Or.inl flagged
    · exact absurd rfl never
    · by_cases none' : replies = []
      · exact Or.inr (Or.inr ⟨roster, ⟨known.1, fun _ => known.2 none'⟩, counted, taken⟩)
      · exact Or.inr (Or.inl none')
  · exact kept_startList began quiet notices
  · rcases collected with flagged' | never | ⟨roster, known, counted, taken⟩
    · exact absurd flagged' flagged
    · exact absurd rfl never
    · have most : (roster.seen core.version).length ≤ devices.length := by
        rw [length_seen, ← counted]
        exact Nat.le_of_not_lt more
      have all : devices = roster.seen core.version := by
        rwa [List.take_of_length_le most] at taken
      refine ⟨began, .settled rfl quiet notices ?_, honest_one ⟨rfl, roster, known.1, all⟩⟩
      by_cases none' : replies = []
      · exact Or.inr (Or.inr (all.trans (congrArg (Roster.seen core.version) (known.2 none'))))
      · exact Or.inr (Or.inl none')

theorem kept_advance (clientName : Text) {core : Core server} {reply : Reply} {behind : List Reply}
    (began : core.began ≤ core.past.length) (quiet : Quiet core.requests)
    (notices : Notices behind)
    (ok : core.call.WhenAnswered core.version reply (core.Fresh behind)
      (core.Collected [] behind)) :
    Kept (core.advance clientName (reply.received core.version)).1 behind
      (core.advance clientName (reply.received core.version)).2 := by
  unfold Call.WhenAnswered at ok
  split at ok
  case h_1 serverVersion call =>
    simp only [Reply.received, Core.advance, call]
    split_ifs
    · exact ⟨began, .closed rfl quiet notices, honest_one trivial⟩
    · exact ⟨began, .settled rfl (quiet_concat quiet rfl) notices (Or.inl rfl), honest_one trivial⟩
  case h_2 count call =>
    simp only [Reply.received, Core.advance, call]
    exact ⟨began, .settled rfl quiet notices ok, honest_one trivial⟩
  case h_3 count call =>
    simp only [Reply.received, Core.advance, call]
    exact kept_nextDevice began quiet notices ok
  case h_4 count devices deviceIdx device call =>
    simp only [Reply.received, Core.advance, call]
    exact kept_nextDevice began quiet notices ok
  case h_5 => exact ok.elim

theorem notices_tail {reply : Reply} {replies : List Reply} (notices : Notices (reply :: replies)) :
    Notices replies := fun m among => notices m (List.mem_cons_of_mem reply among)

theorem not_answered_by_notice {call : Call} {version : UInt32} {fresh : Prop}
    {collected : UInt32 → List Device → Prop} :
    ¬ call.WhenAnswered version .deviceListUpdated fresh collected := by
  cases call <;> exact id

theorem phase_notice {core : Core server} {replies : List Reply}
    (phase : Phase ⟨core, .deviceListUpdated :: replies⟩) : Phase ⟨core.notice, replies⟩ := by
  cases phase with
  | settled call quiet notices fresh =>
    exact .settled call quiet (notices_tail notices) (Or.inl rfl)
  | closed call quiet notices => exact .closed call quiet (notices_tail notices)
  | asked early question requests quiet waits notices ok =>
    exact .asked early question requests quiet waits (notices_tail notices)
      (ok.mono (fun _ => Or.inl rfl) fun _ _ _ => Or.inl rfl)
  | answered ahead reply behind replies quiet before after ok =>
    cases ahead with
    | nil =>
      obtain ⟨rfl, -⟩ := List.cons.inj replies
      exact (not_answered_by_notice ok).elim
    | cons first ahead =>
      obtain ⟨-, rfl⟩ := List.cons.inj replies
      exact .answered ahead reply behind rfl quiet (notices_tail before) after
        (ok.mono (fun _ => Or.inl rfl) fun _ _ _ => Or.inl rfl)
  | unanswered count devices call quiet notices =>
    exact .unanswered count devices call quiet (notices_tail notices)

/-- A message that is no announcement is the answer the call waits for. -/
theorem head_answers {core : Core server} {reply : Reply} {replies : List Reply}
    (phase : Phase ⟨core, reply :: replies⟩) (message : reply ≠ .deviceListUpdated) :
    Quiet core.requests ∧ Notices replies ∧ core.call.WhenAnswered core.version reply
      (core.Fresh replies) (core.Collected [] replies) := by
  have no : ¬ Notices (reply :: replies) := fun notices =>
    message (notices reply List.mem_cons_self)
  cases phase with
  | settled call quiet notices fresh => exact absurd notices no
  | closed call quiet notices => exact absurd notices no
  | asked early question requests quiet waits notices ok => exact absurd notices no
  | unanswered count devices call quiet notices => exact absurd notices no
  | answered ahead answer behind replies quiet before after ok =>
    cases ahead with
    | nil =>
      obtain ⟨rfl, rfl⟩ := List.cons.inj replies
      exact ⟨quiet, after, ok⟩
    | cons first ahead =>
      obtain ⟨rfl, -⟩ := List.cons.inj replies
      exact absurd (before _ List.mem_cons_self) message

theorem settled_of_idle {core : Core server} {replies : List Reply} (phase : Phase ⟨core, replies⟩)
    (idle : core.call = .idle) : Quiet core.requests ∧ Notices replies ∧ core.Fresh replies := by
  cases phase with
  | settled call quiet notices fresh => exact ⟨quiet, notices, fresh⟩
  | closed call quiet notices => cases idle.symm.trans call
  | unanswered count devices call quiet notices => cases idle.symm.trans call
  | asked early question requests quiet waits notices ok =>
    unfold Core.question at waits
    rw [show core.call = .idle from idle] at waits
    cases waits
  | answered ahead reply behind replies quiet before after ok =>
    rw [show core.call = .idle from idle] at ok
    exact ok.elim

theorem Inv.of_kept {core : Core server} {replies : List Reply} {outputs : List Output}
    (kept : Kept core replies outputs) (sendable : ∀ reply ∈ replies, Sendable stray reply) :
    Inv ⟨core, replies⟩ ∧ ∀ output ∈ outputs, Honest core output :=
  ⟨⟨kept.began, sendable, kept.phase⟩, kept.honest⟩

theorem Inv.head {core : Core server} {reply : Reply} {replies : List Reply}
    (inv : Inv ⟨core, reply :: replies⟩) : ∀ m ∈ replies, Sendable stray m :=
  fun m among => inv.sendable m (List.mem_cons_of_mem reply among)

theorem step_kept (documented : server.Documented) (clientName : Text) {s t : Session server}
    {a : Event server} {os : List Output}
    (inv : s.Inv) (moved : step clientName s a = some (t, os)) :
    t.Inv ∧ ∀ output ∈ os, Honest t.core output := by
  obtain ⟨core, replies⟩ := s
  cases a with
  | act event =>
    obtain ⟨rfl, rfl⟩ := Prod.mk.inj (Option.some.inj moved)
    exact ⟨inv.turn (documented.act core.state event), silent _⟩
  | answer =>
    obtain ⟨⟨core', sent⟩, answer, moved⟩ := Option.map_eq_some_iff.mp moved
    obtain ⟨rfl, rfl⟩ := Prod.mk.inj moved
    exact ⟨inv.answer documented answer, silent _⟩
  | requestDeviceCount =>
    simp only [step] at moved
    split_ifs at moved with idle
    obtain ⟨rfl, rfl⟩ := Prod.mk.inj (Option.some.inj moved)
    obtain ⟨quiet, notices, fresh⟩ := settled_of_idle inv.phase idle
    exact Inv.of_kept ⟨inv.began, .asked core.requests _ rfl quiet rfl notices fresh, silent _⟩
      inv.sendable
  | requestDeviceList =>
    simp only [step] at moved
    split_ifs at moved with idle
    obtain ⟨rfl, rfl⟩ := Prod.mk.inj (Option.some.inj moved)
    obtain ⟨quiet, notices, fresh⟩ := settled_of_idle inv.phase idle
    exact Inv.of_kept ⟨le_rfl, .asked core.requests _ rfl quiet rfl notices trivial, silent _⟩
      inv.sendable
  | send request =>
    simp only [step] at moved
    split_ifs at moved with allowed
    obtain ⟨rfl, rfl⟩ := Prod.mk.inj (Option.some.inj moved)
    obtain ⟨quiet, notices, fresh⟩ := settled_of_idle inv.phase allowed.1
    exact Inv.of_kept ⟨inv.began,
      .settled allowed.1 (quiet_concat quiet allowed.2) notices fresh, silent _⟩ inv.sendable
  | checkForDeviceUpdates arrived =>
    simp only [step] at moved
    split_ifs at moved with idle flagged arrived'
    · obtain ⟨rfl, rfl⟩ := Prod.mk.inj (Option.some.inj moved)
      exact ⟨inv, honest_one trivial⟩
    · unfold Session.check at moved
      obtain ⟨quiet, notices, fresh⟩ := settled_of_idle inv.phase idle
      cases replies with
      | nil => cases moved
      | cons reply replies =>
        obtain rfl := notices reply List.mem_cons_self
        obtain ⟨rfl, rfl⟩ := Prod.mk.inj (Option.some.inj moved)
        exact Inv.of_kept ⟨inv.began, phase_notice inv.phase, honest_one trivial⟩ inv.head
    · obtain ⟨rfl, rfl⟩ := Prod.mk.inj (Option.some.inj moved)
      exact ⟨inv, honest_one trivial⟩
  | receive =>
    simp only [step] at moved
    split_ifs at moved with waits
    unfold Session.receive at moved
    split at moved
    · cases moved
    case h_2 rest queue =>
      obtain rfl : replies = _ := queue
      obtain ⟨rfl, rfl⟩ := Prod.mk.inj (Option.some.inj moved)
      exact Inv.of_kept ⟨inv.began, phase_notice inv.phase, silent _⟩ inv.head
    case h_3 reply rest message queue =>
      obtain rfl : replies = _ := queue
      obtain ⟨rfl, rfl⟩ := Prod.mk.inj (Option.some.inj moved)
      obtain ⟨quiet, notices, ok⟩ := head_answers inv.phase message
      exact Inv.of_kept (kept_advance clientName inv.began quiet notices ok) inv.head

theorem inv_start (state : server.State) (outOfDate : Bool) (version : UInt32)
    (held : List Device) : (start state outOfDate version held).Inv :=
  ⟨le_rfl, fun _ among => absurd among List.not_mem_nil,
    .asked [] _ rfl (fun _ among => absurd among List.not_mem_nil) rfl notices_nil trivial⟩

theorem Honest.not_failure {core : Core server} {output : Output} (honest : Honest core output) :
    output.failure = false := by
  unfold Honest at honest
  split at honest
  · rfl
  · exact honest.elim
  · exact honest.elim
  case h_4 list failed unexpected =>
    unfold Output.failure
    split
    case h_1 status => exact absurd rfl (failed status)
    case h_2 => exact absurd rfl unexpected
    case h_3 => rfl

theorem run_honest (documented : server.Documented) (clientName : Text) {s t : Session server}
    {as : List (Event server)}
    {os : List Output} (inv : s.Inv) (moved : Machine.run (step clientName) s as = some (t, os)) :
    t.Inv ∧ ∀ output ∈ os, output.failure = false := by
  refine Machine.run_history (fun _ os t => t.Inv ∧ ∀ output ∈ os, output.failure = false)
    ⟨inv, fun _ among => absurd among List.not_mem_nil⟩ ?_ moved
  intro as os s a t o ⟨inv, before⟩ moved
  obtain ⟨inv, honest⟩ := step_kept documented clientName inv moved
  refine ⟨inv, fun output among => ?_⟩
  rcases List.mem_append.mp among with early | now
  · exact before output early
  · exact (honest output now).not_failure

end Session

end Listeningway.OpenRgb
