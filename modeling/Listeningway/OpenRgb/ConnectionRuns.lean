/- Listeningway/OpenRgb/ConnectionRuns
   source: third_party/Youda008-OpenRGB-cppSDK: src/Client.cpp
   digest: A connection of bytes runs as the session of messages does. -/

import Listeningway.OpenRgb.Connection

set_option autoImplicit false
set_option relaxedAutoImplicit false

namespace Listeningway.OpenRgb

open Listeningway.Lib Listeningway.Lib.ByteStream

variable {stray : UInt32 → Bool} {server : Server stray}

namespace Connection

/-! ### The bytes of the messages on their way -/

def Queued (version : UInt32) (bytes : List UInt8) (replies : List Reply) : Prop :=
  bytes = replies.flatMap (Reply.serialize version)

/-- The bytes in the socket and on the wire are the messages of the session, but for the header
that was read already. -/
def Carries (version : UInt32) (bytes : List UInt8) (call : Call) (replies : List Reply) :
    Await → Prop
  | .header => Queued version bytes replies
  | .body header => call ≠ .idle ∧ call ≠ .closed ∧ ∃ reply rest behind,
      replies = reply :: behind ∧ reply ≠ .deviceListUpdated ∧ header = reply.header version ∧
        bytes = reply.serializeBody version ++ rest ∧ Queued version rest behind

structure Runs (c : Connection server) (s : Session server) : Prop where
  core : c.core = s.core
  inv : s.Inv
  carries : Carries s.core.version (c.arrived ++ c.wire) s.core.call s.replies c.await

theorem queued_concat {version : UInt32} {bytes sent : List UInt8} {replies : List Reply}
    {messages : List Reply} (queued : Queued version bytes replies)
    (last : Queued version sent messages) :
    Queued version (bytes ++ sent) (replies ++ messages) := by
  unfold Queued at queued last ⊢
  rw [queued, last, List.flatMap_append]

theorem carries_concat {version : UInt32} {bytes sent : List UInt8} {call : Call}
    {replies messages : List Reply} {await : Await}
    (carries : Carries version bytes call replies await) (last : Queued version sent messages) :
    Carries version (bytes ++ sent) call (replies ++ messages) await := by
  cases await with
  | header => exact queued_concat carries last
  | body header =>
    obtain ⟨busy, lives, reply, rest, behind, rfl, message, rfl, rfl, queued⟩ := carries
    exact ⟨busy, lives, reply, rest ++ sent, behind ++ messages, rfl, message, rfl,
      List.append_assoc _ _ _, queued_concat queued last⟩

theorem queued_notices {version : UInt32} {bytes : List UInt8} {replies : List Reply}
    (notices : Notices replies) (queued : Queued version bytes replies) (version' : UInt32) :
    Queued version' bytes replies := by
  unfold Queued at queued ⊢
  rw [queued]
  refine List.flatMap_congr fun reply among => ?_
  rw [notices reply among]
  rfl

theorem queued_announced {state : server.State} {moved : server.State × List (UInt32 × Reply)}
    (announced : server.Announced state moved) (version : UInt32) :
    Queued version (written moved.2) (moved.2.map Prod.snd) := by
  rcases announced with ⟨-, none'⟩ | ⟨version', notice⟩
  · rw [none']
    rfl
  · rw [notice]
    rfl

theorem queued_answer (documented : server.Documented) {s : Session server} (inv : s.Inv)
    {request : Request} {requests : List Request} (queue : s.core.requests = request :: requests) :
    Queued s.core.version (written (server.answer s.core.state request).2)
      ((server.answer s.core.state request).2.map Prod.snd) := by
  by_cases quiet : request.quiet = true
  · exact queued_announced (documented.quiet _ _ quiet) _
  · obtain ⟨-, waits, -, ok⟩ := Session.asked_of_loud inv.phase queue quiet
    rcases Session.answered_now documented inv.began waits ok with
      ⟨-, none'⟩ | ⟨version, reply, one, -, same, -⟩
    · rw [none']
      rfl
    · rw [one]
      exact (List.append_nil _).trans (same.trans (List.append_nil _).symm)

/-! ### One receive -/

theorem front_arrived {arrived wire front rest : List UInt8}
    (same : arrived ++ wire = front ++ rest) (enough : front.length ≤ arrived.length) :
    arrived.take front.length = front ∧ arrived.drop front.length ++ wire = rest := by
  have taken := congrArg (List.take front.length) same
  have left := congrArg (List.drop front.length) same
  rw [List.take_append_of_le_length enough, List.take_left] at taken
  rw [List.drop_append_of_le_length enough, List.drop_left] at left
  exact ⟨taken, left⟩

theorem expects_of_answered {call : Call} {version : UInt32} {reply : Reply} {fresh : Prop}
    {collected : UInt32 → List Device → Prop}
    (ok : call.WhenAnswered version reply fresh collected) :
    call.expects = some reply.messageType := by
  unfold Call.WhenAnswered at ok
  split at ok
  · rfl
  · rfl
  · rfl
  · rfl
  · exact ok.elim

theorem notice_of_messageType {reply : Reply} (type : reply.messageType = .deviceListUpdated) :
    reply = .deviceListUpdated := by
  cases reply <;> first | rfl | cases type

theorem queued_front {version : UInt32} {bytes : List UInt8} {replies : List Reply}
    (queued : Queued version bytes replies) (some' : bytes ≠ []) :
    ∃ reply behind rest, replies = reply :: behind ∧
      bytes = (reply.header version).serialize ++ (reply.serializeBody version ++ rest) ∧
        Queued version rest behind := by
  unfold Queued at queued
  cases replies with
  | nil => exact absurd queued some'
  | cons reply behind =>
    refine ⟨reply, behind, behind.flatMap (Reply.serialize version), rfl, ?_, rfl⟩
    rw [queued, List.flatMap_cons, Reply.serialize, List.append_assoc]

theorem header_front {version : UInt32} {arrived wire : List UInt8} {replies : List Reply}
    (queued : Queued version (arrived ++ wire) replies) (enough : Header.size ≤ arrived.length) :
    ∃ reply behind rest, replies = reply :: behind ∧
      Header.deserialize.run (arrived.take Header.size) = some (reply.header version, []) ∧
        arrived.drop Header.size ++ wire = reply.serializeBody version ++ rest ∧
          Queued version rest behind := by
  have some' : arrived ++ wire ≠ [] := by
    intro none'
    rw [(List.append_eq_nil_iff.mp none').1] at enough
    exact absurd enough (by decide)
  obtain ⟨reply, behind, rest, rfl, bytes, queued⟩ := queued_front queued some'
  have size := Header.length_serialize (reply.header version)
  obtain ⟨taken, left⟩ := front_arrived bytes (size ▸ enough)
  rw [size] at taken left
  refine ⟨reply, behind, rest, rfl, ?_, left, queued⟩
  rw [taken]
  exact (Header.reads_serialize _).whole

variable {clientName : Text} {c t : Connection server} {s : Session server} {os : List Output}

/-- What one step of the connection is to the session. -/
def Simulated (clientName : Text) (s : Session server) (t : Connection server) (os : List Output) :
    Prop :=
  (os = [] ∧ t.Runs s) ∨ ∃ a s', Session.step clientName s a = some (s', os) ∧ t.Runs s'

theorem simulated_of_step (documented : server.Documented) {a : Session.Event server}
    {s' : Session server} (runs : c.Runs s)
    (moved : Session.step clientName s a = some (s', os)) (core : t.core = s'.core)
    (carries : Carries s'.core.version (t.arrived ++ t.wire) s'.core.call s'.replies t.await) :
    Simulated clientName s t os :=
  .inr ⟨a, s', moved, core, (Session.step_kept documented clientName runs.inv moved).1, carries⟩

theorem step_receive_notice {core : Core server} {behind : List Reply}
    (busy : ¬ (core.call = .idle ∨ core.call = .closed)) :
    Session.step clientName ⟨core, .deviceListUpdated :: behind⟩ .receive =
      some (⟨core.notice, behind⟩, []) := if_neg busy

theorem step_receive_reply {core : Core server} {reply : Reply} {behind : List Reply}
    (busy : ¬ (core.call = .idle ∨ core.call = .closed)) (message : reply ≠ .deviceListUpdated) :
    Session.step clientName ⟨core, reply :: behind⟩ .receive =
      some (⟨(core.advance clientName (reply.received core.version)).1, behind⟩,
        (core.advance clientName (reply.received core.version)).2) := by
  refine (if_neg busy).trans ?_
  cases reply <;> first | rfl | exact absurd rfl message

theorem wanted_header (await : c.await = .header) : c.wanted = Header.size := by
  rw [wanted, await]

theorem receiveHeader_of_parsed {header : Header} {rest : List UInt8}
    (parsed : Header.deserialize.run (c.arrived.take c.wanted) = some (header, rest)) :
    c.receiveHeader =
      if header.messageType = .deviceListUpdated then (c.taken c.core.notice .header, [])
      else if c.core.call.expects ≠ some header.messageType then c.fail .invalidReply
      else (c.taken c.core (.body header), []) := by
  unfold receiveHeader
  rw [parsed]

theorem simulated_header (documented : server.Documented) (runs : c.Runs s)
    (busy : ¬ (s.core.call = .idle ∨ s.core.call = .closed))
    (await : c.await = .header) (enough : Header.size ≤ c.arrived.length) :
    Simulated clientName s c.receiveHeader.1 c.receiveHeader.2 := by
  obtain ⟨core, replies⟩ := s
  have carries := runs.carries
  rw [await] at carries
  obtain ⟨reply, behind, rest, rfl, parsed, left, queued⟩ := header_front carries enough
  rw [← wanted_header await] at parsed left
  rw [receiveHeader_of_parsed parsed]
  by_cases notice : reply = .deviceListUpdated
  · subst notice
    have announced : (Reply.header core.version .deviceListUpdated).messageType =
        .deviceListUpdated := rfl
    rw [if_pos announced]
    refine simulated_of_step documented runs (step_receive_notice busy)
      (congrArg Core.notice runs.core) ?_
    rw [show (Reply.deviceListUpdated).serializeBody core.version = [] from rfl,
      List.nil_append] at left
    exact left.trans queued
  · obtain ⟨-, -, ok⟩ := Session.head_answers runs.inv.phase notice
    have expected : c.core.call.expects = some (reply.header core.version).messageType := by
      rw [runs.core]
      exact expects_of_answered ok
    have other : (reply.header core.version).messageType ≠ .deviceListUpdated :=
      fun type => notice (notice_of_messageType type)
    rw [if_neg other, if_neg (not_not.mpr expected)]
    obtain ⟨idle, closed⟩ := not_or.mp busy
    exact .inl ⟨rfl, runs.core, runs.inv, idle, closed, reply, rest, behind, rfl, notice, rfl, left,
      queued⟩

theorem receiveBody_of_parsed {header : Header} {reply : Reply} {rest : List UInt8}
    (parsed : (Reply.deserializeBody c.core.version stray header).run
      (c.arrived.take c.wanted) = some (reply, rest)) :
    c.receiveBody clientName header =
      (c.taken (c.core.advance clientName reply).1 .header,
        (c.core.advance clientName reply).2) := by
  unfold receiveBody
  rw [parsed]

theorem simulated_body (documented : server.Documented) (runs : c.Runs s) {header : Header}
    (await : c.await = .body header)
    (enough : c.wanted ≤ c.arrived.length) :
    Simulated clientName s (c.receiveBody clientName header).1
      (c.receiveBody clientName header).2 := by
  obtain ⟨core, replies⟩ := s
  have carries := runs.carries
  rw [await] at carries
  obtain ⟨idle, closed, reply, rest, behind, rfl, message, rfl, bytes, queued⟩ := carries
  obtain ⟨sound, small⟩ := runs.inv.sendable reply List.mem_cons_self
  have size : c.wanted = (reply.serializeBody core.version).length := by
    rw [Reply.length_serializeBody sound, wanted, await]
    exact UInt32.toNat_ofNat_of_lt' (small core.version)
  obtain ⟨front, left⟩ := front_arrived bytes (size ▸ enough)
  have parsed : (Reply.deserializeBody c.core.version stray (reply.header core.version)).run
      (c.arrived.take c.wanted) = some (reply.received core.version, []) := by
    rw [size, front, runs.core]
    exact (Reply.reads_body sound).whole
  obtain ⟨-, notices, -⟩ := Session.head_answers runs.inv.phase message
  rw [receiveBody_of_parsed parsed, runs.core]
  refine simulated_of_step documented runs
    (step_receive_reply (not_or.mpr ⟨idle, closed⟩) message) rfl ?_
  rw [← size] at left
  have after : Queued core.version (c.arrived.drop c.wanted ++ c.wire) behind := left.trans queued
  exact queued_notices notices after _

/-! ### A step -/

theorem await_header_of_idle (runs : c.Runs s) (idle : s.core.call = .idle) :
    c.await = .header := by
  have carries := runs.carries
  cases await : c.await with
  | header => rfl
  | body header =>
    rw [await] at carries
    exact absurd idle carries.1

theorem simulated_call (documented : server.Documented) {a : Session.Event server}
    {core : Core server} (runs : c.Runs s)
    (idle : s.core.call = .idle) (version : core.version = s.core.version)
    (moved : Session.step clientName s a = some (⟨core, s.replies⟩, os)) :
    Simulated clientName s { c with core } os := by
  have await := await_header_of_idle runs idle
  have carries := runs.carries
  refine simulated_of_step documented runs moved rfl ?_
  dsimp only
  rw [await] at carries ⊢
  rw [version]
  exact carries

theorem simulated_answer (documented : server.Documented) {core : Core server}
    {sent : List (UInt32 × Reply)} (runs : c.Runs s)
    (answer : s.core.answer = some (core, sent)) :
    Simulated clientName s
      { c with core, wire := c.wire ++ written sent } [] := by
  have moved : Session.step clientName s .answer =
      some (⟨core, s.replies ++ sent.map Prod.snd⟩, []) := by
    simp only [Session.step, answer, Option.map_some]
  refine simulated_of_step documented runs moved rfl ?_
  unfold Core.answer at answer
  split at answer
  · cases answer
  case h_2 request requests queue =>
    obtain ⟨rfl, rfl⟩ := Prod.mk.inj (Option.some.inj answer)
    have carries := carries_concat runs.carries (queued_answer documented runs.inv queue)
    rwa [List.append_assoc] at carries

theorem check_of_parsed {deviceIdx size : UInt32} {rest : List UInt8}
    (enough : Header.size ≤ c.arrived.length)
    (parsed : Header.deserialize.run (c.arrived.take Header.size) =
      some (⟨deviceIdx, .deviceListUpdated, size⟩, rest)) :
    c.checkForUpdateMessageArrival =
      ({ c with core := c.core.notice, arrived := c.arrived.drop Header.size },
        [.update .outOfDate]) := by
  unfold checkForUpdateMessageArrival
  rw [if_neg (Nat.not_lt.mpr enough), parsed]

theorem simulated_check (documented : server.Documented) (runs : c.Runs s)
    (idle : s.core.call = .idle)
    (flagged : ¬ s.core.outOfDate = true)
    (clean : c.arrived = [] ∨ Header.size ≤ c.arrived.length) :
    Simulated clientName s c.checkForUpdateMessageArrival.1 c.checkForUpdateMessageArrival.2 := by
  have await := await_header_of_idle runs idle
  have carries := runs.carries
  rw [await] at carries
  rcases clean with none' | enough
  · have same : c.checkForUpdateMessageArrival = (c, [.update .upToDate]) := by
      unfold checkForUpdateMessageArrival
      rw [none', if_pos (by decide), ← none']
    have moved : Session.step clientName s (.checkForDeviceUpdates false) =
        some (s, [.update .upToDate]) := by
      simp only [Session.step]
      rw [if_pos idle, if_neg flagged, if_neg Bool.false_ne_true]
    rw [same]
    exact simulated_of_step documented runs moved runs.core runs.carries
  · obtain ⟨core, replies⟩ := s
    obtain ⟨-, notices, -⟩ := Session.settled_of_idle runs.inv.phase idle
    obtain ⟨reply, behind, rest, rfl, parsed, left, queued⟩ := header_front carries enough
    obtain rfl := notices reply List.mem_cons_self
    have moved : Session.step clientName ⟨core, .deviceListUpdated :: behind⟩
        (.checkForDeviceUpdates true) = some (⟨core.notice, behind⟩, [.update .outOfDate]) := by
      simp only [Session.step]
      rw [if_pos idle, if_neg flagged, if_pos trivial]
      rfl
    rw [check_of_parsed enough parsed]
    refine simulated_of_step documented runs moved (congrArg Core.notice runs.core) ?_
    dsimp only
    rw [await]
    exact left.trans queued

theorem step_simulated (documented : server.Documented) {a : Event server} (runs : c.Runs s)
    (clean : c.Clean a)
    (moved : step clientName c a = some (t, os)) : Simulated clientName s t os := by
  cases a with
  | act event =>
    obtain ⟨rfl, rfl⟩ := Prod.mk.inj (Option.some.inj moved)
    have sent := queued_announced (documented.act s.core.state event) s.core.version
    have carries := carries_concat runs.carries sent
    rw [List.append_assoc] at carries
    refine simulated_of_step documented (a := .act event) runs rfl ?_ ?_
    · exact congrArg (fun core => (core.act event).1) runs.core
    · rw [runs.core]
      exact carries
  | answer =>
    obtain ⟨⟨core, sent⟩, answer, moved⟩ := Option.map_eq_some_iff.mp moved
    obtain ⟨rfl, rfl⟩ := Prod.mk.inj moved
    rw [runs.core] at answer
    exact simulated_answer documented runs answer
  | arrive count =>
    obtain ⟨rfl, rfl⟩ := Prod.mk.inj (Option.some.inj moved)
    refine .inl ⟨rfl, runs.core, runs.inv, ?_⟩
    have carries := runs.carries
    rwa [← List.take_append_drop count c.wire, ← List.append_assoc] at carries
  | requestDeviceCount =>
    simp only [step, runs.core] at moved
    split_ifs at moved with idle
    obtain ⟨rfl, rfl⟩ := Prod.mk.inj (Option.some.inj moved)
    exact simulated_call documented (a := .requestDeviceCount) runs idle rfl (if_pos idle)
  | requestDeviceList =>
    simp only [step, runs.core] at moved
    split_ifs at moved with idle
    obtain ⟨rfl, rfl⟩ := Prod.mk.inj (Option.some.inj moved)
    exact simulated_call documented (a := .requestDeviceList) runs idle rfl (if_pos idle)
  | send request =>
    simp only [step, runs.core] at moved
    split_ifs at moved with allowed
    obtain ⟨rfl, rfl⟩ := Prod.mk.inj (Option.some.inj moved)
    exact simulated_call documented (a := .send request) runs allowed.1 rfl (if_pos allowed)
  | checkForDeviceUpdates =>
    simp only [step, runs.core] at moved
    split_ifs at moved with idle flagged
    · obtain ⟨rfl, rfl⟩ := Prod.mk.inj (Option.some.inj moved)
      have known : Session.step clientName s (.checkForDeviceUpdates false) =
          some (s, [.update .outOfDate]) := by
        simp only [Session.step]
        rw [if_pos idle, if_pos flagged]
      exact simulated_of_step documented runs known runs.core runs.carries
    · obtain ⟨rfl, rfl⟩ := Prod.mk.inj (Option.some.inj moved)
      refine simulated_check documented runs idle flagged (clean.resolve_left ?_)
      rwa [runs.core]
  | receive =>
    simp only [step] at moved
    split_ifs at moved with blocked
    obtain ⟨idle, closed, enough⟩ := not_or.mp blocked |>.imp id not_or.mp
    rw [runs.core] at idle closed
    have enough := Nat.le_of_not_lt enough
    cases await : c.await with
    | header =>
      rw [await] at moved
      obtain ⟨rfl, rfl⟩ := Prod.mk.inj (Option.some.inj moved)
      rw [wanted_header await] at enough
      exact simulated_header documented runs (not_or.mpr ⟨idle, closed⟩) await enough
    | body header =>
      rw [await] at moved
      obtain ⟨rfl, rfl⟩ := Prod.mk.inj (Option.some.inj moved)
      exact simulated_body documented runs await enough
  | timeout => exact clean.elim

/-! ### Runs -/

section Runs

variable (clientName : Text) (state : server.State) (outOfDate : Bool) (version : UInt32)
  (held : List Device)

theorem runs_start :
    (start state outOfDate version held).Runs (Session.start state outOfDate version held) :=
  ⟨rfl, Session.inv_start state outOfDate version held, rfl⟩

theorem run_simulated (documented : server.Documented) {as : List (Event server)}
    {os : List Output} {c : Connection server}
    (moved : Machine.run (step clientName) (start state outOfDate version held) as = some (c, os))
    (clean : Machine.Along (step clientName) Clean (start state outOfDate version held) as) :
    ∃ events s, Machine.run (Session.step clientName)
      (Session.start state outOfDate version held) events = some (s, os) ∧ c.Runs s :=
  Machine.run_simulated Runs Clean (fun _ _ _ _ _ runs clean moved =>
    step_simulated documented runs clean moved) (runs_start state outOfDate version held)
      clean moved

end Runs

/-! ### The result -/

theorem fresh_of_bytes {replies : List Reply} {version : UInt32} {bytes : List UInt8}
    (queued : Queued version bytes replies) (some' : replies ≠ []) : bytes ≠ [] := by
  unfold Queued at queued
  rintro rfl
  obtain ⟨reply, behind, rfl⟩ := List.exists_cons_of_ne_nil some'
  have size := congrArg List.length queued
  rw [List.flatMap_cons, Reply.serialize, List.length_append, List.length_append,
    Header.length_serialize, Header.size, List.length_nil] at size
  omega

/-- A server that presents one list after the other and answers by the one it has. -/
def plainServer (stray : UInt32 → Bool) : Server stray where
  State := Roster stray
  Event := Roster stray
  roster := id
  act _ next := (next, [(0, .deviceListUpdated)])
  answer roster
    | .controllerCount =>
      (roster, [(0, .controllerCount (UInt32.ofNat roster.devices.length))])
    | .controllerData deviceIdx asked =>
      (roster, match roster.devices[deviceIdx.toNat]? with
        | some device => [(asked, .controllerData deviceIdx device)]
        | none => [])
    | .protocolVersion _ => (roster, [(0, .protocolVersion 4)])
    | _ => (roster, [])

theorem plainServer_documented (stray : UInt32 → Bool) : (plainServer stray).Documented where
  act _ _ := .inr ⟨0, rfl⟩
  quiet roster request quiet := by
    cases request <;> first | exact .inl ⟨rfl, rfl⟩ | cases quiet
  keeps roster request _ := by
    cases request <;> rfl
  count _ := ⟨0, rfl⟩
  data _ _ _ := rfl
  version _ _ := ⟨0, 4, rfl⟩

/-- A device of one LED and no modes. -/
def lamp (mark : UInt8) : Device :=
  { idx := 0, type := 11, name := [mark], vendor := [], description := [], version := []
    serial := [], location := [], activeMode := 0, modes := [], zones := []
    leds := [{ idx := 0, parentIdx := 0, name := [0x31], value := 0 }], colors := [⟨0, 0, 0, 0⟩] }

theorem sound_lamp (mark : UInt8) : (lamp mark).Sound fun _ => false where
  name := (by decide : 2 < 2 ^ 16)
  vendor := (by decide : 1 < 2 ^ 16)
  description := (by decide : 1 < 2 ^ 16)
  version := (by decide : 1 < 2 ^ 16)
  serial := (by decide : 1 < 2 ^ 16)
  location := (by decide : 1 < 2 ^ 16)
  numModes := (by decide : 0 < 2 ^ 16)
  numZones := (by decide : 0 < 2 ^ 16)
  numLeds := (by decide : 1 < 2 ^ 16)
  numColors := (by decide : 1 < 2 ^ 16)
  modes _ among := absurd among List.not_mem_nil
  zones _ among := absurd among List.not_mem_nil
  leds led among := by
    rw [List.mem_singleton.mp among]
    exact (by decide : 2 < 2 ^ 16)

def lampRoster (mark : UInt8) : Roster fun _ => false where
  devices := [lamp mark]
  few := (by decide : 1 < 2 ^ 32)
  sound device among := by
    rw [List.mem_singleton.mp among]
    exact sound_lamp mark
  small device among version := by
    rw [List.mem_singleton.mp among]
    exact (by decide : 51 < 2 ^ 32)

end Connection

end Listeningway.OpenRgb
