/-
# Upstream.FrontEnds — the TCP connection, message by message, against the UDP handler

`handle_tcp_query` serves the messages of one connection one after another.  Its decisions
are those of `handle_udp_query`, written out a second time with a loop around them.  Where
no I/O fails and every message parses, it writes one reply per message in order, and each
is the datagram that a UDP client is sent for the same packet and the same response of the
upstream, unless that client would be sent a cut one (`frontEnds_agree`).
-/
import DnsLigase.Upstream.UdpSize

namespace DnsLigase.Upstream

open DnsLigase.Theory DnsLigase.Dns
open DnsLigase.Theory.Bytes DnsLigase.Theory.Case DnsLigase.Theory.Io DnsLigase.Theory.Program

set_option autoImplicit false

variable {ρ : Type}

/-! ## The loop -/

theorem readFrame_shorter {stream packet rest : List UInt8}
    (read : readFrame stream = some (packet, rest)) : rest.length < stream.length := by
  unfold readFrame at read
  split at read
  · cases read
  · dsimp only at read
    split at read
    · cases read
    · cases read
      simp only [List.length_drop]
      omega

/-- `handle_tcp_query`, for a client that sends `stream` and then closes its side.  An end of
the stream inside a length prefix is as good as one in front of it. -/
def handleTcpQuery [UnicodeCase] [RegexEngine ρ] (client : String) (stream : List UInt8) :
    Handler ρ Unit :=
  match _read : readFrame stream with
  | some (packet, rest) => do
      serveTcpMessage client packet
      handleTcpQuery client rest
  | none => if stream.length < 2 then pure () else .fail ⟨.unexpectedEof, "early eof"⟩
termination_by stream.length
decreasing_by exact readFrame_shorter _read

/-! ## Rounds without I/O errors -/

theorem exists_only {responses : List (List UInt8)} (once : responses.length ≤ 1) :
    ∃ resp, ∀ r ∈ responses, r = resp := by
  match responses, once with
  | [], _ => exact ⟨[], nofun⟩
  | [resp], _ => exact ⟨resp, fun r member => List.mem_singleton.mp member⟩

/-- The blocklist stays `bl`, and no I/O fails; the upstream answers what it likes. -/
def calm (bl : Blocklist ρ) : ∀ {γ : Type}, Request ρ γ → γ → Prop
  | _, .readBlocklist, seen => seen = bl
  | _, .udpQuery _, answer => ∃ resp, answer = .ok resp
  | _, .tcpQuery _, answer => ∃ resp, answer = .ok resp
  | _, .sendTo _, answer => answer = .ok ()
  | _, .writeAll _, answer => answer = .ok ()
  | _, .flush, answer => answer = .ok ()
  | _, .readLogQueries, _ => True
  | _, .logQuery _ _ _ _ _, _ => True

theorem reading_of_calm {bl : Blocklist ρ} :
    ∀ {γ : Type} (request : Request ρ γ) (answer : γ),
      calm bl request answer → reading bl request answer
  | _, .readBlocklist, _, same => same
  | _, .udpQuery _, _, _ => trivial
  | _, .tcpQuery _, _, _ => trivial
  | _, .sendTo _, _, _ => trivial
  | _, .writeAll _, _, _ => trivial
  | _, .flush, _, _ => trivial
  | _, .readLogQueries, _, _ => trivial
  | _, .logQuery _ _ _ _ _, _, _ => trivial

def response? : Event (Request ρ) → Option (List UInt8)
  | ⟨.udpQuery _, .ok resp⟩ => some resp
  | ⟨.tcpQuery _, .ok resp⟩ => some resp
  | _ => none

/-- The responses of the upstream. -/
def responses (events : List (Event (Request ρ))) : List (List UInt8) := events.filterMap response?

theorem smooth_of_calm {bl : Blocklist ρ} {resp : List UInt8} {events : List (Event (Request ρ))}
    (answered : Answered (calm bl) events) (only : ∀ r ∈ responses events, r = resp) :
    Answered (smooth bl resp resp) events := by
  intro event member
  have allowed := answered event member
  obtain ⟨request, answer⟩ := event
  cases request with
  | udpQuery query =>
      obtain ⟨r, rfl⟩ := allowed
      exact congrArg Except.ok (only r (List.mem_filterMap.mpr ⟨_, member, rfl⟩))
  | tcpQuery query =>
      obtain ⟨r, rfl⟩ := allowed
      exact congrArg Except.ok (only r (List.mem_filterMap.mpr ⟨_, member, rfl⟩))
  | readBlocklist => exact allowed
  | sendTo datagram => exact allowed
  | writeAll octets => exact allowed
  | flush => exact allowed
  | readLogQueries => trivial
  | logQuery source domain qtype action rule => trivial

theorem responses_of_unasked {events : List (Event (Request ρ))} (unasked : asked events = []) :
    responses events = [] := by
  rw [asked, List.filterMap_eq_nil_iff] at unasked
  rw [responses, List.filterMap_eq_nil_iff]
  intro event member
  have none_ := unasked event member
  obtain ⟨request, answer⟩ := event
  cases request <;> first | rfl | cases none_

section

variable [UnicodeCase] [RegexEngine ρ] {bl : Blocklist ρ} {client : String} {msg : DnsMessage}

omit [UnicodeCase] [RegexEngine ρ] in
theorem logIfEnabled_succeeds (q : DnsQuestion) (action rule : String) :
    Succeeds (calm bl) (logIfEnabled client q action rule) := by
  refine (succeeds_call _).bind fun enabled => ?_
  split
  · exact succeeds_call _
  · exact succeeds_pure ()

omit [UnicodeCase] [RegexEngine ρ] in
theorem logForwarded_succeeds : Succeeds (calm bl) (logForwarded client msg) := by
  refine (succeeds_call _).bind fun enabled => ?_
  split
  · split
    · exact succeeds_pure ()
    · exact succeeds_call _
  · exact succeeds_pure ()

omit [UnicodeCase] [RegexEngine ρ] in
theorem writeTcpMessage_succeeds (reply : List UInt8) :
    Succeeds (calm bl) (writeTcpMessage reply) := by
  refine (succeeds_attempt fun answer wrote => ⟨(), wrote⟩).bind fun _ => ?_
  refine (succeeds_attempt fun answer wrote => ⟨(), wrote⟩).bind fun _ => ?_
  exact succeeds_attempt fun answer wrote => ⟨(), wrote⟩

theorem blockedTarget_succeeds : ∀ answers : List DnsResourceRecord,
    Succeeds (calm bl) (blockedTarget answers)
  | [] => succeeds_pure none
  | rr :: rest => by
      have ih := blockedTarget_succeeds rest
      unfold blockedTarget
      split
      · split
        · exact ih
        · refine (succeeds_call _).bind fun seen => ?_
          split
          · exact succeeds_pure _
          · exact ih
      · exact ih

theorem cloakingCheck_succeeds (resp : List UInt8) :
    Succeeds (calm bl) (cloakingCheck client msg resp) := by
  unfold cloakingCheck
  split
  · exact succeeds_pure false
  · split
    · exact succeeds_pure false
    · refine (blockedTarget_succeeds _).bind fun found => ?_
      split
      · exact succeeds_pure false
      · exact (logIfEnabled_succeeds _ _ _).bind fun _ => succeeds_pure true

theorem deliverTcp_succeeds (resp : List UInt8) :
    Succeeds (calm bl) (deliverTcp client msg resp) := by
  refine (cloakingCheck_succeeds resp).bind fun cloaked => ?_
  split
  · rw [buildNxdomain_eq, ofExcept_ok_bind]
    exact writeTcpMessage_succeeds _
  · exact (writeTcpMessage_succeeds resp).bind fun _ => logForwarded_succeeds

theorem forwardTcp_succeeds : Succeeds (calm bl) (forwardTcp client msg) := by
  rw [forwardTcp, packetToSend_eq, ofExcept_ok_bind]
  exact (succeeds_attempt fun answer answered => answered).bind deliverTcp_succeeds

/-- Without I/O errors a round ends without an error. -/
theorem serveTcpMessage_succeeds {packet : List UInt8} (parsed : DnsMessage.parse packet = .ok msg) :
    Succeeds (calm bl) (serveTcpMessage client packet) := by
  rw [serveTcpMessage, parsed, ofExcept_ok_bind]
  split
  · exact forwardTcp_succeeds
  · refine (succeeds_call _).bind fun seen => ?_
    split
    · rw [buildNxdomain_eq, ofExcept_ok_bind]
      exact (writeTcpMessage_succeeds _).bind fun _ => logIfEnabled_succeeds _ _ _
    · exact (logIfEnabled_succeeds _ _ _).bind fun _ => forwardTcp_succeeds
    · exact forwardTcp_succeeds

/-! ## Rounds -/

theorem handleTcpQuery_frame {packet rest : List UInt8} (short : packet.length ≤ 65535) :
    (handleTcpQuery client (frame packet ++ rest) : Handler ρ Unit) = (do
      serveTcpMessage client packet
      handleTcpQuery client rest) := by
  have read := (framed_iff packet).mpr short rest
  rw [handleTcpQuery]
  split
  · rename_i packet' rest' read'
    cases read.symm.trans read'
    rfl
  · rename_i read'
    cases read.symm.trans read'

theorem handleTcpQuery_nil :
    (handleTcpQuery client [] : Handler ρ Unit) = pure () := by
  rw [handleTcpQuery]
  rfl

/-- **A connection without I/O errors falls into rounds**, one for each message. -/
theorem handleTcpQuery_runs : ∀ {packets : List (List UInt8)} {events : List (Event (Request ρ))}
    {out : Except IoError Unit}, (∀ p ∈ packets, p.length ≤ 65535) →
    (∀ p ∈ packets, ∃ msg, DnsMessage.parse p = .ok msg) →
    Runs (handleTcpQuery client (packets.flatMap frame)) events out →
    Answered (calm bl) events → out = .ok () ∧ ∃ rounds, events = rounds.flatten ∧
      List.Forall₂ (fun packet round => Runs (serveTcpMessage client packet) round (.ok ()) ∧
        Answered (calm bl) round) packets rounds
  | [], events, out, _, _, runs, _ => by
      rw [List.flatMap_nil, handleTcpQuery_nil] at runs
      obtain ⟨rfl, rfl⟩ := runs_pure.mp runs
      exact ⟨rfl, [], rfl, .nil⟩
  | packet :: packets, events, out, short, parses, runs, answered => by
      rw [List.flatMap_cons, handleTcpQuery_frame (short packet List.mem_cons_self)] at runs
      obtain ⟨msg, parsed⟩ := parses packet List.mem_cons_self
      rcases runs_bind.mp runs with ⟨e, failed, rfl⟩ | ⟨⟨⟩, round, later, served, next, rfl⟩
      · obtain ⟨_, ⟨⟩⟩ := serveTcpMessage_succeeds parsed _ _ failed answered
      obtain ⟨answeredRound, answeredLater⟩ := answered_append.mp answered
      obtain ⟨ended, rounds, rfl, each⟩ := handleTcpQuery_runs
        (fun p member => short p (List.mem_cons_of_mem _ member))
        (fun p member => parses p (List.mem_cons_of_mem _ member)) next answeredLater
      exact ⟨ended, round :: rounds, rfl, .cons ⟨served, answeredRound⟩ each⟩

/-- A round has at most one response. -/
theorem responses_once {packet : List UInt8} {round : List (Event (Request ρ))}
    {out : Except IoError Unit} (parsed : DnsMessage.parse packet = .ok msg)
    (runs : Runs (serveTcpMessage client packet) round out)
    (fixed : Answered (reading bl) round) : (responses round).length ≤ 1 := by
  obtain ⟨stopped, passed⟩ := serveTcpMessage_runs [] [] parsed runs fixed
  by_cases screened : Screened bl msg
  · rw [responses_of_unasked (stopped screened).1]
    exact Nat.zero_le 1
  obtain ⟨first, rest, rfl, silent, forward⟩ := passed screened
  have fixed' := (answered_append.mp fixed).2
  rw [responses, List.filterMap_append, ← responses, responses_of_unasked silent.asked,
    List.nil_append]
  rw [forwardTcp, packetToSend_eq, ofExcept_ok_bind] at forward
  rcases runs_attempt_bind.mp forward with ⟨e, rfl, rfl⟩ | ⟨resp, later, rfl, next⟩
  · exact Nat.zero_le 1
  have unasked := (deliverTcp_runs [] [] next (answered_cons.mp fixed').2).1
  exact (congrArg (fun rs => (resp :: rs).length) (responses_of_unasked unasked)).le

/-- A round writes one reply.  It is the datagram that a UDP client is sent for the same packet
and the same response, where the response or the reply fits that client's limit. -/
structure AgreesWithUdp (bl : Blocklist ρ) (packet : List UInt8) (round : List (Event (Request ρ)))
    (reply : List UInt8) : Prop where
  wrote : written round = frame reply
  once : (responses round).length ≤ 1
  agrees : ∀ msg resp, DnsMessage.parse packet = .ok msg → (∀ r ∈ responses round, r = resp) →
    resp.length ≤ clientUdpSize msg ∨ reply.length ≤ clientUdpSize msg →
    ∀ datagrams, ServedUdp bl packet resp datagrams → sent datagrams = [reply]

theorem exists_agreesWithUdp {packet : List UInt8} {round : List (Event (Request ρ))}
    {out : Except IoError Unit} (parsed : DnsMessage.parse packet = .ok msg)
    (runs : Runs (serveTcpMessage client packet) round out) (answered : Answered (calm bl) round) :
    ∃ reply, AgreesWithUdp bl packet round reply := by
  have fixed : Answered (reading bl) round := answered.mono reading_of_calm
  have once := responses_once parsed runs fixed
  -- which response it is only matters where there is one
  have either : ∀ resp, (∀ r ∈ responses round, r = resp) →
      (Refused bl msg resp → written round = frame (nxdomain msg).wire) ∧
        (¬ Refused bl msg resp → written round = frame resp) := fun resp only =>
    serveTcpMessage_smooth parsed runs (smooth_of_calm answered only)
  have agrees : ∀ reply, written round = frame reply → AgreesWithUdp bl packet round reply := by
    intro reply wrote
    refine ⟨wrote, once, fun msg' resp parsed' only fits datagrams served => ?_⟩
    cases parsed.symm.trans parsed'
    obtain ⟨udp, tcp, client', out', rfl, runs', answered'⟩ := served
    obtain ⟨refused, relay⟩ := handleUdpQuery_smooth parsed runs' answered'
    obtain ⟨refused', relay'⟩ := either (finalResponse udp tcp) only
    by_cases nx : Refused bl msg (finalResponse udp tcp)
    · obtain rfl : reply = (nxdomain msg).wire := frame_injective (wrote.symm.trans (refused' nx))
      exact refused nx
    · obtain rfl : reply = finalResponse udp tcp := frame_injective (wrote.symm.trans (relay' nx))
      rw [relay nx, relayed, if_neg (Nat.not_lt.mpr (or_self_iff.mp fits))]
      rfl
  obtain ⟨resp, only⟩ := exists_only once
  by_cases nx : Refused bl msg resp
  · exact ⟨_, agrees _ ((either resp only).1 nx)⟩
  · exact ⟨_, agrees _ ((either resp only).2 nx)⟩

/-- **The two front ends agree**: on one connection every message is answered by one reply, in
order, and each reply agrees with what a UDP client is sent. -/
theorem frontEnds_agree {packets : List (List UInt8)} (short : ∀ p ∈ packets, p.length ≤ 65535)
    (parses : ∀ p ∈ packets, ∃ msg, DnsMessage.parse p = .ok msg)
    {events : List (Event (Request ρ))} {out : Except IoError Unit}
    (runs : Runs (handleTcpQuery client (packets.flatMap frame)) events out)
    (answered : Answered (calm bl) events) :
    out = .ok () ∧ ∃ rounds : List (List (Event (Request ρ)) × List UInt8),
      events = rounds.flatMap Prod.fst ∧
      written events = rounds.flatMap (fun round => frame round.2) ∧
      List.Forall₂ (fun packet round => AgreesWithUdp bl packet round.1 round.2) packets
        rounds := by
  obtain ⟨ended, rounds, rfl, each⟩ := handleTcpQuery_runs short parses runs answered
  refine ⟨ended, ?_⟩
  clear runs answered short
  induction each with
  | nil => exact ⟨[], rfl, rfl, .nil⟩
  | cons served _ ih =>
      obtain ⟨msg, parsed⟩ := parses _ List.mem_cons_self
      obtain ⟨reply, agrees⟩ := exists_agreesWithUdp parsed served.1 served.2
      obtain ⟨rounds, same, wrote, each⟩ :=
        ih fun p member => parses p (List.mem_cons_of_mem _ member)
      refine ⟨(_, reply) :: rounds, ?_, ?_, .cons agrees each⟩
      · rw [List.flatten_cons, List.flatMap_cons, same]
      · rw [List.flatten_cons, written_append, List.flatMap_cons, wrote, agrees.wrote]

end

/-! ## A connection with two messages -/

attribute [local instance] smallCase

theorem calm_smoothly {bl : Blocklist ρ} {udp tcp : List UInt8} :
    ∀ {γ : Type} (request : Request ρ γ), calm bl request (smoothly bl udp tcp request)
  | _, .readBlocklist => rfl
  | _, .udpQuery _ => ⟨udp, rfl⟩
  | _, .tcpQuery _ => ⟨tcp, rfl⟩
  | _, .sendTo _ => rfl
  | _, .writeAll _ => rfl
  | _, .flush => rfl
  | _, .readLogQueries => trivial
  | _, .logQuery _ _ _ _ _ => trivial

/-- Twice the query for `site.com`. -/
theorem frontEnds_agree_site :
    ∃ rounds : List (List (Event (Request Literal)) × List UInt8),
      List.Forall₂ (fun packet round => AgreesWithUdp noList packet round.1 round.2)
        [siteQuery, siteQuery] rounds := by
  have parses : ∀ p ∈ [siteQuery, siteQuery], ∃ msg, DnsMessage.parse p = .ok msg := by
    simpa using ⟨siteMessage, parse_siteQuery⟩
  have agree := @frontEnds_agree Literal _ _ noList "" _ (by decide) parses _ _
    (exec_runs (smoothly noList [] emptyResponse) _) (exec_answered calm_smoothly _)
  obtain ⟨-, rounds, -, -, each⟩ := agree
  exact ⟨rounds, each⟩

end DnsLigase.Upstream
