/-
# Upstream.Serve — `UdpForwarder::run`: every query at once, and reloads in between

`run` starts a task for each datagram, cut to its receive buffer, and for each connection.
The tasks share the blocklist and the logging flag, which SIGHUP replaces at any time, and
no two of them wait for one another.  A history of the server is a list of acts in the order
in which they happened, whatever that order was.

By `Server.Reaches.lives` the history of a task is an unfinished run of its handler, and by
`Upstream.Protocol` it keeps to the handler's protocol (`Reaches.obeys`).  So at any moment
and in any order:

* a datagram has at most one answer, decided by lists that were active since it arrived;
* only queries that such a list let pass are asked upstream, and only those are logged;
* no client is sent more datagrams than it sent, and the upstream is asked at most once per
  datagram over UDP and for one exchange per message over TCP, which sends the query a second
  time where a pooled connection has failed;
* a connection carries whole replies, in the order of its messages.
-/
import DnsLigase.Theory.Tasks
import DnsLigase.Upstream.Protocol
import DnsLigase.Upstream.TcpPool

namespace DnsLigase.Upstream

open DnsLigase.Theory DnsLigase.Theory.Tasks DnsLigase.Dns
open DnsLigase.Theory.Bytes DnsLigase.Theory.Case DnsLigase.Theory.Io DnsLigase.Theory.Program

set_option autoImplicit false

variable {ρ : Type}

/-! ## The server -/

structure SocketAddr where
  ip : String
  port : UInt16
  deriving DecidableEq, Repr

/-- What `run` starts a task for.  A connection is the octets that the client sends on it until
it closes its side or is given up on. -/
inductive Arrival
  | datagram (addr : SocketAddr) (octets : List UInt8)
  | connection (addr : SocketAddr) (stream : List UInt8)

/-- The buffer of the UDP loop. -/
def recvBufferSize : Nat := 4096

/-- What the tasks share. -/
structure Shared (ρ : Type) where
  blocklist : Blocklist ρ
  logQueries : Bool

/-- What a reload writes of it, under one lock each. -/
inductive Swap (ρ : Type)
  | blocklist (bl : Blocklist ρ)
  | logQueries (enabled : Bool)

def Swap.apply : Swap ρ → Shared ρ → Shared ρ
  | .blocklist bl, w => { w with blocklist := bl }
  | .logQueries enabled, w => { w with logQueries := enabled }

/-- Reads are answered by the shared state, the rest by anyone. -/
def Shared.admits (w : Shared ρ) : ∀ {γ : Type}, Request ρ γ → γ → Prop
  | _, .readBlocklist, seen => seen = w.blocklist
  | _, .readLogQueries, enabled => enabled = w.logQueries
  | _, .logQuery _ _ _ _ _, _ => True
  | _, .udpQuery _, _ => True
  | _, .tcpQuery _, _ => True
  | _, .sendTo _, _ => True
  | _, .writeAll _, _ => True
  | _, .flush, _ => True

def Arrival.addr : Arrival → SocketAddr
  | .datagram addr _ => addr
  | .connection addr _ => addr

/-- The messages that an arrival brings. -/
def Arrival.packets : Arrival → List (List UInt8)
  | .datagram _ octets => [octets.take recvBufferSize]
  | .connection _ stream => messages stream

abbrev History (ρ : Type) := List (Tasks.Act (Request ρ) Arrival (Swap ρ))

section

variable [UnicodeCase] [RegexEngine ρ]

def Arrival.task : Arrival → Handler ρ Unit
  | .datagram addr octets => handleUdpQuery addr.ip (octets.take recvBufferSize)
  | .connection addr stream => handleTcpQuery addr.ip stream

variable (ρ) in
/-- `UdpForwarder::run`, with reloads beside it. -/
def udpForwarder : Server (Request ρ) IoError Arrival (Shared ρ) (Swap ρ) where
  code := Arrival.task
  admits := Shared.admits
  move := Swap.apply

def Arrival.protocol (arrival : Arrival) (msg : DnsMessage) :
    List (Event (Request ρ)) → Event (Request ρ) → Prop :=
  match arrival with
  | .datagram addr _ => UdpProtocol addr.ip msg
  | .connection addr _ => TcpProtocol addr.ip msg

/-- An event of a task: one that the protocol allows for one of its messages, after what has
happened since that message was read. -/
def Arrival.Keeps (arrival : Arrival) (past : List (Event (Request ρ))) (event : Event (Request ρ)) :
    Prop :=
  ∃ packet ∈ arrival.packets, ∃ msg, DnsMessage.parse packet = .ok msg ∧
    ∃ before round, past = before ++ round ∧ arrival.protocol msg round event

omit [UnicodeCase] [RegexEngine ρ] in
theorem always_shift {P : List (Event (Request ρ)) → Event (Request ρ) → Prop}
    {before : List (Event (Request ρ))} : ∀ {past events : List (Event (Request ρ))},
    Always P past events →
      Always (fun past' event => ∃ before round, past' = before ++ round ∧ P round event)
        (before ++ past) events
  | _, [], _ => trivial
  | past, event :: rest, ⟨now, later⟩ => by
      refine ⟨⟨before, past, rfl, now⟩, ?_⟩
      rw [List.append_assoc]
      exact always_shift later

theorem Serves.keeps {addr : SocketAddr} {stream : List UInt8} {events : List (Event (Request ρ))}
    (serves : Serves addr.ip stream events) :
    ∀ before, Always (fun past event => ∃ packet ∈ messages stream, ∃ msg,
      DnsMessage.parse packet = .ok msg ∧
        ∃ before round, past = before ++ round ∧ TcpProtocol addr.ip msg round event) before events := by
  have lift : ∀ {stream packet rest : List UInt8} {msg : DnsMessage}
      {round : List (Event (Request ρ))}, readFrame stream = some (packet, rest) →
      DnsMessage.parse packet = .ok msg → Always (TcpProtocol addr.ip msg) [] round →
      ∀ before, Always (fun past event => ∃ packet ∈ messages stream, ∃ msg,
        DnsMessage.parse packet = .ok msg ∧
          ∃ before round, past = before ++ round ∧ TcpProtocol addr.ip msg round event) before
            round := by
    intro stream packet rest msg round read parsed always before
    have shifted := @always_shift ρ _ before [] round always
    rw [List.append_nil] at shifted
    refine shifted.mono fun past event allowed => ⟨packet, ?_, msg, parsed, allowed⟩
    rw [messages_of_read read]
    exact List.mem_cons_self
  induction serves with
  | idle stream => exact fun _ => trivial
  | unfinished read parsed always => exact lift read parsed always
  | round read parsed always _ _ ih =>
      intro before
      refine always_append.mpr ⟨lift read parsed always before, (ih _).mono ?_⟩
      rintro past event ⟨packet, member, allowed⟩
      refine ⟨packet, ?_, allowed⟩
      rw [messages_of_read read]
      exact List.mem_cons_of_mem _ member

variable {w₀ : Shared ρ} {acts : History ρ} {tasks : List (Arrival × Handler ρ Unit)} {i : Nat}
  {arrival : Arrival} {left : Handler ρ Unit}

theorem datagram_obeys {addr : SocketAddr} {octets : List UInt8} {msg : DnsMessage}
    (reaches : (udpForwarder ρ).Reaches w₀ acts tasks)
    (at_ : tasks[i]? = some (.datagram addr octets, left))
    (parsed : DnsMessage.parse (octets.take recvBufferSize) = .ok msg) :
    Always (UdpProtocol addr.ip msg) [] (eventsOf i acts) := by
  obtain ⟨before, since, lives, -, resumes⟩ := reaches.lives at_
  rw [lives.eventsOf]
  exact (handleUdpQuery_obeys (ρ := ρ) addr.ip parsed).resumes
    (smoothly w₀.blocklist [] []) resumes

theorem connection_serves {addr : SocketAddr} {stream : List UInt8}
    (reaches : (udpForwarder ρ).Reaches w₀ acts tasks)
    (at_ : tasks[i]? = some (.connection addr stream, left)) :
    Serves addr.ip stream (eventsOf i acts) := by
  obtain ⟨before, since, lives, -, resumes⟩ := reaches.lives at_
  rw [lives.eventsOf]
  exact handleTcpQuery_serves (smoothly w₀.blocklist [] []) addr.ip stream resumes

/-- A datagram that does not parse is dropped. -/
theorem datagram_dropped {addr : SocketAddr} {octets : List UInt8} {e : IoError}
    (reaches : (udpForwarder ρ).Reaches w₀ acts tasks)
    (at_ : tasks[i]? = some (.datagram addr octets, left))
    (failed : DnsMessage.parse (octets.take recvBufferSize) = .error e) :
    eventsOf i acts = [] := by
  obtain ⟨before, since, lives, -, resumes⟩ := reaches.lives at_
  have resumes : Resumes (handleUdpQuery addr.ip (octets.take recvBufferSize))
    (eventsOf i since) left := resumes
  rw [lives.eventsOf]
  rw [handleUdpQuery, failed] at resumes
  generalize eventsOf i since = events at resumes
  cases resumes with
  | refl => rfl

/-- **Each task keeps to the protocol of its handler**, in any order of all acts. -/
theorem task_obeys (reaches : (udpForwarder ρ).Reaches w₀ acts tasks)
    (at_ : tasks[i]? = some (arrival, left)) : Always arrival.Keeps [] (eventsOf i acts) := by
  cases arrival with
  | connection addr stream => exact (connection_serves reaches at_).keeps []
  | datagram addr octets =>
      cases parsed : DnsMessage.parse (octets.take recvBufferSize) with
      | error e =>
          rw [datagram_dropped reaches at_ parsed]
          trivial
      | ok msg =>
          refine (datagram_obeys reaches at_ parsed).mono fun past event allowed => ?_
          exact ⟨_, List.mem_singleton_self _, msg, parsed, [], past, rfl, allowed⟩

/-! ## Answers -/

/-- The lists that have been active since task `i` was started. -/
def activeSince (w₀ : Shared ρ) (i : Nat) (acts : History ρ) : List (Blocklist ρ) :=
  ((udpForwarder ρ).statesSince w₀ i acts).map Shared.blocklist

theorem mem_activeSince (reaches : (udpForwarder ρ).Reaches w₀ acts tasks)
    (at_ : tasks[i]? = some (arrival, left)) {bl : Blocklist ρ} (read : bl ∈ seen (eventsOf i acts)) :
    bl ∈ activeSince w₀ i acts := by
  obtain ⟨⟨request, answer⟩, member, same⟩ := List.mem_filterMap.mp read
  obtain ⟨w, among, admits⟩ := reaches.admitted_since at_ _ member
  cases request <;> cases same
  obtain rfl : _ = w.blocklist := admits
  exact List.mem_map_of_mem among

/-- One of `lists` blocks what the query asks for or a target of one of the `responses`. -/
def BlockedAmong (lists : List (Blocklist ρ)) (responses : List (List UInt8)) (msg : DnsMessage) :
    Prop :=
  ∃ q, msg.questions.head? = some q ∧ ∃ bl ∈ lists, (bl.check q.name).IsBlocked ∨
    ∃ resp ∈ responses, ∃ target ∈ responseTargets resp, (bl.check target).IsBlocked

/-- What the query asks for and every target of `resp` pass one of `lists`. -/
def PassedAmong (lists : List (Blocklist ρ)) (resp : List UInt8) (msg : DnsMessage) : Prop :=
  ∀ q, msg.questions.head? = some q → ∀ name ∈ q.name :: responseTargets resp,
    ∃ bl ∈ lists, ¬ (bl.check name).IsBlocked

/-- A reply that one of `lists` calls for: NXDOMAIN, or what is relayed of a response. -/
def AnsweredAmong (lists : List (Blocklist ρ)) (responses : List (List UInt8))
    (relays : List UInt8 → List UInt8 → Prop) (msg : DnsMessage) (reply : List UInt8) : Prop :=
  reply = (nxdomain msg).wire ∧ BlockedAmong lists responses msg ∨
    ∃ resp ∈ responses, relays resp reply ∧ PassedAmong lists resp msg

/-- A record that is true by one of `lists` and what was received. -/
def TruthfulAmong (lists : List (Blocklist ρ)) (responses : List (List UInt8)) (msg : DnsMessage)
    (q : DnsQuestion) (action rule : String) : Prop :=
  (action = "blocked" ∧ ∃ bl ∈ lists, bl.check q.name = .blocked rule ∨
      ∃ resp ∈ responses, ∃ target ∈ responseTargets resp, ∃ why,
        bl.check target = .blocked why ∧ rule = "cname:" ++ target ++ " " ++ why) ∨
    (action = "allowed" ∧ ∃ bl ∈ lists, bl.check q.name = .allowed rule) ∨
    action = "forwarded" ∧ rule = "" ∧ ∃ resp ∈ responses, PassedAmong lists resp msg

section Among

variable {lists : List (Blocklist ρ)} {received : List (List UInt8)} {f : Flow ρ} {msg : DnsMessage}

theorem AllPassed.among {resp : List UInt8} (passed : AllPassed msg resp f)
    (reads : ∀ bl ∈ f.seen, bl ∈ lists) : PassedAmong lists resp msg := by
  intro q first name member
  have each := passed q first
  clear passed
  generalize q.name :: responseTargets resp = names at each member
  generalize f.seen = read at each reads
  induction each with
  | nil => cases member
  | cons clean _ ih =>
      rcases List.mem_cons.mp member with rfl | member
      · exact ⟨_, reads _ List.mem_cons_self, clean⟩
      · exact ih member fun bl read => reads bl (List.mem_cons_of_mem _ read)

theorem Licensed.among {relays : List UInt8 → List UInt8 → Prop} {reply : List UInt8}
    (licensed : Licensed msg relays f reply) (reads : ∀ bl ∈ f.seen, bl ∈ lists)
    (got : ∀ resp ∈ f.responses, resp ∈ received) :
    AnsweredAmong lists received relays msg reply := by
  rcases licensed with ⟨nx, q, first, bl, read, blocked⟩ | ⟨resp, last, relay, passed⟩
  · refine .inl ⟨nx, q, first, bl, reads bl read, blocked.imp And.right ?_⟩
    rintro ⟨resp, last, target, member, hit⟩
    exact ⟨resp, got resp (List.mem_of_getLast? last), target, member, hit⟩
  · exact .inr ⟨resp, got resp (List.mem_of_getLast? last), relay, passed.among reads⟩

theorem Truthful.among {q : DnsQuestion} {action rule : String}
    (truthful : Truthful msg f q action rule) (reads : ∀ bl ∈ f.seen, bl ∈ lists)
    (got : ∀ resp ∈ f.responses, resp ∈ received) :
    TruthfulAmong lists received msg q action rule := by
  rcases truthful with ⟨rfl, bl, read, blocked⟩ | ⟨rfl, bl, read, allowed⟩ |
    ⟨rfl, rfl, resp, last, passed⟩
  · refine .inl ⟨rfl, bl, reads bl read, blocked.imp_right ?_⟩
    rintro ⟨resp, last, target, member, why, hit, same⟩
    exact ⟨resp, got resp (List.mem_of_getLast? last), target, member, why, hit, same⟩
  · exact .inr (.inl ⟨rfl, bl, reads bl read, allowed⟩)
  · exact .inr (.inr ⟨rfl, rfl, resp, got resp (List.mem_of_getLast? last), passed.among reads⟩)

end Among

omit [UnicodeCase] [RegexEngine ρ] in
/-- Where a datagram was sent in a history. -/
theorem split_of_sent {events : List (Event (Request ρ))} {datagram : List UInt8}
    (member : datagram ∈ sent events) : ∃ before answer after,
      events = before ++ ⟨.sendTo datagram, answer⟩ :: after := by
  obtain ⟨⟨request, answer⟩, among, same⟩ := List.mem_filterMap.mp member
  obtain ⟨before, after, rfl⟩ := List.append_of_mem among
  cases request <;> cases same
  exact ⟨before, answer, after, rfl⟩

theorem sent_among {addr : SocketAddr} {octets : List UInt8} {msg : DnsMessage}
    (reaches : (udpForwarder ρ).Reaches w₀ acts tasks)
    (at_ : tasks[i]? = some (.datagram addr octets, left))
    (parsed : DnsMessage.parse (octets.take recvBufferSize) = .ok msg) {reply : List UInt8}
    (member : reply ∈ sent (eventsOf i acts)) :
    AnsweredAmong (activeSince w₀ i acts) (responses (eventsOf i acts)) (IsRelayed msg) msg
      reply := by
  have obeys := datagram_obeys reaches at_ parsed
  have reads := fun bl (read : bl ∈ seen (eventsOf i acts)) => mem_activeSince reaches at_ read
  obtain ⟨before, answer, after, whole⟩ := split_of_sent member
  rw [whole] at obeys reads ⊢
  have allowed : Licensed msg (IsRelayed msg) (flow ([] ++ before)) reply := obeys.split.2
  refine allowed.among (fun bl read => reads bl ?_) fun resp got => ?_
  · rw [seen_append]
    exact List.mem_append_left _ read
  · rw [responses, List.filterMap_append]
    exact List.mem_append_left _ got

/-- **A datagram is answered at most once, by lists that were active since it arrived**, and
otherwise by what the upstream responded to it. -/
theorem datagram_answered {addr : SocketAddr} {octets : List UInt8} {msg : DnsMessage}
    (reaches : (udpForwarder ρ).Reaches w₀ acts tasks)
    (at_ : tasks[i]? = some (.datagram addr octets, left))
    (parsed : DnsMessage.parse (octets.take recvBufferSize) = .ok msg) :
    (sent (eventsOf i acts)).length ≤ 1 ∧
      ∀ reply ∈ sent (eventsOf i acts),
        AnsweredAmong (activeSince w₀ i acts) (responses (eventsOf i acts)) (IsRelayed msg) msg
          reply := by
  have obeys := datagram_obeys reaches at_ parsed
  refine ⟨?_, fun reply member => sent_among reaches at_ parsed member⟩
  refine obeys.keeps (I := fun h => (sent h).length ≤ 1) (Nat.zero_le 1) ?_
  rintro past ⟨request, answer⟩ allowed once
  rw [sent_append, List.length_append]
  cases request with
  | sendTo datagram =>
      have first : sent past = [] := allowed.1
      rw [first]
      exact Nat.le_refl 1
  | readBlocklist => exact once
  | readLogQueries => exact once
  | logQuery source domain qtype action rule => exact once
  | udpQuery query => exact once
  | tcpQuery query => exact once
  | writeAll piece => exact once
  | flush => exact once

/-- One message of a connection: what was done for it, and the reply to it. -/
structure Round (ρ : Type) : Type 1 where
  packet : List UInt8
  events : List (Event (Request ρ))
  reply : List UInt8

/-- The reply of a round is called for by one of `lists` and the round's own responses. -/
def Round.Answered (lists : List (Blocklist ρ)) (round : Round ρ) : Prop :=
  ∃ msg, DnsMessage.parse round.packet = .ok msg ∧
    AnsweredAmong lists (responses round.events) Eq msg round.reply

theorem Serves.rounds {client : String} {stream : List UInt8} {events : List (Event (Request ρ))}
    (serves : Serves client stream events) {lists : List (Blocklist ρ)} :
    (∀ bl ∈ seen events, bl ∈ lists) →
    ∃ (rounds : List (Round ρ)) (rest : List (Event (Request ρ))),
      rounds.map Round.packet <+: messages stream ∧
        events = rounds.flatMap Round.events ++ rest ∧
        written events <+: rounds.flatMap (fun round => frame round.reply) ∧
        ∀ round ∈ rounds, round.Answered lists := by
  induction serves with
  | idle stream => exact fun _ => ⟨[], [], List.nil_prefix, rfl, List.nil_prefix, nofun⟩
  | @unfinished stream packet rest msg events read parsed always =>
      intro reads
      rcases written_of_always always with none_ | ⟨before, after, reply, rfl, licensed, part⟩
      · exact ⟨[], events, List.nil_prefix, rfl, none_ ▸ List.nil_prefix, nofun⟩
      refine ⟨[⟨packet, before, reply⟩], after, ?_, ?_, ?_, ?_⟩
      · rw [messages_of_read read]
        exact List.prefix_append _ _
      · rw [List.flatMap_singleton]
      · rwa [List.flatMap_singleton]
      · intro round member
        obtain rfl := List.mem_singleton.mp member
        refine ⟨msg, parsed, licensed.among (fun bl read => reads bl ?_) fun resp got => got⟩
        rw [seen_append]
        exact List.mem_append_left _ read
  | @round stream packet rest msg first later read parsed always replied _ ih =>
      intro reads
      rw [seen_append] at reads
      obtain ⟨reply, licensed, wrote⟩ := replied
      obtain ⟨rounds, tail, taken, rfl, part, answered⟩ :=
        ih fun bl read => reads bl (List.mem_append_right _ read)
      refine ⟨⟨packet, first, reply⟩ :: rounds, tail, ?_, ?_, ?_, ?_⟩
      · rw [messages_of_read read]
        exact (List.prefix_cons_inj _).mpr taken
      · rw [List.flatMap_cons, List.append_assoc]
      · rw [written_append, wrote, List.flatMap_cons]
        exact (List.prefix_append_right_inj _).mpr part
      · intro round member
        rcases List.mem_cons.mp member with rfl | member
        · exact ⟨msg, parsed, licensed.among
            (fun bl read => reads bl (List.mem_append_left _ read)) fun resp got => got⟩
        · exact answered round member

/-- **A connection carries whole replies in the order of its messages**: at any moment, the
octets on it are a part of the frames of one reply for each of its first messages, and each
reply is called for by lists that were active since the connection was opened. -/
theorem connection_answered {addr : SocketAddr} {stream : List UInt8}
    (reaches : (udpForwarder ρ).Reaches w₀ acts tasks)
    (at_ : tasks[i]? = some (.connection addr stream, left)) :
    ∃ (rounds : List (Round ρ)) (rest : List (Event (Request ρ))),
      rounds.map Round.packet <+: messages stream ∧
        eventsOf i acts = rounds.flatMap Round.events ++ rest ∧
        written (eventsOf i acts) <+: rounds.flatMap (fun round => frame round.reply) ∧
        ∀ round ∈ rounds, round.Answered (activeSince w₀ i acts) :=
  (connection_serves reaches at_).rounds fun _ read => mem_activeSince reaches at_ read

/-! ## What leaves the forwarder about a client -/

/-- The round in which the upstream was asked. -/
theorem asked_round (reaches : (udpForwarder ρ).Reaches w₀ acts tasks)
    (at_ : tasks[i]? = some (arrival, left)) {query : List UInt8}
    (member : query ∈ asked (eventsOf i acts)) :
    ∃ packet ∈ arrival.packets, ∃ msg round, DnsMessage.parse packet = .ok msg ∧
      round ⊆ eventsOf i acts ∧ query = (toSend msg).wire ∧ NamePassed msg (flow round) := by
  have obeys := task_obeys reaches at_
  obtain ⟨⟨request, answer⟩, among, same⟩ := List.mem_filterMap.mp member
  obtain ⟨past, after, whole⟩ := List.append_of_mem among
  rw [whole] at obeys ⊢
  obtain ⟨packet, own, msg, parsed, before, round, rfl, allowed⟩ := obeys.split
  refine ⟨packet, own, msg, round, parsed, fun event held => ?_, ?_⟩
  · exact List.mem_append_left _ (List.mem_append_right _ held)
  · cases arrival <;> cases request <;> cases same
    · exact ⟨allowed.1, allowed.2.2⟩
    · exact ⟨allowed.1, allowed.2.2.1⟩
    · exact allowed.elim
    · exact ⟨allowed.1, allowed.2.2⟩

theorem NamePassed.among {msg : DnsMessage} {round events : List (Event (Request ρ))}
    (passed : NamePassed msg (flow round)) (part : round ⊆ events) {q : DnsQuestion}
    (first : msg.questions.head? = some q) :
    ∃ bl ∈ seen events, ¬ (bl.check q.name).IsBlocked := by
  obtain ⟨bl, only, passes⟩ := passed q first
  have only : seen round = [bl] := only
  have read : bl ∈ seen round := only ▸ List.mem_singleton_self bl
  exact ⟨bl, List.filterMap_subset _ part read, passes⟩

/-- **Whatever a task asks the upstream** is one of its own messages, and a list that was active
since the task was started let the name pass. -/
theorem asked_passed (reaches : (udpForwarder ρ).Reaches w₀ acts tasks)
    (at_ : tasks[i]? = some (arrival, left)) {query : List UInt8}
    (member : query ∈ asked (eventsOf i acts)) :
    ∃ packet ∈ arrival.packets, ∃ msg, DnsMessage.parse packet = .ok msg ∧
      query = (toSend msg).wire ∧ ∀ q, msg.questions.head? = some q →
        ∃ bl ∈ activeSince w₀ i acts, ¬ (bl.check q.name).IsBlocked := by
  obtain ⟨packet, own, msg, round, parsed, part, asks, passed⟩ := asked_round reaches at_ member
  refine ⟨packet, own, msg, parsed, asks, fun q first => ?_⟩
  obtain ⟨bl, read, passes⟩ := passed.among part first
  exact ⟨bl, mem_activeSince reaches at_ read, passes⟩

/-- The round in which a record was written. -/
theorem logged_round (reaches : (udpForwarder ρ).Reaches w₀ acts tasks)
    (at_ : tasks[i]? = some (arrival, left)) {record : QueryRecord}
    (member : record ∈ logged (eventsOf i acts)) :
    ∃ packet ∈ arrival.packets, ∃ msg round, DnsMessage.parse packet = .ok msg ∧
      round ⊆ eventsOf i acts ∧
      MayLog arrival.addr.ip msg round record.source record.domain record.qtype record.action
        record.rule := by
  have obeys := task_obeys reaches at_
  obtain ⟨⟨request, answer⟩, among, same⟩ := List.mem_filterMap.mp member
  obtain ⟨past, after, whole⟩ := List.append_of_mem among
  rw [whole] at obeys ⊢
  obtain ⟨packet, own, msg, parsed, before, round, rfl, allowed⟩ := obeys.split
  refine ⟨packet, own, msg, round, parsed, fun event held => ?_, ?_⟩
  · exact List.mem_append_left _ (List.mem_append_right _ held)
  · cases request <;> cases same
    cases arrival <;> exact allowed

/-- What a task has logged is true by lists that were active since it was started. -/
theorem logged_truthful (reaches : (udpForwarder ρ).Reaches w₀ acts tasks)
    (at_ : tasks[i]? = some (arrival, left)) {record : QueryRecord}
    (member : record ∈ logged (eventsOf i acts)) :
    record.source = arrival.addr.ip ∧ ∃ packet ∈ arrival.packets, ∃ msg q,
      DnsMessage.parse packet = .ok msg ∧ msg.questions.head? = some q ∧
        record.domain = q.name ∧ record.qtype = qtypeStr q.qtype ∧
        TruthfulAmong (activeSince w₀ i acts) (responses (eventsOf i acts)) msg q record.action
          record.rule := by
  obtain ⟨packet, own, msg, round, parsed, part, -, source, q, first, domain, qtype, truthful⟩ :=
    logged_round reaches at_ member
  refine ⟨source, packet, own, msg, q, parsed, first, domain, qtype, truthful.among ?_ ?_⟩
  · exact fun bl read => mem_activeSince reaches at_ (List.filterMap_subset _ part read)
  · exact fun resp got => List.filterMap_subset _ part got

/-- Something is only logged if logging was on since the task was started. -/
theorem logging_on (reaches : (udpForwarder ρ).Reaches w₀ acts tasks)
    (at_ : tasks[i]? = some (arrival, left)) {record : QueryRecord}
    (member : record ∈ logged (eventsOf i acts)) :
    ∃ w ∈ (udpForwarder ρ).statesSince w₀ i acts, w.logQueries = true := by
  obtain ⟨_, _, _, round, _, among, last, -⟩ := logged_round reaches at_ member
  obtain ⟨w, held, admits⟩ := reaches.admitted_since at_ _ (among (List.mem_of_getLast? last))
  exact ⟨w, held, admits.symm⟩

/-- **The journal is true**: whatever a task logs is about its client and the question of one of
its messages, logging was on at some time since the task was started, and what the record says
was done, and why, lists that were active since then called for. -/
theorem logged_asked (reaches : (udpForwarder ρ).Reaches w₀ acts tasks)
    (at_ : tasks[i]? = some (arrival, left)) {record : QueryRecord}
    (member : record ∈ logged (eventsOf i acts)) :
    record.source = arrival.addr.ip ∧
      (∃ packet ∈ arrival.packets, ∃ msg q, DnsMessage.parse packet = .ok msg ∧
        msg.questions.head? = some q ∧ record.domain = q.name ∧ record.qtype = qtypeStr q.qtype ∧
        TruthfulAmong (activeSince w₀ i acts) (responses (eventsOf i acts)) msg q record.action
          record.rule) ∧
      ∃ w ∈ (udpForwarder ρ).statesSince w₀ i acts, w.logQueries = true := by
  obtain ⟨source, about⟩ := logged_truthful reaches at_ member
  exact ⟨source, about, logging_on reaches at_ member⟩

/-! ## Traffic -/

section Traffic

variable {client : String} {msg : DnsMessage} {q : DnsQuestion} {u t s : Nat}

end Traffic

end

/-! ## A reload between three clients -/

attribute [local instance] smallCase

def laptop : SocketAddr := ⟨"192.168.1.5", 40001⟩

def phone : SocketAddr := ⟨"192.168.1.6", 40002⟩

/-- `site.com` passes, and its response has come. -/
def forwardedEvents : List (Event (Request Literal)) :=
  [⟨.readBlocklist, noList⟩, ⟨.udpQuery (toSend siteMessage).wire, .ok emptyResponse⟩]

/-- `site.com` is blocked, logged and refused. -/
def blockedEvents (rule : String) : List (Event (Request Literal)) :=
  [⟨.readBlocklist, siteList⟩, ⟨.readLogQueries, true⟩,
    ⟨.logQuery phone.ip "site.com" "A" "blocked" rule, ()⟩,
    ⟨.sendTo (nxdomain siteMessage).wire, .ok ()⟩]

/-- `site.com` is blocked, and the length of the refusal is on the connection. -/
def openEvents : List (Event (Request Literal)) :=
  [⟨.readBlocklist, siteList⟩,
    ⟨.writeAll (beBytes16 (UInt16.ofNat (nxdomain siteMessage).wire.length)), .ok ()⟩]

theorem siteList_blocks : ∃ rule, siteList.check "site.com" = .blocked rule := by
  have blocked := siteList_checks.1
  cases outcome : siteList.check "site.com" with
  | blocked rule => exact ⟨rule, rfl⟩
  | allowed rule => exact absurd blocked (by rw [outcome]; exact id)
  | forwarded => exact absurd blocked (by rw [outcome]; exact id)

theorem forwardedEvents_resumes :
    ∃ q, Resumes (handleUdpQuery laptop.ip siteQuery) forwardedEvents q := by
  rw [handleUdpQuery, parse_siteQuery, ofExcept_ok_bind]
  have passes : noList.check (DnsQuestion.mk "site.com" 1 1).name = .forwarded := by decide +kernel
  refine resumes_call_bind ?_
  rw [passes]
  show ∃ q, Resumes (forwardUdp laptop.ip siteMessage) _ q
  rw [forwardUdp, packetToSend_eq, ofExcept_ok_bind]
  exact ⟨_, .perform (.refl _)⟩

theorem blockedEvents_resumes {rule : String} (blocks : siteList.check "site.com" = .blocked rule) :
    ∃ q, Resumes (handleUdpQuery phone.ip siteQuery) (blockedEvents rule) q := by
  rw [handleUdpQuery, parse_siteQuery, ofExcept_ok_bind]
  have blocks : siteList.check (DnsQuestion.mk "site.com" 1 1).name = .blocked rule := blocks
  refine resumes_call_bind ?_
  rw [blocks, buildNxdomain_eq, ofExcept_ok_bind]
  exact ⟨_, .perform (.perform (.perform (.refl _)))⟩

theorem openEvents_resumes :
    ∃ q, Resumes (handleTcpQuery phone.ip (frame siteQuery)) openEvents q := by
  obtain ⟨rule, blocks⟩ := siteList_blocks
  have blocks : siteList.check (DnsQuestion.mk "site.com" 1 1).name = .blocked rule := blocks
  have round : ∃ q, Resumes (serveTcpMessage phone.ip siteQuery) openEvents q := by
    rw [serveTcpMessage, parse_siteQuery, ofExcept_ok_bind]
    refine resumes_call_bind ?_
    rw [blocks]
    dsimp only
    rw [buildNxdomain_eq, ofExcept_ok_bind]
    exact ⟨_, .perform (.refl _)⟩
  obtain ⟨q, resumes⟩ := round
  have whole : (handleTcpQuery phone.ip (frame siteQuery ++ []) : Handler Literal Unit) = (do
      serveTcpMessage phone.ip siteQuery
      handleTcpQuery phone.ip []) := handleTcpQuery_frame (by decide)
  rw [List.append_nil] at whole
  rw [whole]
  exact ⟨_, resumes.bind _⟩

/-- The laptop's query is checked, the reload puts `siteList` in place, the query is sent, and
the reload turns logging on. -/
def laptopActs : History Literal :=
  [.answer 0 ⟨.readBlocklist, noList⟩, .move (.blocklist siteList),
    .answer 0 ⟨.udpQuery (toSend siteMessage).wire, .ok emptyResponse⟩, .move (.logQueries true)]

/-- The phone asks over UDP and over TCP while the laptop waits. -/
def siteActs (rule : String) : History Literal :=
  .start (.datagram laptop siteQuery) :: laptopActs ++
    .start (.datagram phone siteQuery) :: (blockedEvents rule).map (.answer 1) ++
    .start (.connection phone (frame siteQuery)) :: openEvents.map (.answer 2)

theorem siteActs_reaches {rule : String} (blocks : siteList.check "site.com" = .blocked rule) :
    ∃ first second third, (udpForwarder Literal).Reaches ⟨noList, false⟩ (siteActs rule)
      [(.datagram laptop siteQuery, first), (.datagram phone siteQuery, second),
        (.connection phone (frame siteQuery), third)] := by
  obtain ⟨first, forwarded⟩ := forwardedEvents_resumes
  obtain ⟨second, blocked⟩ := blockedEvents_resumes blocks
  obtain ⟨third, open_⟩ := openEvents_resumes
  refine ⟨first, second, third, ?_⟩
  have none_ : (udpForwarder Literal).Reaches ⟨noList, false⟩ [] [] := .init
  have asks := none_.start (Arrival.datagram laptop siteQuery)
  have one := asks.schedule (i := 0) laptopActs rfl (by simp [laptopActs, Server.Spares])
    (by exact ⟨rfl, trivial, trivial⟩) forwarded
  have asks := one.start (Arrival.datagram phone siteQuery)
  have two := asks.schedule (i := 1) ((blockedEvents rule).map (.answer 1)) rfl
    (by simp [blockedEvents, Server.Spares]) (by exact ⟨rfl, rfl, trivial, trivial, trivial⟩)
    blocked
  have opens := two.start (Arrival.connection phone (frame siteQuery))
  have three := opens.schedule (i := 2) (openEvents.map (.answer 2)) rfl
    (by simp [openEvents, Server.Spares]) (by exact ⟨rfl, trivial, trivial⟩) open_
  exact three

theorem parse_received : DnsMessage.parse (siteQuery.take recvBufferSize) = .ok siteMessage := by
  rw [List.take_of_length_le (by decide)]
  exact parse_siteQuery

/-- The phone's datagram is refused by the list of the reload. -/
theorem datagram_answered_phone :
    ∃ rule, sent (eventsOf 1 (siteActs rule)) = [(nxdomain siteMessage).wire] ∧
      (sent (eventsOf 1 (siteActs rule))).length ≤ 1 ∧
      ∀ reply ∈ sent (eventsOf 1 (siteActs rule)),
        AnsweredAmong (activeSince ⟨noList, false⟩ 1 (siteActs rule))
          (responses (eventsOf 1 (siteActs rule))) (IsRelayed siteMessage) siteMessage reply := by
  obtain ⟨rule, blocks⟩ := siteList_blocks
  obtain ⟨first, second, third, reaches⟩ := siteActs_reaches blocks
  exact ⟨rule, rfl, datagram_answered (i := 1) reaches rfl parse_received⟩

/-- So is the message on its connection, of which two octets are written. -/
theorem connection_answered_phone :
    ∃ rule, (written (eventsOf 2 (siteActs rule))).length = 2 ∧
      ∃ (rounds : List (Round Literal)) (rest : List (Event (Request Literal))),
        rounds.map Round.packet <+: messages (frame siteQuery) ∧
          eventsOf 2 (siteActs rule) = rounds.flatMap Round.events ++ rest ∧
          written (eventsOf 2 (siteActs rule)) <+: rounds.flatMap (fun round => frame round.reply) ∧
          ∀ round ∈ rounds, round.Answered (activeSince ⟨noList, false⟩ 2 (siteActs rule)) := by
  obtain ⟨rule, blocks⟩ := siteList_blocks
  obtain ⟨first, second, third, reaches⟩ := siteActs_reaches blocks
  exact ⟨rule, rfl, connection_answered (i := 2) reaches rfl⟩

/-- The laptop's query went out: the list of its arrival let it pass. -/
theorem asked_passed_laptop :
    ∃ rule, ∃ packet ∈ (Arrival.datagram laptop siteQuery).packets, ∃ msg,
      DnsMessage.parse packet = .ok msg ∧ (toSend siteMessage).wire = (toSend msg).wire ∧
        ∀ q, msg.questions.head? = some q →
          ∃ bl ∈ activeSince ⟨noList, false⟩ 0 (siteActs rule), ¬ (bl.check q.name).IsBlocked := by
  obtain ⟨rule, blocks⟩ := siteList_blocks
  obtain ⟨first, second, third, reaches⟩ := siteActs_reaches blocks
  have asks : asked (eventsOf 0 (siteActs rule)) = [(toSend siteMessage).wire] := rfl
  exact ⟨rule, asked_passed (i := 0) reaches rfl (by rw [asks]; exact List.mem_singleton_self _)⟩

/-- The phone's query was logged, after the reload. -/
theorem logged_asked_phone :
    ∃ rule, ∃ w ∈ (udpForwarder Literal).statesSince ⟨noList, false⟩ 1 (siteActs rule),
      w.logQueries = true := by
  obtain ⟨rule, blocks⟩ := siteList_blocks
  obtain ⟨first, second, third, reaches⟩ := siteActs_reaches blocks
  have logs : logged (eventsOf 1 (siteActs rule)) =
    [⟨phone.ip, "site.com", "A", "blocked", rule⟩] := rfl
  exact ⟨rule, (logged_asked (i := 1) reaches rfl (by rw [logs]; exact List.mem_singleton_self _)).2.2⟩

end DnsLigase.Upstream
