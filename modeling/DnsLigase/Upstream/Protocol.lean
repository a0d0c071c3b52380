/-
# Upstream.Protocol — what a handler may do next, after what it has done

A handler may be looked at in the middle of a query, with errors of the network behind
it and lists that were swapped between its reads.  `Flow` is what such an unfinished
history has moved in and out of it, and the two protocols say of each request after
which flows it is made:

* the upstream is asked once, with the client's query behind the forwarder's own OPT
  record, after one list let the name of the question pass; over TCP a second time if
  the response over UDP has TC set;
* a client is answered once, with NXDOMAIN after some list blocked the name or a target
  of the response, or with that response after every name passed a list;
* a question is logged right after the flag was read and found set, and the record says what
  was found out about it.

`handleUdpQuery_obeys` and `serveTcpMessage_obeys` hold of every answer that anything
outside may give; `handleTcpQuery_serves` strings the rounds of a connection together.
-/
import DnsLigase.Theory.Traces
import DnsLigase.Upstream.FrontEnds
import DnsLigase.Upstream.Swaps

namespace DnsLigase.Upstream

open DnsLigase.Theory DnsLigase.Dns
open DnsLigase.Theory.Bytes DnsLigase.Theory.Case DnsLigase.Theory.Io DnsLigase.Theory.Program

set_option autoImplicit false

variable {ρ : Type}

/-! ## Flows -/

/-- What a handler has read of the blocklist, and what it has sent and received. -/
structure Flow (ρ : Type) where
  seen : List (Blocklist ρ)
  asked : List (List UInt8)
  responses : List (List UInt8)
  sent : List (List UInt8)
  written : List UInt8

def flow (events : List (Event (Request ρ))) : Flow ρ :=
  ⟨seen events, asked events, responses events, sent events, written events⟩

section Snoc

variable {past : List (Event (Request ρ))}

@[simp] theorem flow_readBlocklist {bl : Blocklist ρ} :
    flow (past ++ [⟨.readBlocklist, bl⟩]) = { flow past with seen := seen past ++ [bl] } := by
  simp [flow, seen, asked, responses, sent, written, seen?, query?, response?, datagram?, octets]

@[simp] theorem flow_readLogQueries {enabled : Bool} :
    flow (past ++ [⟨.readLogQueries, enabled⟩]) = flow past := by
  simp [flow, seen, asked, responses, sent, written, seen?, query?, response?, datagram?, octets]

@[simp] theorem flow_logQuery {source domain qtype action rule : String} {u : Unit} :
    flow (past ++ [⟨.logQuery source domain qtype action rule, u⟩]) = flow past := by
  simp [flow, seen, asked, responses, sent, written, seen?, query?, response?, datagram?, octets]

@[simp] theorem flow_udpQuery {query resp : List UInt8} :
    flow (past ++ [⟨.udpQuery query, .ok resp⟩]) =
      { flow past with asked := asked past ++ [query], responses := responses past ++ [resp] } := by
  simp [flow, seen, asked, responses, sent, written, seen?, query?, response?, datagram?, octets]

@[simp] theorem flow_tcpQuery {query resp : List UInt8} :
    flow (past ++ [⟨.tcpQuery query, .ok resp⟩]) =
      { flow past with asked := asked past ++ [query], responses := responses past ++ [resp] } := by
  simp [flow, seen, asked, responses, sent, written, seen?, query?, response?, datagram?, octets]

@[simp] theorem flow_sendTo {datagram : List UInt8} :
    flow (past ++ [⟨.sendTo datagram, .ok ()⟩]) =
      { flow past with sent := sent past ++ [datagram] } := by
  simp [flow, seen, asked, responses, sent, written, seen?, query?, response?, datagram?, octets]

@[simp] theorem flow_writeAll {piece : List UInt8} :
    flow (past ++ [⟨.writeAll piece, .ok ()⟩]) =
      { flow past with written := written past ++ piece } := by
  simp [flow, seen, asked, responses, sent, written, seen?, query?, response?, datagram?, octets]

@[simp] theorem flow_flush : flow (past ++ [⟨.flush, .ok ()⟩]) = flow past := by
  simp [flow, seen, asked, responses, sent, written, seen?, query?, response?, datagram?, octets]

end Snoc

/-- The whole messages in front of a stream. -/
def messages (stream : List UInt8) : List (List UInt8) :=
  match _read : readFrame stream with
  | some (packet, rest) => packet :: messages rest
  | none => []
termination_by stream.length
decreasing_by exact readFrame_shorter _read

theorem messages_of_read {stream packet rest : List UInt8}
    (read : readFrame stream = some (packet, rest)) : messages stream = packet :: messages rest := by
  rw [messages]
  split
  · rename_i read'
    cases read.symm.trans read'
    rfl
  · rename_i read'
    cases read.symm.trans read'

/-! ## The protocols -/

section

variable [UnicodeCase] [RegexEngine ρ]

/-- One list has been read, and it lets the name of the question pass. -/
def NamePassed (msg : DnsMessage) (f : Flow ρ) : Prop :=
  ∀ q, msg.questions.head? = some q → ∃ bl, f.seen = [bl] ∧ ¬ (bl.check q.name).IsBlocked

/-- A list that was read blocks the name, and nothing has been asked; or it blocks a target of
the latest response. -/
def SomeBlocked (msg : DnsMessage) (f : Flow ρ) : Prop :=
  ∃ q, msg.questions.head? = some q ∧ ∃ bl ∈ f.seen,
    f.asked = [] ∧ (bl.check q.name).IsBlocked ∨
      ∃ resp, f.responses.getLast? = some resp ∧
        ∃ target ∈ responseTargets resp, (bl.check target).IsBlocked

/-- Each name that counts has passed a list of its own. -/
def AllPassed (msg : DnsMessage) (resp : List UInt8) (f : Flow ρ) : Prop :=
  ∀ q, msg.questions.head? = some q →
    List.Forall₂ (fun bl name => ¬ (bl.check name).IsBlocked) f.seen (q.name :: responseTargets resp)

/-- The replies that a client may be sent; `relays` is what the transport makes of a response. -/
def Licensed (msg : DnsMessage) (relays : List UInt8 → List UInt8 → Prop) (f : Flow ρ)
    (reply : List UInt8) : Prop :=
  reply = (nxdomain msg).wire ∧ SomeBlocked msg f ∨
    ∃ resp, f.responses.getLast? = some resp ∧ relays resp reply ∧ AllPassed msg resp f

/-- What a record may say of the question: a list that was read blocks its name, or a target of
the latest response; or a list allows the name; or each name of that response has passed. -/
def Truthful (msg : DnsMessage) (f : Flow ρ) (q : DnsQuestion) (action rule : String) : Prop :=
  (action = "blocked" ∧ ∃ bl ∈ f.seen, bl.check q.name = .blocked rule ∨
      ∃ resp, f.responses.getLast? = some resp ∧ ∃ target ∈ responseTargets resp, ∃ why,
        bl.check target = .blocked why ∧ rule = "cname:" ++ target ++ " " ++ why) ∨
    (action = "allowed" ∧ ∃ bl ∈ f.seen, bl.check q.name = .allowed rule) ∨
    action = "forwarded" ∧ rule = "" ∧
      ∃ resp, f.responses.getLast? = some resp ∧ AllPassed msg resp f

/-- What is logged is true of the client and its question, and the flag was just found set. -/
def MayLog (client : String) (msg : DnsMessage) (past : List (Event (Request ρ)))
    (source domain qtype action rule : String) : Prop :=
  past.getLast? = some ⟨.readLogQueries, true⟩ ∧ source = client ∧
    ∃ q, msg.questions.head? = some q ∧ domain = q.name ∧ qtype = qtypeStr q.qtype ∧
      Truthful msg (flow past) q action rule

def IsRelayed (msg : DnsMessage) (resp reply : List UInt8) : Prop := relayed msg resp = .ok reply

/-- What `handle_udp_query` may do. -/
def UdpProtocol (client : String) (msg : DnsMessage) (past : List (Event (Request ρ))) :
    Event (Request ρ) → Prop
  | ⟨.readBlocklist, _⟩ => True
  | ⟨.readLogQueries, _⟩ => True
  | ⟨.logQuery source domain qtype action rule, _⟩ =>
      MayLog client msg past source domain qtype action rule
  | ⟨.udpQuery query, _⟩ =>
      query = (toSend msg).wire ∧ asked past = [] ∧ NamePassed msg (flow past)
  | ⟨.tcpQuery query, _⟩ =>
      query = (toSend msg).wire ∧ asked past = [query] ∧ NamePassed msg (flow past) ∧
        ∃ resp, responses past = [resp] ∧ tcBitSet resp = true
  | ⟨.sendTo datagram, _⟩ => sent past = [] ∧ Licensed msg (IsRelayed msg) (flow past) datagram
  | ⟨.writeAll _, _⟩ => False
  | ⟨.flush, _⟩ => False

/-- What one round of `handle_tcp_query` may do. -/
def TcpProtocol (client : String) (msg : DnsMessage) (past : List (Event (Request ρ))) :
    Event (Request ρ) → Prop
  | ⟨.readBlocklist, _⟩ => True
  | ⟨.readLogQueries, _⟩ => True
  | ⟨.logQuery source domain qtype action rule, _⟩ =>
      MayLog client msg past source domain qtype action rule
  | ⟨.udpQuery _, _⟩ => False
  | ⟨.tcpQuery query, _⟩ =>
      query = (toSend msg).wire ∧ asked past = [] ∧ NamePassed msg (flow past)
  | ⟨.sendTo _, _⟩ => False
  | ⟨.writeAll piece, _⟩ =>
      ∃ reply, Licensed msg Eq (flow past) reply ∧ written past ++ piece <+: frame reply
  | ⟨.flush, _⟩ => True

/-- What the two protocols agree on. -/
structure Common (client : String) (msg : DnsMessage)
    (P : List (Event (Request ρ)) → Event (Request ρ) → Prop) : Prop where
  reads : ∀ past bl, P past ⟨.readBlocklist, bl⟩
  flags : ∀ past enabled, P past ⟨.readLogQueries, enabled⟩
  logs : ∀ past source domain qtype action rule u,
    MayLog client msg past source domain qtype action rule →
      P past ⟨.logQuery source domain qtype action rule, u⟩

variable {client : String} {msg : DnsMessage} {q : DnsQuestion}
  {past : List (Event (Request ρ))} {P : List (Event (Request ρ)) → Event (Request ρ) → Prop}

theorem common_udp : Common client msg (UdpProtocol (ρ := ρ) client msg) :=
  ⟨fun _ _ => trivial, fun _ _ => trivial, fun _ _ _ _ _ _ _ may => may⟩

theorem common_tcp : Common client msg (TcpProtocol (ρ := ρ) client msg) :=
  ⟨fun _ _ => trivial, fun _ _ => trivial, fun _ _ _ _ _ _ _ may => may⟩

/-! ## The parts that both handlers have -/

theorem logIfEnabled_obeys (common : Common client msg P) (first : msg.questions.head? = some q)
    {action rule : String} (truthful : Truthful msg (flow past) q action rule) :
    Obeys P past (logIfEnabled client q action rule) fun h _ => flow h = flow past := by
  refine obeys_call_bind (common.flags past) fun enabled => ?_
  cases enabled with
  | false => exact obeys_pure flow_readLogQueries
  | true =>
      have truthful' : Truthful msg (flow (past ++ [⟨.readLogQueries, true⟩])) q action rule := by
        rw [flow_readLogQueries]
        exact truthful
      refine obeys_call (fun u => ?_) fun u => ?_
      · exact common.logs _ _ _ _ _ _ u
          ⟨List.getLast?_concat, rfl, q, first, rfl, rfl, truthful'⟩
      · rw [flow_logQuery, flow_readLogQueries]

theorem logForwarded_obeys (common : Common client msg P)
    (passed : ∃ resp, (flow past).responses.getLast? = some resp ∧
      AllPassed msg resp (flow past)) :
    Obeys P past (logForwarded client msg) fun h _ => flow h = flow past := by
  cases first : msg.questions.head? with
  | none =>
      refine obeys_call_bind (common.flags past) fun enabled => ?_
      rw [first]
      split
      · exact obeys_pure flow_readLogQueries
      · exact obeys_pure flow_readLogQueries
  | some q =>
      have logs : Obeys P past (logIfEnabled client q "forwarded" "") fun h _ => flow h = flow past :=
        logIfEnabled_obeys common first (.inr (.inr ⟨rfl, rfl, passed⟩))
      rw [logIfEnabled] at logs
      rw [logForwarded, first]
      exact logs

/-- The walk stops at a target that a list it read blocks. -/
theorem Walk.found {names : List String} {reads : List (Blocklist ρ)}
    {found : Option (String × String)} (walk : Walk names reads found) :
    ∀ {target rule : String}, found = some (target, rule) →
      target ∈ names ∧ ∃ bl ∈ reads, bl.check target = .blocked rule := by
  induction walk with
  | done => exact fun same => by cases same
  | pass _ _ ih =>
      intro target rule same
      obtain ⟨among, bl, read, blocks⟩ := ih same
      exact ⟨List.mem_cons_of_mem _ among, bl, List.mem_cons_of_mem _ read, blocks⟩
  | hit blocks =>
      intro target rule same
      cases same
      exact ⟨List.mem_cons_self, _, List.mem_singleton_self _, blocks⟩

/-- The walk adds what it reads, one list for each name up to the first that is blocked. -/
theorem blockedTarget_obeys (common : Common client msg P) : ∀ {answers : List DnsResourceRecord}
    {past : List (Event (Request ρ))}, Obeys P past (blockedTarget answers) fun h found =>
      ∃ reads, flow h = { flow past with seen := seen past ++ reads } ∧
        Walk (targets answers) reads found
  | [], past => obeys_pure ⟨[], by rw [List.append_nil]; rfl, .done⟩
  | rr :: rest, past => by
      unfold blockedTarget
      by_cases cname : rr.rtype = 5
      · rw [if_pos cname]
        cases at_ : rr.cnameTarget with
        | none =>
            have skip : targets (rr :: rest) = targets rest :=
              List.filterMap_cons_none (by rw [if_pos cname, at_])
            rw [skip]
            exact blockedTarget_obeys common
        | some target =>
            have first : targets (rr :: rest) = target :: targets rest :=
              List.filterMap_cons_some (by rw [if_pos cname, at_])
            rw [first]
            refine obeys_call_bind (common.reads past) fun bl => ?_
            have pass : ¬ (bl.check target).IsBlocked →
                Obeys P (past ++ [⟨.readBlocklist, bl⟩]) (blockedTarget rest) fun h found =>
                  ∃ reads, flow h = { flow past with seen := seen past ++ reads } ∧
                    Walk (target :: targets rest) reads found := by
              intro clean
              refine (blockedTarget_obeys common).mono (fun _ _ => id) ?_
              rintro h found ⟨reads, same, walk⟩
              refine ⟨bl :: reads, ?_, .pass clean walk⟩
              rw [same, flow_readBlocklist]
              simp [seen, seen?]
            cases outcome : bl.check target with
            | blocked rule => exact obeys_pure ⟨[bl], flow_readBlocklist, .hit outcome⟩
            | allowed rule => exact pass (by rw [outcome]; exact id)
            | forwarded => exact pass (by rw [outcome]; exact id)
      · rw [if_neg cname]
        have skip : targets (rr :: rest) = targets rest :=
          List.filterMap_cons_none (by rw [if_neg cname])
        rw [skip]
        exact blockedTarget_obeys common

/-- Where the check says so, some target was blocked by a list that was read; else each target
has passed its own. -/
theorem cloakingCheck_obeys (common : Common client msg P) {resp : List UInt8}
    (last : (responses past).getLast? = some resp) :
    Obeys P past (cloakingCheck client msg resp) fun h cloaked =>
      ∃ reads, flow h = { flow past with seen := seen past ++ reads } ∧
        (cloaked = true → ∃ q, msg.questions.head? = some q ∧
          ∃ bl ∈ reads, ∃ target ∈ responseTargets resp, (bl.check target).IsBlocked) ∧
        (cloaked = false → msg.questions.head? ≠ none →
          List.Forall₂ (fun bl name => ¬ (bl.check name).IsBlocked) reads (responseTargets resp)) := by
  have unread : flow past = { flow past with seen := seen past ++ [] } := by
    rw [List.append_nil]
    rfl
  have impossible : ∀ {C : Prop}, false = true → C := fun blocked => absurd blocked Bool.false_ne_true
  unfold cloakingCheck
  cases first : msg.questions.head? with
  | none => exact obeys_pure ⟨[], unread, impossible, fun _ some_ => absurd rfl some_⟩
  | some q =>
      cases parsed : DnsMessage.parse resp with
      | error e =>
          have none_ : responseTargets resp = [] := by rw [responseTargets, parsed]
          exact obeys_pure ⟨[], unread, impossible, fun _ _ => none_ ▸ .nil⟩
      | ok respMsg =>
          have names : responseTargets resp = targets respMsg.answers := by
            rw [responseTargets, parsed]
          rw [names]
          refine (blockedTarget_obeys common).bind ?_
          rintro h found ⟨reads, same, walk⟩
          cases found with
          | none => exact obeys_pure ⟨reads, same, impossible, fun _ _ => walk.passed.1 rfl⟩
          | some hit =>
              obtain ⟨target, rule⟩ := hit
              obtain ⟨among, bl, read, blocks⟩ := walk.found rfl
              have truthful : Truthful msg (flow h) q "blocked"
                  ("cname:" ++ target ++ " " ++ rule) := by
                rw [same]
                exact .inl ⟨rfl, bl, List.mem_append_right _ read,
                  .inr ⟨resp, last, target, names ▸ among, rule, blocks, rfl⟩⟩
              refine (logIfEnabled_obeys common first truthful).bind fun h' _ same' => ?_
              exact obeys_pure ⟨reads, same'.trans same, fun _ => ⟨q, rfl, walk.passed.2 rfl⟩,
                fun passed => impossible passed.symm⟩

/-! ## The UDP handler -/

/-- A query about to be forwarded: nothing has been asked or answered. -/
structure Ready (msg : DnsMessage) (past : List (Event (Request ρ))) : Prop where
  asked : asked past = []
  responses : responses past = []
  sent : sent past = []
  written : written past = []
  passed : NamePassed msg (flow past)

theorem exchangeUdp_obeys (ready : Ready msg past) :
    Obeys (UdpProtocol client msg) past (exchangeUdp (toSend msg).wire) fun h resp =>
      ∃ queries answers, flow h = { flow past with asked := queries, responses := answers } ∧
        answers.getLast? = some resp := by
  refine obeys_attempt_bind (fun _ => ⟨rfl, ready.asked, ready.passed⟩) fun resp => ?_
  have first : flow (past ++ [⟨.udpQuery (toSend msg).wire, .ok resp⟩]) =
      { flow past with asked := [(toSend msg).wire], responses := [resp] } := by
    rw [flow_udpQuery, ready.asked, ready.responses]
    rfl
  have asked' := congrArg Flow.asked first
  have responses' := congrArg Flow.responses first
  split
  · rename_i tc
    refine obeys_attempt (fun _ => ⟨rfl, asked', ?_, resp, responses', tc⟩) fun resp' => ?_
    · rw [first]
      exact ready.passed
    · refine ⟨[(toSend msg).wire, (toSend msg).wire], [resp, resp'], ?_, rfl⟩
      simp only [flow] at asked' responses'
      rw [flow_tcpQuery, first, asked', responses']
      rfl
  · exact obeys_pure ⟨_, _, first, rfl⟩

section Check

variable {h : List (Event (Request ρ))} {reads : List (Blocklist ρ)} {resp reply : List UInt8}
  {relays : List UInt8 → List UInt8 → Prop}

/-- The two answers that the check of the targets leads to. -/
theorem licensed_refused (last : (responses past).getLast? = some resp)
    (same : flow h = { flow past with seen := seen past ++ reads })
    (hit : ∃ q, msg.questions.head? = some q ∧
      ∃ bl ∈ reads, ∃ target ∈ responseTargets resp, (bl.check target).IsBlocked) :
    Licensed msg relays (flow h) (nxdomain msg).wire := by
  obtain ⟨q, first, bl, read, target, member, blocked⟩ := hit
  rw [same]
  exact .inl ⟨rfl, q, first, bl, List.mem_append_right _ read, .inr ⟨resp, last, target, member,
    blocked⟩⟩

theorem allPassed_relayed (passed : NamePassed msg (flow past))
    (same : flow h = { flow past with seen := seen past ++ reads })
    (clean : msg.questions.head? ≠ none →
      List.Forall₂ (fun bl name => ¬ (bl.check name).IsBlocked) reads (responseTargets resp)) :
    AllPassed msg resp (flow h) := by
  rw [same]
  intro q first
  obtain ⟨bl, only, passes⟩ := passed q first
  have only : seen past = [bl] := only
  rw [only]
  exact .cons passes (clean (by rw [first]; exact Option.some_ne_none q))

end Check

theorem deliverUdp_obeys {resp : List UInt8} (last : (responses past).getLast? = some resp)
    (unsent : sent past = []) (passed : NamePassed msg (flow past)) :
    Obeys (UdpProtocol client msg) past (deliverUdp client msg resp) fun _ _ => True := by
  refine (cloakingCheck_obeys common_udp last).bind ?_
  rintro h cloaked ⟨reads, same, hit, clean⟩
  have last' : (responses h).getLast? = some resp :=
    (congrArg (fun f => f.responses.getLast?) same).trans last
  have unsent' : sent h = [] := (congrArg Flow.sent same).trans unsent
  cases cloaked with
  | true =>
      rw [if_pos rfl, buildNxdomain_eq, ofExcept_ok_bind]
      exact obeys_attempt (fun _ => ⟨unsent', licensed_refused last same (hit rfl)⟩)
        fun _ => trivial
  | false =>
      rw [if_neg Bool.false_ne_true]
      cases relay : relayed msg resp with
      | error e => exact obeys_fail
      | ok reply =>
          rw [ofExcept_ok_bind]
          have allPassed : AllPassed msg resp (flow h) := allPassed_relayed passed same (clean rfl)
          have licensed : Licensed msg (IsRelayed msg) (flow h) reply :=
            .inr ⟨resp, last', relay, allPassed⟩
          refine obeys_attempt_bind (fun _ => ⟨unsent', licensed⟩) fun _ => ?_
          refine (logForwarded_obeys common_udp ⟨resp, ?_, ?_⟩).mono (fun _ _ => id)
            fun _ _ _ => trivial
          · rw [flow_sendTo]
            exact last'
          · rw [flow_sendTo]
            exact allPassed

theorem forwardUdp_obeys (ready : Ready msg past) :
    Obeys (UdpProtocol client msg) past (forwardUdp client msg) fun _ _ => True := by
  rw [forwardUdp, packetToSend_eq, ofExcept_ok_bind]
  refine (exchangeUdp_obeys ready).bind ?_
  rintro h resp ⟨queries, answers, same, last⟩
  refine deliverUdp_obeys ?_ ?_ ?_
  · rwa [show responses h = answers from congrArg Flow.responses same]
  · exact (congrArg Flow.sent same).trans ready.sent
  · rw [same]
    exact ready.passed

/-- The check of the question, in front of either handler. -/
theorem screen_obeys {R : List (Event (Request ρ)) → Unit → Prop}
    (common : Common client msg P) {block : DnsQuestion → String → Handler ρ Unit}
    {forward : Handler ρ Unit}
    (blocks : ∀ q rule bl, msg.questions.head? = some q → bl.check q.name = .blocked rule →
      Obeys P [⟨.readBlocklist, bl⟩] (block q rule) R)
    (forwards : ∀ past, Ready msg past → Obeys P past forward R) :
    Obeys P [] (screen client msg block forward) R := by
  unfold screen
  cases first : msg.questions.head? with
  | none => exact forwards [] ⟨rfl, rfl, rfl, rfl, fun q some_ => by cases first.symm.trans some_⟩
  | some q =>
      refine obeys_call_bind (common.reads []) fun bl => ?_
      have ready : ¬ (bl.check q.name).IsBlocked → ∀ past,
          flow past = flow [⟨.readBlocklist, bl⟩] → Ready msg past := by
        intro passes past same
        refine ⟨congrArg Flow.asked same, congrArg Flow.responses same, congrArg Flow.sent same,
          congrArg Flow.written same, fun q' first' => ?_⟩
        cases first.symm.trans first'
        exact ⟨bl, congrArg Flow.seen same, passes⟩
      cases outcome : bl.check q.name with
      | blocked rule => exact blocks q rule bl first outcome
      | allowed rule =>
          have truthful : Truthful msg (flow [⟨.readBlocklist, bl⟩]) q "allowed" rule :=
            .inr (.inl ⟨rfl, bl, List.mem_singleton_self _, outcome⟩)
          refine (logIfEnabled_obeys common first truthful).bind fun past _ same => ?_
          exact forwards past (ready (by rw [outcome]; exact id) past same)
      | forwarded => exact forwards _ (ready (by rw [outcome]; exact id) _ rfl)

variable (client) in
/-- **The UDP handler keeps to its protocol**, whatever it is answered. -/
theorem handleUdpQuery_obeys {packet : List UInt8} (parsed : DnsMessage.parse packet = .ok msg) :
    Obeys (UdpProtocol (ρ := ρ) client msg) [] (handleUdpQuery client packet) fun _ _ => True := by
  rw [handleUdpQuery, parsed, ofExcept_ok_bind]
  refine screen_obeys common_udp (fun q rule bl first outcome => ?_) fun past => forwardUdp_obeys
  have truthful : Truthful msg (flow [⟨.readBlocklist, bl⟩]) q "blocked" rule :=
    .inl ⟨rfl, bl, List.mem_singleton_self _, .inl outcome⟩
  refine (logIfEnabled_obeys common_udp first truthful).bind fun h _ same => ?_
  rw [buildNxdomain_eq, ofExcept_ok_bind]
  refine obeys_attempt (fun _ => ⟨congrArg Flow.sent same, .inl ⟨rfl, ?_⟩⟩) fun _ => trivial
  rw [same]
  exact ⟨q, first, bl, List.mem_singleton_self _, .inl ⟨rfl, by rw [outcome]; trivial⟩⟩

/-! ## The TCP handler -/

/-- A round has written one reply, and it was free to. -/
def Replied (msg : DnsMessage) (h : List (Event (Request ρ))) : Prop :=
  ∃ reply, Licensed msg Eq (flow h) reply ∧ written h = frame reply

theorem replied_of_wrote {h : List (Event (Request ρ))} {reply : List UInt8}
    (licensed : Licensed msg Eq (flow past) reply)
    (wrote : flow h = { flow past with written := frame reply }) : Replied msg h := by
  refine ⟨reply, ?_, congrArg Flow.written wrote⟩
  rw [wrote]
  exact licensed

theorem writeTcpMessage_obeys {reply : List UInt8} (licensed : Licensed msg Eq (flow past) reply)
    (unwritten : written past = []) :
    Obeys (TcpProtocol client msg) past (writeTcpMessage reply) fun h _ =>
      flow h = { flow past with written := frame reply } := by
  have first : flow (past ++ [⟨.writeAll (beBytes16 (UInt16.ofNat reply.length)), .ok ()⟩]) =
      { flow past with written := beBytes16 (UInt16.ofNat reply.length) } := by
    rw [flow_writeAll, unwritten, List.nil_append]
  have written' := congrArg Flow.written first
  refine obeys_attempt_bind (fun _ => ⟨reply, licensed, ?_⟩) fun _ => ?_
  · rw [unwritten, List.nil_append]
    exact List.prefix_append _ _
  refine obeys_attempt_bind (fun _ => ⟨reply, ?_, ?_⟩) fun _ => ?_
  · rw [first]
    exact licensed
  · simp only [flow] at written'
    rw [written']
    exact List.prefix_refl _
  · refine obeys_attempt (fun _ => trivial) fun _ => ?_
    have last : ∀ h : List (Event (Request ρ)),
        flow h = { flow past with written := beBytes16 (UInt16.ofNat reply.length) } →
        flow (h ++ [⟨.writeAll reply, .ok ()⟩] ++ [⟨.flush, .ok ()⟩]) =
          { flow past with written := frame reply } := by
      intro h same
      have wrote : written h = beBytes16 (UInt16.ofNat reply.length) := congrArg Flow.written same
      rw [flow_flush, flow_writeAll, same, wrote]
      rfl
    exact last _ first

theorem deliverTcp_obeys {resp : List UInt8} (last : (responses past).getLast? = some resp)
    (unwritten : written past = []) (passed : NamePassed msg (flow past)) :
    Obeys (TcpProtocol client msg) past (deliverTcp client msg resp) fun h _ => Replied msg h := by
  refine (cloakingCheck_obeys common_tcp last).bind ?_
  rintro h cloaked ⟨reads, same, hit, clean⟩
  have last' : (responses h).getLast? = some resp :=
    (congrArg (fun f => f.responses.getLast?) same).trans last
  have unwritten' : written h = [] := (congrArg Flow.written same).trans unwritten
  cases cloaked with
  | true =>
      rw [if_pos rfl, buildNxdomain_eq, ofExcept_ok_bind]
      have licensed : Licensed msg Eq (flow h) (nxdomain msg).wire :=
        licensed_refused last same (hit rfl)
      exact (writeTcpMessage_obeys licensed unwritten').mono (fun _ _ => id)
        fun h' _ wrote => replied_of_wrote licensed wrote
  | false =>
      rw [if_neg Bool.false_ne_true]
      have allPassed : AllPassed msg resp (flow h) := allPassed_relayed passed same (clean rfl)
      have licensed : Licensed msg Eq (flow h) resp := .inr ⟨resp, last', rfl, allPassed⟩
      refine (writeTcpMessage_obeys licensed unwritten').bind fun h' _ wrote => ?_
      refine (logForwarded_obeys common_tcp ⟨resp, ?_, ?_⟩).mono (fun _ _ => id) fun h'' _ same' =>
        replied_of_wrote licensed (same'.trans wrote)
      · rw [wrote]
        exact last'
      · rw [wrote]
        exact allPassed

theorem forwardTcp_obeys (ready : Ready msg past) :
    Obeys (TcpProtocol client msg) past (forwardTcp client msg) fun h _ => Replied msg h := by
  rw [forwardTcp, packetToSend_eq, ofExcept_ok_bind]
  refine obeys_attempt_bind (fun _ => ⟨rfl, ready.asked, ready.passed⟩) fun resp => ?_
  have same : flow (past ++ [⟨.tcpQuery (toSend msg).wire, .ok resp⟩]) =
      { flow past with
        asked := asked past ++ [(toSend msg).wire], responses := responses past ++ [resp] } :=
    flow_tcpQuery
  refine deliverTcp_obeys ?_ ?_ ?_
  · rw [show responses _ = responses past ++ [resp] from congrArg Flow.responses same,
      List.getLast?_concat]
  · exact (congrArg Flow.written same).trans ready.written
  · rw [same]
    exact ready.passed

variable (client) in
/-- **A round of the TCP handler keeps to its protocol**, and one that gets to its end has
replied. -/
theorem serveTcpMessage_obeys {packet : List UInt8} (parsed : DnsMessage.parse packet = .ok msg) :
    Obeys (TcpProtocol (ρ := ρ) client msg) [] (serveTcpMessage client packet) fun h _ =>
      Replied msg h := by
  rw [serveTcpMessage, parsed, ofExcept_ok_bind]
  refine screen_obeys common_tcp (fun q rule bl first outcome => ?_) fun past => forwardTcp_obeys
  rw [buildNxdomain_eq, ofExcept_ok_bind]
  have licensed : Licensed msg Eq (flow [⟨.readBlocklist, bl⟩]) (nxdomain msg).wire :=
    .inl ⟨rfl, q, first, bl, List.mem_singleton_self _, .inl ⟨rfl, by rw [outcome]; trivial⟩⟩
  refine (writeTcpMessage_obeys licensed rfl).bind fun h _ wrote => ?_
  have truthful : Truthful msg (flow h) q "blocked" rule := by
    rw [wrote]
    exact .inl ⟨rfl, bl, List.mem_singleton_self _, .inl outcome⟩
  exact (logIfEnabled_obeys common_tcp first truthful).mono (fun _ _ => id)
    fun h' _ same => replied_of_wrote licensed (same.trans wrote)

/-! ## Connections -/

/-- A history of a connection on which a client sends `stream`: rounds that replied, one for
each message, and a last one that may be unfinished. -/
inductive Serves (client : String) : List UInt8 → List (Event (Request ρ)) → Prop
  | idle (stream : List UInt8) : Serves client stream []
  | unfinished {stream packet rest : List UInt8} {msg : DnsMessage}
      {round : List (Event (Request ρ))} : readFrame stream = some (packet, rest) →
      DnsMessage.parse packet = .ok msg → Always (TcpProtocol client msg) [] round →
      Serves client stream round
  | round {stream packet rest : List UInt8} {msg : DnsMessage}
      {round later : List (Event (Request ρ))} : readFrame stream = some (packet, rest) →
      DnsMessage.parse packet = .ok msg → Always (TcpProtocol client msg) [] round →
      Replied msg round → Serves client rest later → Serves client stream (round ++ later)

/-- **A connection is served in rounds**, at whatever point it is looked at. -/
theorem handleTcpQuery_serves (env : ∀ {γ : Type}, Request ρ γ → γ) (client : String)
    (stream : List UInt8) {events : List (Event (Request ρ))} {left : Handler ρ Unit}
    (resumes : Resumes (handleTcpQuery client stream) events left) :
    Serves client stream events := by
  induction hn : stream.length using Nat.strong_induction_on generalizing stream events with
  | _ n ih =>
      subst hn
      rw [handleTcpQuery] at resumes
      split at resumes
      · rename_i packet rest read
        cases parsed : DnsMessage.parse packet with
        | error e =>
            -- a message that does not parse ends the connection
            rw [serveTcpMessage, parsed] at resumes
            cases resumes with
            | refl => exact .idle stream
        | ok msg =>
            have obeys := serveTcpMessage_obeys (ρ := ρ) client parsed
            rcases resumes.of_bind with ⟨q, unfinished⟩ | ⟨⟨⟩, first, later, runs, next, rfl⟩
            · exact .unfinished read parsed (obeys.resumes env unfinished)
            · obtain ⟨always, replied⟩ := obeys _ _ runs
              exact .round read parsed always (replied () rfl)
                (ih _ (readFrame_shorter read) rest next rfl)
      · split at resumes
        · cases resumes with
          | refl => exact .idle stream
        · cases resumes with
          | refl => exact .idle stream

/-- An unfinished round has written nothing, or a part of a reply that it was free to give. -/
theorem written_of_always {round : List (Event (Request ρ))}
    (always : Always (TcpProtocol client msg) [] round) :
    written round = [] ∨ ∃ before after reply, round = before ++ after ∧
      Licensed msg Eq (flow before) reply ∧ written round <+: frame reply := by
  refine always.keeps (I := fun h => written h = [] ∨ ∃ before after reply, h = before ++ after ∧
    Licensed msg Eq (flow before) reply ∧ written h <+: frame reply) (.inl rfl) ?_
  rintro past ⟨request, answer⟩ now wrote
  have snoc : ∀ event : Event (Request ρ),
      written (past ++ [event]) = written past ++ octets event := fun event => by
    rw [written_append, show written [event] = octets event from List.flatMap_singleton _ _]
  have silent : ∀ event : Event (Request ρ), octets event = [] →
      written (past ++ [event]) = [] ∨ ∃ before after reply, past ++ [event] = before ++ after ∧
        Licensed msg Eq (flow before) reply ∧ written (past ++ [event]) <+: frame reply := by
    intro event none_
    rw [snoc, none_, List.append_nil]
    refine wrote.imp id ?_
    rintro ⟨before, after, reply, rfl, licensed, part⟩
    exact ⟨before, after ++ [event], reply, List.append_assoc _ _ _, licensed, part⟩
  cases request with
  | writeAll piece =>
      obtain ⟨reply, licensed, part⟩ := now
      rw [snoc]
      exact .inr ⟨past, _, reply, rfl, licensed, part⟩
  | readBlocklist => exact silent _ rfl
  | readLogQueries => exact silent _ rfl
  | logQuery source domain qtype action rule => exact silent _ rfl
  | udpQuery query => exact silent _ rfl
  | tcpQuery query => exact silent _ rfl
  | sendTo datagram => exact silent _ rfl
  | flush => exact silent _ rfl

end

end DnsLigase.Upstream
