/-
# Upstream.Runs — what a run of a handler asks and answers

A run is a list of events.  `asked`, `sent` and `written` project from it the
queries to the upstream, the datagrams to a UDP client and the octets on a TCP
client's stream; taking the lock of the blocklist or logging leaves none of them
(`Silent`).

* `reading bl`: runs in which no reload swaps the blocklist;
* `smooth bl udp tcp`: such runs in which besides no I/O fails and the upstream
  answers `udp` to a query over UDP and `tcp` to one over TCP.

Each part of a handler has one lemma that says what its runs can be.
-/
import DnsLigase.Upstream.Forward

namespace DnsLigase.Upstream

open DnsLigase.Theory DnsLigase.Dns
open DnsLigase.Theory.Bytes DnsLigase.Theory.Case DnsLigase.Theory.Io DnsLigase.Theory.Program

set_option autoImplicit false

variable {ρ : Type}

/-! ## Projections -/

def query? : Event (Request ρ) → Option (List UInt8)
  | ⟨.udpQuery query, _⟩ => some query
  | ⟨.tcpQuery query, _⟩ => some query
  | _ => none

def datagram? : Event (Request ρ) → Option (List UInt8)
  | ⟨.sendTo datagram, _⟩ => some datagram
  | _ => none

def octets : Event (Request ρ) → List UInt8
  | ⟨.writeAll octets, _⟩ => octets
  | _ => []

/-- The queries sent upstream. -/
def asked (events : List (Event (Request ρ))) : List (List UInt8) := events.filterMap query?

/-- The datagrams sent to the client. -/
def sent (events : List (Event (Request ρ))) : List (List UInt8) := events.filterMap datagram?

/-- The octets written to the client's stream. -/
def written (events : List (Event (Request ρ))) : List UInt8 := events.flatMap octets

def seen? : Event (Request ρ) → Option (Blocklist ρ)
  | ⟨.readBlocklist, bl⟩ => some bl
  | _ => none

/-- The blocklists that were read, one for each check. -/
def seen (events : List (Event (Request ρ))) : List (Blocklist ρ) := events.filterMap seen?

/-- Nothing left the forwarder. -/
structure Silent (events : List (Event (Request ρ))) : Prop where
  asked : asked events = []
  sent : sent events = []
  written : written events = []

section Append

variable {first second : List (Event (Request ρ))}

@[simp] theorem asked_append : asked (first ++ second) = asked first ++ asked second :=
  List.filterMap_append

@[simp] theorem sent_append : sent (first ++ second) = sent first ++ sent second :=
  List.filterMap_append

@[simp] theorem written_append : written (first ++ second) = written first ++ written second :=
  List.flatMap_append

@[simp] theorem seen_append : seen (first ++ second) = seen first ++ seen second :=
  List.filterMap_append

theorem Silent.nil : Silent ([] : List (Event (Request ρ))) := ⟨rfl, rfl, rfl⟩

theorem Silent.append (quiet : Silent first) (quiet' : Silent second) :
    Silent (first ++ second) :=
  ⟨by simp [quiet.asked, quiet'.asked], by simp [quiet.sent, quiet'.sent],
    by simp [quiet.written, quiet'.written]⟩

end Append

/-! ## Environments -/

/-- Every read of the blocklist gives `bl`. -/
def reading (bl : Blocklist ρ) : ∀ {γ : Type}, Request ρ γ → γ → Prop
  | _, .readBlocklist, seen => seen = bl
  | _, _, _ => True

/-- The blocklist stays `bl`, the upstream answers, and no I/O fails. -/
def smooth (bl : Blocklist ρ) (udp tcp : List UInt8) : ∀ {γ : Type}, Request ρ γ → γ → Prop
  | _, .readBlocklist, seen => seen = bl
  | _, .udpQuery _, answer => answer = .ok udp
  | _, .tcpQuery _, answer => answer = .ok tcp
  | _, .sendTo _, answer => answer = .ok ()
  | _, .writeAll _, answer => answer = .ok ()
  | _, .flush, answer => answer = .ok ()
  | _, .readLogQueries, _ => True
  | _, .logQuery _ _ _ _ _, _ => True

/-- No I/O fails and the upstream answers `udp` and `tcp`; reloads may swap the blocklist. -/
def answering (udp tcp : List UInt8) : ∀ {γ : Type}, Request ρ γ → γ → Prop
  | _, .udpQuery _, answer => answer = .ok udp
  | _, .tcpQuery _, answer => answer = .ok tcp
  | _, .sendTo _, answer => answer = .ok ()
  | _, .writeAll _, answer => answer = .ok ()
  | _, .flush, answer => answer = .ok ()
  | _, .readBlocklist, _ => True
  | _, .readLogQueries, _ => True
  | _, .logQuery _ _ _ _ _, _ => True

/-- The answers of a smooth run, with logging off. -/
def smoothly (bl : Blocklist ρ) (udp tcp : List UInt8) : ∀ {γ : Type}, Request ρ γ → γ
  | _, .readBlocklist => bl
  | _, .udpQuery _ => .ok udp
  | _, .tcpQuery _ => .ok tcp
  | _, .sendTo _ => .ok ()
  | _, .writeAll _ => .ok ()
  | _, .flush => .ok ()
  | _, .readLogQueries => false
  | _, .logQuery _ _ _ _ _ => ()

theorem smooth_smoothly (bl : Blocklist ρ) (udp tcp : List UInt8) :
    ∀ {γ : Type} (request : Request ρ γ), smooth bl udp tcp request (smoothly bl udp tcp request)
  | _, .readBlocklist => rfl
  | _, .udpQuery _ => rfl
  | _, .tcpQuery _ => rfl
  | _, .sendTo _ => rfl
  | _, .writeAll _ => rfl
  | _, .flush => rfl
  | _, .readLogQueries => trivial
  | _, .logQuery _ _ _ _ _ => trivial

theorem answering_of_smooth {bl : Blocklist ρ} {udp tcp : List UInt8} :
    ∀ {γ : Type} (request : Request ρ γ) (answer : γ),
      smooth bl udp tcp request answer → answering udp tcp request answer
  | _, .readBlocklist, _, _ => trivial
  | _, .udpQuery _, _, same => same
  | _, .tcpQuery _, _, same => same
  | _, .sendTo _, _, same => same
  | _, .writeAll _, _, same => same
  | _, .flush, _, same => same
  | _, .readLogQueries, _, _ => trivial
  | _, .logQuery _ _ _ _ _, _, _ => trivial

theorem reading_of_smooth {bl : Blocklist ρ} {udp tcp : List UInt8} :
    ∀ {γ : Type} (request : Request ρ γ) (answer : γ),
      smooth bl udp tcp request answer → reading bl request answer
  | _, .readBlocklist, _, same => same
  | _, .udpQuery _, _, _ => trivial
  | _, .tcpQuery _, _, _ => trivial
  | _, .sendTo _, _, _ => trivial
  | _, .writeAll _, _, _ => trivial
  | _, .flush, _, _ => trivial
  | _, .readLogQueries, _, _ => trivial
  | _, .logQuery _ _ _ _ _, _, _ => trivial

theorem seen_of_reading {bl : Blocklist ρ} {events : List (Event (Request ρ))}
    (fixed : Answered (reading bl) events) : ∀ other ∈ seen events, other = bl := by
  intro other member
  obtain ⟨event, found, same⟩ := List.mem_filterMap.mp member
  have allowed := fixed event found
  obtain ⟨request, answer⟩ := event
  cases request <;> cases same
  exact allowed

/-! ## Silent parts -/

variable {client : String} {msg : DnsMessage} {bl : Blocklist ρ}
  {events : List (Event (Request ρ))} {udp tcp : List UInt8}

theorem logIfEnabled_runs {q : DnsQuestion} {action rule : String} {out : Except IoError Unit}
    (runs : Runs (logIfEnabled client q action rule) events out) : Silent events ∧ out = .ok () := by
  obtain ⟨enabled, later, rfl, next⟩ := runs_call_bind.mp runs
  cases enabled with
  | false =>
      obtain ⟨rfl, rfl⟩ := runs_pure.mp next
      exact ⟨⟨rfl, rfl, rfl⟩, rfl⟩
  | true =>
      obtain ⟨⟨⟩, rfl, rfl⟩ := runs_call.mp next
      exact ⟨⟨rfl, rfl, rfl⟩, rfl⟩

theorem logForwarded_runs {out : Except IoError Unit}
    (runs : Runs (logForwarded client msg) events out) : Silent events ∧ out = .ok () := by
  obtain ⟨enabled, later, rfl, next⟩ := runs_call_bind.mp runs
  cases enabled with
  | false =>
      obtain ⟨rfl, rfl⟩ := runs_pure.mp next
      exact ⟨⟨rfl, rfl, rfl⟩, rfl⟩
  | true =>
      simp only [if_true] at next
      split at next
      · obtain ⟨rfl, rfl⟩ := runs_pure.mp next
        exact ⟨⟨rfl, rfl, rfl⟩, rfl⟩
      · obtain ⟨⟨⟩, rfl, rfl⟩ := runs_call.mp next
        exact ⟨⟨rfl, rfl, rfl⟩, rfl⟩

/-! ## Exchanges and frames -/

theorem packetToSend_eq (msg : DnsMessage) : packetToSend msg = .ok (toSend msg).wire :=
  (toSend msg).serialize_eq

theorem buildNxdomain_eq (msg : DnsMessage) : buildNxdomain msg = .ok (nxdomain msg).wire :=
  (nxdomain msg).serialize_eq

theorem exchangeUdp_runs {packet : List UInt8} {out : Except IoError (List UInt8)}
    (runs : Runs (exchangeUdp packet) events out) :
    (∀ query ∈ asked events, query = packet) ∧ sent events = [] ∧ written events = [] := by
  rcases runs_attempt_bind.mp runs with ⟨e, rfl, rfl⟩ | ⟨first, later, rfl, next⟩
  · exact ⟨by simp [asked, query?], rfl, rfl⟩
  split at next
  · obtain rfl := runs_attempt.mp next
    exact ⟨by simp [asked, query?], rfl, rfl⟩
  · obtain ⟨rfl, rfl⟩ := runs_pure.mp next
    exact ⟨by simp [asked, query?], rfl, rfl⟩

/-- The response that counts: the one over TCP when the one over UDP has TC set. -/
def finalResponse (udp tcp : List UInt8) : List UInt8 := if tcBitSet udp then tcp else udp

theorem finalResponse_self (resp : List UInt8) : finalResponse resp resp = resp := by
  unfold finalResponse
  split <;> rfl

theorem exchangeUdp_answering {packet : List UInt8} {out : Except IoError (List UInt8)}
    (runs : Runs (exchangeUdp packet) events out) (answered : Answered (answering udp tcp) events) :
    asked events ≠ [] ∧ out = .ok (finalResponse udp tcp) := by
  rcases runs_attempt_bind.mp runs with ⟨e, rfl, rfl⟩ | ⟨first, later, rfl, next⟩
  · nomatch (answered_cons.mp answered).1
  obtain ⟨same, answered'⟩ : Except.ok first = .ok udp ∧ Answered (answering udp tcp) later :=
    answered_cons.mp answered
  cases same
  unfold finalResponse
  split at next
  · rename_i tc
    obtain rfl := runs_attempt.mp next
    rw [if_pos tc]
    exact ⟨by simp [asked, query?], (answered_cons.mp answered').1⟩
  · rename_i complete
    obtain ⟨rfl, rfl⟩ := runs_pure.mp next
    rw [if_neg complete]
    exact ⟨by simp [asked, query?], rfl⟩

theorem writeFramed_ok {E : Type → Type} {writeAll : List UInt8 → E (Except IoError Unit)}
    {flush : E (Except IoError Unit)} {msg : List UInt8} {events : List (Event E)}
    (runs : Runs (writeFramed writeAll flush msg) events (.ok ())) :
    events = [⟨writeAll (beBytes16 (UInt16.ofNat msg.length)), .ok ()⟩,
      ⟨writeAll msg, .ok ()⟩, ⟨flush, .ok ()⟩] := by
  rcases runs_attempt_bind.mp runs with ⟨e, -, ⟨⟩⟩ | ⟨⟨⟩, later, rfl, next⟩
  rcases runs_attempt_bind.mp next with ⟨e, -, ⟨⟩⟩ | ⟨⟨⟩, last, rfl, final⟩
  rw [runs_attempt.mp final]

variable (udp tcp) in
theorem writeTcpMessage_runs {reply : List UInt8} {out : Except IoError Unit}
    (runs : Runs (writeTcpMessage reply) events out) :
    asked events = [] ∧
      (Answered (answering udp tcp) events → out = .ok () ∧ written events = frame reply) := by
  rcases runs_attempt_bind.mp runs with ⟨e, rfl, rfl⟩ | ⟨⟨⟩, later, rfl, next⟩
  · exact ⟨rfl, fun answered => nomatch (answered_cons.mp answered).1⟩
  rcases runs_attempt_bind.mp next with ⟨e, rfl, rfl⟩ | ⟨⟨⟩, last, rfl, final⟩
  · exact ⟨rfl, fun answered => nomatch (answered_cons.mp (answered_cons.mp answered).2).1⟩
  obtain rfl := runs_attempt.mp final
  refine ⟨rfl, fun answered => ⟨?_, by simp [written, octets, frame]⟩⟩
  exact (answered_cons.mp (answered_cons.mp (answered_cons.mp answered).2).2).1

section

variable [UnicodeCase] [RegexEngine ρ]

/-- The CNAME targets among the answers. -/
def targets (answers : List DnsResourceRecord) : List String :=
  answers.filterMap fun rr => if rr.rtype = 5 then rr.cnameTarget else none

/-- The walk over `names` up to the first that is blocked, each checked with the blocklist
that was read for it. -/
inductive Walk : List String → List (Blocklist ρ) → Option (String × String) → Prop
  | done : Walk [] [] none
  | pass {bl : Blocklist ρ} {name : String} {names : List String} {reads : List (Blocklist ρ)}
      {found : Option (String × String)} : ¬ (bl.check name).IsBlocked → Walk names reads found →
      Walk (name :: names) (bl :: reads) found
  | hit {bl : Blocklist ρ} {name rule : String} {names : List String} :
      bl.check name = .blocked rule → Walk (name :: names) [bl] (some (name, rule))

theorem blockedTarget_walks : ∀ {answers : List DnsResourceRecord}
    {events : List (Event (Request ρ))} {out : Except IoError (Option (String × String))},
    Runs (blockedTarget answers) events out →
    Silent events ∧ ∃ found, out = .ok found ∧ Walk (targets answers) (seen events) found
  | [], events, out, runs => by
      obtain ⟨rfl, rfl⟩ := runs_pure.mp runs
      exact ⟨.nil, none, rfl, .done⟩
  | rr :: rest, events, out, runs => by
      have skip : (if rr.rtype = 5 then rr.cnameTarget else none) = none →
          targets (rr :: rest) = targets rest :=
        fun none_ => List.filterMap_cons_none none_
      unfold blockedTarget at runs
      by_cases cname : rr.rtype = 5
      · rw [if_pos cname] at runs skip
        cases at_ : rr.cnameTarget with
        | none =>
            rw [at_] at runs
            rw [skip at_]
            exact blockedTarget_walks runs
        | some target =>
            rw [at_] at runs
            have first : targets (rr :: rest) = target :: targets rest :=
              List.filterMap_cons_some (by rw [if_pos cname, at_])
            rw [first]
            obtain ⟨bl, later, rfl, next⟩ := runs_call_bind.mp runs
            cases outcome : bl.check target with
            | blocked rule =>
                rw [outcome] at next
                obtain ⟨rfl, rfl⟩ := runs_pure.mp next
                exact ⟨⟨rfl, rfl, rfl⟩, _, rfl, .hit outcome⟩
            | allowed rule =>
                rw [outcome] at next
                obtain ⟨silent, found, rfl, walk⟩ := blockedTarget_walks next
                exact ⟨⟨silent.asked, silent.sent, silent.written⟩, found, rfl,
                  .pass (by rw [outcome]; exact id) walk⟩
            | forwarded =>
                rw [outcome] at next
                obtain ⟨silent, found, rfl, walk⟩ := blockedTarget_walks next
                exact ⟨⟨silent.asked, silent.sent, silent.written⟩, found, rfl,
                  .pass (by rw [outcome]; exact id) walk⟩
      · rw [if_neg cname] at runs skip
        rw [skip rfl]
        exact blockedTarget_walks runs

/-- A walk with one blocklist finds a name exactly if there is one to find. -/
theorem Walk.found_iff {names : List String} {reads : List (Blocklist ρ)}
    {found : Option (String × String)} (walk : Walk names reads found)
    (fixed : ∀ other ∈ reads, other = bl) :
    found.isSome ↔ ∃ name ∈ names, (bl.check name).IsBlocked := by
  induction walk with
  | done => simp
  | pass clean _ ih =>
      obtain rfl := fixed _ List.mem_cons_self
      rw [ih fun other member => fixed other (List.mem_cons_of_mem _ member)]
      simp [clean]
  | hit blocked =>
      obtain rfl := fixed _ List.mem_cons_self
      exact ⟨fun _ => ⟨_, List.mem_cons_self, by rw [blocked]; trivial⟩, fun _ => rfl⟩

/-- Some CNAME record among `answers` has a target that is blocked. -/
def HasBlockedTarget (bl : Blocklist ρ) (answers : List DnsResourceRecord) : Prop :=
  ∃ rr ∈ answers, rr.rtype = 5 ∧ ∃ target, rr.cnameTarget = some target ∧
    (bl.check target).IsBlocked

theorem hasBlockedTarget_iff {answers : List DnsResourceRecord} :
    HasBlockedTarget bl answers ↔ ∃ name ∈ targets answers, (bl.check name).IsBlocked := by
  simp only [HasBlockedTarget, targets, List.mem_filterMap]
  constructor
  · rintro ⟨rr, member, cname, target, at_, blocked⟩
    exact ⟨target, ⟨rr, member, by rw [if_pos cname, at_]⟩, blocked⟩
  · rintro ⟨target, ⟨rr, member, at_⟩, blocked⟩
    split at at_
    · rename_i cname
      exact ⟨rr, member, cname, target, at_, blocked⟩
    · cases at_

theorem blockedTarget_runs {answers : List DnsResourceRecord}
    {out : Except IoError (Option (String × String))}
    (runs : Runs (blockedTarget answers) events out) (fixed : Answered (reading bl) events) :
    Silent events ∧ ∃ found, out = .ok found ∧ (found.isSome ↔ HasBlockedTarget bl answers) := by
  obtain ⟨silent, found, ended, walk⟩ := blockedTarget_walks runs
  exact ⟨silent, found, ended,
    (walk.found_iff (seen_of_reading fixed)).trans hasBlockedTarget_iff.symm⟩

/-- The response is one that the handlers replace: the query had a question, and the
response parses and has a blocked CNAME target. -/
def Cloaked (bl : Blocklist ρ) (msg : DnsMessage) (resp : List UInt8) : Prop :=
  msg.questions ≠ [] ∧ ∃ respMsg, DnsMessage.parse resp = .ok respMsg ∧
    HasBlockedTarget bl respMsg.answers

theorem cloakingCheck_runs {resp : List UInt8} {out : Except IoError Bool}
    (runs : Runs (cloakingCheck client msg resp) events out)
    (fixed : Answered (reading bl) events) :
    Silent events ∧ ∃ cloaked, out = .ok cloaked ∧ (cloaked = true ↔ Cloaked bl msg resp) := by
  unfold cloakingCheck at runs
  cases question : msg.questions.head? with
  | none =>
      rw [question] at runs
      obtain ⟨rfl, rfl⟩ := runs_pure.mp runs
      exact ⟨.nil, false, rfl, by simp [Cloaked, List.head?_eq_none_iff.mp question]⟩
  | some q =>
      have nonempty : msg.questions ≠ [] := by
        rintro empty
        simp [empty] at question
      rw [question] at runs
      cases parsed : DnsMessage.parse resp with
      | error e =>
          rw [parsed] at runs
          obtain ⟨rfl, rfl⟩ := runs_pure.mp runs
          exact ⟨.nil, false, rfl, by simp [Cloaked, parsed]⟩
      | ok respMsg =>
          rw [parsed] at runs
          have iff : Cloaked bl msg resp ↔ HasBlockedTarget bl respMsg.answers := by
            simp [Cloaked, nonempty, parsed]
          rw [iff]
          rcases runs_bind.mp runs with ⟨e, walked, rfl⟩ | ⟨found, first, later, walked, next, rfl⟩
          · obtain ⟨-, _, ⟨⟩, -⟩ := blockedTarget_runs walked fixed
          obtain ⟨silent, found', same, isSome⟩ := blockedTarget_runs walked
            (answered_append.mp fixed).1
          cases same
          rw [← isSome]
          cases found with
          | none =>
              obtain ⟨rfl, rfl⟩ := runs_pure.mp next
              exact ⟨silent.append .nil, false, rfl, by simp⟩
          | some hit =>
              rcases runs_bind.mp next with ⟨e, logged, rfl⟩ | ⟨⟨⟩, log, tail, logged, last, rfl⟩
              · cases (logIfEnabled_runs logged).2
              obtain ⟨rfl, rfl⟩ := runs_pure.mp last
              exact ⟨silent.append ((logIfEnabled_runs logged).1.append .nil), true, rfl, by simp⟩

/-- Behind the exchange one datagram is sent: NXDOMAIN when the response is cloaked, and
else what is relayed of it, which is nothing when it must be cut and does not parse. -/
theorem deliverUdp_runs {resp : List UInt8} {out : Except IoError Unit}
    (runs : Runs (deliverUdp client msg resp) events out) (fixed : Answered (reading bl) events) :
    asked events = [] ∧
      (Cloaked bl msg resp → sent events = [(nxdomain msg).wire]) ∧
      (¬ Cloaked bl msg resp → sent events = (relayed msg resp).toOption.toList) := by
  rcases runs_bind.mp runs with ⟨e, checked, rfl⟩ | ⟨cloaked, first, later, checked, next, rfl⟩
  · obtain ⟨-, _, ⟨⟩, -⟩ := cloakingCheck_runs checked fixed
  obtain ⟨silent, cloaked', same, iff⟩ := cloakingCheck_runs checked (answered_append.mp fixed).1
  cases same
  rw [← iff, asked_append, sent_append, silent.asked, silent.sent, List.nil_append, List.nil_append]
  cases cloaked with
  | true =>
      rw [if_pos rfl, buildNxdomain_eq, ofExcept_ok_bind] at next
      obtain rfl := runs_attempt.mp next
      exact ⟨rfl, fun _ => rfl, fun other => absurd rfl other⟩
  | false =>
      rw [if_neg Bool.false_ne_true] at next
      suffices relay : asked later = [] ∧ sent later = (relayed msg resp).toOption.toList from
        ⟨relay.1, fun other => absurd other Bool.false_ne_true, fun _ => relay.2⟩
      cases relay : relayed msg resp with
      | error e =>
          rw [relay, ofExcept_error_bind] at next
          obtain ⟨rfl, rfl⟩ := runs_fail.mp next
          exact ⟨rfl, rfl⟩
      | ok reply =>
          rw [relay, ofExcept_ok_bind] at next
          rcases runs_attempt_bind.mp next with ⟨e, rfl, rfl⟩ | ⟨⟨⟩, tail, rfl, logged⟩
          · exact ⟨rfl, rfl⟩
          have silent := (logForwarded_runs logged).1
          exact ⟨silent.asked, congrArg (reply :: ·) silent.sent⟩

variable (udp tcp) in
theorem deliverTcp_runs {resp : List UInt8} {out : Except IoError Unit}
    (runs : Runs (deliverTcp client msg resp) events out) (fixed : Answered (reading bl) events) :
    asked events = [] ∧ (Answered (smooth bl udp tcp) events →
      (Cloaked bl msg resp → written events = frame (nxdomain msg).wire) ∧
      (¬ Cloaked bl msg resp → written events = frame resp)) := by
  rcases runs_bind.mp runs with ⟨e, checked, rfl⟩ | ⟨cloaked, first, later, checked, next, rfl⟩
  · obtain ⟨-, _, ⟨⟩, -⟩ := cloakingCheck_runs checked fixed
  obtain ⟨silent, cloaked', same, iff⟩ := cloakingCheck_runs checked (answered_append.mp fixed).1
  cases same
  rw [← iff, asked_append, written_append, silent.asked, silent.written, List.nil_append,
    List.nil_append]
  cases cloaked with
  | true =>
      rw [if_pos rfl, buildNxdomain_eq, ofExcept_ok_bind] at next
      have wrote := writeTcpMessage_runs udp tcp next
      exact ⟨wrote.1, fun answered =>
        ⟨fun _ => (wrote.2 ((answered_append.mp answered).2.mono answering_of_smooth)).2,
          fun other => absurd rfl other⟩⟩
  | false =>
      rw [if_neg Bool.false_ne_true] at next
      rcases runs_bind.mp next with ⟨e, wrote, rfl⟩ | ⟨⟨⟩, out', log, wrote, logged, rfl⟩
      · have wrote := writeTcpMessage_runs udp tcp wrote
        exact ⟨wrote.1, fun answered =>
          nomatch (wrote.2 ((answered_append.mp answered).2.mono answering_of_smooth)).1⟩
      have wrote := writeTcpMessage_runs udp tcp wrote
      have silent := (logForwarded_runs logged).1
      refine ⟨by rw [asked_append, wrote.1, silent.asked]; rfl, fun answered =>
        ⟨fun other => absurd other Bool.false_ne_true, fun _ => ?_⟩⟩
      have whole := wrote.2 (Answered.mono answering_of_smooth
        (answered_append.mp (answered_append.mp answered).2).1)
      rw [written_append, whole.2, silent.written, List.append_nil]

variable (udp tcp) in
/-- Past the check of the question, the query is sent with the forwarder's OPT record,
and the final response is delivered. -/
theorem forwardUdp_runs {out : Except IoError Unit}
    (runs : Runs (forwardUdp client msg) events out) (fixed : Answered (reading bl) events) :
    (∀ query ∈ asked events, query = (toSend msg).wire) ∧
      (Answered (smooth bl udp tcp) events → asked events ≠ [] ∧
        (Cloaked bl msg (finalResponse udp tcp) → sent events = [(nxdomain msg).wire]) ∧
        (¬ Cloaked bl msg (finalResponse udp tcp) →
          sent events = (relayed msg (finalResponse udp tcp)).toOption.toList)) := by
  rw [forwardUdp, packetToSend_eq, ofExcept_ok_bind] at runs
  rcases runs_bind.mp runs with ⟨e, exchanged, rfl⟩ | ⟨resp, first, later, exchanged, next, rfl⟩
  · exact ⟨(exchangeUdp_runs exchanged).1, fun answered =>
      nomatch (exchangeUdp_answering exchanged (answered.mono answering_of_smooth)).2⟩
  obtain ⟨onlyThis, noneSent, -⟩ := exchangeUdp_runs exchanged
  obtain ⟨noneAsked, cloaked, clean⟩ := deliverUdp_runs next (answered_append.mp fixed).2
  rw [asked_append, sent_append, noneAsked, noneSent, List.append_nil, List.nil_append]
  refine ⟨onlyThis, fun answered => ?_⟩
  obtain ⟨some_, same⟩ := exchangeUdp_answering exchanged
    ((answered_append.mp answered).1.mono answering_of_smooth)
  cases same
  exact ⟨some_, cloaked, clean⟩

variable (udp tcp) in
theorem forwardTcp_runs {out : Except IoError Unit}
    (runs : Runs (forwardTcp client msg) events out) (fixed : Answered (reading bl) events) :
    (∀ query ∈ asked events, query = (toSend msg).wire) ∧
      (Answered (smooth bl udp tcp) events → asked events ≠ [] ∧
        (Cloaked bl msg tcp → written events = frame (nxdomain msg).wire) ∧
        (¬ Cloaked bl msg tcp → written events = frame tcp)) := by
  rw [forwardTcp, packetToSend_eq, ofExcept_ok_bind] at runs
  rcases runs_attempt_bind.mp runs with ⟨e, rfl, rfl⟩ | ⟨resp, later, rfl, next⟩
  · exact ⟨by simp [asked, query?], fun answered => nomatch (answered_cons.mp answered).1⟩
  have delivered := deliverTcp_runs udp tcp next (answered_cons.mp fixed).2
  have onlyThis : asked (⟨.tcpQuery (toSend msg).wire, .ok resp⟩ :: later) = [(toSend msg).wire] :=
    congrArg ((toSend msg).wire :: ·) delivered.1
  rw [onlyThis]
  refine ⟨fun query member => List.mem_singleton.mp member, fun answered => ?_⟩
  obtain ⟨same, answered'⟩ : Except.ok resp = .ok tcp ∧ Answered (smooth bl udp tcp) later :=
    answered_cons.mp answered
  cases same
  exact ⟨List.cons_ne_nil _ _, delivered.2 answered'⟩

/-- Whatever becomes of it, the query has been sent. -/
theorem forwardUdp_asks {out : Except IoError Unit}
    (runs : Runs (forwardUdp client msg) events out) : (toSend msg).wire ∈ asked events := by
  have exchange : ∀ {first : List (Event (Request ρ))} {resp : Except IoError (List UInt8)},
      Runs (exchangeUdp (toSend msg).wire) first resp → (toSend msg).wire ∈ asked first := by
    intro first resp exchanged
    rcases runs_attempt_bind.mp exchanged with ⟨e, rfl, -⟩ | ⟨udp, later, rfl, -⟩
    · exact List.mem_cons_self
    · exact List.mem_cons_self
  rw [forwardUdp, packetToSend_eq, ofExcept_ok_bind] at runs
  rcases runs_bind.mp runs with ⟨e, exchanged, rfl⟩ | ⟨resp, first, later, exchanged, -, rfl⟩
  · exact exchange exchanged
  · rw [asked_append]
    exact List.mem_append_left _ (exchange exchanged)

theorem forwardTcp_asks {out : Except IoError Unit}
    (runs : Runs (forwardTcp client msg) events out) : (toSend msg).wire ∈ asked events := by
  rw [forwardTcp, packetToSend_eq, ofExcept_ok_bind] at runs
  rcases runs_attempt_bind.mp runs with ⟨e, rfl, -⟩ | ⟨resp, later, rfl, -⟩
  · exact List.mem_cons_self
  · exact List.mem_cons_self

/-! ## The two handlers -/

/-- The first question asks for a name that is blocked. -/
def Screened (bl : Blocklist ρ) (msg : DnsMessage) : Prop :=
  ∃ q, msg.questions.head? = some q ∧ (bl.check q.name).IsBlocked

/-- The check of the question, which both handlers begin with: `block` answers a query that
is blocked, `forward` serves any other. -/
def screen (client : String) (msg : DnsMessage) (block : DnsQuestion → String → Handler ρ Unit)
    (forward : Handler ρ Unit) : Handler ρ Unit :=
  match msg.questions.head? with
  | none => forward
  | some q => do
      match (← call .readBlocklist).check q.name with
      | .blocked rule => block q rule
      | .allowed rule =>
          logIfEnabled client q "allowed" rule
          forward
      | .forwarded => forward

theorem screen_runs {block : DnsQuestion → String → Handler ρ Unit} {forward : Handler ρ Unit}
    {out : Except IoError Unit} (runs : Runs (screen client msg block forward) events out)
    (fixed : Answered (reading bl) events) :
    (Screened bl msg → ∃ q rule first rest, events = first ++ rest ∧ Silent first ∧
      Runs (block q rule) rest out) ∧
      (¬ Screened bl msg → ∃ first rest, events = first ++ rest ∧ Silent first ∧
        Runs forward rest out) := by
  unfold screen at runs
  cases question : msg.questions.head? with
  | none =>
      rw [question] at runs
      exact ⟨by simp [Screened, question], fun _ => ⟨[], events, rfl, .nil, runs⟩⟩
  | some q =>
      rw [question] at runs
      obtain ⟨seen, later, rfl, next⟩ := runs_call_bind.mp runs
      obtain rfl : seen = bl := (answered_cons.mp fixed).1
      have screened : Screened seen msg ↔ (seen.check q.name).IsBlocked := by
        simp [Screened, question]
      rw [screened]
      cases outcome : seen.check q.name with
      | blocked rule =>
          simp only [outcome] at next
          exact ⟨fun _ => ⟨q, rule, [_], later, rfl, ⟨rfl, rfl, rfl⟩, next⟩,
            fun other => absurd trivial other⟩
      | allowed rule =>
          simp only [outcome] at next
          refine ⟨False.elim, fun _ => ?_⟩
          rcases runs_bind.mp next with ⟨e, logged, rfl⟩ | ⟨⟨⟩, log, tail, logged, final, rfl⟩
          · cases (logIfEnabled_runs logged).2
          have silent := (logIfEnabled_runs logged).1
          exact ⟨_ :: log, tail, rfl, ⟨silent.asked, silent.sent, silent.written⟩, final⟩
      | forwarded =>
          simp only [outcome] at next
          exact ⟨False.elim, fun _ => ⟨[_], later, rfl, ⟨rfl, rfl, rfl⟩, next⟩⟩

/-- A query that is screened is answered with NXDOMAIN at once; any other goes on to
`forwardUdp`, after what may have been logged. -/
theorem handleUdpQuery_runs {packet : List UInt8} {out : Except IoError Unit}
    (parsed : DnsMessage.parse packet = .ok msg)
    (runs : Runs (handleUdpQuery client packet) events out)
    (fixed : Answered (reading bl) events) :
    (Screened bl msg → asked events = [] ∧ sent events = [(nxdomain msg).wire]) ∧
      (¬ Screened bl msg → ∃ first rest, events = first ++ rest ∧ Silent first ∧
        Runs (forwardUdp client msg) rest out) := by
  rw [handleUdpQuery, parsed, ofExcept_ok_bind] at runs
  obtain ⟨stopped, passed⟩ := screen_runs runs fixed
  refine ⟨fun screened => ?_, passed⟩
  obtain ⟨q, rule, first, rest, rfl, silent, next⟩ := stopped screened
  rcases runs_bind.mp next with ⟨e, logged, rfl⟩ | ⟨⟨⟩, log, tail, logged, final, rfl⟩
  · cases (logIfEnabled_runs logged).2
  rw [buildNxdomain_eq, ofExcept_ok_bind] at final
  obtain rfl := runs_attempt.mp final
  have quiet := silent.append (logIfEnabled_runs logged).1
  rw [← List.append_assoc, asked_append, sent_append, quiet.asked, quiet.sent]
  exact ⟨rfl, rfl⟩

variable (udp tcp) in
theorem serveTcpMessage_runs {packet : List UInt8} {out : Except IoError Unit}
    (parsed : DnsMessage.parse packet = .ok msg)
    (runs : Runs (serveTcpMessage client packet) events out)
    (fixed : Answered (reading bl) events) :
    (Screened bl msg → asked events = [] ∧
      (Answered (smooth bl udp tcp) events → written events = frame (nxdomain msg).wire)) ∧
      (¬ Screened bl msg → ∃ first rest, events = first ++ rest ∧ Silent first ∧
        Runs (forwardTcp client msg) rest out) := by
  rw [serveTcpMessage, parsed, ofExcept_ok_bind] at runs
  obtain ⟨stopped, passed⟩ := screen_runs runs fixed
  refine ⟨fun screened => ?_, passed⟩
  obtain ⟨q, rule, first, rest, rfl, silent, next⟩ := stopped screened
  rw [buildNxdomain_eq, ofExcept_ok_bind] at next
  rw [asked_append, written_append, silent.asked, silent.written, List.nil_append, List.nil_append]
  rcases runs_bind.mp next with ⟨e, wrote, rfl⟩ | ⟨⟨⟩, reply, log, wrote, logged, rfl⟩
  · have wrote := writeTcpMessage_runs udp tcp wrote
    exact ⟨wrote.1, fun answered =>
      nomatch (wrote.2 ((answered_append.mp answered).2.mono answering_of_smooth)).1⟩
  have wrote := writeTcpMessage_runs udp tcp wrote
  have quiet := (logIfEnabled_runs logged).1
  refine ⟨by rw [asked_append, wrote.1, quiet.asked]; rfl, fun answered => ?_⟩
  have whole := wrote.2 (Answered.mono answering_of_smooth
        (answered_append.mp (answered_append.mp answered).2).1)
  rw [written_append, whole.2, quiet.written, List.append_nil]

/-- The query is answered with NXDOMAIN: its name is blocked, or a target in the response. -/
def Refused (bl : Blocklist ρ) (msg : DnsMessage) (resp : List UInt8) : Prop :=
  Screened bl msg ∨ Cloaked bl msg resp

/-- **What a UDP client is sent**, where no I/O fails and the blocklist stays. -/
theorem handleUdpQuery_smooth {packet : List UInt8} {out : Except IoError Unit}
    (parsed : DnsMessage.parse packet = .ok msg)
    (runs : Runs (handleUdpQuery client packet) events out)
    (answered : Answered (smooth bl udp tcp) events) :
    (Refused bl msg (finalResponse udp tcp) → sent events = [(nxdomain msg).wire]) ∧
      (¬ Refused bl msg (finalResponse udp tcp) →
        sent events = (relayed msg (finalResponse udp tcp)).toOption.toList) := by
  obtain ⟨stopped, passed⟩ := handleUdpQuery_runs parsed runs (answered.mono reading_of_smooth)
  by_cases screened : Screened bl msg
  · exact ⟨fun _ => (stopped screened).2, fun other => absurd (.inl screened) other⟩
  obtain ⟨first, rest, rfl, silent, forward⟩ := passed screened
  have answered' := (answered_append.mp answered).2
  obtain ⟨-, delivered⟩ := forwardUdp_runs udp tcp forward (answered'.mono reading_of_smooth)
  obtain ⟨-, cloaked, clean⟩ := delivered answered'
  rw [sent_append, silent.sent, List.nil_append]
  exact ⟨fun refused => cloaked (refused.resolve_left screened),
    fun other => clean fun hit => other (.inr hit)⟩

/-- **What a TCP client is sent** for one message, in the same case. -/
theorem serveTcpMessage_smooth {packet : List UInt8} {out : Except IoError Unit}
    (parsed : DnsMessage.parse packet = .ok msg)
    (runs : Runs (serveTcpMessage client packet) events out)
    (answered : Answered (smooth bl udp tcp) events) :
    (Refused bl msg tcp → written events = frame (nxdomain msg).wire) ∧
      (¬ Refused bl msg tcp → written events = frame tcp) := by
  obtain ⟨stopped, passed⟩ :=
    serveTcpMessage_runs udp tcp parsed runs (answered.mono reading_of_smooth)
  by_cases screened : Screened bl msg
  · exact ⟨fun _ => (stopped screened).2 answered, fun other => absurd (.inl screened) other⟩
  obtain ⟨first, rest, rfl, silent, forward⟩ := passed screened
  have answered' := (answered_append.mp answered).2
  obtain ⟨-, delivered⟩ := forwardTcp_runs udp tcp forward (answered'.mono reading_of_smooth)
  obtain ⟨-, cloaked, clean⟩ := delivered answered'
  rw [written_append, silent.written, List.nil_append]
  exact ⟨fun refused => cloaked (refused.resolve_left screened),
    fun other => clean fun hit => other (.inr hit)⟩

/-- Whatever is asked is asked by what runs behind the check. -/
theorem asked_behind {Ran : List (Event (Request ρ)) → Prop} {query : List UInt8}
    (stopped : Screened bl msg → asked events = [])
    (passed : ¬ Screened bl msg →
      ∃ first rest, events = first ++ rest ∧ Silent first ∧ Ran rest)
    (fixed : Answered (reading bl) events) (member : query ∈ asked events) :
    ¬ Screened bl msg ∧
      ∃ rest, Ran rest ∧ Answered (reading bl) rest ∧ query ∈ asked rest := by
  by_cases screened : Screened bl msg
  · rw [stopped screened] at member
    exact absurd member List.not_mem_nil
  obtain ⟨first, rest, rfl, silent, ran⟩ := passed screened
  rw [asked_append, silent.asked, List.nil_append] at member
  exact ⟨screened, rest, ran, (answered_append.mp fixed).2, member⟩

/-- Whichever handler serves a packet, what it asks the upstream is the re-encoded query,
and only after the check let the question pass. -/
theorem of_mem_asked {packet query : List UInt8} {out : Except IoError Unit}
    (parsed : DnsMessage.parse packet = .ok msg)
    (runs : Runs (handleUdpQuery client packet) events out ∨
      Runs (serveTcpMessage client packet) events out)
    (fixed : Answered (reading bl) events) (member : query ∈ asked events) :
    ¬ Screened bl msg ∧ query = (toSend msg).wire := by
  rcases runs with runs | runs
  · obtain ⟨stopped, passed⟩ := handleUdpQuery_runs parsed runs fixed
    obtain ⟨passes, rest, forward, fixed, member⟩ :=
      asked_behind (fun screened => (stopped screened).1) passed fixed member
    exact ⟨passes, (forwardUdp_runs [] [] forward fixed).1 query member⟩
  · obtain ⟨stopped, passed⟩ := serveTcpMessage_runs [] [] parsed runs fixed
    obtain ⟨passes, rest, forward, fixed, member⟩ :=
      asked_behind (fun screened => (stopped screened).1) passed fixed member
    exact ⟨passes, (forwardTcp_runs [] [] forward fixed).1 query member⟩

/-- Whichever handler serves it, a query that passes the check is asked. -/
theorem asked_of_passes {packet : List UInt8} {out : Except IoError Unit}
    (parsed : DnsMessage.parse packet = .ok msg)
    (runs : Runs (handleUdpQuery client packet) events out ∨
      Runs (serveTcpMessage client packet) events out)
    (fixed : Answered (reading bl) events) (passes : ¬ Screened bl msg) :
    (toSend msg).wire ∈ asked events := by
  rcases runs with runs | runs
  · obtain ⟨first, rest, rfl, -, forward⟩ := (handleUdpQuery_runs parsed runs fixed).2 passes
    rw [asked_append]
    exact List.mem_append_right _ (forwardUdp_asks forward)
  · obtain ⟨first, rest, rfl, -, forward⟩ :=
      (serveTcpMessage_runs [] [] parsed runs fixed).2 passes
    rw [asked_append]
    exact List.mem_append_right _ (forwardTcp_asks forward)

/-- A query that passes the check is asked in some run. -/
theorem exists_asked {packet : List UInt8} (parsed : DnsMessage.parse packet = .ok msg)
    (passes : ¬ Screened bl msg) (client : String) :
    ∃ (events : List (Event (Request ρ))) (out : Except IoError Unit),
      Runs (handleUdpQuery client packet) events out ∧ Answered (reading bl) events ∧
        (toSend msg).wire ∈ asked events := by
  have runs := exec_runs (smoothly bl [] []) (handleUdpQuery client packet)
  have answered := exec_answered (smooth_smoothly bl [] []) (handleUdpQuery client packet)
  have fixed := answered.mono reading_of_smooth
  exact ⟨_, _, runs, fixed, asked_of_passes parsed (.inl runs) fixed passes⟩

end

end DnsLigase.Upstream
