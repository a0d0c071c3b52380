/-
# Upstream.Decision — what a handler decides about one query, whatever it reads

Both handlers make the same decision about a query, one check at a time: the name of the
question, then the CNAME targets of the response up to the first that is blocked.  The lock
of the blocklist is taken anew for every check, so `Decision` has one blocklist for each.
It also has the records that are logged on the way, and whether the answer is NXDOMAIN.

`handleUdpQuery_decides` and `serveTcpMessage_decides`: each handler, run against an upstream
that answers and with no I/O failing, makes a decision and acts on it.
-/
import DnsLigase.Upstream.Runs

namespace DnsLigase.Upstream

open DnsLigase.Theory DnsLigase.Dns
open DnsLigase.Theory.Bytes DnsLigase.Theory.Case DnsLigase.Theory.Io DnsLigase.Theory.Program

set_option autoImplicit false

variable {ρ : Type}

/-! ## Records -/

/-- The arguments of `journald::log_query`. -/
structure QueryRecord where
  source : String
  domain : String
  qtype : String
  action : String
  rule : String
  deriving DecidableEq, Repr

def record? : Event (Request ρ) → Option QueryRecord
  | ⟨.logQuery source domain qtype action rule, _⟩ => some ⟨source, domain, qtype, action, rule⟩
  | _ => none

/-- The records that are sent to journald. -/
def logged (events : List (Event (Request ρ))) : List QueryRecord := events.filterMap record?

/-- Query logging is enabled whenever the flag is read. -/
def loggingOn : ∀ {γ : Type}, Request ρ γ → γ → Prop
  | _, .readLogQueries, enabled => enabled = true
  | _, _, _ => True

/-- The record that a handler logs about a question. -/
def recordOf (client : String) (q : DnsQuestion) (action rule : String) : QueryRecord :=
  ⟨client, q.name, qtypeStr q.qtype, action, rule⟩

@[simp] theorem logged_append (first second : List (Event (Request ρ))) :
    logged (first ++ second) = logged first ++ logged second :=
  List.filterMap_append

section Read

variable {bl : Blocklist ρ} {events : List (Event (Request ρ))}

@[simp] theorem seen_read : seen (⟨.readBlocklist, bl⟩ :: events) = bl :: seen events := rfl

@[simp] theorem sent_read : sent (⟨.readBlocklist, bl⟩ :: events) = sent events := rfl

@[simp] theorem written_read : written (⟨.readBlocklist, bl⟩ :: events) = written events := rfl

@[simp] theorem logged_read : logged (⟨.readBlocklist, bl⟩ :: events) = logged events := rfl

end Read

/-- Requests that neither read the blocklist nor log. -/
def Request.Plain : ∀ {γ : Type}, Request ρ γ → Prop
  | _, .readBlocklist => False
  | _, .logQuery _ _ _ _ _ => False
  | _, _ => True

def Request.Reads : ∀ {γ : Type}, Request ρ γ → Prop
  | _, .readBlocklist => True
  | _, _ => False

section Parts

variable {client : String} {msg : DnsMessage} {q : DnsQuestion} {events : List (Event (Request ρ))}

theorem quiet_of_plain {event : Event (Request ρ)} (plain : event.request.Plain) :
    seen? event = none ∧ record? event = none := by
  obtain ⟨request, answer⟩ := event
  cases request <;> first | exact ⟨rfl, rfl⟩ | exact plain.elim

theorem seen_of_plain (plain : ∀ event ∈ events, event.request.Plain) : seen events = [] :=
  List.filterMap_eq_nil_iff.mpr fun event member => (quiet_of_plain (plain event member)).1

theorem logged_of_plain (plain : ∀ event ∈ events, event.request.Plain) : logged events = [] :=
  List.filterMap_eq_nil_iff.mpr fun event member => (quiet_of_plain (plain event member)).2

theorem logged_of_reads (reads : ∀ event ∈ events, event.request.Reads) : logged events = [] := by
  rw [logged, List.filterMap_eq_nil_iff]
  intro event member
  have allowed := reads event member
  obtain ⟨request, answer⟩ := event
  cases request <;> first | rfl | exact allowed.elim

theorem logIfEnabled_records {action rule : String} {out : Except IoError Unit}
    (runs : Runs (logIfEnabled client q action rule) events out) :
    seen events = [] ∧
      (Answered loggingOn events → logged events = [recordOf client q action rule]) := by
  obtain ⟨enabled, later, rfl, next⟩ := runs_call_bind.mp runs
  cases enabled with
  | false => exact ⟨by obtain ⟨rfl, -⟩ := runs_pure.mp next; rfl,
      fun on => by cases (answered_cons.mp on).1⟩
  | true =>
      obtain ⟨⟨⟩, rfl, -⟩ := runs_call.mp next
      exact ⟨rfl, fun _ => rfl⟩

theorem logForwarded_records (first : msg.questions.head? = some q) {out : Except IoError Unit}
    (runs : Runs (logForwarded client msg) events out) :
    seen events = [] ∧
      (Answered loggingOn events → logged events = [recordOf client q "forwarded" ""]) := by
  apply @logIfEnabled_records ρ client q events "forwarded" "" out
  simpa only [logForwarded, logIfEnabled, first] using runs

theorem exchangeUdp_plain (packet : List UInt8) :
    Requests (@Request.Plain ρ) (exchangeUdp packet) := by
  refine (requests_attempt trivial).bind fun resp => ?_
  split
  · exact requests_attempt trivial
  · exact requests_pure resp

theorem writeTcpMessage_plain (reply : List UInt8) :
    Requests (@Request.Plain ρ) (writeTcpMessage reply) := by
  refine (requests_attempt trivial).bind fun _ => ?_
  refine (requests_attempt trivial).bind fun _ => ?_
  exact requests_attempt trivial

variable [UnicodeCase] [RegexEngine ρ]

theorem blockedTarget_reads : ∀ answers : List DnsResourceRecord,
    Requests (@Request.Reads ρ) (blockedTarget answers)
  | [] => requests_pure none
  | rr :: rest => by
      have ih := blockedTarget_reads rest
      unfold blockedTarget
      split
      · split
        · exact ih
        · refine (requests_call trivial).bind fun bl => ?_
          split
          · exact requests_pure _
          · exact ih
      · exact ih

end Parts

/-! ## Decisions -/

/-- The names that are checked in a response; there are none in one that does not parse. -/
def responseTargets (resp : List UInt8) : List String :=
  match DnsMessage.parse resp with
  | .error _ => []
  | .ok respMsg => targets respMsg.answers

/-- The record of a query that its name let pass. -/
def verdict (client : String) (q : DnsQuestion) : Option (String × String) → QueryRecord
  | some (target, rule) => recordOf client q "blocked" ("cname:" ++ target ++ " " ++ rule)
  | none => recordOf client q "forwarded" ""

theorem verdict_action (client : String) (q : DnsQuestion) (found : Option (String × String)) :
    (verdict client q found).action = if found.isSome then "blocked" else "forwarded" := by
  cases found <;> rfl

section

variable [UnicodeCase] [RegexEngine ρ]

/-- The decision about a question whose response has the targets `names`: the blocklists
that were read, the records, and whether the answer is NXDOMAIN. -/
inductive Decision (client : String) (q : DnsQuestion) (names : List String) :
    List (Blocklist ρ) → List QueryRecord → Bool → Prop
  | blocked {bl : Blocklist ρ} {rule : String} : bl.check q.name = .blocked rule →
      Decision client q names [bl] [recordOf client q "blocked" rule] true
  | allowed {bl : Blocklist ρ} {rule : String} {reads : List (Blocklist ρ)}
      {found : Option (String × String)} : bl.check q.name = .allowed rule →
      Walk names reads found →
      Decision client q names (bl :: reads)
        [recordOf client q "allowed" rule, verdict client q found] found.isSome
  | forwarded {bl : Blocklist ρ} {reads : List (Blocklist ρ)} {found : Option (String × String)} :
      bl.check q.name = .forwarded → Walk names reads found →
      Decision client q names (bl :: reads) [verdict client q found] found.isSome

variable {client : String} {msg : DnsMessage} {q : DnsQuestion} {events : List (Event (Request ρ))}

theorem cloakingCheck_walks (first : msg.questions.head? = some q) {resp : List UInt8}
    {out : Except IoError Bool} (runs : Runs (cloakingCheck client msg resp) events out) :
    Silent events ∧ ∃ found, out = .ok found.isSome ∧
      Walk (responseTargets resp) (seen events) found ∧
      (Answered loggingOn events →
        logged events = if found.isSome then [verdict client q found] else []) := by
  unfold cloakingCheck at runs
  unfold responseTargets
  rw [first] at runs
  cases parsed : DnsMessage.parse resp with
  | error e =>
      rw [parsed] at runs
      obtain ⟨rfl, rfl⟩ := runs_pure.mp runs
      exact ⟨.nil, none, rfl, .done, fun _ => rfl⟩
  | ok respMsg =>
      rw [parsed] at runs
      rcases runs_bind.mp runs with ⟨e, walked, rfl⟩ | ⟨found, walk, later, walked, next, rfl⟩
      · obtain ⟨-, _, ⟨⟩, -⟩ := blockedTarget_walks walked
      obtain ⟨silent, found', same, walks⟩ := blockedTarget_walks walked
      cases same
      have unlogged := logged_of_reads (blockedTarget_reads _ _ _ walked)
      cases found with
      | none =>
          obtain ⟨rfl, rfl⟩ := runs_pure.mp next
          rw [List.append_nil]
          exact ⟨silent, none, rfl, walks, fun _ => unlogged⟩
      | some hit =>
          rcases runs_bind.mp next with ⟨e, logs, rfl⟩ | ⟨⟨⟩, log, tail, logs, last, rfl⟩
          · cases (logIfEnabled_runs logs).2
          obtain ⟨rfl, rfl⟩ := runs_pure.mp last
          obtain ⟨unread, records⟩ := logIfEnabled_records logs
          rw [List.append_nil, seen_append, logged_append, unread, unlogged, List.append_nil]
          exact ⟨silent.append (logIfEnabled_runs logs).1, some hit, rfl, walks,
            fun on => records (answered_append.mp on).2⟩

/-! ## The handlers decide -/

/-- The datagrams that answer a query over UDP; a response that must be cut and does not
parse is not answered at all. -/
def answerUdp (msg : DnsMessage) (resp : List UInt8) (refused : Bool) : List (List UInt8) :=
  if refused then [(nxdomain msg).wire] else (relayed msg resp).toOption.toList

/-- The message that answers a query over TCP. -/
def answerTcp (msg : DnsMessage) (resp : List UInt8) (refused : Bool) : List UInt8 :=
  if refused then (nxdomain msg).wire else resp

theorem deliverUdp_decides (first : msg.questions.head? = some q) {resp : List UInt8}
    {out : Except IoError Unit} (runs : Runs (deliverUdp client msg resp) events out) :
    ∃ found, Walk (responseTargets resp) (seen events) found ∧
      sent events = answerUdp msg resp found.isSome ∧
      (Answered loggingOn events → out = .ok () → logged events = [verdict client q found]) := by
  rcases runs_bind.mp runs with ⟨e, checked, rfl⟩ | ⟨cloaked, check, later, checked, next, rfl⟩
  · obtain ⟨-, _, ⟨⟩, -⟩ := cloakingCheck_walks first checked
  obtain ⟨silent, found, same, walk, records⟩ := cloakingCheck_walks first checked
  cases same
  refine ⟨found, ?_⟩
  rw [seen_append, sent_append, logged_append, silent.sent, List.nil_append, answerUdp]
  cases found with
  | some hit =>
      simp only [Option.isSome_some, if_true, buildNxdomain_eq, ofExcept_ok_bind] at next records ⊢
      obtain rfl := runs_attempt.mp next
      exact ⟨(List.append_nil _).symm ▸ walk, rfl,
        fun on _ => by rw [records (answered_append.mp on).1]; rfl⟩
  | none =>
      simp only [Option.isSome_none, Bool.false_eq_true, if_false] at next records ⊢
      cases relay : relayed msg resp with
      | error e =>
          rw [relay, ofExcept_error_bind] at next
          obtain ⟨rfl, rfl⟩ := runs_fail.mp next
          exact ⟨(List.append_nil _).symm ▸ walk, rfl, fun _ ended => by cases ended⟩
      | ok reply =>
          rw [relay, ofExcept_ok_bind] at next
          rcases runs_attempt_bind.mp next with ⟨e, rfl, rfl⟩ | ⟨⟨⟩, log, rfl, logs⟩
          · exact ⟨(List.append_nil _).symm ▸ walk, rfl, fun _ ended => by cases ended⟩
          obtain ⟨unread, forwarded⟩ := logForwarded_records first logs
          have unread' : seen (⟨.sendTo reply, .ok ()⟩ :: log) = [] := unread
          have unsent : sent (⟨.sendTo reply, .ok ()⟩ :: log) = [reply] :=
            congrArg (reply :: ·) (logForwarded_runs logs).1.sent
          rw [unread', List.append_nil, unsent]
          refine ⟨walk, rfl, fun on _ => ?_⟩
          obtain ⟨onCheck, onLog⟩ := answered_append.mp on
          rw [records onCheck]
          exact forwarded (answered_cons.mp onLog).2

theorem deliverTcp_decides (first : msg.questions.head? = some q) {udp tcp resp : List UInt8}
    {out : Except IoError Unit} (runs : Runs (deliverTcp client msg resp) events out)
    (answered : Answered (answering udp tcp) events) :
    ∃ found, Walk (responseTargets resp) (seen events) found ∧
      written events = frame (answerTcp msg resp found.isSome) ∧
      (Answered loggingOn events → logged events = [verdict client q found]) := by
  rcases runs_bind.mp runs with ⟨e, checked, rfl⟩ | ⟨cloaked, check, later, checked, next, rfl⟩
  · obtain ⟨-, _, ⟨⟩, -⟩ := cloakingCheck_walks first checked
  obtain ⟨silent, found, same, walk, records⟩ := cloakingCheck_walks first checked
  cases same
  refine ⟨found, ?_⟩
  have answered' := (answered_append.mp answered).2
  rw [seen_append, written_append, logged_append, silent.written, List.nil_append, answerTcp]
  cases found with
  | some hit =>
      simp only [Option.isSome_some, if_true, buildNxdomain_eq, ofExcept_ok_bind] at next records ⊢
      have plain := writeTcpMessage_plain _ _ _ next
      rw [seen_of_plain plain, logged_of_plain plain, List.append_nil, List.append_nil]
      exact ⟨walk, ((writeTcpMessage_runs udp tcp next).2 answered').2,
        fun on => records (answered_append.mp on).1⟩
  | none =>
      simp only [Option.isSome_none, Bool.false_eq_true, if_false] at next records ⊢
      rcases runs_bind.mp next with ⟨e, wrote, rfl⟩ | ⟨⟨⟩, reply, log, wrote, logs, rfl⟩
      · cases ((writeTcpMessage_runs udp tcp wrote).2 answered').1
      have plain := writeTcpMessage_plain _ _ _ wrote
      obtain ⟨unread, forwarded⟩ := logForwarded_records first logs
      have whole := (writeTcpMessage_runs udp tcp wrote).2 (answered_append.mp answered').1
      rw [seen_append, seen_of_plain plain, unread, List.append_nil, List.append_nil,
        written_append, whole.2, (logForwarded_runs logs).1.written, List.append_nil]
      refine ⟨walk, rfl, fun on => ?_⟩
      obtain ⟨onCheck, onRest⟩ := answered_append.mp on
      rw [records onCheck, logged_append, logged_of_plain plain]
      exact forwarded (answered_append.mp onRest).2

variable {udp tcp : List UInt8}

theorem forwardUdp_decides (first : msg.questions.head? = some q) {out : Except IoError Unit}
    (runs : Runs (forwardUdp client msg) events out)
    (answered : Answered (answering udp tcp) events) :
    ∃ found, Walk (responseTargets (finalResponse udp tcp)) (seen events) found ∧
      sent events = answerUdp msg (finalResponse udp tcp) found.isSome ∧
      (Answered loggingOn events → out = .ok () → logged events = [verdict client q found]) := by
  rw [forwardUdp, packetToSend_eq, ofExcept_ok_bind] at runs
  rcases runs_bind.mp runs with ⟨e, failed, rfl⟩ | ⟨resp, asks, later, exchanged, next, rfl⟩
  · cases (exchangeUdp_answering failed answered).2
  obtain ⟨-, same⟩ := exchangeUdp_answering exchanged (answered_append.mp answered).1
  cases same
  have plain := exchangeUdp_plain _ _ _ exchanged
  rw [seen_append, sent_append, logged_append, seen_of_plain plain, logged_of_plain plain,
    (exchangeUdp_runs exchanged).2.1]
  obtain ⟨found, walk, delivered, records⟩ := deliverUdp_decides first next
  exact ⟨found, walk, delivered, fun on => records (answered_append.mp on).2⟩

theorem forwardTcp_decides (first : msg.questions.head? = some q) {out : Except IoError Unit}
    (runs : Runs (forwardTcp client msg) events out)
    (answered : Answered (answering udp tcp) events) :
    ∃ found, Walk (responseTargets tcp) (seen events) found ∧
      written events = frame (answerTcp msg tcp found.isSome) ∧
      (Answered loggingOn events → logged events = [verdict client q found]) := by
  rw [forwardTcp, packetToSend_eq, ofExcept_ok_bind] at runs
  rcases runs_attempt_bind.mp runs with ⟨e, rfl, rfl⟩ | ⟨resp, later, rfl, next⟩
  · cases (answered_cons.mp answered).1
  obtain ⟨same, answered'⟩ : Except.ok resp = .ok tcp ∧ Answered (answering udp tcp) later :=
    answered_cons.mp answered
  cases same
  obtain ⟨found, walk, delivered, records⟩ := deliverTcp_decides first next answered'
  exact ⟨found, walk, delivered, fun on => records (answered_cons.mp on).2⟩

/-- **The check of the question**: the rest of the handler, by the outcome. -/
theorem screen_cases (first : msg.questions.head? = some q)
    {block : DnsQuestion → String → Handler ρ Unit} {forward : Handler ρ Unit}
    {out : Except IoError Unit} (runs : Runs (screen client msg block forward) events out) :
    ∃ bl rest, events = ⟨.readBlocklist, bl⟩ :: rest ∧
      ((∃ rule, bl.check q.name = .blocked rule ∧ Runs (block q rule) rest out) ∨
        (∃ rule log later, bl.check q.name = .allowed rule ∧ rest = log ++ later ∧
          Runs (logIfEnabled client q "allowed" rule) log (.ok ()) ∧ Runs forward later out) ∨
        bl.check q.name = .forwarded ∧ Runs forward rest out) := by
  unfold screen at runs
  rw [first] at runs
  obtain ⟨bl, rest, rfl, next⟩ := runs_call_bind.mp runs
  refine ⟨bl, rest, rfl, ?_⟩
  cases outcome : bl.check q.name with
  | blocked rule =>
      rw [outcome] at next
      exact .inl ⟨rule, rfl, next⟩
  | allowed rule =>
      rw [outcome] at next
      rcases runs_bind.mp next with ⟨e, logs, rfl⟩ | ⟨⟨⟩, log, later, logs, forwards, rfl⟩
      · cases (logIfEnabled_runs logs).2
      exact .inr (.inl ⟨rule, log, later, rfl, rfl, logs, forwards⟩)
  | forwarded =>
      rw [outcome] at next
      exact .inr (.inr ⟨rfl, next⟩)

/-- **The UDP handler makes a decision and acts on it.** -/
theorem handleUdpQuery_decides {packet : List UInt8} (parsed : DnsMessage.parse packet = .ok msg)
    (first : msg.questions.head? = some q) {out : Except IoError Unit}
    (runs : Runs (handleUdpQuery client packet) events out)
    (answered : Answered (answering udp tcp) events) :
    ∃ records refused,
      Decision client q (responseTargets (finalResponse udp tcp)) (seen events) records refused ∧
      sent events = answerUdp msg (finalResponse udp tcp) refused ∧
      (Answered loggingOn events → out = .ok () → logged events = records) := by
  rw [handleUdpQuery, parsed, ofExcept_ok_bind] at runs
  obtain ⟨bl, rest, rfl, blocks | allows | passes⟩ := screen_cases first runs
  all_goals
    rw [seen_read, sent_read, logged_read, answered_cons]
    replace answered := (answered_cons.mp answered).2
  · obtain ⟨rule, blocked, next⟩ := blocks
    refine ⟨[recordOf client q "blocked" rule], true, ?_⟩
    rcases runs_bind.mp next with ⟨e, logs, rfl⟩ | ⟨⟨⟩, log, tail, logs, last, rfl⟩
    · cases (logIfEnabled_runs logs).2
    rw [buildNxdomain_eq, ofExcept_ok_bind] at last
    obtain rfl := runs_attempt.mp last
    obtain ⟨unread, records⟩ := logIfEnabled_records logs
    rw [seen_append, sent_append, logged_append, answered_append, unread,
      (logIfEnabled_runs logs).1.sent]
    exact ⟨.blocked blocked, rfl, fun on _ => by rw [records on.2.1]; rfl⟩
  · obtain ⟨rule, log, later, allowed, rfl, logs, forwards⟩ := allows
    obtain ⟨unread, records⟩ := logIfEnabled_records logs
    obtain ⟨found, walk, delivered, verdicts⟩ :=
      forwardUdp_decides first forwards (answered_append.mp answered).2
    rw [seen_append, sent_append, logged_append, answered_append, unread,
      (logIfEnabled_runs logs).1.sent]
    exact ⟨_, _, .allowed allowed walk, delivered,
      fun on ended => by rw [records on.2.1, verdicts on.2.2 ended]; rfl⟩
  · obtain ⟨passed, forwards⟩ := passes
    obtain ⟨found, walk, delivered, verdicts⟩ := forwardUdp_decides first forwards answered
    exact ⟨_, _, .forwarded passed walk, delivered, fun on => verdicts on.2⟩

/-- **So does one round of the TCP handler.** -/
theorem serveTcpMessage_decides {packet : List UInt8} (parsed : DnsMessage.parse packet = .ok msg)
    (first : msg.questions.head? = some q) {out : Except IoError Unit}
    (runs : Runs (serveTcpMessage client packet) events out)
    (answered : Answered (answering udp tcp) events) :
    ∃ records refused,
      Decision client q (responseTargets tcp) (seen events) records refused ∧
      written events = frame (answerTcp msg tcp refused) ∧
      (Answered loggingOn events → logged events = records) := by
  rw [serveTcpMessage, parsed, ofExcept_ok_bind] at runs
  obtain ⟨bl, rest, rfl, blocks | allows | passes⟩ := screen_cases first runs
  all_goals
    rw [seen_read, written_read, logged_read, answered_cons]
    replace answered := (answered_cons.mp answered).2
  · obtain ⟨rule, blocked, next⟩ := blocks
    refine ⟨[recordOf client q "blocked" rule], true, ?_⟩
    rw [buildNxdomain_eq, ofExcept_ok_bind] at next
    rcases runs_bind.mp next with ⟨e, wrote, rfl⟩ | ⟨⟨⟩, reply, log, wrote, logs, rfl⟩
    · cases ((writeTcpMessage_runs udp tcp wrote).2 answered).1
    have plain := writeTcpMessage_plain _ _ _ wrote
    have whole := (writeTcpMessage_runs udp tcp wrote).2 (answered_append.mp answered).1
    obtain ⟨unread, records⟩ := logIfEnabled_records logs
    rw [seen_append, written_append, logged_append, answered_append, seen_of_plain plain, unread,
      logged_of_plain plain, whole.2, (logIfEnabled_runs logs).1.written, List.append_nil,
      List.append_nil]
    exact ⟨.blocked blocked, rfl, fun on => records on.2.2⟩
  · obtain ⟨rule, log, later, allowed, rfl, logs, forwards⟩ := allows
    obtain ⟨unread, records⟩ := logIfEnabled_records logs
    obtain ⟨found, walk, delivered, verdicts⟩ :=
      forwardTcp_decides first forwards (answered_append.mp answered).2
    rw [seen_append, written_append, logged_append, answered_append, unread,
      (logIfEnabled_runs logs).1.written]
    exact ⟨_, _, .allowed allowed walk, delivered,
      fun on => by rw [records on.2.1, verdicts on.2.2]; rfl⟩
  · obtain ⟨passed, forwards⟩ := passes
    obtain ⟨found, walk, delivered, verdicts⟩ := forwardTcp_decides first forwards answered
    exact ⟨_, _, .forwarded passed walk, delivered, fun on => verdicts on.2⟩

end

end DnsLigase.Upstream
