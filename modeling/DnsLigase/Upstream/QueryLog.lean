/-
# Upstream.QueryLog — the records that journald gets about one query

The README has "per-query logging", with an action for each entry, and the statistics count
the entries as queries.  Both handlers log a name that an allow rule lets through where they
check it, and again when they have relayed the response or replaced it
(`allowedQuery_logged_twice`).  `loggedOnce_iff`: an answered query has its one record
exactly when no allow rule lets its name through.
-/
import DnsLigase.Blocklist.Policy
import DnsLigase.Upstream.Decision
import DnsLigase.Upstream.UdpSize

namespace DnsLigase.Upstream

open DnsLigase.Theory DnsLigase.Dns
open DnsLigase.Theory.Bytes DnsLigase.Theory.Case DnsLigase.Theory.Io DnsLigase.Theory.Program

set_option autoImplicit false

variable {ρ : Type}

section

variable [UnicodeCase] [RegexEngine ρ]

/-! ## Decisions with one blocklist -/

section Fixed

variable {bl : Blocklist ρ} {client : String} {q : DnsQuestion} {names : List String}
  {reads : List (Blocklist ρ)} {records : List QueryRecord} {refused : Bool}

/-- The blocklist blocks the name of the question or one of the targets. -/
def Blocks (bl : Blocklist ρ) (q : DnsQuestion) (names : List String) : Prop :=
  (bl.check q.name).IsBlocked ∨ ∃ name ∈ names, (bl.check name).IsBlocked

theorem refused_iff {msg : DnsMessage} (first : msg.questions.head? = some q) (resp : List UInt8) :
    Refused bl msg resp ↔ Blocks bl q (responseTargets resp) := by
  have asks : msg.questions ≠ [] := by
    rintro empty
    simp [empty] at first
  have screened : Screened bl msg ↔ (bl.check q.name).IsBlocked := by
    simp [Screened, first]
  refine or_congr screened ?_
  unfold Cloaked responseTargets
  cases parsed : DnsMessage.parse resp with
  | error e => simp
  | ok respMsg => simp [asks, hasBlockedTarget_iff]

/-- A decision that only reads `bl`. -/
theorem Decision.refused_iff (decision : Decision client q names reads records refused)
    (fixed : ∀ other ∈ reads, other = bl) : refused = true ↔ Blocks bl q names := by
  cases decision with
  | blocked hit =>
      obtain rfl := fixed _ List.mem_cons_self
      exact ⟨fun _ => .inl (by rw [hit]; trivial), fun _ => rfl⟩
  | allowed hit walk =>
      obtain rfl := fixed _ List.mem_cons_self
      rw [walk.found_iff fun other member => fixed other (List.mem_cons_of_mem _ member), Blocks, hit]
      exact (or_iff_right id).symm
  | forwarded hit walk =>
      obtain rfl := fixed _ List.mem_cons_self
      rw [walk.found_iff fun other member => fixed other (List.mem_cons_of_mem _ member), Blocks, hit]
      exact (or_iff_right id).symm

/-- There is one record, of the answer, or a record of the allow rule in front of it. -/
theorem Decision.records_eq (decision : Decision client q names reads records refused)
    (fixed : ∀ other ∈ reads, other = bl) :
    ∃ answer : QueryRecord, answer.source = client ∧ answer.domain = q.name ∧
      answer.action = (if refused then "blocked" else "forwarded") ∧
      ((bl.check q.name).classification ≠ .allowed ∧ records = [answer] ∨
        ∃ rule, (bl.check q.name).classification = .allowed ∧
          records = [recordOf client q "allowed" rule, answer]) := by
  have about : ∀ found, (verdict client q found).source = client ∧
      (verdict client q found).domain = q.name := by
    rintro (_ | _) <;> exact ⟨rfl, rfl⟩
  cases decision with
  | blocked hit =>
      obtain rfl := fixed _ List.mem_cons_self
      exact ⟨_, rfl, rfl, rfl, .inl ⟨by rw [hit]; exact nofun, rfl⟩⟩
  | allowed hit walk =>
      obtain rfl := fixed _ List.mem_cons_self
      exact ⟨_, (about _).1, (about _).2, verdict_action client q _,
        .inr ⟨_, by rw [hit]; rfl, rfl⟩⟩
  | forwarded hit walk =>
      obtain rfl := fixed _ List.mem_cons_self
      exact ⟨_, (about _).1, (about _).2, verdict_action client q _,
        .inl ⟨by rw [hit]; exact nofun, rfl⟩⟩

end Fixed

/-! ## Answered queries -/

variable {bl : Blocklist ρ} {client : String} {packet resp reply : List UInt8} {msg : DnsMessage}
  {q : DnsQuestion} {events : List (Event (Request ρ))}

/-- The query is answered by `reply`, over UDP or over TCP, with logging enabled; `resp` is
the response that counts. -/
inductive Answers (bl : Blocklist ρ) (client : String) (packet resp reply : List UInt8)
    (events : List (Event (Request ρ))) : Prop
  | udp {udp tcp : List UInt8} : finalResponse udp tcp = resp →
      Runs (handleUdpQuery client packet) events (.ok ()) → Answered (smooth bl udp tcp) events →
      Answered loggingOn events → sent events = [reply] → Answers bl client packet resp reply events
  | tcp {udp : List UInt8} : Runs (serveTcpMessage client packet) events (.ok ()) →
      Answered (smooth bl udp resp) events → Answered loggingOn events →
      written events = frame reply → Answers bl client packet resp reply events

/-- The answer is what `build_nxdomain` built, and no copy of it that the upstream sent. -/
def BuiltNxdomain (bl : Blocklist ρ) (msg : DnsMessage) (resp reply : List UInt8) : Prop :=
  Refused bl msg resp ∧ reply = (nxdomain msg).wire

/-- One record, with the action that fits: `blocked` for an answer that `build_nxdomain` built,
`allowed` for a name that an allow rule let through, and else `forwarded`. -/
def LoggedOnce (bl : Blocklist ρ) (client : String) (msg : DnsMessage) (q : DnsQuestion)
    (resp reply : List UInt8) (events : List (Event (Request ρ))) : Prop :=
  ∃ record, logged events = [record] ∧ record.source = client ∧ record.domain = q.name ∧
    (record.action = "blocked" ↔ BuiltNxdomain bl msg resp reply) ∧
    (record.action = "allowed" ↔ (bl.check q.name).classification = .allowed) ∧
    (record.action = "forwarded" ↔
      ¬ BuiltNxdomain bl msg resp reply ∧ (bl.check q.name).classification ≠ .allowed)

theorem Answers.decision (parsed : DnsMessage.parse packet = .ok msg)
    (first : msg.questions.head? = some q) (answers : Answers bl client packet resp reply events) :
    ∃ refused, Decision client q (responseTargets resp) (seen events) (logged events) refused ∧
      ∀ other ∈ seen events, other = bl := by
  cases answers with
  | udp final runs smooth on replied =>
      obtain ⟨records, refused, decision, -, same⟩ :=
        handleUdpQuery_decides parsed first runs (smooth.mono answering_of_smooth)
      rw [final, ← same on rfl] at decision
      exact ⟨refused, decision, seen_of_reading (smooth.mono reading_of_smooth)⟩
  | tcp runs smooth on replied =>
      obtain ⟨records, refused, decision, -, same⟩ :=
        serveTcpMessage_decides parsed first runs (smooth.mono answering_of_smooth)
      rw [← same on] at decision
      exact ⟨refused, decision, seen_of_reading (smooth.mono reading_of_smooth)⟩

theorem Answers.builtNxdomain_iff (parsed : DnsMessage.parse packet = .ok msg)
    (answers : Answers bl client packet resp reply events) :
    BuiltNxdomain bl msg resp reply ↔ Refused bl msg resp := by
  refine ⟨And.left, fun refused => ⟨refused, ?_⟩⟩
  cases answers with
  | udp final runs smooth on replied =>
      rw [(handleUdpQuery_smooth parsed runs smooth).1 (final.symm ▸ refused)] at replied
      exact (List.singleton_inj.mp replied).symm
  | tcp runs smooth on replied =>
      rw [(serveTcpMessage_smooth parsed runs smooth).1 refused] at replied
      exact (frame_injective replied).symm

/-- A query whose name an allow rule lets through has two records. -/
theorem length_logged (parsed : DnsMessage.parse packet = .ok msg)
    (first : msg.questions.head? = some q) (answers : Answers bl client packet resp reply events)
    (allowed : (bl.check q.name).classification = .allowed) : (logged events).length = 2 := by
  obtain ⟨refused, decision, fixed⟩ := answers.decision parsed first
  obtain ⟨answer, -, -, -, ⟨other, -⟩ | ⟨rule, -, records⟩⟩ := decision.records_eq fixed
  · exact absurd allowed other
  · rw [records]
    rfl

/-- **An answered query is logged once, as what it was, exactly if no allow rule lets its
name through.** -/
theorem loggedOnce_iff (parsed : DnsMessage.parse packet = .ok msg)
    (first : msg.questions.head? = some q)
    (answers : Answers bl client packet resp reply events) :
    LoggedOnce bl client msg q resp reply events ↔
      (bl.check q.name).classification ≠ .allowed := by
  constructor
  · rintro ⟨record, single, -⟩ allowed
    have two := length_logged parsed first answers allowed
    rw [single] at two
    cases two
  · intro passes
    obtain ⟨refused, decision, fixed⟩ := answers.decision parsed first
    obtain ⟨answer, source, domain, action, ⟨-, records⟩ | ⟨rule, allowed, -⟩⟩ :=
      decision.records_eq fixed
    · have refuses : refused = true ↔ BuiltNxdomain bl msg resp reply :=
        (decision.refused_iff fixed).trans
          ((refused_iff first resp).symm.trans (answers.builtNxdomain_iff parsed).symm)
      refine ⟨answer, records, source, domain, ?_⟩
      rw [action, ← refuses]
      cases refused <;> simp [passes]
    · exact absurd allowed passes

end

/-! ## A name on the allow list -/

attribute [local instance] smallCase

/-- The list that allows `site.com`. -/
def siteAllowed : Blocklist Literal := { Blocklist.new with allowDomains := {"site.com"} }

/-- The answers of a smooth run, with logging on. -/
def loggingSmoothly (bl : Blocklist ρ) (udp tcp : List UInt8) : ∀ {γ : Type}, Request ρ γ → γ
  | _, .readLogQueries => true
  | _, request => smoothly bl udp tcp request

theorem smooth_loggingSmoothly (bl : Blocklist ρ) (udp tcp : List UInt8) :
    ∀ {γ : Type} (request : Request ρ γ),
      smooth bl udp tcp request (loggingSmoothly bl udp tcp request)
  | _, .readBlocklist => rfl
  | _, .udpQuery _ => rfl
  | _, .tcpQuery _ => rfl
  | _, .sendTo _ => rfl
  | _, .writeAll _ => rfl
  | _, .flush => rfl
  | _, .readLogQueries => trivial
  | _, .logQuery _ _ _ _ _ => trivial

theorem loggingOn_loggingSmoothly (bl : Blocklist ρ) (udp tcp : List UInt8) :
    ∀ {γ : Type} (request : Request ρ γ), loggingOn request (loggingSmoothly bl udp tcp request)
  | _, .readLogQueries => rfl
  | _, .readBlocklist => trivial
  | _, .udpQuery _ => trivial
  | _, .tcpQuery _ => trivial
  | _, .sendTo _ => trivial
  | _, .writeAll _ => trivial
  | _, .flush => trivial
  | _, .logQuery _ _ _ _ _ => trivial

/-- A client on the local network asks for `site.com`. -/
def siteHandler : Handler Literal Unit := handleUdpQuery "192.168.1.5" siteQuery

/-- A list that does not block `site.com` relays the response to it. -/
theorem site_answers {bl : Blocklist Literal} (passes : ¬ (bl.check "site.com").IsBlocked)
    (ended : (siteHandler.exec (loggingSmoothly bl emptyResponse emptyResponse)).2 = .ok ()) :
    ∃ events, Answers bl "192.168.1.5" siteQuery emptyResponse emptyResponse events := by
  have runs := exec_runs (loggingSmoothly bl emptyResponse emptyResponse) siteHandler
  have smooth := exec_answered (smooth_loggingSmoothly bl emptyResponse emptyResponse) siteHandler
  have on := exec_answered (loggingOn_loggingSmoothly bl emptyResponse emptyResponse) siteHandler
  have final := finalResponse_self emptyResponse
  have targets : responseTargets emptyResponse = [] := by decide +kernel
  have relays : ¬ Refused bl siteMessage (finalResponse emptyResponse emptyResponse) := by
    rw [final, refused_iff rfl, Blocks, targets]
    rintro (blocked | ⟨name, member, -⟩)
    · exact passes blocked
    · cases member
  rw [ended] at runs
  refine ⟨_, .udp final runs smooth on ?_⟩
  rw [(handleUdpQuery_smooth parse_siteQuery runs smooth).2 relays, final]
  decide

/-- Its one record. -/
theorem loggedOnce_iff_noList :
    ∃ events, Answers noList "192.168.1.5" siteQuery emptyResponse emptyResponse events ∧
      LoggedOnce noList "192.168.1.5" siteMessage ⟨"site.com", 1, 1⟩ emptyResponse emptyResponse
        events := by
  obtain ⟨events, answers⟩ := @site_answers noList (by decide +kernel) (by decide +kernel)
  exact ⟨events, answers, (loggedOnce_iff parse_siteQuery rfl answers).mpr (by decide +kernel)⟩

/-- An allow rule for `site.com`: the query is relayed, and has two records. -/
theorem allowedQuery_logged_twice :
    ∃ events, Answers siteAllowed "192.168.1.5" siteQuery emptyResponse emptyResponse events ∧
      (logged events).length = 2 ∧
      ¬ LoggedOnce siteAllowed "192.168.1.5" siteMessage ⟨"site.com", 1, 1⟩ emptyResponse
        emptyResponse events := by
  obtain ⟨events, answers⟩ := @site_answers siteAllowed (by decide +kernel) (by decide +kernel)
  have two := length_logged parse_siteQuery rfl answers (by decide +kernel)
  refine ⟨events, answers, two, ?_⟩
  rintro ⟨record, single, -⟩
  rw [single] at two
  cases two

end DnsLigase.Upstream
