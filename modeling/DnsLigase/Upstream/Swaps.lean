/-
# Upstream.Swaps — reloads that swap the blocklist while a query is served

The lock of the blocklist is held for one check at a time, so a reload can put another list
in place between the check of the question and those of the CNAME targets.  An answer of
NXDOMAIN is always the one that some single list would have given: the list that blocked a
name.  A relayed response need not be (`mixedLists_relay`): every name passed, but each with
the list that was active when it was checked (`decided_by_active`).
-/
import DnsLigase.Upstream.QueryLog

namespace DnsLigase.Upstream

open DnsLigase.Theory DnsLigase.Dns
open DnsLigase.Theory.Bytes DnsLigase.Theory.Case DnsLigase.Theory.Io DnsLigase.Theory.Program

set_option autoImplicit false

variable {ρ : Type}

/-! ## Handlers and reloads -/

/-- One step while a query is served: a reload swaps the blocklist, or the handler gets an
answer. -/
inductive Interleaved (ρ : Type) : Type 1
  | swap (bl : Blocklist ρ)
  | handler (event : Event (Request ρ))

def Interleaved.event? : Interleaved ρ → Option (Event (Request ρ))
  | .swap _ => none
  | .handler event => some event

/-- What the handler awaited. -/
def handled (steps : List (Interleaved ρ)) : List (Event (Request ρ)) :=
  steps.filterMap Interleaved.event?

/-- Every read gives the blocklist that is active when it happens. -/
def Consistent : Blocklist ρ → List (Interleaved ρ) → Prop
  | _, [] => True
  | _, .swap bl :: rest => Consistent bl rest
  | active, .handler event :: rest => (∀ bl ∈ seen? event, bl = active) ∧ Consistent active rest

/-- The blocklists that are active at some point, the first one in front. -/
def actives : Blocklist ρ → List (Interleaved ρ) → List (Blocklist ρ)
  | active, [] => [active]
  | active, .swap bl :: rest => active :: actives bl rest
  | active, .handler _ :: rest => actives active rest

theorem mem_actives_self : ∀ (active : Blocklist ρ) (steps : List (Interleaved ρ)),
    active ∈ actives active steps
  | _, [] => List.mem_singleton_self _
  | _, .swap _ :: _ => List.mem_cons_self
  | active, .handler _ :: rest => mem_actives_self active rest

/-- Only active blocklists are read. -/
theorem seen_active : ∀ {active : Blocklist ρ} {steps : List (Interleaved ρ)},
    Consistent active steps → ∀ bl ∈ seen (handled steps), bl ∈ actives active steps
  | _, [], _, bl, member => nomatch member
  | _, .swap _ :: rest, consistent, bl, member =>
      List.mem_cons_of_mem _ (@seen_active _ rest consistent bl member)
  | active, .handler event :: rest, ⟨now, later⟩, bl, member => by
      have split : seen (handled (.handler event :: rest)) =
          (seen? event).toList ++ seen (handled rest) := by
        simp only [handled, seen, List.filterMap_cons, Interleaved.event?]
        cases seen? event <;> rfl
      rw [split] at member
      rcases List.mem_append.mp member with member | member
      · rw [now bl (Option.mem_toList.mp member)]
        exact mem_actives_self active rest
      · exact seen_active later bl member

/-! ## Answers of one blocklist -/

section Handlers

variable [UnicodeCase] [RegexEngine ρ]

/-- Whenever the whole UDP handler runs with `bl`, these are the datagrams it sends. -/
def WholeUdp (bl : Blocklist ρ) (packet udp tcp : List UInt8) (answer : List (List UInt8)) : Prop :=
  ∀ (client : String) (events : List (Event (Request ρ))) (out : Except IoError Unit),
    Runs (handleUdpQuery client packet) events out → Answered (smooth bl udp tcp) events →
    sent events = answer

/-- Whenever a whole round of the TCP handler runs with `bl`, these are the octets it writes. -/
def WholeTcp (bl : Blocklist ρ) (packet udp tcp : List UInt8) (answer : List UInt8) : Prop :=
  ∀ (client : String) (events : List (Event (Request ρ))) (out : Except IoError Unit),
    Runs (serveTcpMessage client packet) events out → Answered (smooth bl udp tcp) events →
    written events = answer

/-- Every name that is checked has passed, with the blocklist that was read for it. -/
def EachPassed (msg : DnsMessage) (resp : List UInt8) (reads : List (Blocklist ρ)) : Prop :=
  ∃ q, msg.questions.head? = some q ∧
    List.Forall₂ (fun bl name => ¬ (bl.check name).IsBlocked) reads (q.name :: responseTargets resp)

variable {client : String} {msg : DnsMessage} {q : DnsQuestion} {packet resp udp tcp : List UInt8}
  {events : List (Event (Request ρ))} {bl : Blocklist ρ}

omit [UnicodeCase] [RegexEngine ρ] in
/-- Without a question nothing is read. -/
theorem logForwarded_plain (none_ : msg.questions.head? = none) :
    Requests (@Request.Plain ρ) (logForwarded client msg) := by
  refine (requests_call trivial).bind fun enabled => ?_
  rw [none_]
  split <;> exact requests_pure ()

theorem cloakingCheck_none (none_ : msg.questions.head? = none) (resp : List UInt8) :
    (cloakingCheck client msg resp : Handler ρ Bool) = pure false := by
  rw [cloakingCheck, none_]

theorem handleUdpQuery_plain (parsed : DnsMessage.parse packet = .ok msg)
    (none_ : msg.questions.head? = none) :
    Requests (@Request.Plain ρ) (handleUdpQuery client packet) := by
  rw [handleUdpQuery, parsed, ofExcept_ok_bind, none_]
  dsimp only
  rw [forwardUdp, packetToSend_eq, ofExcept_ok_bind]
  refine (exchangeUdp_plain _).bind fun resp => ?_
  rw [deliverUdp, cloakingCheck_none none_, pure_bind', if_neg Bool.false_ne_true]
  cases relayed msg resp with
  | error e => exact requests_fail e
  | ok reply =>
      rw [ofExcept_ok_bind]
      exact (requests_attempt trivial).bind fun _ => logForwarded_plain none_

theorem serveTcpMessage_plain (parsed : DnsMessage.parse packet = .ok msg)
    (none_ : msg.questions.head? = none) :
    Requests (@Request.Plain ρ) (serveTcpMessage client packet) := by
  rw [serveTcpMessage, parsed, ofExcept_ok_bind, none_]
  dsimp only
  rw [forwardTcp, packetToSend_eq, ofExcept_ok_bind]
  refine (requests_attempt trivial).bind fun resp => ?_
  rw [deliverTcp, cloakingCheck_none none_, pure_bind', if_neg Bool.false_ne_true]
  exact (writeTcpMessage_plain resp).bind fun _ => logForwarded_plain none_

omit [UnicodeCase] [RegexEngine ρ] in
theorem smooth_of_answering (answered : Answered (answering udp tcp) events)
    (fixed : ∀ other ∈ seen events, other = bl) : Answered (smooth bl udp tcp) events := by
  intro event member
  have allowed := answered event member
  obtain ⟨request, answer⟩ := event
  cases request with
  | readBlocklist => exact fixed answer (List.mem_filterMap.mpr ⟨_, member, rfl⟩)
  | udpQuery query => exact allowed
  | tcpQuery query => exact allowed
  | sendTo datagram => exact allowed
  | writeAll octets => exact allowed
  | flush => exact allowed
  | readLogQueries => trivial
  | logQuery source domain qtype action rule => trivial

theorem Walk.passed {names : List String} {reads : List (Blocklist ρ)}
    {found : Option (String × String)} (walk : Walk names reads found) :
    (found = none → List.Forall₂ (fun bl name => ¬ (bl.check name).IsBlocked) reads names) ∧
      (found.isSome → ∃ bl ∈ reads, ∃ name ∈ names, (bl.check name).IsBlocked) := by
  induction walk with
  | done => exact ⟨fun _ => .nil, nofun⟩
  | pass clean _ ih =>
      refine ⟨fun none_ => .cons clean (ih.1 none_), fun hit => ?_⟩
      obtain ⟨bl, read, name, member, blocked⟩ := ih.2 hit
      exact ⟨bl, List.mem_cons_of_mem _ read, name, List.mem_cons_of_mem _ member, blocked⟩
  | hit blocked =>
      refine ⟨nofun, fun _ => ⟨_, List.mem_cons_self, _, List.mem_cons_self, ?_⟩⟩
      rw [blocked]
      trivial

/-- **A decision is made by one blocklist, or each name passed its own.** -/
theorem Decision.by_one {names : List String} {reads : List (Blocklist ρ)}
    {records : List QueryRecord} {refused : Bool}
    (decision : Decision client q names reads records refused) :
    (refused = true → ∃ bl ∈ reads, Blocks bl q names) ∧
      (refused = false →
        List.Forall₂ (fun bl name => ¬ (bl.check name).IsBlocked) reads (q.name :: names)) := by
  have walked : ∀ {first : Blocklist ρ} {reads : List (Blocklist ρ)}
      {found : Option (String × String)}, ¬ (first.check q.name).IsBlocked →
      Walk names reads found →
      (found.isSome = true → ∃ bl ∈ first :: reads, Blocks bl q names) ∧
        (found.isSome = false → List.Forall₂ (fun bl name => ¬ (bl.check name).IsBlocked)
          (first :: reads) (q.name :: names)) := by
    intro first reads found clean walk
    refine ⟨fun hit => ?_, fun miss => .cons clean (walk.passed.1 (by simpa using miss))⟩
    obtain ⟨bl, read, blocked⟩ := walk.passed.2 hit
    exact ⟨bl, List.mem_cons_of_mem _ read, .inr blocked⟩
  cases decision with
  | blocked hit =>
      exact ⟨fun _ => ⟨_, List.mem_cons_self, .inl (by rw [hit]; trivial)⟩, nofun⟩
  | allowed hit walk => exact walked (by rw [hit]; exact id) walk
  | forwarded hit walk => exact walked (by rw [hit]; exact id) walk

/-- Two runs with one blocklist send the same. -/
theorem wholeUdp_of_runs (parsed : DnsMessage.parse packet = .ok msg) {out : Except IoError Unit}
    (runs : Runs (handleUdpQuery client packet) events out)
    (smooth : Answered (smooth bl udp tcp) events) :
    WholeUdp bl packet udp tcp (sent events) := by
  intro client' events' out' runs' smooth'
  obtain ⟨nx, relay⟩ := handleUdpQuery_smooth parsed runs smooth
  obtain ⟨nx', relay'⟩ := handleUdpQuery_smooth parsed runs' smooth'
  by_cases refused : Refused bl msg (finalResponse udp tcp)
  · rw [nx refused, nx' refused]
  · rw [relay refused, relay' refused]

theorem wholeTcp_of_runs (parsed : DnsMessage.parse packet = .ok msg) {out : Except IoError Unit}
    (runs : Runs (serveTcpMessage client packet) events out)
    (smooth : Answered (smooth bl udp tcp) events) :
    WholeTcp bl packet udp tcp (written events) := by
  intro client' events' out' runs' smooth'
  obtain ⟨nx, relay⟩ := serveTcpMessage_smooth parsed runs smooth
  obtain ⟨nx', relay'⟩ := serveTcpMessage_smooth parsed runs' smooth'
  by_cases refused : Refused bl msg tcp
  · rw [nx refused, nx' refused]
  · rw [relay refused, relay' refused]

omit [UnicodeCase] [RegexEngine ρ] in
/-- A handler that reads no blocklist runs as with any. -/
theorem smooth_of_unread (answered : Answered (answering udp tcp) events)
    (unread : seen events = []) : Answered (smooth bl udp tcp) events := by
  refine smooth_of_answering answered fun other read => ?_
  rw [unread] at read
  cases read

variable {lists : List (Blocklist ρ)}

theorem udp_by_one (among : ∀ bl ∈ seen events, bl ∈ lists) (any : bl ∈ lists)
    (parsed : DnsMessage.parse packet = .ok msg) (answered : Answered (answering udp tcp) events)
    {out : Except IoError Unit} (runs : Runs (handleUdpQuery client packet) events out) :
    (∃ bl ∈ lists, WholeUdp bl packet udp tcp (sent events)) ∨
      sent events = (relayed msg (finalResponse udp tcp)).toOption.toList ∧
        EachPassed msg (finalResponse udp tcp) (seen events) := by
  cases first : msg.questions.head? with
  | none =>
      have unread := seen_of_plain (handleUdpQuery_plain parsed first _ _ runs)
      exact .inl ⟨bl, any, wholeUdp_of_runs parsed runs (smooth_of_unread answered unread)⟩
  | some q =>
      obtain ⟨records, refused, decision, answer, -⟩ :=
        handleUdpQuery_decides parsed first runs answered
      rw [answer]
      cases refused with
      | true =>
          obtain ⟨bl, read, blocks⟩ := decision.by_one.1 rfl
          refine .inl ⟨bl, among bl read, fun client' events' out' runs' smooth' => ?_⟩
          exact (handleUdpQuery_smooth parsed runs' smooth').1 ((refused_iff first _).mpr blocks)
      | false => exact .inr ⟨rfl, q, first, decision.by_one.2 rfl⟩

theorem tcp_by_one (among : ∀ bl ∈ seen events, bl ∈ lists) (any : bl ∈ lists)
    (parsed : DnsMessage.parse packet = .ok msg) (answered : Answered (answering udp tcp) events)
    {out : Except IoError Unit} (runs : Runs (serveTcpMessage client packet) events out) :
    (∃ bl ∈ lists, WholeTcp bl packet udp tcp (written events)) ∨
      written events = frame tcp ∧ EachPassed msg tcp (seen events) := by
  cases first : msg.questions.head? with
  | none =>
      have unread := seen_of_plain (serveTcpMessage_plain parsed first _ _ runs)
      exact .inl ⟨bl, any, wholeTcp_of_runs parsed runs (smooth_of_unread answered unread)⟩
  | some q =>
      obtain ⟨records, refused, decision, answer, -⟩ :=
        serveTcpMessage_decides parsed first runs answered
      rw [answer]
      cases refused with
      | true =>
          obtain ⟨bl, read, blocks⟩ := decision.by_one.1 rfl
          refine .inl ⟨bl, among bl read, fun client' events' out' runs' smooth' => ?_⟩
          exact (serveTcpMessage_smooth parsed runs' smooth').1 ((refused_iff first _).mpr blocks)
      | false => exact .inr ⟨rfl, q, first, decision.by_one.2 rfl⟩

/-- **An answer is that of one active blocklist, or it is the response and each name passed
the blocklist that was active when it was checked.** -/
theorem decided_by_active {active : Blocklist ρ} {steps : List (Interleaved ρ)}
    (consistent : Consistent active steps) (parsed : DnsMessage.parse packet = .ok msg)
    (answered : Answered (answering udp tcp) (handled steps)) :
    (∀ client out, Runs (handleUdpQuery client packet) (handled steps) out →
      (∃ bl ∈ actives active steps, WholeUdp bl packet udp tcp (sent (handled steps))) ∨
        sent (handled steps) = (relayed msg (finalResponse udp tcp)).toOption.toList ∧
          EachPassed msg (finalResponse udp tcp) (seen (handled steps))) ∧
    (∀ client out, Runs (serveTcpMessage client packet) (handled steps) out →
      (∃ bl ∈ actives active steps, WholeTcp bl packet udp tcp (written (handled steps))) ∨
        written (handled steps) = frame tcp ∧ EachPassed msg tcp (seen (handled steps))) := by
  have among := seen_active consistent
  have any := mem_actives_self active steps
  constructor
  · intro client out runs
    exact udp_by_one among any parsed answered runs
  · intro client out runs
    exact tcp_by_one among any parsed answered runs

end Handlers

/-! ## A swap between the two checks -/

attribute [local instance] smallCase

/-- The list that the reload puts in place: it blocks the name of the query and no target. -/
def siteList : Blocklist Literal := Blocklist.blocking "site.com"

/-- `site.com` is an alias of `ads.net`. -/
def aliased : List UInt8 := aliasOctets 97

/-- The question is checked with `adsList`, then `siteList` replaces it, and the target is
checked with that. -/
def swappedSteps : List (Interleaved Literal) :=
  [.handler ⟨.readBlocklist, adsList⟩, .handler ⟨.udpQuery (toSend siteMessage).wire, .ok aliased⟩,
    .swap siteList, .handler ⟨.readBlocklist, siteList⟩, .handler ⟨.sendTo aliased, .ok ()⟩,
    .handler ⟨.readLogQueries, false⟩]

theorem swappedSteps_consistent : Consistent adsList swappedSteps := by
  refine ⟨?_, nofun, ?_, nofun, nofun, trivial⟩
  · rintro bl ⟨⟩
    rfl
  · rintro bl ⟨⟩
    rfl

def aliasedMessage : DnsMessage where
  header := { id := 0x1234, flags := 0x8180, qdcount := 1, ancount := 1, nscount := 1, arcount := 0 }
  questions := [{ name := "site.com", qtype := 1, qclass := 1 }]
  answers := [{
    name := "site.com", rtype := 5, rclass := 1, ttl := 300
    rdata := [3, 97, 100, 115, 3, 110, 101, 116, 0], cnameTarget := some "ads.net" }]
  authorities := [{ name := "a", rtype := 16, rclass := 1, ttl := 0, rdata := [], cnameTarget := none }]
  additionals := []
  ednsDo := false

theorem parse_aliased : DnsMessage.parse aliased = .ok aliasedMessage := by decide +kernel

theorem adsList_checks :
    adsList.check "site.com" = .forwarded ∧ (adsList.check "ads.net").IsBlocked := by
  decide +kernel

theorem siteList_checks :
    (siteList.check "site.com").IsBlocked ∧ siteList.check "ads.net" = .forwarded := by
  decide +kernel

theorem swappedSteps_runs :
    Runs (handleUdpQuery "" siteQuery) (handled swappedSteps) (.ok ()) := by
  rw [handleUdpQuery, parse_siteQuery, ofExcept_ok_bind]
  refine runs_call_bind.mpr ⟨adsList, _, rfl, ?_⟩
  have passes : adsList.check (DnsQuestion.mk "site.com" 1 1).name = .forwarded := adsList_checks.1
  rw [passes]
  show Runs (forwardUdp "" siteMessage) _ _
  rw [forwardUdp, packetToSend_eq, ofExcept_ok_bind]
  refine runs_bind.mpr (.inr ⟨aliased, [⟨.udpQuery (toSend siteMessage).wire, .ok aliased⟩], _,
    ?_, ?_, rfl⟩)
  · refine runs_attempt_bind.mpr (.inr ⟨aliased, [], rfl, ?_⟩)
    rw [if_neg (by decide)]
    exact runs_pure.mpr ⟨rfl, rfl⟩
  have whole : relayed siteMessage aliased = .ok aliased := by
    rw [relayed, if_neg (by decide)]
  refine runs_bind.mpr (.inr ⟨false, [⟨.readBlocklist, siteList⟩], _, ?_, ?_, rfl⟩)
  · rw [cloakingCheck, parse_aliased]
    refine runs_bind.mpr (.inr ⟨none, [⟨.readBlocklist, siteList⟩], [], ?_, runs_pure.mpr ⟨rfl, rfl⟩,
      rfl⟩)
    refine runs_call_bind.mpr ⟨siteList, [], rfl, ?_⟩
    rw [siteList_checks.2]
    exact runs_pure.mpr ⟨rfl, rfl⟩
  · rw [if_neg Bool.false_ne_true, whole, ofExcept_ok_bind]
    refine runs_attempt_bind.mpr (.inr ⟨(), _, rfl, ?_⟩)
    exact runs_call_bind.mpr ⟨false, [], rfl, runs_pure.mpr ⟨rfl, rfl⟩⟩

theorem swappedSteps_answered : Answered (answering aliased aliased) (handled swappedSteps) :=
  answered_cons.mpr ⟨trivial, answered_cons.mpr ⟨rfl, answered_cons.mpr ⟨trivial,
    answered_cons.mpr ⟨rfl, answered_cons.mpr ⟨trivial, answered_nil⟩⟩⟩⟩⟩

/-- The response is relayed, though each of the two lists alone would have the handler answer
NXDOMAIN. -/
theorem mixedLists_relay :
    Consistent adsList swappedSteps ∧
      Runs (handleUdpQuery "" siteQuery) (handled swappedSteps) (.ok ()) ∧
      Answered (answering aliased aliased) (handled swappedSteps) ∧
      ¬ ∃ bl ∈ actives adsList swappedSteps,
        WholeUdp bl siteQuery aliased aliased (sent (handled swappedSteps)) := by
  refine ⟨swappedSteps_consistent, swappedSteps_runs, swappedSteps_answered, ?_⟩
  have relayed : sent (handled swappedSteps) = [aliased] := rfl
  rintro ⟨bl, member, whole⟩
  have refused : Refused bl siteMessage (finalResponse aliased aliased) := by
    rw [finalResponse_self, refused_iff rfl]
    have targets : responseTargets aliased = ["ads.net"] := by
      rw [responseTargets, parse_aliased]
      rfl
    rw [Blocks, targets]
    rcases List.mem_cons.mp member with rfl | member
    · exact .inr ⟨_, List.mem_singleton_self _, adsList_checks.2⟩
    · obtain rfl := List.mem_singleton.mp member
      exact .inl siteList_checks.1
  have runs := exec_runs (smoothly bl aliased aliased) (handleUdpQuery "" siteQuery)
  have smooth := exec_answered (smooth_smoothly bl aliased aliased) (handleUdpQuery "" siteQuery)
  have same := whole "" _ _ runs smooth
  rw [(handleUdpQuery_smooth parse_siteQuery runs smooth).1 refused, relayed] at same
  exact absurd (List.singleton_inj.mp same) (by decide +kernel)

/-- What holds of that answer. -/
theorem decided_by_active_mixed :
    (∃ bl ∈ actives adsList swappedSteps,
        WholeUdp bl siteQuery aliased aliased (sent (handled swappedSteps))) ∨
      sent (handled swappedSteps) =
          (relayed siteMessage (finalResponse aliased aliased)).toOption.toList ∧
        EachPassed siteMessage (finalResponse aliased aliased) (seen (handled swappedSteps)) :=
  (decided_by_active swappedSteps_consistent parse_siteQuery swappedSteps_answered).1 "" (.ok ())
    swappedSteps_runs

end DnsLigase.Upstream
