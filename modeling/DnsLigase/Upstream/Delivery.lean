/-
# Upstream.Delivery — does the client get the upstream's response?

Two things can come between: a response too long for the client is parsed a second time, to
be cut, and one that does not parse is dropped there although the scan for CNAME targets
tolerated it; and the scan looks up every target by itself, so that a query whose name an
allow rule let pass is refused for the name of a target.

* `delivered_iff`: when a forwarded UDP query is answered at all;
* `relayed_iff`: when a query with an allowed name gets the response.
-/
import DnsLigase.Upstream.Cloaking
import DnsLigase.Upstream.Swaps

namespace DnsLigase.Upstream

open DnsLigase.Theory DnsLigase.Dns
open DnsLigase.Theory.Bytes DnsLigase.Theory.Case DnsLigase.Theory.Cursor DnsLigase.Theory.Io
open DnsLigase.Theory.Program

set_option autoImplicit false

/-- The response fits the client's buffer, or it can be cut. -/
def Relayable (msg : DnsMessage) (resp : List UInt8) : Prop :=
  resp.length ≤ clientUdpSize msg ∨ ∃ respMsg, DnsMessage.parse resp = .ok respMsg

theorem relayed_ok_iff {msg : DnsMessage} {resp : List UInt8} :
    (∃ reply, relayed msg resp = .ok reply) ↔ Relayable msg resp := by
  unfold relayed Relayable
  split
  · rename_i long
    have notShort : ¬ resp.length ≤ clientUdpSize msg := by omega
    rw [or_iff_right notShort, truncateResponse]
    cases DnsMessage.parse resp with
    | error e => exact iff_of_false (by rintro ⟨reply, ⟨⟩⟩) (by rintro ⟨respMsg, ⟨⟩⟩)
    | ok respMsg => exact iff_of_true ⟨_, (truncated respMsg).serialize_eq⟩ ⟨respMsg, rfl⟩
  · rename_i short
    exact iff_of_true ⟨resp, rfl⟩ (.inl (Nat.le_of_not_lt short))

theorem parse_of_targets {resp : List UInt8} {name : String} (member : name ∈ responseTargets resp) :
    ∃ respMsg, DnsMessage.parse resp = .ok respMsg := by
  unfold responseTargets at member
  cases parsed : DnsMessage.parse resp with
  | error e =>
      rw [parsed] at member
      cases member
  | ok respMsg => exact ⟨respMsg, rfl⟩

section Handlers

variable {ρ : Type} [UnicodeCase] [RegexEngine ρ]

section Datagrams

variable {client : String} {packet udp tcp : List UInt8} {msg : DnsMessage}
  {events : List (Event (Request ρ))} {out : Except IoError Unit}

/-- A forwarded query is answered with what is relayed of the response, or with NXDOMAIN
because of a target in it. -/
theorem sent_forwarded (parsed : DnsMessage.parse packet = .ok msg)
    (runs : Runs (handleUdpQuery client packet) events out)
    (answered : Answered (answering udp tcp) events) (forwarded : asked events ≠ []) :
    sent events = (relayed msg (finalResponse udp tcp)).toOption.toList ∨
      sent events = [(nxdomain msg).wire] ∧
        ∃ respMsg, DnsMessage.parse (finalResponse udp tcp) = .ok respMsg := by
  cases first : msg.questions.head? with
  | none =>
      have unread := seen_of_plain (handleUdpQuery_plain parsed first _ _ runs)
      have smooth : Answered (smooth Blocklist.new udp tcp) events :=
        smooth_of_unread answered unread
      refine .inl ((handleUdpQuery_smooth parsed runs smooth).2 ?_)
      rintro (⟨q, some_, -⟩ | ⟨asks, -⟩)
      · rw [first] at some_
        cases some_
      · exact asks (List.head?_eq_none_iff.mp first)
  | some q =>
      obtain ⟨records, refused, decision, answer, -⟩ :=
        handleUdpQuery_decides parsed first runs answered
      have walked : ∀ {reads : List (Blocklist ρ)} {found : Option (String × String)},
          Walk (responseTargets (finalResponse udp tcp)) reads found → refused = found.isSome →
          sent events = (relayed msg (finalResponse udp tcp)).toOption.toList ∨
            sent events = [(nxdomain msg).wire] ∧
              ∃ respMsg, DnsMessage.parse (finalResponse udp tcp) = .ok respMsg := by
        intro reads found walk same
        rw [answer, same]
        cases found with
        | none => exact .inl rfl
        | some hit =>
            obtain ⟨bl, -, name, member, -⟩ := walk.passed.2 rfl
            exact .inr ⟨rfl, parse_of_targets member⟩
      generalize reads : seen events = lists at decision
      cases decision with
      | @blocked bl rule hit =>
          -- the only list that was read blocks the name, so nothing was asked
          have smooth : Answered (smooth bl udp tcp) events :=
            smooth_of_answering answered fun other member => by
              rw [reads] at member
              exact List.mem_singleton.mp member
          obtain ⟨query, asks⟩ := List.exists_mem_of_ne_nil _ forwarded
          have passes := of_mem_asked parsed (.inl runs) (smooth.mono reading_of_smooth) asks
          exact absurd ⟨q, first, by rw [hit]; trivial⟩ passes.1
      | allowed _ walk => exact walked walk rfl
      | forwarded _ walk => exact walked walk rfl

/-- **A forwarded UDP query is answered with one datagram exactly when the response fits or
can be cut.** -/
theorem delivered_iff (parsed : DnsMessage.parse packet = .ok msg)
    (runs : Runs (handleUdpQuery client packet) events out)
    (answered : Answered (answering udp tcp) events) (forwarded : asked events ≠ []) :
    (∃ datagram, sent events = [datagram]) ↔ Relayable msg (finalResponse udp tcp) := by
  rcases sent_forwarded parsed runs answered forwarded with relay | ⟨refused, parsedResp⟩
  · rw [relay, ← relayed_ok_iff]
    cases relayed msg (finalResponse udp tcp) with
    | error e => exact iff_of_false (by rintro ⟨datagram, ⟨⟩⟩) nofun
    | ok reply => exact iff_of_true ⟨reply, rfl⟩ ⟨reply, rfl⟩
  · exact iff_of_true ⟨_, refused⟩ (.inr parsedResp)

end Datagrams

/-! ## Allowed names -/

/-- Over UDP the client is sent the response, cut when it is too long. -/
def RelaysUdp (bl : Blocklist ρ) (packet : List UInt8) (msg : DnsMessage) (resp : List UInt8) :
    Prop :=
  ∀ udp tcp, finalResponse udp tcp = resp →
    ∀ (client : String) (events : List (Event (Request ρ))) (out : Except IoError Unit),
      Runs (handleUdpQuery client packet) events out → Answered (smooth bl udp tcp) events →
      ∃ reply, relayed msg resp = .ok reply ∧ sent events = [reply]

/-- Over TCP the client is sent the response. -/
def RelaysTcp (bl : Blocklist ρ) (packet : List UInt8) (resp : List UInt8) : Prop :=
  ∀ (udp : List UInt8) (client : String) (events : List (Event (Request ρ)))
    (out : Except IoError Unit),
      Runs (serveTcpMessage client packet) events out → Answered (smooth bl udp resp) events →
      written events = frame resp

omit [UnicodeCase] [RegexEngine ρ] in
theorem ancount_of_parse {resp : List UInt8} {respMsg : DnsMessage}
    (parsed : DnsMessage.parse resp = .ok respMsg) : respMsg.header.ancount = be16 resp 6 := by
  obtain ⟨pos, read⟩ := DnsMessage.parse_eq_ok.mp parsed
  obtain ⟨header, mid, readHeader, read⟩ := Reader.bind_eq_ok.mp read
  obtain ⟨buf, mid', readBuf, built⟩ := Reader.bind_eq_ok.mp readHeader
  obtain ⟨-, rfl, -⟩ := Reader.readExact_eq_ok.mp readBuf
  obtain ⟨rfl, -⟩ := Reader.pure_eq_ok.mp built
  obtain ⟨questions, _, -, read⟩ := Reader.bind_eq_ok.mp read
  obtain ⟨answers, _, -, read⟩ := Reader.bind_eq_ok.mp read
  obtain ⟨authorities, _, -, read⟩ := Reader.bind_eq_ok.mp read
  obtain ⟨additionals, _, -, read⟩ := Reader.bind_eq_ok.mp read
  obtain ⟨rfl, -⟩ := Reader.pure_eq_ok.mp read
  exact (be16_slice (by decide)).trans (by rw [Nat.zero_add])

/-- A response with a blocked target counts answers. -/
theorem answers_of_cloaked {bl : Blocklist ρ} {msg : DnsMessage} {resp : List UInt8}
    (cloaked : Cloaked bl msg resp) : (be16 resp 6).toNat ≠ 0 := by
  obtain ⟨-, respMsg, parsed, rr, member, -⟩ := cloaked
  have counted := (parse_decoded parsed).encodable.counted.ancount
  have nonempty := List.length_pos_of_mem member
  rw [← ancount_of_parse parsed]
  omega

section Allowed

variable {bl : Blocklist ρ} {packet : List UInt8} {msg : DnsMessage} {q : DnsQuestion}
  {rule : String}

theorem relaysUdp_iff (parsed : DnsMessage.parse packet = .ok msg) (passes : ¬ Screened bl msg)
    (resp : List UInt8) :
    RelaysUdp bl packet msg resp ↔ ¬ Cloaked bl msg resp ∧ Relayable msg resp := by
  constructor
  · intro relays
    have same := finalResponse_self resp
    have runs := exec_runs (smoothly bl resp resp) (handleUdpQuery "" packet)
    have answered := exec_answered (smooth_smoothly bl resp resp) (handleUdpQuery "" packet)
    obtain ⟨reply, relay, only⟩ := relays resp resp same "" _ _ runs answered
    refine ⟨fun cloaked => ?_, relayed_ok_iff.mp ⟨reply, relay⟩⟩
    have nx := (handleUdpQuery_smooth parsed runs answered).1 (.inr (same.symm ▸ cloaked))
    have other : (relayed msg resp).toOption.toList ≠ [(nxdomain msg).wire] :=
      relayed_ne_nxdomain (answers_of_cloaked cloaked)
    rw [relay] at other
    exact other (only.symm.trans nx)
  · rintro ⟨clean, relayable⟩ udp tcp rfl client events out runs answered
    obtain ⟨reply, relay⟩ := relayed_ok_iff.mpr relayable
    refine ⟨reply, relay, ?_⟩
    rw [(handleUdpQuery_smooth parsed runs answered).2 (not_or.mpr ⟨passes, clean⟩), relay]
    rfl

theorem relaysTcp_iff (parsed : DnsMessage.parse packet = .ok msg) (passes : ¬ Screened bl msg)
    (resp : List UInt8) : RelaysTcp bl packet resp ↔ ¬ Cloaked bl msg resp := by
  constructor
  · intro relays cloaked
    have caught := (caughtTcp_iff parsed passes (answers_of_cloaked cloaked)).mpr cloaked
    have runs := exec_runs (smoothly bl [] resp) (serveTcpMessage "" packet)
    have answered := exec_answered (smooth_smoothly bl [] resp) (serveTcpMessage "" packet)
    have both := (relays [] "" _ _ runs answered).symm.trans (caught [] "" _ _ runs answered)
    have same : resp = (nxdomain msg).wire := congrArg (List.drop 2) both
    have answers := answers_of_cloaked cloaked
    rw [same, be16_wire_ancount] at answers
    exact answers rfl
  · intro clean udp client events out runs answered
    exact (serveTcpMessage_smooth parsed runs answered).2 (not_or.mpr ⟨passes, clean⟩)

theorem not_screened_of_allowed (first : msg.questions.head? = some q)
    (allowed : bl.check q.name = .allowed rule) : ¬ Screened bl msg := by
  rintro ⟨q', first', blocked⟩
  cases first.symm.trans first'
  rw [allowed] at blocked
  exact blocked

/-- **An allowed name gets the upstream's response exactly when the response names no blocked
target**, and over UDP can be relayed. -/
theorem relayed_iff (parsed : DnsMessage.parse packet = .ok msg)
    (first : msg.questions.head? = some q) (allowed : bl.check q.name = .allowed rule)
    (resp : List UInt8) :
    (RelaysUdp bl packet msg resp ↔ ¬ Cloaked bl msg resp ∧ Relayable msg resp) ∧
      (RelaysTcp bl packet resp ↔ ¬ Cloaked bl msg resp) := by
  have passes := not_screened_of_allowed first allowed
  exact ⟨relaysUdp_iff parsed passes resp, relaysTcp_iff parsed passes resp⟩

end Allowed

end Handlers

/-! ## Responses that do not arrive -/

attribute [local instance] smallCase

/-- 513 octets, in which a pointer leads out of the response. -/
def brokenResponse : List UInt8 :=
  [0x12, 0x34, 0x81, 0x80, 0, 1, 0, 0, 0, 0, 0, 0] ++ List.replicate 501 0xFF

/-- What the UDP handler awaits for `siteQuery` when the upstream answers `resp`. -/
def siteRun (resp : List UInt8) : List (Event (Request Literal)) :=
  (exec (smoothly adsList resp resp) (handleUdpQuery "" siteQuery)).1

theorem siteRun_runs (resp : List UInt8) : ∃ out, Runs (handleUdpQuery "" siteQuery)
    (siteRun resp) out ∧ Answered (answering resp resp) (siteRun resp) ∧ asked (siteRun resp) ≠ [] := by
  have runs := exec_runs (smoothly adsList resp resp) (handleUdpQuery "" siteQuery)
  have answered := exec_answered (smooth_smoothly adsList resp resp) (handleUdpQuery "" siteQuery)
  have asks := asked_of_passes parse_siteQuery (.inl runs) (answered.mono reading_of_smooth)
    siteMessage_passes
  exact ⟨_, runs, answered.mono answering_of_smooth, List.ne_nil_of_mem asks⟩

theorem delivered_iff_siteQuery : (∃ datagram, sent (siteRun siteQuery) = [datagram]) ↔
    Relayable siteMessage (finalResponse siteQuery siteQuery) := by
  obtain ⟨out, runs, answered, forwarded⟩ := siteRun_runs siteQuery
  exact delivered_iff parse_siteQuery runs answered forwarded

/-- The query is forwarded and the upstream answers, but the client is sent nothing. -/
theorem brokenResponse_dropped : ∃ out,
    Runs (handleUdpQuery "" siteQuery) (siteRun brokenResponse) out ∧
      Answered (answering brokenResponse brokenResponse) (siteRun brokenResponse) ∧
      asked (siteRun brokenResponse) ≠ [] ∧ sent (siteRun brokenResponse) = [] := by
  obtain ⟨out, runs, answered, forwarded⟩ := siteRun_runs brokenResponse
  refine ⟨out, runs, answered, forwarded, ?_⟩
  have whole := finalResponse_self brokenResponse
  have malformed : (DnsMessage.parse brokenResponse).toOption = none := by decide +kernel
  have long : clientUdpSize siteMessage < brokenResponse.length := by decide +kernel
  rcases sent_forwarded parse_siteQuery runs answered forwarded with relay | ⟨-, respMsg, parsed⟩
  · rw [relay, whole, relayed, if_pos long, truncateResponse]
    cases parsed : DnsMessage.parse brokenResponse with
    | error e => rfl
    | ok respMsg =>
        rw [parsed] at malformed
        cases malformed
  · rw [whole] at parsed
    rw [parsed] at malformed
    cases malformed

/-- The list that allows `site.com` and blocks `ads.net`. -/
def siteExempt : Blocklist Literal := { adsList with allowDomains := {"site.com"} }

theorem siteExempt_check : siteExempt.check "site.com" = .allowed "allow:site.com" := by
  decide +kernel

theorem relayed_iff_siteQuery :
    (RelaysUdp siteExempt siteQuery siteMessage (aliasOctets 97) ↔
      ¬ Cloaked siteExempt siteMessage (aliasOctets 97) ∧
        Relayable siteMessage (aliasOctets 97)) ∧
    (RelaysTcp siteExempt siteQuery (aliasOctets 97) ↔
      ¬ Cloaked siteExempt siteMessage (aliasOctets 97)) :=
  relayed_iff parse_siteQuery rfl siteExempt_check (aliasOctets 97)

/-- `site.com` is allowed, but an alias of `ads.net`. -/
theorem siteExempt_refused : siteExempt.check "site.com" = .allowed "allow:site.com" ∧
    ¬ RelaysUdp siteExempt siteQuery siteMessage (aliasOctets 97) ∧
    ¬ RelaysTcp siteExempt siteQuery (aliasOctets 97) := by
  have passes : ¬ Screened siteExempt siteMessage :=
    not_screened_of_allowed rfl siteExempt_check
  have cloaked : Cloaked siteExempt siteMessage (aliasOctets 97) := by
    have target : (responseTargets (aliasOctets 97)) = ["ads.net"] := by decide +kernel
    have blocked : (siteExempt.check "ads.net").IsBlocked := by decide +kernel
    obtain ⟨respMsg, parsed⟩ := parse_of_targets (target ▸ List.mem_singleton.mpr rfl)
    have listed : targets respMsg.answers = ["ads.net"] := by
      rw [responseTargets, parsed] at target
      exact target
    have member : "ads.net" ∈ targets respMsg.answers := by simp [listed]
    exact ⟨List.cons_ne_nil _ _, respMsg, parsed,
      hasBlockedTarget_iff.mpr ⟨"ads.net", member, blocked⟩⟩
  rw [relaysUdp_iff parse_siteQuery passes, relaysTcp_iff parse_siteQuery passes]
  exact ⟨siteExempt_check, fun both => both.1 cloaked, fun clean => clean cloaked⟩

end DnsLigase.Upstream
