/-
# Upstream.UdpSize — what a UDP client is sent of a long response

A response that fits the client's limit is relayed as it is; of a longer one the client
gets the header with TC set, the questions and the OPT records, encoded anew.  The limit
is the class of the client's first OPT record where that is between 1 and 4096, and 512
otherwise (`clientUdpSize`): a smaller limit than 512 is taken at its word, and one above
4096 is not used (`sizeContract_fails`).

The test of `truncate_response` has it that what is left fits.  That is so where the questions
and the OPT records do, and the questions are the response's where their names have no empty part
(`udp_size`); nothing in the code sees to either.
-/
import DnsLigase.Upstream.Cloaking
import DnsLigase.Upstream.Framing

namespace DnsLigase.Upstream

open DnsLigase.Theory DnsLigase.Dns
open DnsLigase.Theory.Bytes DnsLigase.Theory.Case DnsLigase.Theory.Io DnsLigase.Theory.Program

set_option autoImplicit false

/-! ## The response that is cut -/

theorem encodable_truncated {m : DnsMessage} (encodable : Encodable m) :
    Encodable (truncated m) where
  counted := ⟨encodable.counted.qdcount, rfl, rfl⟩
  questions := encodable.questions
  records rr member := by
    have kept : rr ∈ m.additionals.filter (·.rtype = optType) := member
    exact encodable.records rr (by simp [(List.mem_filter.mp kept).1])

/-- `m` decodes the cut response to `resp`: its ID, TC, its questions without empty parts,
and its OPT records. -/
structure CutFrom (resp m : DnsMessage) : Prop where
  id : m.header.id = resp.header.id
  tc : m.header.flags &&& 0x0200 ≠ 0
  questions : m.questions = resp.questions.map DnsQuestion.dropEmpty
  answers : m.answers = []
  authorities : m.authorities = []
  additionals : List.Forall₂ Reencoded (resp.additionals.filter (·.rtype = optType)) m.additionals

theorem tc_set (flags : UInt16) : (flags ||| 0x0200) &&& 0x0200 ≠ 0 := by
  intro clear
  have bit := congrArg (fun v => v.toNat.testBit 9) clear
  simp only [UInt16.toNat_and, UInt16.toNat_or, Nat.testBit_and, Nat.testBit_or] at bit
  have mask : (0x0200 : UInt16).toNat.testBit 9 = true := by decide
  have zero : (0 : UInt16).toNat.testBit 9 = false := by decide
  rw [mask, zero, Bool.or_true, Bool.and_true] at bit
  cases bit

/-- The cut response can be decoded. -/
theorem parse_truncated {resp : List UInt8} {respMsg : DnsMessage}
    (response : DnsMessage.parse resp = .ok respMsg) :
    ∃ m, DnsMessage.parse (truncated respMsg).wire = .ok m ∧ CutFrom respMsg m := by
  obtain ⟨encodable, arcount⟩ := parse_encodable response
  have few : (truncated respMsg).additionals.length < 65536 := by
    have shorter : (truncated respMsg).additionals.length ≤ respMsg.additionals.length :=
      List.length_filter_le _ _
    have := respMsg.header.arcount.toNat_lt
    omega
  obtain ⟨m, parsed, header, questions, answers, authorities, additionals⟩ :=
    parse_wire (encodable_truncated encodable) few []
  rw [List.append_nil] at parsed
  refine ⟨m, parsed, ?_, ?_, questions, List.forall₂_nil_left_iff.mp answers,
    List.forall₂_nil_left_iff.mp authorities, additionals⟩
  · rw [header]
    rfl
  · rw [header]
    exact tc_set respMsg.header.flags

/-! ## What the client is sent -/

section Handler

variable {ρ : Type} [UnicodeCase] [RegexEngine ρ]
variable {bl : Blocklist ρ} {packet resp : List UInt8} {msg respMsg : DnsMessage}

/-- A forwarded query whose response has no blocked target. -/
structure Relays (bl : Blocklist ρ) (packet : List UInt8) (msg : DnsMessage) (resp : List UInt8)
    (respMsg : DnsMessage) : Prop where
  parsed : DnsMessage.parse packet = .ok msg
  passes : ¬ Screened bl msg
  response : DnsMessage.parse resp = .ok respMsg
  clean : ¬ HasBlockedTarget bl respMsg.answers

/-- In `events` the packet is served over UDP, no I/O fails, and `resp` is the response that
counts. -/
def ServedUdp (bl : Blocklist ρ) (packet resp : List UInt8) (events : List (Event (Request ρ))) :
    Prop :=
  ∃ udp tcp client out, finalResponse udp tcp = resp ∧
    Runs (handleUdpQuery client packet) events out ∧ Answered (smooth bl udp tcp) events

theorem sent_of_relays (relays : Relays bl packet msg resp respMsg)
    {events : List (Event (Request ρ))} (served : ServedUdp bl packet resp events) :
    sent events = (relayed msg resp).toOption.toList := by
  obtain ⟨udp, tcp, client, out, rfl, runs, answered⟩ := served
  have clean : ¬ Cloaked bl msg (finalResponse udp tcp) := by
    rintro ⟨-, other, parsed, blocked⟩
    cases parsed.symm.trans relays.response
    exact relays.clean blocked
  exact (handleUdpQuery_smooth relays.parsed runs answered).2 (not_or.mpr ⟨relays.passes, clean⟩)

theorem sent_whole (relays : Relays bl packet msg resp respMsg)
    {events : List (Event (Request ρ))} (served : ServedUdp bl packet resp events)
    (fits : resp.length ≤ clientUdpSize msg) : sent events = [resp] := by
  rw [sent_of_relays relays served, relayed, if_neg (Nat.not_lt.mpr fits)]
  rfl

theorem sent_cut (relays : Relays bl packet msg resp respMsg)
    {events : List (Event (Request ρ))} (served : ServedUdp bl packet resp events)
    (long : clientUdpSize msg < resp.length) : sent events = [(truncated respMsg).wire] := by
  have cut : truncateResponse resp = .ok (truncated respMsg).wire := by
    rw [truncateResponse, relays.response]
    exact DnsMessage.serialize_eq _
  rw [sent_of_relays relays served, relayed, if_pos long, cut]
  rfl

theorem exists_served (bl : Blocklist ρ) (packet resp : List UInt8) :
    ∃ events, ServedUdp bl packet resp events :=
  ⟨_, resp, resp, "", _, finalResponse_self resp, exec_runs (smoothly bl resp resp) _,
    exec_answered (smooth_smoothly bl resp resp) _⟩

/-- **What a UDP client is sent of a response**: all of it when it fits, and else one message
with its ID and TC, and with its questions if their names have no empty part, which fits if the
header, the questions and the OPT records do. -/
theorem udp_size (relays : Relays bl packet msg resp respMsg)
    {events : List (Event (Request ρ))} (served : ServedUdp bl packet resp events) :
    (resp.length ≤ clientUdpSize msg → sent events = [resp]) ∧
    (clientUdpSize msg < resp.length → ∃ reply m, sent events = [reply] ∧
      DnsMessage.parse reply = .ok m ∧ m.header.id = respMsg.header.id ∧
      m.header.flags &&& 0x0200 ≠ 0 ∧
      ((∀ q ∈ respMsg.questions, dropEmpty q.name = q.name) → m.questions = respMsg.questions) ∧
      (12 + (respMsg.questions.map questionSize).sum +
          ((respMsg.additionals.filter (·.rtype = optType)).map recordSize).sum ≤
            clientUdpSize msg → reply.length ≤ clientUdpSize msg)) := by
  refine ⟨sent_whole relays served, fun long => ?_⟩
  obtain ⟨m, parsed, cut⟩ := parse_truncated relays.response
  refine ⟨_, m, sent_cut relays served long, parsed, cut.id, cut.tc, fun whole => ?_, fun fits => ?_⟩
  · exact cut.questions.trans (map_dropEmpty_iff.mpr whole)
  · rw [length_wire, messageSize]
    exact fits

/-! ## A small limit, and a large OPT record -/

/-- The class of the client's first OPT record, if that is at least 512, and else 512. -/
def advertisedSize (msg : DnsMessage) : Nat :=
  match msg.additionals.find? (·.rtype = optType) with
  | none => 512
  | some opt => if 512 ≤ opt.rclass.toNat then opt.rclass.toNat else 512

/-- What a client with that limit could expect of the response. -/
structure SizeContract (limit : Nat) (resp : List UInt8) (respMsg : DnsMessage)
    (datagrams : List (List UInt8)) : Prop where
  whole : resp.length ≤ limit → datagrams = [resp]
  cut : limit < resp.length → ∃ reply m, datagrams = [reply] ∧ reply.length ≤ limit ∧
    DnsMessage.parse reply = .ok m ∧ m.header.id = respMsg.header.id ∧
    m.questions = respMsg.questions ∧ tcBitSet reply = true

end Handler

/-- A query for `site.com` with an OPT record of that class. -/
def optQuery (high low : UInt8) : List UInt8 :=
  [0x12, 0x34, 1, 0, 0, 1, 0, 0, 0, 0, 0, 1] ++
    [4, 115, 105, 116, 101, 3, 99, 111, 109, 0] ++ [0, 1, 0, 1] ++
    [0, 0, 41, high, low, 0, 0, 0, 0, 0, 0]

def optMessage (rclass : UInt16) : DnsMessage where
  header := { id := 0x1234, flags := 0x0100, qdcount := 1, ancount := 0, nscount := 0, arcount := 1 }
  questions := [{ name := "site.com", qtype := 1, qclass := 1 }]
  answers := []
  authorities := []
  additionals := [{ name := "", rtype := 41, rclass, ttl := 0, rdata := [], cnameTarget := none }]
  ednsDo := false

/-- The response without an answer, of 26 octets. -/
def emptyResponse : List UInt8 :=
  [0x12, 0x34, 0x81, 0x80, 0, 1, 0, 0, 0, 0, 0, 0] ++
    [4, 115, 105, 116, 101, 3, 99, 111, 109, 0] ++ [0, 1, 0, 1]

def emptyMessage : DnsMessage :=
  { siteMessage with header := { siteMessage.header with flags := 0x8180 } }

/-- A response for the labels `site` and `com.`, with an OPT record of 511 octets: 538 in all. -/
def paddedResponse : List UInt8 :=
  [0x12, 0x34, 0x81, 0x80, 0, 1, 0, 0, 0, 0, 0, 1] ++
    [4, 115, 105, 116, 101, 4, 99, 111, 109, 46, 0] ++ [0, 1, 0, 1] ++
    [0, 0, 41, 4, 208, 0, 0, 0, 0, 1, 244] ++ List.replicate 500 0

def paddedMessage : DnsMessage where
  header := { id := 0x1234, flags := 0x8180, qdcount := 1, ancount := 0, nscount := 0, arcount := 1 }
  questions := [{ name := "site.com.", qtype := 1, qclass := 1 }]
  answers := []
  authorities := []
  additionals := [{
    name := "", rtype := 41, rclass := 1232, ttl := 0, rdata := List.replicate 500 0
    cnameTarget := none }]
  ednsDo := false

attribute [local instance] smallCase

def noList : Blocklist Literal := Blocklist.new

theorem noList_passes {msg : DnsMessage} (site : msg.questions = siteMessage.questions) :
    ¬ Screened noList msg := by
  rintro ⟨q, first, blocked⟩
  rw [site] at first
  cases first
  exact absurd blocked (by decide +kernel)

theorem no_target {m : DnsMessage} (none_ : m.answers = []) :
    ¬ HasBlockedTarget noList m.answers := by
  rw [none_]
  rintro ⟨rr, member, -⟩
  cases member

theorem smallQuery_relays :
    Relays noList (optQuery 0 20) (optMessage 20) emptyResponse emptyMessage where
  parsed := by decide +kernel
  passes := noList_passes rfl
  response := by decide +kernel
  clean := no_target rfl

theorem parse_paddedResponse : DnsMessage.parse paddedResponse = .ok paddedMessage := by
  decide +kernel

theorem siteQuery_relays : Relays noList siteQuery siteMessage paddedResponse paddedMessage where
  parsed := parse_siteQuery
  passes := noList_passes rfl
  response := parse_paddedResponse
  clean := no_target rfl

theorem largeQuery_relays :
    Relays noList (optQuery 32 0) (optMessage 8192) paddedResponse paddedMessage where
  parsed := by decide +kernel
  passes := noList_passes rfl
  response := parse_paddedResponse
  clean := no_target rfl

theorem optQuery_relays :
    Relays noList (optQuery 2 25) (optMessage 537) paddedResponse paddedMessage where
  parsed := by decide +kernel
  passes := noList_passes rfl
  response := parse_paddedResponse
  clean := no_target rfl

/-- For the client whose OPT record has class 20 a response of 26 octets is cut, and for the one
with class 8192 one of 538 octets.  Of that one, with its large OPT record, a client without an OPT
record is sent 537 octets; and a client whose limit these are is sent them with another question. -/
theorem sizeContract_fails :
    (∃ events, ServedUdp noList (optQuery 0 20) emptyResponse events ∧
      ¬ SizeContract (advertisedSize (optMessage 20)) emptyResponse emptyMessage (sent events)) ∧
    (∃ events, ServedUdp noList (optQuery 32 0) paddedResponse events ∧
      ¬ SizeContract (advertisedSize (optMessage 8192)) paddedResponse paddedMessage
        (sent events)) ∧
    (∃ events, ServedUdp noList siteQuery paddedResponse events ∧
      ¬ SizeContract (advertisedSize siteMessage) paddedResponse paddedMessage (sent events)) ∧
    ∃ events, ServedUdp noList (optQuery 2 25) paddedResponse events ∧
      ¬ SizeContract (advertisedSize (optMessage 537)) paddedResponse paddedMessage
        (sent events) := by
  refine ⟨?_, ?_, ?_, ?_⟩
  · obtain ⟨events, served⟩ := exists_served noList (optQuery 0 20) emptyResponse
    refine ⟨events, served, fun contract => ?_⟩
    have whole := contract.whole (by decide)
    rw [sent_cut smallQuery_relays served (by decide)] at whole
    exact absurd (List.singleton_inj.mp whole) (by decide)
  · obtain ⟨events, served⟩ := exists_served noList (optQuery 32 0) paddedResponse
    refine ⟨events, served, fun contract => ?_⟩
    have whole := contract.whole (by decide +kernel)
    rw [sent_cut largeQuery_relays served (by decide +kernel)] at whole
    have length := congrArg List.length (List.singleton_inj.mp whole)
    rw [length_wire] at length
    exact absurd length (by decide +kernel)
  · obtain ⟨events, served⟩ := exists_served noList siteQuery paddedResponse
    refine ⟨events, served, fun contract => ?_⟩
    obtain ⟨reply, m, same, short, -⟩ := contract.cut (by decide +kernel)
    rw [sent_cut siteQuery_relays served (by decide +kernel)] at same
    rw [← List.singleton_inj.mp same, length_wire] at short
    exact absurd short (by decide +kernel)
  · obtain ⟨events, served⟩ := exists_served noList (optQuery 2 25) paddedResponse
    refine ⟨events, served, fun contract => ?_⟩
    obtain ⟨reply, m, same, -, parsed, -, questions, -⟩ := contract.cut (by decide +kernel)
    rw [sent_cut optQuery_relays served (by decide +kernel)] at same
    obtain ⟨m', parsed', cutFrom⟩ := parse_truncated parse_paddedResponse
    rw [← List.singleton_inj.mp same, parsed'] at parsed
    cases parsed
    rw [cutFrom.questions] at questions
    exact absurd questions (by decide)

/-- The response with an answer, of 42 octets. -/
def addressResponse : List UInt8 :=
  [0x12, 0x34, 0x81, 0x80, 0, 1, 0, 1, 0, 0, 0, 0] ++
    [4, 115, 105, 116, 101, 3, 99, 111, 109, 0] ++ [0, 1, 0, 1] ++
    [0xC0, 12] ++ [0, 1, 0, 1, 0, 0, 0, 60, 0, 4, 192, 0, 2, 1]

def addressMessage : DnsMessage :=
  { emptyMessage with
    header := { emptyMessage.header with ancount := 1 }
    answers := [⟨"site.com", 1, 1, 60, [192, 0, 2, 1], none⟩] }

/-- Cut for a client whose limit is 30 octets, it fits. -/
theorem udp_size_small :
    ∃ events, ServedUdp noList (optQuery 0 30) addressResponse events ∧
      ∃ reply m, sent events = [reply] ∧ DnsMessage.parse reply = .ok m ∧
        m.header.id = 0x1234 ∧ m.questions = siteMessage.questions ∧ reply.length ≤ 30 := by
  have clean : ¬ HasBlockedTarget noList addressMessage.answers := by
    rintro ⟨rr, member, cname, -⟩
    rw [List.mem_singleton.mp member] at cname
    exact absurd cname (by decide)
  have relays : Relays noList (optQuery 0 30) (optMessage 30) addressResponse addressMessage :=
    ⟨by decide +kernel, noList_passes rfl, by decide +kernel, clean⟩
  obtain ⟨events, served⟩ := exists_served noList (optQuery 0 30) addressResponse
  obtain ⟨reply, m, same, parsed, id, -, questions, fits⟩ :=
    (udp_size relays served).2 (by decide)
  exact ⟨events, served, reply, m, same, parsed, id, questions (by decide), fits (by decide)⟩

end DnsLigase.Upstream
