/-
# Upstream.Framing — the frames that the TCP path writes

`tcp_query_on` and `write_tcp_message` write a message behind its length cast to
`u16`.  A packet can grow when it is encoded again: its names come out uncompressed,
and an OPT record of eleven octets is added to a packet without one.  `expandedSize`
is the size it has then, and decides whether the frames can be read back.
-/
import DnsLigase.Dns.Opt
import DnsLigase.Upstream.Runs

namespace DnsLigase.Upstream

open DnsLigase.Theory DnsLigase.Dns
open DnsLigase.Theory.Bytes DnsLigase.Theory.Io DnsLigase.Theory.Program DnsLigase.Theory.Utf8

set_option autoImplicit false

/-! ## Sizes -/

/-- The octets of a name written out in full: each part behind its length, then the root. -/
def nameSize (name : String) : Nat :=
  ((pieces name).map fun part => (utf8 part).length + 1).sum + 1

def questionSize (q : DnsQuestion) : Nat := nameSize q.name + 4

def recordSize (rr : DnsResourceRecord) : Nat := nameSize rr.name + 10 + rr.rdata.length

def messageSize (msg : DnsMessage) : Nat :=
  12 + (msg.questions.map questionSize).sum + (msg.answers.map recordSize).sum +
    (msg.authorities.map recordSize).sum + (msg.additionals.map recordSize).sum

/-- The size of a query on its way to the upstream. -/
def expandedSize (msg : DnsMessage) : Nat :=
  messageSize msg + if msg.additionals.any (·.rtype = optType) then 0 else 11

@[simp] theorem length_serializeName (name : String) :
    (serializeName name).length = nameSize name := by
  simp [serializeName_eq, nameSize, labelBytes, List.length_flatMap]

theorem length_wire (msg : DnsMessage) : msg.wire.length = messageSize msg := by
  have question : ∀ q : DnsQuestion, q.wire.length = questionSize q := fun q => by
    simp [DnsQuestion.wire, questionSize]
  have record : ∀ rr : DnsResourceRecord, rr.wire.length = recordSize rr := fun rr => by
    simp [DnsResourceRecord.wire, DnsResourceRecord.metaWire, recordSize]
    omega
  have header : ∀ h : DnsHeader, h.wire.length = 12 := fun _ => rfl
  simp only [DnsMessage.wire, List.length_append, List.length_flatMap, header, question, record,
    messageSize, Nat.add_assoc]

/-- Rewriting an OPT record keeps all sizes, and a fresh one has eleven octets. -/
theorem length_toSend (msg : DnsMessage) : (toSend msg).wire.length = expandedSize msg := by
  rw [length_wire, expandedSize, toSend]
  rcases addOptRecord_cases { msg with ednsDo := true } ednsBufferSize with
    ⟨front, opt, back, first, same⟩ | ⟨none_, same⟩
  · have whole : msg.additionals = front ++ opt :: back := first.split
    have found : msg.additionals.any (·.rtype = optType) = true := by
      rw [whole]
      simp [first.opt]
    have size : recordSize (opt.withDo ednsBufferSize) = recordSize opt := rfl
    rw [same, found, if_pos rfl, messageSize, messageSize, whole]
    simp only [List.map_append, List.map_cons, size]
    rfl
  · have missing : msg.additionals.any (·.rtype = optType) = false := by
      simpa using none_
    have fresh : recordSize (DnsMessage.freshOpt ednsBufferSize) = 11 := by decide
    rw [same, missing, if_neg Bool.false_ne_true, messageSize, messageSize]
    simp only [List.map_append, List.map_cons, List.map_nil, List.sum_append, List.sum_cons,
      List.sum_nil, fresh]
    omega

theorem nxdomain_le (msg : DnsMessage) : (nxdomain msg).wire.length ≤ expandedSize msg := by
  rw [length_wire, expandedSize, messageSize, messageSize, nxdomain]
  simp only [List.map_nil, List.sum_nil]
  omega

/-! ## Frames -/

def streamOctets : Event StreamRequest → List UInt8
  | ⟨.writeAll octets, _⟩ => octets
  | _ => []

/-- A reader of `stream` by length prefix takes exactly `msg` off it, whatever follows. -/
def Delivers (stream msg : List UInt8) : Prop := ∀ rest, readFrame (stream ++ rest) = some (msg, rest)

theorem delivers_frame (msg : List UInt8) : Delivers (frame msg) msg ↔ msg.length ≤ 65535 :=
  framed_iff msg

/-- The frames that are written because of a query: to the upstream, and to the client. -/
structure ExactFrames (ρ : Type) (msg : DnsMessage) : Prop where
  query : ∀ query, packetToSend msg = .ok query →
    ∀ (events : List (Event StreamRequest)) (resp : List UInt8),
      Runs (tcpQueryOn query) events (.ok resp) → Delivers (events.flatMap streamOctets) query
  nxdomain : ∀ nx, buildNxdomain msg = .ok nx →
    ∀ events : List (Event (Request ρ)), Runs (writeTcpMessage nx) events (.ok ()) →
      Delivers (written events) nx

theorem tcpQueryOn_writes {query resp : List UInt8} {events : List (Event StreamRequest)}
    (runs : Runs (tcpQueryOn query) events (.ok resp)) :
    events.flatMap streamOctets = frame query := by
  rcases runs_bind.mp runs with ⟨e, -, ⟨⟩⟩ | ⟨⟨⟩, first, later, wrote, next, rfl⟩
  rcases runs_attempt_bind.mp next with ⟨e, -, ⟨⟩⟩ | ⟨len, last, rfl, final⟩
  rw [writeFramed_ok wrote, runs_attempt.mp final]
  simp [streamOctets, frame]

theorem writeTcpMessage_writes {ρ : Type} {reply : List UInt8} {events : List (Event (Request ρ))}
    (runs : Runs (writeTcpMessage reply) events (.ok ())) : written events = frame reply := by
  rw [writeFramed_ok runs]
  simp [written, octets, frame]

/-- An upstream that takes the query and answers with an empty frame. -/
def accepting : ∀ {γ : Type}, StreamRequest γ → γ
  | _, .writeAll _ => .ok ()
  | _, .flush => .ok ()
  | _, .readExact n => .ok (List.replicate n 0)

theorem tcpQueryOn_accepting (query : List UInt8) :
    ∃ events resp, Runs (tcpQueryOn query) events (.ok resp) :=
  ⟨_, _, exec_runs accepting (tcpQueryOn query)⟩

/-- **The frames written because of a query can be read back exactly when the query,
written out in full and with its OPT record, has at most 65535 octets.** -/
theorem exactFrames_iff (ρ : Type) (msg : DnsMessage) :
    ExactFrames ρ msg ↔ expandedSize msg ≤ 65535 := by
  constructor
  · intro exact_
    obtain ⟨events, resp, runs⟩ := tcpQueryOn_accepting (toSend msg).wire
    have delivers := exact_.query _ (packetToSend_eq msg) events resp runs
    rwa [tcpQueryOn_writes runs, delivers_frame, length_toSend] at delivers
  · intro short
    constructor
    · rintro query built events resp runs
      cases (packetToSend_eq msg).symm.trans built
      rwa [tcpQueryOn_writes runs, delivers_frame, length_toSend]
    · rintro nx built events runs
      cases (buildNxdomain_eq msg).symm.trans built
      rw [writeTcpMessage_writes runs, delivers_frame]
      exact (nxdomain_le msg).trans short

/-- A record whose rdata fill all but a few octets of a frame. -/
def bulkyRecord : DnsResourceRecord where
  name := ""
  rtype := 16
  rclass := 1
  ttl := 0
  rdata := List.replicate 65500 0
  cnameTarget := none

/-- A query with one additional record. -/
def queryWith (rr : DnsResourceRecord) : DnsMessage where
  header := { id := 7, flags := 0x0100, qdcount := 1, ancount := 0, nscount := 0, arcount := 1 }
  questions := [{ name := "a.b", qtype := 16, qclass := 1 }]
  answers := []
  authorities := []
  additionals := [rr]
  ednsDo := false

def bulkyQuery : DnsMessage := queryWith bulkyRecord

theorem length_bulkyRecord : bulkyRecord.rdata.length = 65500 := List.length_replicate

theorem bulkyQuery_canonical : CanonicalMessage bulkyQuery where
  counted := ⟨rfl, rfl, rfl⟩
  arcount := rfl
  questions := by decide
  records rr member := by
    obtain rfl : rr = bulkyRecord := List.mem_singleton.mp member
    exact ⟨by decide, by rw [length_bulkyRecord]; decide, fun _ => rfl,
      fun cname => absurd cname (by decide)⟩
  ednsDo := by
    refine iff_of_false Bool.false_ne_true ?_
    rintro ⟨opt, member, isOpt, -⟩
    obtain rfl : opt = bulkyRecord := List.mem_singleton.mp member
    exact absurd isOpt (by decide)

theorem messageSize_queryWith (rr : DnsResourceRecord) :
    messageSize (queryWith rr) = 21 + recordSize rr := by
  have question : nameSize "a.b" = 5 := by decide
  simp [messageSize, queryWith, questionSize, question]

theorem messageSize_bulkyQuery : messageSize bulkyQuery = 65532 := by
  have root : nameSize bulkyRecord.name = 1 := by decide
  rw [bulkyQuery, messageSize_queryWith, recordSize, length_bulkyRecord, root]

/-- It fits a frame as it arrives, and outgrows one with the OPT record added. -/
theorem bulkyQuery_frames : bulkyQuery.wire.length ≤ 65535 ∧
    DnsMessage.parse bulkyQuery.wire = .ok bulkyQuery ∧ ¬ ExactFrames Literal bulkyQuery := by
  refine ⟨by rw [length_wire, messageSize_bulkyQuery]; decide,
    parse_canonical bulkyQuery_canonical, fun exact_ => ?_⟩
  obtain ⟨events, resp, runs⟩ := tcpQueryOn_accepting (toSend bulkyQuery).wire
  have delivers := exact_.query _ (packetToSend_eq bulkyQuery) events resp runs
  have noOpt : bulkyQuery.additionals.any (·.rtype = optType) = false := rfl
  rw [tcpQueryOn_writes runs, delivers_frame, length_toSend, expandedSize, noOpt,
    messageSize_bulkyQuery] at delivers
  exact absurd delivers (by decide)

end DnsLigase.Upstream
