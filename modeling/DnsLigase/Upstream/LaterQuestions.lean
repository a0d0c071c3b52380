/-
# Upstream.LaterQuestions — packets with more than one question

The parser reads as many questions as the header counts and the serializer writes all of
them, but the handlers look at the first only.

* `forwardsUnblocked_iff`: no blocked question is forwarded exactly for the packets in which
  no name behind the first is blocked, or the first is;
* `wellFormedReply_iff`: the NXDOMAIN answer, whose header counts one question while its body
  keeps them all, is a well-formed reply exactly to a packet with one question.
-/
import DnsLigase.Upstream.Cloaking

namespace DnsLigase.Upstream

open DnsLigase.Theory DnsLigase.Dns
open DnsLigase.Theory.Bytes DnsLigase.Theory.Case DnsLigase.Theory.Cursor DnsLigase.Theory.Io
open DnsLigase.Theory.Program

set_option autoImplicit false

/-! ## The NXDOMAIN answer on the wire -/

/-- The NXDOMAIN answer to one question. -/
def refusal (id : UInt16) (q : DnsQuestion) : DnsMessage where
  header := { id, flags := 0x8183, qdcount := 1, ancount := 0, nscount := 0, arcount := 0 }
  questions := [q]
  answers := []
  authorities := []
  additionals := []
  ednsDo := false

section Answer

variable {msg : DnsMessage} {q : DnsQuestion} {rest : List DnsQuestion}

theorem nxdomain_wire (questions : msg.questions = q :: rest) :
    (nxdomain msg).wire = (refusal msg.header.id q).wire ++ rest.flatMap DnsQuestion.wire := by
  simp [DnsMessage.wire, nxdomain, refusal, questions]

/-- The answer to one question is read back, up to the empty parts of its name. -/
theorem reads_refusal (id : UInt16) (short : ShortPieces q.name) :
    Reader.Reads DnsMessage.parseReader (refusal id q).wire (· = refusal id q.dropEmpty) := by
  have reads := reads_message (m := refusal id q) (R := Reencoded) ⟨rfl, rfl, rfl⟩
    (show 0 < 65536 by decide) (by simpa [refusal] using short) (by simp [refusal])
  refine reads.mono ?_
  rintro m ⟨header, questions, answers, authorities, additionals, ednsDo⟩
  have answers := List.forall₂_nil_left_iff.mp answers
  have authorities := List.forall₂_nil_left_iff.mp authorities
  have additionals := List.forall₂_nil_left_iff.mp additionals
  rw [additionals] at ednsDo
  exact DnsMessage.ext header questions answers authorities additionals ednsDo

/-- **The parser stops behind the first question of the answer**, however many follow it. -/
theorem parseReader_nxdomain (questions : msg.questions = q :: rest) (short : ShortPieces q.name) :
    DnsMessage.parseReader (nxdomain msg).wire 0 =
      .ok (refusal msg.header.id q.dropEmpty, (refusal msg.header.id q).wire.length) := by
  obtain ⟨m, read, rfl⟩ := reads_refusal msg.header.id short [] (rest.flatMap DnsQuestion.wire)
  rw [nxdomain_wire questions]
  simpa using read

theorem question_wire_length (q : DnsQuestion) : 0 < q.wire.length := by
  simp only [DnsQuestion.wire, beBytes16, List.length_append, List.length_cons]
  omega

/-- The name is made of labels without dots. -/
def DotFree (name : String) : Prop :=
  ∃ labels : List String, (∀ l ∈ labels, l ≠ "" ∧ '.' ∉ l.toList) ∧ name = joinDots labels

theorem DotFree.dropEmpty {name : String} (dotFree : DotFree name) : dropEmpty name = name := by
  obtain ⟨labels, whole, rfl⟩ := dotFree
  rw [Dns.dropEmpty, pieces_joinDots_labels whole]

theorem dropEmpty_dropEmpty (name : String) : dropEmpty (dropEmpty name) = dropEmpty name :=
  DotFree.dropEmpty ⟨pieces name, fun _ member =>
    ⟨(of_mem_pieces member).1, (of_mem_pieces member).2.1⟩, rfl⟩

/-- `m` refuses what `msg` asks. -/
structure Refuses (msg m : DnsMessage) : Prop where
  id : m.header.id = msg.header.id
  rcode : m.header.flags &&& 0x000F = 3
  qr : m.header.flags &&& 0x8000 ≠ 0
  questions : m.questions = msg.questions
  answers : m.answers = []
  authorities : m.authorities = []
  additionals : m.additionals = []

/-- The counts in the header of `bs` account for all its octets, and they hold an NXDOMAIN
answer to `msg`. -/
def WellFormedReply (msg : DnsMessage) (bs : List UInt8) : Prop :=
  ∃ m, DnsMessage.parseReader bs 0 = .ok (m, bs.length) ∧ Refuses msg m

/-- **The NXDOMAIN answer is well formed exactly when there is one question.** -/
theorem wellFormedReply_iff {packet : List UInt8} (parsed : DnsMessage.parse packet = .ok msg)
    (asks : msg.questions ≠ []) (dotFree : ∀ q ∈ msg.questions, DotFree q.name) :
    (∃ bs, buildNxdomain msg = .ok bs ∧ WellFormedReply msg bs) ↔ msg.questions.length = 1 := by
  obtain ⟨q, rest, questions⟩ := List.exists_cons_of_ne_nil asks
  have first : q ∈ msg.questions := by simp [questions]
  have read := parseReader_nxdomain questions ((parse_decoded parsed).encodable.questions q first)
  have whole : q.dropEmpty = q := by rw [DnsQuestion.dropEmpty, (dotFree q first).dropEmpty]
  rw [whole] at read
  rw [questions, List.length_cons, Nat.add_eq_right, List.length_eq_zero_iff]
  constructor
  · rintro ⟨bs, built, m, reads, -⟩
    cases (buildNxdomain_eq msg).symm.trans built
    rw [read] at reads
    have stops : (refusal msg.header.id q).wire.length = (nxdomain msg).wire.length := by
      simp only [Except.ok.injEq, Prod.mk.injEq] at reads
      exact reads.2
    -- a second question is behind where the parser stops
    cases rest with
    | nil => rfl
    | cons next rest =>
        have octets := question_wire_length next
        rw [nxdomain_wire questions] at stops
        simp only [List.flatMap_cons, List.length_append] at stops
        omega
  · rintro rfl
    have same : (nxdomain msg).wire = (refusal msg.header.id q).wire := by
      simp [nxdomain_wire questions]
    refine ⟨_, buildNxdomain_eq msg, refusal msg.header.id q, by rw [read, same], ?_⟩
    have rcode : (0x8183 : UInt16) &&& 0x000F = 3 := by decide
    have qr : (0x8183 : UInt16) &&& 0x8000 ≠ 0 := by decide
    exact ⟨rfl, rcode, qr, questions.symm, rfl, rfl, rfl⟩

end Answer

/-! ## Questions that are not checked -/

section Checked

variable {ρ : Type} [UnicodeCase] [RegexEngine ρ]

/-- Whichever handler serves it and whatever it awaits: if something is sent upstream because
of `packet`, then `bl` blocks none of its question names. -/
def ForwardsUnblocked (bl : Blocklist ρ) (packet : List UInt8) : Prop :=
  ∀ (client : String) (events : List (Event (Request ρ))) (out : Except IoError Unit),
    Runs (handleUdpQuery client packet) events out ∨
      Runs (serveTcpMessage client packet) events out →
    Answered (reading bl) events → asked events ≠ [] →
    ∀ msg, DnsMessage.parse packet = .ok msg → ∀ q ∈ msg.questions, ¬ (bl.check q.name).IsBlocked

/-- **No blocked question is forwarded exactly when a first name that passes is followed by
names that pass.** -/
theorem forwardsUnblocked_iff (bl : Blocklist ρ) (packet : List UInt8) :
    ForwardsUnblocked bl packet ↔
      ∀ msg q rest, DnsMessage.parse packet = .ok msg → msg.questions = q :: rest →
        ¬ (bl.check q.name).IsBlocked → ∀ q' ∈ rest, ¬ (bl.check q'.name).IsBlocked := by
  have screened : ∀ {msg : DnsMessage} {q : DnsQuestion} {rest : List DnsQuestion},
      msg.questions = q :: rest → (Screened bl msg ↔ (bl.check q.name).IsBlocked) := by
    intro msg q rest questions
    simp [Screened, questions]
  constructor
  · intro forwards msg q rest parsed questions passes q' member
    obtain ⟨events, out, runs, fixed, asks⟩ :=
      exists_asked parsed (mt (screened questions).mp passes) ""
    have some_ : asked events ≠ [] := List.ne_nil_of_mem asks
    refine forwards "" events out (.inl runs) fixed some_ msg parsed q' ?_
    rw [questions]
    exact List.mem_cons_of_mem q member
  · intro later client events out runs fixed some_ msg parsed q' member
    obtain ⟨query, asks⟩ := List.exists_mem_of_ne_nil _ some_
    have passes := (of_mem_asked parsed runs fixed asks).1
    cases questions : msg.questions with
    | nil =>
        rw [questions] at member
        cases member
    | cons q rest =>
        rw [screened questions] at passes
        rw [questions] at member
        rcases List.mem_cons.mp member with rfl | member
        · exact passes
        · exact later msg q rest parsed questions passes q' member

end Checked

/-! ## A packet with two questions -/

/-- A query for `site.com` and for `ads.net`. -/
def pairQuery : List UInt8 :=
  [0x12, 0x34, 1, 0, 0, 2, 0, 0, 0, 0, 0, 0] ++
    [4, 115, 105, 116, 101, 3, 99, 111, 109, 0] ++ [0, 1, 0, 1] ++
    [3, 97, 100, 115, 3, 110, 101, 116, 0] ++ [0, 1, 0, 1]

def pairMessage : DnsMessage where
  header := { id := 0x1234, flags := 0x0100, qdcount := 2, ancount := 0, nscount := 0, arcount := 0 }
  questions := [⟨"site.com", 1, 1⟩, ⟨"ads.net", 1, 1⟩]
  answers := []
  authorities := []
  additionals := []
  ednsDo := false

theorem parse_pairQuery : DnsMessage.parse pairQuery = .ok pairMessage := by decide +kernel

theorem dotFree_site : DotFree "site.com" := ⟨["site", "com"], by decide, by decide⟩

theorem wellFormedReply_iff_siteQuery :
    (∃ bs, buildNxdomain siteMessage = .ok bs ∧ WellFormedReply siteMessage bs) ↔
      siteMessage.questions.length = 1 :=
  wellFormedReply_iff parse_siteQuery (List.cons_ne_nil _ _)
    (List.forall_mem_singleton.mpr dotFree_site)

/-- The header of the answer counts one of its two questions. -/
theorem pairQuery_malformed : DnsMessage.parse pairQuery = .ok pairMessage ∧
    (∀ q ∈ pairMessage.questions, DotFree q.name) ∧
    ¬ ∃ bs, buildNxdomain pairMessage = .ok bs ∧ WellFormedReply pairMessage bs := by
  have ads : DotFree "ads.net" := ⟨["ads", "net"], by decide, by decide⟩
  refine ⟨parse_pairQuery,
    List.forall_mem_cons.mpr ⟨dotFree_site, List.forall_mem_singleton.mpr ads⟩, ?_⟩
  rintro ⟨bs, built, m, reads, -⟩
  cases (buildNxdomain_eq pairMessage).symm.trans built
  have read := @parseReader_nxdomain pairMessage _ _ rfl (by decide)
  cases read.symm.trans reads

attribute [local instance] smallCase

/-- `ads.net` is blocked, and asked for behind `site.com`. -/
theorem pairQuery_forwarded : ¬ ForwardsUnblocked adsList pairQuery := by
  intro forwards
  have passes : ¬ Screened adsList pairMessage := by
    rintro ⟨q, first, blocked⟩
    cases first
    exact absurd blocked (by decide +kernel)
  obtain ⟨events, out, runs, fixed, asks⟩ := exists_asked parse_pairQuery passes ""
  refine forwards "" events out (.inl runs) fixed (List.ne_nil_of_mem asks) pairMessage
    parse_pairQuery ⟨"ads.net", 1, 1⟩ (by simp [pairMessage]) ?_
  exact adsName_blocked.2

end DnsLigase.Upstream
