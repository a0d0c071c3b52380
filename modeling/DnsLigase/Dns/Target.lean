/-
# Dns.Target — where the target of a CNAME record is read

The parser reads the target by a name read on the shared cursor in front of the rdata, puts
the cursor back, and then takes the octets that the length field counts.  The two reads do not
know of each other: `cnameTarget_read` says where each record of an accepted packet stands and
that its target is the name at the start of its rdata, whatever the length field says.

A CNAME record with empty rdata has for its target what stands at the start of the record
behind it (`emptyRdata_target`).
-/
import DnsLigase.Dns.Reencode

namespace DnsLigase.Dns

open DnsLigase.Theory
open DnsLigase.Theory.Bytes DnsLigase.Theory.Cursor DnsLigase.Theory.Io DnsLigase.Theory.Utf8

set_option autoImplicit false

/-! ## Where questions and records stand -/

/-- The question `qu` stands from `p` to `e`. -/
structure QuestionStands (data : List UInt8) (p : Nat) (qu : DnsQuestion) (e : Nat) : Prop where
  fields : ∃ q, parseName data p = .ok (qu.name, q) ∧ qu.qtype = be16 data q ∧
    qu.qclass = be16 data (q + 2) ∧ e = q + 4
  inside : e ≤ data.length

/-- The record `rr` stands from `p` to `e`, and its rdata from `r` to `e`. -/
structure RecordStands (data : List UInt8) (p : Nat) (rr : DnsResourceRecord) (r e : Nat) :
    Prop where
  fields : ∃ q, parseName data p = .ok (rr.name, q) ∧ rr.rtype = be16 data q ∧
    rr.rdata.length = (be16 data (q + 8)).toNat ∧ r = q + 10
  rdata : rr.rdata = (data.drop r).take rr.rdata.length
  behind : e = r + rr.rdata.length
  inside : e ≤ data.length

/-- The questions and the records of `m` stand one behind the other from the end of the header
on, and `Holds rr r e` of each record with rdata from `r` to `e`. -/
def LaidOut (data : List UInt8) (m : DnsMessage)
    (Holds : DnsResourceRecord → Nat → Nat → Prop) : Prop :=
  ∃ p e, Reader.Chain (QuestionStands data) 12 m.questions p ∧
    Reader.Chain (fun p rr e => ∃ r, RecordStands data p rr r e ∧ Holds rr r e) p
      (m.answers ++ (m.authorities ++ m.additionals)) e

variable {data : List UInt8}

theorem question_stands {p e : Nat} {qu : DnsQuestion}
    (parsed : DnsQuestion.parse data p = .ok (qu, e)) : QuestionStands data p qu e := by
  obtain ⟨name, q, owner, parsed⟩ := Reader.bind_eq_ok.mp parsed
  obtain ⟨buf, q', fixed, parsed⟩ := Reader.bind_eq_ok.mp parsed
  obtain ⟨enough, rfl, rfl⟩ := Reader.readExact_eq_ok.mp fixed
  obtain ⟨rfl, rfl⟩ := Reader.pure_eq_ok.mp parsed
  refine ⟨⟨q, owner, be16_slice (by decide), be16_slice (by decide), rfl⟩, ?_⟩
  have inside := parseName_bounds owner
  omega

/-- **What a record was read from.**  The target is read at the start of the rdata, and the
rdata are as many octets as their length field says. -/
theorem record_stands {p e : Nat} {rr : DnsResourceRecord}
    (parsed : DnsResourceRecord.parse data p = .ok (rr, e)) :
    ∃ r, RecordStands data p rr r e ∧
      ∀ t, rr.cnameTarget = some t ↔ rr.rtype = 5 ∧ SpelledAt data r t := by
  obtain ⟨name, q, owner, parsed⟩ := Reader.bind_eq_ok.mp parsed
  obtain ⟨buf, q', fixed, parsed⟩ := Reader.bind_eq_ok.mp parsed
  obtain ⟨enough, rfl, rfl⟩ := Reader.readExact_eq_ok.mp fixed
  rw [Reader.bind_of_ok (parseTarget_eq _ _ _)] at parsed
  obtain ⟨rdata, e', counted, parsed⟩ := Reader.bind_eq_ok.mp parsed
  obtain ⟨left, rfl, rfl⟩ := Reader.readExact_eq_ok.mp counted
  obtain ⟨rfl, rfl⟩ := Reader.pure_eq_ok.mp parsed
  have inside := parseName_bounds owner
  have rdlength : be16 ((data.drop q).take 10) 8 = be16 data (q + 8) := be16_slice (by decide)
  have length : ((data.drop (q + 10)).take (be16 ((data.drop q).take 10) 8).toNat).length =
      (be16 ((data.drop q).take 10) 8).toNat := by
    rw [List.length_take, List.length_drop]
    omega
  refine ⟨q + 10, ⟨⟨q, owner, be16_slice (by decide), ?_, rfl⟩, ?_, ?_, ?_⟩,
    fun t => targetAt_eq_some⟩
  · rw [length, rdlength]
  · rw [length]
  · rw [length]
  · omega

/-- What an accepted packet was read from: questions and records one behind the other, from the
end of the header on. -/
theorem chains_of_parse {m : DnsMessage} (parsed : DnsMessage.parse data = .ok m) :
    12 ≤ data.length ∧ ∃ p e,
      Reader.Chain (fun p qu e => DnsQuestion.parse data p = .ok (qu, e)) 12 m.questions p ∧
      Reader.Chain (fun p rr e => DnsResourceRecord.parse data p = .ok (rr, e)) p
        (m.answers ++ (m.authorities ++ m.additionals)) e := by
  obtain ⟨pos, read⟩ := DnsMessage.parse_eq_ok.mp parsed
  obtain ⟨e₀, e₁, e₂, e₃, readHeader, readQuestions, readAnswers, readAuthorities,
    readAdditionals⟩ := DnsMessage.sections_of_parseReader read
  obtain ⟨buf, e, fixed, built⟩ := Reader.bind_eq_ok.mp readHeader
  obtain ⟨enough, -, rfl⟩ := Reader.readExact_eq_ok.mp fixed
  obtain ⟨-, rfl⟩ := Reader.pure_eq_ok.mp built
  have records := ((Reader.many_eq_ok.mp readAnswers).2.append
    ((Reader.many_eq_ok.mp readAuthorities).2.append (Reader.many_eq_ok.mp readAdditionals).2))
  exact ⟨enough, e₁, pos, (Reader.many_eq_ok.mp readQuestions).2, records⟩

/-- **A CNAME target is the name at the start of its rdata**, of whatever length the rdata are. -/
theorem cnameTarget_read {m : DnsMessage} (parsed : DnsMessage.parse data = .ok m) :
    LaidOut data m fun rr r _ =>
      ∀ t, rr.cnameTarget = some t ↔ rr.rtype = 5 ∧ SpelledAt data r t := by
  obtain ⟨-, p, e, questions, records⟩ := chains_of_parse parsed
  exact ⟨p, e, questions.mono fun _ _ _ => question_stands,
    records.mono fun _ _ _ => record_stands⟩

theorem cnameTarget_read_cnameResponse :
    LaidOut cnameResponse.wire cnameResponse fun rr r _ =>
      ∀ t, rr.cnameTarget = some t ↔ rr.rtype = 5 ∧ SpelledAt cnameResponse.wire r t :=
  cnameTarget_read (parse_canonical cnameResponse_canonical)

/-! ## Rdata that are not the target -/

/-- The name `t` stands in exactly the octets from `r` to `e`. -/
def SpelledIn (data : List UInt8) (r e : Nat) (t : String) : Prop :=
  ∃ labels j, NameAt data r (labels.map utf8) e j ∧ t = joinDots labels

/-- Two answers: a CNAME record without rdata, and an A record for `ads`. -/
def emptyRdata : List UInt8 :=
  [0x12, 0x34, 0x81, 0x80, 0, 0, 0, 2, 0, 0, 0, 0] ++
    [0, 0, 5, 0, 1, 0, 0, 0, 60, 0, 0] ++
    [3, 97, 100, 115, 0, 0, 1, 0, 1, 0, 0, 0, 60, 0, 4, 10, 0, 0, 1]

def emptyRdataMessage : DnsMessage where
  header := { id := 0x1234, flags := 0x8180, qdcount := 0, ancount := 2, nscount := 0, arcount := 0 }
  questions := []
  answers := [⟨"", 5, 1, 60, [], some "ads"⟩, ⟨"ads", 1, 1, 60, [10, 0, 0, 1], none⟩]
  authorities := []
  additionals := []
  ednsDo := false

theorem emptyRdata_target :
    ¬ ∀ (data : List UInt8) (m : DnsMessage), DnsMessage.parse data = .ok m →
      LaidOut data m fun rr r e => rr.rtype = 5 →
        ∀ t, rr.cnameTarget = some t → SpelledIn data r e t := by
  intro fills
  obtain ⟨p, e, -, records⟩ := fills emptyRdata emptyRdataMessage (by decide +kernel)
  -- the first record has no octets for a name
  cases records with
  | cons first _ =>
      obtain ⟨r, stands, spelled⟩ := first
      obtain ⟨labels, j, name, -⟩ := spelled rfl "ads" rfl
      have behind := stands.behind
      have := name.bounds
      simp only [List.length_nil] at behind
      omega

end DnsLigase.Dns
