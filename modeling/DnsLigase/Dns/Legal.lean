/-
# Dns.Legal — well-formed messages, as RFC 1035 lays them out

A grammar over the octets of a message that knows nothing of the parser: labels of
1 to 63 arbitrary octets, names of at most 255, compression pointers that point back,
four sections of as many items as the header counts, and CNAME rdata that are exactly
one name.

* `parseName_legal`: on a legal name the parser wants UTF-8 labels and at most 64
  jumps, which is more than the grammar asks;
* `LegalMessage.parse_iff`: so a legal message is parsed exactly when every question
  name and every owner name in it is readable in that sense, whatever its CNAME
  targets are, and then each record keeps its type and its readable target.
-/
import DnsLigase.Dns.Message

namespace DnsLigase.Dns

open DnsLigase.Theory
open DnsLigase.Theory.Bytes DnsLigase.Theory.Cursor DnsLigase.Theory.Io DnsLigase.Theory.Utf8

set_option autoImplicit false

/-! ## Names -/

/-- A name in a message: its labels, and the pointers that lead to them. -/
structure WireName where
  labels : List (List UInt8)
  jumps : Nat
  deriving DecidableEq

namespace WireName

/-- The octets of the name written out in full. -/
def octets (w : WireName) : Nat := (w.labels.map fun l => l.length + 1).sum + 1

/-- The labels are UTF-8, and `name` is their dotted form. -/
def Spells (w : WireName) (name : String) : Prop :=
  ∃ texts, w.labels = texts.map utf8 ∧ name = joinDots texts

/-- UTF-8 labels, found with no more jumps than the parser makes. -/
structure Readable (w : WireName) : Prop where
  utf8 : ∃ name, w.Spells name
  jumps : w.jumps ≤ maxJumps

theorem Readable.label {w : WireName} (readable : w.Readable) {label : List UInt8}
    (member : label ∈ w.labels) : fromUtf8 label ≠ none := by
  obtain ⟨name, texts, spelled, -⟩ := readable.utf8
  rw [spelled] at member
  obtain ⟨text, -, rfl⟩ := List.mem_map.mp member
  rw [fromUtf8_utf8]
  exact Option.some_ne_none text

end WireName

/-- The labels from offset `p` of `b` on, with pointers that point back. -/
inductive LabelsAt (b : List UInt8) : Nat → WireName → Nat → Prop
  | root {p : Nat} : b[p]? = some 0 → LabelsAt b p ⟨[], 0⟩ (p + 1)
  | label {p q : Nat} {n : UInt8} {w : WireName} :
      b[p]? = some n → n ≠ 0 → n.toNat ≤ 63 → p + 1 + n.toNat ≤ b.length →
      LabelsAt b (p + 1 + n.toNat) w q →
      LabelsAt b p ⟨(b.drop (p + 1)).take n.toNat :: w.labels, w.jumps⟩ q
  | pointer {p q : Nat} {high low : UInt8} {w : WireName} :
      b[p]? = some high → 192 ≤ high.toNat → b[p + 1]? = some low →
      pointerTarget high low < p → LabelsAt b (pointerTarget high low) w q →
      LabelsAt b p ⟨w.labels, w.jumps + 1⟩ (p + 2)

/-- A legal name that stands from `p` to `q`. -/
structure LegalName (b : List UInt8) (p : Nat) (w : WireName) (q : Nat) : Prop where
  labels : LabelsAt b p w q
  octets : w.octets ≤ 255

theorem LabelsAt.nameAt {b : List UInt8} {p q : Nat} {w : WireName} (labels : LabelsAt b p w q) :
    NameAt b p w.labels q w.jumps := by
  induction labels with
  | root here => exact .root here
  | label here nonzero short fits _ ih => exact .label here nonzero (by omega) fits ih
  | pointer here high next back _ ih =>
      have inside := (List.getElem?_eq_some_iff.mp next).1
      exact .pointer here high next (by omega) ih

/-- The parser reads a legal name when it is readable, and gives its dotted form. -/
theorem parseName_legal {b : List UInt8} {p q e : Nat} {w : WireName} {name : String}
    (legal : LegalName b p w q) :
    parseName b p = .ok (name, e) ↔ e = q ∧ w.jumps ≤ maxJumps ∧ w.Spells name := by
  rw [parseName_eq_ok_iff]
  constructor
  · rintro ⟨texts, j, at_, jumps, rfl⟩
    obtain ⟨spelled, rfl, rfl⟩ := at_.unique legal.labels.nameAt
    exact ⟨rfl, jumps, texts, spelled.symm, rfl⟩
  · rintro ⟨rfl, jumps, texts, spelled, rfl⟩
    exact ⟨texts, w.jumps, spelled ▸ legal.labels.nameAt, jumps, rfl⟩

theorem parseName_readable {b : List UInt8} {p q : Nat} {w : WireName}
    (legal : LegalName b p w q) :
    (w.Readable → ∃ name, parseName b p = .ok (name, q) ∧ w.Spells name) ∧
      (∀ name e, parseName b p = .ok (name, e) → e = q ∧ w.Readable) := by
  constructor
  · rintro ⟨⟨name, spells⟩, jumps⟩
    exact ⟨name, (parseName_legal legal).mpr ⟨rfl, jumps, spells⟩, spells⟩
  · intro name e parsed
    obtain ⟨rfl, jumps, spells⟩ := (parseName_legal legal).mp parsed
    exact ⟨rfl, ⟨name, spells⟩, jumps⟩

/-! ## Questions and records -/

/-- A question for the name `w`: the name, then type and class. -/
def QuestionAt (b : List UInt8) (p : Nat) (w : WireName) (p' : Nat) : Prop :=
  ∃ q, LegalName b p w q ∧ p' = q + 4 ∧ p' ≤ b.length

/-- What the filter looks at in a record; only a CNAME record has a target. -/
structure WireRecord where
  owner : WireName
  rtype : UInt16
  target : Option WireName
  deriving DecidableEq

/-- The rdata from `p` to `p'` of a record of type `rtype`. -/
def RdataAt (b : List UInt8) (rtype : UInt16) (p : Nat) (p' : Nat) : Option WireName → Prop
  | none => rtype ≠ 5
  | some w => rtype = 5 ∧ LegalName b p w p'

/-- A record: the owner, ten octets of type, class, TTL and length, then the rdata. -/
structure RecordAt (b : List UInt8) (p : Nat) (r : WireRecord) (p' : Nat) : Prop where
  fields : ∃ q, LegalName b p r.owner q ∧ r.rtype = be16 b q ∧
    p' = q + 10 + (be16 b (q + 8)).toNat ∧ RdataAt b r.rtype (q + 10) p' r.target
  inside : p' ≤ b.length

theorem readExact_inside {b : List UInt8} {p n : Nat} (inside : p + n ≤ b.length) :
    readExact n b p = .ok ((b.drop p).take n, p + n) :=
  Reader.readExact_eq_ok.mpr ⟨by omega, rfl, rfl⟩

theorem question_accepts (b : List UInt8) :
    Reader.Accepts DnsQuestion.parse b (QuestionAt b) WireName.Readable
      fun w q => w.Spells q.name := by
  rintro p w _ ⟨q, legal, rfl, inside⟩
  obtain ⟨reads, only⟩ := parseName_readable legal
  constructor
  · intro readable
    obtain ⟨name, parsed, spells⟩ := reads readable
    rw [DnsQuestion.parse, Reader.bind_of_ok parsed, Reader.bind_of_ok (readExact_inside inside)]
    exact ⟨_, rfl, spells⟩
  · intro a e parsed
    obtain ⟨name, q', parsedName, -⟩ := Reader.bind_eq_ok.mp parsed
    exact (only name q' parsedName).2

/-- A record as it is read: its type, and its target when that is readable. -/
def KeepsTarget (r : WireRecord) (rr : DnsResourceRecord) : Prop :=
  rr.rtype = r.rtype ∧ ∀ t, rr.cnameTarget = some t ↔
    ∃ w, r.target = some w ∧ w.jumps ≤ maxJumps ∧ w.Spells t

/-- The side read of the target fails silently where the target is not readable. -/
theorem parseTarget_legal {b : List UInt8} {rtype : UInt16} {p p' : Nat}
    {target : Option WireName} (rdata : RdataAt b rtype p p' target) :
    ∃ o, DnsResourceRecord.parseTarget rtype b p = .ok (o, p) ∧
      ∀ t, o = some t ↔ ∃ w, target = some w ∧ w.jumps ≤ maxJumps ∧ w.Spells t := by
  unfold DnsResourceRecord.parseTarget
  cases target with
  | none =>
      have other : rtype ≠ 5 := rdata
      rw [if_neg other]
      exact ⟨none, rfl, by simp⟩
  | some w =>
      obtain ⟨rfl, legal⟩ := rdata
      rw [if_pos rfl]
      refine ⟨_, rfl, fun t => ?_⟩
      simp only [Option.some.injEq, exists_eq_left']
      cases parsed : parseName b p with
      | error e =>
          simp only [Except.toOption, Option.map_none, reduceCtorEq, false_iff]
          intro readable
          have := (parseName_legal legal).mpr ⟨rfl, readable⟩
          rw [parsed] at this
          cases this
      | ok out =>
          obtain ⟨name, e⟩ := out
          simp only [Except.toOption, Option.map_some, Option.some.injEq]
          constructor
          · rintro rfl
            exact ((parseName_legal legal).mp parsed).2
          · intro readable
            have := (parseName_legal legal).mpr ⟨rfl, readable⟩
            rw [parsed] at this
            cases this
            rfl

theorem record_accepts (b : List UInt8) :
    Reader.Accepts DnsResourceRecord.parse b (RecordAt b) (fun r => r.owner.Readable)
      KeepsTarget := by
  rintro p r p' ⟨⟨q, legal, rtype, stop, rdata⟩, inside⟩
  obtain ⟨reads, only⟩ := parseName_readable legal
  constructor
  · intro readable
    obtain ⟨name, parsed, -⟩ := reads readable
    obtain ⟨target, peeked, keeps⟩ := parseTarget_legal rdata
    have fixed : q + 10 ≤ b.length := by omega
    have type_ : be16 ((b.drop q).take 10) 0 = r.rtype := by
      rw [be16_slice (by decide), rtype]
      rfl
    have rdlength : q + 10 + (be16 ((b.drop q).take 10) 8).toNat = p' := by
      rw [be16_slice (by decide), stop]
    rw [← type_] at peeked
    have readRdata := readExact_inside (rdlength ▸ inside)
    rw [rdlength] at readRdata
    rw [DnsResourceRecord.parse, Reader.bind_of_ok parsed,
      Reader.bind_of_ok (readExact_inside fixed), Reader.bind_of_ok peeked,
      Reader.bind_of_ok readRdata]
    exact ⟨_, rfl, type_, keeps⟩
  · intro a e parsed
    obtain ⟨name, q', parsedName, -⟩ := Reader.bind_eq_ok.mp parsed
    exact (only name q' parsedName).2

/-! ## Messages -/

/-- A well-formed message: its octets, and what stands where in them. -/
structure LegalMessage where
  octets : List UInt8
  questions : List WireName
  answers : List WireRecord
  authorities : List WireRecord
  additionals : List WireRecord
  header : 12 ≤ octets.length
  qdcount : (be16 octets 4).toNat = questions.length
  ancount : (be16 octets 6).toNat = answers.length
  nscount : (be16 octets 8).toNat = authorities.length
  arcount : (be16 octets 10).toNat = additionals.length
  sections : ∃ p₁ p₂ p₃, Reader.Chain (QuestionAt octets) 12 questions p₁ ∧
    Reader.Chain (RecordAt octets) p₁ answers p₂ ∧
    Reader.Chain (RecordAt octets) p₂ authorities p₃ ∧
    Reader.Chain (RecordAt octets) p₃ additionals octets.length

namespace LegalMessage

def records (r : LegalMessage) : List WireRecord := r.answers ++ (r.authorities ++ r.additionals)

/-- Every question name and every owner name is readable. -/
structure NamesReadable (r : LegalMessage) : Prop where
  questions : ∀ w ∈ r.questions, w.Readable
  owners : ∀ rec ∈ r.records, rec.owner.Readable

theorem header_legal (r : LegalMessage) : ∃ h, DnsHeader.parse r.octets 0 = .ok (h, 12) ∧
    h.qdcount.toNat = r.questions.length ∧ h.ancount.toNat = r.answers.length ∧
    h.nscount.toNat = r.authorities.length ∧ h.arcount.toNat = r.additionals.length := by
  have inside : 0 + 12 ≤ r.octets.length := (Nat.zero_add 12).symm ▸ r.header
  have field : ∀ i, i + 1 < 12 → be16 ((r.octets.drop 0).take 12) i = be16 r.octets i := by
    intro i small
    rw [be16_slice small, Nat.zero_add]
  rw [DnsHeader.parse, Reader.bind_of_ok (readExact_inside inside)]
  refine ⟨_, rfl, ?_, ?_, ?_, ?_⟩
  · exact (congrArg UInt16.toNat (field 4 (by decide))).trans r.qdcount
  · exact (congrArg UInt16.toNat (field 6 (by decide))).trans r.ancount
  · exact (congrArg UInt16.toNat (field 8 (by decide))).trans r.nscount
  · exact (congrArg UInt16.toNat (field 10 (by decide))).trans r.arcount

/-- **A legal message is parsed exactly when its question and owner names are readable.** -/
theorem parse_iff (r : LegalMessage) :
    (r.NamesReadable → ∃ m, DnsMessage.parse r.octets = .ok m ∧
      List.Forall₂ KeepsTarget r.answers m.answers) ∧
      (∀ m, DnsMessage.parse r.octets = .ok m → r.NamesReadable) := by
  obtain ⟨p₁, p₂, p₃, questions, answers, authorities, additionals⟩ := r.sections
  obtain ⟨h, header, qdcount, ancount, nscount, arcount⟩ := r.header_legal
  have question := question_accepts r.octets
  have record := record_accepts r.octets
  constructor
  · rintro ⟨readable, owners⟩
    obtain ⟨qs, readQs, -⟩ := (question.many questions).1 readable
    obtain ⟨an, readAn, keeps⟩ := (record.many answers).1 fun rec member =>
      owners rec (by simp [records, member])
    obtain ⟨ns, readNs, -⟩ := (record.many authorities).1 fun rec member =>
      owners rec (by simp [records, member])
    obtain ⟨ar, readAr, -⟩ := (record.many additionals).1 fun rec member =>
      owners rec (by simp [records, member])
    simp only [DnsMessage.parse_eq_ok, DnsMessage.parseReader, Reader.bind_of_ok header, qdcount,
      ancount, nscount, arcount]
    rw [Reader.bind_of_ok readQs, Reader.bind_of_ok readAn, Reader.bind_of_ok readNs,
      Reader.bind_of_ok readAr]
    exact ⟨_, ⟨_, rfl⟩, keeps⟩
  · intro m parsed
    obtain ⟨pos, read⟩ := DnsMessage.parse_eq_ok.mp parsed
    obtain ⟨e₀, e₁, e₂, e₃, readHeader, readQs, readAn, readNs, readAr⟩ :=
      DnsMessage.sections_of_parseReader read
    obtain ⟨same, rfl⟩ := Prod.mk.inj (Except.ok.inj (readHeader.symm.trans header))
    rw [same, qdcount] at readQs
    rw [same, ancount] at readAn
    rw [same, nscount] at readNs
    rw [same, arcount] at readAr
    obtain ⟨goodQ, rfl, -⟩ := question.of_many questions readQs
    obtain ⟨goodAn, rfl, -⟩ := record.of_many answers readAn
    obtain ⟨goodNs, rfl, -⟩ := record.of_many authorities readNs
    obtain ⟨goodAr, -, -⟩ := record.of_many additionals readAr
    refine ⟨goodQ, fun rec member => ?_⟩
    simp only [records, List.mem_append] at member
    rcases member with member | member | member
    · exact goodAn rec member
    · exact goodNs rec member
    · exact goodAr rec member

end LegalMessage

end DnsLigase.Dns
