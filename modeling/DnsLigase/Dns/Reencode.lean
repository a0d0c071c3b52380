/-
# Dns.Reencode — what becomes of a decoded message when it is encoded and decoded again

The serializer writes the names of questions and records out in full and copies the rdata
octet for octet.  So a name with an empty part between its dots loses that part, and a
compression pointer in the rdata of a CNAME keeps its offset, while the octets it pointed at
may have moved.

* `parse_wire_eq`: the message that comes back, record by record;
* `reencodes_iff`: it is the same message exactly if its names are whole and the targets of
  its CNAME records are still found where their rdata come to stand;
* `Reencodes.of_spelled`: targets that are written out in their rdata always are.

Which octets have to stay where they are for that is the subject of `Dns.Layout`.
-/
import DnsLigase.Dns.RoundTrip

namespace DnsLigase.Dns

open DnsLigase.Theory
open DnsLigase.Theory.Bytes DnsLigase.Theory.Cursor DnsLigase.Theory.Io DnsLigase.Theory.Utf8

set_option autoImplicit false

/-! ## A record, where it stands -/

/-- At offset `p` of `b` stands a name that the parser can read, with the dotted form `t`. -/
def SpelledAt (b : List UInt8) (p : Nat) (t : String) : Prop :=
  ∃ labels q j, NameAt b p (labels.map utf8) q j ∧ j ≤ maxJumps ∧ t = joinDots labels

theorem spelledAt_iff {b : List UInt8} {p : Nat} {t : String} :
    SpelledAt b p t ↔ (parseName b p).toOption.map Prod.fst = some t := by
  constructor
  · rintro ⟨labels, q, j, name⟩
    rw [parseName_eq_ok_iff.mpr ⟨labels, j, name⟩]
    rfl
  · intro read
    obtain ⟨⟨name, q⟩, out, rfl⟩ := Option.map_eq_some_iff.mp read
    cases parsed : parseName b p with
    | error e => rw [parsed] at out; cases out
    | ok found =>
        rw [parsed] at out
        cases out
        obtain ⟨labels, j, name⟩ := parseName_eq_ok_iff.mp parsed
        exact ⟨labels, q, j, name⟩

/-- The target that is read in front of the rdata at `p`. -/
def targetAt (b : List UInt8) (rtype : UInt16) (p : Nat) : Option String :=
  if rtype = 5 then (parseName b p).toOption.map Prod.fst else none

/-- The record that is read at `x.1` where `x.2` was written. -/
def reread (b : List UInt8) (x : Nat × DnsResourceRecord) : DnsResourceRecord :=
  { x.2 with name := dropEmpty x.2.name, cnameTarget := targetAt b x.2.rtype (x.2.rdataAt x.1) }

theorem parseTarget_eq (b : List UInt8) (rtype : UInt16) (p : Nat) :
    DnsResourceRecord.parseTarget rtype b p = .ok (targetAt b rtype p, p) := by
  unfold DnsResourceRecord.parseTarget targetAt
  split <;> rfl

theorem targetAt_eq_some {b : List UInt8} {rtype : UInt16} {p : Nat} {t : String} :
    targetAt b rtype p = some t ↔ rtype = 5 ∧ SpelledAt b p t := by
  rw [spelledAt_iff, targetAt]
  by_cases cname : rtype = 5 <;> simp [cname]

theorem parse_placed {b : List UInt8} {rr : DnsResourceRecord} (short : ShortPieces rr.name)
    (fits : rr.rdata.length ≤ 65535) (p : Nat) (stands : Reader.StandsAt b p rr.wire) :
    DnsResourceRecord.parse b p = .ok (reread b (p, rr), p + rr.wire.length) := by
  have rdata : Reader.Reads (readExact rr.rdata.length) rr.rdata (· = rr.rdata) := .readExact rfl
  have rdataStands : Reader.StandsAt b (rr.rdataAt p) rr.rdata := stands.right.right
  obtain ⟨bs, readRdata, rfl⟩ := rdata.at_ rdataStands
  rw [parse_record short fits stands, readTail, Reader.bind_of_ok (parseTarget_eq _ _ _),
    Reader.bind_of_ok readRdata, DnsResourceRecord.rdataAt, DnsResourceRecord.wire]
  simp only [List.length_append, Nat.add_assoc]
  rfl

/-- A record comes back as it was when its name is whole and its target is still there. -/
theorem reread_eq_iff {b : List UInt8} {x : Nat × DnsResourceRecord}
    (other : x.2.rtype ≠ 5 → x.2.cnameTarget = none) :
    reread b x = x.2 ↔ dropEmpty x.2.name = x.2.name ∧
      (x.2.rtype = 5 → ∀ t, x.2.cnameTarget = some t ↔ SpelledAt b (x.2.rdataAt x.1) t) := by
  have fields : reread b x = x.2 ↔ dropEmpty x.2.name = x.2.name ∧
      targetAt b x.2.rtype (x.2.rdataAt x.1) = x.2.cnameTarget := by
    rw [reread, DnsResourceRecord.mk.injEq]
    simp only [true_and]
  rw [fields, Option.ext_iff]
  refine and_congr_right fun _ => ?_
  simp only [targetAt_eq_some]
  by_cases cname : x.2.rtype = 5
  · simp only [cname, true_and, forall_const]
    exact forall_congr' fun t => Iff.comm
  · simp [cname, other cname]

/-! ## A message -/

theorem rereads_eq_iff {b : List UInt8} {p : Nat} {rrs : List DnsResourceRecord} :
    (Reader.placed DnsResourceRecord.wire p rrs).map (reread b) = rrs ↔
      ∀ x ∈ Reader.placed DnsResourceRecord.wire p rrs, reread b x = x.2 := by
  have same : (Reader.placed DnsResourceRecord.wire p rrs).map Prod.snd = rrs :=
    Reader.map_snd_placed
  rw [← List.map_inj_left, same]

namespace DnsMessage

/-- The records as they come back, section by section. -/
def rereads (m : DnsMessage) (p : Nat) (rrs : List DnsResourceRecord) : List DnsResourceRecord :=
  (Reader.placed DnsResourceRecord.wire p rrs).map (Dns.reread m.wire)

/-- The offsets of the three sections of records. -/
def answersAt (m : DnsMessage) : Nat := 12 + (m.questions.flatMap DnsQuestion.wire).length

def authoritiesAt (m : DnsMessage) : Nat :=
  m.answersAt + (m.answers.flatMap DnsResourceRecord.wire).length

def additionalsAt (m : DnsMessage) : Nat :=
  m.authoritiesAt + (m.authorities.flatMap DnsResourceRecord.wire).length

/-- The records with the offsets at which `serialize` writes them. -/
def placedRecords (m : DnsMessage) : List (Nat × DnsResourceRecord) :=
  Reader.placed DnsResourceRecord.wire m.answersAt (m.answers ++ (m.authorities ++ m.additionals))

theorem mem_placedRecords {m : DnsMessage} {x : Nat × DnsResourceRecord} :
    x ∈ m.placedRecords ↔ x ∈ Reader.placed DnsResourceRecord.wire m.answersAt m.answers ∨
      x ∈ Reader.placed DnsResourceRecord.wire m.authoritiesAt m.authorities ∨
      x ∈ Reader.placed DnsResourceRecord.wire m.additionalsAt m.additionals := by
  rw [placedRecords, Reader.placed_append, Reader.placed_append, List.mem_append, List.mem_append]
  rfl

/-- The message that is read where `m` was written. -/
def reread (m : DnsMessage) : DnsMessage where
  header := m.header
  questions := m.questions.map DnsQuestion.dropEmpty
  answers := m.rereads m.answersAt m.answers
  authorities := m.rereads m.authoritiesAt m.authorities
  additionals := m.rereads m.additionalsAt m.additionals
  ednsDo := ednsDoOf (m.rereads m.additionalsAt m.additionals)

end DnsMessage

/-- Behind the header and the questions stand the records. -/
theorem records_stand (m : DnsMessage) : Reader.StandsAt m.wire m.answersAt
    ((m.answers ++ (m.authorities ++ m.additionals)).flatMap DnsResourceRecord.wire) := by
  have questions : Reader.StandsAt m.wire 12 _ := (Reader.StandsAt.whole m.wire).right
  rw [List.flatMap_append, List.flatMap_append]
  exact questions.right

/-- **What comes back of a decoded message.** -/
theorem parse_wire_eq {m : DnsMessage} (decoded : Decoded m) :
    DnsMessage.parse m.wire = .ok m.reread := by
  obtain ⟨encodable, arcount, -, -⟩ := decoded
  have sameHeader : m.wireHeader = m.header := by
    rw [DnsMessage.wireHeader, ← arcount, UInt16.ofNat_toNat]
  have whole := Reader.StandsAt.whole m.wire
  have readHeader : DnsHeader.parse m.wire 0 = .ok (m.header, 12) := by
    obtain ⟨header, read, rfl⟩ := (reads_header m.wireHeader).at_ whole.left
    exact sameHeader ▸ read
  have questions : Reader.StandsAt m.wire 12 _ := whole.right
  have readQuestions : DnsQuestion.parse.many m.questions.length m.wire 12 =
      .ok (m.questions.map DnsQuestion.dropEmpty, m.answersAt) := by
    have reads := Reader.Reads.many fun q member => reads_question (encodable.questions q member)
    obtain ⟨qs, read, same⟩ := reads.at_ questions.left
    have mapped : qs = m.questions.map DnsQuestion.dropEmpty := by
      rw [← List.forall₂_eq_eq_eq, List.forall₂_map_right_iff]
      exact same.flip
    exact mapped ▸ read
  have readRecords : ∀ {p rrs}, rrs ⊆ m.answers ++ (m.authorities ++ m.additionals) →
      Reader.StandsAt m.wire p (rrs.flatMap DnsResourceRecord.wire) →
      DnsResourceRecord.parse.many rrs.length m.wire p =
        .ok (m.rereads p rrs, p + (rrs.flatMap DnsResourceRecord.wire).length) := by
    intro p rrs sub stands
    refine Reader.many_placed (fun rr member p => ?_) stands
    obtain ⟨short, fits⟩ := encodable.records rr (sub member)
    exact parse_placed short fits p
  have answers : Reader.StandsAt m.wire m.answersAt _ := questions.right
  have authorities : Reader.StandsAt m.wire m.authoritiesAt _ := answers.right
  have additionals : Reader.StandsAt m.wire m.additionalsAt _ := authorities.right
  have readAnswers : _ = Except.ok (_, m.authoritiesAt) := readRecords (by simp) answers.left
  have readAuthorities : _ = Except.ok (_, m.additionalsAt) :=
    readRecords (by simp) authorities.left
  refine DnsMessage.parse_eq_ok.mpr
    ⟨m.additionalsAt + (m.additionals.flatMap DnsResourceRecord.wire).length, ?_⟩
  rw [DnsMessage.parseReader, Reader.bind_of_ok readHeader, encodable.counted.qdcount,
    encodable.counted.ancount, encodable.counted.nscount, arcount,
    Reader.bind_of_ok readQuestions, Reader.bind_of_ok readAnswers,
    Reader.bind_of_ok readAuthorities, Reader.bind_of_ok (readRecords (by simp) additionals)]
  rfl

/-! ## When the same message comes back -/

/-- Every name has only non-empty parts, and the targets of CNAME records are the names that
are found where their rdata come to stand in the written message. -/
structure Reencodes (m : DnsMessage) : Prop where
  questions : ∀ q ∈ m.questions, dropEmpty q.name = q.name
  owners : ∀ rr ∈ m.answers ++ (m.authorities ++ m.additionals), dropEmpty rr.name = rr.name
  targets : ∀ x ∈ m.placedRecords, x.2.rtype = 5 →
    ∀ t, x.2.cnameTarget = some t ↔ SpelledAt m.wire (x.2.rdataAt x.1) t

theorem exists_placed {m : DnsMessage} {rr : DnsResourceRecord} :
    rr ∈ m.answers ++ (m.authorities ++ m.additionals) ↔ ∃ x ∈ m.placedRecords, x.2 = rr := by
  rw [← List.mem_map, DnsMessage.placedRecords, Reader.map_snd_placed]

theorem reread_records_iff (m : DnsMessage) :
    (m.reread.answers = m.answers ∧ m.reread.authorities = m.authorities ∧
      m.reread.additionals = m.additionals) ↔ ∀ x ∈ m.placedRecords, reread m.wire x = x.2 := by
  simp only [DnsMessage.reread, DnsMessage.rereads, rereads_eq_iff, DnsMessage.mem_placedRecords,
    or_imp, forall_and]

theorem reread_message_iff {m : DnsMessage} (decoded : Decoded m) :
    m.reread = m ↔ Reencodes m := by
  have records := reread_records_iff m
  have questions : m.reread.questions = m.questions ↔
      ∀ q ∈ m.questions, dropEmpty q.name = q.name := map_dropEmpty_iff
  have each : ∀ x ∈ m.placedRecords, (reread m.wire x = x.2 ↔ dropEmpty x.2.name = x.2.name ∧
      (x.2.rtype = 5 → ∀ t, x.2.cnameTarget = some t ↔ SpelledAt m.wire (x.2.rdataAt x.1) t)) :=
    fun x member => reread_eq_iff (decoded.other x.2 (exists_placed.mpr ⟨x, member, rfl⟩))
  constructor
  · intro same
    have back := records.mp (by rw [same]; exact ⟨rfl, rfl, rfl⟩)
    exact
      { questions := questions.mp (by rw [same])
        owners := fun rr member => by
          obtain ⟨x, placed, rfl⟩ := exists_placed.mp member
          exact ((each x placed).mp (back x placed)).1
        targets := fun x member => ((each x member).mp (back x member)).2 }
  · intro reencodes
    obtain ⟨answers, authorities, additionals⟩ := records.mpr fun x member =>
      (each x member).mpr ⟨reencodes.owners x.2 (exists_placed.mpr ⟨x, member, rfl⟩),
        reencodes.targets x member⟩
    refine DnsMessage.ext rfl (questions.mpr reencodes.questions) answers authorities
      additionals ?_
    rw [decoded.ednsDo, ← additionals]
    rfl

/-- **A decoded message survives being encoded and decoded again exactly if its names are
whole and its targets stay where they are looked for.** -/
theorem reencodes_iff {data : List UInt8} {m : DnsMessage}
    (parsed : DnsMessage.parse data = .ok m) :
    (∃ bs, m.serialize = .ok bs ∧ DnsMessage.parse bs = .ok m) ↔ Reencodes m := by
  have decoded := parse_decoded parsed
  rw [m.serialize_eq]
  simp only [Except.ok.injEq, exists_eq_left', parse_wire_eq decoded]
  exact reread_message_iff decoded

/-- CNAME rdata that begin with their target, written out, can be put anywhere. -/
theorem Reencodes.of_spelled {m : DnsMessage} (questions : ∀ q ∈ m.questions, ProperName q.name)
    (owners : ∀ rr ∈ m.answers ++ (m.authorities ++ m.additionals), ProperName rr.name)
    (targets : ∀ rr ∈ m.answers ++ (m.authorities ++ m.additionals), rr.rtype = 5 →
      ∃ t rest, ProperName t ∧ rr.cnameTarget = some t ∧ rr.rdata = serializeName t ++ rest) :
    Reencodes m where
  questions q member := (questions q member).dropEmpty
  owners rr member := (owners rr member).dropEmpty
  targets x member cname t := by
    obtain ⟨target, rest, proper, known, rdata⟩ :=
      targets x.2 (exists_placed.mpr ⟨x, member, rfl⟩) cname
    have stands : Reader.StandsAt m.wire (x.2.rdataAt x.1) x.2.rdata :=
      ((records_stand m).of_placed x member).right.right
    rw [rdata] at stands
    obtain ⟨name, parsed, rfl⟩ := (reads_serializeName proper.shortPieces).at_ stands.left
    rw [spelledAt_iff, parsed, known, proper.dropEmpty]
    rfl

end DnsLigase.Dns
