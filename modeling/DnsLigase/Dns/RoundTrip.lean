/-
# Dns.RoundTrip — decoding what was encoded

Each record type has a lemma that says what its parser reads where the octets of
a record stand.  Names come back without their empty parts, and a CNAME target is
whatever a name read at the rdata gives, so the general statement relates the
record written to the record read (`Reencoded`); for records in canonical form
the two are equal (`CanonicalRecord`).

* `reads_message`: the relation, lifted to whole messages;
* `parse_serialize`: decoding undoes encoding on canonical messages;
* `parse_wire`: whatever the parser accepted can be encoded and decoded again.
-/
import DnsLigase.Dns.Message

namespace DnsLigase.Dns

open DnsLigase.Theory
open DnsLigase.Theory.Bytes DnsLigase.Theory.Cursor DnsLigase.Theory.Io DnsLigase.Theory.Utf8

set_option autoImplicit false

theorem reads_header (h : DnsHeader) : Reader.Reads DnsHeader.parse h.wire (· = h) := by
  refine Reader.Reads.bind_pure ((Reader.Reads.readExact rfl).mono fun buf same => ?_)
  subst same
  obtain ⟨id, flags, qdcount, ancount, nscount, arcount⟩ := h
  rw [DnsHeader.mk.injEq]
  exact ⟨word16_eq id, word16_eq flags, word16_eq qdcount, word16_eq ancount,
    word16_eq nscount, word16_eq arcount⟩

/-- A question as it comes back. -/
def DnsQuestion.dropEmpty (q : DnsQuestion) : DnsQuestion :=
  { q with name := Dns.dropEmpty q.name }

/-- Questions are written as they are exactly if their names have no empty part. -/
theorem map_dropEmpty_iff {questions : List DnsQuestion} :
    questions.map DnsQuestion.dropEmpty = questions ↔
      ∀ q ∈ questions, dropEmpty q.name = q.name := by
  have same : questions.map DnsQuestion.dropEmpty = questions ↔
      questions.map DnsQuestion.dropEmpty = questions.map id := by rw [List.map_id]
  rw [same, List.map_inj_left]
  refine forall₂_congr fun q _ => ⟨congrArg DnsQuestion.name, fun whole => ?_⟩
  rw [DnsQuestion.dropEmpty, whole, id]

theorem reads_question {q : DnsQuestion} (short : ShortPieces q.name) :
    Reader.Reads DnsQuestion.parse q.wire (· = q.dropEmpty) := by
  refine (reads_serializeName short).bind fun name same => ?_
  subst same
  refine Reader.Reads.bind_pure ((Reader.Reads.readExact rfl).mono fun buf same => ?_)
  subst same
  rw [DnsQuestion.dropEmpty, DnsQuestion.mk.injEq]
  exact ⟨rfl, word16_eq q.qtype, word16_eq q.qclass⟩

/-! ## Records -/

/-- What is left to read behind the fixed fields of `rr`. -/
def readTail (rr : DnsResourceRecord) : Reader IoError DnsResourceRecord := do
  let cnameTarget ← DnsResourceRecord.parseTarget rr.rtype
  let rdata ← readExact rr.rdata.length
  pure { rr with name := dropEmpty rr.name, rdata, cnameTarget }

/-- The offset of the rdata of a record at `p`. -/
def DnsResourceRecord.rdataAt (rr : DnsResourceRecord) (p : Nat) : Nat :=
  p + (serializeName rr.name).length + rr.metaWire.length

theorem parse_record {rr : DnsResourceRecord} (short : ShortPieces rr.name)
    (fits : rr.rdata.length ≤ 65535) {data : List UInt8} {p : Nat}
    (stands : Reader.StandsAt data p rr.wire) :
    DnsResourceRecord.parse data p = readTail rr data (rr.rdataAt p) := by
  obtain ⟨name, readName, rfl⟩ := (reads_serializeName short).at_ stands.left
  have fixed : Reader.Reads (readExact 10) rr.metaWire (· = rr.metaWire) := .readExact rfl
  obtain ⟨buf, readMeta, rfl⟩ := fixed.at_ stands.right.left
  have rtype : be16 rr.metaWire 0 = rr.rtype := word16_eq rr.rtype
  have rclass : be16 rr.metaWire 2 = rr.rclass := word16_eq rr.rclass
  have ttl : be32 rr.metaWire 4 = rr.ttl := word32_eq rr.ttl
  have rdlength : (be16 rr.metaWire 8).toNat = rr.rdata.length := by
    rw [show be16 rr.metaWire 8 = UInt16.ofNat rr.rdata.length from word16_eq _,
      UInt16.toNat_ofNat']
    omega
  rw [DnsResourceRecord.parse, Reader.bind_of_ok readName, Reader.bind_of_ok readMeta]
  simp only [rtype, rclass, ttl, rdlength, readTail, DnsResourceRecord.rdataAt]

theorem reads_record {rr : DnsResourceRecord} {P : DnsResourceRecord → Prop}
    (short : ShortPieces rr.name) (fits : rr.rdata.length ≤ 65535)
    (tail : Reader.Reads (readTail rr) rr.rdata P) :
    Reader.Reads DnsResourceRecord.parse rr.wire P := by
  intro pre post
  have stands : Reader.StandsAt (pre ++ (rr.wire ++ post)) pre.length rr.wire :=
    ⟨pre, post, rfl, rfl⟩
  obtain ⟨rr', read, holds⟩ := tail.at_ stands.right.right
  refine ⟨rr', ?_, holds⟩
  rw [parse_record short fits stands, DnsResourceRecord.rdataAt, read, DnsResourceRecord.wire]
  simp only [List.length_append, Nat.add_assoc]

/-- The record read where `rr` was written: equal but for the empty parts of the
name, and with a CNAME target only on CNAME records. -/
def Reencoded (rr rr' : DnsResourceRecord) : Prop :=
  ∃ cnameTarget, rr' = { rr with name := dropEmpty rr.name, cnameTarget } ∧
    (rr.rtype ≠ 5 → cnameTarget = none)

theorem reads_rdata (rr : DnsResourceRecord) {P : DnsResourceRecord → Prop}
    {cnameTarget : Option String}
    (holds : P { rr with name := dropEmpty rr.name, cnameTarget }) :
    Reader.Reads (do
      let rdata ← readExact rr.rdata.length
      pure { rr with name := dropEmpty rr.name, rdata, cnameTarget }) rr.rdata P :=
  Reader.Reads.bind_pure ((Reader.Reads.readExact rfl).mono fun _ same => same ▸ holds)

/-- A record is read back as a record, whatever its rdata are. -/
theorem reads_record_reencoded {rr : DnsResourceRecord} (short : ShortPieces rr.name)
    (fits : rr.rdata.length ≤ 65535) :
    Reader.Reads DnsResourceRecord.parse rr.wire (Reencoded rr) := by
  apply reads_record short fits
  unfold readTail DnsResourceRecord.parseTarget
  by_cases cname : rr.rtype = 5
  · rw [if_pos cname]
    exact Reader.Reads.peek_bind_any fun target =>
      reads_rdata rr ⟨target, rfl, fun other => absurd cname other⟩
  · rw [if_neg cname]
    exact (Reader.Reads.pure (P := (· = none)) rfl).bind fun target same =>
      reads_rdata rr ⟨target, rfl, fun _ => same⟩

/-- A record in the form that the parser gives: a proper name, rdata that fit its
length field, and a target exactly on CNAME records, whose rdata spell it. -/
structure CanonicalRecord (rr : DnsResourceRecord) : Prop where
  name : ProperName rr.name
  rdata : rr.rdata.length ≤ 65535
  other : rr.rtype ≠ 5 → rr.cnameTarget = none
  cname : rr.rtype = 5 → ∃ t, ProperName t ∧ rr.cnameTarget = some t ∧ rr.rdata = serializeName t

theorem reads_record_canonical {rr : DnsResourceRecord} (canonical : CanonicalRecord rr) :
    Reader.Reads DnsResourceRecord.parse rr.wire (rr = ·) := by
  apply reads_record canonical.name.shortPieces canonical.rdata
  have back : ∀ target, rr.cnameTarget = target →
      rr = { rr with name := dropEmpty rr.name, cnameTarget := target } := by
    rintro target rfl
    rw [canonical.name.dropEmpty]
  unfold readTail DnsResourceRecord.parseTarget
  by_cases cname : rr.rtype = 5
  · obtain ⟨t, proper, target, spelled⟩ := canonical.cname cname
    rw [if_pos cname]
    have side : Reader.Reads parseName rr.rdata (· = t) := by
      rw [spelled]
      exact (reads_serializeName proper.shortPieces).mono fun name same =>
        same.trans proper.dropEmpty
    exact Reader.Reads.peek_bind side fun name same =>
      reads_rdata rr (back _ (by rw [target, same]))
  · rw [if_neg cname]
    exact (Reader.Reads.pure (P := (· = none)) rfl).bind fun target same =>
      reads_rdata rr (back _ (by rw [canonical.other cname, same]))

/-! ## Messages -/

/-- The counts a serializer copies from the header are the true ones. -/
structure Counted (m : DnsMessage) : Prop where
  qdcount : m.header.qdcount.toNat = m.questions.length
  ancount : m.header.ancount.toNat = m.answers.length
  nscount : m.header.nscount.toNat = m.authorities.length

/-- The header as `serialize` writes it. -/
def DnsMessage.wireHeader (m : DnsMessage) : DnsHeader :=
  { m.header with arcount := UInt16.ofNat m.additionals.length }

/-- **A message is read back section by section**, each record as its own parser
reads it. -/
theorem reads_message {m : DnsMessage}
    {R : DnsResourceRecord → DnsResourceRecord → Prop} (counted : Counted m)
    (arcount : m.additionals.length < 65536) (questions : ∀ q ∈ m.questions, ShortPieces q.name)
    (records : ∀ rr ∈ m.answers ++ (m.authorities ++ m.additionals),
      Reader.Reads DnsResourceRecord.parse rr.wire (R rr)) :
    Reader.Reads DnsMessage.parseReader m.wire fun m' =>
      m'.header = m.wireHeader ∧ m'.questions = m.questions.map DnsQuestion.dropEmpty ∧
      List.Forall₂ R m.answers m'.answers ∧ List.Forall₂ R m.authorities m'.authorities ∧
      List.Forall₂ R m.additionals m'.additionals ∧
      m'.ednsDo = DnsMessage.ednsDoOf m'.additionals := by
  have additionals : m.wireHeader.arcount.toNat = m.additionals.length := by
    simp only [DnsMessage.wireHeader, UInt16.toNat_ofNat']
    omega
  refine (reads_header m.wireHeader).bind fun header same => ?_
  subst same
  rw [show m.wireHeader.qdcount.toNat = m.questions.length from counted.qdcount,
    show m.wireHeader.ancount.toNat = m.answers.length from counted.ancount,
    show m.wireHeader.nscount.toNat = m.authorities.length from counted.nscount, additionals]
  refine (Reader.Reads.many fun q member => reads_question (questions q member)).bind
    fun qs sameQs => ?_
  refine (Reader.Reads.many fun rr member => records rr (by simp [member])).bind
    fun ans relAns => ?_
  refine (Reader.Reads.many fun rr member => records rr (by simp [member])).bind
    fun auth relAuth => ?_
  refine Reader.Reads.bind_pure ((Reader.Reads.many fun rr member =>
    records rr (by simp [member])).mono fun add relAdd => ?_)
  refine ⟨rfl, ?_, relAns, relAuth, relAdd, rfl⟩
  rw [← List.forall₂_eq_eq_eq, List.forall₂_map_right_iff]
  exact sameQs.flip

/-- Octets behind a message that is read do not matter. -/
theorem parse_of_reads {bs : List UInt8} {P : DnsMessage → Prop}
    (reads : Reader.Reads DnsMessage.parseReader bs P) (rest : List UInt8) :
    ∃ m, DnsMessage.parse (bs ++ rest) = .ok m ∧ P m := by
  obtain ⟨m, read, holds⟩ := reads [] rest
  rw [List.nil_append, List.length_nil] at read
  exact ⟨m, DnsMessage.parse_eq_ok.mpr ⟨_, read⟩, holds⟩

/-! ## Decoding undoes encoding -/

/-- A message in the form that the parser gives. -/
structure CanonicalMessage (m : DnsMessage) : Prop where
  counted : Counted m
  arcount : m.header.arcount.toNat = m.additionals.length
  questions : ∀ q ∈ m.questions, ProperName q.name
  records : ∀ rr ∈ m.answers ++ (m.authorities ++ m.additionals), CanonicalRecord rr
  ednsDo : m.ednsDo = true ↔ ∃ opt ∈ m.additionals, opt.rtype = optType ∧ opt.ttl &&& doBit ≠ 0

theorem CanonicalMessage.wireHeader {m : DnsMessage} (canonical : CanonicalMessage m) :
    m.wireHeader = m.header := by
  have arcount : UInt16.ofNat m.additionals.length = m.header.arcount := by
    rw [← canonical.arcount, UInt16.ofNat_toNat]
  rw [DnsMessage.wireHeader, arcount]

theorem parse_canonical {m : DnsMessage} (canonical : CanonicalMessage m) :
    DnsMessage.parse m.wire = .ok m := by
  have short : m.additionals.length < 65536 := canonical.arcount ▸ m.header.arcount.toNat_lt
  have reads := reads_message canonical.counted short
    (fun q member => (canonical.questions q member).shortPieces)
    (fun rr member => reads_record_canonical (canonical.records rr member))
  obtain ⟨m', parsed, header, questions, answers, authorities, additionals, ednsDo⟩ :=
    parse_of_reads reads []
  rw [List.forall₂_eq_eq_eq] at answers authorities additionals
  have sameQuestions : m.questions.map DnsQuestion.dropEmpty = m.questions :=
    map_dropEmpty_iff.mpr fun q member => (canonical.questions q member).dropEmpty
  have same : m' = m := by
    refine DnsMessage.ext ?_ ?_ answers.symm authorities.symm additionals.symm ?_
    · rw [header, canonical.wireHeader]
    · rw [questions, sameQuestions]
    · rw [ednsDo, ← additionals, Bool.eq_iff_iff, DnsMessage.ednsDoOf_iff, canonical.ednsDo]
  rwa [List.append_nil, same] at parsed

/-- **Decoding undoes encoding on canonical messages.** -/
theorem parse_serialize {m : DnsMessage} (canonical : CanonicalMessage m) :
    ∃ bs, m.serialize = .ok bs ∧ DnsMessage.parse bs = .ok m :=
  ⟨m.wire, m.serialize_eq, parse_canonical canonical⟩

/-- A response that the tests of the source would build: one question, a CNAME
that leaves the zone, and an OPT record with the DO bit. -/
def cnameResponse : DnsMessage where
  header := { id := 0x1234, flags := 0x8180, qdcount := 1, ancount := 1, nscount := 0, arcount := 1 }
  questions := [{ name := "site.com", qtype := 1, qclass := 1 }]
  answers := [{
    name := "site.com", rtype := 5, rclass := 1, ttl := 300
    rdata := serializeName "a.net", cnameTarget := some "a.net" }]
  authorities := []
  additionals := [DnsMessage.freshOpt 1232]
  ednsDo := true

theorem cnameResponse_canonical : CanonicalMessage cnameResponse where
  counted := ⟨rfl, rfl, rfl⟩
  arcount := rfl
  questions := by decide
  records := by
    simp only [cnameResponse, List.cons_append, List.nil_append, List.mem_cons, List.not_mem_nil,
      or_false, forall_eq_or_imp, forall_eq]
    exact ⟨⟨by decide, by decide, by decide, fun _ => ⟨"a.net", by decide, rfl, rfl⟩⟩,
      ⟨by decide, by decide, by decide, fun cname => absurd cname (by decide)⟩⟩
  ednsDo := by decide

theorem parse_serialize_cnameResponse :
    ∃ bs, cnameResponse.serialize = .ok bs ∧ DnsMessage.parse bs = .ok cnameResponse :=
  parse_serialize cnameResponse_canonical

/-! ## Whatever was parsed can be encoded and decoded again -/

/-- What the parser guarantees about its messages and encoding needs. -/
structure Encodable (m : DnsMessage) : Prop where
  counted : Counted m
  questions : ∀ q ∈ m.questions, ShortPieces q.name
  records : ∀ rr ∈ m.answers ++ (m.authorities ++ m.additionals),
    ShortPieces rr.name ∧ rr.rdata.length ≤ 65535

theorem readExact_yields (n : Nat) : Reader.Yields (readExact n) fun bs => bs.length = n := by
  intro data pos bs pos' read
  obtain ⟨enough, rfl, -⟩ := Reader.readExact_eq_ok.mp read
  simp only [List.length_take, List.length_drop]
  omega

theorem question_yields : Reader.Yields DnsQuestion.parse fun q => ShortPieces q.name :=
  parseName_yields.bind fun _ short => .bind_any fun _ => .pure short

theorem target_yields (rtype : UInt16) : Reader.Yields (DnsResourceRecord.parseTarget rtype)
    fun target => rtype ≠ 5 → target = none := by
  unfold DnsResourceRecord.parseTarget
  by_cases cname : rtype = 5
  · rw [if_pos cname]
    exact fun _ _ _ _ _ other => absurd cname other
  · rw [if_neg cname]
    exact .pure fun _ => rfl

theorem record_yields : Reader.Yields DnsResourceRecord.parse
    fun rr => (ShortPieces rr.name ∧ rr.rdata.length ≤ 65535) ∧
      (rr.rtype ≠ 5 → rr.cnameTarget = none) :=
  parseName_yields.bind fun _ short => .bind_any fun buf => (target_yields _).bind fun _ other =>
    (readExact_yields _).bind fun rdata length => .pure ⟨⟨short, by
      have := (be16 buf 8).toNat_lt
      simp only [length]
      omega⟩, other⟩

/-- What the parser guarantees about its messages. -/
structure Decoded (m : DnsMessage) : Prop where
  encodable : Encodable m
  arcount : m.header.arcount.toNat = m.additionals.length
  other : ∀ rr ∈ m.answers ++ (m.authorities ++ m.additionals),
    rr.rtype ≠ 5 → rr.cnameTarget = none
  ednsDo : m.ednsDo = DnsMessage.ednsDoOf m.additionals

theorem message_yields : Reader.Yields DnsMessage.parseReader Decoded :=
  .bind_any fun _ =>
    (question_yields.many _).bind fun _ questions =>
    (record_yields.many _).bind fun answers ofAnswers =>
    (record_yields.many _).bind fun authorities ofAuthorities =>
    (record_yields.many _).bind fun additionals ofAdditionals => by
      have records : ∀ rr ∈ answers ++ (authorities ++ additionals),
          (ShortPieces rr.name ∧ rr.rdata.length ≤ 65535) ∧
            (rr.rtype ≠ 5 → rr.cnameTarget = none) := by
        simp only [List.mem_append]
        rintro rr (member | member | member)
        · exact ofAnswers.2 rr member
        · exact ofAuthorities.2 rr member
        · exact ofAdditionals.2 rr member
      exact .pure
        { encodable :=
            { counted := ⟨questions.1.symm, ofAnswers.1.symm, ofAuthorities.1.symm⟩
              questions := questions.2
              records := fun rr member => (records rr member).1 }
          arcount := ofAdditionals.1.symm
          other := fun rr member => (records rr member).2
          ednsDo := rfl }

theorem parse_decoded {data : List UInt8} {m : DnsMessage}
    (parsed : DnsMessage.parse data = .ok m) : Decoded m := by
  obtain ⟨pos, read⟩ := DnsMessage.parse_eq_ok.mp parsed
  exact message_yields _ _ _ _ read

theorem parse_encodable {data : List UInt8} {m : DnsMessage}
    (parsed : DnsMessage.parse data = .ok m) :
    Encodable m ∧ m.header.arcount.toNat = m.additionals.length :=
  ⟨(parse_decoded parsed).encodable, (parse_decoded parsed).arcount⟩

/-- **A message that can be encoded is decoded again**, up to empty parts of names
and to CNAME targets. -/
theorem parse_wire {m : DnsMessage} (encodable : Encodable m)
    (arcount : m.additionals.length < 65536) (rest : List UInt8) :
    ∃ m', DnsMessage.parse (m.wire ++ rest) = .ok m' ∧ m'.header = m.wireHeader ∧
      m'.questions = m.questions.map DnsQuestion.dropEmpty ∧
      List.Forall₂ Reencoded m.answers m'.answers ∧
      List.Forall₂ Reencoded m.authorities m'.authorities ∧
      List.Forall₂ Reencoded m.additionals m'.additionals := by
  have reads := reads_message encodable.counted arcount encodable.questions fun rr member =>
    reads_record_reencoded (encodable.records rr member).1 (encodable.records rr member).2
  obtain ⟨m', parsed, header, questions, answers, authorities, additionals, -⟩ :=
    parse_of_reads reads rest
  exact ⟨m', parsed, header, questions, answers, authorities, additionals⟩

/-- The questions survive even where the additional section has outgrown its count:
the records past the count are left unread. -/
theorem parse_wire_questions {m : DnsMessage} (encodable : Encodable m) :
    ∃ m', DnsMessage.parse m.wire = .ok m' ∧
      m'.questions = m.questions.map DnsQuestion.dropEmpty := by
  let counted := m.additionals.length % 65536
  let front : DnsMessage := { m with additionals := m.additionals.take counted }
  have frontLength : front.additionals.length = counted :=
    List.length_take_of_le (Nat.mod_le _ _)
  have frontEncodable : Encodable front :=
    { counted := ⟨encodable.counted.1, encodable.counted.2, encodable.counted.3⟩
      questions := encodable.questions
      records := fun rr member => encodable.records rr (by
        simp only [front, List.mem_append] at member ⊢
        exact member.imp_right (Or.imp_right List.mem_of_mem_take)) }
  have sameCount : UInt16.ofNat front.additionals.length = UInt16.ofNat m.additionals.length := by
    apply UInt16.toNat_inj.mp
    simp only [UInt16.toNat_ofNat', frontLength, counted]
    omega
  have whole : m.wire =
      front.wire ++ (m.additionals.drop counted).flatMap DnsResourceRecord.wire := by
    simp only [DnsMessage.wire, sameCount, List.append_assoc]
    simp only [front, ← List.flatMap_append, List.take_append_drop]
  obtain ⟨m', parsed, -, questions, -⟩ := parse_wire frontEncodable
    (by rw [frontLength]; exact Nat.mod_lt _ (by decide))
    ((m.additionals.drop counted).flatMap DnsResourceRecord.wire)
  exact ⟨m', whole ▸ parsed, questions⟩

end DnsLigase.Dns
