/-
# Dns.Message — the records of `dns.rs`, their parsers and serializers

Headers, questions, resource records and messages with the fields of the source,
and the methods on them in the source's order.  The record parser reads the
target of a CNAME on the side and puts the cursor back (`Reader.peek`); the
serializer recomputes `arcount` from the additional section and takes the other
three counts from the header as they are.
-/
import DnsLigase.Dns.Wire
import DnsLigase.Theory.Bytes

namespace DnsLigase.Dns

open DnsLigase.Theory
open DnsLigase.Theory.Bytes DnsLigase.Theory.Cursor DnsLigase.Theory.Io DnsLigase.Theory.Utf8

set_option autoImplicit false

/-- `Read::read_exact` on a cursor. -/
def readExact (n : Nat) : Reader IoError (List UInt8) :=
  Reader.readExact ⟨.unexpectedEof, "failed to fill whole buffer"⟩ n

structure DnsHeader where
  id : UInt16
  flags : UInt16
  qdcount : UInt16
  ancount : UInt16
  nscount : UInt16
  arcount : UInt16
  deriving DecidableEq, Repr

namespace DnsHeader

def parse : Reader IoError DnsHeader := do
  let buf ← readExact 12
  pure {
    id := be16 buf 0
    flags := be16 buf 2
    qdcount := be16 buf 4
    ancount := be16 buf 6
    nscount := be16 buf 8
    arcount := be16 buf 10 }

/-- The octets of a header. -/
def wire (h : DnsHeader) : List UInt8 :=
  beBytes16 h.id ++ (beBytes16 h.flags ++ (beBytes16 h.qdcount ++
    (beBytes16 h.ancount ++ (beBytes16 h.nscount ++ beBytes16 h.arcount))))

def serialize (h : DnsHeader) : Except IoError (List UInt8) := .ok h.wire

end DnsHeader

structure DnsQuestion where
  name : String
  qtype : UInt16
  qclass : UInt16
  deriving DecidableEq, Repr

namespace DnsQuestion

def parse : Reader IoError DnsQuestion := do
  let name ← parseName
  let typeBuf ← readExact 4
  pure { name, qtype := be16 typeBuf 0, qclass := be16 typeBuf 2 }

def wire (q : DnsQuestion) : List UInt8 :=
  serializeName q.name ++ (beBytes16 q.qtype ++ beBytes16 q.qclass)

def serialize (q : DnsQuestion) : Except IoError (List UInt8) := .ok q.wire

end DnsQuestion

structure DnsResourceRecord where
  name : String
  rtype : UInt16
  rclass : UInt16
  ttl : UInt32
  rdata : List UInt8
  cnameTarget : Option String
  deriving DecidableEq, Repr

namespace DnsResourceRecord

/-- The target of a CNAME, read from the cursor so that its pointers can be
followed; the cursor is put back in front of the rdata. -/
def parseTarget (rtype : UInt16) : Reader IoError (Option String) :=
  if rtype = 5 then parseName.peek else pure none

def parse : Reader IoError DnsResourceRecord := do
  let name ← parseName
  let metaBuf ← readExact 10
  let rtype := be16 metaBuf 0
  let cnameTarget ← parseTarget rtype
  let rdata ← readExact (be16 metaBuf 8).toNat
  pure {
    name, rtype, rdata, cnameTarget
    rclass := be16 metaBuf 2
    ttl := be32 metaBuf 4 }

/-- Type, class, TTL and the length of the rdata, cast to `u16`. -/
def metaWire (rr : DnsResourceRecord) : List UInt8 :=
  beBytes16 rr.rtype ++ (beBytes16 rr.rclass ++ (beBytes32 rr.ttl ++
    beBytes16 (UInt16.ofNat rr.rdata.length)))

def wire (rr : DnsResourceRecord) : List UInt8 :=
  serializeName rr.name ++ (rr.metaWire ++ rr.rdata)

def serialize (rr : DnsResourceRecord) : Except IoError (List UInt8) := .ok rr.wire

end DnsResourceRecord

@[ext] structure DnsMessage where
  header : DnsHeader
  questions : List DnsQuestion
  answers : List DnsResourceRecord
  authorities : List DnsResourceRecord
  additionals : List DnsResourceRecord
  ednsDo : Bool
  deriving DecidableEq, Repr

/-- Type 41, the EDNS pseudo-record. -/
def optType : UInt16 := 41

/-- The DO bit, which `dns.rs` takes to be the top bit of the TTL field. -/
def doBit : UInt32 := 0x80000000

namespace DnsMessage

/-- Build a standard query: RD set, one question, qclass IN. -/
def newQuery (id : UInt16) (name : String) (qtype : UInt16) : DnsMessage where
  header := { id, flags := 0x0100, qdcount := 1, ancount := 0, nscount := 0, arcount := 0 }
  questions := [{ name, qtype, qclass := 1 }]
  answers := []
  authorities := []
  additionals := []
  ednsDo := false

/-- The flag that `parse` derives from the additional section. -/
def ednsDoOf (additionals : List DnsResourceRecord) : Bool :=
  additionals.any fun opt => opt.rtype = optType ∧ opt.ttl &&& doBit ≠ 0

/-- The body of `parse`, as a reader. -/
def parseReader : Reader IoError DnsMessage := do
  let header ← DnsHeader.parse
  let questions ← DnsQuestion.parse.many header.qdcount.toNat
  let answers ← DnsResourceRecord.parse.many header.ancount.toNat
  let authorities ← DnsResourceRecord.parse.many header.nscount.toNat
  let additionals ← DnsResourceRecord.parse.many header.arcount.toNat
  pure {
    header, questions, answers, authorities, additionals
    ednsDo := ednsDoOf additionals }

/-- Octets behind the last counted record are ignored. -/
def parse (data : List UInt8) : Except IoError DnsMessage :=
  (parseReader data 0).map Prod.fst

theorem parse_eq_ok {data : List UInt8} {m : DnsMessage} :
    parse data = .ok m ↔ ∃ pos, parseReader data 0 = .ok (m, pos) := by
  unfold parse
  cases parseReader data 0 with
  | error e => simp [Except.map]
  | ok out =>
      obtain ⟨m', pos⟩ := out
      simp [Except.map]

/-- What has been read when a message has: the header, and each section from where the one in
front of it ends. -/
theorem sections_of_parseReader {data : List UInt8} {p pos : Nat} {m : DnsMessage}
    (read : parseReader data p = .ok (m, pos)) :
    ∃ e₀ e₁ e₂ e₃, DnsHeader.parse data p = .ok (m.header, e₀) ∧
      DnsQuestion.parse.many m.header.qdcount.toNat data e₀ = .ok (m.questions, e₁) ∧
      DnsResourceRecord.parse.many m.header.ancount.toNat data e₁ = .ok (m.answers, e₂) ∧
      DnsResourceRecord.parse.many m.header.nscount.toNat data e₂ = .ok (m.authorities, e₃) ∧
      DnsResourceRecord.parse.many m.header.arcount.toNat data e₃ = .ok (m.additionals, pos) := by
  obtain ⟨header, e₀, readHeader, read⟩ := Reader.bind_eq_ok.mp read
  obtain ⟨questions, e₁, readQuestions, read⟩ := Reader.bind_eq_ok.mp read
  obtain ⟨answers, e₂, readAnswers, read⟩ := Reader.bind_eq_ok.mp read
  obtain ⟨authorities, e₃, readAuthorities, read⟩ := Reader.bind_eq_ok.mp read
  obtain ⟨additionals, e₄, readAdditionals, read⟩ := Reader.bind_eq_ok.mp read
  obtain ⟨rfl, rfl⟩ := Reader.pure_eq_ok.mp read
  exact ⟨e₀, e₁, e₂, e₃, readHeader, readQuestions, readAnswers, readAuthorities, readAdditionals⟩

/-- `buf.extend(item.serialize()?)` for every item of a section. -/
def extendAll {α : Type} (serialize : α → Except IoError (List UInt8)) (buf : List UInt8)
    (items : List α) : Except IoError (List UInt8) :=
  items.foldlM (fun buf item => do pure (buf ++ (← serialize item))) buf

def serialize (m : DnsMessage) : Except IoError (List UInt8) := do
  let header := { m.header with arcount := UInt16.ofNat m.additionals.length }
  let buf ← header.serialize
  let buf ← extendAll DnsQuestion.serialize buf m.questions
  let buf ← extendAll DnsResourceRecord.serialize buf m.answers
  let buf ← extendAll DnsResourceRecord.serialize buf m.authorities
  extendAll DnsResourceRecord.serialize buf m.additionals

/-- The first OPT record with its class set to `bufferSize` and its DO bit set. -/
def rewriteOpt (bufferSize : UInt16) :
    List DnsResourceRecord → Option (List DnsResourceRecord)
  | [] => none
  | r :: rest =>
      if r.rtype = optType then
        some ({ r with rclass := bufferSize, ttl := r.ttl ||| doBit } :: rest)
      else (rewriteOpt bufferSize rest).map (r :: ·)

/-- The OPT record that is added to a message without one. -/
def freshOpt (bufferSize : UInt16) : DnsResourceRecord where
  name := ""
  rtype := optType
  rclass := bufferSize
  ttl := doBit
  rdata := []
  cnameTarget := none

/-- `arcount += 1` wraps, as in a release build. -/
def addOptRecord (m : DnsMessage) (bufferSize : UInt16) : DnsMessage :=
  match rewriteOpt bufferSize m.additionals with
  | some additionals => { m with additionals }
  | none =>
      { m with
        additionals := m.additionals ++ [freshOpt bufferSize]
        header := { m.header with arcount := m.header.arcount + 1 } }

/-! ## Serializing never fails -/

/-- The octets of a message. -/
def wire (m : DnsMessage) : List UInt8 :=
  { m.header with arcount := UInt16.ofNat m.additionals.length }.wire ++
    (m.questions.flatMap DnsQuestion.wire ++ (m.answers.flatMap DnsResourceRecord.wire ++
      (m.authorities.flatMap DnsResourceRecord.wire ++
        m.additionals.flatMap DnsResourceRecord.wire)))

theorem ednsDoOf_iff {additionals : List DnsResourceRecord} :
    ednsDoOf additionals = true ↔
      ∃ opt ∈ additionals, opt.rtype = optType ∧ opt.ttl &&& doBit ≠ 0 := by
  simp [ednsDoOf]

theorem extendAll_ok {α : Type} (wire : α → List UInt8) (items : List α) :
    ∀ buf, extendAll (fun item => .ok (wire item)) buf items = .ok (buf ++ items.flatMap wire) := by
  induction items with
  | nil => intro buf; simp [extendAll, pure, Except.pure]
  | cons item rest ih =>
      intro buf
      have := ih (buf ++ wire item)
      simp only [extendAll, List.foldlM_cons, List.flatMap_cons] at this ⊢
      simpa [bind, Except.bind, pure, Except.pure] using this

theorem serialize_eq (m : DnsMessage) : m.serialize = .ok m.wire := by
  have questions := fun buf => extendAll_ok DnsQuestion.wire m.questions buf
  have records := fun buf rrs => extendAll_ok DnsResourceRecord.wire rrs buf
  change (do
    let buf ← extendAll (fun q => .ok (DnsQuestion.wire q)) _ m.questions
    let buf ← extendAll (fun rr => .ok (DnsResourceRecord.wire rr)) buf m.answers
    let buf ← extendAll (fun rr => .ok (DnsResourceRecord.wire rr)) buf m.authorities
    extendAll (fun rr => .ok (DnsResourceRecord.wire rr)) buf m.additionals) = _
  simp only [questions, records, bind, Except.bind, wire, List.append_assoc]

end DnsMessage

end DnsLigase.Dns
