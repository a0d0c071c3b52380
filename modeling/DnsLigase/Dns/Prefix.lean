/-
# Dns.Prefix — a packet that was cut

A datagram that does not fit the buffer it is received in loses its end.  What is left may still
be a packet: the parser ignores what stands behind the last record that the header counts.

`parse_take`: where the front of a datagram is accepted, the whole datagram is accepted and
read alike, in its header, questions, records and DO flag.  The one thing the cut can hide is the
target of a CNAME, which is read from the whole buffer; where the target is read, it is the same.
-/
import DnsLigase.Dns.Message
import DnsLigase.Dns.Wire

namespace DnsLigase.Dns

open DnsLigase.Theory.Cursor DnsLigase.Theory.Io DnsLigase.Theory.Utf8

set_option autoImplicit false

/-! ## Names -/

/-- A name stays where it is when octets are put behind the buffer. -/
theorem NameAt.append {b : List UInt8} {p q j : Nat} {labels : List (List UInt8)}
    (name : NameAt b p labels q j) (more : List UInt8) : NameAt (b ++ more) p labels q j := by
  have stays : ∀ {i : Nat} {x : UInt8}, b[i]? = some x → (b ++ more)[i]? = some x := by
    intro i x here
    rw [List.getElem?_append_left (List.getElem?_eq_some_iff.mp here).1, here]
  have longer : b.length ≤ (b ++ more).length := by
    rw [List.length_append]
    omega
  induction name with
  | root here => exact .root (stays here)
  | @label p q j n labels here nonzero short fits _ ih =>
      rw [← Reader.slice_append (by omega) more]
      exact .label (stays here) nonzero short (Nat.le_trans fits longer) ih
  | pointer here high next target _ ih =>
      exact .pointer (stays here) high (stays next) (Nat.lt_of_lt_of_le target longer) ih

theorem parseName_grows : Reader.Grows parseName parseName Eq := by
  intro data more pos name pos' parsed
  obtain ⟨labels, j, standing, few, rfl⟩ := parseName_eq_ok_iff.mp parsed
  exact ⟨_, parseName_eq_ok_iff.mpr ⟨labels, j, standing.append more, few, rfl⟩, rfl⟩

/-! ## Records -/

/-- The same record, but for a target that was not read. -/
structure DnsResourceRecord.Agrees (rr rr' : DnsResourceRecord) : Prop where
  same : rr' = { rr with cnameTarget := rr'.cnameTarget }
  target : ∀ t, rr.cnameTarget = some t → rr'.cnameTarget = some t

theorem question_grows : Reader.Grows DnsQuestion.parse DnsQuestion.parse Eq :=
  parseName_grows.bind_eq fun _ => Reader.Grows.readExact.bind_eq fun _ => .pure rfl

theorem target_grows (rtype : UInt16) :
    Reader.Grows (DnsResourceRecord.parseTarget rtype) (DnsResourceRecord.parseTarget rtype)
      fun o o' => ∀ t, o = some t → o' = some t := by
  unfold DnsResourceRecord.parseTarget
  split
  · intro data more pos o pos' read
    obtain ⟨o', read', keeps⟩ := parseName_grows.peek data more pos o pos' read
    refine ⟨o', read', fun t found => ?_⟩
    obtain ⟨_, found', rfl⟩ := keeps t found
    exact found'
  · exact .pure fun _ found => found

theorem record_grows : Reader.Grows DnsResourceRecord.parse DnsResourceRecord.parse
    DnsResourceRecord.Agrees :=
  parseName_grows.bind_eq fun _ => Reader.Grows.readExact.bind_eq fun metaBuf =>
    (target_grows (Theory.Bytes.be16 metaBuf 0)).bind fun _ _ target =>
      Reader.Grows.readExact.bind_eq fun _ => .pure ⟨rfl, target⟩

/-! ## Packets -/

/-- The same message, but for targets that were not read. -/
structure DnsMessage.Agrees (m m' : DnsMessage) : Prop where
  header : m'.header = m.header
  questions : m'.questions = m.questions
  answers : List.Forall₂ DnsResourceRecord.Agrees m.answers m'.answers
  authorities : List.Forall₂ DnsResourceRecord.Agrees m.authorities m'.authorities
  additionals : List.Forall₂ DnsResourceRecord.Agrees m.additionals m'.additionals
  ednsDo : m'.ednsDo = m.ednsDo

theorem ednsDoOf_agrees {rrs rrs' : List DnsResourceRecord}
    (agree : List.Forall₂ DnsResourceRecord.Agrees rrs rrs') :
    DnsMessage.ednsDoOf rrs' = DnsMessage.ednsDoOf rrs := by
  induction agree with
  | nil => rfl
  | cons head _ ih =>
      simp only [DnsMessage.ednsDoOf, List.any_cons] at ih ⊢
      rw [ih, head.same]

theorem header_grows : Reader.Grows DnsHeader.parse DnsHeader.parse Eq :=
  Reader.Grows.readExact.bind_eq fun _ => .pure rfl

theorem message_grows : Reader.Grows DnsMessage.parseReader DnsMessage.parseReader
    DnsMessage.Agrees := by
  refine header_grows.bind_eq fun header => (question_grows.many _).bind fun qs qs' questions => ?_
  refine (record_grows.many _).bind fun as as' answers => ?_
  refine (record_grows.many _).bind fun ns ns' authorities => ?_
  refine (record_grows.many _).bind fun ars ars' additionals => ?_
  rw [List.forall₂_eq_eq_eq] at questions
  exact .pure ⟨rfl, questions.symm, answers, authorities, additionals, ednsDoOf_agrees additionals⟩

theorem parse_append {front : List UInt8} {m : DnsMessage}
    (accepted : DnsMessage.parse front = .ok m) (more : List UInt8) :
    ∃ m', DnsMessage.parse (front ++ more) = .ok m' ∧ m.Agrees m' := by
  obtain ⟨pos, read⟩ := DnsMessage.parse_eq_ok.mp accepted
  obtain ⟨m', read', agrees⟩ := message_grows front more 0 m pos read
  exact ⟨m', DnsMessage.parse_eq_ok.mpr ⟨pos, read'⟩, agrees⟩

/-- **What the front of a datagram says, the datagram says**: where a buffer of `n` octets holds
a packet, what it does not hold changes nothing but targets that could not be read. -/
theorem parse_take {n : Nat} {datagram : List UInt8} {m : DnsMessage}
    (accepted : DnsMessage.parse (datagram.take n) = .ok m) :
    ∃ m', DnsMessage.parse datagram = .ok m' ∧ m.Agrees m' := by
  have whole := parse_append accepted (datagram.drop n)
  rwa [List.take_append_drop] at whole

/-! ## A pointer behind the end -/

/-- A response with one CNAME, whose target is a pointer to what follows the record. -/
def cutAlias : List UInt8 :=
  [0x12, 0x34, 0x81, 0x80, 0, 0, 0, 1, 0, 0, 0, 0] ++
    ([0] ++ [0, 5, 0, 1, 0, 0, 0, 60, 0, 2] ++ [0xC0, 25])

def cutAliasMessage (target : Option String) : DnsMessage where
  header := ⟨0x1234, 0x8180, 0, 1, 0, 0⟩
  questions := []
  answers := [
    { name := "", rtype := 5, rclass := 1, ttl := 60, rdata := [0xC0, 25], cnameTarget := target }]
  authorities := []
  additionals := []
  ednsDo := false

theorem parse_take_alias :
    ∃ m, DnsMessage.parse (cutAlias ++ [1, 120, 0]) = .ok m ∧ (cutAliasMessage none).Agrees m :=
  parse_take (n := 25) (by decide +kernel)

/-- The target is read once the octets behind the record are there. -/
theorem alias_appears : DnsMessage.parse (cutAlias ++ [1, 120, 0]) =
    .ok (cutAliasMessage (some "x")) := by decide +kernel

end DnsLigase.Dns
