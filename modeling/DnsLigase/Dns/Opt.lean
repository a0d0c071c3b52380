/-
# Dns.Opt — what `add_opt_record` changes on the wire

The first OPT record of the additional section gets a new class and its DO bit, in place;
a message without one gets one at the end, and `arcount`, which the header keeps beside
the vector, grows with it.  `opt_roundTrip`: encoded and decoded again, a message in
canonical form differs in nothing else, and a second call changes nothing.
-/
import DnsLigase.Dns.RoundTrip

namespace DnsLigase.Dns

open DnsLigase.Theory.Io

set_option autoImplicit false

/-! ## The DO bit -/

theorem doBit_set (ttl : UInt32) : (ttl ||| doBit) &&& doBit = doBit := by
  rw [← UInt32.toNat_inj, UInt32.toNat_and, UInt32.toNat_or]
  apply Nat.eq_of_testBit_eq
  intro i
  rw [Nat.testBit_and, Nat.testBit_or]
  cases doBit.toNat.testBit i <;> simp

theorem doBit_others (ttl : UInt32) : (ttl ||| doBit) &&& 0x7fffffff = ttl &&& 0x7fffffff := by
  have disjoint : doBit.toNat &&& (0x7fffffff : UInt32).toNat = 0 := by decide
  rw [← UInt32.toNat_inj, UInt32.toNat_and, UInt32.toNat_or, Nat.and_or_distrib_right, disjoint,
    Nat.or_zero, UInt32.toNat_and]

/-! ## The first OPT record -/

/-- An OPT record with its class set to `bufferSize` and its DO bit set. -/
def DnsResourceRecord.withDo (opt : DnsResourceRecord) (bufferSize : UInt16) : DnsResourceRecord :=
  { opt with rclass := bufferSize, ttl := opt.ttl ||| doBit }

/-- `opt` stands behind `front`, and is the first OPT record of the three parts. -/
structure FirstOpt (rrs front : List DnsResourceRecord) (opt : DnsResourceRecord)
    (back : List DnsResourceRecord) : Prop where
  split : rrs = front ++ opt :: back
  before : ∀ r ∈ front, r.rtype ≠ optType
  opt : opt.rtype = optType

variable {bufferSize : UInt16}

theorem rewriteOpt_eq_none : ∀ {rrs : List DnsResourceRecord},
    DnsMessage.rewriteOpt bufferSize rrs = none ↔ ∀ r ∈ rrs, r.rtype ≠ optType
  | [] => by simp [DnsMessage.rewriteOpt]
  | r :: rest => by
      rw [DnsMessage.rewriteOpt, List.forall_mem_cons]
      split
      · rename_i opt
        exact iff_of_false (Option.some_ne_none _) fun none_ => none_.1 opt
      · rename_i other
        rw [Option.map_eq_none_iff, rewriteOpt_eq_none]
        exact (and_iff_right other).symm

/-- **The rewrite is of the first OPT record**, and of nothing else. -/
theorem rewriteOpt_eq_some : ∀ {rrs rrs' : List DnsResourceRecord},
    DnsMessage.rewriteOpt bufferSize rrs = some rrs' ↔
      ∃ front opt back, FirstOpt rrs front opt back ∧
        rrs' = front ++ opt.withDo bufferSize :: back
  | [], rrs' => by
      refine iff_of_false (Option.some_ne_none _).symm ?_
      rintro ⟨front, opt, back, first, -⟩
      exact absurd first.split (by simp)
  | r :: rest, rrs' => by
      rw [DnsMessage.rewriteOpt]
      split
      · rename_i opt
        constructor
        · rintro ⟨⟩
          exact ⟨[], r, rest, ⟨rfl, List.forall_mem_nil _, opt⟩, rfl⟩
        · rintro ⟨front, opt', back, first, rfl⟩
          cases front with
          | nil =>
              obtain ⟨rfl, rfl⟩ := List.cons.inj first.split
              rfl
          | cons r' front =>
              obtain ⟨rfl, -⟩ := List.cons.inj first.split
              exact absurd opt (first.before _ List.mem_cons_self)
      · rename_i other
        rw [Option.map_eq_some_iff]
        constructor
        · rintro ⟨rest', rewritten, rfl⟩
          obtain ⟨front, opt, back, first, rfl⟩ := rewriteOpt_eq_some.mp rewritten
          exact ⟨r :: front, opt, back, ⟨congrArg (r :: ·) first.split,
            List.forall_mem_cons.mpr ⟨other, first.before⟩, first.opt⟩, rfl⟩
        · rintro ⟨front, opt, back, first, rfl⟩
          cases front with
          | nil =>
              obtain ⟨rfl, -⟩ := List.cons.inj first.split
              exact absurd first.opt other
          | cons r' front =>
              obtain ⟨rfl, split⟩ := List.cons.inj first.split
              have before := List.forall_mem_cons.mp first.before
              exact ⟨_, rewriteOpt_eq_some.mpr
                ⟨front, opt, back, ⟨split, before.2, first.opt⟩, rfl⟩, rfl⟩

/-! ## Messages -/

/-- **What `add_opt_record` can do.** -/
theorem addOptRecord_cases (m : DnsMessage) (bufferSize : UInt16) :
    (∃ front opt back, FirstOpt m.additionals front opt back ∧
      m.addOptRecord bufferSize =
        { m with additionals := front ++ opt.withDo bufferSize :: back }) ∨
    ((∀ r ∈ m.additionals, r.rtype ≠ optType) ∧
      m.addOptRecord bufferSize =
        { m with
          additionals := m.additionals ++ [DnsMessage.freshOpt bufferSize]
          header := { m.header with arcount := m.header.arcount + 1 } }) := by
  cases rewritten : DnsMessage.rewriteOpt bufferSize m.additionals with
  | some additionals =>
      obtain ⟨front, opt, back, first, rfl⟩ := rewriteOpt_eq_some.mp rewritten
      exact .inl ⟨front, opt, back, first, by rw [DnsMessage.addOptRecord, rewritten]⟩
  | none => exact .inr ⟨rewriteOpt_eq_none.mp rewritten, by rw [DnsMessage.addOptRecord, rewritten]⟩

theorem Encodable.addOptRecord {m : DnsMessage} (encodable : Encodable m) (bufferSize : UInt16) :
    Encodable (m.addOptRecord bufferSize) := by
  obtain ⟨counted, questions, records⟩ := encodable
  rcases addOptRecord_cases m bufferSize with ⟨front, opt, back, first, same⟩ | ⟨-, same⟩
  · rw [same]
    rw [first.split] at records
    refine ⟨⟨counted.1, counted.2, counted.3⟩, questions, fun rr member => ?_⟩
    simp only [List.mem_append, List.mem_cons] at member
    rcases member with member | member | member | rfl | member
    · exact records rr (by simp [member])
    · exact records rr (by simp [member])
    · exact records rr (by simp [member])
    · exact records opt (by simp)
    · exact records rr (by simp [member])
  · rw [same]
    refine ⟨⟨counted.1, counted.2, counted.3⟩, questions, fun rr member => ?_⟩
    simp only [List.mem_append, List.mem_singleton] at member
    rcases member with member | member | member | rfl
    · exact records rr (by simp [member])
    · exact records rr (by simp [member])
    · exact records rr (by simp [member])
    · exact ⟨show ShortPieces "" by decide, Nat.zero_le _⟩

/-- A second call finds the record of the first, and has nothing to change in it. -/
theorem addOptRecord_addOptRecord (m : DnsMessage) (bufferSize : UInt16) :
    (m.addOptRecord bufferSize).addOptRecord bufferSize = m.addOptRecord bufferSize := by
  suffices settled : ∃ front opt back, opt.withDo bufferSize = opt ∧
      FirstOpt (m.addOptRecord bufferSize).additionals front opt back by
    obtain ⟨front, opt, back, same, first⟩ := settled
    have rewritten : DnsMessage.rewriteOpt bufferSize (m.addOptRecord bufferSize).additionals =
        some (front ++ opt.withDo bufferSize :: back) :=
      rewriteOpt_eq_some.mpr ⟨front, opt, back, first, rfl⟩
    rw [same, ← first.split] at rewritten
    rw [DnsMessage.addOptRecord, rewritten]
  rcases addOptRecord_cases m bufferSize with ⟨front, opt, back, first, same⟩ | ⟨none_, same⟩
  · rw [same]
    refine ⟨front, opt.withDo bufferSize, back, ?_, rfl, first.before, first.opt⟩
    simp [DnsResourceRecord.withDo, UInt32.or_assoc]
  · rw [same]
    exact ⟨m.additionals, DnsMessage.freshOpt bufferSize, [],
      by simp [DnsResourceRecord.withDo, DnsMessage.freshOpt], rfl, none_, rfl⟩

/-- Only the class and the top bit of the TTL differ. -/
structure OptUpdated (bufferSize : UInt16) (opt opt' : DnsResourceRecord) : Prop where
  name : opt'.name = opt.name
  rtype : opt'.rtype = opt.rtype
  rclass : opt'.rclass = bufferSize
  topBit : opt'.ttl &&& 0x80000000 = 0x80000000
  otherBits : opt'.ttl &&& 0x7fffffff = opt.ttl &&& 0x7fffffff
  rdata : opt'.rdata = opt.rdata
  cnameTarget : opt'.cnameTarget = opt.cnameTarget

/-- Of the additional section and its count only the first OPT record differs, or there was
none and one is appended. -/
def OptRewritten (bufferSize : UInt16) (m m' : DnsMessage) : Prop :=
  (∃ front opt back opt', FirstOpt m.additionals front opt back ∧
    m'.additionals = front ++ opt' :: back ∧ OptUpdated bufferSize opt opt' ∧
    m'.header.arcount = m.header.arcount) ∨
  ((∀ r ∈ m.additionals, r.rtype ≠ optType) ∧
    m'.additionals = m.additionals ++ [⟨"", optType, bufferSize, 0x80000000, [], none⟩] ∧
    m'.header.arcount.toNat = m.header.arcount.toNat + 1)

/-- `m'` is `m` but for its OPT record. -/
structure DiffersInOpt (bufferSize : UInt16) (m m' : DnsMessage) : Prop where
  id : m'.header.id = m.header.id
  flags : m'.header.flags = m.header.flags
  counts : m'.header.qdcount = m.header.qdcount ∧ m'.header.ancount = m.header.ancount ∧
    m'.header.nscount = m.header.nscount
  questions : m'.questions = m.questions
  answers : m'.answers = m.answers
  authorities : m'.authorities = m.authorities
  additionals : OptRewritten bufferSize m m'

/-- `edns_do := true`, then `add_opt_record`. -/
def DnsMessage.withOpt (m : DnsMessage) (bufferSize : UInt16) : DnsMessage :=
  { m with ednsDo := true }.addOptRecord bufferSize

theorem optUpdated_withDo (bufferSize : UInt16) (opt : DnsResourceRecord) :
    OptUpdated bufferSize opt (opt.withDo bufferSize) :=
  ⟨rfl, rfl, rfl, doBit_set opt.ttl, doBit_others opt.ttl, rfl, rfl⟩

section Canonical

variable {m : DnsMessage}

theorem differsInOpt_withOpt (canonical : CanonicalMessage m) (room : m.additionals.length < 65535)
    (bufferSize : UInt16) : DiffersInOpt bufferSize m (m.withOpt bufferSize) := by
  rcases addOptRecord_cases { m with ednsDo := true } bufferSize with
    ⟨front, opt, back, first, same⟩ | ⟨none_, same⟩
  · rw [DnsMessage.withOpt, same]
    exact ⟨rfl, rfl, ⟨rfl, rfl, rfl⟩, rfl, rfl, rfl,
      .inl ⟨front, opt, back, _, first, rfl, optUpdated_withDo bufferSize opt, rfl⟩⟩
  · rw [DnsMessage.withOpt, same]
    refine ⟨rfl, rfl, ⟨rfl, rfl, rfl⟩, rfl, rfl, rfl, .inr ⟨none_, rfl, ?_⟩⟩
    have count := canonical.arcount
    show (m.header.arcount + 1).toNat = _
    rw [UInt16.toNat_add, UInt16.toNat_one]
    omega

theorem CanonicalRecord.withDo {opt : DnsResourceRecord} (canonical : CanonicalRecord opt)
    (bufferSize : UInt16) : CanonicalRecord (opt.withDo bufferSize) :=
  ⟨canonical.name, canonical.rdata, canonical.other, canonical.cname⟩

theorem canonicalRecord_freshOpt (bufferSize : UInt16) :
    CanonicalRecord (DnsMessage.freshOpt bufferSize) :=
  ⟨show ProperName "" by decide, Nat.zero_le _, fun _ => rfl,
    fun cname => absurd cname (show optType ≠ 5 by decide)⟩

/-- The message that is sent is in canonical form again. -/
theorem CanonicalMessage.withOpt (canonical : CanonicalMessage m)
    (room : m.additionals.length < 65535) (bufferSize : UInt16) :
    CanonicalMessage (m.withOpt bufferSize) := by
  have counted := canonical.counted
  have outside : ∀ rr ∈ m.answers ++ m.authorities, CanonicalRecord rr := fun rr member =>
    canonical.records rr (by simp only [List.mem_append] at member ⊢; tauto)
  have inside : ∀ rr ∈ m.additionals, CanonicalRecord rr := fun rr member =>
    canonical.records rr (by simp [member])
  have records : ∀ additionals, (∀ rr ∈ additionals, CanonicalRecord rr) →
      ∀ rr ∈ m.answers ++ (m.authorities ++ additionals), CanonicalRecord rr := by
    intro additionals each rr member
    rw [← List.append_assoc, List.mem_append] at member
    exact member.elim (outside rr) (each rr)
  have doSet : ∀ ttl : UInt32, (ttl ||| doBit) &&& doBit ≠ 0 := by
    intro ttl
    rw [doBit_set]
    decide
  rcases addOptRecord_cases { m with ednsDo := true } bufferSize with
    ⟨front, opt, back, first, same⟩ | ⟨none_, same⟩
  · rw [DnsMessage.withOpt, same]
    have whole : m.additionals = front ++ opt :: back := first.split
    rw [whole] at inside
    refine ⟨⟨counted.1, counted.2, counted.3⟩, ?_, canonical.questions, records _ ?_, ?_⟩
    · show m.header.arcount.toNat = _
      rw [canonical.arcount, whole]
      simp
    · intro rr member
      rcases List.mem_append.mp member with member | member
      · exact inside rr (List.mem_append_left _ member)
      rcases List.mem_cons.mp member with rfl | member
      · exact (inside opt (by simp)).withDo bufferSize
      · exact inside rr (by simp [member])
    · exact iff_of_true rfl ⟨opt.withDo bufferSize, by simp, first.opt, doSet opt.ttl⟩
  · rw [DnsMessage.withOpt, same]
    refine ⟨⟨counted.1, counted.2, counted.3⟩, ?_, canonical.questions, records _ ?_, ?_⟩
    · have count := canonical.arcount
      show (m.header.arcount + 1).toNat = (m.additionals ++ _).length
      rw [UInt16.toNat_add, UInt16.toNat_one, List.length_append, List.length_singleton]
      omega
    · intro rr member
      rcases List.mem_append.mp member with member | member
      · exact inside rr member
      · rw [List.mem_singleton.mp member]
        exact canonicalRecord_freshOpt bufferSize
    · exact iff_of_true rfl ⟨_, List.mem_append_right _ List.mem_cons_self, rfl, by
        show doBit &&& doBit ≠ 0
        decide⟩

/-- **The OPT rewrite changes nothing else on the wire**: encoded and decoded again, the
message differs from `m` in its OPT record, and a second call changes nothing. -/
theorem opt_roundTrip (canonical : CanonicalMessage m) (room : m.additionals.length < 65535)
    (bufferSize : UInt16) :
    ∃ bs m', (m.withOpt bufferSize).serialize = .ok bs ∧ DnsMessage.parse bs = .ok m' ∧
      DiffersInOpt bufferSize m m' ∧
      (m.withOpt bufferSize).addOptRecord bufferSize = m.withOpt bufferSize := by
  have again := canonical.withOpt room bufferSize
  exact ⟨_, _, (m.withOpt bufferSize).serialize_eq, parse_canonical again,
    differsInOpt_withOpt canonical room bufferSize, addOptRecord_addOptRecord _ bufferSize⟩

theorem opt_roundTrip_cnameResponse :
    ∃ bs m', (cnameResponse.withOpt 1232).serialize = .ok bs ∧ DnsMessage.parse bs = .ok m' ∧
      DiffersInOpt 1232 cnameResponse m' ∧
      (cnameResponse.withOpt 1232).addOptRecord 1232 = cnameResponse.withOpt 1232 :=
  opt_roundTrip cnameResponse_canonical (by decide) 1232

end Canonical

end DnsLigase.Dns
