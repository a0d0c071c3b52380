/-
# Upstream.Truncation — what is left of a response that is cut

`truncate_response` decodes the response, drops records, and encodes what is left with every
name written out, so it does not matter where a compression pointer of the response led: the
questions and the OPT records are the decoded ones, and their names come back whole when no
label has a dot in it.

Only the additional section is searched for OPT records.  A record of type 41 in the answer
section is dropped with that section (`optAnswer_dropped`).
-/
import DnsLigase.Dns.Expansion
import DnsLigase.Upstream.LaterQuestions
import DnsLigase.Upstream.UdpSize

namespace DnsLigase.Upstream

open DnsLigase.Theory DnsLigase.Dns
open DnsLigase.Theory.Cursor DnsLigase.Theory.Io

set_option autoImplicit false

/-- `cut` is `resp` with TC set and no records but `opts`. -/
structure CutTo (resp : DnsMessage) (opts : List DnsResourceRecord) (cut : DnsMessage) : Prop where
  id : cut.header.id = resp.header.id
  flags : cut.header.flags = resp.header.flags ||| 0x0200
  questions : cut.questions = resp.questions
  answers : cut.answers = []
  authorities : cut.authorities = []
  additionals : cut.additionals = opts

theorem reencoded_eq {rr rr' : DnsResourceRecord} (reencoded : Reencoded rr rr')
    (whole : dropEmpty rr.name = rr.name) (plain : rr.rtype ≠ 5) (other : rr.cnameTarget = none) :
    rr' = rr := by
  obtain ⟨target, rfl, none_⟩ := reencoded
  rw [none_ plain, whole, ← other]

theorem optType_ne_cname : optType ≠ 5 := by decide

section Cut

variable {m : DnsMessage} (decoded : Decoded m)
  (dotFree : ∀ name ∈ m.names, DotFree name)
include decoded dotFree

/-- An OPT record has no target, so with a whole name it comes back as it was. -/
theorem reads_opt : ∀ rr ∈ (truncated m).additionals,
    Reader.Reads DnsResourceRecord.parse rr.wire (rr = ·) := by
  intro rr member
  obtain ⟨short, fits⟩ := (encodable_truncated decoded.encodable).records rr member
  obtain ⟨kept, opt⟩ := List.mem_filter.mp member
  have plain : rr.rtype ≠ 5 := of_decide_eq_true opt ▸ optType_ne_cname
  have placed : rr ∈ m.answers ++ (m.authorities ++ m.additionals) := by simp [kept]
  have named : rr.name ∈ m.names :=
    List.mem_append_right _ (List.mem_flatMap.mpr ⟨rr, placed, List.mem_cons_self⟩)
  exact (reads_record_reencoded short fits).mono fun rr' reencoded =>
    (reencoded_eq reencoded (dotFree rr.name named).dropEmpty plain
      (decoded.other rr placed plain)).symm

omit decoded in
theorem questions_dropEmpty : m.questions.map DnsQuestion.dropEmpty = m.questions := by
  refine map_dropEmpty_iff.mpr fun q member => ?_
  have named : q.name ∈ m.names := List.mem_append_left _ (List.mem_map_of_mem member)
  exact (dotFree q.name named).dropEmpty

end Cut

/-- **The cut response is one message, with the questions and the OPT records of the response**:
nothing stands behind its counted sections. -/
theorem truncateResponse_cutTo {resp : List UInt8} {m : DnsMessage}
    (parsed : DnsMessage.parse resp = .ok m) (dotFree : ∀ name ∈ m.names, DotFree name) :
    ∃ bs cut, truncateResponse resp = .ok bs ∧
      DnsMessage.parseReader bs 0 = .ok (cut, bs.length) ∧
      CutTo m (m.additionals.filter (·.rtype = optType)) cut := by
  have decoded := parse_decoded parsed
  have encodable := encodable_truncated decoded.encodable
  have few : (truncated m).additionals.length < 65536 := by
    have shorter : (truncated m).additionals.length ≤ m.additionals.length :=
      List.length_filter_le _ _
    have := decoded.arcount ▸ m.header.arcount.toNat_lt
    omega
  obtain ⟨cut, read, header, questions, answers, authorities, additionals, -⟩ :=
    reads_message encodable.counted few encodable.questions (reads_opt decoded dotFree) [] []
  rw [List.nil_append, List.append_nil, List.length_nil, Nat.zero_add] at read
  rw [List.forall₂_eq_eq_eq] at additionals
  have asked : m.questions.map DnsQuestion.dropEmpty = m.questions := questions_dropEmpty dotFree
  refine ⟨(truncated m).wire, cut, ?_, read, ?_, ?_, questions.trans asked,
    List.forall₂_nil_left_iff.mp answers, List.forall₂_nil_left_iff.mp authorities,
    additionals.symm⟩
  · rw [truncateResponse, parsed]
    exact DnsMessage.serialize_eq _
  · rw [header]
    rfl
  · rw [header]
    rfl

/-! ## Pointers into what is dropped, and an OPT record in the wrong section -/

/-- A response for `site.com`, with an answer for `ads.com` and an OPT record whose owner is a
pointer to the owner of that answer. -/
def pointedOpt : List UInt8 :=
  [0x12, 0x34, 0x81, 0x80, 0, 1, 0, 1, 0, 0, 0, 1] ++
    [4, 115, 105, 116, 101, 3, 99, 111, 109, 0] ++ [0, 1, 0, 1] ++
    [3, 97, 100, 115, 0xC0, 17] ++ [0, 1, 0, 1, 0, 0, 0, 60, 0, 4, 10, 0, 0, 1] ++
    [0xC0, 26] ++ [0, 41, 4, 208, 0, 0, 0, 0, 0, 0]

def pointedMessage : DnsMessage where
  header := { id := 0x1234, flags := 0x8180, qdcount := 1, ancount := 1, nscount := 0, arcount := 1 }
  questions := [⟨"site.com", 1, 1⟩]
  answers := [⟨"ads.com", 1, 1, 60, [10, 0, 0, 1], none⟩]
  authorities := []
  additionals := [⟨"ads.com", 41, 1232, 0, [], none⟩]
  ednsDo := false

theorem dotFree_pointed : ∀ name ∈ pointedMessage.names, DotFree name := by
  have ads : DotFree "ads.com" := ⟨["ads", "com"], by decide, by decide⟩
  exact List.forall_mem_cons.mpr ⟨dotFree_site,
    List.forall_mem_cons.mpr ⟨ads, List.forall_mem_singleton.mpr ads⟩⟩

theorem truncateResponse_cutTo_pointed :
    ∃ bs cut, truncateResponse pointedOpt = .ok bs ∧
      DnsMessage.parseReader bs 0 = .ok (cut, bs.length) ∧
      CutTo pointedMessage (pointedMessage.additionals.filter (·.rtype = optType)) cut :=
  truncateResponse_cutTo (by decide +kernel) dotFree_pointed

/-- A response for `site.com` whose answer section holds the OPT record. -/
def optAnswer : List UInt8 :=
  [0x12, 0x34, 0x81, 0x80, 0, 1, 0, 1, 0, 0, 0, 0] ++
    [4, 115, 105, 116, 101, 3, 99, 111, 109, 0] ++ [0, 1, 0, 1] ++
    [0, 0, 41, 4, 208, 0, 0, 0, 0, 0, 0]

def optAnswerMessage : DnsMessage where
  header := { id := 0x1234, flags := 0x8180, qdcount := 1, ancount := 1, nscount := 0, arcount := 0 }
  questions := [⟨"site.com", 1, 1⟩]
  answers := [⟨"", 41, 1232, 0, [], none⟩]
  authorities := []
  additionals := []
  ednsDo := false

/-- Not every record of type 41 is kept. -/
theorem optAnswer_dropped :
    ¬ ∀ (resp : List UInt8) (m : DnsMessage), DnsMessage.parse resp = .ok m →
      (∀ name ∈ m.names, DotFree name) →
      ∃ bs cut, truncateResponse resp = .ok bs ∧
        DnsMessage.parseReader bs 0 = .ok (cut, bs.length) ∧
        CutTo m ((m.answers ++ (m.authorities ++ m.additionals)).filter (·.rtype = optType))
          cut := by
  intro keeps
  have root : DotFree "" := ⟨[], by simp, rfl⟩
  obtain ⟨bs, cut, truncated_, read, cutTo⟩ := keeps optAnswer optAnswerMessage
    (by decide +kernel)
    (List.forall_mem_cons.mpr ⟨dotFree_site, List.forall_mem_singleton.mpr root⟩)
  have decoded : DnsMessage.parse bs = .ok cut := DnsMessage.parse_eq_ok.mpr ⟨_, read⟩
  have empty : (truncateResponse optAnswer >>= DnsMessage.parse).toOption.map
      DnsMessage.additionals = some [] := by decide +kernel
  rw [truncated_] at empty
  change (DnsMessage.parse bs).toOption.map DnsMessage.additionals = some [] at empty
  rw [decoded] at empty
  exact absurd (cutTo.additionals.symm.trans (Option.some.inj empty)) (by decide)

end DnsLigase.Upstream
