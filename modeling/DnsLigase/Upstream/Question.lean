/-
# Upstream.Question — the name that was checked and the name that is asked

The client's packet is decoded, its first name checked as a dotted string, and the
message encoded again for the upstream.  Encoding drops the empty parts of a name,
so the upstream is asked for `dropEmpty` of the name that was checked.

* `asksWhatWasChecked_of`: for one blocklist, the two agree exactly when dropping the
  empty parts does not turn a name that passes into one that is blocked;
* `asksWhatWasChecked_iff`: for all blocklists, exactly when there is nothing to drop.
-/
import DnsLigase.Dns.Opt
import DnsLigase.Upstream.Runs

namespace DnsLigase.Upstream

open DnsLigase.Theory DnsLigase.Dns
open DnsLigase.Theory.Case DnsLigase.Theory.Io DnsLigase.Theory.Program

set_option autoImplicit false

/-! ## Dropping the empty parts loses a dot -/

theorem length_splitDots (name : String) : (splitDots name).length = name.toList.count '.' + 1 := by
  rw [splitDots, List.length_map]
  induction name.toList with
  | nil => rfl
  | cons c rest ih =>
      rw [List.splitOn_cons_eq_if_modifyHead]
      by_cases dot : c = '.'
      · simp [dot, ih]
      · simp [dot, ih]

theorem count_dot_joinDots {parts : List String} (dotFree : ∀ p ∈ parts, '.' ∉ p.toList) :
    (joinDots parts).toList.count '.' = parts.length - 1 := by
  rw [toList_joinDots]
  induction parts with
  | nil => rfl
  | cons part rest ih =>
      have head : part.toList.count '.' = 0 :=
        List.count_eq_zero.mpr (dotFree part List.mem_cons_self)
      cases rest with
      | nil => simpa using head
      | cons next rest =>
          have ih := ih fun p member => dotFree p (List.mem_cons_of_mem _ member)
          simp only [List.map_cons] at ih
          simp only [List.map_cons, List.intercalate_cons_cons, List.count_append, head, ih]
          simp
          omega

/-- Unless it is whole, a name has fewer dots once its empty parts are dropped. -/
theorem count_dot_dropEmpty {name : String} (changed : dropEmpty name ≠ name) :
    (dropEmpty name).toList.count '.' < name.toList.count '.' := by
  have whole := joinDots_splitDots name
  have empty : "" ∈ splitDots name := by
    by_contra full
    have all : pieces name = splitDots name := List.filter_eq_self.mpr fun part member =>
      decide_eq_true fun same => full (same ▸ member)
    exact changed (by rw [dropEmpty, all, whole])
  have fewer : (pieces name).length < (splitDots name).length :=
    List.length_filter_lt_length_iff_exists.mpr ⟨"", empty, by simp⟩
  have several : (splitDots name).length ≠ 1 := by
    intro single
    obtain ⟨part, parts⟩ := List.length_eq_one_iff.mp single
    obtain rfl : "" = part := by simpa [parts] using empty
    have root : name = "" := whole.symm.trans (congrArg joinDots parts)
    exact changed (root ▸ rfl)
  have dots := length_splitDots name
  rw [dropEmpty, count_dot_joinDots fun p member => (of_mem_pieces member).2.1]
  omega

variable {ρ : Type} [UnicodeCase] [RegexEngine ρ]

/-- A name that is not whole is told apart from what is left of it by some blocklist. -/
theorem exists_blocklist {name : String} (changed : dropEmpty name ≠ name) :
    ∃ bl : Blocklist ρ, ¬ (bl.check name).IsBlocked ∧ (bl.check (dropEmpty name)).IsBlocked := by
  refine ⟨Blocklist.blocking (Blocklist.lowered (dropEmpty name)), ?_, ?_⟩
  · rw [Blocklist.check_blocking]
    intro same
    have dots := congrArg (fun s => s.toList.count '.') same
    simp only [Blocklist.count_dot_lowered] at dots
    have fewer := count_dot_dropEmpty changed
    omega
  · rw [Blocklist.check_blocking]

/-! ## What is asked -/

omit [UnicodeCase] in
/-- The query is encoded with the questions that were decoded, less their empty parts. -/
theorem parse_toSend {packet : List UInt8} {msg : DnsMessage}
    (parsed : DnsMessage.parse packet = .ok msg) :
    ∃ msg', DnsMessage.parse (toSend msg).wire = .ok msg' ∧
      msg'.questions = msg.questions.map DnsQuestion.dropEmpty := by
  have encodable := (parse_encodable parsed).1
  have withDo : Encodable { msg with ednsDo := true } :=
    ⟨⟨encodable.counted.1, encodable.counted.2, encodable.counted.3⟩, encodable.questions,
      encodable.records⟩
  obtain ⟨msg', parsed', questions⟩ :=
    parse_wire_questions (withDo.addOptRecord ednsBufferSize)
  refine ⟨msg', parsed', questions.trans ?_⟩
  congr 1
  rcases addOptRecord_cases { msg with ednsDo := true } ednsBufferSize with
    ⟨front, opt, back, -, same⟩ | ⟨-, same⟩
  · rw [same]
  · rw [same]

omit [UnicodeCase] in
/-- A query in canonical form reaches the upstream with nothing but its OPT record changed. -/
theorem toSend_differsInOpt {msg : DnsMessage} (canonical : CanonicalMessage msg)
    (room : msg.additionals.length < 65535) :
    ∃ msg', DnsMessage.parse (toSend msg).wire = .ok msg' ∧
      DiffersInOpt ednsBufferSize msg msg' := by
  have again := canonical.withOpt room ednsBufferSize
  exact ⟨_, parse_canonical again, differsInOpt_withOpt canonical room ednsBufferSize⟩

/-- Whichever handler serves it and whatever it awaits: a query sent upstream because of
`packet` decodes to a first question whose name `bl` does not block. -/
def AsksWhatWasChecked (bl : Blocklist ρ) (packet : List UInt8) : Prop :=
  ∀ (client : String) (events : List (Event (Request ρ))) (out : Except IoError Unit),
    Runs (handleUdpQuery client packet) events out ∨
      Runs (serveTcpMessage client packet) events out →
    Answered (reading bl) events →
    ∀ msg q, DnsMessage.parse packet = .ok msg → msg.questions.head? = some q →
    ∀ query ∈ asked events, ∃ msg' q', DnsMessage.parse query = .ok msg' ∧
      msg'.questions.head? = some q' ∧ ¬ (bl.check q'.name).IsBlocked

/-- The first name in `packet` stays free of the rules of `bl` when its empty parts are
dropped. -/
def DropsNothingBlocked (bl : Blocklist ρ) (packet : List UInt8) : Prop :=
  ∀ msg q, DnsMessage.parse packet = .ok msg → msg.questions.head? = some q →
    ¬ (bl.check q.name).IsBlocked → ¬ (bl.check (dropEmpty q.name)).IsBlocked

theorem asksWhatWasChecked_of (bl : Blocklist ρ) (packet : List UInt8) :
    AsksWhatWasChecked bl packet ↔ DropsNothingBlocked bl packet := by
  have decoded : ∀ msg q, DnsMessage.parse packet = .ok msg → msg.questions.head? = some q →
      ∃ msg', DnsMessage.parse (toSend msg).wire = .ok msg' ∧
        msg'.questions.head? = some q.dropEmpty := by
    intro msg q parsed first
    obtain ⟨msg', parsed', questions⟩ := parse_toSend parsed
    exact ⟨msg', parsed', by rw [questions, List.head?_map, first]; rfl⟩
  constructor
  · intro asks msg q parsed first passes
    have notScreened : ¬ Screened bl msg := by
      simpa [Screened, first] using passes
    obtain ⟨events, out, runs, fixed, member⟩ := exists_asked parsed notScreened ""
    obtain ⟨msg', q', parsed', first', clean⟩ :=
      asks "" events out (.inl runs) fixed msg q parsed first _ member
    obtain ⟨msg'', parsed'', first''⟩ := decoded msg q parsed first
    cases parsed'.symm.trans parsed''
    cases first'.symm.trans first''
    exact clean
  · intro drops client events out runs fixed msg q parsed first query member
    obtain ⟨notScreened, rfl⟩ := of_mem_asked parsed runs fixed member
    obtain ⟨msg', parsed', first'⟩ := decoded msg q parsed first
    refine ⟨msg', _, parsed', first', drops msg q parsed first fun blocked => ?_⟩
    exact notScreened ⟨q, first, blocked⟩

/-- **Checked and asked names agree under every blocklist exactly for the packets whose
first name has no empty part**, that is, no label that starts or ends with a dot or has
two in a row. -/
theorem asksWhatWasChecked_iff (packet : List UInt8) :
    (∀ bl : Blocklist ρ, AsksWhatWasChecked bl packet ↔ DropsNothingBlocked bl packet) ∧
      ((∀ bl : Blocklist ρ, AsksWhatWasChecked bl packet) ↔
        ∀ msg q, DnsMessage.parse packet = .ok msg → msg.questions.head? = some q →
          dropEmpty q.name = q.name) := by
  refine ⟨fun bl => asksWhatWasChecked_of bl packet, ?_⟩
  constructor
  · intro asks msg q parsed first
    by_contra changed
    obtain ⟨bl, passes, blocked⟩ := @exists_blocklist ρ _ _ _ changed
    exact (asksWhatWasChecked_of bl packet).mp (asks bl) msg q parsed first passes blocked
  · intro whole bl
    refine (asksWhatWasChecked_of bl packet).mpr fun msg q parsed first passes => ?_
    rwa [whole msg q parsed first]

/-- A query for the labels `ads` and `com.`, whose dotted form ends in an empty part. -/
def dottedQuery : List UInt8 :=
  [0x12, 0x34, 1, 0, 0, 1, 0, 0, 0, 0, 0, 0] ++
    [3, 97, 100, 115, 4, 99, 111, 109, 46, 0] ++ [0, 1, 0, 1]

omit [UnicodeCase] in
/-- The check lets `ads.com.` pass, and the upstream is asked for `ads.com`. -/
theorem dottedQuery_escapes :
    ¬ @AsksWhatWasChecked Literal smallCase _ (Blocklist.blocking "ads.com") dottedQuery := by
  let _ := smallCase
  rw [asksWhatWasChecked_of]
  intro drops
  have parsed : DnsMessage.parse dottedQuery = .ok {
      header := { id := 0x1234, flags := 0x0100, qdcount := 1, ancount := 0, nscount := 0, arcount := 0 }
      questions := [{ name := "ads.com.", qtype := 1, qclass := 1 }]
      answers := [], authorities := [], additionals := [], ednsDo := false } := by
    decide +kernel
  refine drops _ _ parsed rfl ?_ ?_
  · decide +kernel
  · decide +kernel

end DnsLigase.Upstream
