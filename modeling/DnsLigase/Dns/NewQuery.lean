/-
# Dns.NewQuery — what an internal query asks for

`new_query` is given the host part of a URL, whose labels nobody has measured, and the
serializer writes the length of a label with a cast to `u8`.  From 192 octets on the length
octet is that of a pointer, and from 256 on it wraps around.

`asksFor_iff`: the query is read back, to its end, as one question for the host exactly when
every label has less than 192 octets.  A label that is written with the wrong length is never
made up for by the labels behind it (`short_of_nameAt`).
-/
import DnsLigase.Dns.Expansion
import DnsLigase.Dns.Target

namespace DnsLigase.Dns

open DnsLigase.Theory
open DnsLigase.Theory.Cursor DnsLigase.Theory.Io DnsLigase.Theory.Utf8

set_option autoImplicit false

/-- The query for the A records of `host` cannot be written, or it is read back as one question
for `host` and nothing behind it. -/
def AsksFor (id : UInt16) (host : String) : Prop :=
  (∃ e, (DnsMessage.newQuery id host 1).serialize = .error e) ∨
    ∃ bs m, (DnsMessage.newQuery id host 1).serialize = .ok bs ∧
      DnsMessage.parseReader bs 0 = .ok (m, bs.length) ∧
      m.questions = [{ name := host, qtype := 1, qclass := 1 }]

/-! ## Labels that are read back -/

/-- Where `hosts` are written, a name that ends where they end and has the same parts between
its dots was written with true lengths. -/
theorem short_of_nameAt : ∀ (hosts : List String) (pre post : List UInt8) (texts : List String)
    (q j : Nat), (∀ l ∈ hosts, l ≠ "" ∧ '.' ∉ l.toList) →
    NameAt (pre ++ (hosts.flatMap labelBytes ++ [0] ++ post)) pre.length (texts.map utf8) q j →
    q = pre.length + (hosts.flatMap labelBytes ++ [0]).length →
    texts.flatMap splitDots = hosts → ∀ l ∈ hosts, (utf8 l).length < 192
  | [], _, _, _, _, _, _, _, _, _ => List.forall_mem_nil _
  | host :: rest, pre, post, texts, q, j, whole, name, stop, parts => by
      obtain ⟨nonempty, dotFree⟩ := whole host List.mem_cons_self
      have positive : 0 < (utf8 host).length := List.length_pos_iff.mpr
        (mt utf8_eq_nil_iff.mp nonempty)
      have octet : (UInt8.ofNat (utf8 host).length).toNat = (utf8 host).length % 256 :=
        UInt8.toNat_ofNat'
      have first : (pre ++ ((host :: rest).flatMap labelBytes ++ [0] ++ post))[pre.length]? =
          some (UInt8.ofNat (utf8 host).length) := by simp [labelBytes]
      have behind : (pre ++ labelBytes host).length = pre.length + 1 + (utf8 host).length := by
        rw [List.length_append, length_labelBytes]
        omega
      have end_ : q =
          pre.length + 1 + (utf8 host).length + (rest.flatMap labelBytes ++ [0]).length := by
        simp only [List.flatMap_cons, List.length_append, length_labelBytes] at stop ⊢
        omega
      have root : 0 < (rest.flatMap labelBytes ++ [0]).length := by simp
      generalize labels : texts.map utf8 = ls at name
      cases name with
      | root => omega
      | pointer => omega
      | @label _ _ _ n ls' here nonzero short fits name =>
          obtain rfl := Option.some.inj (here.symm.trans first)
          rw [octet] at short
          obtain ⟨text, texts, rfl, spelled, rfl⟩ := List.map_eq_cons_iff.mp labels
          have text_ : utf8 text = (utf8 host).take ((utf8 host).length % 256) := by
            rw [spelled, octet, flatMap_labelBytes_cons, List.append_assoc, ← List.drop_drop,
              List.drop_left]
            rw [labelBytes, List.cons_append, List.drop_one, List.tail_cons,
              List.take_append_of_le_length (Nat.mod_le _ _)]
          have textDotFree : '.' ∉ text.toList := by
            intro dot
            have inText := octet_of_mem dot 46 (by decide)
            rw [text_] at inText
            exact dotFree (mem_of_ascii_octet (List.mem_of_mem_take inText) (by decide) (by decide))
          rw [List.flatMap_cons, splitDots_of_label textDotFree, List.singleton_append,
            List.cons.injEq] at parts
          obtain ⟨rfl, parts⟩ := parts
          have exact_ : (utf8 text).length % 256 = (utf8 text).length := by
            have taken := congrArg List.length text_
            rw [List.length_take] at taken
            omega
          rw [octet, exact_, flatMap_labelBytes_cons, ← behind] at name
          refine List.forall_mem_cons.mpr ⟨by omega, ?_⟩
          exact short_of_nameAt rest (pre ++ labelBytes text) post texts q j
            (fun l member => whole l (List.mem_cons_of_mem _ member)) name
            (by rw [behind, end_]) parts

/-! ## The query on the wire -/

section Query

variable {id : UInt16} {host : String}

theorem parts_whole (named : ∀ l ∈ splitDots host, l ≠ "") :
    ∀ l ∈ splitDots host, l ≠ "" ∧ '.' ∉ l.toList := by
  intro l member
  obtain ⟨cs, found, rfl⟩ := List.mem_map.mp member
  rw [String.toList_ofList]
  exact ⟨named _ member, Text.not_mem_of_mem_splitOn found⟩

theorem pieces_of_named (named : ∀ l ∈ splitDots host, l ≠ "") : pieces host = splitDots host :=
  List.filter_eq_self.mpr fun l member => decide_eq_true (named l member)

theorem asksFor_of_short (named : ∀ l ∈ splitDots host, l ≠ "")
    (short : ∀ l ∈ splitDots host, (utf8 l).length < 192) : AsksFor id host := by
  have whole : dropEmpty host = host := by
    rw [dropEmpty, pieces_of_named named, joinDots_splitDots]
  have pieces_ : ShortPieces host := by
    rw [ShortPieces, pieces_of_named named]
    exact short
  have reads := reads_message (m := DnsMessage.newQuery id host 1) (R := Reencoded)
    ⟨rfl, rfl, rfl⟩ (show 0 < 65536 by decide) (List.forall_mem_singleton.mpr pieces_)
    (by simp [DnsMessage.newQuery])
  obtain ⟨m, read, -, questions, -⟩ := reads [] []
  rw [List.nil_append, List.append_nil, List.length_nil, Nat.zero_add] at read
  refine .inr ⟨_, m, DnsMessage.serialize_eq _, read, questions.trans ?_⟩
  simp only [DnsMessage.newQuery, List.map_cons, List.map_nil, DnsQuestion.dropEmpty, whole]

/-- The query is the header, the labels, the root, and four octets. -/
theorem newQuery_wire (named : ∀ l ∈ splitDots host, l ≠ "") :
    (DnsMessage.newQuery id host 1).wire = (DnsMessage.newQuery id host 1).wireHeader.wire ++
      ((splitDots host).flatMap labelBytes ++ [0] ++ [0, 1, 0, 1]) := by
  simp [DnsMessage.wire, DnsMessage.newQuery, DnsMessage.wireHeader, DnsQuestion.wire,
    serializeName_eq, pieces_of_named named]
  decide

/-- A query that is read back to its end holds one name, which ends in front of the last four
octets. -/
theorem name_of_newQuery {m : DnsMessage} {e : Nat}
    (read : DnsMessage.parseReader (DnsMessage.newQuery id host 1).wire 0 = .ok (m, e)) :
    ∃ qu q, m.questions = [qu] ∧
      parseName (DnsMessage.newQuery id host 1).wire 12 = .ok (qu.name, q) ∧ e = q + 4 := by
  obtain ⟨_, header, rfl⟩ := (reads_header (DnsMessage.newQuery id host 1).wireHeader).at_
    (Reader.StandsAt.whole (DnsMessage.newQuery id host 1).wire).left
  obtain ⟨e₀, e₁, e₂, e₃, readHeader, readQuestions, readAnswers, readAuthorities,
    readAdditionals⟩ := DnsMessage.sections_of_parseReader read
  obtain ⟨same, rfl⟩ := Prod.mk.inj (Except.ok.inj (readHeader.symm.trans header))
  rw [same] at readQuestions readAnswers readAuthorities readAdditionals
  -- the header counts one question and nothing else
  have empty : ∀ {rrs : List DnsResourceRecord} {p p' : Nat},
      DnsResourceRecord.parse.many 0 (DnsMessage.newQuery id host 1).wire p = .ok (rrs, p') →
        p' = p := fun none_ => (Reader.pure_eq_ok.mp none_).2.symm
  obtain rfl := empty readAnswers
  obtain rfl := empty readAuthorities
  obtain rfl := empty readAdditionals
  obtain ⟨qu, mid, readQuestion, readQuestions⟩ := Reader.bind_eq_ok.mp readQuestions
  obtain ⟨_, _, none_, readQuestions⟩ := Reader.bind_eq_ok.mp readQuestions
  obtain ⟨rfl, rfl⟩ := Reader.pure_eq_ok.mp none_
  obtain ⟨one, rfl⟩ := Reader.pure_eq_ok.mp readQuestions
  obtain ⟨q, owner, -, -, behind⟩ := (question_stands readQuestion).fields
  exact ⟨qu, q, one.symm, owner, behind⟩

theorem short_of_asksFor (named : ∀ l ∈ splitDots host, l ≠ "") (asks : AsksFor id host) :
    ∀ l ∈ splitDots host, (utf8 l).length < 192 := by
  obtain ⟨e, failed⟩ | ⟨bs, m, written, read, asked⟩ := asks
  · cases (DnsMessage.serialize_eq _).symm.trans failed
  cases (DnsMessage.serialize_eq _).symm.trans written
  obtain ⟨qu, q, questions, owner, stop⟩ := name_of_newQuery read
  obtain rfl := List.singleton_inj.mp (asked.symm.trans questions)
  obtain ⟨texts, j, name, -, joined⟩ := parseName_eq_ok_iff.mp owner
  have joined : host = joinDots texts := joined
  have parts : texts.flatMap splitDots = splitDots host := by
    cases texts with
    | nil =>
        have root : "" ∈ splitDots host := by
          rw [joined]
          decide
        exact absurd rfl (named "" root)
    | cons text texts => rw [joined, splitDots_joinDots (List.cons_ne_nil _ _)]
  rw [newQuery_wire named] at name stop
  refine short_of_nameAt _ _ _ texts q j (parts_whole named) name ?_ parts
  simp only [List.length_append, List.length_cons, List.length_nil] at stop ⊢
  omega

/-- **An internal query asks for its host exactly when no label of the host is as long as a
pointer octet.** -/
theorem asksFor_iff (named : ∀ l ∈ splitDots host, l ≠ "") :
    AsksFor id host ↔ ∀ l ∈ splitDots host, (utf8 l).length < 192 :=
  ⟨short_of_asksFor named, asksFor_of_short named⟩

end Query

theorem splitDots_letters (n : Nat) : splitDots (letters n) = [letters n] :=
  splitDots_of_label (dotFree_letters n)

theorem named_letters {n : Nat} (positive : 0 < n) : ∀ l ∈ splitDots (letters n), l ≠ "" := by
  rw [splitDots_letters]
  exact List.forall_mem_singleton.mpr (letters_nonempty positive)

theorem asksFor_iff_letters :
    AsksFor 0x1234 (letters 191) ↔ ∀ l ∈ splitDots (letters 191), (utf8 l).length < 192 :=
  asksFor_iff (named_letters (by decide))

/-- The length octet of a label of 192 octets is that of a pointer. -/
theorem letters_not_asked : (∀ l ∈ splitDots (letters 192), l ≠ "") ∧
    ¬ AsksFor 0x1234 (letters 192) := by
  have named := named_letters (n := 192) (by decide)
  refine ⟨named, fun asks => ?_⟩
  have short := short_of_asksFor named asks (letters 192) (by simp [splitDots_letters])
  rw [length_utf8_letters] at short
  exact absurd short (by decide)

end DnsLigase.Dns
