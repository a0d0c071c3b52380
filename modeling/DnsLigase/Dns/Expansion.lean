/-
# Dns.Expansion — how long the names of an accepted packet can be

The parser follows at most 64 compression pointers and takes every octet below 192 for the
length of a label; it counts neither the octets of a label nor those of a name.
`names_bounded`: all names of an accepted packet are put together from labels of at most 191
octets, and written out in full no name is longer than 65 times the packet, since between two
jumps the octets of a label are spent once.

Poles: packets with labels of 64 and of 128 octets, and one with a name of 321 octets, are
accepted (`illegal_accepted`).
-/
import DnsLigase.Dns.Legal
import DnsLigase.Dns.RoundTrip

namespace DnsLigase.Dns

open DnsLigase.Theory.Cursor DnsLigase.Theory.Io DnsLigase.Theory.Utf8

set_option autoImplicit false

/-! ## Names -/

/-- Each jump, and the part behind the last one, can meet all of the packet once. -/
theorem NameAt.octets_le {b : List UInt8} {p q j : Nat} {labels : List (List UInt8)}
    (name : NameAt b p labels q j) :
    (WireName.mk labels j).octets ≤ (b.length - p) + j * b.length := by
  simp only [WireName.octets]
  induction name with
  | @root p here =>
      have inside := (List.getElem?_eq_some_iff.mp here).1
      simp only [List.map_nil, List.sum_nil]
      omega
  | @label p q j n labels here nonzero short fits _ ih =>
      have length : ((b.drop (p + 1)).take n.toNat).length = n.toNat := by
        rw [List.length_take, List.length_drop]
        omega
      simp only [List.map_cons, List.sum_cons, length]
      omega
  | @pointer p q j high low labels here pointer next target _ ih =>
      rw [Nat.succ_mul]
      omega

/-- A name that stands in `data`: its labels, found with at most 64 jumps. -/
structure StandsIn (data : List UInt8) (name : String) (w : WireName) : Prop where
  at_ : ∃ p q, NameAt data p w.labels q w.jumps
  jumps : w.jumps ≤ maxJumps
  spells : w.Spells name

theorem StandsIn.octets_le {data : List UInt8} {name : String} {w : WireName}
    (stands : StandsIn data name w) : w.octets ≤ 65 * data.length := by
  obtain ⟨p, q, at_⟩ := stands.at_
  have bound := at_.octets_le
  have jumps : w.jumps * data.length ≤ 64 * data.length :=
    Nat.mul_le_mul_right _ stands.jumps
  have whole : (WireName.mk w.labels w.jumps).octets = w.octets := rfl
  omega

theorem StandsIn.label_length {data : List UInt8} {name : String} {w : WireName}
    (stands : StandsIn data name w) : ∀ l ∈ w.labels, 0 < l.length ∧ l.length < 192 := by
  obtain ⟨p, q, at_⟩ := stands.at_
  exact at_.label_length

/-! ## Packets -/

/-- The names that `parse` gives: of questions, of records, and the targets of CNAMEs. -/
def DnsMessage.names (m : DnsMessage) : List String :=
  m.questions.map DnsQuestion.name ++
    (m.answers ++ (m.authorities ++ m.additionals)).flatMap fun rr =>
      rr.name :: rr.cnameTarget.toList

section Packet

variable (data : List UInt8)

def Found (name : String) : Prop := ∃ w, StandsIn data name w

theorem parseName_found : Reader.YieldsIn data parseName (Found data) := by
  intro pos name pos' parsed
  obtain ⟨labels, j, at_, jumps, rfl⟩ := parseName_eq_ok_iff.mp parsed
  exact ⟨⟨labels.map utf8, j⟩, ⟨pos, pos', at_⟩, jumps, labels, rfl, rfl⟩

theorem question_found : Reader.YieldsIn data DnsQuestion.parse fun q => Found data q.name :=
  (parseName_found data).bind fun _ found => .bind_any fun _ => .pure found

theorem target_found (rtype : UInt16) :
    Reader.YieldsIn data (DnsResourceRecord.parseTarget rtype)
      fun o => ∀ t, o = some t → Found data t := by
  unfold DnsResourceRecord.parseTarget
  split
  · exact (parseName_found data).peek
  · exact .pure nofun

theorem record_found : Reader.YieldsIn data DnsResourceRecord.parse
    fun rr => ∀ name ∈ rr.name :: rr.cnameTarget.toList, Found data name :=
  (parseName_found data).bind fun _ owner => .bind_any fun _ =>
    (target_found data _).bind fun _ target => .bind_any fun _ => .pure fun name member => by
      rcases List.mem_cons.mp member with rfl | member
      · exact owner
      · exact target name (Option.mem_toList.mp member)

theorem message_found : Reader.YieldsIn data DnsMessage.parseReader
    fun m => ∀ name ∈ m.names, Found data name :=
  .bind_any fun _ =>
    ((question_found data).many _).bind fun _ questions =>
    ((record_found data).many _).bind fun _ answers =>
    ((record_found data).many _).bind fun _ authorities =>
    ((record_found data).many _).bind fun _ additionals => .pure fun name member => by
      simp only [DnsMessage.names, List.mem_append, List.mem_map, List.mem_flatMap] at member
      rcases member with ⟨q, found, rfl⟩ | ⟨rr, found | found | found, member⟩
      · exact questions.2 q found
      · exact answers.2 rr found name member
      · exact authorities.2 rr found name member
      · exact additionals.2 rr found name member

end Packet

/-- **Every name of an accepted packet comes from labels of at most 191 octets, and is at most
65 times as long as the packet.** -/
theorem names_bounded {data : List UInt8} {m : DnsMessage}
    (parsed : DnsMessage.parse data = .ok m) :
    ∀ name ∈ m.names, ∃ w, StandsIn data name w ∧
      (∀ l ∈ w.labels, 0 < l.length ∧ l.length < 192) ∧ w.octets ≤ 65 * data.length := by
  obtain ⟨pos, read⟩ := DnsMessage.parse_eq_ok.mp parsed
  intro name member
  obtain ⟨w, stands⟩ := message_found data 0 m pos read name member
  exact ⟨w, stands, stands.label_length, stands.octets_le⟩

theorem names_bounded_cnameResponse :
    ∃ w, StandsIn cnameResponse.wire "a.net" w ∧ (∀ l ∈ w.labels, 0 < l.length ∧ l.length < 192) ∧
      w.octets ≤ 65 * cnameResponse.wire.length :=
  names_bounded (parse_canonical cnameResponse_canonical) "a.net" (by decide)

/-! ## Names that RFC 1035 does not know -/

/-- Labels of at most 63 octets spell the name, with at most 255 octets in all. -/
def LegalText (name : String) : Prop :=
  ∃ w : WireName, w.Spells name ∧ (∀ l ∈ w.labels, l.length ≤ 63) ∧ w.octets ≤ 255

theorem joinDots_cons_cons (first second : String) (rest : List String) :
    (joinDots (first :: second :: rest)).toList =
      first.toList ++ '.' :: (joinDots (second :: rest)).toList := by
  simp only [toList_joinDots, List.map_cons, List.intercalate_cons_cons, List.append_assoc]
  rfl

/-- Whatever labels spell a name, they have its octets, a length octet each and the root. -/
theorem WireName.Spells.octets {w : WireName} {name : String} (spells : w.Spells name)
    (named : w.labels ≠ []) : w.octets = (utf8 name).length + 2 := by
  obtain ⟨texts, labels, rfl⟩ := spells
  rw [WireName.octets, labels]
  rw [labels] at named
  clear labels
  induction texts with
  | nil => exact absurd rfl named
  | cons text rest ih =>
      cases rest with
      | nil => simp [joinDots]
      | cons next rest =>
          have ih := ih (List.cons_ne_nil _ _)
          have joined : utf8 (joinDots (text :: next :: rest)) =
              utf8 text ++ 46 :: utf8 (joinDots (next :: rest)) := by
            rw [← String.ofList_toList (s := joinDots (text :: next :: rest)), joinDots_cons_cons,
              utf8_ofList, List.flatMap_append, List.flatMap_cons, ← utf8_ofList, ← utf8_ofList,
              String.ofList_toList, String.ofList_toList]
            rfl
          rw [joined]
          simp only [List.map_cons, List.sum_cons, List.length_append, List.length_cons] at ih ⊢
          omega

/-- A name without a dot is one label. -/
theorem WireName.Spells.single {w : WireName} {name : String} (spells : w.Spells name)
    (nonempty : name ≠ "") (dotFree : '.' ∉ name.toList) : w.labels = [utf8 name] := by
  obtain ⟨texts, labels, rfl⟩ := spells
  cases texts with
  | nil => exact absurd rfl nonempty
  | cons text rest =>
      cases rest with
      | nil => simp [labels, joinDots]
      | cons next rest =>
          rw [joinDots_cons_cons] at dotFree
          exact absurd (List.mem_append_right _ List.mem_cons_self) dotFree

theorem not_legal_of_label {name : String} (dotFree : '.' ∉ name.toList)
    (long : 63 < (utf8 name).length) : ¬ LegalText name := by
  rintro ⟨w, spells, short, -⟩
  have nonempty : name ≠ "" := by
    rintro rfl
    exact absurd long (by decide)
  have label := short (utf8 name) (by rw [spells.single nonempty dotFree]; exact List.mem_cons_self)
  omega

theorem not_legal_of_length {name : String} (long : 253 < (utf8 name).length) :
    ¬ LegalText name := by
  rintro ⟨w, spells, -, fits⟩
  have named : w.labels ≠ [] := by
    rintro none_
    obtain ⟨texts, labels, rfl⟩ := spells
    rw [none_] at labels
    rw [List.map_eq_nil_iff.mp labels.symm] at long
    exact absurd long (by decide)
  have octets := spells.octets named
  omega

/-- `n` times the letter `a`, as a label. -/
def letters (n : Nat) : String := String.ofList (List.replicate n 'a')

theorem length_utf8_letters (n : Nat) : (utf8 (letters n)).length = n := by
  have one : (String.utf8EncodeChar 'a').length = 1 := by decide
  rw [letters, utf8_ofList, List.length_flatMap, List.map_replicate, one, List.sum_replicate_nat,
    Nat.mul_one]

theorem dotFree_letters (n : Nat) : '.' ∉ (letters n).toList := by
  intro member
  rw [letters, String.toList_ofList] at member
  exact absurd (List.eq_of_mem_replicate member) (by decide)

theorem letters_nonempty {n : Nat} (positive : 0 < n) : letters n ≠ "" := by
  intro empty
  have length := length_utf8_letters n
  rw [empty] at length
  exact absurd length (Nat.ne_of_lt positive)

def letterLabel (n : Nat) (positive : 0 < n) (short : n < 192) : Label where
  text := letters n
  nonempty := letters_nonempty positive
  dotFree := dotFree_letters n
  short := by rwa [length_utf8_letters]

/-- A query for any proper name is accepted. -/
theorem parse_newQuery {name : String} (proper : ProperName name) :
    DnsMessage.parse (DnsMessage.newQuery 0x1234 name 1).wire =
      .ok (DnsMessage.newQuery 0x1234 name 1) :=
  parse_canonical
    { counted := ⟨rfl, rfl, rfl⟩
      arcount := rfl
      questions := List.forall_mem_singleton.mpr proper
      records := by simp [DnsMessage.newQuery]
      ednsDo := by simp [DnsMessage.newQuery] }

/-- Five labels of 63 octets. -/
def longName : String := joinDots (List.replicate 5 (letters 63))

theorem longName_length : (utf8 longName).length = 319 := by
  have spells : WireName.Spells ⟨(List.replicate 5 (letters 63)).map utf8, 0⟩ longName :=
    ⟨_, rfl, rfl⟩
  have octets := spells.octets (by simp)
  simp only [WireName.octets, List.map_replicate, length_utf8_letters, List.sum_replicate_nat]
    at octets
  omega

/-- Length octets with the reserved type bits 01 and 10 are accepted, and so is a name of five
labels of 63 octets. -/
theorem illegal_accepted :
    (∃ m, DnsMessage.parse (DnsMessage.newQuery 0x1234 (letters 64) 1).wire = .ok m ∧
      ∃ name ∈ m.names, ¬ LegalText name) ∧
    (∃ m, DnsMessage.parse (DnsMessage.newQuery 0x1234 (letters 128) 1).wire = .ok m ∧
      ∃ name ∈ m.names, ¬ LegalText name) ∧
    (∃ m, DnsMessage.parse (DnsMessage.newQuery 0x1234 longName 1).wire = .ok m ∧
      ∃ name ∈ m.names, ¬ LegalText name) := by
  have accepted : ∀ {name : String}, ProperName name → ¬ LegalText name →
      ∃ m, DnsMessage.parse (DnsMessage.newQuery 0x1234 name 1).wire = .ok m ∧
        ∃ name ∈ m.names, ¬ LegalText name := fun proper illegal =>
    ⟨_, parse_newQuery proper, _, List.mem_cons_self, illegal⟩
  refine ⟨accepted ⟨[letterLabel 64 (by decide) (by decide)], by simp [joinDots, letterLabel]⟩ ?_,
    accepted ⟨[letterLabel 128 (by decide) (by decide)], by simp [joinDots, letterLabel]⟩ ?_,
    accepted ⟨List.replicate 5 (letterLabel 63 (by decide) (by decide)), ?_⟩ ?_⟩
  · exact not_legal_of_label (dotFree_letters 64) (by rw [length_utf8_letters]; decide)
  · exact not_legal_of_label (dotFree_letters 128) (by rw [length_utf8_letters]; decide)
  · rw [List.map_replicate]
    rfl
  · exact not_legal_of_length (by rw [longName_length]; decide)

end DnsLigase.Dns
