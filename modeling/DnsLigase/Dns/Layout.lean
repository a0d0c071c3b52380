/-
# Dns.Layout — where the octets of a packet go when it is encoded anew

The serializer writes out the names of questions and records, and copies whatever stands behind
them.  So an octet behind a name goes wherever the names in front of it leave room for it
(`Goes`), and a target is found again if each octet that is looked at for it has gone to where it
is looked for (`Settled`): up to the first compression pointer along with its own rdata, from then
on nowhere.  From the start of a label in a name that is written out on, it is enough that the
rest of that name has not moved (`Place.Enters`).

`settled_reencodes`: a packet whose names are whole and whose targets are settled comes back as the
same message.  The condition is on the layout of the packet, and leaves out only packets where an
octet that is looked at is not where it is looked for any more.  What has come to stand there may
happen to spell the same name (`twice`), or none where none was read, so the other direction fails;
`reencodes_iff` is exact, but has to read the names off the written message.
-/
import DnsLigase.Dns.Reencode

namespace DnsLigase.Dns

open DnsLigase.Theory
open DnsLigase.Theory.Bytes DnsLigase.Theory.Cursor DnsLigase.Theory.Io DnsLigase.Theory.Utf8

set_option autoImplicit false

/-! ## What `parse_name` looks at -/

/-- How many octets an iteration looks at, from its position on. -/
def looks (b : List UInt8) (p : Nat) : Nat :=
  match b[p]? with
  | some n => if 192 ≤ n.toNat then 2 else n.toNat + 1
  | none => 1

/-- Where the pointer at `p` leads, if there is one. -/
def leadsTo (b : List UInt8) (p : Nat) : Option Nat :=
  match b[p]?, b[p + 1]? with
  | some high, some low => if 192 ≤ high.toNat then some (pointerTarget high low) else none
  | _, _ => none

/-- An iteration at `p` of `b` sees the same as one at `p'` of `w`. -/
structure Alike (b w : List UInt8) (p p' : Nat) : Prop where
  octets : ∀ i < looks b p, b[p + i]? = w[p' + i]?
  leads : ∀ o, leadsTo b p = some o → (o < b.length ↔ o < w.length)

namespace Alike

variable {b w : List UInt8} {p p' : Nat} {n high low : UInt8}

theorem head (alike : Alike b w p p') : b[p]? = w[p']? := by
  refine alike.octets 0 ?_
  unfold looks
  split
  · split <;> omega
  · omega

theorem looks_eq (alike : Alike b w p p') : looks b p = looks w p' := by
  rw [looks, looks, alike.head]

/-- The second octet of a pointer is looked at. -/
theorem next (alike : Alike b w p p') (here : b[p]? = some high) (pointer : 192 ≤ high.toNat) :
    b[p + 1]? = w[p' + 1]? := by
  refine alike.octets 1 ?_
  simp [looks, here, pointer]

theorem leadsTo_eq (alike : Alike b w p p') : leadsTo b p = leadsTo w p' := by
  unfold leadsTo
  rw [← alike.head]
  cases here : b[p]? with
  | none => rfl
  | some high =>
      by_cases pointer : 192 ≤ high.toNat
      · rw [alike.next here pointer]
      · cases b[p + 1]? <;> cases w[p' + 1]? <;> simp [pointer]

theorem symm (alike : Alike b w p p') : Alike w b p' p where
  octets i inside := (alike.octets i (alike.looks_eq ▸ inside)).symm
  leads o leads := (alike.leads o (alike.leadsTo_eq ▸ leads)).symm

/-- The octets of a label are looked at. -/
theorem text (alike : Alike b w p p') (here : b[p]? = some n) (short : n.toNat < 192) {i : Nat}
    (inside : i < n.toNat) : b[p + 1 + i]? = w[p' + 1 + i]? := by
  have within : 1 + i < looks b p := by
    simp only [looks, here, Nat.not_le.mpr short, if_false]
    omega
  rw [Nat.add_assoc, Nat.add_assoc]
  exact alike.octets (1 + i) within

theorem slice_eq (alike : Alike b w p p') (here : b[p]? = some n) (short : n.toNat < 192) :
    (b.drop (p + 1)).take n.toNat = (w.drop (p' + 1)).take n.toNat := by
  refine List.ext_getElem? fun i => ?_
  rw [List.getElem?_take, List.getElem?_take]
  split
  · rename_i inside
    rw [List.getElem?_drop, List.getElem?_drop, alike.text here short inside]
  · rfl

theorem fits (alike : Alike b w p p') (here : b[p]? = some n) (nonzero : n ≠ 0)
    (short : n.toNat < 192) (fits : p + 1 + n.toNat ≤ b.length) : p' + 1 + n.toNat ≤ w.length := by
  have positive : n.toNat ≠ 0 := fun zero => nonzero (UInt8.toNat_inj.mp zero)
  have last := alike.text here short (i := n.toNat - 1) (by omega)
  rw [List.getElem?_eq_getElem (by omega)] at last
  have inside := (List.getElem?_eq_some_iff.mp last.symm).1
  omega

theorem target (alike : Alike b w p p') (here : b[p]? = some high) (pointer : 192 ≤ high.toNat)
    (next : b[p + 1]? = some low) (inside : pointerTarget high low < b.length) :
    pointerTarget high low < w.length := by
  refine (alike.leads _ ?_).mp inside
  simp [leadsTo, here, next, pointer]

end Alike

/-! ## One iteration -/

/-- Where the octet at `v` is looked for when a name that was read from `r` on is read from `r'`
on, before the first pointer and behind it. -/
def soughtAt (r r' : Nat) : Bool → Nat → Nat
  | false, v => v + r' - r
  | true, v => v

/-- `s'` is `s` in the other reading. -/
structure Beside (r r' : Nat) (s s' : NameState) : Prop where
  labels : s'.labels = s.labels
  jumps : s'.jumps = s.jumps
  few : s.jumps ≤ maxJumps
  jumped : s'.jumped = s.jumped
  behind : s.jumped = false → r ≤ s.pos
  pos : s'.pos = soughtAt r r' s.jumped s.pos

/-- The same name, or none. -/
def SameName (a a' : Except IoError (String × Nat)) : Prop :=
  a.toOption.map Prod.fst = a'.toOption.map Prod.fst

section Iteration

variable {b w : List UInt8} {r r' : Nat} {s s' t : NameState}

theorem Beside.label (beside : Beside r r' s s') (n : Nat) (text : String) :
    Beside r r' (s.label n text) (s'.label n text) := by
  obtain ⟨labels, jumps, few, jumped, behind, pos⟩ := beside
  refine ⟨by simp [NameState.label, labels], jumps, few, jumped, fun still => ?_, ?_⟩
  · have started := behind still
    simp only [NameState.label]
    omega
  · show s'.pos + 1 + n = soughtAt r r' s.jumped (s.pos + 1 + n)
    rw [pos]
    cases away : s.jumped with
    | true => rfl
    | false =>
        have started := behind away
        simp only [soughtAt]
        omega

theorem Beside.jump (beside : Beside r r' s s') (room : s.jumps < maxJumps) (o : Nat) :
    Beside r r' (s.jump o) (s'.jump o) where
  labels := beside.labels
  jumps := by simp [NameState.jump, beside.jumps]
  few := room
  jumped := rfl
  behind := nofun
  pos := rfl

/-- Where one reading goes on, so does the other. -/
theorem continues_of_alike (jumps : s'.jumps = s.jumps) (alike : Alike b w s.pos s'.pos)
    (continued : nameBody b s = .inl t) :
    (∃ n text, t = s.label n text ∧ nameBody w s' = .inl (s'.label n text)) ∨
      ∃ o, t = s.jump o ∧ s.jumps < maxJumps ∧ nameBody w s' = .inl (s'.jump o) := by
  rcases nameBody_eq_inl.mp continued with
    ⟨n, text, here, nonzero, short, fits, decoded, rfl⟩ |
    ⟨high, low, here, pointer, next, target, room, rfl⟩
  · refine .inl ⟨n.toNat, text, rfl, nameBody_eq_inl.mpr (.inl ⟨n, text, alike.head ▸ here, nonzero,
      short, alike.fits here nonzero short fits, ?_, rfl⟩)⟩
    rw [← alike.slice_eq here short, decoded]
  · exact .inr ⟨_, rfl, room, nameBody_eq_inl.mpr (.inr ⟨high, low, alike.head ▸ here, pointer,
      alike.next here pointer ▸ next, alike.target here pointer next target, jumps ▸ room, rfl⟩)⟩

theorem breaks_of_alike (alike : Alike b w s.pos s'.pos) {out : String × Nat}
    (broke : nameBody b s = .inr (.ok out)) :
    out.1 = joinDots s.labels ∧ ∃ e, nameBody w s' = .inr (.ok (joinDots s'.labels, e)) := by
  obtain ⟨here, rfl⟩ := nameBody_eq_ok.mp broke
  exact ⟨rfl, _, nameBody_eq_ok.mpr ⟨alike.head ▸ here, rfl⟩⟩

/-- **Iterations that see the same do the same.** -/
theorem nameBody_alike (beside : Beside r r' s s') (alike : Alike b w s.pos s'.pos) :
    Sum.LiftRel (Beside r r') SameName (nameBody b s) (nameBody w s') := by
  cases turn : nameBody b s with
  | inl t =>
      rcases continues_of_alike beside.jumps alike turn with
        ⟨n, text, rfl, turn'⟩ | ⟨o, rfl, room, turn'⟩
      · rw [turn']
        exact .inl (beside.label n text)
      · rw [turn']
        exact .inl (beside.jump room o)
  | inr a =>
      cases a with
      | ok out =>
          obtain ⟨same, e, turn'⟩ := breaks_of_alike alike turn
          rw [turn', beside.labels]
          exact .inr (congrArg some same)
      | error e =>
          -- if the other reading went on, or ended well, so would this one
          cases turn' : nameBody w s' with
          | inl t' =>
              rcases continues_of_alike beside.jumps.symm alike.symm turn' with
                ⟨n, text, -, turn''⟩ | ⟨o, -, -, turn''⟩
              · cases turn.symm.trans turn''
              · cases turn.symm.trans turn''
          | inr a' =>
              cases a' with
              | ok out' =>
                  obtain ⟨-, e', turn''⟩ := breaks_of_alike alike.symm turn'
                  cases turn.symm.trans turn''
              | error e' => exact .inr rfl

end Iteration

/-! ## The parts of a packet -/

/-- A question or a record: its name, the octets that are copied behind it, and the target if it
is a CNAME. -/
structure Part where
  name : String
  tail : List UInt8
  target : Option (Option String)

def Part.wire (part : Part) : List UInt8 := serializeName part.name ++ part.tail

def DnsQuestion.part (q : DnsQuestion) : Part :=
  ⟨q.name, beBytes16 q.qtype ++ beBytes16 q.qclass, none⟩

def DnsResourceRecord.part (rr : DnsResourceRecord) : Part :=
  ⟨rr.name, rr.metaWire ++ rr.rdata, if rr.rtype = 5 then some rr.cnameTarget else none⟩

def DnsMessage.parts (m : DnsMessage) : List Part :=
  m.questions.map DnsQuestion.part ++
    (m.answers ++ (m.authorities ++ m.additionals)).map DnsResourceRecord.part

/-- A part in the packet, from `offset` on and with its name up to `behind`, and the offset where
it is written. -/
structure Place where
  offset : Nat
  behind : Nat
  written : Nat
  part : Part

/-- The end of the name at `p`. -/
def nameEnd (data : List UInt8) (p : Nat) : Nat :=
  match parseName data p with
  | .ok (_, e) => e
  | .error _ => p

/-- The parts one behind the other, from `p` on in the packet and written from `p'` on. -/
def placesFrom (data : List UInt8) : Nat → Nat → List Part → List Place
  | _, _, [] => []
  | p, p', part :: rest =>
      ⟨p, nameEnd data p, p', part⟩ ::
        placesFrom data (nameEnd data p + part.tail.length) (p' + part.wire.length) rest

/-- The parts behind the header, which has 12 octets. -/
def DnsMessage.places (m : DnsMessage) (data : List UInt8) : List Place :=
  placesFrom data 12 12 m.parts

/-- How long the written message is. -/
def DnsMessage.writtenLength (m : DnsMessage) : Nat := 12 + (m.parts.flatMap Part.wire).length

namespace Place

/-- The rdata of a record, behind type, class, TTL and length. -/
def rdata (x : Place) : Nat := x.behind + 10

def rdataWritten (x : Place) : Nat := x.written + (serializeName x.part.name).length + 10

/-- Octet `v` of the packet goes to `v'`: as one of those that are copied behind the name, or as
one that the written name has in the same place. -/
def Goes (data : List UInt8) (x : Place) (v v' : Nat) : Prop :=
  (x.behind ≤ v ∧ v < x.behind + x.part.tail.length ∧
    v' + x.behind = v + (x.written + (serializeName x.part.name).length)) ∨
  (x.offset ≤ v ∧ v < x.behind ∧ v' + x.offset = v + x.written ∧
    data[v]? = (serializeName x.part.name)[v - x.offset]?)

/-- What is left of the written name at `v'` is the name that is read at `v`. -/
def Enters (data : List UInt8) (x : Place) (v v' : Nat) : Prop :=
  x.offset ≤ v ∧ v' + x.offset = v + x.written ∧
    (parseName data v).toOption.any fun out => dropEmpty out.1 = out.1 ∧
      (serializeName x.part.name).drop (v - x.offset) = serializeName out.1

instance (data : List UInt8) (x : Place) (v v' : Nat) : Decidable (x.Goes data v v') :=
  inferInstanceAs (Decidable (_ ∨ _))

instance (data : List UInt8) (x : Place) (v v' : Nat) : Decidable (x.Enters data v v') :=
  inferInstanceAs (Decidable (_ ∧ _))

end Place

namespace DnsMessage

variable (m : DnsMessage) (data : List UInt8)

/-- Octet `v` of the packet goes to `v'` when the message is written, or both have ended there. -/
def Goes (v v' : Nat) : Prop :=
  (v < 12 ∧ v' = v) ∨ (∃ x ∈ m.places data, x.Goes data v v') ∨
    (data.length ≤ v ∧ m.writtenLength ≤ v')

instance (v v' : Nat) : Decidable (m.Goes data v v') := inferInstanceAs (Decidable (_ ∨ _))

/-- The target of the CNAME at `x` has been read as far as a written name that has it, too. -/
def Arrives (x : Place) (s : NameState) : Prop :=
  x.part.target.any Option.isSome ∧
    ∃ y ∈ m.places data, y.Enters data s.pos (soughtAt x.rdata x.rdataWritten s.jumped s.pos)

instance (x : Place) : DecidablePred (m.Arrives data x) := fun _ =>
  inferInstanceAs (Decidable (_ ∧ _))

/-- Each octet that an iteration looks at goes to where it is looked for, and a pointer that leads
out of the packet leads out of the written message. -/
def Follows (x : Place) (s : NameState) : Prop :=
  (∀ i < looks data s.pos,
    m.Goes data (s.pos + i) (soughtAt x.rdata x.rdataWritten s.jumped (s.pos + i))) ∧
  ∀ o ∈ leadsTo data s.pos, (o < data.length ↔ o < m.writtenLength)

instance (x : Place) (s : NameState) : Decidable (m.Follows data x s) :=
  inferInstanceAs (Decidable (_ ∧ _))

/-- Whatever is looked at for the target of the CNAME at `x` goes to where it is looked for. -/
def Settled (x : Place) : Prop :=
  ∀ s ∈ Loop.trace (nameBody data) (m.Arrives data x) (nameFuel data) (NameState.start x.rdata),
    m.Arrives data x s ∨ m.Follows data x s

instance (x : Place) : Decidable (m.Settled data x) := inferInstanceAs (Decidable (∀ _ ∈ _, _))

end DnsMessage

/-! ## What stands where -/

/-- From `p` to `p'` of the packet stands the part. -/
def PartAt (data : List UInt8) (p : Nat) (part : Part) (p' : Nat) : Prop :=
  ∃ e, parseName data p = .ok (part.name, e) ∧ Reader.StandsAt data e part.tail ∧
    p' = e + part.tail.length ∧
    ∀ t, part.target = some t → (parseName data (e + 10)).toOption.map Prod.fst = t

section Parts

variable {data : List UInt8} {p p' : Nat}

theorem partAt_question {q : DnsQuestion} (read : DnsQuestion.parse data p = .ok (q, p')) :
    PartAt data p q.part p' := by
  obtain ⟨name, e, named, read⟩ := Reader.bind_eq_ok.mp read
  obtain ⟨buf, e', fixed, read⟩ := Reader.bind_eq_ok.mp read
  obtain ⟨rfl, rfl⟩ := Reader.pure_eq_ok.mp read
  obtain ⟨enough, rfl, rfl⟩ := Reader.readExact_eq_ok.mp fixed
  have four : ((data.drop e).take 4).length = 4 := by
    rw [List.length_take, List.length_drop]
    omega
  have stands : Reader.StandsAt data e ((data.drop e).take 4) := .slice (by omega)
  refine ⟨e, named, ?_, rfl, nofun⟩
  have words : beBytes16 (be16 ((data.drop e).take 4) 0) ++
      beBytes16 (be16 ((data.drop e).take 4) 2) = (data.drop e).take 4 := by
    rw [beBytes16_be16 (by omega), beBytes16_be16 (by omega), List.drop_zero, ← List.take_add,
      List.take_of_length_le (Nat.le_of_eq four)]
  rw [DnsQuestion.part, words]
  exact stands

theorem take_append_take (buf : List UInt8) (i j k : Nat) :
    (buf.drop i).take j ++ (buf.drop (i + j)).take k = (buf.drop i).take (j + k) := by
  rw [List.take_add, List.drop_drop]

/-- The fixed fields of a record are written as they were read. -/
theorem metaWire_eq {buf rdata : List UInt8} (ten : buf.length = 10)
    (length : rdata.length = (be16 buf 8).toNat) (name : String) (target : Option String) :
    DnsResourceRecord.metaWire ⟨name, be16 buf 0, be16 buf 2, be32 buf 4, rdata, target⟩ = buf := by
  have counted : UInt16.ofNat rdata.length = be16 buf 8 := by
    rw [length, UInt16.ofNat_toNat]
  rw [DnsResourceRecord.metaWire, counted, beBytes16_be16 (by omega), beBytes16_be16 (by omega),
    beBytes32_be32 (by omega), beBytes16_be16 (by omega), List.drop_zero]
  rw [take_append_take buf 4 4 2, take_append_take buf 2 2 6, ← List.take_add,
    List.take_of_length_le (Nat.le_of_eq ten)]

theorem partAt_record {rr : DnsResourceRecord}
    (read : DnsResourceRecord.parse data p = .ok (rr, p')) : PartAt data p rr.part p' := by
  obtain ⟨name, e, named, read⟩ := Reader.bind_eq_ok.mp read
  obtain ⟨buf, e', fixed, read⟩ := Reader.bind_eq_ok.mp read
  obtain ⟨enough, rfl, rfl⟩ := Reader.readExact_eq_ok.mp fixed
  obtain ⟨target, e', aside, read⟩ := Reader.bind_eq_ok.mp read
  rw [parseTarget_eq, Except.ok.injEq, Prod.mk.injEq] at aside
  obtain ⟨rfl, rfl⟩ := aside
  obtain ⟨rdata, e', copied, read⟩ := Reader.bind_eq_ok.mp read
  obtain ⟨rfl, rfl⟩ := Reader.pure_eq_ok.mp read
  obtain ⟨inside, rfl, rfl⟩ := Reader.readExact_eq_ok.mp copied
  have ten : ((data.drop e).take 10).length = 10 := by
    rw [List.length_take, List.length_drop]
    omega
  generalize counted : (be16 ((data.drop e).take 10) 8).toNat = n at inside
  have length : ((data.drop (e + 10)).take n).length = n := by
    rw [List.length_take, List.length_drop]
    omega
  have stands : Reader.StandsAt data e ((data.drop e).take (10 + n)) := .slice (by omega)
  rw [List.take_add, List.drop_drop] at stands
  have fields := metaWire_eq ten (length.trans counted.symm)
  refine ⟨e, named, ?_, ?_, ?_⟩
  · rw [DnsResourceRecord.part, fields]
    exact stands
  · rw [DnsResourceRecord.part, fields, List.length_append, ten, length]
    omega
  · intro t known
    obtain ⟨cname, same⟩ := Option.ite_none_right_eq_some.mp known
    rw [targetAt, if_pos cname] at same
    exact Option.some.inj same

/-- The header is written as it was read. -/
theorem header_stands {header : DnsHeader} {e : Nat}
    (read : DnsHeader.parse data 0 = .ok (header, e)) :
    e = 12 ∧ Reader.StandsAt data 0 header.wire := by
  obtain ⟨buf, e', fixed, read⟩ := Reader.bind_eq_ok.mp read
  obtain ⟨rfl, rfl⟩ := Reader.pure_eq_ok.mp read
  obtain ⟨enough, rfl, rfl⟩ := Reader.readExact_eq_ok.mp fixed
  have twelve : ((data.drop 0).take 12).length = 12 := by
    rw [List.length_take, List.length_drop]
    omega
  have stands : Reader.StandsAt data 0 ((data.drop 0).take 12) := .slice (by omega)
  generalize (data.drop 0).take 12 = buf at twelve stands ⊢
  refine ⟨rfl, ?_⟩
  have whole : buf = buf.take 2 ++ ((buf.drop 2).take 2 ++ ((buf.drop 4).take 2 ++
      ((buf.drop 6).take 2 ++ ((buf.drop 8).take 2 ++ (buf.drop 10).take 2)))) := by
    rw [take_append_take buf 8 2 2, take_append_take buf 6 2 4, take_append_take buf 4 2 6,
      take_append_take buf 2 2 8, ← List.take_add, List.take_of_length_le (Nat.le_of_eq twelve)]
  rw [DnsHeader.wire]
  simp (disch := omega) only [beBytes16_be16, List.drop_zero]
  rw [← whole]
  exact stands

theorem parts_read {m : DnsMessage} (parsed : DnsMessage.parse data = .ok m) :
    Reader.StandsAt data 0 m.header.wire ∧ ∃ pos, Reader.Chain (PartAt data) 12 m.parts pos := by
  obtain ⟨pos, read⟩ := DnsMessage.parse_eq_ok.mp parsed
  obtain ⟨e₀, e₁, e₂, e₃, header, questions, answers, authorities, additionals⟩ :=
    DnsMessage.sections_of_parseReader read
  obtain ⟨rfl, stands⟩ := header_stands header
  have asked := (Reader.many_eq_ok.mp questions).2
  have records := (Reader.many_eq_ok.mp answers).2.append
    ((Reader.many_eq_ok.mp authorities).2.append (Reader.many_eq_ok.mp additionals).2)
  exact ⟨stands, pos, (asked.map fun _ _ _ => partAt_question).append
    (records.map fun _ _ _ => partAt_record)⟩

end Parts

theorem wire_eq_parts (m : DnsMessage) :
    m.wire = m.wireHeader.wire ++ m.parts.flatMap Part.wire := by
  rw [DnsMessage.parts, List.flatMap_append, List.flatMap_map, List.flatMap_map,
    List.flatMap_append, List.flatMap_append]
  rfl

theorem length_written (m : DnsMessage) : m.wire.length = m.writtenLength := by
  rw [wire_eq_parts, List.length_append]
  rfl

/-- What is known of a part: what stands in the packet and in the written message `w`. -/
structure Place.Sound (data w : List UInt8) (x : Place) : Prop where
  named : parseName data x.offset = .ok (x.part.name, x.behind)
  copied : Reader.StandsAt data x.behind x.part.tail
  wrote : Reader.StandsAt w x.written x.part.wire
  target : ∀ t, x.part.target = some t → (parseName data x.rdata).toOption.map Prod.fst = t

theorem placesFrom_sound {data w : List UInt8} {p p' pos : Nat} {parts : List Part}
    (chain : Reader.Chain (PartAt data) p parts pos)
    (wrote : Reader.StandsAt w p' (parts.flatMap Part.wire)) :
    ∀ x ∈ placesFrom data p p' parts, x.Sound data w := by
  induction chain generalizing p' with
  | nil => exact fun x member => nomatch member
  | @cons p mid _ part rest head _ ih =>
      obtain ⟨e, named, copied, rfl, target⟩ := head
      have ended : nameEnd data p = e := by rw [nameEnd, named]
      rw [placesFrom, ended]
      exact List.forall_mem_cons.mpr ⟨⟨named, copied, wrote.left, target⟩, ih wrote.right⟩

theorem places_sound {data : List UInt8} {m : DnsMessage}
    (parsed : DnsMessage.parse data = .ok m) : ∀ x ∈ m.places data, x.Sound data m.wire := by
  obtain ⟨-, pos, chain⟩ := parts_read parsed
  have whole := Reader.StandsAt.whole m.wire
  rw [wire_eq_parts] at whole
  have behind := whole.right
  rw [← wire_eq_parts] at behind
  exact placesFrom_sound chain behind

/-! ## An octet that goes somewhere is there -/

section Octets

variable {data : List UInt8} {m : DnsMessage}

theorem Place.Sound.bounds {w : List UInt8} {x : Place} (sound : x.Sound data w) :
    x.behind ≤ data.length :=
  (parseName_bounds sound.named).2

theorem Place.Sound.octet {w : List UInt8} {x : Place} (sound : x.Sound data w) {v v' : Nat}
    (goes : x.Goes data v v') : data[v]? = w[v']? := by
  rcases goes with ⟨least, most, moved⟩ | ⟨least, most, moved, same⟩
  · have here := sound.copied.getElem? (i := v - x.behind) (by omega)
    have there := sound.wrote.right.getElem? (i := v - x.behind) (by omega)
    rw [show x.behind + (v - x.behind) = v by omega] at here
    rw [show x.written + (serializeName x.part.name).length + (v - x.behind) = v' by omega] at there
    rw [here, there]
  · have inside : v - x.offset < (serializeName x.part.name).length := by
      have bounds := sound.bounds
      rw [List.getElem?_eq_getElem (by omega)] at same
      exact (List.getElem?_eq_some_iff.mp same.symm).1
    have there := sound.wrote.left.getElem? inside
    rw [show x.written + (v - x.offset) = v' by omega] at there
    rw [same, there]

theorem header_written (parsed : DnsMessage.parse data = .ok m) : m.wireHeader = m.header := by
  have arcount := (parse_decoded parsed).arcount
  rw [DnsMessage.wireHeader, ← arcount, UInt16.ofNat_toNat]

/-- **An octet that goes somewhere is found there.** -/
theorem octet_of_goes (parsed : DnsMessage.parse data = .ok m) {v v' : Nat}
    (goes : m.Goes data v v') : data[v]? = m.wire[v']? := by
  rcases goes with ⟨low, rfl⟩ | ⟨x, member, goes⟩ | ⟨beyond, beyond'⟩
  · have here := (parts_read parsed).1.getElem? (i := v') low
    have whole := Reader.StandsAt.whole m.wire
    rw [wire_eq_parts, header_written parsed] at whole
    have there := whole.left.getElem? (i := v') low
    rw [← header_written parsed, ← wire_eq_parts, header_written parsed] at there
    rw [Nat.zero_add] at here there
    rw [here, there]
  · exact (places_sound parsed x member).octet goes
  · rw [← length_written] at beyond'
    rw [List.getElem?_eq_none beyond, List.getElem?_eq_none beyond']

theorem alike_of_follows (parsed : DnsMessage.parse data = .ok m) {x : Place} {s s' : NameState}
    (beside : Beside x.rdata x.rdataWritten s s') (follows : m.Follows data x s) :
    Alike data m.wire s.pos s'.pos where
  octets i inside := by
    have there : soughtAt x.rdata x.rdataWritten s.jumped (s.pos + i) = s'.pos + i := by
      rw [beside.pos]
      cases away : s.jumped with
      | true => rfl
      | false =>
          have started := beside.behind away
          simp only [soughtAt]
          omega
    rw [← there]
    exact octet_of_goes parsed (follows.1 i inside)
  leads o leads := by
    rw [length_written]
    exact follows.2 o leads

end Octets

/-! ## The rest of a written name -/

theorem joinDots_cons {label : String} {rest : List String} (more : rest ≠ []) :
    (joinDots (label :: rest)).toList = label.toList ++ ('.' :: (joinDots rest).toList) := by
  rw [toList_joinDots, toList_joinDots, List.map_cons,
    List.intercalate_cons_of_ne_nil (by simpa using more), List.append_assoc]
  rfl

/-- What is joined behind other labels counts as one name, unless it is nothing at all. -/
theorem joinDots_append_congr {as bs : List String} (same : joinDots as = joinDots bs)
    (nil : as = [] ↔ bs = []) :
    ∀ labels : List String, joinDots (labels ++ as) = joinDots (labels ++ bs)
  | [] => same
  | label :: labels => by
      have ih := joinDots_append_congr same nil labels
      by_cases empty : labels ++ as = []
      · obtain ⟨rfl, rfl⟩ := List.append_eq_nil_iff.mp empty
        rw [nil.mp rfl]
      · have empty' : labels ++ bs ≠ [] := by
          rw [ne_eq, List.append_eq_nil_iff, ← nil, ← List.append_eq_nil_iff]
          exact empty
        refine String.toList_inj.mp ?_
        rw [List.cons_append, List.cons_append, joinDots_cons empty, joinDots_cons empty', ih]

theorem joinDots_ne_empty {label : String} {rest : List String} (nonempty : label ≠ "") :
    joinDots (label :: rest) ≠ "" := by
  intro empty
  have none_ : (joinDots (label :: rest)).toList = [] := by rw [empty]; rfl
  by_cases more : rest = []
  · subst more
    rw [toList_joinDots, List.map_singleton, List.intercalate_singleton] at none_
    exact nonempty (String.toList_eq_nil_iff.mp none_)
  · rw [joinDots_cons more] at none_
    exact absurd none_ (by simp)

/-- Where a written name stands, any reading that comes there ends with it. -/
theorem ends_of_stands {w : List UInt8} {s : NameState} {name : String} (short : ShortPieces name)
    (few : s.jumps ≤ maxJumps) (stands : Reader.StandsAt w s.pos (serializeName name)) :
    ∃ e, Loop.Ends (nameBody w) s (.ok (joinDots (s.labels ++ pieces name), e)) := by
  obtain ⟨pre, post, rfl, length⟩ := stands
  rw [serializeName_eq] at *
  have there := nameAt_labelBytes (pieces name) pre post fun part member =>
    ⟨(of_mem_pieces member).1, short part member⟩
  exact ⟨_, ends_of_nameAt there s _ length rfl few⟩

/-- The rest of a written name stands where that name does. -/
theorem Place.Sound.rest {data w : List UInt8} {y : Place} (sound : y.Sound data w) {v v' : Nat}
    {rest : List UInt8} (least : y.offset ≤ v) (moved : v' + y.offset = v + y.written)
    (nonempty : rest ≠ []) (left : (serializeName y.part.name).drop (v - y.offset) = rest) :
    Reader.StandsAt w v' rest := by
  have written := sound.wrote.left
  have inside : v - y.offset < (serializeName y.part.name).length := by
    refine Nat.lt_of_not_le fun beyond => nonempty ?_
    rw [← left, List.drop_of_length_le beyond]
  rw [← List.take_append_drop (v - y.offset) (serializeName y.part.name), left] at written
  have behind := written.right
  rw [List.length_take, Nat.min_eq_left (Nat.le_of_lt inside)] at behind
  rwa [show y.written + (v - y.offset) = v' by omega] at behind

/-- **Where the rest of a written name is the name that is read, both readings end with it.** -/
theorem ends_of_enters {data w : List UInt8} {y : Place} {s s' : NameState} {out : String × Nat}
    {r r' : Nat} (sound : y.Sound data w) (beside : Beside r r' s s')
    (enters : y.Enters data s.pos s'.pos) (ended : Loop.Ends (nameBody data) s (.ok out)) :
    ∃ e, Loop.Ends (nameBody w) s' (.ok (out.1, e)) := by
  obtain ⟨least, moved, read⟩ := enters
  obtain ⟨⟨name, q⟩, taken, same⟩ := (Option.any_eq_true ..).mp read
  obtain ⟨whole, left⟩ := of_decide_eq_true same
  have parsed : parseName data s.pos = .ok (name, q) := by
    cases known : parseName data s.pos with
    | error e => rw [known] at taken; cases taken
    | ok found => rw [known] at taken; cases taken; rfl
  have stands : Reader.StandsAt w s'.pos (serializeName name) :=
    sound.rest least moved (by rw [serializeName_eq]; simp) left
  obtain ⟨e, ends⟩ := ends_of_stands (parseName_yields _ _ _ _ parsed)
    (beside.jumps ▸ beside.few) stands
  refine ⟨e, ?_⟩
  -- the labels that are still to come are those of the name that is read here
  obtain ⟨fuel, reached⟩ := ended
  obtain ⟨texts, q', j, standing, -, rfl⟩ := nameAt_of_run fuel s out beside.few reached
  obtain ⟨labels, j', standing', -, rfl⟩ := parseName_eq_ok_iff.mp parsed
  obtain rfl := List.map_injective_iff.mpr (fun _ _ => utf8_injective)
    (standing.unique standing').1
  have nil : texts = [] ↔ pieces (joinDots texts) = [] := by
    refine ⟨fun none_ => by rw [none_]; rfl, fun none_ => ?_⟩
    cases texts with
    | nil => rfl
    | cons label rest =>
        have nonempty : label ≠ "" := by
          rintro rfl
          have long := (standing.label_length _ (List.mem_map_of_mem List.mem_cons_self)).1
          exact absurd long (by decide)
        rw [dropEmpty, none_] at whole
        exact absurd whole.symm (joinDots_ne_empty nonempty)
  rw [beside.labels, ← joinDots_append_congr whole.symm nil] at ends
  exact ends

/-! ## A packet whose targets are settled -/

theorem placesFrom_written {data : List UInt8} : ∀ {p p' : Nat} {parts : List Part},
    (placesFrom data p p' parts).map (fun x => (x.written, x.part)) =
      Reader.placed Part.wire p' parts
  | _, _, [] => rfl
  | _, _, _ :: _ => by rw [placesFrom, List.map_cons, placesFrom_written, Reader.placed]

/-- Each record has its place. -/
theorem exists_place (data : List UInt8) {m : DnsMessage} {x : Nat × DnsResourceRecord}
    (placed : x ∈ m.placedRecords) :
    ∃ y ∈ m.places data, y.written = x.1 ∧ y.part = x.2.part := by
  have written : (m.places data).map (fun y => (y.written, y.part)) =
      Reader.placed Part.wire 12 m.parts := placesFrom_written
  have member : (x.1, x.2.part) ∈ Reader.placed Part.wire 12 m.parts := by
    rw [DnsMessage.parts, Reader.placed_append, Reader.placed_map, Reader.placed_map]
    refine List.mem_append_right _ (List.mem_map.mpr ⟨x, ?_, rfl⟩)
    rw [List.flatMap_map]
    exact placed
  rw [← written] at member
  obtain ⟨y, found, same⟩ := List.mem_map.mp member
  exact ⟨y, found, congrArg Prod.fst same, congrArg Prod.snd same⟩

/-- Where the target is settled, the rdata of the written record begin with the same name. -/
theorem sameName_of_settled {data : List UInt8} {m : DnsMessage} {x : Place}
    (parsed : DnsMessage.parse data = .ok m) (member : x ∈ m.places data)
    (settled : m.Settled data x) :
    SameName (parseName data x.rdata) (parseName m.wire x.rdataWritten) := by
  have sound := places_sound parsed
  have start : Beside x.rdata x.rdataWritten (NameState.start x.rdata)
      (NameState.start x.rdataWritten) :=
    ⟨rfl, rfl, Nat.zero_le _, rfl, fun _ => Nat.le_refl _,
      (Nat.add_sub_cancel_left x.rdata x.rdataWritten).symm⟩
  have turns : ∀ s ∈ Loop.trace (nameBody data) (m.Arrives data x) (nameFuel data)
      (NameState.start x.rdata), ∀ s', Beside x.rdata x.rdataWritten s s' → ¬ m.Arrives data x s →
      Sum.LiftRel (Beside x.rdata x.rdataWritten) SameName (nameBody data s)
        (nameBody m.wire s') := by
    intro s seen s' beside going
    exact nameBody_alike beside
      (alike_of_follows parsed beside ((settled s seen).resolve_left going))
  -- where a known name is arrived at, what is left is the rest of that name
  have stops : ∀ s ∈ Loop.trace (nameBody data) (m.Arrives data x) (nameFuel data)
      (NameState.start x.rdata), ∀ s', Beside x.rdata x.rdataWritten s s' → m.Arrives data x s →
      Loop.Ends (nameBody data) s (parseName data x.rdata) →
      ∃ r', Loop.Ends (nameBody m.wire) s' r' ∧ SameName (parseName data x.rdata) r' := by
    intro s _ s' beside arrived ended
    obtain ⟨known, y, found, enters⟩ := arrived
    obtain ⟨t, target, named⟩ := (Option.any_eq_true ..).mp known
    obtain ⟨name, rfl⟩ := Option.isSome_iff_exists.mp named
    have read := (sound x member).target _ target
    obtain ⟨out, taken, -⟩ := Option.map_eq_some_iff.mp read
    have fine : parseName data x.rdata = .ok out := by
      cases ok : parseName data x.rdata with
      | error e => rw [ok] at taken; cases taken
      | ok out' => rw [ok] at taken; cases taken; rfl
    rw [fine] at ended ⊢
    rw [← beside.pos] at enters
    obtain ⟨e, ended'⟩ := ends_of_enters (sound y found) beside enters ended
    exact ⟨_, ended', rfl⟩
  obtain ⟨r', ends, same⟩ := Loop.run_related turns stops start (parseName_run data x.rdata)
  rw [parseName_eq_iff.mpr ends]
  exact same

theorem reencodes_of_settled {data : List UInt8} {m : DnsMessage}
    (parsed : DnsMessage.parse data = .ok m)
    (whole : ∀ part ∈ m.parts, dropEmpty part.name = part.name)
    (settled : ∀ x ∈ m.places data, x.part.target.isSome → m.Settled data x) : Reencodes m where
  questions q member := whole q.part (List.mem_append_left _ (List.mem_map_of_mem member))
  owners rr member := whole rr.part (List.mem_append_right _ (List.mem_map_of_mem member))
  targets x placed cname t := by
    obtain ⟨y, member, written, part⟩ := exists_place data placed
    have target : y.part.target = some x.2.cnameTarget := by
      rw [part, DnsResourceRecord.part, if_pos cname]
    have rdata : y.rdataWritten = x.2.rdataAt x.1 := by
      rw [Place.rdataWritten, written, part]
      rfl
    have same := sameName_of_settled parsed member (settled y member (by rw [target]; rfl))
    rw [spelledAt_iff, ← rdata, ← same, (places_sound parsed y member).target _ target]

/-- **A packet whose names are whole and whose targets are settled comes back as the same
message.** -/
theorem settled_reencodes {data : List UInt8} {m : DnsMessage}
    (parsed : DnsMessage.parse data = .ok m)
    (whole : ∀ part ∈ m.parts, dropEmpty part.name = part.name)
    (settled : ∀ x ∈ m.places data, x.part.target.isSome → m.Settled data x) :
    ∃ bs, m.serialize = .ok bs ∧ DnsMessage.parse bs = .ok m :=
  (reencodes_iff parsed).mpr (reencodes_of_settled parsed whole settled)

/-! ## Two aliases, one behind the other -/

/-- `site.com` is an alias of `ads.net`, and `ads.net` has another one.  The owners are pointers to
the question and to the rdata of the first alias. -/
def aliases (secondRdata : List UInt8) : List UInt8 :=
  [0x12, 0x34, 0x81, 0x80, 0, 1, 0, 2, 0, 0, 0, 0] ++
    ([4, 115, 105, 116, 101, 3, 99, 111, 109, 0] ++ [0, 1, 0, 1]) ++
    ([0xC0, 12] ++ [0, 5, 0, 1, 0, 0, 0, 60, 0, 9] ++ [3, 97, 100, 115, 3, 110, 101, 116, 0]) ++
    ([0xC0, 38] ++ [0, 5, 0, 1, 0, 0, 0, 60, 0, UInt8.ofNat secondRdata.length] ++ secondRdata)

def aliasesMessage (secondRdata : List UInt8) (secondTarget : String) : DnsMessage where
  header := { id := 0x1234, flags := 0x8180, qdcount := 1, ancount := 2, nscount := 0, arcount := 0 }
  questions := [{ name := "site.com", qtype := 1, qclass := 1 }]
  answers := [
    { name := "site.com", rtype := 5, rclass := 1, ttl := 60
      rdata := serializeName "ads.net", cnameTarget := some "ads.net" },
    { name := "ads.net", rtype := 5, rclass := 1, ttl := 60
      rdata := secondRdata, cnameTarget := some secondTarget }]
  authorities := []
  additionals := []
  ednsDo := false

/-- The second target as a label and a pointer to the first. -/
def pointed : List UInt8 := [1, 120, 0xC0, 38]

/-- With the pointer in it the second target comes back as `x`: the first owner has grown, and
the offset of the pointer now lies in front of the first target. -/
theorem aliases_change : ∃ m, DnsMessage.parse (aliases pointed) = .ok m ∧
    ¬ ∃ bs, m.serialize = .ok bs ∧ DnsMessage.parse bs = .ok m := by
  refine ⟨aliasesMessage pointed "x.ads.net", by decide +kernel, ?_⟩
  rintro ⟨bs, written, back⟩
  rw [DnsMessage.serialize_eq] at written
  cases written
  have moved : DnsMessage.parse (aliasesMessage pointed "x.ads.net").wire ≠
      .ok (aliasesMessage pointed "x.ads.net") := by
    decide +kernel
  exact moved back

/-- The second target as a label and a pointer to the first owner, which is itself a pointer. -/
def pointedAtOwner : List UInt8 := [3, 119, 119, 119, 0xC0, 26]

/-- The first owner is written out where it was, and the second target is found again. -/
theorem settled_reencodes_aliases :
    ∃ bs, (aliasesMessage pointedAtOwner "www.site.com").serialize = .ok bs ∧
      DnsMessage.parse bs = .ok (aliasesMessage pointedAtOwner "www.site.com") := by
  have parsed : DnsMessage.parse (aliases pointedAtOwner) =
      .ok (aliasesMessage pointedAtOwner "www.site.com") := by decide +kernel
  exact settled_reencodes parsed (by decide +kernel) (by decide +kernel)

/-- A text record with two texts of the same octets, and an alias of the root that points to the
second one.  The first owner grows by as much as the texts are apart. -/
def twice : List UInt8 :=
  [0x12, 0x34, 0x81, 0x80, 0, 1, 0, 2, 0, 0, 0, 0] ++
    ([4, 115, 105, 116, 101, 3, 99, 111, 109, 0] ++ [0, 1, 0, 1]) ++
    ([0xC0, 12] ++ [0, 16, 0, 1, 0, 0, 0, 60, 0, 16] ++
      [6, 97, 97, 97, 97, 97, 97, 0, 6, 97, 97, 97, 97, 97, 97, 0]) ++
    ([0] ++ [0, 5, 0, 1, 0, 0, 0, 60, 0, 2] ++ [0xC0, 46])

/-- The octets that are looked at have moved, and others that spell the same have come there. -/
example : (DnsMessage.parse twice).toOption.any fun m => DnsMessage.parse m.wire = .ok m ∧
    ¬ ∀ x ∈ m.places twice, x.part.target.isSome → m.Settled twice x := by decide +kernel

end DnsLigase.Dns
