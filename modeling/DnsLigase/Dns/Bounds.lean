/-
# Dns.Bounds — what the length of a packet bounds

* `parseName_inBounds`: the loop of `parse_name` ends after at most 65 iterations for each octet
  and 65 more, no index or slice in it is out of bounds, and the cursor is left further on;
* `parse_room`: a record takes at least 11 octets, so no packet has enough of them for a count or
  a length to overflow the 16 bits that it is written in.
-/
import DnsLigase.Dns.Opt
import DnsLigase.Dns.Target

namespace DnsLigase.Dns

open DnsLigase.Theory
open DnsLigase.Theory.Bytes DnsLigase.Theory.Cursor DnsLigase.Theory.Io DnsLigase.Theory.Utf8

set_option autoImplicit false

/-! ## The loop of `parse_name` -/

/-- `&data[i..j]`, where it does not panic. -/
def sliceAt (data : List UInt8) (i j : Nat) : Option (List UInt8) :=
  if i ≤ j ∧ j ≤ data.length then some ((data.drop i).take (j - i)) else none

/-- One iteration of the loop of `parse_name`, without a value where an index or a slice is out
of bounds. -/
def nameTurn (data : List UInt8) (s : NameState) :
    Option (NameState ⊕ Except IoError (String × Nat)) :=
  if s.pos ≥ data.length then some (.inr (.error ⟨.unexpectedEof, "End of data"⟩))
  else do
    let len ← data[s.pos]?
    if len = 0 then
      some (.inr (.ok (joinDots s.labels, if s.jumped then s.jumpPos else s.pos + 1)))
    else if len &&& 0xC0 = 0xC0 then
      if s.pos + 1 ≥ data.length then
        some (.inr (.error ⟨.unexpectedEof, "Truncated compression pointer"⟩))
      else do
        let low ← data[s.pos + 1]?
        let offset := ((len &&& 0x3F).toNat <<< 8) ||| low.toNat
        if offset ≥ data.length then
          some (.inr (.error ⟨.invalidData, "Pointer out of bounds"⟩))
        else if s.jumps + 1 > maxJumps then
          some (.inr (.error ⟨.invalidData, "Too many DNS name compression jumps"⟩))
        else
          some (.inl { s with
            pos := offset
            jumps := s.jumps + 1
            jumped := true
            jumpPos := if s.jumped then s.jumpPos else s.pos + 2 })
    else
      let labelStart := s.pos + 1
      let labelEnd := labelStart + len.toNat
      if labelEnd > data.length then
        some (.inr (.error ⟨.unexpectedEof, "Truncated label"⟩))
      else do
        let octets ← sliceAt data labelStart labelEnd
        match fromUtf8 octets with
        | none => some (.inr (.error ⟨.invalidData, "Invalid UTF-8 in label"⟩))
        | some label => some (.inl { s with pos := labelEnd, labels := s.labels ++ [label] })

/-- **No iteration is out of bounds**, from whatever state. -/
theorem nameTurn_eq (data : List UInt8) (s : NameState) :
    nameTurn data s = some (nameBody data s) := by
  unfold nameTurn nameBody
  by_cases inside : s.pos < data.length
  · rw [if_neg (by omega), dif_pos inside, List.getElem?_eq_getElem inside]
    dsimp only [Option.bind_eq_bind, Option.bind_some]
    by_cases zero : data[s.pos] = 0
    · rw [if_pos zero, if_pos zero]
    rw [if_neg zero, if_neg zero]
    by_cases pointer : data[s.pos] &&& 0xC0 = 0xC0
    · rw [if_pos pointer, if_pos pointer]
      by_cases next : s.pos + 1 < data.length
      · rw [if_neg (by omega), dif_pos next, List.getElem?_eq_getElem next]
        dsimp only [Option.bind_some]
        split
        · rfl
        · split <;> rfl
      · rw [if_pos (by omega), dif_neg next]
    · rw [if_neg pointer, if_neg pointer]
      by_cases fits : s.pos + 1 + data[s.pos].toNat ≤ data.length
      · rw [if_neg (by omega), dif_pos fits, sliceAt, if_pos ⟨Nat.le_add_right _ _, fits⟩]
        dsimp only [Option.bind_some, slice]
        cases fromUtf8 ((data.drop (s.pos + 1)).take
          (s.pos + 1 + data[s.pos].toNat - (s.pos + 1))) <;> rfl
      · rw [if_pos (by omega), dif_neg fits]
  · rw [if_pos (by omega), dif_neg inside]

/-- **`parse_name` ends and stays in bounds**, on every buffer and from every position. -/
theorem parseName_inBounds (data : List UInt8) (pos : Nat) :
    Loop.run (Loop.panicking (nameTurn data)) (65 * (data.length + 1)) (NameState.start pos) =
        some (some (parseName data pos)) ∧
      ∀ name p', parseName data pos = .ok (name, p') → pos < p' ∧ p' ≤ data.length := by
  constructor
  · have ended := parseName_run data pos
    rw [nameFuel] at ended
    rw [Loop.run_panicking (nameTurn_eq data), ended]
    rfl
  · intro name p' parsed
    exact parseName_bounds parsed

/-! ## Counts -/

/-- The casts to `u16` in `serialize` lose nothing. -/
structure Lossless (m : DnsMessage) : Prop where
  additionals : (UInt16.ofNat m.additionals.length).toNat = m.additionals.length
  rdata : ∀ rr ∈ m.answers ++ (m.authorities ++ m.additionals),
    (UInt16.ofNat rr.rdata.length).toNat = rr.rdata.length

/-- The sections of `m` are as long as their counts, and fit in the packet that they are read
from: each question took at least 5 octets, and each record 11 and its rdata. -/
structure Fits (data : List UInt8) (m : DnsMessage) : Prop where
  questions : m.questions.length = m.header.qdcount.toNat
  answers : m.answers.length = m.header.ancount.toNat
  authorities : m.authorities.length = m.header.nscount.toNat
  additionals : m.additionals.length = m.header.arcount.toNat
  octets : ∃ p e,
    Reader.Chain (fun p qu e => DnsQuestion.parse data p = .ok (qu, e) ∧ p + 5 ≤ e) 12
      m.questions p ∧
    Reader.Chain (fun p rr e => DnsResourceRecord.parse data p = .ok (rr, e) ∧
      p + (11 + rr.rdata.length) ≤ e) p (m.answers ++ (m.authorities ++ m.additionals)) e ∧
    e ≤ data.length

variable {data : List UInt8}

theorem question_takes {p e : Nat} {qu : DnsQuestion}
    (parsed : DnsQuestion.parse data p = .ok (qu, e)) : p + 5 ≤ e ∧ e ≤ data.length := by
  obtain ⟨⟨q, owner, -, -, rfl⟩, inside⟩ := question_stands parsed
  have moved := parseName_bounds owner
  exact ⟨by omega, inside⟩

theorem record_takes {p e : Nat} {rr : DnsResourceRecord}
    (parsed : DnsResourceRecord.parse data p = .ok (rr, e)) :
    p + (11 + rr.rdata.length) ≤ e ∧ e ≤ data.length := by
  obtain ⟨r, ⟨⟨q, owner, -, -, rfl⟩, -, rfl, inside⟩, -⟩ := record_stands parsed
  have moved := parseName_bounds owner
  exact ⟨by omega, inside⟩

theorem fits_of_parse {m : DnsMessage} (parsed : DnsMessage.parse data = .ok m) :
    Fits data m := by
  obtain ⟨⟨counted, -, -⟩, arcount, -, -⟩ := parse_decoded parsed
  obtain ⟨enough, p, e, questions, records⟩ := chains_of_parse parsed
  have behind : p ≤ data.length := questions.inside enough fun _ _ _ item =>
    (question_takes item).2
  exact ⟨counted.qdcount.symm, counted.ancount.symm, counted.nscount.symm, arcount.symm, p, e,
    questions.mono fun _ _ _ item => ⟨item, (question_takes item).1⟩,
    records.mono fun _ _ _ item => ⟨item, (record_takes item).1⟩,
    records.inside behind fun _ _ _ item => (record_takes item).2⟩

/-- The records of a packet, 11 octets at least for each. -/
theorem Fits.records {m : DnsMessage} (fits : Fits data m) :
    12 + 11 * (m.answers.length + m.authorities.length + m.additionals.length) ≤ data.length := by
  obtain ⟨p, e, questions, records, inside⟩ := fits.octets
  have front := questions.length_le fun _ _ _ item => item.2
  have back := records.length_le (k := 11) fun _ _ _ item => by omega
  simp only [List.length_append] at back
  omega

theorem Encodable.lossless {m : DnsMessage} (encodable : Encodable m)
    (few : m.additionals.length < 65536) : Lossless m where
  additionals := by
    rw [UInt16.toNat_ofNat']
    exact Nat.mod_eq_of_lt few
  rdata := fun rr member => by
    have short := (encodable.records rr member).2
    rw [UInt16.toNat_ofNat']
    omega

/-- `add_opt_record` counts the record that it adds. -/
theorem addOptRecord_counts {m : DnsMessage}
    (counted : m.additionals.length = m.header.arcount.toNat)
    (room : m.header.arcount.toNat + 1 < 65536) (bufferSize : UInt16) :
    (m.addOptRecord bufferSize).additionals.length =
        (m.addOptRecord bufferSize).header.arcount.toNat ∧
      (m.addOptRecord bufferSize).additionals.length < 65536 := by
  rcases addOptRecord_cases m bufferSize with ⟨front, opt, back, first, same⟩ | ⟨-, same⟩
  · rw [first.split, List.length_append, List.length_cons] at counted
    rw [same]
    simp only [List.length_append, List.length_cons]
    omega
  · rw [same]
    simp only [List.length_append, List.length_singleton, UInt16.toNat_add, UInt16.toNat_one]
    omega

/-- **Counts and lengths do not overflow** for a packet that is as long as a packet can be. -/
theorem parse_room {m : DnsMessage} (short : data.length ≤ 65535)
    (parsed : DnsMessage.parse data = .ok m) :
    Fits data m ∧
      m.answers.length + m.authorities.length + m.additionals.length ≤ 5956 ∧
      m.header.arcount.toNat + 1 < 65536 ∧ Lossless m ∧
      ∀ bufferSize, (m.addOptRecord bufferSize).additionals.length =
          (m.addOptRecord bufferSize).header.arcount.toNat ∧
        Lossless (m.addOptRecord bufferSize) := by
  have fits := fits_of_parse parsed
  have few := fits.records
  have counted := fits.additionals
  have encodable := (parse_encodable parsed).1
  refine ⟨fits, by omega, by omega, encodable.lossless (by omega), fun bufferSize => ?_⟩
  obtain ⟨counts, room⟩ := addOptRecord_counts counted (by omega) bufferSize
  exact ⟨counts, (encodable.addOptRecord bufferSize).lossless room⟩

theorem parse_room_cnameResponse :
    Fits cnameResponse.wire cnameResponse ∧
      cnameResponse.answers.length + cnameResponse.authorities.length +
        cnameResponse.additionals.length ≤ 5956 ∧
      cnameResponse.header.arcount.toNat + 1 < 65536 ∧ Lossless cnameResponse ∧
      ∀ bufferSize, (cnameResponse.addOptRecord bufferSize).additionals.length =
          (cnameResponse.addOptRecord bufferSize).header.arcount.toNat ∧
        Lossless (cnameResponse.addOptRecord bufferSize) :=
  parse_room (by decide +kernel) (parse_canonical cnameResponse_canonical)

end DnsLigase.Dns
