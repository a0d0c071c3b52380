/-
# Theory.Utf8 — strings and the octets that spell them

Lean's `String` is, like Rust's `str`, a validated UTF-8 buffer.  `utf8` is that
buffer as an octet list and `fromUtf8` the checked way back: the two are inverse
where the octets are valid (`fromUtf8_eq_some`).
-/
import Mathlib.Algebra.Order.Ring.Nat
import Mathlib.Data.List.Flatten

namespace DnsLigase.Theory.Utf8

set_option autoImplicit false

/-- `str::as_bytes`. -/
def utf8 (s : String) : List UInt8 := s.toByteArray.data.toList

/-- `str::from_utf8`, without the text of its error. -/
def fromUtf8 (bs : List UInt8) : Option String := String.fromUTF8? bs.toByteArray

theorem toByteArray_utf8 (s : String) : (utf8 s).toByteArray = s.toByteArray := by
  apply ByteArray.ext
  simp [utf8]

/-- **A decode succeeds exactly on the octets of the string it gives.** -/
theorem fromUtf8_eq_some {bs : List UInt8} {s : String} : fromUtf8 bs = some s ↔ utf8 s = bs := by
  unfold fromUtf8 String.fromUTF8?
  constructor
  · intro decoded
    split at decoded
    · cases decoded
      simp [utf8, String.fromUTF8]
    · cases decoded
  · rintro rfl
    have valid : (utf8 s).toByteArray.IsValidUTF8 := toByteArray_utf8 s ▸ s.isValidUTF8
    rw [dif_pos valid, Option.some.injEq]
    apply String.toByteArray_inj.mp
    exact toByteArray_utf8 s

@[simp] theorem fromUtf8_utf8 (s : String) : fromUtf8 (utf8 s) = some s :=
  fromUtf8_eq_some.mpr rfl

theorem utf8_injective {s t : String} (same : utf8 s = utf8 t) : s = t := by
  have := fromUtf8_utf8 s
  rw [same, fromUtf8_utf8, Option.some.injEq] at this
  exact this.symm

theorem utf8_ofList (cs : List Char) :
    utf8 (String.ofList cs) = cs.flatMap String.utf8EncodeChar := by
  simp [utf8, String.toByteArray_ofList, List.utf8Encode]

theorem utf8_append (s t : String) : utf8 (s ++ t) = utf8 s ++ utf8 t := by
  simp [utf8]

/-- An ASCII octet in the encoding of a character is that character. -/
theorem toNat_of_ascii_octet {c : Char} {b : UInt8} (member : b ∈ String.utf8EncodeChar c)
    (ascii : b.toNat < 128) : c.toNat = b.toNat := by
  delta String.utf8EncodeChar at member
  show c.val.toNat = b.toNat
  dsimp only at member
  generalize c.val.toNat = v at member
  split at member
  · obtain rfl := List.mem_singleton.mp member
    rw [UInt8.toNat_ofNat']
    omega
  all_goals
    -- every octet of a longer encoding has its top bit set
    repeat' split at member
    all_goals
      simp only [List.mem_cons, List.not_mem_nil, or_false] at member
      rcases member with rfl | rfl | rfl | rfl
      all_goals
        simp only [UInt8.toNat_ofNat'] at ascii
        omega

/-- An ASCII character is in a string when its octet is in the encoding. -/
theorem mem_of_ascii_octet {s : String} {d : Char} {b : UInt8} (member : b ∈ utf8 s)
    (ascii : b.toNat < 128) (same : d.toNat = b.toNat) : d ∈ s.toList := by
  rw [← String.ofList_toList (s := s), utf8_ofList, List.mem_flatMap] at member
  obtain ⟨c, found, octet⟩ := member
  obtain rfl : d = c := Char.toNat_inj.mp (same.trans (toNat_of_ascii_octet octet ascii).symm)
  exact found

theorem octet_of_mem {s : String} {c : Char} (member : c ∈ s.toList) :
    ∀ b ∈ String.utf8EncodeChar c, b ∈ utf8 s := by
  intro b octet
  rw [← String.ofList_toList (s := s), utf8_ofList, List.mem_flatMap]
  exact ⟨c, member, octet⟩

/-- Dropping characters never lengthens the encoding. -/
theorem length_utf8_sublist {cs ds : List Char} (sub : cs.Sublist ds) :
    (utf8 (String.ofList cs)).length ≤ (utf8 (String.ofList ds)).length := by
  simp only [utf8_ofList]
  exact (sub.flatMap _).length_le

theorem utf8_eq_nil_iff {s : String} : utf8 s = [] ↔ s = "" := by
  constructor
  · intro empty
    exact utf8_injective (empty.trans (by decide))
  · rintro rfl
    decide

end DnsLigase.Theory.Utf8
