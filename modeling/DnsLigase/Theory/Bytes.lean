/-
# Theory.Bytes — big-endian words over octet lists

`to_be_bytes` and `from_be_bytes` for the two widths of the wire formats here,
stated through `toNat` so that their round trips are facts of arithmetic.
-/
import Mathlib.Data.List.Basic

namespace DnsLigase.Theory.Bytes

set_option autoImplicit false

/-- `u16::to_be_bytes`. -/
def beBytes16 (x : UInt16) : List UInt8 :=
  [UInt8.ofNat (x.toNat / 256), UInt8.ofNat x.toNat]

/-- `u32::to_be_bytes`. -/
def beBytes32 (x : UInt32) : List UInt8 :=
  [UInt8.ofNat (x.toNat / 16777216), UInt8.ofNat (x.toNat / 65536),
    UInt8.ofNat (x.toNat / 256), UInt8.ofNat x.toNat]

/-- `u16::from_be_bytes` of the two octets of `buf` from index `i`. -/
def be16 (buf : List UInt8) (i : Nat) : UInt16 :=
  UInt16.ofNat ((buf.getD i 0).toNat * 256 + (buf.getD (i + 1) 0).toNat)

/-- `u32::from_be_bytes` of the four octets of `buf` from index `i`. -/
def be32 (buf : List UInt8) (i : Nat) : UInt32 :=
  UInt32.ofNat ((buf.getD i 0).toNat * 16777216 + (buf.getD (i + 1) 0).toNat * 65536 +
    (buf.getD (i + 2) 0).toNat * 256 + (buf.getD (i + 3) 0).toNat)

@[simp] theorem length_beBytes16 (x : UInt16) : (beBytes16 x).length = 2 := rfl

@[simp] theorem length_beBytes32 (x : UInt32) : (beBytes32 x).length = 4 := rfl

/-- The value of two octets is the word whose big-endian octets they are. -/
theorem word16_eq (x : UInt16) :
    UInt16.ofNat ((UInt8.ofNat (x.toNat / 256)).toNat * 256 + (UInt8.ofNat x.toNat).toNat) = x := by
  apply UInt16.toNat_inj.mp
  have := x.toNat_lt
  simp only [UInt16.toNat_ofNat', UInt8.toNat_ofNat']
  omega

theorem word32_eq (x : UInt32) :
    UInt32.ofNat ((UInt8.ofNat (x.toNat / 16777216)).toNat * 16777216 +
      (UInt8.ofNat (x.toNat / 65536)).toNat * 65536 +
      (UInt8.ofNat (x.toNat / 256)).toNat * 256 + (UInt8.ofNat x.toNat).toNat) = x := by
  apply UInt32.toNat_inj.mp
  have := x.toNat_lt
  simp only [UInt32.toNat_ofNat', UInt8.toNat_ofNat']
  omega

theorem ofNat_eq {x : UInt8} {n : Nat} (low : n % 256 = x.toNat) : UInt8.ofNat n = x := by
  apply UInt8.toNat_inj.mp
  rw [UInt8.toNat_ofNat', low]

theorem be16_drop (buf : List UInt8) (i : Nat) : be16 (buf.drop i) 0 = be16 buf i := by
  simp [be16, List.getD_eq_getElem?_getD]

theorem be32_drop (buf : List UInt8) (i : Nat) : be32 (buf.drop i) 0 = be32 buf i := by
  simp [be32, List.getD_eq_getElem?_getD]

/-- The octets of a word are those that it was read from. -/
theorem beBytes16_be16 {buf : List UInt8} {i : Nat} (inside : i + 2 ≤ buf.length) :
    beBytes16 (be16 buf i) = (buf.drop i).take 2 := by
  have two : ((buf.drop i).take 2).length = 2 := by
    rw [List.length_take, List.length_drop]
    omega
  obtain ⟨high, low, taken⟩ := List.length_eq_two.mp two
  have front : buf.drop i = high :: low :: (buf.drop i).drop 2 :=
    (List.take_append_drop 2 _).symm.trans (congrArg (· ++ _) taken)
  have := high.toNat_lt
  have := low.toNat_lt
  have value : (be16 buf i).toNat = high.toNat * 256 + low.toNat := by
    rw [← be16_drop, front]
    show (UInt16.ofNat (high.toNat * 256 + low.toNat)).toNat = _
    rw [UInt16.toNat_ofNat']
    omega
  rw [taken, beBytes16, value, ofNat_eq (x := high) (by omega), ofNat_eq (x := low) (by omega)]

theorem beBytes32_be32 {buf : List UInt8} {i : Nat} (inside : i + 4 ≤ buf.length) :
    beBytes32 (be32 buf i) = (buf.drop i).take 4 := by
  have four : ((buf.drop i).take 4).length = 4 := by
    rw [List.length_take, List.length_drop]
    omega
  obtain ⟨a, b, c, d, taken⟩ : ∃ a b c d, (buf.drop i).take 4 = [a, b, c, d] := by
    match (buf.drop i).take 4, four with
    | [a, b, c, d], _ => exact ⟨a, b, c, d, rfl⟩
  have front : buf.drop i = a :: b :: c :: d :: (buf.drop i).drop 4 :=
    (List.take_append_drop 4 _).symm.trans (congrArg (· ++ _) taken)
  have := a.toNat_lt
  have := b.toNat_lt
  have := c.toNat_lt
  have := d.toNat_lt
  have value : (be32 buf i).toNat =
      a.toNat * 16777216 + b.toNat * 65536 + c.toNat * 256 + d.toNat := by
    rw [← be32_drop, front]
    show (UInt32.ofNat (a.toNat * 16777216 + b.toNat * 65536 + c.toNat * 256 + d.toNat)).toNat = _
    rw [UInt32.toNat_ofNat']
    omega
  rw [taken, beBytes32, value, ofNat_eq (x := a) (by omega), ofNat_eq (x := b) (by omega),
    ofNat_eq (x := c) (by omega), ofNat_eq (x := d) (by omega)]

theorem be16_slice {b : List UInt8} {p n i : Nat} (inside : i + 1 < n) :
    be16 ((b.drop p).take n) i = be16 b (p + i) := by
  have first : i < n := by omega
  simp [be16, List.getD_eq_getElem?_getD, inside, first, Nat.add_assoc]

@[simp] theorem be16_beBytes16 (x : UInt16) (rest : List UInt8) :
    be16 (beBytes16 x ++ rest) 0 = x :=
  word16_eq x

/-- The octets that a 16-bit count has are those of the count modulo `2 ^ 16`. -/
theorem be16_ofNat (n : Nat) (rest : List UInt8) :
    (be16 (beBytes16 (UInt16.ofNat n) ++ rest) 0).toNat = n % 65536 := by
  rw [be16_beBytes16, UInt16.toNat_ofNat']

/-! ## Messages framed by a 16-bit length -/

/-- `msg` behind its length as `u16` in big-endian order; the cast truncates. -/
def frame (msg : List UInt8) : List UInt8 :=
  beBytes16 (UInt16.ofNat msg.length) ++ msg

theorem frame_injective {msg msg' : List UInt8} (same : frame msg = frame msg') : msg = msg' :=
  congrArg (List.drop 2) same

/-- What a reader by length prefix takes off a stream, and what it leaves. -/
def readFrame (stream : List UInt8) : Option (List UInt8 × List UInt8) :=
  if stream.length < 2 then none
  else
    let len := (be16 stream 0).toNat
    let body := stream.drop 2
    if body.length < len then none else some (body.take len, body.drop len)

/-- A frame is read back as exactly its message, whatever follows it. -/
def Framed (msg : List UInt8) : Prop :=
  ∀ rest, readFrame (frame msg ++ rest) = some (msg, rest)

/-- The prefix of a frame counts the octets behind it. -/
theorem frame_prefix (msg rest : List UInt8) :
    (be16 (frame msg ++ rest) 0).toNat = msg.length % 65536 := by
  rw [frame, List.append_assoc, be16_ofNat]

/-- **Framing is exact precisely below `2 ^ 16` octets.** -/
theorem framed_iff (msg : List UInt8) : Framed msg ↔ msg.length ≤ 65535 := by
  have drop2 : ∀ rest, (frame msg ++ rest).drop 2 = msg ++ rest := by
    intro rest
    simp [frame, beBytes16]
  have long : ∀ rest, ¬ (frame msg ++ rest).length < 2 := by
    intro rest
    simp only [frame, List.length_append, length_beBytes16]
    omega
  constructor
  · intro framed
    have read := framed []
    simp only [readFrame, if_neg (long []), drop2, frame_prefix] at read
    split at read
    · cases read
    · have taken := congrArg (fun o => (o.map fun r => r.1.length)) read
      simp only [Option.map_some, List.append_nil, List.length_take, Option.some.injEq] at taken
      omega
  · intro short rest
    have len : msg.length % 65536 = msg.length := Nat.mod_eq_of_lt (by omega)
    simp only [readFrame, if_neg (long rest), drop2, frame_prefix, len]
    simp

/-- A stream determines the frame at its front. -/
theorem frame_append_inj {msg msg' : List UInt8} (short : msg.length ≤ 65535)
    (short' : msg'.length ≤ 65535) {rest rest' : List UInt8}
    (same : frame msg ++ rest = frame msg' ++ rest') : msg = msg' ∧ rest = rest' := by
  have read := (framed_iff msg).mpr short rest
  rw [same, (framed_iff msg').mpr short' rest', Option.some.injEq, Prod.mk.injEq] at read
  exact ⟨read.1.symm, read.2.symm⟩

/-- Two octets and as many as they count are a frame. -/
theorem readFrame_parts {lenBuf msg : List UInt8} (two : lenBuf.length = 2)
    (counted : msg.length = (be16 lenBuf 0).toNat) (rest : List UInt8) :
    readFrame (lenBuf ++ (msg ++ rest)) = some (msg, rest) := by
  obtain ⟨high, low, rfl⟩ := List.length_eq_two.mp two
  have sameCount : (be16 ([high, low] ++ (msg ++ rest)) 0).toNat = msg.length := counted.symm
  rw [readFrame, sameCount]
  simp

end DnsLigase.Theory.Bytes
