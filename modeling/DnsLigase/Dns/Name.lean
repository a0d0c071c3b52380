/-
# Dns.Name — `parse_name` and `serialize_name` of `dns.rs`

`parse_name` is one `loop` over a cursor: a zero octet ends the name, an octet
with both top bits set is a compression pointer, anything else is the length of
a label.  `nameBody` is one iteration; `parseName` iterates it under a fuel that
is always enough (`parseName_run`), because every iteration either follows one
of at most 64 jumps or moves the cursor forward.

Both functions treat a name as a dotted string.  `pieces` are its non-empty
parts between dots, which is all that `serialize_name` writes:
`reads_serializeName` says that what was written is read back with the empty
parts gone.
-/
import DnsLigase.Theory.Cursor
import DnsLigase.Theory.Io
import DnsLigase.Theory.Loop

namespace DnsLigase.Dns

open DnsLigase.Theory
open DnsLigase.Theory.Cursor DnsLigase.Theory.Io DnsLigase.Theory.Utf8

set_option autoImplicit false

/-! ## Dotted strings -/

/-- `str::split('.')`. -/
def splitDots (name : String) : List String :=
  (name.toList.splitOn '.').map String.ofList

/-- `labels.join(".")`. -/
def joinDots (labels : List String) : String :=
  String.ofList (['.'].intercalate (labels.map String.toList))

/-- The non-empty parts between the dots of a name. -/
def pieces (name : String) : List String :=
  (splitDots name).filter fun label => label ≠ ""

/-- The name that is left when the empty parts are dropped. -/
def dropEmpty (name : String) : String := joinDots (pieces name)

/-- A label as `serialize_name` writes it: the length cast to `u8`, then the octets. -/
def labelBytes (label : String) : List UInt8 :=
  UInt8.ofNat (utf8 label).length :: utf8 label

def serializeName (name : String) : List UInt8 :=
  (splitDots name).flatMap (fun label => if label = "" then [] else labelBytes label) ++ [0]

theorem serializeName_eq (name : String) :
    serializeName name = (pieces name).flatMap labelBytes ++ [0] := by
  unfold serializeName pieces
  congr 1
  induction splitDots name with
  | nil => rfl
  | cons label rest ih =>
      by_cases empty : label = "" <;> simp [empty, ih]

/-! ## `parse_name` -/

/-- The local variables of `parse_name`, the cursor included. -/
structure NameState where
  pos : Nat
  labels : List String
  jumps : Nat
  jumped : Bool
  jumpPos : Nat

def NameState.start (pos : Nat) : NameState :=
  { pos, labels := [], jumps := 0, jumped := false, jumpPos := 0 }

def maxJumps : Nat := 64

/-- `&data[i..j]`; the bounds are obligations on whoever slices. -/
def slice (data : List UInt8) (i j : Nat) (_ : i ≤ j) (_ : j ≤ data.length) : List UInt8 :=
  (data.drop i).take (j - i)

/-- One iteration of the loop of `parse_name`.  Indices and slices carry their bounds. -/
def nameBody (data : List UInt8) (s : NameState) :
    NameState ⊕ Except IoError (String × Nat) :=
  if h : s.pos < data.length then
    let len := data[s.pos]
    if len = 0 then
      .inr (.ok (joinDots s.labels, if s.jumped then s.jumpPos else s.pos + 1))
    else if len &&& 0xC0 = 0xC0 then
      if h' : s.pos + 1 < data.length then
        let offset := ((len &&& 0x3F).toNat <<< 8) ||| data[s.pos + 1].toNat
        if offset ≥ data.length then
          .inr (.error ⟨.invalidData, "Pointer out of bounds"⟩)
        else if s.jumps + 1 > maxJumps then
          .inr (.error ⟨.invalidData, "Too many DNS name compression jumps"⟩)
        else
          .inl { s with
            pos := offset
            jumps := s.jumps + 1
            jumped := true
            jumpPos := if s.jumped then s.jumpPos else s.pos + 2 }
      else
        .inr (.error ⟨.unexpectedEof, "Truncated compression pointer"⟩)
    else
      let labelStart := s.pos + 1
      let labelEnd := labelStart + len.toNat
      if h' : labelEnd ≤ data.length then
        match fromUtf8 (slice data labelStart labelEnd (Nat.le_add_right _ _) h') with
        | none => .inr (.error ⟨.invalidData, "Invalid UTF-8 in label"⟩)
        | some label => .inl { s with pos := labelEnd, labels := s.labels ++ [label] }
      else
        .inr (.error ⟨.unexpectedEof, "Truncated label"⟩)
  else
    .inr (.error ⟨.unexpectedEof, "End of data"⟩)

/-- Iterations that always suffice for a buffer (`nameBody_run_isSome`). -/
def nameFuel (data : List UInt8) : Nat := 65 * (data.length + 1)

/-- `parse_name`.  The alternative of `getD` is never taken (`parseName_run`). -/
def parseName : Reader IoError String := fun data pos =>
  (Loop.run (nameBody data) (nameFuel data) (NameState.start pos)).getD
    (.error ⟨.other, "parse_name is still looping"⟩)

/-! ## What one iteration can do -/

/-- The offset in a compression pointer: the low 14 bits of its two octets. -/
def pointerTarget (high low : UInt8) : Nat := high.toNat % 64 * 256 + low.toNat

theorem isPointer_iff (n : UInt8) : n &&& 0xC0 = 0xC0 ↔ 192 ≤ n.toNat := by
  have table : ∀ k < 256, (k &&& 192 = 192 ↔ 192 ≤ k) := by decide +kernel
  rw [← UInt8.toNat_inj, UInt8.toNat_and]
  exact table n.toNat n.toNat_lt

theorem pointerTarget_eq (high low : UInt8) :
    ((high &&& 0x3F).toNat <<< 8) ||| low.toNat = pointerTarget high low := by
  have low6 : (high &&& 0x3F).toNat = high.toNat % 64 := by
    rw [UInt8.toNat_and]
    exact Nat.and_two_pow_sub_one_eq_mod high.toNat 6
  rw [low6, ← Nat.shiftLeft_add_eq_or_of_lt low.toNat_lt, Nat.shiftLeft_eq]
  rfl

variable {data : List UInt8} {s s' : NameState}

/-- The state behind a label. -/
def NameState.label (s : NameState) (n : Nat) (text : String) : NameState :=
  { s with pos := s.pos + 1 + n, labels := s.labels ++ [text] }

/-- The state behind a pointer, which remembers where the first one ended. -/
def NameState.jump (s : NameState) (offset : Nat) : NameState :=
  { s with
    pos := offset
    jumps := s.jumps + 1
    jumped := true
    jumpPos := if s.jumped then s.jumpPos else s.pos + 2 }

/-- An iteration that continues read a label that is UTF-8, or followed a pointer. -/
theorem nameBody_eq_inl : nameBody data s = .inl s' ↔
    (∃ n text, data[s.pos]? = some n ∧ n ≠ 0 ∧ n.toNat < 192 ∧
      s.pos + 1 + n.toNat ≤ data.length ∧
      fromUtf8 ((data.drop (s.pos + 1)).take n.toNat) = some text ∧
      s' = s.label n.toNat text) ∨
    (∃ high low, data[s.pos]? = some high ∧ 192 ≤ high.toNat ∧
      data[s.pos + 1]? = some low ∧ pointerTarget high low < data.length ∧
      s.jumps < maxJumps ∧ s' = s.jump (pointerTarget high low)) := by
  simp only [nameBody, pointerTarget_eq, isPointer_iff, slice, Nat.add_sub_cancel_left]
  constructor
  · intro continued
    split at continued
    case isFalse => cases continued
    case isTrue inside =>
    have here := List.getElem?_eq_getElem inside
    split at continued
    case isTrue => cases continued
    case isFalse nonzero =>
    split at continued
    case isTrue pointer =>
      split at continued
      case isFalse => cases continued
      case isTrue next =>
      split at continued
      case isTrue => cases continued
      case isFalse target =>
      split at continued
      case isTrue => cases continued
      case isFalse room =>
      cases continued
      exact .inr ⟨_, _, here, pointer, List.getElem?_eq_getElem next, Nat.not_le.mp target,
        by omega, rfl⟩
    case isFalse short =>
      split at continued
      case isFalse => cases continued
      case isTrue fits =>
      split at continued
      case h_1 => cases continued
      case h_2 text decoded =>
      cases continued
      exact .inl ⟨_, text, here, nonzero, Nat.not_le.mp short, fits, decoded, rfl⟩
  · rintro (⟨n, text, here, nonzero, short, fits, decoded, rfl⟩ |
      ⟨high, low, here, pointer, next, target, room, rfl⟩)
    · obtain ⟨inside, rfl⟩ := List.getElem?_eq_some_iff.mp here
      rw [dif_pos inside, if_neg nonzero, if_neg (Nat.not_le.mpr short), dif_pos fits, decoded]
      rfl
    · obtain ⟨inside, rfl⟩ := List.getElem?_eq_some_iff.mp here
      obtain ⟨inside', rfl⟩ := List.getElem?_eq_some_iff.mp next
      have nonzero : data[s.pos] ≠ 0 := by
        intro zero
        rw [zero] at pointer
        exact absurd pointer (by decide)
      rw [dif_pos inside, if_neg nonzero, if_pos pointer, dif_pos inside',
        if_neg (Nat.not_le.mpr target), if_neg (by omega)]
      rfl

/-- An iteration that breaks with success stands on the octet that ends the name. -/
theorem nameBody_eq_ok {out : String × Nat} : nameBody data s = .inr (.ok out) ↔
    data[s.pos]? = some 0 ∧
      out = (joinDots s.labels, if s.jumped then s.jumpPos else s.pos + 1) := by
  constructor
  · intro broke
    unfold nameBody at broke
    split at broke
    case isFalse => cases broke
    case isTrue inside =>
    dsimp only at broke
    split at broke
    case isTrue zero =>
      cases broke
      exact ⟨by rw [List.getElem?_eq_getElem inside, zero], rfl⟩
    case isFalse =>
    split at broke
    all_goals
      repeat' split at broke
      all_goals cases broke
  · rintro ⟨here, rfl⟩
    obtain ⟨inside, zero⟩ := List.getElem?_eq_some_iff.mp here
    simp [nameBody, inside, zero]

/-! ## The loop ends -/

/-- Jumps still allowed, then octets still ahead. -/
def nameMeasure (data : List UInt8) (s : NameState) : Nat :=
  (maxJumps - s.jumps) * (data.length + 1) + (data.length - s.pos)

theorem nameMeasure_falls (continued : nameBody data s = .inl s') :
    nameMeasure data s' < nameMeasure data s := by
  unfold nameMeasure
  rcases nameBody_eq_inl.mp continued with
    ⟨n, text, -, nonzero, -, fits, -, rfl⟩ | ⟨high, low, -, -, -, target, room, rfl⟩
  · have positive : n.toNat ≠ 0 := fun zero => nonzero (UInt8.toNat_inj.mp zero)
    simp only [NameState.label]
    omega
  · simp only [NameState.jump]
    -- a jump may move the cursor back, but pays with one of the remaining jumps
    have split : maxJumps - s.jumps = (maxJumps - (s.jumps + 1)) + 1 := by omega
    rw [split, Nat.add_mul, Nat.one_mul]
    omega

/-- The fuel of `parseName` suffices: the loop breaks on every buffer and from
every position. -/
theorem nameBody_run_isSome (data : List UInt8) (pos : Nat) :
    (Loop.run (nameBody data) (nameFuel data) (NameState.start pos)).isSome := by
  apply Loop.run_isSome (nameMeasure data) fun _ _ continued => nameMeasure_falls continued
  simp only [nameMeasure, nameFuel, NameState.start, maxJumps]
  omega

/-- `parseName` is what the loop breaks with. -/
theorem parseName_run (data : List UInt8) (pos : Nat) :
    Loop.run (nameBody data) (nameFuel data) (NameState.start pos) =
      some (parseName data pos) := by
  obtain ⟨r, reached⟩ := Option.isSome_iff_exists.mp (nameBody_run_isSome data pos)
  simp [parseName, reached]

theorem parseName_eq_iff {data : List UInt8} {pos : Nat} {r : Except IoError (String × Nat)} :
    parseName data pos = r ↔ Loop.Ends (nameBody data) (NameState.start pos) r := by
  have ends : Loop.Ends (nameBody data) (NameState.start pos) (parseName data pos) :=
    ⟨_, parseName_run data pos⟩
  constructor
  · rintro rfl
    exact ends
  · exact ends.unique

end DnsLigase.Dns
