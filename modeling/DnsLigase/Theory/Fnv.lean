/-
# Theory.Fnv — FNV-1a with 64 bits

Each octet is mixed into the low end of the state, which is then multiplied by a prime.  The
prime is odd, so a step loses nothing of the state (`run_left_injective`): two strings that end
alike collide only if they do before that end.

The prime is `2 ^ 40 + 435`.  So a difference that octets in a row make, a polynomial in the
prime with small coefficients, takes its value at 435 and, `2 ^ 40` times, its derivative there;
with four coefficients neither can vanish modulo `2 ^ 64` (`leading_zero`).  Strings that differ
only within four octets in a row have different hashes (`run_near`).
-/
import Mathlib.Data.Int.ModEq
import Mathlib.Data.List.Basic

namespace DnsLigase.Theory.Fnv

set_option autoImplicit false

def prime : UInt64 := 0x100000001b3

def step (h : UInt64) (b : UInt8) : UInt64 := (h ^^^ b.toUInt64) * prime

/-- The state behind `bytes`, from the state `h`. -/
def run (h : UInt64) (bytes : List UInt8) : UInt64 := bytes.foldl step h

@[simp] theorem run_cons (h : UInt64) (b : UInt8) (bytes : List UInt8) :
    run h (b :: bytes) = run (step h b) bytes := rfl

theorem run_append (h : UInt64) (bytes more : List UInt8) :
    run h (bytes ++ more) = run (run h bytes) more := List.foldl_append

/-! ## Nothing of the state is lost -/

theorem mul_prime_injective {x y : UInt64} (same : x * prime = y * prime) : x = y := by
  have inverse : prime * 0xce965057aff6957b = 1 := by decide
  calc x = x * (prime * 0xce965057aff6957b) := by rw [inverse, UInt64.mul_one]
    _ = y * (prime * 0xce965057aff6957b) := by rw [← UInt64.mul_assoc, same, UInt64.mul_assoc]
    _ = y := by rw [inverse, UInt64.mul_one]

theorem step_left_injective {h h' : UInt64} {b : UInt8} (same : step h b = step h' b) : h = h' :=
  (UInt64.xor_left_inj _).mp (mul_prime_injective same)

theorem run_left_injective {bytes : List UInt8} {h h' : UInt64}
    (same : run h bytes = run h' bytes) : h = h' := by
  induction bytes generalizing h h' with
  | nil => exact same
  | cons b bytes ih => exact step_left_injective (ih same)

/-! ## Differences of states -/

/-- What an octet adds to the state when it is mixed in. -/
def mix (h : UInt64) (b : UInt8) : ℤ := (h ^^^ b.toUInt64).toNat - h.toNat

/-- Only the low end of the state changes. -/
theorem mix_bounds (h : UInt64) (b : UInt8) : -255 ≤ mix h b ∧ mix h b ≤ 255 := by
  have high : (h.toNat ^^^ b.toNat) / 2 ^ 8 = h.toNat / 2 ^ 8 := by
    rw [Nat.xor_div_two_pow, Nat.div_eq_of_lt b.toNat_lt, Nat.xor_zero]
  simp only [mix, UInt64.toNat_xor, UInt8.toNat_toUInt64]
  omega

theorem step_modEq (h : UInt64) (b : UInt8) :
    ((step h b).toNat : ℤ) ≡ (h.toNat + mix h b) * 0x100000001b3 [ZMOD 2 ^ 64] := by
  have product : (step h b).toNat = (h ^^^ b.toUInt64).toNat * 0x100000001b3 % 2 ^ 64 :=
    UInt64.toNat_mul _ _
  rw [product, mix, Int.natCast_mod]
  refine (Int.mod_modEq _ _).trans ?_
  push_cast
  rw [add_sub_cancel]

/-- The states are `d` apart, modulo `2 ^ 64`. -/
def Differ (d : ℤ) (h h' : UInt64) : Prop := (h.toNat : ℤ) - h'.toNat ≡ d [ZMOD 2 ^ 64]

theorem Differ.mixed {d : ℤ} {h h' : UInt64} (differ : Differ d h h') (b b' : UInt8) :
    Differ (d + (mix h b - mix h' b')) (h ^^^ b.toUInt64) (h' ^^^ b'.toUInt64) := by
  refine Eq.trans (congrArg (· % 2 ^ 64) ?_) (differ.add_right _)
  simp only [mix]
  omega

theorem Differ.step {d : ℤ} {h h' : UInt64} (differ : Differ d h h') (b b' : UInt8) :
    Differ ((d + (mix h b - mix h' b')) * 0x100000001b3) (step h b) (step h' b') := by
  refine ((step_modEq h b).sub (step_modEq h' b')).trans ?_
  rw [← sub_mul, add_sub_add_comm]
  exact (differ.add_right _).mul_right _

/-- What two octets can add to a difference. -/
def Small (d : ℤ) : Prop := -510 ≤ d ∧ d ≤ 510

theorem small_mix (h h' : UInt64) (b b' : UInt8) : Small (mix h b - mix h' b') := by
  have bounds := mix_bounds h b
  have bounds' := mix_bounds h' b'
  constructor <;> omega

/-- **Small coefficients do not cancel**: a polynomial of degree 3 that vanishes at the prime,
modulo `2 ^ 64`, has no leading coefficient. -/
theorem leading_zero {d₁ d₂ d₃ d₄ : ℤ} (small₁ : Small d₁) (small₂ : Small d₂) (small₃ : Small d₃)
    (small₄ : Small d₄) (zero : ((d₁ * 0x100000001b3 + d₂) * 0x100000001b3 + d₃) * 0x100000001b3 +
      d₄ ≡ 0 [ZMOD 2 ^ 64]) : d₁ = 0 := by
  unfold Small at small₁ small₂ small₃ small₄
  obtain ⟨k, whole⟩ := Int.modEq_zero_iff_dvd.mp zero
  -- The square of the prime is 65536 times `2 ^ 64` and a rest, and so for the cube.
  generalize reduced : k - 72057594123452416 * d₁ - 65536 * d₂ = j
  have parts : 2 ^ 40 * (567675 * d₁ + 870 * d₂ + d₃) +
      (82312875 * d₁ + 189225 * d₂ + 435 * d₃ + d₄) = 2 ^ 64 * j := by omega
  clear reduced whole zero
  have value : 82312875 * d₁ + 189225 * d₂ + 435 * d₃ + d₄ = 0 := by omega
  have few : -1 ≤ d₁ ∧ d₁ ≤ 1 := by omega
  have derivative : 567675 * d₁ + 870 * d₂ + d₃ = 2 ^ 24 * j := by omega
  have none_ : j = 0 := by omega
  omega

/-! ## Strings that differ in one place -/

theorem first_eq {h : UInt64} {b b' : UInt8} {rest rest' : List UInt8}
    (length : rest.length = rest'.length) (short : rest.length ≤ 3)
    (same : run (step h b) rest = run (step h b') rest') : b = b' := by
  have padded := congrArg (run · (List.replicate (3 - rest.length) 0)) same
  simp only [← run_append] at padded
  have three : (rest ++ List.replicate (3 - rest.length) 0).length = 3 := by simp; omega
  have three' : (rest' ++ List.replicate (3 - rest.length) 0).length = 3 := by simp; omega
  obtain ⟨b₂, b₃, b₄, octets⟩ := List.length_eq_three.mp three
  obtain ⟨b₂', b₃', b₄', octets'⟩ := List.length_eq_three.mp three'
  rw [octets, octets'] at padded
  have start : Differ 0 h h := by rw [Differ, sub_self]
  have differ := (((start.step b b').step b₂ b₂').step b₃ b₃').mixed b₄ b₄'
  -- The last product can be undone, so the difference has vanished in front of it.
  have last := mul_prime_injective padded
  rw [zero_add, Differ, last, sub_self] at differ
  have first := leading_zero (small_mix ..) (small_mix ..) (small_mix ..) (small_mix ..) differ.symm
  have mixed : (h ^^^ b.toUInt64).toNat = (h ^^^ b'.toUInt64).toNat := by
    simp only [mix] at first
    omega
  exact UInt8.toUInt64_inj.mp ((UInt64.xor_right_inj _).mp (UInt64.toNat_inj.mp mixed))

/-- **Four octets in a row are told apart**, from every state. -/
theorem run_near {mid mid' : List UInt8} (length : mid.length = mid'.length)
    (short : mid.length ≤ 4) {h : UInt64} (same : run h mid = run h mid') : mid = mid' := by
  induction mid generalizing mid' h with
  | nil => exact (List.length_eq_zero_iff.mp length.symm).symm
  | cons b rest ih =>
      obtain ⟨b', rest', rfl⟩ := List.exists_cons_of_length_eq_add_one length.symm
      have lengths := Nat.succ.inj length
      obtain rfl := first_eq lengths (Nat.le_of_succ_le_succ short) same
      rw [ih lengths (Nat.le_of_succ_le short) same]

/-- Strings that begin alike and end alike, and have four octets or less of their own, as many
the one as the other. -/
def Near (bytes bytes' : List UInt8) : Prop :=
  ∃ pre mid mid' post, bytes = pre ++ (mid ++ post) ∧ bytes' = pre ++ (mid' ++ post) ∧
    mid.length = mid'.length ∧ mid.length ≤ 4

/-- **Near strings do not collide.** -/
theorem Near.eq_of_run {bytes bytes' : List UInt8} (near : Near bytes bytes') {h : UInt64}
    (same : run h bytes = run h bytes') : bytes = bytes' := by
  obtain ⟨pre, mid, mid', post, rfl, rfl, length, short⟩ := near
  simp only [run_append] at same
  rw [run_near length short (run_left_injective same)]

end DnsLigase.Theory.Fnv
