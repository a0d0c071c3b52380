/-
# Theory.Machine — machine integers whose operations may overflow

The operations are those of the integers, and `unsigned` and `signed` say whether the exact
result fits the type, so a computation in `Option` has a value exactly when no operation in it
overflows.  A cast (`as`) never fails; it keeps the value that fits.
-/
import Mathlib.Algebra.Order.Ring.Int
import Mathlib.Data.Int.Init

namespace DnsLigase.Theory.Machine

set_option autoImplicit false

/-- The exact result of an operation on unsigned integers of `w` bits. -/
def unsigned (w : Nat) (x : Int) : Option Nat := if 0 ≤ x ∧ x < 2 ^ w then some x.toNat else none

/-- The exact result of an operation on signed integers of `w` bits. -/
def signed (w : Nat) (x : Int) : Option Int :=
  if -2 ^ (w - 1) ≤ x ∧ x < 2 ^ (w - 1) then some x else none

/-- `as` from a signed type to the unsigned type of `w` bits. -/
def castUnsigned (w : Nat) (x : Int) : Nat := (x % 2 ^ w).toNat

/-- `as` from an unsigned type to the signed type of `w` bits. -/
def castSigned (w : Nat) (x : Nat) : Int := Int.bmod x (2 ^ w)

theorem unsigned_natCast {w n : Nat} {x : Int} (value : x = n) (fits : n < 2 ^ w) :
    unsigned w x = some n := by
  subst value
  rw [unsigned, if_pos ⟨Int.natCast_nonneg n, by exact_mod_cast fits⟩, Int.toNat_natCast]

theorem signed_natCast {w n : Nat} {x : Int} (value : x = n) (fits : n < 2 ^ (w - 1)) :
    signed w x = some (n : Int) := by
  subst value
  have high : (n : Int) < 2 ^ (w - 1) := by exact_mod_cast fits
  exact if_pos ⟨by omega, high⟩

theorem castUnsigned_natCast {w n : Nat} (small : n < 2 ^ w) : castUnsigned w n = n := by
  have same : (n : Int) % 2 ^ w = n :=
    Int.emod_eq_of_lt (Int.natCast_nonneg n) (by exact_mod_cast small)
  rw [castUnsigned, same, Int.toNat_natCast]

theorem castSigned_of_lt {w n : Nat} (small : 2 * n < 2 ^ w) : castSigned w n = n :=
  Int.bmod_eq_of_le_mul_two (by omega) (by omega)

/-- A computation goes on with the value of its first step. -/
theorem of_bind {α β : Type} {x : Option α} {a : α} {f : α → Option β} {r : Option β}
    (first : x = some a) (rest : f a = r) : (x >>= f) = r := by
  rw [first]
  exact rest

end DnsLigase.Theory.Machine
