/-
# Blocklist.Folding — the fast path of `check`

The list parsers lower-case a rule by Unicode, and so does `check` with a name that has an
ASCII capital.  A name without one is looked up as it is, whatever other capitals are in it.
`folds_iff`: a name and its lower case are checked alike under every blocklist that was read
from lists exactly when the name has an ASCII capital or is its own lower case.

For the converse a list has to tell the two apart, which a pattern of one character does
(`FindsCodePoints`).
-/
import DnsLigase.Blocklist.Sets

namespace DnsLigase

open DnsLigase.Theory
open DnsLigase.Theory.Case DnsLigase.Theory.Text DnsLigase.Theory.Utf8

set_option autoImplicit false

namespace Blocklist

/-! ## Patterns for one character -/

/-- `n` with `k` hexadecimal digits. -/
def digits16 : Nat → Nat → List Char
  | 0, _ => []
  | k + 1, n => digits16 k (n / 16) ++ [Nat.digitChar (n % 16)]

/-- `\UHHHHHHHH`, the escape of one character in a pattern. -/
def codePoint (c : Char) : List Char := '\\' :: 'U' :: digits16 8 c.toNat

theorem mem_digits16 : ∀ {k n : Nat} {d : Char}, d ∈ digits16 k n →
    d ∈ "0123456789abcdef".toList
  | 0, _, _, member => by cases member
  | k + 1, n, d, member => by
      have table : ∀ m < 16, Nat.digitChar m ∈ "0123456789abcdef".toList := by decide
      rcases List.mem_append.mp member with member | member
      · exact mem_digits16 member
      · rw [List.mem_singleton.mp member]
        exact table _ (Nat.mod_lt n (by decide))

theorem mem_codePoint {c d : Char} (member : d ∈ codePoint c) :
    d ∈ "\\U0123456789abcdef".toList := by
  rcases List.mem_cons.mp member with rfl | member
  · decide
  rcases List.mem_cons.mp member with rfl | member
  · decide
  have digits : "0123456789abcdef".toList ⊆ "\\U0123456789abcdef".toList := by decide
  exact digits (mem_digits16 member)

section Patterns

variable (ρ : Type) [RegexEngine ρ]

/-- The escape of a character compiles to a pattern that is found where the character is. -/
def FindsCodePoints : Prop :=
  ∀ c : Char, ∃ re : ρ, RegexEngine.new (String.ofList (codePoint c)) = .ok re ∧
    ∀ text, RegexEngine.isMatch re text ↔ c ∈ text.toList

variable {ρ}

/-- The line of a regex list that blocks the names with `c` in them. -/
theorem parseRegexLine_codePoint {c : Char} {re : ρ} (bl : Blocklist ρ)
    (compiles : RegexEngine.new (String.ofList (codePoint c)) = .ok re) :
    parseRegexLine false bl (codePoint c) = bl.pushRegex false re := by
  have solid : ∀ d ∈ codePoint c, isWhitespace d = false := by
    have table : "\\U0123456789abcdef".toList.all fun d => isWhitespace d = false := by decide
    exact fun d member => of_decide_eq_true (List.all_eq_true.mp table d (mem_codePoint member))
  have noComment : ¬ " -- ".toList <:+: codePoint c := by
    intro found
    exact absurd (solid ' ' (found.subset (by decide))) (by decide)
  have nonempty : codePoint c ≠ [] := List.cons_ne_nil _ _
  have trimmed := Edged.trim (.of_all solid nonempty)
  have whole := before_of_absent noComment
  have bare : stripPrefix ['/'] (codePoint c) = none := rfl
  unfold parseRegexLine
  simp only [trimmed, whole, bare, Option.bind_none, Option.getD_none, compiles, if_neg nonempty]
  rfl

end Patterns

/-! ## A name and its lower case -/

section Check

variable {ρ : Type} [UnicodeCase] [RegexEngine ρ]

omit [RegexEngine ρ] in
theorem lowered_toLowercase (domain : String) :
    lowered (toLowercase domain) = toLowercase domain :=
  lowered_of_no_capital (not_upper_toLowercase domain)

theorem check_congr (bl : Blocklist ρ) {name name' : String} (same : lowered name = lowered name') :
    bl.check name = bl.check name' := by
  unfold check
  rw [same]

theorem check_pattern (re : ρ) (domain : String) :
    ((new.pushRegex false re).check domain).IsBlocked ↔
      RegexEngine.isMatch re (lowered domain) := by
  by_cases found : RegexEngine.isMatch re (lowered domain)
  · simp [check, pushRegex, new, found, MatchOutcome.IsBlocked]
  · simp [check, pushRegex, new, found, MatchOutcome.IsBlocked]

/-- **A name and its lower case are checked alike exactly when the fast path is not taken, or
has nothing to lower.** -/
theorem folds_iff (sigmas : Sigmas) (finds : FindsCodePoints ρ) (domain : String) :
    (∀ items (bl : Blocklist ρ), new.readLines items = some bl →
      bl.check domain = bl.check (toLowercase domain)) ↔
      (utf8 domain).any isAsciiUppercase = true ∨ toLowercase domain = domain := by
  constructor
  · intro alike
    by_contra escapes
    obtain ⟨noCapital, changed⟩ := not_or.mp escapes
    have fast : lowered domain = domain := if_neg noCapital
    -- a character that has another lower case is lost in the lower case of the name
    obtain ⟨c, member, unsettled⟩ : ∃ c ∈ domain.toList, UnicodeCase.lowerChar c ≠ [c] := by
      by_contra settled
      push Not at settled
      exact changed (sigmas.toLowercase_eq_iff.mpr settled)
    have lost : c ∉ (toLowercase domain).toList := fun kept =>
      unsettled (sigmas.settled_toLowercase domain c kept)
    obtain ⟨re, compiles, isMatch⟩ := finds c
    have read : new.readLines [(.regexBlock, codePoint c)] = some (new.pushRegex false re) := by
      rw [← parseRegexLine_codePoint new compiles]
      rfl
    have same := alike _ _ read
    have blocked : ((new.pushRegex false re).check domain).IsBlocked := by
      rw [check_pattern, fast]
      exact (isMatch domain).mpr member
    rw [same, check_pattern, lowered_toLowercase] at blocked
    exact lost ((isMatch _).mp blocked)
  · rintro (capital | same) items bl -
    · refine bl.check_congr ?_
      rw [lowered_toLowercase]
      exact if_pos capital
    · rw [same]

end Check

/-! ## Instances -/

section Instances

/-- `smallTables` and the sigmas. -/
def sigmaTables (c : Char) : List Char := if c = 'Σ' then ['σ'] else smallTables c

theorem smallTables_ne_sigma {c : Char} (other : c ≠ 'Σ') : 'Σ' ∉ smallTables c := by
  intro member
  unfold smallTables at member
  repeat' split at member
  · exact absurd member (by decide)
  · exact absurd member (by decide)
  · exact absurd member (by decide)
  · have same := List.mem_singleton.mp member
    by_cases small : c.toNat < 128
    · exact forall_ascii (P := fun c => 'Σ' ≠ c.toLower) (by decide) c small same
    · rw [toLower_of_large (Nat.not_lt.mp small)] at same
      exact other same.symm

@[reducible] def sigmaCase : UnicodeCase where
  lowerChar := sigmaTables
  cased := smallCase.cased
  caseIgnorable := smallCase.caseIgnorable
  ascii c small := by
    have other : c ≠ 'Σ' := by
      rintro rfl
      exact absurd small (by decide)
    exact (if_neg other).trans (smallCase.ascii c small)
  kelvin := by decide
  dottedI := by decide
  beyond c large kelvin dottedI d member := by
    unfold sigmaTables at member
    split at member
    · rw [List.mem_singleton.mp member]
      decide
    · exact smallCase.beyond c large kelvin dottedI d member
  settled c d member := by
    unfold sigmaTables at member
    split at member
    · rw [List.mem_singleton.mp member]
      decide
    · rename_i other
      have kept : d ≠ 'Σ' := by
        rintro rfl
        exact smallTables_ne_sigma other member
      exact (if_neg kept).trans (smallCase.settled c d member)

theorem sigmaCase_sigmas : @Sigmas sigmaCase := @Sigmas.mk sigmaCase (by decide) (by decide)

/-- The value of hexadecimal digits. -/
def value16 (digits : List Char) : Nat :=
  digits.foldl (fun value d => 16 * value + (if d.isDigit then d.toNat - 48 else d.toNat - 87)) 0

theorem value16_digits16 : ∀ {k n : Nat}, n < 16 ^ k → value16 (digits16 k n) = n
  | 0, n, small => by
      obtain rfl : n = 0 := by simpa using small
      rfl
  | k + 1, n, small => by
      have table : ∀ m < 16, (if (Nat.digitChar m).isDigit then (Nat.digitChar m).toNat - 48
          else (Nat.digitChar m).toNat - 87) = m := by decide
      have front : value16 (digits16 k (n / 16)) = n / 16 :=
        value16_digits16 (Nat.div_lt_of_lt_mul (by rwa [Nat.mul_comm, ← Nat.pow_succ]))
      rw [digits16, value16, List.foldl_append]
      change 16 * value16 (digits16 k (n / 16)) + _ = n
      rw [front, table _ (Nat.mod_lt n (by decide)), Nat.div_add_mod]

/-- An engine for patterns that are one escaped character. -/
abbrev CodePoint := Char

instance : RegexEngine CodePoint where
  new pattern :=
    let c := Char.ofNat (value16 (pattern.toList.drop 2))
    if codePoint c = pattern.toList then .ok c else .error "not an escaped character"
  isMatch c text := decide (c ∈ text.toList)
  asStr c := String.ofList (codePoint c)

theorem findsCodePoints_codePoint : FindsCodePoints CodePoint := by
  intro c
  have small : c.toNat < 16 ^ 8 := c.val.toNat_lt
  have decoded : Char.ofNat (value16 ((codePoint c).drop 2)) = c := by
    rw [show (codePoint c).drop 2 = digits16 8 c.toNat from rfl, value16_digits16 small,
      Char.ofNat_toNat]
  refine ⟨c, ?_, fun text => decide_eq_true_iff⟩
  simp only [RegexEngine.new, String.toList_ofList, decoded, if_true]

theorem folds_iff_codePoint :
    (∀ items (bl : Blocklist CodePoint), @readLines CodePoint sigmaCase _ new items = some bl →
      @check CodePoint sigmaCase _ bl "Ads.com" =
        @check CodePoint sigmaCase _ bl (@toLowercase sigmaCase "Ads.com")) ↔
      (utf8 "Ads.com").any isAsciiUppercase = true ∨ @toLowercase sigmaCase "Ads.com" = "Ads.com" :=
  @folds_iff CodePoint sigmaCase _ sigmaCase_sigmas findsCodePoints_codePoint "Ads.com"

attribute [local instance] smallCase

/-- The rule `é.com` is stored, `É.com` passes and its lower case is blocked. -/
theorem accent_escapes : ∃ bl : Blocklist Literal,
    new.readLines [(.block, "é.com".toList)] = some bl ∧
      bl.check "É.com" ≠ bl.check (toLowercase "É.com") := by
  have outcomes : ((new : Blocklist Literal).readLines [(.block, "é.com".toList)]).map
      (fun bl => (bl.check "É.com", bl.check (toLowercase "É.com"))) =
        some (.forwarded, .blocked "block:é.com") := by decide +kernel
  obtain ⟨bl, read, checked⟩ := Option.map_eq_some_iff.mp outcomes
  obtain ⟨passes, blocked⟩ := Prod.mk.inj checked
  refine ⟨bl, read, ?_⟩
  rw [passes, blocked]
  simp

end Instances

end Blocklist

end DnsLigase
