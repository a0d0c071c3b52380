/-
# Blocklist.Rules — the six rule collections of `blocklist.rs` and the check

Hash sets are finite sets and the regex lists are lists, whose order decides which
pattern is reported.  Compiled patterns come from a third-party engine, of which
the code uses three functions (`RegexEngine`).

`check` borrows a name that has no ASCII capital and lower-cases any other one
(`lowered`), then asks the allow collections before the block collections.
-/
import DnsLigase.Dns.Wire
import DnsLigase.Theory.Case
import Mathlib.Data.Finset.Basic

namespace DnsLigase

open DnsLigase.Theory
open DnsLigase.Theory.Case DnsLigase.Theory.Utf8 DnsLigase.Dns

set_option autoImplicit false

/-- A regex engine with compiled patterns `ρ`: `Regex::new`, `is_match` and `as_str`. -/
class RegexEngine (ρ : Type) where
  new : String → Except String ρ
  isMatch : ρ → String → Bool
  asStr : ρ → String

/-- An engine for patterns of letters and digits, which match wherever they occur. -/
abbrev Literal := String

instance : RegexEngine Literal where
  new pattern :=
    if pattern.toList.all Char.isAlphanum then .ok pattern else .error "not a literal pattern"
  isMatch pattern text := decide (pattern.toList <:+: text.toList)
  asStr pattern := pattern

structure Blocklist (ρ : Type) where
  allowDomains : Finset String
  blockDomains : Finset String
  allowSuffixes : Finset String
  blockSuffixes : Finset String
  allowRegex : List ρ
  blockRegex : List ρ

/-- What the check of a domain comes to, with the rule that decided it. -/
inductive MatchOutcome where
  | blocked (rule : String)
  | allowed (rule : String)
  | forwarded
  deriving DecidableEq, Repr

/-- Some block rule decided. -/
def MatchOutcome.IsBlocked : MatchOutcome → Prop
  | .blocked _ => True
  | _ => False

instance : DecidablePred MatchOutcome.IsBlocked := fun outcome =>
  match outcome with
  | .blocked _ => isTrue trivial
  | .allowed _ => isFalse id
  | .forwarded => isFalse id

namespace Blocklist

variable {ρ : Type}

/-- `Blocklist::new`, which is `Default`. -/
def new : Blocklist ρ where
  allowDomains := ∅
  blockDomains := ∅
  allowSuffixes := ∅
  blockSuffixes := ∅
  allowRegex := []
  blockRegex := []

/-- The loop of `suffix_match`: at every dot, is what stands behind it a rule? -/
def suffixWalk (set : Finset String) : List Char → Option String
  | [] => none
  | c :: rest =>
      if c = '.' ∧ String.ofList rest ∈ set then some (String.ofList rest)
      else suffixWalk set rest

def suffixMatch (set : Finset String) (domain : String) : Option String :=
  if domain ∈ set then some domain else suffixWalk set domain.toList

@[simp] theorem suffixWalk_empty : ∀ cs, suffixWalk ∅ cs = none
  | [] => rfl
  | c :: rest => by simp [suffixWalk, suffixWalk_empty rest]

@[simp] theorem suffixMatch_empty (domain : String) : suffixMatch ∅ domain = none := by
  simp [suffixMatch]

def isAsciiUppercase (b : UInt8) : Bool := 65 ≤ b.toNat && b.toNat ≤ 90

variable [UnicodeCase] [RegexEngine ρ]

/-- The fast path: the domain itself unless an ASCII capital is in it. -/
def lowered (domain : String) : String :=
  if (utf8 domain).any isAsciiUppercase then toLowercase domain else domain

def check (bl : Blocklist ρ) (domain : String) : MatchOutcome :=
  let domainLower := lowered domain
  if domainLower ∈ bl.allowDomains then .allowed ("allow:" ++ domainLower)
  else match bl.allowRegex.find? (RegexEngine.isMatch · domainLower) with
  | some re => .allowed ("allow_regex:" ++ RegexEngine.asStr re)
  | none =>
    match suffixMatch bl.allowSuffixes domainLower with
    | some hit => .allowed ("allow_suffix:" ++ hit)
    | none =>
      if domainLower ∈ bl.blockDomains then .blocked ("block:" ++ domainLower)
      else match suffixMatch bl.blockSuffixes domainLower with
      | some hit => .blocked ("block_suffix:" ++ hit)
      | none =>
        match bl.blockRegex.find? (RegexEngine.isMatch · domainLower) with
        | some re => .blocked ("block_regex:" ++ RegexEngine.asStr re)
        | none => .forwarded

/-! ## What the check can tell apart -/

/-- The list whose only rule blocks `domain`. -/
def blocking (domain : String) : Blocklist ρ := { new with blockDomains := {domain} }

theorem check_blocking (rule domain : String) :
    ((blocking rule : Blocklist ρ).check domain).IsBlocked ↔ lowered domain = rule := by
  by_cases same : lowered domain = rule
  · simp [check, blocking, new, same, MatchOutcome.IsBlocked]
  · simp [check, blocking, new, same, MatchOutcome.IsBlocked]

omit [RegexEngine ρ] in
/-- Lower-casing keeps the dots. -/
theorem count_dot_lowered (domain : String) :
    (lowered domain).toList.count '.' = domain.toList.count '.' := by
  unfold lowered
  split
  · exact neutral_dot.count_toLowercase domain
  · rfl

end Blocklist

end DnsLigase
