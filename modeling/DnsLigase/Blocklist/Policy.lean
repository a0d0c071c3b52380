/-
# Blocklist.Policy — the declared policy, and that `check` decides it

The README states the policy in a table: an exact rule is one name, a suffix rule is
"this domain or any subdomain" (`Covers`), a pattern is scanned for, and "allow always
beats block".  `check` reads this off six collections in an order of its own, and finds
suffixes by walking over the dots of the name.

* `suffixMatch_eq_some`: the walk finds the longest suffix rule that covers the name;
* `check_policy`: the outcome is the one of the policy, and the rule reported is stored
  and matches.
-/
import DnsLigase.Blocklist.Rules

namespace DnsLigase

open DnsLigase.Theory
open DnsLigase.Theory.Case DnsLigase.Theory.Utf8

set_option autoImplicit false

/-- What the handlers make of an outcome. -/
inductive Classification where
  | blocked
  | allowed
  | forwarded
  deriving DecidableEq, Repr

def MatchOutcome.classification : MatchOutcome → Classification
  | .blocked _ => .blocked
  | .allowed _ => .allowed
  | .forwarded => .forwarded

theorem MatchOutcome.isBlocked_iff {outcome : MatchOutcome} :
    outcome.IsBlocked ↔ outcome.classification = .blocked := by
  cases outcome <;> simp [IsBlocked, classification]

namespace Blocklist

/-! ## Suffix rules -/

/-- `domain` is `rule`, or ends with a dot and `rule`. -/
def Covers (rule domain : String) : Prop :=
  domain = rule ∨ ('.' :: rule.toList) <:+ domain.toList

/-- A rule of `set` that covers `domain`, and none of them is longer. -/
structure Longest (set : Finset String) (domain rule : String) : Prop where
  stored : rule ∈ set
  covers : Covers rule domain
  longest : ∀ other ∈ set, Covers other domain → other.toList.length ≤ rule.toList.length

/-- The walk passes over no dot with a rule behind it. -/
theorem suffixWalk_eq_none {set : Finset String} : ∀ {cs : List Char},
    suffixWalk set cs = none ↔ ∀ rule ∈ set, ¬ ('.' :: rule.toList) <:+ cs
  | [] => by simp [suffixWalk]
  | c :: rest => by
      have here : ∀ rule : String, '.' :: rule.toList = c :: rest ↔
          c = '.' ∧ rule = String.ofList rest := by
        intro rule
        rw [List.cons.injEq, ← String.toList_inj, String.toList_ofList, eq_comm]
      simp only [List.suffix_cons_iff, here, not_or, suffixWalk]
      split
      · rename_i found
        refine iff_of_false (by simp) fun none_ => ?_
        exact (none_ _ found.2).1 ⟨found.1, rfl⟩
      · rename_i missing
        rw [suffixWalk_eq_none]
        refine forall₂_congr fun rule stored => ?_
        refine ⟨fun behind => ⟨?_, behind⟩, And.right⟩
        rintro ⟨dot, rfl⟩
        exact missing ⟨dot, stored⟩

theorem suffixWalk_eq_some {set : Finset String} : ∀ {cs : List Char} {hit : String},
    suffixWalk set cs = some hit → hit ∈ set ∧ ('.' :: hit.toList) <:+ cs ∧
      ∀ rule ∈ set, ('.' :: rule.toList) <:+ cs → rule.toList.length ≤ hit.toList.length
  | [], _, found => by simp [suffixWalk] at found
  | c :: rest, hit, found => by
      unfold suffixWalk at found
      split at found
      · rename_i here
        obtain rfl := Option.some.inj found
        refine ⟨here.2, by simp [here.1], fun rule _ behind => ?_⟩
        have := behind.length_le
        simp only [List.length_cons, String.toList_ofList] at this ⊢
        omega
      · rename_i missing
        obtain ⟨stored, behind, longest⟩ := suffixWalk_eq_some found
        refine ⟨stored, behind.trans (List.suffix_cons c rest), fun rule stored' behind' => ?_⟩
        rcases List.suffix_cons_iff.mp behind' with whole | behind'
        · obtain ⟨dot, same⟩ := List.cons.inj whole
          refine absurd ⟨dot.symm, ?_⟩ missing
          rwa [← same, String.ofList_toList]
        · exact longest rule stored' behind'

theorem suffixMatch_eq_none {set : Finset String} {domain : String} :
    suffixMatch set domain = none ↔ ∀ rule ∈ set, ¬ Covers rule domain := by
  simp only [suffixMatch, Covers, not_or]
  split
  · rename_i stored
    exact iff_of_false (by simp) fun none_ => (none_ domain stored).1 rfl
  · rename_i missing
    rw [suffixWalk_eq_none]
    refine forall₂_congr fun rule stored => ⟨fun behind => ⟨?_, behind⟩, And.right⟩
    rintro rfl
    exact missing stored

/-- **The walk over the dots finds the longest rule that covers the name.** -/
theorem suffixMatch_eq_some {set : Finset String} {domain hit : String}
    (found : suffixMatch set domain = some hit) : Longest set domain hit := by
  have shorter : ∀ rule, Covers rule domain → rule.toList.length ≤ domain.toList.length := by
    rintro rule (rfl | behind)
    · exact le_rfl
    · exact (Nat.le_succ _).trans behind.length_le
  unfold suffixMatch at found
  split at found
  · rename_i stored
    obtain rfl := Option.some.inj found
    exact ⟨stored, .inl rfl, fun rule _ covers => shorter rule covers⟩
  · rename_i missing
    obtain ⟨stored, behind, longest⟩ := suffixWalk_eq_some found
    refine ⟨stored, .inr behind, fun rule stored' covers => ?_⟩
    rcases covers with rfl | behind'
    · exact absurd stored' missing
    · exact longest rule stored' behind'

/-! ## The policy -/

variable {ρ : Type}

/-- The three collections of one side of the policy. -/
structure Side (ρ : Type) where
  domains : Finset String
  suffixes : Finset String
  patterns : List ρ

def allowSide (bl : Blocklist ρ) : Side ρ := ⟨bl.allowDomains, bl.allowSuffixes, bl.allowRegex⟩

def blockSide (bl : Blocklist ρ) : Side ρ := ⟨bl.blockDomains, bl.blockSuffixes, bl.blockRegex⟩

variable [UnicodeCase] [RegexEngine ρ]

/-- Some rule of the side matches the name. -/
def Side.Matches (side : Side ρ) (domain : String) : Prop :=
  domain ∈ side.domains ∨ (∃ re ∈ side.patterns, RegexEngine.isMatch re domain) ∨
    ∃ rule ∈ side.suffixes, Covers rule domain

/-- `text` names a rule of the side that matches, and a suffix rule only if it is the
longest that does. -/
def Side.Reports (side : Side ρ) (action domain text : String) : Prop :=
  (domain ∈ side.domains ∧ text = action ++ ":" ++ domain) ∨
    (∃ re ∈ side.patterns, RegexEngine.isMatch re domain ∧
      text = action ++ "_regex:" ++ RegexEngine.asStr re) ∨
    ∃ rule, Longest side.suffixes domain rule ∧ text = action ++ "_suffix:" ++ rule

/-- The rule in an outcome is one that the policy may name. -/
def Reported (bl : Blocklist ρ) (domain : String) : MatchOutcome → Prop
  | .allowed text => bl.allowSide.Reports "allow" domain text
  | .blocked text => bl.blockSide.Reports "block" domain text
  | .forwarded => True

/-- What the policy says of `domain`, and the outcome `outcome` says too. -/
structure Decides (bl : Blocklist ρ) (domain : String) (outcome : MatchOutcome) : Prop where
  allowed : outcome.classification = .allowed ↔ bl.allowSide.Matches domain
  blocked : outcome.classification = .blocked ↔
    ¬ bl.allowSide.Matches domain ∧ bl.blockSide.Matches domain
  forwarded : outcome.classification = .forwarded ↔
    ¬ bl.allowSide.Matches domain ∧ ¬ bl.blockSide.Matches domain
  reported : Reported bl domain outcome

section Decide

variable {bl : Blocklist ρ} {domain text : String}

omit [UnicodeCase] in
theorem Side.Reports.matches {side : Side ρ} {action : String}
    (reports : side.Reports action domain text) : side.Matches domain := by
  rcases reports with ⟨stored, -⟩ | ⟨re, stored, isMatch, -⟩ | ⟨rule, longest, -⟩
  · exact .inl stored
  · exact .inr (.inl ⟨re, stored, isMatch⟩)
  · exact .inr (.inr ⟨rule, longest.stored, longest.covers⟩)

omit [UnicodeCase] in
theorem decides_allowed (reports : bl.allowSide.Reports "allow" domain text) :
    Decides bl domain (.allowed text) where
  allowed := iff_of_true rfl reports.matches
  blocked := iff_of_false nofun fun both => both.1 reports.matches
  forwarded := iff_of_false nofun fun both => both.1 reports.matches
  reported := reports

omit [UnicodeCase] in
theorem decides_blocked (passes : ¬ bl.allowSide.Matches domain)
    (reports : bl.blockSide.Reports "block" domain text) : Decides bl domain (.blocked text) where
  allowed := iff_of_false nofun passes
  blocked := iff_of_true rfl ⟨passes, reports.matches⟩
  forwarded := iff_of_false nofun fun both => both.2 reports.matches
  reported := reports

omit [UnicodeCase] in
/-- No rule of the side matches when each of the three lookups comes back empty. -/
theorem Side.not_matches {side : Side ρ} (domains : domain ∉ side.domains)
    (patterns : side.patterns.find? (RegexEngine.isMatch · domain) = none)
    (suffixes : suffixMatch side.suffixes domain = none) : ¬ side.Matches domain := by
  rintro (stored | ⟨re, stored, isMatch⟩ | ⟨rule, stored, covers⟩)
  · exact domains stored
  · exact List.find?_eq_none.mp patterns re stored isMatch
  · exact suffixMatch_eq_none.mp suffixes rule stored covers

end Decide

/-- The lookups, in the order of the source, decide the policy for the lowered name. -/
theorem check_decides (bl : Blocklist ρ) (domain : String) :
    Decides bl (lowered domain) (bl.check domain) := by
  unfold check
  dsimp only
  generalize lowered domain = name
  by_cases exact_ : name ∈ bl.allowDomains
  · rw [if_pos exact_]
    exact decides_allowed (.inl ⟨exact_, rfl⟩)
  rw [if_neg exact_]
  cases pattern : bl.allowRegex.find? (RegexEngine.isMatch · name) with
  | some re =>
      have isMatch := List.find?_some (p := (RegexEngine.isMatch · name)) pattern
      exact decides_allowed (.inr (.inl ⟨re, List.mem_of_find?_eq_some pattern, isMatch, rfl⟩))
  | none =>
  cases suffix : suffixMatch bl.allowSuffixes name with
  | some hit => exact decides_allowed (.inr (.inr ⟨hit, suffixMatch_eq_some suffix, rfl⟩))
  | none =>
  have passes : ¬ bl.allowSide.Matches name := Side.not_matches exact_ pattern suffix
  dsimp only
  by_cases exact' : name ∈ bl.blockDomains
  · rw [if_pos exact']
    exact decides_blocked passes (.inl ⟨exact', rfl⟩)
  rw [if_neg exact']
  cases suffix' : suffixMatch bl.blockSuffixes name with
  | some hit => exact decides_blocked passes (.inr (.inr ⟨hit, suffixMatch_eq_some suffix', rfl⟩))
  | none =>
  cases pattern' : bl.blockRegex.find? (RegexEngine.isMatch · name) with
  | some re =>
      have isMatch := List.find?_some (p := (RegexEngine.isMatch · name)) pattern'
      exact decides_blocked passes
        (.inr (.inl ⟨re, List.mem_of_find?_eq_some pattern', isMatch, rfl⟩))
  | none =>
      have open_ : ¬ bl.blockSide.Matches name := Side.not_matches exact' pattern' suffix'
      exact ⟨iff_of_false nofun passes, iff_of_false nofun fun both => open_ both.2,
        iff_of_true rfl ⟨passes, open_⟩, trivial⟩

omit [UnicodeCase] [RegexEngine ρ] in
/-- The octets of a name show its ASCII capitals. -/
theorem any_isAsciiUppercase {domain : String} :
    (utf8 domain).any isAsciiUppercase = true ↔ ∃ c ∈ domain.toList, c.isUpper := by
  rw [List.any_eq_true]
  constructor
  · rintro ⟨b, member, upper⟩
    rw [← String.ofList_toList (s := domain), utf8_ofList] at member
    obtain ⟨c, inName, member⟩ := List.mem_flatMap.mp member
    unfold isAsciiUppercase at upper
    rw [Bool.and_eq_true, decide_eq_true_eq, decide_eq_true_eq] at upper
    have same := toNat_of_ascii_octet member (by omega)
    refine ⟨c, inName, ?_⟩
    delta Char.isUpper
    have value : c.val.toNat = b.toNat := same
    rw [decide_eq_true_eq, ge_iff_le, UInt32.le_iff_toNat_le, UInt32.le_iff_toNat_le, value]
    exact upper
  · rintro ⟨c, inName, upper⟩
    have table := forall_ascii (P := fun c => c.isUpper →
      (String.utf8EncodeChar c).any isAsciiUppercase) (by decide) c (ascii_of_isUpper upper)
    obtain ⟨b, member, octet⟩ := List.any_eq_true.mp (table upper)
    exact ⟨b, octet_of_mem inName b member, octet⟩

omit [RegexEngine ρ] in
/-- A name without ASCII capitals is checked as it is. -/
theorem lowered_of_no_capital {domain : String} (small : ∀ c ∈ domain.toList, ¬ c.isUpper) :
    lowered domain = domain := by
  unfold lowered
  rw [if_neg]
  intro capital
  obtain ⟨c, inName, upper⟩ := any_isAsciiUppercase.mp capital
  exact small c inName upper

omit [RegexEngine ρ] in
/-- An ASCII name is checked in lower case. -/
theorem lowered_ascii {domain : String} (ascii : ∀ c ∈ domain.toList, c.toNat < 128) :
    lowered domain = String.ofList (domain.toList.map Char.toLower) := by
  unfold lowered
  split
  · exact toLowercase_ascii ascii
  · rename_i small
    have same : ∀ c ∈ domain.toList, c.toLower = c := fun c inName =>
      toLower_of_not_upper fun upper => small (any_isAsciiUppercase.mpr ⟨c, inName, upper⟩)
    rw [List.map_congr_left same, List.map_id', String.ofList_toList]

/-- **`check` computes exactly the declared policy.** -/
theorem check_policy (bl : Blocklist ρ) {domain : String}
    (small : ∀ c ∈ domain.toList, ¬ c.isUpper) : Decides bl domain (bl.check domain) := by
  have decides := check_decides bl domain
  rwa [lowered_of_no_capital small] at decides

/-- Two block suffixes, one inside the other, and an allow pattern. -/
def nestedSuffixes : Blocklist Literal :=
  { new with blockSuffixes := {"com", "ads.com"}, allowRegex := ["good"] }

omit [UnicodeCase] in
/-- A subdomain of both is blocked by the longer one. -/
theorem check_policy_nested :
    @Decides Literal _ nestedSuffixes "x.ads.com" (.blocked "block_suffix:ads.com") := by
  let _ := smallCase
  have checked : nestedSuffixes.check "x.ads.com" = .blocked "block_suffix:ads.com" := by
    decide +kernel
  have small : "x.ads.com".toList.all (fun c => ¬ c.isUpper) = true := by decide +kernel
  rw [← checked]
  exact check_policy nestedSuffixes fun c member =>
    of_decide_eq_true (List.all_eq_true.mp small c member)

end Blocklist

end DnsLigase
