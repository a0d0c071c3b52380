/-
# Blocklist.Cosmetic — cosmetic rules in a list

A cosmetic rule has a list of domains, a separator and a body.  `clean_domain_static` looks for
four markers and takes what stands behind the first `#` for a comment, so behind any other
separator the list of domains becomes a rule, as if it were one hostname.
`cosmetic_rule_ignored_iff` says which cosmetic rules leave a blocklist alone.
-/
import DnsLigase.Blocklist.LineMeaning

namespace DnsLigase

open DnsLigase.Theory
open DnsLigase.Theory.Case DnsLigase.Theory.Text

set_option autoImplicit false

namespace Blocklist

/-! ## Cosmetic rules -/

/-- The separators of cosmetic and scriptlet rules, with and without an exception. -/
def separators : List (List Char) :=
  ["##".toList, "#@#".toList, "#?#".toList, "#@?#".toList, "#$#".toList, "#@$#".toList,
    "#$?#".toList, "#@$?#".toList, "#%#".toList, "#@%#".toList]

theorem separator_hash {separator : List Char} (member : separator ∈ separators) :
    ∃ rest, separator = '#' :: rest := by
  have table : separators.all (fun s => s.head? = some '#') = true := by decide
  have first := of_decide_eq_true (List.all_eq_true.mp table separator member)
  exact ⟨separator.tail, (List.cons_head?_tail first).symm⟩

/-- Hostnames with commas in between. -/
structure HostList where
  hosts : List Hostname
  nonempty : hosts ≠ []

def HostList.text (domains : HostList) : List Char :=
  [','].intercalate (domains.hosts.map Hostname.text)

/-- To the parsers it is a word, like a hostname. -/
def HostList.word (domains : HostList) : Word where
  text := domains.text
  plain := forall_mem_intercalate (List.forall_mem_singleton.mpr (by decide)) fun text member => by
    obtain ⟨host, -, rfl⟩ := List.mem_map.mp member
    exact host.word.plain
  ends := by
    refine .intercalate [','] (fun text member => ?_) (mt List.map_eq_nil_iff.mp domains.nonempty)
    obtain ⟨host, -, rfl⟩ := List.mem_map.mp member
    exact host.word.ends

/-! ## What becomes of them -/

theorem insertDomain_eq_self {ρ : Type} {bl : Blocklist ρ} {isAllow : Bool} {domain : String} :
    bl.insertDomain isAllow domain = bl ↔ domain ∈ (bl.side isAllow).domains := by
  obtain ⟨allowDomains, blockDomains, _, _, _, _⟩ := bl
  cases isAllow <;> simp [insertDomain, side, allowSide, blockSide]

section Lines

variable {ρ : Type} [UnicodeCase] [RegexEngine ρ]

/-- The line leaves every collection as it is. -/
def Ignores (bl : Blocklist ρ) (line : List Char) (asAllow : Bool) : Prop :=
  ∃ result, bl.parseAutoMode line asAllow = some (result, bl)

/-- A cosmetic rule without a marker makes one exact rule of its list of domains. -/
theorem parseAutoMode_cosmetic (bl : Blocklist ρ) (asAllow : Bool) (domains : HostList)
    {separator : List Char} (member : separator ∈ separators) (body : List Char) :
    bl.parseAutoMode (domains.text ++ (separator ++ body)) asAllow =
      some (.ok (), if cosmetic (separator ++ body) = true ∨ localName domains.text = true then bl
        else bl.insertDomain asAllow (lowercase domains.text)) := by
  obtain ⟨rest, hash⟩ := separator_hash member
  refine parseAutoMode_word bl asAllow domains.word (.inr ⟨rest ++ body, ?_⟩)
  rw [hash, List.cons_append]

/-- **A cosmetic rule is ignored** exactly when a marker that the source looks for stands
somewhere from its separator on, or when there is nothing to add: its list of domains is a local
name, or a rule already. -/
theorem cosmetic_rule_ignored_iff (bl : Blocklist ρ) (asAllow : Bool) (domains : HostList)
    {separator : List Char} (member : separator ∈ separators) (body : List Char) :
    bl.Ignores (domains.text ++ (separator ++ body)) asAllow ↔
      cosmetic (separator ++ body) = true ∨ localName domains.text = true ∨
        lowercase domains.text ∈ (bl.side asAllow).domains := by
  have settled : bl.Ignores (domains.text ++ (separator ++ body)) asAllow ↔
      (if cosmetic (separator ++ body) = true ∨ localName domains.text = true then bl
        else bl.insertDomain asAllow (lowercase domains.text)) = bl := by
    simp only [Ignores, parseAutoMode_cosmetic bl asAllow domains member body, Option.some.injEq,
      Prod.mk.injEq, exists_eq_left']
  rw [settled, ← or_assoc]
  split
  · rename_i kept
    exact iff_of_true rfl (.inl kept)
  · rename_i added
    rw [insertDomain_eq_self, or_iff_right added]

end Lines

attribute [local instance] smallCase

/-- One domain, whose rule is behind a separator that the source looks for, or not. -/
def adsList : HostList := ⟨[adsHost], by decide⟩

theorem cosmetic_rule_ignored_iff_adsList :
    (new : Blocklist Literal).Ignores (adsList.text ++ ("##".toList ++ ".banner".toList)) false ↔
      cosmetic ("##".toList ++ ".banner".toList) = true ∨ localName adsList.text = true ∨
        lowercase adsList.text ∈ ((new : Blocklist Literal).side false).domains :=
  cosmetic_rule_ignored_iff new false adsList (by decide) ".banner".toList

/-- A scriptlet rule for a domain blocks the domain. -/
theorem scriptlet_not_ignored :
    "#%#".toList ∈ separators ∧
    ¬ (new : Blocklist Literal).Ignores
      (adsList.text ++ ("#%#".toList ++ "//scriptlet('x')".toList)) false := by
  refine ⟨by decide, ?_⟩
  rintro ⟨result, same⟩
  have blocked : ((new : Blocklist Literal).parseAutoMode
      (adsList.text ++ ("#%#".toList ++ "//scriptlet('x')".toList)) false).map
        (fun parse => parse.2.blockDomains) = some {"ads.com"} := by decide +kernel
  rw [same] at blocked
  exact Finset.singleton_ne_empty _ (Option.some.inj blocked).symm

end Blocklist

end DnsLigase
