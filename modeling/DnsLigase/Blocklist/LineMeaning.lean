/-
# Blocklist.LineMeaning — what one line makes of an empty blocklist

Each form of a line leaves one rule, so the check answers a query in one way where the rule
matches and forwards it elsewhere (`check_new_add`).  `line_means` states this with words about
the query: it is the host of the line, or ends with a dot and that host, whatever the letter
case.  `notads.com` and `ads.com.evil.net` do not match a rule for `ads.com`.
-/
import DnsLigase.Blocklist.Syntax

namespace DnsLigase

open DnsLigase.Theory
open DnsLigase.Theory.Case DnsLigase.Theory.Text

set_option autoImplicit false

namespace Blocklist

/-! ## Queries -/

/-- The query is the name, but for the letter case. -/
def Names (name : List Char) (query : String) : Prop := eqIgnoreAsciiCase query.toList name = true

/-- The query ends with a dot and the name, but for the letter case. -/
def Below (name : List Char) (query : String) : Prop :=
  ∃ front tail, query.toList = front ++ '.' :: tail ∧ eqIgnoreAsciiCase tail name = true

/-- Only a dot lowers to a dot. -/
theorem toLower_eq_dot {c : Char} (lowered_ : c.toLower = '.') : c = '.' := by
  by_cases small : c.toNat < 128
  · exact forall_ascii (P := fun c => c.toLower = '.' → c = '.') neutral_dot.only c small lowered_
  · rwa [toLower_of_large (Nat.not_lt.mp small)] at lowered_

theorem below_iff {name : List Char} {query : String} :
    Below name query ↔ ('.' :: name.map Char.toLower) <:+ query.toList.map Char.toLower := by
  simp only [Below, eqIgnoreAsciiCase, decide_eq_true_eq]
  constructor
  · rintro ⟨front, tail, whole, same⟩
    rw [whole, List.map_append, List.map_cons, same]
    exact List.suffix_append _ _
  · rintro ⟨front', whole⟩
    obtain ⟨front, rest, split, -, mapped⟩ := List.map_eq_append_iff.mp whole.symm
    obtain ⟨c, tail, rfl, dot, same⟩ := List.map_eq_cons_iff.mp mapped
    obtain rfl := toLower_eq_dot dot
    exact ⟨front, tail, split, same⟩

/-! ## One rule -/

section Lines

variable (ρ : Type) [UnicodeCase] [RegexEngine ρ]

/-- The answer is that of the side where `holds`, and elsewhere the query is forwarded. -/
structure Answers (isAllow : Bool) (holds : Prop) (outcome : Classification) : Prop where
  decided : outcome = (if isAllow then .allowed else .blocked) ↔ holds
  forwarded : outcome = .forwarded ↔ ¬ holds

variable {ρ}

omit [UnicodeCase] in
/-- A rule adds the names that it matches to those of its side. -/
theorem side_add_matches (bl : Blocklist ρ) (rule : Rule ρ) (isAllow : Bool) (domain : String) :
    ((bl.add rule).side isAllow).Matches domain ↔
      (bl.side isAllow).Matches domain ∨ rule.isAllow = isAllow ∧ rule.Matches domain := by
  rw [side_matches, side_matches, rules_add]
  simp only [Set.mem_union, Set.mem_singleton_iff, or_and_right, exists_or, exists_eq_left]

omit [UnicodeCase] in
theorem side_new (isAllow : Bool) (domain : String) :
    ¬ ((new : Blocklist ρ).side isAllow).Matches domain := by
  rw [side_matches, rules_new]
  rintro ⟨rule, ⟨⟩, -⟩

/-- A blocklist with one rule answers where the rule matches. -/
theorem check_new_add (rule : Rule ρ) (query : String) :
    Answers rule.isAllow (rule.Matches (lowered query))
      ((new.add rule).check query).classification := by
  have side : ∀ isAllow, ((new.add rule).side isAllow).Matches (lowered query) ↔
      rule.isAllow = isAllow ∧ rule.Matches (lowered query) := by
    intro isAllow
    rw [side_add_matches, or_iff_right (side_new isAllow _)]
  have allow : (new.add rule).allowSide.Matches (lowered query) ↔ _ := side true
  have block : (new.add rule).blockSide.Matches (lowered query) ↔ _ := side false
  have decides := check_decides (new.add rule) query
  cases isAllow : rule.isAllow with
  | true =>
      simp only [isAllow, true_and, reduceCtorEq, false_and] at allow block
      exact ⟨decides.allowed.trans allow, decides.forwarded.trans (by simp [allow, block])⟩
  | false =>
      simp only [isAllow, true_and, reduceCtorEq, false_and] at allow block
      exact ⟨decides.blocked.trans (by simp [allow, block]),
        decides.forwarded.trans (by simp [allow, block])⟩

section Query

variable {query : String} (ascii : ∀ c ∈ query.toList, c.toNat < 128)
include ascii

omit [RegexEngine ρ] in
theorem lowered_eq_iff (word : Word) :
    lowered query = lowercase word.text ↔ Names word.text query := by
  rw [lowered_ascii ascii, word.lowercase_text, Names, eqIgnoreAsciiCase, decide_eq_true_eq,
    String.ofList_inj]

omit [RegexEngine ρ] in
theorem covers_iff (word : Word) : Covers (lowercase word.text) (lowered query) ↔
    Names word.text query ∨ Below word.text query := by
  rw [Covers, lowered_eq_iff ascii, below_iff, lowered_ascii ascii, word.lowercase_text,
    String.toList_ofList, String.toList_ofList]

end Query

/-! ## The forms of a line -/

variable (ρ)

/-- Read into an empty blocklist, the line makes it answer the query so. -/
def Means (line : List Char) (asAllow isAllow : Bool) (query : String) (holds : Prop) : Prop :=
  ∃ bl : Blocklist ρ, new.parseAutoMode line asAllow = some (.ok (), bl) ∧
    Answers isAllow holds (bl.check query).classification

variable {ρ}

theorem means_of_rule (rule : Rule ρ) {line : List Char} {asAllow : Bool} {query : String}
    {holds : Prop} (parsed : new.parseAutoMode line asAllow = some (.ok (), new.add rule))
    (same : rule.Matches (lowered query) ↔ holds) :
    Means ρ line asAllow rule.isAllow query holds := by
  obtain ⟨decided, forwarded⟩ := check_new_add rule query
  exact ⟨_, parsed, decided.trans same, forwarded.trans (not_congr same)⟩

/-- A host at the end of a line that is not an AdBlock rule is an exact rule. -/
theorem means_exact (host : Hostname) (ordinary : localName host.text = false) (front : List Char)
    (starts : ∃ c rest, front ++ host.text = c :: rest ∧ plainChar c = true) (clean : '#' ∉ front)
    (apart : front = [] ∨ ∃ rest w, front = rest ++ [w] ∧ isWhitespace w = true) (asAllow : Bool)
    {query : String} (ascii : ∀ c ∈ query.toList, c.toNat < 128) :
    Means ρ (front ++ host.text) asAllow asAllow query (Names host.text query) := by
  have parsed := parseAutoMode_wordLine (new : Blocklist ρ) asAllow host.word starts clean apart
    (List.forall_mem_nil _) (.inl rfl)
  have unmarked : ¬ (cosmetic [] = true ∨ localName host.text = true) := by
    rw [ordinary]
    decide
  rw [List.append_nil, List.append_nil, show host.word.text = host.text from rfl,
    if_neg unmarked] at parsed
  exact means_of_rule (.domain asAllow (lowercase host.text)) parsed
    (lowered_eq_iff ascii host.word)

variable (ρ)

/-- **What the lines of a list mean.** -/
theorem line_means (host : Hostname) (ordinary : localName host.text = false)
    (options : Option (List Char)) (address : Address) {gap : List Char} (apart : gap ≠ [])
    (white : ∀ c ∈ gap, isWhitespace c = true) (asAllow : Bool) {query : String}
    (ascii : ∀ c ∈ query.toList, c.toNat < 128) :
    Means ρ (suffixLine false host.word options) asAllow asAllow query
      (Names host.text query ∨ Below host.text query) ∧
    Means ρ (suffixLine true host.word options) asAllow true query
      (Names host.text query ∨ Below host.text query) ∧
    Means ρ host.text asAllow asAllow query (Names host.text query) ∧
    Means ρ (address.text ++ (gap ++ host.text)) asAllow asAllow query
      (Names host.text query) := by
  have suffixLine_means : ∀ exception, Means ρ (suffixLine exception host.word options) asAllow
      (asAllow || exception) query (Names host.text query ∨ Below host.text query) := by
    intro exception
    have parsed := parseAutoMode_suffixLine host.word (new : Blocklist ρ) asAllow exception options
    exact means_of_rule (.suffix (asAllow || exception) (lowercase host.text)) parsed
      (covers_iff ascii host.word)
  refine ⟨?_, ?_, ?_, ?_⟩
  · simpa using suffixLine_means false
  · simpa using suffixLine_means true
  · obtain ⟨c, rest, whole, plain⟩ := host.word.starts []
    rw [List.append_nil] at whole
    exact means_exact host ordinary [] ⟨c, rest, whole, plain⟩ List.not_mem_nil (.inl rfl)
      asAllow ascii
  · have clean : '#' ∉ address.text ++ gap := by
      simp [hash_not_mem_plain address.plain, hash_not_mem_white white]
    rw [← List.append_assoc]
    refine means_exact host ordinary _ ?_ clean (.inr (ends_in_gap apart white _)) asAllow ascii
    rw [List.append_assoc]
    exact address.starts (gap ++ host.text)

end Lines

attribute [local instance] smallCase

def adsHost : Hostname where
  labels := [['a', 'd', 's'], ['c', 'o', 'm']]
  nonempty := by decide
  whole := labels_whole (by decide)

def nullAddress : Address where
  text := "0.0.0.0".toList
  nonempty := by decide
  plain := List.all_eq_true.mp (by decide)

/-- A rule for a host, and a query for a name below it. -/
theorem line_means_adsHost :
    Means Literal (suffixLine false adsHost.word (some "third-party".toList)) false false
      "x.Ads.com" (Names adsHost.text "x.Ads.com" ∨ Below adsHost.text "x.Ads.com") := by
  have small : "x.Ads.com".toList.all (fun c => c.toNat < 128) = true := by decide
  have ascii : ∀ c ∈ "x.Ads.com".toList, c.toNat < 128 := fun c member =>
    of_decide_eq_true (List.all_eq_true.mp small c member)
  exact (line_means Literal adsHost (by decide) (some "third-party".toList) nullAddress
    (List.cons_ne_nil ' ' []) (List.forall_mem_singleton.mpr (by decide)) false ascii).1

end Blocklist

end DnsLigase
