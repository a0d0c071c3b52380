/-
# Blocklist.LocalNames — hosts lines never block the names of the local network

`clean_domain_static` drops four names before they are lower-cased, so it has to be shown that
nothing else lowers to one of them.  Among the characters outside ASCII only the Kelvin sign
and the dotted capital I lower into ASCII, the one to a `k`, which none of the four names has,
and the other to two characters of which one is not ASCII (`localName_of_lowercase`).

The invariant of a body of hosts lines is `NoLocal`: no block suffix, no block pattern, and no
local name among the blocked ones.
-/
import DnsLigase.Blocklist.Monotone

namespace DnsLigase

open DnsLigase.Theory
open DnsLigase.Theory.Case DnsLigase.Theory.Loop DnsLigase.Theory.Text

set_option autoImplicit false

namespace Blocklist

def localNames : List String :=
  ["localhost", "localhost.localdomain", "broadcasthost", "local"]

theorem localName_iff_same {name : List Char} :
    localName name = true ↔ ∃ n ∈ localNames, eqIgnoreAsciiCase name n.toList = true := by
  simp [localName, localNames, or_assoc]

/-- The four names are in lower case. -/
theorem localName_iff {name : List Char} :
    localName name = true ↔ String.ofList (name.map Char.toLower) ∈ localNames := by
  have small : localNames.all (fun n => n.toList.map Char.toLower = n.toList) = true := by decide
  have lower : ∀ n ∈ localNames, eqIgnoreAsciiCase name n.toList = true ↔
      n = String.ofList (name.map Char.toLower) := by
    intro n member
    rw [eqIgnoreAsciiCase, decide_eq_true_eq,
      of_decide_eq_true (List.all_eq_true.mp small n member), ← String.toList_inj, String.toList_ofList, eq_comm]
  rw [localName_iff_same]
  constructor
  · rintro ⟨n, member, same⟩
    exact (lower n member).mp same ▸ member
  · intro member
    exact ⟨_, member, (lower _ member).mpr rfl⟩

section Body

variable {ρ : Type} [UnicodeCase] [RegexEngine ρ]

omit [RegexEngine ρ] in
/-- A query for a local name in any letter case is checked as that name. -/
theorem lowered_of_localName {query : String} (name : localName query.toList = true) :
    lowered query ∈ localNames := by
  have lower := localName_iff.mp name
  have table : localNames.all (fun n => n.toList.all fun c => c.toNat < 128) = true := by decide
  have ascii : ∀ c ∈ query.toList, c.toNat < 128 := by
    intro c member
    by_contra large
    -- a character outside ASCII would be in the local name
    have kept : c ∈ query.toList.map Char.toLower :=
      List.mem_map.mpr ⟨c, member, toLower_of_large (Nat.not_lt.mp large)⟩
    have small := List.all_eq_true.mp (List.all_eq_true.mp table _ lower) c
      (by rwa [String.toList_ofList])
    exact large (of_decide_eq_true small)
  rwa [lowered_ascii ascii]

omit [RegexEngine ρ] in
/-- **Only a local name lowers to a local name.** -/
theorem localName_of_lowercase (mapped : Mapped) {name : List Char}
    (lower : lowercase name ∈ localNames) : localName name = true := by
  have table : localNames.all (fun n => n.toList.all fun c => c.toNat < 128 ∧ c ≠ 'k') = true := by
    decide
  have small : ∀ d ∈ (lowercase name).toList, d.toNat < 128 ∧ d ≠ 'k' := fun d member =>
    of_decide_eq_true (List.all_eq_true.mp (List.all_eq_true.mp table _ lower) d member)
  have ascii := mapped.ascii_of_toLowercase small
  rw [lowercase, toLowercase_ascii ascii, String.toList_ofList] at lower
  exact localName_iff.mpr lower

/-! ## The invariant -/

/-- Nothing on the block side matches a local name. -/
structure NoLocal (bl : Blocklist ρ) : Prop where
  domains : ∀ name ∈ localNames, name ∉ bl.blockDomains
  suffixes : bl.blockSuffixes = ∅
  patterns : bl.blockRegex = []

omit [UnicodeCase] [RegexEngine ρ] in
theorem noLocal_new : NoLocal (new : Blocklist ρ) :=
  ⟨fun _ _ => Finset.notMem_empty _, rfl, rfl⟩

omit [UnicodeCase] [RegexEngine ρ] in
/-- The invariant is about the block side only. -/
theorem NoLocal.of_blockSide {bl bl' : Blocklist ρ} (clean : NoLocal bl)
    (same : bl'.blockSide = bl.blockSide) : NoLocal bl' := by
  obtain ⟨domains, suffixes, patterns⟩ := Side.mk.inj same
  exact ⟨domains ▸ clean.domains, suffixes.trans clean.suffixes, patterns.trans clean.patterns⟩

/-- The line is like one of a hosts file, or an exception to one: behind a leading `@@`, if
there is one, it does not start with `||`, nor start and end with a slash. -/
def HostsStyle (line : List Char) : Prop :=
  let text := (stripPrefix ['@', '@'] (trim line)).getD (trim line)
  ¬ ['|', '|'].isPrefixOf text ∧ ¬ (['/'].isPrefixOf text ∧ ['/'].isSuffixOf text)

instance : DecidablePred HostsStyle := fun _ => inferInstanceAs (Decidable (_ ∧ _))

omit [UnicodeCase] [RegexEngine ρ] in
theorem HostsStyle.plain {line : List Char} (hosts : HostsStyle line) (noAt : hasAt line = false) :
    adBlockForm line = false := by
  unfold HostsStyle stripPrefix at hosts
  unfold adBlockForm
  unfold hasAt at noAt ⊢
  simp only [noAt, Bool.false_eq_true, if_false, Option.getD_none, not_and,
    Bool.not_eq_true] at hosts
  rw [hosts.1, noAt, Bool.false_or, Bool.false_or, Bool.and_eq_false_iff]
  exact Decidable.or_iff_not_imp_left.mpr fun front => hosts.2 (Bool.not_eq_false _ ▸ front)

omit [RegexEngine ρ] in
theorem NoLocal.parseBare (mapped : Mapped) {bl bl' : Blocklist ρ} (clean : NoLocal bl)
    {line : List Char} {result : Except String Unit}
    (parsed : bl.parseBare line false = some (result, bl')) : NoLocal bl' := by
  rw [parseBare_eq] at parsed
  cases found : (cleanDomainStatic line).join with
  | none =>
      rw [found] at parsed
      cases parsed
      exact clean
  | some domain =>
      rw [found] at parsed
      cases parsed
      have other := (cleanDomainStatic_eq_some.mp (Option.join_eq_some_iff.mp found)).2.2.2
      refine ⟨fun name member stored => ?_, clean.suffixes, clean.patterns⟩
      rcases Finset.mem_insert.mp stored with rfl | stored
      · rw [localName_of_lowercase mapped member] at other
        cases other
      · exact clean.domains name member stored

theorem NoLocal.step (mapped : Mapped) {bl bl' : Blocklist ρ} (clean : NoLocal bl)
    {line : List Char} (hosts : HostsStyle line) {result : Except String Unit}
    (parsed : bl.parseAutoMode line false = some (result, bl')) : NoLocal bl' := by
  cases at_ : hasAt line with
  | true =>
      have grows := (parseAutoMode_routes line false).growsOnly parsed
      rw [at_] at grows
      exact clean.of_blockSide grows.other
  | false =>
      rw [parseAutoMode_plain (hosts.plain at_)] at parsed
      split at parsed
      · cases parsed
        exact clean
      · exact clean.parseBare mapped parsed

/-- In every state of reading such lines into an empty blocklist. -/
theorem noLocal_of_foldLines (mapped : Mapped) {ls : List (List Char)} {bl : Blocklist ρ}
    (hosts : ∀ line ∈ ls, HostsStyle line) (read : foldLines false new ls = some bl) :
    NoLocal bl := by
  refine foldlM_rel (R := fun before after => NoLocal before → NoLocal after) (fun _ => id)
    (fun first second => second ∘ first) ls (fun line member bl bl' turn clean => ?_) new bl read
    noLocal_new
  obtain ⟨⟨result, bl''⟩, parsed, rfl⟩ := Option.map_eq_some_iff.mp turn
  exact clean.step mapped (hosts line member) parsed

/-- Nothing that matches a local name is on the block side. -/
theorem NoLocal.not_blocked {bl : Blocklist ρ} (clean : NoLocal bl) {query : String}
    (name : localName query.toList = true) : ¬ (bl.check query).IsBlocked := by
  intro blocked
  obtain ⟨-, stored | ⟨re, stored, -⟩ | ⟨rule, stored, -⟩⟩ :=
    (check_decides bl query).blocked.mp (MatchOutcome.isBlocked_iff.mp blocked)
  · exact clean.domains _ (lowered_of_localName name) stored
  · have none_ : bl.blockRegex = [] := clean.patterns
    rw [show bl.blockSide.patterns = [] from none_] at stored
    cases stored
  · have none_ : bl.blockSuffixes = ∅ := clean.suffixes
    rw [show bl.blockSide.suffixes = ∅ from none_] at stored
    exact absurd stored (Finset.notMem_empty _)

/-- **Hosts-style lines never block a local name**, in any letter case of it, and in no state
on the way to the end of the body. -/
theorem local_not_blocked (mapped : Mapped) {body : String}
    (hosts : ∀ line ∈ lines body.toList, HostsStyle line) {ls : List (List Char)}
    (front : ls <+: lines body.toList) {bl : Blocklist ρ}
    (read : foldLines false new ls = some bl) {query name : String} (member : name ∈ localNames)
    (same : eqIgnoreAsciiCase query.toList name.toList = true) : ¬ (bl.check query).IsBlocked := by
  have clean := noLocal_of_foldLines mapped (fun line found => hosts line (front.subset found)) read
  exact clean.not_blocked (localName_iff_same.mpr ⟨name, member, same⟩)

end Body

attribute [local instance] smallCase

/-- Local names behind an address, at the end of other hosts, in capitals and with dots. -/
def localBody : String :=
  "127.0.0.1 localhost # loopback\n0.0.0.0 ads.com LOCAL..\n@@Localhost\nbroadcasthost\n"

theorem local_not_blocked_localBody : ∃ bl : Blocklist Literal,
    new.parseLinesInto localBody = some bl ∧ ¬ (bl.check "LocalHost").IsBlocked := by
  have read : ((new : Blocklist Literal).parseLinesInto localBody).isSome := by decide +kernel
  obtain ⟨bl, read⟩ := Option.isSome_iff_exists.mp read
  exact ⟨bl, read, local_not_blocked smallCase_mapped (by decide +kernel) (List.prefix_refl _) read
    (show "localhost" ∈ localNames by decide) (by decide)⟩

end Blocklist

end DnsLigase
