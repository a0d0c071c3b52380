/-
# Blocklist.HostsLines — hosts lines with more than one hostname

A line of a hosts file is an address and the names of that host.  `clean_domain_static` takes
the last word in front of the comment, so of the names of a line only the last one becomes a
rule, and none does when the comment has a marker of a cosmetic rule in it.
`hosts_line_blocked_iff` says which lines are still blocked as a whole.
-/
import DnsLigase.Blocklist.LineMeaning

namespace DnsLigase

open DnsLigase.Theory
open DnsLigase.Theory.Case DnsLigase.Theory.Text

set_option autoImplicit false

namespace Blocklist

/-! ## Hosts lines -/

/-- A hostname on a hosts line, and the whitespace in front of it. -/
structure Token where
  gap : List Char
  apart : gap ≠ []
  white : ∀ c ∈ gap, isWhitespace c = true
  host : Hostname

def Token.text (token : Token) : List Char := token.gap ++ token.host.text

/-- The name as a query asks for it. -/
def Token.query (token : Token) : String := String.ofList token.host.text

theorem Token.ascii (token : Token) : ∀ c ∈ token.query.toList, c.toNat < 128 := by
  rw [query, String.toList_ofList]
  exact fun c member => ascii_of_plainChar (token.host.word.plain c member)

/-- An address, one or more hostnames, and perhaps a comment. -/
structure HostsLine where
  address : Address
  others : List Token
  last : Token
  trailing : List Char
  white : ∀ c ∈ trailing, isWhitespace c = true
  comment : Option (List Char)

namespace HostsLine

variable (line : HostsLine)

def tokens : List Token := line.others ++ [line.last]

/-- The whitespace behind the last hostname, -/
def space : List Char := line.trailing ++ line.comment.elim [] fun _ => [' ']

/-- and what stands behind that. -/
def note : List Char := line.comment.elim [] ('#' :: ·)

def text : List Char :=
  line.address.text ++ (line.tokens.flatMap Token.text ++ (line.space ++ line.note))

theorem space_white : ∀ c ∈ line.space, isWhitespace c = true := by
  refine List.forall_mem_append.mpr ⟨line.white, ?_⟩
  cases line.comment with
  | none => exact List.forall_mem_nil _
  | some note => exact List.forall_mem_singleton.mpr (by decide)

theorem note_hash : line.note = [] ∨ ∃ rest, line.note = '#' :: rest := by
  unfold note
  cases line.comment with
  | none => exact .inl rfl
  | some note => exact .inr ⟨note, rfl⟩

/-- All of the line in front of its last hostname. -/
def front : List Char :=
  line.address.text ++ (line.others.flatMap Token.text ++ line.last.gap)

theorem text_eq : line.text = line.front ++ (line.last.host.text ++ (line.space ++ line.note)) := by
  simp [text, front, tokens, Token.text]

theorem front_clean : '#' ∉ line.front := by
  have token_clean : ∀ token : Token, '#' ∉ token.text := by
    intro token member
    rcases List.mem_append.mp member with inGap | inHost
    · exact hash_not_mem_white token.white inGap
    · exact hash_not_mem_plain token.host.word.plain inHost
  simp [front, hash_not_mem_plain line.address.plain, token_clean,
    hash_not_mem_white line.last.white]

theorem front_apart : ∃ rest w, line.front = rest ++ [w] ∧ isWhitespace w = true := by
  rw [front, ← List.append_assoc]
  exact ends_in_gap line.last.apart line.last.white _

end HostsLine

/-! ## What such a line blocks -/

/-- A name is local in any letter case. -/
theorem localName_congr {name name' : List Char} (same : eqIgnoreAsciiCase name name' = true) :
    localName name = localName name' := by
  rw [eqIgnoreAsciiCase, decide_eq_true_eq] at same
  simp only [localName, eqIgnoreAsciiCase, same]

section Lines

variable {ρ : Type} [UnicodeCase] [RegexEngine ρ]

/-- A hosts line adds an exact rule for its last hostname, or nothing. -/
theorem parseAutoMode_hostsLine (bl : Blocklist ρ) (line : HostsLine) :
    bl.parseAutoMode line.text false =
      some (.ok (), if cosmetic line.note = true ∨ localName line.last.host.text = true then bl
        else bl.add (.domain false (lowercase line.last.host.text))) := by
  rw [line.text_eq]
  refine parseAutoMode_wordLine bl false line.last.host.word ?_ line.front_clean
    (.inr line.front_apart) line.space_white line.note_hash
  rw [HostsLine.front, List.append_assoc]
  exact line.address.starts _

/-- A name without an allow rule is blocked when a block rule matches it. -/
theorem isBlocked_iff_of_not_allowed {bl : Blocklist ρ} {query : String}
    (open_ : ¬ bl.allowSide.Matches (lowered query)) :
    (bl.check query).IsBlocked ↔ bl.blockSide.Matches (lowered query) := by
  rw [MatchOutcome.isBlocked_iff, (check_decides bl query).blocked, and_iff_right open_]

/-- A block rule blocks what it matches, too. -/
theorem isBlocked_add_iff {bl : Blocklist ρ} {rule : Rule ρ} (block : rule.isAllow = false)
    {query : String} (open_ : ¬ bl.allowSide.Matches (lowered query)) :
    ((bl.add rule).check query).IsBlocked ↔
      bl.blockSide.Matches (lowered query) ∨ rule.Matches (lowered query) := by
  have allow : (bl.add rule).allowSide.Matches (lowered query) ↔ _ :=
    side_add_matches bl rule true (lowered query)
  have blocks : (bl.add rule).blockSide.Matches (lowered query) ↔ _ :=
    side_add_matches bl rule false (lowered query)
  rw [block] at allow blocks
  have open' : ¬ (bl.add rule).allowSide.Matches (lowered query) := by
    rw [allow, or_iff_left (by simp)]
    exact open_
  rw [isBlocked_iff_of_not_allowed open', blocks, and_iff_right rfl]
  rfl

/-- After the line, every one of its hostnames is blocked, but for the local names. -/
def BlocksHosts (bl : Blocklist ρ) (line : HostsLine) : Prop :=
  ∃ result bl', bl.parseAutoMode line.text false = some (result, bl') ∧
    ∀ token ∈ line.tokens, localName token.host.text = false → (bl'.check token.query).IsBlocked

/-- **Of a hosts line only the last hostname is blocked**, and that one only when the comment
has no marker of a cosmetic rule in it; the others have to be blocked already. -/
theorem hosts_line_blocked_iff {bl : Blocklist ρ} {line : HostsLine}
    (open_ : ∀ token ∈ line.tokens, ¬ bl.allowSide.Matches (lowered token.query)) :
    bl.BlocksHosts line ↔
      ∀ token ∈ line.tokens, localName token.host.text = false →
        bl.blockSide.Matches (lowered token.query) ∨
          cosmetic line.note = false ∧ Names line.last.host.text token.query := by
  simp only [BlocksHosts, parseAutoMode_hostsLine bl line, Option.some.injEq, Prod.mk.injEq,
    and_assoc, exists_and_left, exists_eq_left']
  refine forall₂_congr fun token member => forall_congr' fun ordinary => ?_
  by_cases kept : cosmetic line.note = true ∨ localName line.last.host.text = true
  · have other : ¬ (cosmetic line.note = false ∧ Names line.last.host.text token.query) := by
      rintro ⟨unmarked, same⟩
      rw [Names, Token.query, String.toList_ofList] at same
      rcases kept with marked | local_
      · rw [marked] at unmarked
        cases unmarked
      · rw [localName_congr same, local_] at ordinary
        cases ordinary
    rw [if_pos kept, isBlocked_iff_of_not_allowed (open_ token member), or_iff_left other]
  · have unmarked : cosmetic line.note = false :=
      Bool.eq_false_iff.mpr fun marked => kept (.inl marked)
    rw [if_neg kept, isBlocked_add_iff rfl (open_ token member), and_iff_right unmarked]
    exact or_congr_right (lowered_eq_iff token.ascii line.last.host.word)

end Lines

attribute [local instance] smallCase

/-- A line for two hosts, with a comment. -/
def twoHosts : HostsLine where
  address := nullAddress
  others := [⟨[' '], by decide, List.forall_mem_singleton.mpr (by decide), adsHost⟩]
  last := ⟨['\t'], by decide, List.forall_mem_singleton.mpr (by decide),
    ⟨[['x'], ['n', 'e', 't']], by decide, labels_whole (by decide)⟩⟩
  trailing := []
  white := List.forall_mem_nil _
  comment := some " ads".toList

theorem hosts_line_blocked_iff_twoHosts :
    (new : Blocklist Literal).BlocksHosts twoHosts ↔
      ∀ token ∈ twoHosts.tokens, localName token.host.text = false →
        (new : Blocklist Literal).blockSide.Matches (lowered token.query) ∨
          cosmetic twoHosts.note = false ∧ Names twoHosts.last.host.text token.query :=
  hosts_line_blocked_iff fun token _ => side_new true (lowered token.query)

/-- The first of two hosts is not blocked. -/
theorem twoHosts_not_blocked :
    (∀ token ∈ twoHosts.tokens,
      ¬ (new : Blocklist Literal).allowSide.Matches (lowered token.query)) ∧
    ¬ (new : Blocklist Literal).BlocksHosts twoHosts := by
  refine ⟨fun token _ => side_new true (lowered token.query), ?_⟩
  rintro ⟨result, bl, parsed, blocked⟩
  have first := MatchOutcome.isBlocked_iff.mp
    (blocked _ List.mem_cons_self (by decide))
  have forwarded : ((new : Blocklist Literal).parseAutoMode twoHosts.text false).map
      (fun parse => (parse.2.check "ads.com").classification) = some .forwarded := by decide +kernel
  rw [parsed] at forwarded
  exact absurd (first.symm.trans (Option.some.inj forwarded)) (by decide)

end Blocklist

end DnsLigase
