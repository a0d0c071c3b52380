/-
# Blocklist.Sets — a blocklist as the set of its rules

Up to the texts it reports, `check` depends on which rules there are, not on the order or
the number of times they were added (`classification_congr`).  Every line gives the same
rules whatever is there already, so what a blocklist decides depends on the set of the
lines read into it, whichever parser each of them goes to, and `merge_blocklist` is the
union (`depends_on_lines`).
-/
import DnsLigase.Blocklist.Lines
import DnsLigase.Blocklist.Policy

namespace DnsLigase

open DnsLigase.Theory
open DnsLigase.Theory.Case DnsLigase.Theory.Loop DnsLigase.Theory.Text

set_option autoImplicit false

namespace Blocklist

variable {ρ : Type}

/-! ## Rules as a set -/

/-- The collections that an allow rule, or a block rule, goes into. -/
def side (bl : Blocklist ρ) (isAllow : Bool) : Side ρ :=
  if isAllow then bl.allowSide else bl.blockSide

/-- The rule is stored. -/
def Has (bl : Blocklist ρ) : Rule ρ → Prop
  | .domain isAllow name => name ∈ (bl.side isAllow).domains
  | .suffix isAllow name => name ∈ (bl.side isAllow).suffixes
  | .regex isAllow re => re ∈ (bl.side isAllow).patterns

def rules (bl : Blocklist ρ) : Set (Rule ρ) := {rule | bl.Has rule}

/-- Adding a rule adds that rule. -/
theorem rules_add (bl : Blocklist ρ) (rule : Rule ρ) : (bl.add rule).rules = bl.rules ∪ {rule} := by
  ext other
  cases rule with
  | domain isAllow name =>
      cases isAllow <;> rcases other with ⟨_ | _, _⟩ | ⟨_ | _, _⟩ | ⟨_ | _, _⟩ <;>
        simp [rules, Has, add, insertDomain, side, allowSide, blockSide]
  | suffix isAllow name =>
      cases isAllow <;> rcases other with ⟨_ | _, _⟩ | ⟨_ | _, _⟩ | ⟨_ | _, _⟩ <;>
        simp [rules, Has, add, insertSuffix, side, allowSide, blockSide]
  | regex isAllow re =>
      cases isAllow <;> rcases other with ⟨_ | _, _⟩ | ⟨_ | _, _⟩ | ⟨_ | _, _⟩ <;>
        simp [rules, Has, add, pushRegex, side, allowSide, blockSide, or_comm]

theorem rules_new : (new : Blocklist ρ).rules = ∅ := by
  ext rule
  rcases rule with ⟨_ | _, _⟩ | ⟨_ | _, _⟩ | ⟨_ | _, _⟩ <;>
    simp [rules, Has, new, side, allowSide, blockSide]

section Check

variable [UnicodeCase] [RegexEngine ρ]

def Rule.Matches : Rule ρ → String → Prop
  | .domain _ name, queried => queried = name
  | .suffix _ name, queried => Covers name queried
  | .regex _ re, queried => RegexEngine.isMatch re queried

omit [UnicodeCase] in
theorem side_matches (bl : Blocklist ρ) (isAllow : Bool) (domain : String) :
    (bl.side isAllow).Matches domain ↔
      ∃ rule ∈ bl.rules, rule.isAllow = isAllow ∧ rule.Matches domain := by
  constructor
  · rintro (stored | ⟨re, stored, isMatch⟩ | ⟨rule, stored, covers⟩)
    · exact ⟨.domain isAllow domain, stored, rfl, rfl⟩
    · exact ⟨.regex isAllow re, stored, rfl, isMatch⟩
    · exact ⟨.suffix isAllow rule, stored, rfl, covers⟩
  · rintro ⟨rule, stored, rfl, isMatch⟩
    cases rule with
    | domain isAllow name => exact .inl (isMatch ▸ stored)
    | suffix isAllow name => exact .inr (.inr ⟨name, stored, isMatch⟩)
    | regex isAllow re => exact .inr (.inl ⟨re, stored, isMatch⟩)

/-- **Blocklists with the same rules classify every name alike.** -/
theorem classification_congr {bl bl' : Blocklist ρ} (same : bl.rules = bl'.rules)
    (domain : String) : (bl.check domain).classification = (bl'.check domain).classification := by
  have sides : ∀ isAllow name, (bl.side isAllow).Matches name ↔ (bl'.side isAllow).Matches name := by
    intro isAllow name
    rw [side_matches, side_matches, same]
  have left := check_decides bl domain
  have right := check_decides bl' domain
  have allow : bl.allowSide.Matches (lowered domain) ↔ bl'.allowSide.Matches (lowered domain) :=
    sides true _
  have block : bl.blockSide.Matches (lowered domain) ↔ bl'.blockSide.Matches (lowered domain) :=
    sides false _
  cases outcome : (bl.check domain).classification with
  | allowed => exact (right.allowed.mpr (allow.mp (left.allowed.mp outcome))).symm
  | blocked =>
      have holds := left.blocked.mp outcome
      rw [allow, block] at holds
      exact (right.blocked.mpr holds).symm
  | forwarded =>
      have holds := left.forwarded.mp outcome
      rw [allow, block] at holds
      exact (right.forwarded.mpr holds).symm

/-! ## Lines -/

/-- The parsers that a body is read with. -/
inductive ListKind where
  | block
  | allow
  | regexBlock
  | regexAllow
  deriving DecidableEq, Repr

/-- A line of a list of some kind; what `parse_auto_mode` returns is discarded. -/
def readLine (bl : Blocklist ρ) (item : ListKind × List Char) : Option (Blocklist ρ) :=
  match item.1 with
  | .block => (bl.parseAutoMode item.2 false).map Prod.snd
  | .allow => (bl.parseAutoMode item.2 true).map Prod.snd
  | .regexBlock => some (parseRegexLine false bl item.2)
  | .regexAllow => some (parseRegexLine true bl item.2)

def readLines (bl : Blocklist ρ) (items : List (ListKind × List Char)) : Option (Blocklist ρ) :=
  items.foldlM readLine bl

/-- A body, read with the parser of its kind. -/
def readBody (bl : Blocklist ρ) (body : ListKind × String) : Option (Blocklist ρ) :=
  match body.1 with
  | .block => bl.parseLinesInto body.2
  | .allow => bl.parseLinesIntoAllow body.2
  | .regexBlock => some (bl.parseLinesIntoRegex body.2 false)
  | .regexAllow => some (bl.parseLinesIntoRegex body.2 true)

def readBodies (bl : Blocklist ρ) (bodies : List (ListKind × String)) : Option (Blocklist ρ) :=
  bodies.foldlM readBody bl

/-- The lines of some bodies, each with the kind of its body. -/
def linesOfBodies (bodies : List (ListKind × String)) : List (ListKind × List Char) :=
  bodies.flatMap fun body => (lines body.2.toList).map (body.1, ·)

theorem readBody_eq (bl : Blocklist ρ) (body : ListKind × String) :
    bl.readBody body = bl.readLines (linesOfBodies [body]) := by
  obtain ⟨kind, text⟩ := body
  rw [readLines, linesOfBodies, List.flatMap_cons, List.flatMap_nil, List.append_nil,
    List.foldlM_map]
  cases kind with
  | block => rfl
  | allow => rfl
  | regexBlock => exact (List.foldlM_pure (m := Option) (f := parseRegexLine false)).symm
  | regexAllow => exact (List.foldlM_pure (m := Option) (f := parseRegexLine true)).symm

/-- Bodies are read line by line. -/
theorem readBodies_eq (bl : Blocklist ρ) (bodies : List (ListKind × String)) :
    bl.readBodies bodies = bl.readLines (linesOfBodies bodies) := by
  induction bodies generalizing bl with
  | nil => rfl
  | cons body rest ih =>
      have whole : linesOfBodies (body :: rest) = linesOfBodies [body] ++ linesOfBodies rest := by
        simp [linesOfBodies]
      rw [readBodies, List.foldlM_cons, readBody_eq, whole, readLines, readLines,
        List.foldlM_append]
      exact bind_congr fun bl' => ih bl'

/-- The line makes its parser panic. -/
def Panics (ρ : Type) [RegexEngine ρ] (item : ListKind × List Char) : Prop :=
  (new : Blocklist ρ).readLine item = none

/-- The rules that a line gives: those it leaves in an empty blocklist. -/
def gives (ρ : Type) [RegexEngine ρ] (item : ListKind × List Char) : Set (Rule ρ) :=
  {rule | ∃ bl, (new : Blocklist ρ).readLine item = some bl ∧ bl.Has rule}

omit [UnicodeCase] in
theorem parseRegexLine_routes (asAllow : Bool) (line : List Char) :
    Routes asAllow fun bl : Blocklist ρ => some (.ok (), parseRegexLine asAllow bl line) := by
  unfold parseRegexLine
  dsimp only
  split
  · exact routes_skip asAllow
  split
  · exact routes_skip asAllow
  split
  · exact routes_skip asAllow
  generalize String.ofList _ = pattern
  cases compiled : (RegexEngine.new pattern : Except String ρ) with
  | ok re => exact routes_rule (.regex asAllow re)
  | error e => exact routes_skip asAllow

/-- A line panics in every blocklist or in none, and gives every blocklist the same rules. -/
theorem readLine_uniform (item : ListKind × List Char) :
    ∃ effect : Option (Option (Rule ρ)), ∀ bl : Blocklist ρ,
      bl.readLine item = effect.map fun rule? => rule?.elim bl bl.add := by
  have settled : ∀ parse : Blocklist ρ → Option (Except String Unit × Blocklist ρ), Uniform parse →
      ∃ effect : Option (Option (Rule ρ)), ∀ bl,
        (parse bl).map Prod.snd = effect.map fun rule? => rule?.elim bl bl.add := by
    rintro parse ⟨effect, same⟩
    refine ⟨effect.map fun result => result.toOption.join, fun bl => ?_⟩
    rw [same bl]
    rcases effect with _ | e | _ | rule <;> rfl
  obtain ⟨kind, line⟩ := item
  cases kind with
  | block => exact settled _ (parseAutoMode_uniform line false)
  | allow => exact settled _ (parseAutoMode_uniform line true)
  | regexBlock => exact settled _ (parseRegexLine_routes false line).uniform
  | regexAllow => exact settled _ (parseRegexLine_routes true line).uniform

theorem readLine_isSome (bl : Blocklist ρ) (item : ListKind × List Char) :
    (bl.readLine item).isSome ↔ ¬ Panics ρ item := by
  obtain ⟨effect, same⟩ := @readLine_uniform ρ _ _ item
  rw [Panics, same, same]
  cases effect <;> simp

/-- **What a line adds does not depend on what is there.** -/
theorem rules_readLine {bl bl' : Blocklist ρ} {item : ListKind × List Char}
    (read : bl.readLine item = some bl') : bl'.rules = bl.rules ∪ gives ρ item := by
  obtain ⟨effect, same⟩ := @readLine_uniform ρ _ _ item
  have given : gives ρ item = {rule | ∃ bl, (effect.map fun rule? =>
      rule?.elim (new : Blocklist ρ) new.add) = some bl ∧ rule ∈ bl.rules} := by
    rw [← same]
    rfl
  rw [same] at read
  rw [given]
  rcases effect with _ | _ | rule
  · cases read
  · cases read
    simp [rules_new]
  · cases read
    simp [rules_add, rules_new]

theorem rules_readLines {bl bl' : Blocklist ρ} {items : List (ListKind × List Char)}
    (read : bl.readLines items = some bl') :
    bl'.rules = bl.rules ∪ ⋃ item ∈ items, gives ρ item :=
  foldlM_collects (fun _ _ _ => rules_readLine) items bl bl' read

/-- `merge_blocklist`. -/
def mergeBlocklist (target source : Blocklist ρ) : Blocklist ρ where
  allowDomains := target.allowDomains ∪ source.allowDomains
  blockDomains := target.blockDomains ∪ source.blockDomains
  allowSuffixes := target.allowSuffixes ∪ source.allowSuffixes
  blockSuffixes := target.blockSuffixes ∪ source.blockSuffixes
  allowRegex := target.allowRegex ++ source.allowRegex
  blockRegex := target.blockRegex ++ source.blockRegex

omit [UnicodeCase] [RegexEngine ρ] in
theorem rules_mergeBlocklist (target source : Blocklist ρ) :
    (mergeBlocklist target source).rules = target.rules ∪ source.rules := by
  ext rule
  rcases rule with ⟨_ | _, _⟩ | ⟨_ | _, _⟩ | ⟨_ | _, _⟩ <;>
    simp [rules, Has, mergeBlocklist, side, allowSide, blockSide]

/-- Lines that do not panic are read to the end. -/
theorem exists_readLines (start : Blocklist ρ) {items : List (ListKind × List Char)}
    (each : ∀ item ∈ items, ¬ Panics ρ item) : ∃ bl, start.readLines items = some bl := by
  have turns := foldlM_isSome (@readLine_isSome ρ _ _) items start
  exact Option.isSome_iff_exists.mp (turns.mpr each)

/-- **A blocklist depends only on the set of its lines.**  For bodies `as` and `bs` that are
read without a panic: reading the lines of `as` in another order, or some of them again,
classifies every name alike, and so does merging what `as` and `bs` give when they are read
apart, in place of reading one after the other. -/
theorem depends_on_lines (bl : Blocklist ρ) {as bs : List (ListKind × String)}
    {items : List (ListKind × List Char)}
    (readableAs : ∀ item ∈ linesOfBodies as, ¬ Panics ρ item)
    (readableBs : ∀ item ∈ linesOfBodies bs, ¬ Panics ρ item)
    (same : ∀ item, item ∈ items ↔ item ∈ linesOfBodies as) :
    (∃ left right, bl.readBodies as = some left ∧ bl.readLines items = some right ∧
      ∀ domain, (left.check domain).classification = (right.check domain).classification) ∧
    ∃ a b whole : Blocklist ρ, new.readBodies as = some a ∧ new.readBodies bs = some b ∧
      new.readBodies (as ++ bs) = some whole ∧ ∀ domain,
        ((mergeBlocklist a b).check domain).classification =
          (whole.check domain).classification := by
  have both : linesOfBodies (as ++ bs) = linesOfBodies as ++ linesOfBodies bs :=
    List.flatMap_append
  simp only [readBodies_eq, both]
  constructor
  · obtain ⟨left, readLeft⟩ := bl.exists_readLines readableAs
    obtain ⟨right, readRight⟩ := bl.exists_readLines fun item member =>
      readableAs item ((same item).mp member)
    refine ⟨left, right, readLeft, readRight, classification_congr ?_⟩
    rw [rules_readLines readLeft, rules_readLines readRight]
    simp only [same]
  · obtain ⟨a, readA⟩ := new.exists_readLines readableAs
    obtain ⟨b, readB⟩ := new.exists_readLines readableBs
    have readableBoth : ∀ item ∈ linesOfBodies as ++ linesOfBodies bs, ¬ Panics ρ item :=
      fun item member => (List.mem_append.mp member).elim (readableAs item) (readableBs item)
    obtain ⟨whole, readWhole⟩ := new.exists_readLines readableBoth
    refine ⟨a, b, whole, readA, readB, readWhole, classification_congr ?_⟩
    rw [rules_mergeBlocklist, rules_readLines readA, rules_readLines readB,
      rules_readLines readWhole, rules_new, Set.empty_union, Set.empty_union, Set.empty_union]
    simp only [List.mem_append, Set.iUnion_or, Set.iUnion_union_distrib]

end Check

attribute [local instance] smallCase

/-- A block list with a line that does not compile, and an allow list. -/
def adLists : List (ListKind × String) :=
  [(.block, "||ads.com^\n/(/\nads.net\n"), (.allow, "good.ads.com\n")]

def patternList : List (ListKind × String) := [(.regexBlock, "tracker -- comment\n")]

/-- The same lines, the other way round and one of them twice. -/
def adLines : List (ListKind × List Char) :=
  (linesOfBodies adLists).reverse ++ [(.block, "ads.net".toList)]

theorem depends_on_lines_adLists :
    (∃ left right : Blocklist Literal, new.readBodies adLists = some left ∧
      new.readLines adLines = some right ∧ ∀ domain,
        (left.check domain).classification = (right.check domain).classification) ∧
    ∃ a b whole : Blocklist Literal, new.readBodies adLists = some a ∧
      new.readBodies patternList = some b ∧ new.readBodies (adLists ++ patternList) = some whole ∧
      ∀ domain, ((mergeBlocklist a b).check domain).classification =
        (whole.check domain).classification := by
  have readable : ∀ bodies, (linesOfBodies bodies).all (fun item =>
      ((new : Blocklist Literal).readLine item).isSome) →
      ∀ item ∈ linesOfBodies bodies, ¬ Panics Literal item := by
    intro bodies each item member
    exact (readLine_isSome new item).mp (List.all_eq_true.mp each item member)
  refine depends_on_lines new (readable adLists (by decide +kernel))
    (readable patternList (by decide +kernel)) fun item => ?_
  have again : (ListKind.block, "ads.net".toList) ∈ linesOfBodies adLists := by decide +kernel
  rw [adLines, List.mem_append, List.mem_reverse, List.mem_singleton]
  exact ⟨fun member => member.elim id fun same => same ▸ again, .inl⟩

end Blocklist

end DnsLigase
