/-
# Blocklist.Monotone — allowlists relax and blocklists tighten

Every line gives at most one rule, for a side that is known before the line is classified: the
allow side where the list is read as an allowlist or the line starts with `@@`, else the block
side (`parseAutoMode_routes`).  So a whole body grows one side and leaves the other as it was
(`GrowsOnly`), and the check, which asks the allow side first, can move in one direction only.

`lists_monotone` says this of the four readers of bodies.
-/
import DnsLigase.Blocklist.Sets

namespace DnsLigase

open DnsLigase.Theory
open DnsLigase.Theory.Case DnsLigase.Theory.Loop DnsLigase.Theory.Text

set_option autoImplicit false

namespace Blocklist

variable {ρ : Type}

/-! ## One side grows -/

structure Side.Grows (side side' : Side ρ) : Prop where
  domains : side.domains ⊆ side'.domains
  suffixes : side.suffixes ⊆ side'.suffixes
  patterns : side.patterns <+: side'.patterns

theorem Side.Grows.refl (side : Side ρ) : side.Grows side :=
  ⟨Finset.Subset.refl _, Finset.Subset.refl _, List.prefix_refl _⟩

theorem Side.Grows.trans {a b c : Side ρ} (first : a.Grows b) (second : b.Grows c) : a.Grows c :=
  ⟨first.domains.trans second.domains, first.suffixes.trans second.suffixes,
    first.patterns.trans second.patterns⟩

/-- The collections of one side only grow, and those of the other stay as they are. -/
structure GrowsOnly (isAllow : Bool) (bl bl' : Blocklist ρ) : Prop where
  grows : (bl.side isAllow).Grows (bl'.side isAllow)
  other : bl'.side (!isAllow) = bl.side (!isAllow)

theorem GrowsOnly.refl {isAllow : Bool} (bl : Blocklist ρ) : GrowsOnly isAllow bl bl :=
  ⟨.refl _, rfl⟩

theorem GrowsOnly.trans {isAllow : Bool} {a b c : Blocklist ρ} (first : GrowsOnly isAllow a b)
    (second : GrowsOnly isAllow b c) : GrowsOnly isAllow a c :=
  ⟨first.grows.trans second.grows, second.other.trans first.other⟩

theorem growsOnly_add (bl : Blocklist ρ) (rule : Rule ρ) :
    GrowsOnly rule.isAllow bl (bl.add rule) := by
  rcases rule with ⟨_ | _, name⟩ | ⟨_ | _, name⟩ | ⟨_ | _, re⟩
  case domain.false | domain.true =>
    exact ⟨⟨Finset.subset_insert _ _, Finset.Subset.refl _, List.prefix_refl _⟩, rfl⟩
  case suffix.false | suffix.true =>
    exact ⟨⟨Finset.Subset.refl _, Finset.subset_insert _ _, List.prefix_refl _⟩, rfl⟩
  case regex.false | regex.true =>
    exact ⟨⟨Finset.Subset.refl _, Finset.Subset.refl _, List.prefix_append _ _⟩, rfl⟩

theorem growsOnly_settle {isAllow : Bool} {effect : Except String (Option (Rule ρ))}
    (routed : ∀ rule, effect = .ok (some rule) → rule.isAllow = isAllow) (bl : Blocklist ρ) :
    GrowsOnly isAllow bl (bl.settle effect).2 := by
  rcases effect with e | _ | rule
  · exact .refl bl
  · exact .refl bl
  · exact routed rule rfl ▸ growsOnly_add bl rule

/-! ## What lines do -/

/-- A parser that routes its rule to one side grows that side only. -/
theorem Routes.growsOnly {isAllow : Bool}
    {parse : Blocklist ρ → Option (Except String Unit × Blocklist ρ)}
    (routes : Routes isAllow parse) {bl bl' : Blocklist ρ} {result : Except String Unit}
    (parsed : parse bl = some (result, bl')) : GrowsOnly isAllow bl bl' := by
  obtain ⟨effect, same, routed⟩ := routes
  rw [same] at parsed
  obtain ⟨settled, rfl, outcome⟩ := Option.map_eq_some_iff.mp parsed
  have grows := growsOnly_settle (fun rule gives => routed rule (congrArg some gives)) bl
  rwa [outcome] at grows

section Body

variable [UnicodeCase] [RegexEngine ρ]

theorem growsOnly_foldLines {asAllow isAllow : Bool} {ls : List (List Char)}
    (routed : ∀ line ∈ ls, (asAllow || hasAt line) = isAllow) {bl bl' : Blocklist ρ}
    (read : foldLines asAllow bl ls = some bl') : GrowsOnly isAllow bl bl' := by
  refine foldlM_rel GrowsOnly.refl GrowsOnly.trans ls (fun line member bl bl' turn => ?_)
    bl bl' read
  obtain ⟨⟨result, bl''⟩, parsed, rfl⟩ := Option.map_eq_some_iff.mp turn
  exact routed line member ▸ (parseAutoMode_routes line asAllow).growsOnly parsed

omit [UnicodeCase] in
theorem growsOnly_regex (bl : Blocklist ρ) (body : String) (asAllow : Bool) :
    GrowsOnly asAllow bl (bl.parseLinesIntoRegex body asAllow) := by
  have read : (lines body.toList).foldlM (fun bl line => some (parseRegexLine asAllow bl line)) bl =
      some (bl.parseLinesIntoRegex body asAllow) := List.foldlM_pure (m := Option)
  refine foldlM_rel GrowsOnly.refl GrowsOnly.trans _ (fun line _ bl bl' turn => ?_) _ _ read
  cases turn
  exact (parseRegexLine_routes asAllow line).growsOnly rfl

/-! ## What the check makes of it -/

omit [UnicodeCase] in
theorem Side.Grows.matches {side side' : Side ρ} (grows : side.Grows side') {domain : String}
    (isMatch : side.Matches domain) : side'.Matches domain := by
  rcases isMatch with stored | ⟨re, stored, found⟩ | ⟨rule, stored, covers⟩
  · exact .inl (grows.domains stored)
  · exact .inr (.inl ⟨re, grows.patterns.subset stored, found⟩)
  · exact .inr (.inr ⟨rule, grows.suffixes stored, covers⟩)

/-- Only the allow side grows; nothing becomes blocked, and what is allowed stays so. -/
structure Relaxes (bl bl' : Blocklist ρ) : Prop where
  growsOnly : GrowsOnly true bl bl'
  blocked : ∀ domain, (bl'.check domain).classification = .blocked →
    (bl.check domain).classification = .blocked
  allowed : ∀ domain, (bl.check domain).classification = .allowed →
    (bl'.check domain).classification = .allowed

/-- Only the block side grows; nothing becomes allowed, and what is blocked stays so. -/
structure Tightens (bl bl' : Blocklist ρ) : Prop where
  growsOnly : GrowsOnly false bl bl'
  allowed : ∀ domain, (bl'.check domain).classification = .allowed →
    (bl.check domain).classification = .allowed
  blocked : ∀ domain, (bl.check domain).classification = .blocked →
    (bl'.check domain).classification = .blocked

theorem GrowsOnly.relaxes {bl bl' : Blocklist ρ} (growsOnly : GrowsOnly true bl bl') :
    Relaxes bl bl' where
  growsOnly := growsOnly
  blocked domain after := by
    obtain ⟨passes, matches_⟩ := (check_decides bl' domain).blocked.mp after
    have same : bl'.blockSide = bl.blockSide := growsOnly.other
    exact (check_decides bl domain).blocked.mpr
      ⟨mt growsOnly.grows.matches passes, same ▸ matches_⟩
  allowed domain now :=
    (check_decides bl' domain).allowed.mpr
      (growsOnly.grows.matches ((check_decides bl domain).allowed.mp now))

theorem GrowsOnly.tightens {bl bl' : Blocklist ρ} (growsOnly : GrowsOnly false bl bl') :
    Tightens bl bl' := by
  have same : bl'.allowSide = bl.allowSide := growsOnly.other
  refine ⟨growsOnly, fun domain after => ?_, fun domain now => ?_⟩
  · exact (check_decides bl domain).allowed.mpr (same ▸ (check_decides bl' domain).allowed.mp after)
  · obtain ⟨passes, matches_⟩ := (check_decides bl domain).blocked.mp now
    exact (check_decides bl' domain).blocked.mpr
      ⟨same.symm ▸ passes, growsOnly.grows.matches matches_⟩

/-- **Allowlists can only relax, and blocklists without `@@` can only tighten.**  For a block
list that makes the parser panic this holds of every state on the way there. -/
theorem lists_monotone (bl : Blocklist ρ) (body : String) :
    ((∀ line ∈ lines body.toList, ¬ LoneSlash line) →
      ∃ bl', bl.parseLinesIntoAllow body = some bl' ∧ Relaxes bl bl') ∧
    Relaxes bl (bl.parseLinesIntoRegex body true) ∧
    ((∀ line ∈ lines body.toList, ¬ hasAt line) →
      (∀ ls, ls <+: lines body.toList → ∀ bl', foldLines false bl ls = some bl' →
        Tightens bl bl') ∧
      ((∀ line ∈ lines body.toList, ¬ LoneSlash line) →
        ∃ bl', bl.parseLinesInto body = some bl' ∧ Tightens bl bl')) ∧
    Tightens bl (bl.parseLinesIntoRegex body false) := by
  refine ⟨fun clean => ?_, (growsOnly_regex bl body true).relaxes, fun noAt => ?_,
    (growsOnly_regex bl body false).tightens⟩
  · obtain ⟨bl', read⟩ := Option.isSome_iff_exists.mp ((foldLines_isSome true _ bl).mpr clean)
    exact ⟨bl', read, (growsOnly_foldLines (fun _ _ => Bool.true_or _) read).relaxes⟩
  · have tightens : ∀ ls, ls <+: lines body.toList → ∀ bl', foldLines false bl ls = some bl' →
        Tightens bl bl' := by
      intro ls front bl' read
      refine (growsOnly_foldLines (fun line member => ?_) read).tightens
      rw [Bool.false_or]
      exact Bool.eq_false_iff.mpr (noAt line (front.subset member))
    refine ⟨tightens, fun clean => ?_⟩
    obtain ⟨bl', read⟩ := Option.isSome_iff_exists.mp ((foldLines_isSome false _ bl).mpr clean)
    exact ⟨bl', read, tightens _ (List.prefix_refl _) bl' read⟩

end Body

attribute [local instance] smallCase

/-- An allowlist that frees a blocked name, and a block list. -/
theorem lists_monotone_ads :
    (∃ bl' : Blocklist Literal, (blocking "ads.com").parseLinesIntoAllow "||ads.com^\n" = some bl' ∧
      Relaxes (blocking "ads.com") bl') ∧
    ∃ bl' : Blocklist Literal, (blocking "ads.com").parseLinesInto "||ads.net^\nads.org\n" =
      some bl' ∧ Tightens (blocking "ads.com") bl' :=
  ⟨(lists_monotone _ _).1 (by decide +kernel),
    ((lists_monotone _ _).2.2.1 (by decide +kernel)).2 (by decide +kernel)⟩

end Blocklist

end DnsLigase
