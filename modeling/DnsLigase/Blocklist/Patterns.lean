/-
# Blocklist.Patterns — the two readers of patterns between slashes

`/p/` is a line of an AdBlock list and of a list of patterns.  `parse_line_mode` slices the
slashes off and `parse_lines_into_regex` strips them; both give the engine the pattern `p`, but
only the latter passes over an empty one.  An engine compiles that to a pattern that every name
matches, so `//` in an ordinary list is a rule for all names (`readers_agree_iff`).
-/
import DnsLigase.Blocklist.Lines

namespace DnsLigase

open DnsLigase.Theory
open DnsLigase.Theory.Case DnsLigase.Theory.Text

set_option autoImplicit false

namespace Blocklist

/-! ## Patterns between slashes -/

def slashed (p : List Char) : List Char := '/' :: (p ++ ['/'])

theorem trim_slashed (p : List Char) : trim (slashed p) = slashed p := by
  have edged : Edged (slashed p) := ⟨⟨'/', _, rfl, by decide⟩, '/' :: p, '/', rfl, by decide⟩
  exact edged.trim

theorem slashed_isSuffixOf (p : List Char) : ['/'].isSuffixOf (slashed p) = true :=
  List.isSuffixOf_iff_suffix.mpr ⟨'/' :: p, rfl⟩

/-- The slashes do not complete a comment. -/
theorem before_slashed {p : List Char} (uncommented : ¬ " -- ".toList <:+: p) :
    before " -- ".toList (slashed p) = slashed p := by
  refine before_of_absent fun found => uncommented ?_
  have behind : " -- ".toList <:+: ['/'] ++ (p ++ ['/']) := found
  have inner : [' ', '-', '-'] ++ [' '] <:+: p ++ ['/'] :=
    (infix_append_iff (by decide) (p ++ ['/'])).mp behind
  exact (infix_append_iff_left (by decide) p).mp inner

section Readers

variable {ρ : Type} [UnicodeCase] [RegexEngine ρ]

/-- The pattern is stored if it compiles. -/
def tryPush (bl : Blocklist ρ) (isAllow : Bool) (pattern : List Char) : Blocklist ρ :=
  match RegexEngine.new (String.ofList pattern) with
  | .ok re => bl.pushRegex isAllow re
  | .error _ => bl

/-- As a line of an ordinary list, the pattern is tried. -/
theorem parseAutoMode_slashed (bl : Blocklist ρ) (p : List Char) (asAllow : Bool) :
    (bl.parseAutoMode (slashed p) asAllow).map Prod.snd = some (bl.tryPush asAllow p) := by
  have at_ : hasAt (slashed p) = false := by
    rw [hasAt, trim_slashed]
    rfl
  have form : adBlockForm (slashed p) = true := by
    rw [adBlockForm, at_, trim_slashed, slashed_isSuffixOf]
    rfl
  have read : skipped (slashed p) = false := rfl
  have stripped : trimStartMatches '@' '@' (slashed p) = slashed p := trimStartMatches_of_other rfl
  have noBars : ['|', '|'].isPrefixOf (slashed p) = false := rfl
  have slash : (['/'].isPrefixOf (slashed p) && ['/'].isSuffixOf (slashed p)) = true := by
    rw [slashed_isSuffixOf]
    rfl
  have inner : slice 1 (blen (slashed p) - 1) (slashed p) = some p :=
    slice_wrapped (by decide) (by decide) p
  rw [parseAutoMode_adBlock form, parseLineMode_adBlock, trim_slashed, read,
    if_neg Bool.false_ne_true, stripped, at_, Bool.or_false, parsePattern, noBars,
    if_neg Bool.false_ne_true, if_pos slash, parseSlashed, inner, tryPush]
  dsimp only
  cases (RegexEngine.new (String.ofList p) : Except String ρ) <;> rfl

omit [UnicodeCase] in
/-- As a line of a list of patterns it is tried unless it is empty. -/
theorem parseLinesIntoRegex_slashed (bl : Blocklist ρ) {p : List Char} (single : '\n' ∉ p)
    (uncommented : ¬ " -- ".toList <:+: p) (asAllow : Bool) :
    bl.parseLinesIntoRegex (String.ofList (slashed p)) asAllow =
      if p = [] then bl else bl.tryPush asAllow p := by
  have one : lines (slashed p) = [slashed p] :=
    lines_single (by simpa [slashed] using single) (List.cons_ne_nil _ _)
  have stripped : (stripPrefix ['/'] (slashed p)).bind (stripSuffix ['/']) = some p := by
    have back : ['/'].isSuffixOf (p ++ ['/']) = true := List.isSuffixOf_iff_suffix.mpr ⟨p, rfl⟩
    show stripSuffix ['/'] (p ++ ['/']) = some p
    rw [stripSuffix, if_pos back, List.length_append, Nat.add_sub_cancel, List.take_left]
  have read : ((slashed p).isEmpty || ['#'].isPrefixOf (slashed p) ||
      ['!'].isPrefixOf (slashed p) || ['-', '-'].isPrefixOf (slashed p)) = false := rfl
  rw [parseLinesIntoRegex, String.toList_ofList, one, List.foldl_cons, List.foldl_nil,
    parseRegexLine, trim_slashed, read, before_slashed uncommented, trim_slashed]
  have nonempty : slashed p ≠ [] := List.cons_ne_nil _ _
  simp only [Bool.false_eq_true, if_false, if_neg nonempty, stripped, Option.getD_some]
  rfl

omit [UnicodeCase] [RegexEngine ρ] in
/-- A stored pattern is there one more time. -/
theorem pushRegex_ne (bl : Blocklist ρ) (isAllow : Bool) (re : ρ) :
    bl.pushRegex isAllow re ≠ bl := by
  intro same
  cases isAllow with
  | true =>
      have longer := congrArg (fun bl => bl.allowRegex.length) same
      simp [pushRegex] at longer
  | false =>
      have longer := congrArg (fun bl => bl.blockRegex.length) same
      simp [pushRegex] at longer

variable (ρ)

/-- The two readers make the same of every blocklist. -/
def ReadersAgree (p : List Char) : Prop :=
  ∀ (bl : Blocklist ρ) (asAllow : Bool), (bl.parseAutoMode (slashed p) asAllow).map Prod.snd =
    some (bl.parseLinesIntoRegex (String.ofList (slashed p)) asAllow)

variable {ρ}

/-- **The two readers agree on every pattern but the empty one**, and on that one only if it does
not compile. -/
theorem readers_agree_iff {p : List Char} (single : '\n' ∉ p)
    (uncommented : ¬ " -- ".toList <:+: p) :
    ReadersAgree ρ p ↔ p ≠ [] ∨ ∀ re : ρ, RegexEngine.new "" ≠ .ok re := by
  simp only [ReadersAgree, parseAutoMode_slashed, Option.some.injEq,
    parseLinesIntoRegex_slashed _ single uncommented]
  by_cases empty : p = []
  · subst empty
    simp only [if_true, ne_eq, not_true_eq_false, false_or]
    constructor
    · intro agree re compiles
      have same := agree new false
      rw [tryPush, show String.ofList [] = "" from rfl, compiles] at same
      exact pushRegex_ne new false re same
    · intro fails bl asAllow
      rw [tryPush, show String.ofList [] = "" from rfl]
      cases compiled : (RegexEngine.new "" : Except String ρ) with
      | error e => rfl
      | ok re => exact absurd compiled (fails re)
  · exact iff_of_true (fun bl asAllow => (if_neg empty).symm) (.inl empty)

end Readers

attribute [local instance] smallCase

theorem readers_agree_iff_ads :
    ReadersAgree Literal "ads".toList ↔
      "ads".toList ≠ [] ∨ ∀ re : Literal, RegexEngine.new "" ≠ .ok re :=
  readers_agree_iff (by decide) (by decide)

/-- Of `//`, one reader makes a pattern that every name matches, and the other one nothing. -/
theorem readers_disagree_empty :
    '\n' ∉ ([] : List Char) ∧ ¬ " -- ".toList <:+: [] ∧ ¬ ReadersAgree Literal [] := by
  refine ⟨List.not_mem_nil, by decide, fun agree => ?_⟩
  have pushed : ((new : Blocklist Literal).parseAutoMode (slashed []) false).map
      (fun parse => parse.2.blockRegex) = some [""] := by decide +kernel
  have nothing : ((new : Blocklist Literal).parseLinesIntoRegex
      (String.ofList (slashed [])) false).blockRegex = [] := by decide +kernel
  have same := congrArg (Option.map blockRegex) (agree new false)
  rw [Option.map_map] at same
  have both := pushed.symm.trans (same.trans (congrArg some nothing))
  exact List.cons_ne_nil _ _ (Option.some.inj both)

end Blocklist

end DnsLigase
