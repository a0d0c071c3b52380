/-
# Blocklist.Lines — the list parsers of `blocklist.rs`

A line of a list is trimmed, classified and turned into at most one rule.  The
parsers take byte slices and index a vector, which can panic: `none` is a panic.
A pattern that does not compile is an error, and the callers that read a whole
body go on with the next line.

* `parseAutoMode_routes`: what a line does does not depend on the rules already there, and
  the side that its rule goes to not on what kind of rule it is;
* `robust_iff`: a body is read to its end, and as if the lines that do
  not compile were absent, exactly when no line is a lone slash.
-/
import DnsLigase.Blocklist.Rules
import DnsLigase.Theory.Loop
import DnsLigase.Theory.Text

namespace DnsLigase

open DnsLigase.Theory
open DnsLigase.Theory.Case DnsLigase.Theory.Text

set_option autoImplicit false

inductive ListFormat where
  | hosts
  | adBlock
  | piHole
  | adGuard
  deriving DecidableEq, Repr

namespace Blocklist

/-! ## Hosts lines -/

/-- The markers of cosmetic and scriptlet rules that the source looks for. -/
def cosmetic (line : List Char) : Bool :=
  contains "##".toList line || contains "#$#".toList line || contains "#@#".toList line ||
    contains "#?#".toList line

/-- Names that are never blocked. -/
def localName (name : List Char) : Bool :=
  eqIgnoreAsciiCase name "localhost".toList ||
    eqIgnoreAsciiCase name "localhost.localdomain".toList ||
    eqIgnoreAsciiCase name "broadcasthost".toList || eqIgnoreAsciiCase name "local".toList

/-- `clean_domain_static`.  There is a panic only if a trimmed text that is not empty
had no word (`cleanDomainStatic_isSome`). -/
def cleanDomainStatic (line : List Char) : Option (Option (List Char)) :=
  if cosmetic line then some none
  else
    let domain := trim (upTo '#' line)
    if domain = [] then some none
    else
      match splitWhitespace domain with
      | [] => none
      | first :: rest =>
          let cleaned := trimEndMatches '.' (rest.getLastD first)
          if cleaned = [] then some none
          else if localName cleaned then some none
          else some (some cleaned)

theorem cleanDomainStatic_isSome (line : List Char) : (cleanDomainStatic line).isSome := by
  unfold cleanDomainStatic
  split
  · rfl
  dsimp only
  split
  · rfl
  · rename_i nonempty
    split
    · rename_i none_
      exact absurd none_ (splitWhitespace_ne_nil nonempty)
    · repeat' split
      all_goals rfl

/-- The domain that a hosts line is about: its last word in front of a comment, without
closing dots, if it is not a local name. -/
theorem cleanDomainStatic_eq_some {line domain : List Char} :
    cleanDomainStatic line = some (some domain) ↔ cosmetic line = false ∧
      (∃ word, (splitWhitespace (upTo '#' line)).getLast? = some word ∧
        domain = trimEndMatches '.' word) ∧ domain ≠ [] ∧ localName domain = false := by
  rw [← splitWhitespace_trim]
  unfold cleanDomainStatic
  by_cases marked : cosmetic line = true
  · simp [marked]
  rw [if_neg marked]
  dsimp only
  by_cases empty : trim (upTo '#' line) = []
  · simp [empty, splitWhitespace]
  rw [if_neg empty]
  obtain ⟨first, rest, words⟩ := List.exists_cons_of_ne_nil (splitWhitespace_ne_nil empty)
  rw [words, List.getLast?_cons, ← List.getLastD_eq_getLast?]
  dsimp only
  generalize rest.getLastD first = word
  simp only [Bool.eq_false_iff.mpr marked, true_and, Option.some.injEq, exists_eq_left']
  split
  · rename_i closed
    refine iff_of_false (by simp) ?_
    rintro ⟨rfl, nonempty, -⟩
    exact nonempty closed
  split
  · rename_i local_
    refine iff_of_false (by simp) ?_
    rintro ⟨rfl, -, other⟩
    rw [local_] at other
    cases other
  · rename_i nonempty other
    simp only [Option.some.injEq]
    constructor
    · rintro rfl
      exact ⟨rfl, nonempty, Bool.eq_false_iff.mpr other⟩
    · rintro ⟨rfl, -⟩
      rfl

/-! ## One line -/

variable {ρ : Type} [UnicodeCase] [RegexEngine ρ]

/-- `to_lowercase` of a part of a line. -/
def lowercase (cs : List Char) : String := toLowercase (String.ofList cs)

def insertDomain (bl : Blocklist ρ) (isAllow : Bool) (domain : String) : Blocklist ρ :=
  if isAllow then { bl with allowDomains := insert domain bl.allowDomains }
  else { bl with blockDomains := insert domain bl.blockDomains }

def insertSuffix (bl : Blocklist ρ) (isAllow : Bool) (domain : String) : Blocklist ρ :=
  if isAllow then { bl with allowSuffixes := insert domain bl.allowSuffixes }
  else { bl with blockSuffixes := insert domain bl.blockSuffixes }

def pushRegex (bl : Blocklist ρ) (isAllow : Bool) (re : ρ) : Blocklist ρ :=
  if isAllow then { bl with allowRegex := bl.allowRegex ++ [re] }
  else { bl with blockRegex := bl.blockRegex ++ [re] }

/-- The bare-domain branch, which both formats share. -/
def parseBare (bl : Blocklist ρ) (line : List Char) (isAllow : Bool) :
    Option (Except String Unit × Blocklist ρ) :=
  match cleanDomainStatic line with
  | none => none
  | some none => some (.ok (), bl)
  | some (some domain) => some (.ok (), bl.insertDomain isAllow (lowercase domain))

omit [RegexEngine ρ] in
/-- What a bare line does. -/
theorem parseBare_eq (bl : Blocklist ρ) (line : List Char) (isAllow : Bool) :
    bl.parseBare line isAllow = some (.ok (), (cleanDomainStatic line).join.elim bl
      fun domain => bl.insertDomain isAllow (lowercase domain)) := by
  obtain ⟨found, cleaned⟩ := Option.isSome_iff_exists.mp (cleanDomainStatic_isSome line)
  rw [parseBare, cleaned]
  cases found <;> rfl

/-- The `||` branch: options behind `$` and the closing `^` go. -/
def parseSuffix (bl : Blocklist ρ) (patternPart : List Char) (isAllow : Bool) :
    Option (Except String Unit × Blocklist ρ) :=
  let domain := lowercase (trimEndMatches '.' (trimEndMatches '^'
    (upTo '$' (trimStartMatches '|' '|' patternPart))))
  if domain = "" then some (.ok (), bl) else some (.ok (), bl.insertSuffix isAllow domain)

/-- The `/…/` branch. -/
def parseSlashed (bl : Blocklist ρ) (patternPart : List Char) (isAllow : Bool) :
    Option (Except String Unit × Blocklist ρ) :=
  match slice 1 (blen patternPart - 1) patternPart with
  | none => none
  | some pattern =>
      match RegexEngine.new (String.ofList pattern) with
      | .error e => some (.error e, bl)
      | .ok re => some (.ok (), bl.pushRegex isAllow re)

/-- What stands behind the `@@` of an AdBlock line. -/
def parsePattern (bl : Blocklist ρ) (patternPart : List Char) (isAllow : Bool) :
    Option (Except String Unit × Blocklist ρ) :=
  if ['|', '|'].isPrefixOf patternPart then bl.parseSuffix patternPart isAllow
  else if ['/'].isPrefixOf patternPart && ['/'].isSuffixOf patternPart then
    bl.parseSlashed patternPart isAllow
  else bl.parseBare patternPart isAllow

/-- Empty lines and comments. -/
def skipped (line : List Char) : Bool :=
  line.isEmpty || ['!'].isPrefixOf line || ['#'].isPrefixOf line

/-- `parse_line_mode`: the result, and the rules afterwards. -/
def parseLineMode (bl : Blocklist ρ) (line : List Char) (format : ListFormat) (asAllow : Bool) :
    Option (Except String Unit × Blocklist ρ) :=
  let line := trim line
  if skipped line then some (.ok (), bl)
  else
    match format with
    | .hosts | .piHole => bl.parseBare line asAllow
    | .adBlock | .adGuard =>
        let hasAt := ['@', '@'].isPrefixOf line
        let isAllow := asAllow || hasAt
        bl.parsePattern (if hasAt then trimStartMatches '@' '@' line else line) isAllow

def parseLine (bl : Blocklist ρ) (line : List Char) (format : ListFormat) :
    Option (Except String Unit × Blocklist ρ) :=
  bl.parseLineMode line format false

/-- `parse_auto_mode`. -/
def parseAutoMode (bl : Blocklist ρ) (line : List Char) (asAllow : Bool) :
    Option (Except String Unit × Blocklist ρ) :=
  let line := trim line
  if skipped line then some (.ok (), bl)
  else if ['|', '|'].isPrefixOf line || ['@', '@'].isPrefixOf line ||
      (['/'].isPrefixOf line && ['/'].isSuffixOf line) then
    bl.parseLineMode line .adBlock asAllow
  else bl.parseLineMode line .hosts asAllow

def parseAuto (bl : Blocklist ρ) (line : List Char) : Option (Except String Unit × Blocklist ρ) :=
  bl.parseAutoMode line false

/-- The line starts with `@@`, which makes its rule an allow rule. -/
def hasAt (line : List Char) : Bool := ['@', '@'].isPrefixOf (trim line)

/-- The line is taken for an AdBlock rule. -/
def adBlockForm (line : List Char) : Bool :=
  ['|', '|'].isPrefixOf (trim line) || hasAt line ||
    (['/'].isPrefixOf (trim line) && ['/'].isSuffixOf (trim line))

omit [UnicodeCase] in
/-- Whether there is an `@@` or not, what is parsed is what stands behind all of them. -/
theorem stripped_eq (line : List Char) :
    (if ['@', '@'].isPrefixOf line then trimStartMatches '@' '@' line else line) =
      trimStartMatches '@' '@' line := by
  split
  · rfl
  · rename_i plain
    exact (trimStartMatches_of_other (Bool.eq_false_iff.mpr plain)).symm

theorem parseLineMode_adBlock (bl : Blocklist ρ) (line : List Char) (asAllow : Bool) :
    bl.parseLineMode line .adBlock asAllow =
      if skipped (trim line) then some (.ok (), bl)
      else bl.parsePattern (trimStartMatches '@' '@' (trim line)) (asAllow || hasAt line) := by
  simp only [parseLineMode, hasAt, stripped_eq]

theorem parseAutoMode_adBlock {line : List Char} (form : adBlockForm line = true)
    (bl : Blocklist ρ) (asAllow : Bool) :
    bl.parseAutoMode line asAllow = bl.parseLineMode line .adBlock asAllow := by
  unfold adBlockForm hasAt at form
  simp only [parseAutoMode, parseLineMode, trim_trim, form, if_true]
  split <;> rfl

theorem parseAutoMode_plain {line : List Char} (form : adBlockForm line = false)
    (bl : Blocklist ρ) (asAllow : Bool) : bl.parseAutoMode line asAllow =
      if skipped (trim line) then some (.ok (), bl) else bl.parseBare (trim line) asAllow := by
  unfold adBlockForm hasAt at form
  simp only [parseAutoMode, parseLineMode, trim_trim, form, Bool.false_eq_true, if_false]
  split <;> rfl

omit [UnicodeCase] in
/-- A line that is not an AdBlock rule has no `@@`. -/
theorem hasAt_of_plain {line : List Char} (form : adBlockForm line = false) :
    hasAt line = false := by
  simp only [adBlockForm, Bool.or_eq_false_iff] at form
  exact form.1.2

/-! ## Whole bodies -/

/-- Lines one after the other, whatever the result of each. -/
def foldLines (asAllow : Bool) (bl : Blocklist ρ) (ls : List (List Char)) : Option (Blocklist ρ) :=
  ls.foldlM (fun bl line => (bl.parseAutoMode line asAllow).map Prod.snd) bl

def parseLinesInto (bl : Blocklist ρ) (body : String) : Option (Blocklist ρ) :=
  foldLines false bl (lines body.toList)

def parseLinesIntoAllow (bl : Blocklist ρ) (body : String) : Option (Blocklist ρ) :=
  foldLines true bl (lines body.toList)

/-- One turn of the loop of `parse_lines_into_regex`: a pattern, perhaps between slashes,
with a comment behind ` -- `. -/
def parseRegexLine (asAllow : Bool) (bl : Blocklist ρ) (line : List Char) : Blocklist ρ :=
  let line := trim line
  if line.isEmpty || ['#'].isPrefixOf line || ['!'].isPrefixOf line ||
      ['-', '-'].isPrefixOf line then bl
  else
    let pattern := trim (before " -- ".toList line)
    if pattern = [] then bl
    else
      let pattern := ((stripPrefix ['/'] pattern).bind (stripSuffix ['/'])).getD pattern
      if pattern = [] then bl
      else
        match RegexEngine.new (String.ofList pattern) with
        | .ok re => bl.pushRegex asAllow re
        | .error _ => bl

def parseLinesIntoRegex (bl : Blocklist ρ) (body : String) (asAllow : Bool) : Blocklist ρ :=
  (lines body.toList).foldl (parseRegexLine asAllow) bl

/-! ## What a line does -/

/-- The rules that lines give. -/
inductive Rule (ρ : Type) where
  | domain (isAllow : Bool) (name : String)
  | suffix (isAllow : Bool) (name : String)
  | regex (isAllow : Bool) (re : ρ)

def add (bl : Blocklist ρ) : Rule ρ → Blocklist ρ
  | .domain isAllow name => bl.insertDomain isAllow name
  | .suffix isAllow name => bl.insertSuffix isAllow name
  | .regex isAllow re => bl.pushRegex isAllow re

/-- The outcome of a line that fails, or gives a rule or none. -/
def settle (bl : Blocklist ρ) : Except String (Option (Rule ρ)) → Except String Unit × Blocklist ρ
  | .error e => (.error e, bl)
  | .ok none => (.ok (), bl)
  | .ok (some rule) => (.ok (), bl.add rule)

/-- A parser of lines does the same whatever rules are there already: it panics, fails,
or gives one rule or none. -/
def Uniform (parse : Blocklist ρ → Option (Except String Unit × Blocklist ρ)) : Prop :=
  ∃ effect : Option (Except String (Option (Rule ρ))), ∀ bl, parse bl = effect.map bl.settle

def Rule.isAllow : Rule ρ → Bool
  | .domain isAllow _ => isAllow
  | .suffix isAllow _ => isAllow
  | .regex isAllow _ => isAllow

/-- The parser is uniform, and the rule that it gives, if any, is for that side. -/
def Routes (isAllow : Bool) (parse : Blocklist ρ → Option (Except String Unit × Blocklist ρ)) :
    Prop :=
  ∃ effect : Option (Except String (Option (Rule ρ))), (∀ bl, parse bl = effect.map bl.settle) ∧
    ∀ rule, effect = some (.ok (some rule)) → rule.isAllow = isAllow

omit [UnicodeCase] [RegexEngine ρ] in
theorem Routes.uniform {isAllow : Bool}
    {parse : Blocklist ρ → Option (Except String Unit × Blocklist ρ)}
    (routes : Routes isAllow parse) : Uniform parse := by
  obtain ⟨effect, same, -⟩ := routes
  exact ⟨effect, same⟩

section Routes

variable (isAllow : Bool)

omit [UnicodeCase] [RegexEngine ρ] in
theorem routes_panic : Routes isAllow fun _ : Blocklist ρ => none :=
  ⟨none, fun _ => rfl, by rintro _ ⟨⟩⟩

omit [UnicodeCase] [RegexEngine ρ] in
theorem routes_error (e : String) : Routes isAllow fun bl : Blocklist ρ => some (.error e, bl) :=
  ⟨some (.error e), fun _ => rfl, by rintro _ ⟨⟩⟩

omit [UnicodeCase] [RegexEngine ρ] in
theorem routes_skip : Routes isAllow fun bl : Blocklist ρ => some (.ok (), bl) :=
  ⟨some (.ok none), fun _ => rfl, by rintro _ ⟨⟩⟩

omit [UnicodeCase] [RegexEngine ρ] in
theorem routes_rule (rule : Rule ρ) :
    Routes rule.isAllow fun bl : Blocklist ρ => some (.ok (), bl.add rule) :=
  ⟨some (.ok (some rule)), fun _ => rfl, by rintro _ ⟨⟩; rfl⟩

variable (line : List Char)

omit [RegexEngine ρ] in
theorem parseBare_routes : Routes isAllow fun bl : Blocklist ρ => bl.parseBare line isAllow := by
  simp only [parseBare_eq]
  rcases (cleanDomainStatic line).join with _ | domain
  · exact routes_skip isAllow
  · exact routes_rule (.domain isAllow (lowercase domain))

omit [RegexEngine ρ] in
theorem parseSuffix_routes :
    Routes isAllow fun bl : Blocklist ρ => bl.parseSuffix line isAllow := by
  unfold parseSuffix
  generalize lowercase _ = domain
  by_cases empty : domain = ""
  · simp only [empty, if_true]
    exact routes_skip isAllow
  · simp only [empty, if_false]
    exact routes_rule (.suffix isAllow domain)

omit [UnicodeCase] in
theorem parseSlashed_routes :
    Routes isAllow fun bl : Blocklist ρ => bl.parseSlashed line isAllow := by
  unfold parseSlashed
  rcases slice 1 (blen line - 1) line with _ | pattern
  · exact routes_panic isAllow
  rcases compiled : (RegexEngine.new (String.ofList pattern) : Except String ρ) with e | re
  · simp only [compiled]
    exact routes_error isAllow e
  · simp only [compiled]
    exact routes_rule (.regex isAllow re)

theorem parsePattern_routes :
    Routes isAllow fun bl : Blocklist ρ => bl.parsePattern line isAllow := by
  unfold parsePattern
  split
  · exact parseSuffix_routes isAllow line
  split
  · exact parseSlashed_routes isAllow line
  · exact parseBare_routes isAllow line

/-- **What a line does to a blocklist does not depend on the blocklist**, and its rule goes to
the side that its list and its `@@` say. -/
theorem parseAutoMode_routes (asAllow : Bool) :
    Routes (asAllow || hasAt line) fun bl : Blocklist ρ => bl.parseAutoMode line asAllow := by
  cases form : adBlockForm line with
  | true =>
      simp only [parseAutoMode_adBlock form, parseLineMode_adBlock]
      split
      · exact routes_skip _
      · exact parsePattern_routes _ _
  | false =>
      simp only [parseAutoMode_plain form, hasAt_of_plain form, Bool.or_false]
      split
      · exact routes_skip _
      · exact parseBare_routes _ _

end Routes

theorem parseAutoMode_uniform (line : List Char) (asAllow : Bool) :
    Uniform fun bl : Blocklist ρ => bl.parseAutoMode line asAllow :=
  (parseAutoMode_routes line asAllow).uniform

/-! ## Which lines panic -/

/-- The line is a slash, perhaps behind one or more `@@`. -/
def LoneSlash (line : List Char) : Prop := trimStartMatches '@' '@' (trim line) = ['/']

instance : DecidablePred LoneSlash := fun line =>
  inferInstanceAs (Decidable (trimStartMatches '@' '@' (trim line) = ['/']))

omit [RegexEngine ρ] in
theorem parseBare_ne_none (bl : Blocklist ρ) (line : List Char) (isAllow : Bool) :
    bl.parseBare line isAllow ≠ none := by
  rw [parseBare_eq]
  exact Option.some_ne_none _

/-- Only a lone slash has no slice between its first and its last character. -/
theorem parsePattern_eq_none (bl : Blocklist ρ) (patternPart : List Char) (isAllow : Bool) :
    bl.parsePattern patternPart isAllow = none ↔ patternPart = ['/'] := by
  unfold parsePattern
  split
  · rename_i suffix
    have other : patternPart ≠ ['/'] := by
      rintro rfl
      exact absurd suffix (by decide)
    unfold parseSuffix
    dsimp only
    split <;> simp [other]
  split
  · rename_i wrapped
    obtain ⟨front, back⟩ := Bool.and_eq_true_iff.mp wrapped
    unfold parseSlashed
    rcases wrapped_cases front back with rfl | ⟨inner, rfl⟩
    · rw [slice_single (by decide)]
      simp
    · rw [slice_wrapped (by decide) (by decide)]
      dsimp only
      split <;> simp
  · rename_i unwrapped
    have other : patternPart ≠ ['/'] := by
      rintro rfl
      exact unwrapped (by decide)
    simp [other, parseBare_ne_none]

omit [UnicodeCase] in
/-- A line that starts with a slash, or with what `@@` leaves of one, is not skipped. -/
theorem not_skipped_of_loneSlash {text : List Char}
    (lone : trimStartMatches '@' '@' text = ['/']) : skipped text = false := by
  match text, lone with
  | [c], lone =>
      obtain rfl : c = '/' := by simpa [trimStartMatches] using lone
      rfl
  | c :: d :: rest, lone =>
      unfold trimStartMatches at lone
      split at lone
      · rename_i at_
        rw [at_.1]
        rfl
      · simp at lone

omit [UnicodeCase] [RegexEngine ρ] in
/-- A lone slash is taken for an AdBlock rule. -/
theorem adBlockForm_of_loneSlash {line : List Char} (lone : LoneSlash line) :
    adBlockForm line = true := by
  unfold adBlockForm hasAt
  by_cases at_ : ['@', '@'].isPrefixOf (trim line)
  · simp [at_]
  · unfold LoneSlash at lone
    rw [trimStartMatches_of_other (Bool.eq_false_iff.mpr at_)] at lone
    rw [lone]
    rfl

/-- An AdBlock line panics exactly when it is a lone slash. -/
theorem parseAdBlock_eq_none (bl : Blocklist ρ) (line : List Char) (asAllow : Bool) :
    bl.parseLineMode line .adBlock asAllow = none ↔ LoneSlash line := by
  rw [parseLineMode_adBlock]
  split
  · rename_i skip
    refine iff_of_false (by simp) fun lone => ?_
    rw [not_skipped_of_loneSlash lone] at skip
    cases skip
  · exact parsePattern_eq_none bl _ _

/-- **A line makes the parser panic exactly when it is a lone slash.** -/
theorem parseAutoMode_eq_none (bl : Blocklist ρ) (line : List Char) (asAllow : Bool) :
    bl.parseAutoMode line asAllow = none ↔ LoneSlash line := by
  cases form : adBlockForm line with
  | true => rw [parseAutoMode_adBlock form, parseAdBlock_eq_none]
  | false =>
      refine iff_of_false ?_ fun lone => ?_
      · rw [parseAutoMode_plain form]
        split
        · exact Option.some_ne_none _
        · exact parseBare_ne_none bl _ _
      · rw [adBlockForm_of_loneSlash lone] at form
        cases form

/-! ## Whole bodies, again -/

/-- The pattern of the line does not compile. -/
def fails (ρ : Type) [RegexEngine ρ] (asAllow : Bool) (line : List Char) : Bool :=
  match (new : Blocklist ρ).parseAutoMode line asAllow with
  | some (.error _, _) => true
  | _ => false

theorem fails_iff (bl : Blocklist ρ) (asAllow : Bool) (line : List Char) :
    fails ρ asAllow line = true ↔ ∃ e, bl.parseAutoMode line asAllow = some (.error e, bl) := by
  obtain ⟨effect, same⟩ := @parseAutoMode_uniform ρ _ _ line asAllow
  dsimp only at same
  unfold fails
  rw [same, same]
  rcases effect with _ | (e | _ | rule) <;> simp [settle]

theorem unchanged_of_error {bl bl' : Blocklist ρ} {asAllow : Bool} {line : List Char} {e : String}
    (failed : bl.parseAutoMode line asAllow = some (.error e, bl')) : bl' = bl := by
  obtain ⟨effect, same⟩ := @parseAutoMode_uniform ρ _ _ line asAllow
  dsimp only at same
  rw [same] at failed
  rcases effect with _ | (e' | _ | rule) <;> simp_all [settle]

/-- Lines that fail might as well be absent. -/
theorem foldLines_filter (asAllow : Bool) : ∀ (ls : List (List Char)) (bl : Blocklist ρ),
    foldLines asAllow bl ls = foldLines asAllow bl (ls.filter fun line => !fails ρ asAllow line)
  | [], _ => rfl
  | line :: rest, bl => by
      by_cases failed : fails ρ asAllow line
      · obtain ⟨e, outcome⟩ := (fails_iff bl asAllow line).mp failed
        have ih := foldLines_filter asAllow rest bl
        simp only [foldLines, List.foldlM_cons, outcome] at ih ⊢
        simpa [failed] using ih
      · rw [List.filter_cons_of_pos (by simpa using failed)]
        simp only [foldLines, List.foldlM_cons]
        congr 1
        funext bl'
        exact foldLines_filter asAllow rest bl'

theorem foldLines_isSome (asAllow : Bool) (ls : List (List Char)) (bl : Blocklist ρ) :
    (foldLines asAllow bl ls).isSome ↔ ∀ line ∈ ls, ¬ LoneSlash line := by
  apply Loop.foldlM_isSome
  intro bl line
  rw [Option.isSome_map, ← parseAutoMode_eq_none bl line asAllow, Option.isSome_iff_ne_none]

/-- `parse_lines_into` and `parse_lines_into_allow`. -/
def parseLinesMode (asAllow : Bool) (bl : Blocklist ρ) (body : String) : Option (Blocklist ρ) :=
  if asAllow then bl.parseLinesIntoAllow body else bl.parseLinesInto body

theorem parseLinesMode_eq (asAllow : Bool) (bl : Blocklist ρ) (body : String) :
    parseLinesMode asAllow bl body = foldLines asAllow bl (lines body.toList) := by
  cases asAllow <;> rfl

/-- Reading `body` into `bl` does not panic; a line that does not compile changes nothing,
and the others come out as if it were absent. -/
structure Robust (asAllow : Bool) (bl : Blocklist ρ) (body : String) : Prop where
  total : (parseLinesMode asAllow bl body).isSome
  unchanged : ∀ line ∈ lines body.toList, ∀ (bl₁ bl₂ : Blocklist ρ) (e : String),
    bl₁.parseAutoMode line asAllow = some (.error e, bl₂) → bl₂ = bl₁
  remaining : parseLinesMode asAllow bl body =
    foldLines asAllow bl ((lines body.toList).filter fun line => !fails ρ asAllow line)

/-- **A body is read robustly exactly when no line of it is a lone slash.** -/
theorem robust_iff (asAllow : Bool) (bl : Blocklist ρ) (body : String) :
    Robust asAllow bl body ↔ ∀ line ∈ lines body.toList, ¬ LoneSlash line := by
  constructor
  · intro robust
    have total := robust.total
    rwa [parseLinesMode_eq, foldLines_isSome] at total
  · intro clean
    refine ⟨?_, fun _ _ _ _ _ => unchanged_of_error, ?_⟩
    · rwa [parseLinesMode_eq, foldLines_isSome]
    · rw [parseLinesMode_eq, foldLines_filter]

omit [UnicodeCase] in
/-- A slash on a line of its own, in a list of good lines. -/
theorem slash_panics : ¬ @Robust Literal smallCase _ false new "||ads.com^\n/\n||bad.net^\n" := by
  let _ := smallCase
  intro robust
  exact absurd robust.total (by decide +kernel)

end Blocklist

end DnsLigase
