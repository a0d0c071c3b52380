/-
# Blocklist.Syntax — what the lines of a list mean

A hostname as lists write it, and the rule that a line made of one gives: `||host^` with or
without options is a suffix rule, for the allow side behind `@@` (`parseAutoMode_suffixLine`),
and a host that stands alone or behind other words is an exact rule (`parseAutoMode_wordLine`).

The characters of hostnames and addresses mean nothing else to the parsers (`plainChar`), so
what is cut off a line is what stands around them.
-/
import DnsLigase.Blocklist.Sets

namespace DnsLigase

open DnsLigase.Theory
open DnsLigase.Theory.Case DnsLigase.Theory.Text

set_option autoImplicit false

/-! ## Hostnames -/

/-- The characters of labels. -/
def labelChar (c : Char) : Bool := c.isAlphanum || c = '-' || c = '_'

/-- The characters of labels, of addresses, and of lists of hostnames. -/
def plainChar (c : Char) : Bool := labelChar c || ['.', ',', ':', '%'].contains c

/-- The characters that the parsers look for. -/
def specials : List Char := ['!', '#', '$', '/', '@', '^', '|']

theorem ascii_of_plainChar {c : Char} (plain : plainChar c = true) : c.toNat < 128 := by
  have small_of_le : ∀ b : Char, b.toNat < 128 → c.val ≤ b.val → c.toNat < 128 :=
    fun b small below => Nat.lt_of_le_of_lt (UInt32.le_iff_toNat_le.mp below) small
  have table : ['.', ',', ':', '%'].all (fun c => c.toNat < 128) = true := by decide
  delta plainChar labelChar Char.isAlphanum Char.isAlpha Char.isLower Char.isDigit at plain
  simp only [Bool.or_eq_true, Bool.and_eq_true, decide_eq_true_eq, List.contains_iff_mem] at plain
  rcases plain with ((((upper | lower) | digit) | rfl) | rfl) | member
  · exact ascii_of_isUpper upper
  · exact small_of_le 'z' (by decide) lower.2
  · exact small_of_le '9' (by decide) digit.2
  · decide
  · decide
  · exact of_decide_eq_true (List.all_eq_true.mp table c member)

/-- A plain character has no meaning in a list. -/
theorem plainChar_means_nothing {c : Char} (plain : plainChar c = true) :
    isWhitespace c = false ∧ c ∉ specials :=
  forall_ascii (P := fun c => plainChar c = true → isWhitespace c = false ∧ c ∉ specials)
    (by decide +kernel) c (ascii_of_plainChar plain) plain

theorem plainChar_of_labelChar {c : Char} (label : labelChar c = true) : plainChar c = true := by
  rw [plainChar, label, Bool.true_or]

/-- A word of a line: plain characters, and at both ends one that may stand in a label. -/
structure Word where
  text : List Char
  plain : ∀ c ∈ text, plainChar c = true
  ends : Ends (labelChar · = true) text

/-- Labels joined by dots. -/
structure Hostname where
  labels : List (List Char)
  nonempty : labels ≠ []
  whole : ∀ l ∈ labels, l ≠ [] ∧ ∀ c ∈ l, labelChar c = true

theorem labels_whole {labels : List (List Char)}
    (all : labels.all (fun l => l ≠ [] && l.all labelChar) = true) :
    ∀ l ∈ labels, l ≠ [] ∧ ∀ c ∈ l, labelChar c = true := by
  intro l member
  have both := Bool.and_eq_true_iff.mp (List.all_eq_true.mp all l member)
  exact ⟨of_decide_eq_true both.1, List.all_eq_true.mp both.2⟩

def Hostname.text (host : Hostname) : List Char := ['.'].intercalate host.labels

def Hostname.word (host : Hostname) : Word where
  text := host.text
  plain := forall_mem_intercalate (List.forall_mem_singleton.mpr (by decide))
    fun l member c found => plainChar_of_labelChar ((host.whole l member).2 c found)
  ends := .intercalate ['.']
    (fun l member => .of_all (host.whole l member).2 (host.whole l member).1) host.nonempty

/-- What stands in front of the hosts of a line. -/
structure Address where
  text : List Char
  nonempty : text ≠ []
  plain : ∀ c ∈ text, plainChar c = true

theorem not_mem_of_plain {cs : List Char} (plain : ∀ c ∈ cs, plainChar c = true) {c : Char}
    (special : c ∈ specials) : c ∉ cs :=
  fun member => (plainChar_means_nothing (plain c member)).2 special

theorem not_mem_of_white {cs : List Char} (white : ∀ c ∈ cs, isWhitespace c = true) {c : Char}
    (solid : isWhitespace c = false) : c ∉ cs := by
  intro member
  rw [white c member] at solid
  cases solid

/-- A comment starts neither in a word nor in whitespace. -/
theorem hash_not_mem_plain {cs : List Char} (plain : ∀ c ∈ cs, plainChar c = true) : '#' ∉ cs :=
  not_mem_of_plain plain (by decide)

theorem hash_not_mem_white {cs : List Char} (white : ∀ c ∈ cs, isWhitespace c = true) : '#' ∉ cs :=
  not_mem_of_white white (by decide)

/-- A gap at the end of a text ends it with whitespace. -/
theorem ends_in_gap {gap : List Char} (apart : gap ≠ [])
    (white : ∀ c ∈ gap, isWhitespace c = true) (front : List Char) :
    ∃ rest w, front ++ gap = rest ++ [w] ∧ isWhitespace w = true := by
  refine ⟨front ++ gap.dropLast, gap.getLast apart, ?_, white _ (List.getLast_mem apart)⟩
  rw [List.append_assoc, List.dropLast_append_getLast]

theorem Address.starts (address : Address) (rest : List Char) :
    ∃ c tail, address.text ++ rest = c :: tail ∧ plainChar c = true := by
  obtain ⟨c, tail, whole⟩ := List.exists_cons_of_ne_nil address.nonempty
  refine ⟨c, tail ++ rest, by rw [whole, List.cons_append], address.plain c ?_⟩
  rw [whole]
  exact List.mem_cons_self

namespace Word

variable (word : Word)

/-- There is nothing to trim at the end. -/
theorem trimEndMatches_text {c : Char} (other : labelChar c = false) :
    trimEndMatches c word.text = word.text := by
  obtain ⟨front, d, whole, label⟩ := word.ends.last
  have ne : d ≠ c := by
    rintro rfl
    rw [label] at other
    cases other
  rw [whole, trimEndMatches_of_last front ne]

/-- The first character means nothing to the parsers. -/
theorem starts (rest : List Char) :
    ∃ c tail, word.text ++ rest = c :: tail ∧ plainChar c = true := by
  obtain ⟨c, tail, whole, label⟩ := word.ends.first
  exact ⟨c, tail ++ rest, by rw [whole, List.cons_append], plainChar_of_labelChar label⟩

variable [UnicodeCase]

theorem lowercase_text :
    Blocklist.lowercase word.text = String.ofList (word.text.map Char.toLower) := by
  rw [Blocklist.lowercase, toLowercase_ascii, String.toList_ofList]
  rw [String.toList_ofList]
  exact fun c member => ascii_of_plainChar (word.plain c member)

theorem lowercase_ne_empty : Blocklist.lowercase word.text ≠ "" := by
  rw [lowercase_text]
  intro empty
  have none_ := congrArg String.toList empty
  rw [String.toList_ofList] at none_
  exact word.ends.ne_nil (List.map_eq_nil_iff.mp none_)

end Word

namespace Blocklist

/-! ## Markers of cosmetic rules -/

/-- The markers that the source looks for. -/
def markers : List (List Char) :=
  [['#', '#'], ['#', '$', '#'], ['#', '@', '#'], ['#', '?', '#']]

theorem cosmetic_iff {line : List Char} : cosmetic line = true ↔ ∃ m ∈ markers, m <:+: line := by
  simp [cosmetic, contains, markers, or_assoc]

theorem marker_ends {m : List Char} (member : m ∈ markers) : Ends (· = '#') m := by
  simp only [markers, List.mem_cons, List.not_mem_nil, or_false] at member
  rcases member with rfl | rfl | rfl | rfl
  · exact ⟨⟨_, _, rfl, rfl⟩, ['#'], _, rfl, rfl⟩
  · exact ⟨⟨_, _, rfl, rfl⟩, ['#', '$'], _, rfl, rfl⟩
  · exact ⟨⟨_, _, rfl, rfl⟩, ['#', '@'], _, rfl, rfl⟩
  · exact ⟨⟨_, _, rfl, rfl⟩, ['#', '?'], _, rfl, rfl⟩

/-- There is none where no `#` is, -/
theorem cosmetic_append {front : List Char} (absent : '#' ∉ front) (back : List Char) :
    cosmetic (front ++ back) = cosmetic back := by
  rw [Bool.eq_iff_iff, cosmetic_iff, cosmetic_iff]
  refine exists_congr fun m => and_congr_right fun member => ?_
  obtain ⟨_, rest, rfl, rfl⟩ := (marker_ends member).first
  exact infix_append_iff absent back

/-- and none in the whitespace around a line. -/
theorem cosmetic_trim (line : List Char) : cosmetic (trim line) = cosmetic line := by
  rw [Bool.eq_iff_iff, cosmetic_iff, cosmetic_iff]
  refine exists_congr fun m => and_congr_right fun member => ?_
  refine infix_trim_iff ((marker_ends member).mono ?_) line
  rintro _ rfl
  decide

/-- The host of a bare line is its last word in front of a comment. -/
theorem cleanDomainStatic_word (word : Word) {line front gap : List Char}
    (unmarked : cosmetic line = false) (text : upTo '#' line = front ++ (word.text ++ gap))
    (apart : front = [] ∨ ∃ rest w, front = rest ++ [w] ∧ isWhitespace w = true)
    (white : ∀ c ∈ gap, isWhitespace c = true) :
    (cleanDomainStatic line).join = if localName word.text then none else some word.text := by
  have solid : ∀ c ∈ word.text, isWhitespace c = false := fun c member =>
    (plainChar_means_nothing (word.plain c member)).1
  have last := getLast?_splitWhitespace apart solid word.ends.ne_nil white
  ext domain
  rw [Option.join_eq_some_iff, cleanDomainStatic_eq_some, text, last]
  simp only [unmarked, true_and, Option.some.injEq, exists_eq_left',
    word.trimEndMatches_text (c := '.') (by decide)]
  by_cases local_ : localName word.text = true
  · simp only [local_, if_true, reduceCtorEq, iff_false]
    rintro ⟨rfl, -, other⟩
    rw [local_] at other
    cases other
  · rw [if_neg local_, Option.some.injEq]
    constructor
    · rintro ⟨rfl, -⟩
      rfl
    · rintro rfl
      exact ⟨rfl, word.ends.ne_nil, Bool.eq_false_iff.mpr local_⟩

variable {ρ : Type} [UnicodeCase] [RegexEngine ρ]

/-! ## Lines that start with a plain character -/

section Plain

variable {line : List Char}

/-- Such a line is neither skipped nor taken for an AdBlock rule. -/
theorem parseAutoMode_bare (starts : ∃ c rest, line = c :: rest ∧ plainChar c = true)
    (bl : Blocklist ρ) (asAllow : Bool) :
    bl.parseAutoMode line asAllow = bl.parseBare (trim line) asAllow := by
  obtain ⟨c, rest, rfl, plain⟩ := starts
  obtain ⟨solid, special⟩ := plainChar_means_nothing plain
  have trimmed : trim (c :: rest) = c :: rest.rdropWhile isWhitespace :=
    Edged.trim_append (.of_all (List.forall_mem_singleton.mpr solid) (List.cons_ne_nil c [])) rest
  have ne : ∀ d ∈ specials, (d == c) = false :=
    fun d member => beq_eq_false_iff_ne.mpr fun same => special (same ▸ member)
  have plainForm : adBlockForm (c :: rest) = false := by
    simp [adBlockForm, hasAt, trimmed, List.isPrefixOf, ne '|' (by decide), ne '@' (by decide),
      ne '/' (by decide)]
  have read : skipped (trim (c :: rest)) = false := by
    simp [skipped, trimmed, List.isPrefixOf, ne '!' (by decide), ne '#' (by decide)]
  rw [parseAutoMode_plain plainForm, read, if_neg Bool.false_ne_true]

end Plain

/-! ## Suffix rules -/

section Suffix

variable (word : Word)

/-- `||host^`, perhaps with options behind a `$`, perhaps behind `@@`. -/
def suffixLine (exception : Bool) (word : Word) (options : Option (List Char)) : List Char :=
  (if exception then ['@', '@'] else []) ++
    '|' :: '|' :: (word.text ++ '^' :: options.elim [] ('$' :: ·))

omit [UnicodeCase] [RegexEngine ρ] in
theorem edged_suffixLine (exception : Bool) :
    Edged (suffixLine exception word none) ∧ Edged (suffixLine exception word (some [])) := by
  have first : ∀ options, ∃ c rest, suffixLine exception word options = c :: rest ∧
      isWhitespace c = false := by
    intro options
    cases exception with
    | false => exact ⟨'|', _, rfl, by decide⟩
    | true => exact ⟨'@', _, rfl, by decide⟩
  exact ⟨⟨first none, (if exception then ['@', '@'] else []) ++ '|' :: '|' :: word.text, '^',
      by simp [suffixLine], by decide⟩,
    first (some []), (if exception then ['@', '@'] else []) ++ '|' :: '|' :: (word.text ++ ['^']),
      '$', by simp [suffixLine], by decide⟩

omit [UnicodeCase] [RegexEngine ρ] in
/-- Only options can have something to trim. -/
theorem trim_suffixLine (exception : Bool) (options : Option (List Char)) :
    trim (suffixLine exception word options) =
      suffixLine exception word (options.map (·.rdropWhile isWhitespace)) := by
  obtain ⟨bare, dollar⟩ := edged_suffixLine word exception
  cases options with
  | none => exact bare.trim
  | some o =>
      have whole : ∀ o, suffixLine exception word (some o) =
          suffixLine exception word (some []) ++ o := by simp [suffixLine]
      rw [whole, Edged.trim_append dollar, ← whole]
      rfl

omit [RegexEngine ρ] in
/-- What stands around the host goes. -/
theorem parseSuffix_suffixLine (bl : Blocklist ρ) (isAllow : Bool) (options : Option (List Char)) :
    bl.parseSuffix (suffixLine false word options) isAllow =
      some (.ok (), bl.insertSuffix isAllow (lowercase word.text)) := by
  have noBar : ['|', '|'].isPrefixOf (word.text ++ '^' :: options.elim [] ('$' :: ·)) = false := by
    obtain ⟨c, rest, whole, plain⟩ := word.starts ('^' :: options.elim [] ('$' :: ·))
    have ne : ('|' == c) = false := beq_eq_false_iff_ne.mpr fun same =>
      (plainChar_means_nothing plain).2 (same ▸ by decide)
    rw [whole, List.isPrefixOf, ne, Bool.false_and]
  have bars : trimStartMatches '|' '|' (suffixLine false word options) =
      word.text ++ '^' :: options.elim [] ('$' :: ·) := by
    show trimStartMatches '|' '|' ('|' :: '|' :: _) = _
    rw [trimStartMatches, if_pos ⟨rfl, rfl⟩, trimStartMatches_of_other noBar]
  have noDollar : '$' ∉ word.text ++ ['^'] := by
    simp [not_mem_of_plain word.plain (c := '$') (by decide)]
  have cut : upTo '$' (word.text ++ '^' :: options.elim [] ('$' :: ·)) = word.text ++ ['^'] := by
    cases options with
    | none => exact upTo_of_absent noDollar
    | some o => simpa using upTo_append noDollar o
  have caret := word.trimEndMatches_text (c := '^') (by decide)
  have dot := word.trimEndMatches_text (c := '.') (by decide)
  simp only [parseSuffix, bars, cut, trimEndMatches_concat, caret, dot,
    if_neg word.lowercase_ne_empty]

/-- **A suffix line adds the host to the suffixes of its side**, whatever its options say. -/
theorem parseAutoMode_suffixLine (bl : Blocklist ρ) (asAllow exception : Bool)
    (options : Option (List Char)) :
    bl.parseAutoMode (suffixLine exception word options) asAllow =
      some (.ok (), bl.insertSuffix (asAllow || exception) (lowercase word.text)) := by
  have trimmed := trim_suffixLine word exception options
  generalize options.map (·.rdropWhile isWhitespace) = options' at trimmed
  have at_ : hasAt (suffixLine exception word options) = exception := by
    rw [hasAt, trimmed]
    cases exception <;> rfl
  have form : adBlockForm (suffixLine exception word options) = true := by
    rw [adBlockForm, at_, trimmed]
    cases exception <;> rfl
  have read : skipped (suffixLine exception word options') = false := by
    cases exception <;> rfl
  have stripped : trimStartMatches '@' '@' (suffixLine exception word options') =
      suffixLine false word options' := by
    cases exception <;> rfl
  have bars : ['|', '|'].isPrefixOf (suffixLine false word options') = true := rfl
  rw [parseAutoMode_adBlock form, parseLineMode_adBlock, trimmed, read, if_neg Bool.false_ne_true,
    stripped, at_, parsePattern, if_pos bars, parseSuffix_suffixLine]

end Suffix

/-! ## Exact rules -/

omit [UnicodeCase] [RegexEngine ρ] in
/-- Trimming leaves the host where it is, in front of what is left of a comment. -/
theorem trim_wordLine (word : Word) {front gap comment : List Char}
    (starts : ∃ c rest, front ++ word.text = c :: rest ∧ plainChar c = true)
    (white : ∀ c ∈ gap, isWhitespace c = true)
    (hash : comment = [] ∨ ∃ rest, comment = '#' :: rest) :
    ∃ gap', (∀ c ∈ gap', isWhitespace c = true) ∧ ∃ comment',
      (comment' = [] ∨ ∃ rest, comment' = '#' :: rest) ∧
      trim (front ++ (word.text ++ (gap ++ comment))) =
        front ++ (word.text ++ (gap' ++ comment')) := by
  obtain ⟨c, rest, whole, plain⟩ := starts
  obtain ⟨tail, d, whole', label⟩ := word.ends.last
  have edged : Edged (front ++ word.text) :=
    ⟨⟨c, rest, whole, (plainChar_means_nothing plain).1⟩, front ++ tail, d,
      by rw [whole', List.append_assoc],
      (plainChar_means_nothing (plainChar_of_labelChar label)).1⟩
  obtain rfl | ⟨rest', rfl⟩ := hash
  · refine ⟨[], List.forall_mem_nil _, [], .inl rfl, ?_⟩
    have trimmed := Edged.trim_append edged gap
    rw [List.rdropWhile_eq_nil_iff.mpr white] at trimmed
    simpa using trimmed
  · refine ⟨gap, white, '#' :: rest'.rdropWhile isWhitespace, .inr ⟨_, rfl⟩, ?_⟩
    have behind : Edged ['#'] :=
      .of_all (List.forall_mem_singleton.mpr (by decide)) (List.cons_ne_nil _ _)
    simpa using Edged.trim_append (edged.join gap behind) rest'

/-- **A host line adds its last host to the exact rules of its side**, unless its comment has a
marker of a cosmetic rule in it or the host is a local name. -/
theorem parseAutoMode_wordLine (bl : Blocklist ρ) (asAllow : Bool) (word : Word)
    {front gap comment : List Char}
    (starts : ∃ c rest, front ++ word.text = c :: rest ∧ plainChar c = true) (clean : '#' ∉ front)
    (apart : front = [] ∨ ∃ rest w, front = rest ++ [w] ∧ isWhitespace w = true)
    (white : ∀ c ∈ gap, isWhitespace c = true)
    (hash : comment = [] ∨ ∃ rest, comment = '#' :: rest) :
    bl.parseAutoMode (front ++ (word.text ++ (gap ++ comment))) asAllow =
      some (.ok (), if cosmetic comment = true ∨ localName word.text = true then bl
        else bl.insertDomain asAllow (lowercase word.text)) := by
  have noHash : ∀ gap : List Char, (∀ c ∈ gap, isWhitespace c = true) →
      '#' ∉ front ++ (word.text ++ gap) := by
    intro gap white
    simp [clean, hash_not_mem_plain word.plain, hash_not_mem_white white]
  have marked : cosmetic (trim (front ++ (word.text ++ (gap ++ comment)))) = cosmetic comment := by
    have regroup : front ++ (word.text ++ (gap ++ comment)) =
        front ++ (word.text ++ gap) ++ comment := by simp
    rw [cosmetic_trim, regroup, cosmetic_append (noHash gap white)]
  have starts' : ∃ c rest, front ++ (word.text ++ (gap ++ comment)) = c :: rest ∧
      plainChar c = true := by
    obtain ⟨c, rest, whole, plain⟩ := starts
    exact ⟨c, rest ++ (gap ++ comment), by rw [← List.append_assoc, whole, List.cons_append], plain⟩
  rw [parseAutoMode_bare starts', parseBare_eq]
  by_cases cosmetic_ : cosmetic comment = true
  · have none_ : (cleanDomainStatic (trim (front ++ (word.text ++ (gap ++ comment))))).join =
        none := by
      rw [cleanDomainStatic, if_pos (marked.trans cosmetic_)]
      rfl
    rw [none_, if_pos (.inl cosmetic_)]
    rfl
  · obtain ⟨gap', white', comment', hash', trimmed⟩ := trim_wordLine word starts white hash
    have cut : upTo '#' (trim (front ++ (word.text ++ (gap ++ comment)))) =
        front ++ (word.text ++ gap') := by
      have regroup : front ++ (word.text ++ (gap' ++ comment')) =
          front ++ (word.text ++ gap') ++ comment' := by simp
      rw [trimmed, regroup]
      obtain rfl | ⟨rest, rfl⟩ := hash'
      · rw [List.append_nil, upTo_of_absent (noHash gap' white')]
      · rw [upTo_append (noHash gap' white')]
    rw [cleanDomainStatic_word word (marked.trans (Bool.eq_false_iff.mpr cosmetic_)) cut apart
      white']
    by_cases local_ : localName word.text = true
    · rw [if_pos local_, if_pos (.inr local_)]
      rfl
    · rw [if_neg local_, if_neg (by simp [cosmetic_, local_])]
      rfl

/-- Nothing needs to stand in front of the host. -/
theorem parseAutoMode_word (bl : Blocklist ρ) (asAllow : Bool) (word : Word) {comment : List Char}
    (hash : comment = [] ∨ ∃ rest, comment = '#' :: rest) :
    bl.parseAutoMode (word.text ++ comment) asAllow =
      some (.ok (), if cosmetic comment = true ∨ localName word.text = true then bl
        else bl.insertDomain asAllow (lowercase word.text)) := by
  have starts := word.starts []
  rw [List.append_nil] at starts
  exact @parseAutoMode_wordLine ρ _ _ bl asAllow word [] [] comment starts List.not_mem_nil
    (.inl rfl) (List.forall_mem_nil _) hash

end Blocklist

end DnsLigase
