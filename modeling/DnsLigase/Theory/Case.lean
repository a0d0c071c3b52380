/-
# Theory.Case — lower case, as Rust's `str` computes it from the Unicode tables

Which characters have a lower case, and which one, is data that every version of
Unicode extends.  `UnicodeCase` is that data together with what all versions
agree about: ASCII lowers as ever, and only the Kelvin sign and the dotted
capital I lower to anything in ASCII.  `toLowercase` is the algorithm over it,
with the one mapping that looks at its surroundings (a word-final sigma).
-/
import DnsLigase.Theory.Utf8

namespace DnsLigase.Theory.Case

open DnsLigase.Theory.Utf8

set_option autoImplicit false

/-- The lower-case mapping of characters and the two classes that the rule for a
final sigma asks about. -/
class UnicodeCase where
  lowerChar : Char → List Char
  cased : Char → Bool
  caseIgnorable : Char → Bool
  ascii : ∀ c : Char, c.toNat < 128 → lowerChar c = [c.toLower]
  kelvin : lowerChar '\u212a' = ['k']
  dottedI : lowerChar '\u0130' = ['i', '\u0307']
  beyond : ∀ c : Char, 128 ≤ c.toNat → c ≠ '\u212a' → c ≠ '\u0130' → ∀ d ∈ lowerChar c, 128 ≤ d.toNat
  settled : ∀ c : Char, ∀ d ∈ lowerChar c, lowerChar d = [d]

open UnicodeCase

variable [UnicodeCase]

/-- `case_ignorable_then_cased`. -/
def ignorableThenCased (cs : List Char) : Bool :=
  match cs.dropWhile caseIgnorable with
  | [] => false
  | c :: _ => cased c

/-- The lower case of a character between what stands before it, nearest first,
and what stands behind it. -/
def lowerAt (before : List Char) (c : Char) (behind : List Char) : List Char :=
  if c = 'Σ' then
    if ignorableThenCased before && !ignorableThenCased behind then ['ς'] else ['σ']
  else lowerChar c

def lowerFrom (before : List Char) : List Char → List Char
  | [] => []
  | c :: rest => lowerAt before c rest ++ lowerFrom (c :: before) rest

/-- `str::to_lowercase`. -/
def toLowercase (s : String) : String := String.ofList (lowerFrom [] s.toList)

/-! ## What lower-casing keeps

An ASCII character that is no letter is neither made nor lost. -/

section Neutral

omit [UnicodeCase] in
/-- ASCII facts are finite tables. -/
theorem forall_ascii {P : Char → Prop} (table : ∀ n < 128, P (Char.ofNat n)) (c : Char)
    (ascii : c.toNat < 128) : P c := by
  have := table c.toNat ascii
  rwa [Char.ofNat_toNat] at this

/-- An ASCII character that only itself lowers to, among the ASCII characters. -/
structure Neutral (d : Char) : Prop where
  ascii : d.toNat < 128
  lower : d.toLower = d
  only : ∀ n < 128, (Char.ofNat n).toLower = d → Char.ofNat n = d
  noLetter : d ≠ 'k' ∧ d ≠ 'i'

omit [UnicodeCase] in
theorem neutral_dot : Neutral '.' := ⟨by decide, by decide, by decide, by decide⟩

variable {d : Char}

theorem Neutral.lowerChar_self (neutral : Neutral d) : lowerChar d = [d] := by
  rw [UnicodeCase.ascii d neutral.ascii, neutral.lower]

theorem Neutral.not_mem_lowerChar (neutral : Neutral d) {c : Char} (ne : c ≠ d) :
    d ∉ lowerChar c := by
  intro member
  by_cases small : c.toNat < 128
  · rw [UnicodeCase.ascii c small, List.mem_singleton] at member
    have only := forall_ascii (P := fun c => c.toLower = d → c = d) neutral.only c small
    exact ne (only member.symm)
  · by_cases kelvin : c = '\u212a'
    · rw [kelvin, UnicodeCase.kelvin, List.mem_singleton] at member
      exact neutral.noLetter.1 member
    by_cases dottedI : c = '\u0130'
    · simp only [dottedI, UnicodeCase.dottedI, List.mem_cons, List.not_mem_nil, or_false] at member
      rcases member with letter | mark
      · exact neutral.noLetter.2 letter
      · exact absurd neutral.ascii (mark ▸ by decide)
    have := beyond c (Nat.not_lt.mp small) kelvin dottedI d member
    exact absurd neutral.ascii (Nat.not_lt.mpr this)

theorem Neutral.count_lowerAt (neutral : Neutral d) (before : List Char) (c : Char)
    (behind : List Char) : (lowerAt before c behind).count d = [c].count d := by
  have ne_of_large : ∀ e : Char, ¬ e.toNat < 128 → e ≠ d := by
    rintro e large rfl
    exact large neutral.ascii
  unfold lowerAt
  split
  · rename_i sigma
    have small := ne_of_large 'σ' (by decide)
    have final := ne_of_large 'ς' (by decide)
    have capital := ne_of_large 'Σ' (by decide)
    split <;> simp [sigma, small, final, capital]
  · by_cases same : c = d
    · rw [same, neutral.lowerChar_self]
    · rw [List.count_eq_zero.mpr (neutral.not_mem_lowerChar same),
        List.count_eq_zero.mpr (by simpa using Ne.symm same)]

theorem Neutral.count_lowerFrom (neutral : Neutral d) : ∀ (cs before : List Char),
    (lowerFrom before cs).count d = cs.count d
  | [], _ => rfl
  | c :: rest, before => by
      rw [lowerFrom, List.count_append, neutral.count_lowerAt, neutral.count_lowerFrom rest,
        ← List.count_append]
      rfl

/-- **Lower-casing keeps the number of occurrences of a neutral character.** -/
theorem Neutral.count_toLowercase (neutral : Neutral d) (s : String) :
    (toLowercase s).toList.count d = s.toList.count d := by
  rw [toLowercase, String.toList_ofList, neutral.count_lowerFrom]

end Neutral

/-! ## What is left to lower -/

section Settled

/-- What holds of every character that one is lowered to holds of a lower-cased text. -/
theorem forall_toLowercase {P : Char → Prop}
    (each : ∀ before c behind, ∀ d ∈ lowerAt before c behind, P d) (s : String) :
    ∀ d ∈ (toLowercase s).toList, P d := by
  have from_ : ∀ (cs before : List Char), ∀ d ∈ lowerFrom before cs, P d := by
    intro cs
    induction cs with
    | nil => simp [lowerFrom]
    | cons c rest ih =>
        intro before d member
        rcases List.mem_append.mp member with member | member
        · exact each before c rest d member
        · exact ih (c :: before) d member
  rw [toLowercase, String.toList_ofList]
  exact from_ s.toList []

/-- The tables know the three sigmas, whose capital `to_lowercase` maps by itself. -/
structure Sigmas : Prop where
  capital : lowerChar 'Σ' = ['σ']
  final : lowerChar 'ς' = ['ς']

/-- **No character of a lower-cased text has another lower case.** -/
theorem Sigmas.settled_toLowercase (sigmas : Sigmas) (s : String) :
    ∀ d ∈ (toLowercase s).toList, lowerChar d = [d] := by
  refine forall_toLowercase (fun before c behind d member => ?_) s
  unfold lowerAt at member
  split at member
  · have small : lowerChar 'σ' = ['σ'] := UnicodeCase.settled 'Σ' 'σ' (by simp [sigmas.capital])
    split at member <;> rw [List.mem_singleton.mp member]
    · exact sigmas.final
    · exact small
  · exact UnicodeCase.settled c d member

theorem Sigmas.lowerFrom_self (sigmas : Sigmas) : ∀ {cs : List Char} (before : List Char),
    (∀ c ∈ cs, lowerChar c = [c]) → lowerFrom before cs = cs
  | [], _, _ => rfl
  | c :: rest, before, settled => by
      obtain ⟨head, tail⟩ := List.forall_mem_cons.mp settled
      have notCapital : c ≠ 'Σ' := by
        rintro rfl
        rw [sigmas.capital] at head
        exact absurd head (by decide)
      rw [lowerFrom, lowerAt, if_neg notCapital, head, sigmas.lowerFrom_self (c :: before) tail]
      rfl

/-- Lower-casing keeps exactly the texts of such characters. -/
theorem Sigmas.toLowercase_eq_iff (sigmas : Sigmas) {s : String} :
    toLowercase s = s ↔ ∀ c ∈ s.toList, lowerChar c = [c] := by
  constructor
  · intro same
    have settled := sigmas.settled_toLowercase s
    rwa [same] at settled
  · intro settled
    rw [toLowercase, sigmas.lowerFrom_self [] settled, String.ofList_toList]

omit [UnicodeCase] in
theorem ascii_of_isUpper {c : Char} (upper : c.isUpper) : c.toNat < 128 := by
  delta Char.isUpper at upper
  have bounds : 65 ≤ c.val ∧ c.val ≤ 90 := of_decide_eq_true upper
  have : c.toNat ≤ 90 := UInt32.le_iff_toNat_le.mp bounds.2
  omega

theorem not_upper_of_settled {d : Char} (settled : lowerChar d = [d]) : ¬ d.isUpper := by
  intro upper
  have small := ascii_of_isUpper upper
  rw [UnicodeCase.ascii d small, List.cons.injEq] at settled
  have table := forall_ascii (P := fun d => d.isUpper → d.toLower ≠ d) (by decide) d small
  exact table upper settled.1

/-- A lower-cased text has no ASCII capital. -/
theorem not_upper_toLowercase (s : String) : ∀ d ∈ (toLowercase s).toList, ¬ d.isUpper := by
  refine forall_toLowercase (fun before c behind d member => ?_) s
  unfold lowerAt at member
  split at member
  · split at member <;> rw [List.mem_singleton.mp member] <;> decide
  · exact not_upper_of_settled (UnicodeCase.settled c d member)

end Settled

/-! ## ASCII texts -/

section Ascii

omit [UnicodeCase] in
theorem toLower_of_not_upper {c : Char} (lower : ¬ c.isUpper) : c.toLower = c := by
  refine dif_neg fun upper => lower ?_
  delta Char.isUpper
  exact decide_eq_true upper

omit [UnicodeCase] in
theorem toLower_of_large {c : Char} (large : 128 ≤ c.toNat) : c.toLower = c :=
  toLower_of_not_upper fun upper => absurd (ascii_of_isUpper upper) (Nat.not_lt.mpr large)

theorem lowerFrom_ascii : ∀ {cs : List Char} (before : List Char),
    (∀ c ∈ cs, c.toNat < 128) → lowerFrom before cs = cs.map Char.toLower
  | [], _, _ => rfl
  | c :: rest, before, ascii => by
      obtain ⟨head, tail⟩ := List.forall_mem_cons.mp ascii
      have notCapital : c ≠ 'Σ' := by
        rintro rfl
        exact absurd head (by decide)
      rw [lowerFrom, lowerAt, if_neg notCapital, UnicodeCase.ascii c head,
        lowerFrom_ascii (c :: before) tail]
      rfl

/-- An ASCII text is lowered letter by letter. -/
theorem toLowercase_ascii {s : String} (ascii : ∀ c ∈ s.toList, c.toNat < 128) :
    toLowercase s = String.ofList (s.toList.map Char.toLower) := by
  rw [toLowercase, lowerFrom_ascii [] ascii]

/-- The lower case of a character is one character or more. -/
def Mapped : Prop := ∀ c : Char, lowerChar c ≠ []

/-- What lowers to ASCII characters other than `k` is ASCII. -/
theorem Mapped.ascii_of_lowerAt (mapped : Mapped) {before behind : List Char} {c : Char}
    (small : ∀ d ∈ lowerAt before c behind, d.toNat < 128 ∧ d ≠ 'k') : c.toNat < 128 := by
  by_contra large
  have sigma : c ≠ 'Σ' := by
    rintro rfl
    rw [lowerAt, if_pos rfl] at small
    split at small
    · exact absurd (small 'ς' List.mem_cons_self).1 (by decide)
    · exact absurd (small 'σ' List.mem_cons_self).1 (by decide)
  rw [lowerAt, if_neg sigma] at small
  by_cases kelvin : c = '\u212a'
  · rw [kelvin, UnicodeCase.kelvin] at small
    exact (small 'k' List.mem_cons_self).2 rfl
  by_cases dottedI : c = '\u0130'
  · rw [dottedI, UnicodeCase.dottedI] at small
    exact absurd (small '\u0307' (by simp)).1 (by decide)
  obtain ⟨d, member⟩ := List.exists_mem_of_ne_nil _ (mapped c)
  have := beyond c (Nat.not_lt.mp large) kelvin dottedI d member
  exact absurd (small d member).1 (Nat.not_lt.mpr this)

/-- **A text that lowers to ASCII without a `k` is ASCII.** -/
theorem Mapped.ascii_of_toLowercase (mapped : Mapped) {s : String}
    (small : ∀ d ∈ (toLowercase s).toList, d.toNat < 128 ∧ d ≠ 'k') :
    ∀ c ∈ s.toList, c.toNat < 128 := by
  have from_ : ∀ (cs before : List Char), (∀ d ∈ lowerFrom before cs, d.toNat < 128 ∧ d ≠ 'k') →
      ∀ c ∈ cs, c.toNat < 128 := by
    intro cs
    induction cs with
    | nil => simp
    | cons c rest ih =>
        intro before small
        rw [lowerFrom, List.forall_mem_append] at small
        exact List.forall_mem_cons.mpr ⟨mapped.ascii_of_lowerAt small.1, ih (c :: before) small.2⟩
  rw [toLowercase, String.toList_ofList] at small
  exact from_ s.toList [] small

end Ascii

/-! ## The smallest tables

Lower case for ASCII, for the two characters that lower into it and for one accented
letter; everything else is its own lower case. -/

def smallTables (c : Char) : List Char :=
  if c = '\u212a' then ['k']
  else if c = '\u0130' then ['i', '\u0307']
  else if c = 'É' then ['é']
  else [c.toLower]

@[reducible] def smallCase : UnicodeCase where
  lowerChar := smallTables
  cased c := c.isAlpha
  caseIgnorable c := c = '\''
  ascii := forall_ascii (by decide)
  kelvin := by decide
  dottedI := by decide
  beyond c large kelvin dottedI d member := by
    rw [smallTables, if_neg kelvin, if_neg dottedI] at member
    split at member
    · rw [List.mem_singleton.mp member]
      decide
    · rw [List.mem_singleton.mp member, toLower_of_large large]
      exact large
  settled c := by
    by_cases special : c ∈ ['\u212a', '\u0130', 'É']
    · have table : ['\u212a', '\u0130', 'É'].all
          fun c => (smallTables c).all fun d => smallTables d = [d] := by decide
      intro d member
      exact of_decide_eq_true (List.all_eq_true.mp (List.all_eq_true.mp table c special) d member)
    · simp only [List.mem_cons, List.not_mem_nil, or_false, not_or] at special
      have lowered : smallTables c = [c.toLower] := by
        rw [smallTables, if_neg special.1, if_neg special.2.1, if_neg special.2.2]
      intro d member
      rw [lowered, List.mem_singleton] at member
      rw [member]
      by_cases small : c.toNat < 128
      · exact forall_ascii (P := fun c => smallTables c.toLower = [c.toLower]) (by decide) c small
      · rw [toLower_of_large (Nat.not_lt.mp small)] at lowered ⊢
        exact lowered

omit [UnicodeCase] in
theorem smallCase_mapped : @Mapped smallCase := by
  intro c
  show smallTables c ≠ []
  unfold smallTables
  repeat' split
  all_goals exact List.cons_ne_nil _ _

end DnsLigase.Theory.Case
