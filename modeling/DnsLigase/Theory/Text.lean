/-
# Theory.Text — parts of strings, as Rust's `str` cuts them

Splitting at a separator and joining again, over lists of any type.  The two
library round trips cover parts without the separator; `splitOn_intercalate_any`
is what a split gives when the joined parts may contain it.

Then the `str` methods on lists of characters: white space is that of Unicode,
and a slice goes by byte offsets, so that it is partial: `slice` has no value
where the method panics, which is when the offsets are out of order, out of bounds
or inside a character.

`Ends P cs` says that the first and the last character of a text satisfy `P`; a text that
neither starts nor ends with white space is what `trim` leaves alone (`Edged.trim`).
-/
import Mathlib.Algebra.Order.Ring.Nat
import Mathlib.Data.List.DropRight
import Mathlib.Data.List.Infix

namespace DnsLigase.Theory.Text

set_option autoImplicit false

section Split

variable {α : Type} [BEq α] [LawfulBEq α] {sep : α}

theorem splitOn_append_cons (xs ys : List α) :
    (xs ++ sep :: ys).splitOn sep = xs.splitOn sep ++ ys.splitOn sep := by
  simp only [List.splitOn_eq_splitOnP]
  exact List.splitOnP_append_cons xs ys (by simp)

/-- Joining and splitting again splits every part. -/
theorem splitOn_intercalate_any : ∀ {parts : List (List α)}, parts ≠ [] →
    ([sep].intercalate parts).splitOn sep = parts.flatMap (·.splitOn sep)
  | [], nonempty => absurd rfl nonempty
  | [part], _ => by simp
  | part :: next :: rest, _ => by
      have ih := splitOn_intercalate_any (List.cons_ne_nil next rest)
      rw [List.intercalate_cons_cons, List.append_assoc, List.singleton_append,
        splitOn_append_cons, ih]
      rfl

omit [BEq α] [LawfulBEq α] in
/-- A part is a sublist of the whole it was joined into. -/
theorem sublist_intercalate {sep : List α} : ∀ {parts : List (List α)} {part : List α},
    part ∈ parts → part.Sublist (sep.intercalate parts)
  | [only], part, member => by simp_all
  | first :: next :: rest, part, member => by
      rw [List.intercalate_cons_cons]
      rcases List.mem_cons.mp member with rfl | member
      · exact ((List.sublist_append_left _ _).trans (List.sublist_append_left _ _))
      · exact (sublist_intercalate member).trans (List.sublist_append_right _ _)

theorem sublist_of_mem_splitOn {whole part : List α} (member : part ∈ whole.splitOn sep) :
    part.Sublist whole := by
  have inside : part.Sublist ([sep].intercalate (whole.splitOn sep)) := sublist_intercalate member
  rwa [List.intercalate_splitOn] at inside

/-- A part contains no separator. -/
theorem not_mem_of_mem_splitOn : ∀ {whole part : List α}, part ∈ whole.splitOn sep → sep ∉ part
  | [], part, member => by simp_all
  | x :: xs, part, member => by
      rw [List.splitOn_cons_eq_if_modifyHead] at member
      split at member
      · rcases List.mem_cons.mp member with rfl | member
        · simp
        · exact not_mem_of_mem_splitOn member
      · rename_i different
        obtain ⟨head, tail, parts⟩ := List.exists_cons_of_ne_nil (List.splitOn_ne_nil sep xs)
        rw [parts, List.modifyHead_cons] at member
        have ih : ∀ part ∈ xs.splitOn sep, sep ∉ part := fun _ => not_mem_of_mem_splitOn
        rw [parts] at ih
        rcases List.mem_cons.mp member with rfl | member
        · have clean := ih head List.mem_cons_self
          have ne : sep ≠ x := fun same => different (beq_iff_eq.mpr same.symm)
          simp [clean, ne]
        · exact ih part (List.mem_cons_of_mem _ member)

end Split

/-! ## The ends of a list -/

section Ends

variable {α : Type}

/-- The list starts and ends with elements in `P`. -/
structure Ends (P : α → Prop) (xs : List α) : Prop where
  first : ∃ x rest, xs = x :: rest ∧ P x
  last : ∃ front x, xs = front ++ [x] ∧ P x

namespace Ends

variable {P Q : α → Prop} {xs ys : List α}

theorem mono (ends : Ends P xs) (weaker : ∀ x, P x → Q x) : Ends Q xs := by
  obtain ⟨⟨x, rest, whole, first⟩, front, y, whole', last⟩ := ends
  exact ⟨⟨x, rest, whole, weaker x first⟩, front, y, whole', weaker y last⟩

theorem of_all (each : ∀ x ∈ xs, P x) (nonempty : xs ≠ []) : Ends P xs := by
  obtain ⟨x, rest, rfl⟩ := List.exists_cons_of_ne_nil nonempty
  exact ⟨⟨x, rest, rfl, each x List.mem_cons_self⟩, (x :: rest).dropLast, _,
    (List.dropLast_append_getLast nonempty).symm, each _ (List.getLast_mem nonempty)⟩

theorem ne_nil (ends : Ends P xs) : xs ≠ [] := by
  obtain ⟨x, rest, rfl, -⟩ := ends.first
  exact List.cons_ne_nil x rest

/-- Only the outer two of the four ends count. -/
theorem join (left : Ends P xs) (mid : List α) (right : Ends P ys) :
    Ends P (xs ++ (mid ++ ys)) := by
  obtain ⟨x, rest, rfl, first⟩ := left.first
  obtain ⟨front, y, rfl, last⟩ := right.last
  exact ⟨⟨x, _, rfl, first⟩, x :: rest ++ (mid ++ front), y, by simp, last⟩

theorem intercalate (sep : List α) : ∀ {parts : List (List α)}, (∀ part ∈ parts, Ends P part) →
    parts ≠ [] → Ends P (sep.intercalate parts)
  | [], _, nonempty => absurd rfl nonempty
  | [part], each, _ => by simpa using each
  | part :: next :: rest, each, _ => by
      obtain ⟨head, tail⟩ := List.forall_mem_cons.mp each
      rw [List.intercalate_cons_cons, List.append_assoc]
      exact head.join sep (intercalate sep tail (List.cons_ne_nil next rest))

end Ends

theorem forall_mem_intercalate {P : α → Prop} {sep : List α} (within : ∀ x ∈ sep, P x) :
    ∀ {parts : List (List α)}, (∀ part ∈ parts, ∀ x ∈ part, P x) →
      ∀ x ∈ sep.intercalate parts, P x
  | [], _ => List.forall_mem_nil _
  | [part], each => by simpa using each
  | part :: next :: rest, each => by
      obtain ⟨head, tail⟩ := List.forall_mem_cons.mp each
      rw [List.intercalate_cons_cons, List.append_assoc, List.forall_mem_append,
        List.forall_mem_append]
      exact ⟨head, within, forall_mem_intercalate within tail⟩

end Ends

/-! ## White space and lines -/

/-- The Unicode property `White_Space`. -/
def isWhitespace (c : Char) : Bool :=
  (9 ≤ c.toNat && c.toNat ≤ 13) || c.toNat = 0x20 || c.toNat = 0x85 || c.toNat = 0xA0 ||
    c.toNat = 0x1680 || (0x2000 ≤ c.toNat && c.toNat ≤ 0x200A) || c.toNat = 0x2028 ||
    c.toNat = 0x2029 || c.toNat = 0x202F || c.toNat = 0x205F || c.toNat = 0x3000

/-- `str::trim`. -/
def trim (cs : List Char) : List Char := (cs.dropWhile isWhitespace).rdropWhile isWhitespace

/-- `str::split_whitespace`. -/
def splitWhitespace (cs : List Char) : List (List Char) :=
  (cs.splitOnP isWhitespace).filter (· ≠ [])

/-- The carriage return of a line that a newline ended. -/
def stripCr (cs : List Char) : List Char :=
  if cs.getLast? = some '\r' then cs.dropLast else cs

def linesOf : List (List Char) → List (List Char)
  | [] => []
  | [last] => if last = [] then [] else [last]
  | line :: next :: rest => stripCr line :: linesOf (next :: rest)

/-- `str::lines`. -/
def lines (cs : List Char) : List (List Char) := linesOf (cs.splitOn '\n')

/-- `str::trim_start_matches` with the pattern of the two characters `a`, `b`. -/
def trimStartMatches (a b : Char) : List Char → List Char
  | c :: d :: rest => if c = a ∧ d = b then trimStartMatches a b rest else c :: d :: rest
  | cs => cs

/-- `str::trim_end_matches` with one character. -/
def trimEndMatches (c : Char) (cs : List Char) : List Char := cs.rdropWhile (· = c)

/-- `str::split(c).next()`. -/
def upTo (c : Char) (cs : List Char) : List Char := cs.takeWhile (· ≠ c)

/-- `str::split(pattern).next()`, for a pattern that is not empty. -/
def before (pattern : List Char) : List Char → List Char
  | [] => []
  | c :: cs => if pattern.isPrefixOf (c :: cs) then [] else c :: before pattern cs

/-- `str::contains`. -/
def contains (pattern cs : List Char) : Bool := decide (pattern <:+: cs)

/-- `str::eq_ignore_ascii_case`. -/
def eqIgnoreAsciiCase (cs ds : List Char) : Bool := cs.map Char.toLower = ds.map Char.toLower

/-- `str::strip_prefix`. -/
def stripPrefix (pattern cs : List Char) : Option (List Char) :=
  if pattern.isPrefixOf cs then some (cs.drop pattern.length) else none

/-- `str::strip_suffix`. -/
def stripSuffix (pattern cs : List Char) : Option (List Char) :=
  if pattern.isSuffixOf cs then some (cs.take (cs.length - pattern.length)) else none

theorem trimStartMatches_of_other {a b : Char} : ∀ {cs : List Char},
    [a, b].isPrefixOf cs = false → trimStartMatches a b cs = cs
  | [], _ => rfl
  | [_], _ => rfl
  | c :: d :: rest, other => by
      have differ : ¬ (c = a ∧ d = b) := by
        rintro ⟨rfl, rfl⟩
        simp [List.isPrefixOf] at other
      rw [trimStartMatches, if_neg differ]

/-- A text that starts and ends with `c` is `c` alone, or something between two of them. -/
theorem wrapped_cases {c : Char} {cs : List Char} (front : [c].isPrefixOf cs)
    (back : [c].isSuffixOf cs) : cs = [c] ∨ ∃ inner, cs = c :: (inner ++ [c]) := by
  obtain ⟨rest, rfl⟩ := List.isPrefixOf_iff_prefix.mp front
  obtain ⟨inner, whole⟩ := List.isSuffixOf_iff_suffix.mp back
  cases inner with
  | nil => exact .inl whole.symm
  | cons d inner =>
      rw [List.cons_append, List.singleton_append, List.cons.injEq] at whole
      obtain ⟨rfl, rfl⟩ := whole
      exact .inr ⟨inner, rfl⟩

theorem head_not_whitespace {cs : List Char} {c : Char} {rest : List Char}
    (shape : trim cs = c :: rest) : isWhitespace c = false := by
  obtain ⟨tail, whole⟩ := List.rdropWhile_prefix isWhitespace (cs.dropWhile isWhitespace)
  change trim cs ++ tail = _ at whole
  rw [shape, List.cons_append] at whole
  have first := List.head?_dropWhile_not isWhitespace cs
  rw [← whole] at first
  simpa using first

/-- Trimming twice is trimming once. -/
theorem trim_trim (cs : List Char) : trim (trim cs) = trim cs := by
  have front : (trim cs).dropWhile isWhitespace = trim cs := by
    cases shape : trim cs with
    | nil => rfl
    | cons c rest =>
        rw [List.dropWhile_cons_of_neg]
        simp [head_not_whitespace shape]
  conv_lhs => rw [trim, front]
  exact List.rdropWhile_idempotent isWhitespace _

/-- The text starts and ends with something else than whitespace. -/
abbrev Edged (cs : List Char) : Prop := Ends (isWhitespace · = false) cs

namespace Edged

variable {cs : List Char}

/-- Behind such a text only what ends the line is trimmed. -/
theorem trim_append (edged : Edged cs) (back : List Char) :
    trim (cs ++ back) = cs ++ back.rdropWhile isWhitespace := by
  obtain ⟨c, rest, whole, solid⟩ := edged.first
  have front : (cs ++ back).dropWhile isWhitespace = cs ++ back := by
    rw [whole, List.cons_append, List.dropWhile_cons_of_neg (by simp [solid])]
  obtain ⟨front', d, whole', solid'⟩ := edged.last
  rw [trim, front, List.rdropWhile, List.reverse_append, List.dropWhile_append]
  split
  · rename_i white
    have gone : back.rdropWhile isWhitespace = [] := by
      rw [List.rdropWhile, List.isEmpty_iff.mp white, List.reverse_nil]
    rw [gone, whole', List.append_nil, List.reverse_append, List.reverse_singleton,
      List.singleton_append, List.dropWhile_cons_of_neg (by simp [solid']), List.reverse_cons,
      List.reverse_reverse]
  · rw [List.reverse_append, List.reverse_reverse, List.rdropWhile]

theorem trim (edged : Edged cs) : Text.trim cs = cs := by
  have trimmed := edged.trim_append []
  rwa [List.append_nil, List.rdropWhile_nil, List.append_nil] at trimmed

end Edged

/-! ### Words -/

theorem splitWhitespace_append {w : Char} (white : isWhitespace w = true) (front back : List Char) :
    splitWhitespace (front ++ w :: back) = splitWhitespace front ++ splitWhitespace back := by
  rw [splitWhitespace, List.splitOnP_append_cons _ _ white, List.filter_append]
  rfl

theorem splitWhitespace_cons {w : Char} (white : isWhitespace w = true) (cs : List Char) :
    splitWhitespace (w :: cs) = splitWhitespace cs :=
  splitWhitespace_append white [] cs

theorem splitWhitespace_white {cs : List Char} (white : ∀ c ∈ cs, isWhitespace c = true) :
    splitWhitespace cs = [] := by
  induction cs with
  | nil => rfl
  | cons w cs ih =>
      obtain ⟨head, tail⟩ := List.forall_mem_cons.mp white
      rw [splitWhitespace_cons head, ih tail]

theorem splitWhitespace_append_white {gap : List Char} (white : ∀ c ∈ gap, isWhitespace c = true)
    (cs : List Char) : splitWhitespace (cs ++ gap) = splitWhitespace cs := by
  cases gap with
  | nil => rw [List.append_nil]
  | cons w gap =>
      obtain ⟨head, tail⟩ := List.forall_mem_cons.mp white
      rw [splitWhitespace_append head, splitWhitespace_white tail, List.append_nil]

theorem splitWhitespace_word {word : List Char} (solid : ∀ c ∈ word, isWhitespace c = false)
    (nonempty : word ≠ []) : splitWhitespace word = [word] := by
  rw [splitWhitespace, List.splitOnP_eq_singleton solid]
  simp [nonempty]

/-- The last word of a text, if whitespace stands in front of it, or nothing. -/
theorem getLast?_splitWhitespace {front word gap : List Char}
    (apart : front = [] ∨ ∃ rest w, front = rest ++ [w] ∧ isWhitespace w = true)
    (solid : ∀ c ∈ word, isWhitespace c = false) (nonempty : word ≠ [])
    (white : ∀ c ∈ gap, isWhitespace c = true) :
    (splitWhitespace (front ++ (word ++ gap))).getLast? = some word := by
  have single : splitWhitespace (word ++ gap) = [word] := by
    rw [splitWhitespace_append_white white, splitWhitespace_word solid nonempty]
  obtain rfl | ⟨rest, w, rfl, blank⟩ := apart
  · rw [List.nil_append, single]
    rfl
  · rw [List.append_assoc, List.singleton_append, splitWhitespace_append blank, single,
      List.getLast?_concat]

/-- Trimming takes no word away. -/
theorem splitWhitespace_trim (cs : List Char) : splitWhitespace (trim cs) = splitWhitespace cs := by
  have front : ∀ ds, splitWhitespace (ds.dropWhile isWhitespace) = splitWhitespace ds := by
    intro ds
    induction ds with
    | nil => rfl
    | cons d ds ih =>
        by_cases white : isWhitespace d = true
        · rw [List.dropWhile_cons_of_pos white, ih, splitWhitespace_cons white]
        · rw [List.dropWhile_cons_of_neg white]
  have tail : ∀ c ∈ (cs.dropWhile isWhitespace).rtakeWhile isWhitespace, isWhitespace c = true :=
    fun c => List.mem_rtakeWhile_imp
  calc splitWhitespace (trim cs)
      = splitWhitespace ((cs.dropWhile isWhitespace).rdropWhile isWhitespace ++
          (cs.dropWhile isWhitespace).rtakeWhile isWhitespace) :=
        (splitWhitespace_append_white tail _).symm
    _ = splitWhitespace (cs.dropWhile isWhitespace) := by rw [List.rdropWhile_append_rtakeWhile]
    _ = splitWhitespace cs := front cs

/-! ### Separators and patterns -/

theorem upTo_append {c : Char} {cs : List Char} (absent : c ∉ cs) (rest : List Char) :
    upTo c (cs ++ c :: rest) = cs := by
  have each : ∀ d ∈ cs, decide (d ≠ c) = true := fun d member =>
    decide_eq_true fun same => absent (same ▸ member)
  rw [upTo, List.takeWhile_append_of_pos each, List.takeWhile_cons_of_neg (by simp), List.append_nil]

theorem upTo_of_absent {c : Char} {cs : List Char} (absent : c ∉ cs) : upTo c cs = cs :=
  List.takeWhile_eq_self_iff.mpr fun _ member =>
    decide_eq_true fun same => absent (same ▸ member)

theorem trimEndMatches_concat (c : Char) (cs : List Char) :
    trimEndMatches c (cs ++ [c]) = trimEndMatches c cs :=
  List.rdropWhile_concat_pos _ _ _ (by simp)

theorem trimEndMatches_of_last {c d : Char} (cs : List Char) (other : d ≠ c) :
    trimEndMatches c (cs ++ [d]) = cs ++ [d] :=
  List.rdropWhile_concat_neg _ _ _ (by simp [other])

/-- A pattern that starts with `a` is not found where no `a` is. -/
theorem infix_append_iff {a : Char} {pattern front : List Char} (absent : a ∉ front)
    (back : List Char) : (a :: pattern) <:+: front ++ back ↔ (a :: pattern) <:+: back := by
  induction front with
  | nil => rfl
  | cons c front ih =>
      rw [List.mem_cons, not_or] at absent
      rw [List.cons_append, List.infix_cons_iff, ih absent.2, List.cons_prefix_cons]
      exact or_iff_right fun both => absent.1 both.1

/-- Nor one that ends with `a`. -/
theorem infix_append_iff_left {a : Char} {pattern back : List Char} (absent : a ∉ back)
    (front : List Char) : (pattern ++ [a]) <:+: front ++ back ↔ (pattern ++ [a]) <:+: front := by
  rw [← List.reverse_infix, ← @List.reverse_infix _ _ front]
  simp only [List.reverse_append, List.reverse_singleton, List.singleton_append]
  exact infix_append_iff (by simpa using absent) front.reverse

/-- A pattern that whitespace cannot touch is found in a trimmed text as in the whole one. -/
theorem infix_trim_iff {pattern : List Char} (edged : Edged pattern) (cs : List Char) :
    pattern <:+: trim cs ↔ pattern <:+: cs := by
  obtain ⟨⟨a, rest, head, solid⟩, front, b, tail, solid'⟩ := edged
  have absent : a ∉ cs.takeWhile isWhitespace := fun member => by
    have white := List.mem_takeWhile_imp member
    rw [solid] at white
    cases white
  have absent' : b ∉ (cs.dropWhile isWhitespace).rtakeWhile isWhitespace := fun member => by
    have white := List.mem_rtakeWhile_imp member
    rw [solid'] at white
    cases white
  have left : pattern <:+: cs.dropWhile isWhitespace ↔ pattern <:+: cs := by
    have split : a :: rest <:+: _ ↔ _ := infix_append_iff absent (cs.dropWhile isWhitespace)
    rw [List.takeWhile_append_dropWhile, ← head] at split
    exact split.symm
  have right : front ++ [b] <:+: _ ↔ _ := infix_append_iff_left absent' (trim cs)
  rw [trim, List.rdropWhile_append_rtakeWhile, ← tail] at right
  exact right.symm.trans left

/-- What stands before a pattern that is nowhere is the whole text. -/
theorem before_of_absent {pattern : List Char} : ∀ {cs : List Char}, ¬ pattern <:+: cs →
    before pattern cs = cs
  | [], _ => rfl
  | c :: cs, absent => by
      rw [List.infix_cons_iff, not_or] at absent
      have differ : ¬ pattern.isPrefixOf (c :: cs) = true := mt List.isPrefixOf_iff_prefix.mp absent.1
      rw [before, if_neg differ, before_of_absent absent.2]

theorem lines_single {cs : List Char} (single : '\n' ∉ cs) (nonempty : cs ≠ []) :
    lines cs = [cs] := by
  rw [lines, List.splitOn_eq_singleton single, linesOf, if_neg nonempty]

/-- What is left of a text after trimming has a word. -/
theorem splitWhitespace_ne_nil {cs : List Char} (nonempty : trim cs ≠ []) :
    splitWhitespace (trim cs) ≠ [] := by
  obtain ⟨c, rest, shape⟩ := List.exists_cons_of_ne_nil nonempty
  have word := head_not_whitespace shape
  obtain ⟨head, tail, parts⟩ :=
    List.exists_cons_of_ne_nil (List.splitOnP_ne_nil isWhitespace rest)
  have split : (c :: rest).splitOnP isWhitespace = (c :: head) :: tail := by
    rw [List.splitOnP_cons_eq_if_modifyHead, word, parts]
    rfl
  rw [shape, splitWhitespace, split]
  simp

/-! ## Slices by byte offset -/

/-- The number of bytes. -/
def blen (cs : List Char) : Nat := (cs.map Char.utf8Size).sum

/-- `&s[n..]`. -/
def dropBytes : Nat → List Char → Option (List Char)
  | 0, cs => some cs
  | _ + 1, [] => none
  | n + 1, c :: cs => if c.utf8Size ≤ n + 1 then dropBytes (n + 1 - c.utf8Size) cs else none

/-- `&s[..n]`. -/
def takeBytes : Nat → List Char → Option (List Char)
  | 0, _ => some []
  | _ + 1, [] => none
  | n + 1, c :: cs =>
      if c.utf8Size ≤ n + 1 then (takeBytes (n + 1 - c.utf8Size) cs).map (c :: ·) else none

/-- `&s[i..j]`. -/
def slice (i j : Nat) (cs : List Char) : Option (List Char) :=
  if i ≤ j then (dropBytes i cs).bind (takeBytes (j - i)) else none

theorem blen_single {cs : List Char} (single : ∀ c ∈ cs, c.utf8Size = 1) :
    blen cs = cs.length := by
  induction cs with
  | nil => rfl
  | cons c cs ih =>
      have rest := ih fun d member => single d (List.mem_cons_of_mem c member)
      simp only [blen] at rest
      rw [blen, List.map_cons, List.sum_cons, rest, single c List.mem_cons_self, List.length_cons,
        Nat.add_comm]

/-- A text of one-byte characters is cut like a list. -/
theorem takeBytes_single : ∀ {cs : List Char} {n : Nat}, (∀ c ∈ cs, c.utf8Size = 1) →
    n ≤ blen cs → takeBytes n cs = some (cs.take n)
  | cs, 0, _, _ => by simp [takeBytes]
  | [], n + 1, _, inside => absurd inside (Nat.not_succ_le_zero n)
  | c :: cs, n + 1, single, inside => by
      have one : c.utf8Size = 1 := single c List.mem_cons_self
      have rest : ∀ d ∈ cs, d.utf8Size = 1 := fun d member =>
        single d (List.mem_cons_of_mem c member)
      have inside' : n ≤ blen cs := by
        rw [blen_single single, List.length_cons] at inside
        rw [blen_single rest]
        omega
      rw [takeBytes, one, if_pos (Nat.le_add_left 1 n), Nat.add_sub_cancel,
        takeBytes_single rest inside']
      rfl

/-- It can be cut anywhere. -/
theorem takeBytes_isSome {cs : List Char} {n : Nat} (single : ∀ c ∈ cs, c.utf8Size = 1)
    (inside : n ≤ blen cs) : (takeBytes n cs).isSome := by
  rw [takeBytes_single single inside]
  rfl

theorem takeBytes_append : ∀ cs rest : List Char, takeBytes (blen cs) (cs ++ rest) = some cs
  | [], _ => by simp [takeBytes, blen]
  | c :: cs, rest => by
      have size := c.utf8Size_pos
      obtain ⟨n, bytes⟩ : ∃ n, blen (c :: cs) = n + 1 :=
        ⟨blen (c :: cs) - 1, by simp only [blen, List.map_cons, List.sum_cons]; omega⟩
      have tail : n + 1 - c.utf8Size = blen cs := by
        rw [← bytes]
        simp [blen]
      have fits : c.utf8Size ≤ n + 1 := by
        rw [← bytes]
        simp [blen]
      rw [bytes, List.cons_append, takeBytes, if_pos fits, tail, takeBytes_append cs rest]
      rfl

/-- Between two one-byte characters: `&s[1..s.len() - 1]`. -/
theorem slice_wrapped {a b : Char} (single : a.utf8Size = 1) (single' : b.utf8Size = 1)
    (inner : List Char) :
    slice 1 (blen (a :: (inner ++ [b])) - 1) (a :: (inner ++ [b])) = some inner := by
  have bytes : blen (a :: (inner ++ [b])) - 1 = 1 + blen inner := by
    simp only [blen, List.map_cons, List.map_append, List.map_nil, List.sum_cons, List.sum_append,
      List.sum_nil, single, single']
    omega
  have first : dropBytes 1 (a :: (inner ++ [b])) = some (inner ++ [b]) := by
    rw [dropBytes, single]
    simp [dropBytes]
  rw [bytes, slice, if_pos (Nat.le_add_right _ _), first, Nat.add_sub_cancel_left]
  exact takeBytes_append inner [b]

/-- A single one-byte character has no `&s[1..s.len() - 1]`. -/
theorem slice_single {a : Char} (single : a.utf8Size = 1) : slice 1 (blen [a] - 1) [a] = none := by
  simp [slice, blen, single]

end DnsLigase.Theory.Text
