/-
# Theory.Fields — records of fields, each on a line of its own

A field is written as its key, a separator, its value and a line end.  The reader splits at
line ends and takes for the key of a line what stands in front of the first separator, so a
value may hold separators but no line end: `readFields_written`.
-/
import DnsLigase.Theory.Text

namespace DnsLigase.Theory.Fields

set_option autoImplicit false

variable {α : Type} [DecidableEq α] (end_ sep : α)

/-! ## Reading -/

/-- The lines of a text; behind the last line end there is no line. -/
def terminated (xs : List α) : List (List α) :=
  let parts := xs.splitOn end_
  if parts.getLast? = some [] then parts.dropLast else parts

/-- The key in front of the first separator, and the value behind it. -/
def keyValue (line : List α) : Option (List α × List α) :=
  if sep ∈ line then some (line.takeWhile (· ≠ sep), (line.dropWhile (· ≠ sep)).tail) else none

def readFields (xs : List α) : Option (List (List α × List α)) :=
  (terminated end_ xs).mapM (keyValue sep)

/-! ## Writing -/

/-- A field without its line end. -/
def line (field : List α × List α) : List α := field.1 ++ sep :: field.2

def written (fields : List (List α × List α)) : List α :=
  fields.flatMap fun field => line sep field ++ [end_]

/-- The field can be told from what stands around it. -/
structure Framed (field : List α × List α) : Prop where
  key : end_ ∉ field.1 ∧ sep ∉ field.1
  value : end_ ∉ field.2

variable {end_ sep}

theorem splitOn_terminated : ∀ {lines : List (List α)}, (∀ l ∈ lines, end_ ∉ l) →
    (lines.flatMap (· ++ [end_])).splitOn end_ = lines ++ [[]]
  | [], _ => by simp
  | l :: lines, clean => by
      obtain ⟨first, rest⟩ := List.forall_mem_cons.mp clean
      rw [List.flatMap_cons, List.append_assoc, List.singleton_append, Text.splitOn_append_cons,
        List.splitOn_eq_singleton first, splitOn_terminated rest, List.cons_append,
        List.nil_append, List.cons_append]

/-- Lines that are written with their ends are read back. -/
theorem terminated_flatMap {lines : List (List α)} (clean : ∀ l ∈ lines, end_ ∉ l) :
    terminated end_ (lines.flatMap (· ++ [end_])) = lines := by
  simp [terminated, splitOn_terminated clean]

/-- The key of a line ends at the first separator. -/
theorem keyValue_line {field : List α × List α} (absent : sep ∉ field.1) :
    keyValue sep (line sep field) = some field := by
  have differ : ∀ a ∈ field.1, decide (a ≠ sep) = true := by
    intro a member
    rw [decide_eq_true_eq]
    rintro rfl
    exact absent member
  have present : sep ∈ line sep field := by simp [line]
  rw [keyValue, if_pos present, line, List.takeWhile_append_of_pos differ,
    List.dropWhile_append_of_pos differ]
  simp

/-- Lines of fields are fields again. -/
theorem mapM_line : ∀ {fields : List (List α × List α)}, (∀ field ∈ fields, sep ∉ field.1) →
    (fields.map (line sep)).mapM (keyValue sep) = some fields
  | [], _ => rfl
  | field :: fields, absent => by
      obtain ⟨first, rest⟩ := List.forall_mem_cons.mp absent
      rw [List.map_cons, List.mapM_cons, keyValue_line first, mapM_line rest]
      rfl

omit [DecidableEq α] in
theorem Framed.line_clean {field : List α × List α} (framed : Framed end_ sep field)
    (differ : end_ ≠ sep) : end_ ∉ line sep field := by
  simp [line, framed.key.1, framed.value, differ]

/-- **Framed fields are read back**: each of them once, in order, and no others. -/
theorem readFields_written (differ : end_ ≠ sep) {fields : List (List α × List α)}
    (framed : ∀ field ∈ fields, Framed end_ sep field) :
    readFields end_ sep (written end_ sep fields) = some fields := by
  have whole : written end_ sep fields = (fields.map (line sep)).flatMap (· ++ [end_]) := by
    rw [written, List.flatMap_map]
  have clean : ∀ l ∈ fields.map (line sep), end_ ∉ l :=
    List.forall_mem_map.mpr fun field member => (framed field member).line_clean differ
  rw [readFields, whole, terminated_flatMap clean]
  exact mapM_line fun field member => (framed field member).key.2

end DnsLigase.Theory.Fields
