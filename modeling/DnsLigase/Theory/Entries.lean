/-
# Theory.Entries — loops over `HashMap::entry(..).or_default()`

A loop that looks up the entry of each item's key and updates it in place sorts the items by
their keys: in the end the entry of a key is what a loop over the items with that key alone
makes of the default value (`getElem?_entries`).  Groups and counts are two such loops.  The
order in which such a map is iterated is not fixed, so what is said of an iteration is said of
every permutation of its pairs.
-/
import Mathlib.Algebra.BigOperators.Fin
import Mathlib.Data.List.Count
import Mathlib.Data.List.Induction
import Std.Data.ExtTreeMap

namespace DnsLigase.Theory.Entries

set_option autoImplicit false

variable {α β κ : Type} {cmp : κ → κ → Ordering} [Std.TransCmp cmp] [Std.LawfulEqCmp cmp]
  [DecidableEq κ]

/-- The items with the key `k`. -/
def own (key : α → κ) (xs : List α) (k : κ) : List α := xs.filter fun x => key x = k

/-- `for x in xs { step(map.entry(key(x)).or_default(), x) }`. -/
def entries (cmp : κ → κ → Ordering) [Std.TransCmp cmp] (key : α → κ) (step : β → α → β) (zero : β)
    (xs : List α) : Std.ExtTreeMap κ β cmp :=
  xs.foldl (fun map x => map.insert (key x) (step (map[key x]?.getD zero) x)) ∅

variable {key : α → κ} {step : β → α → β} {zero : β} {xs : List α} {k : κ}

theorem own_append {ys : List α} : own key (xs ++ ys) k = own key xs k ++ own key ys k :=
  List.filter_append ..

theorem own_ne_nil : own key xs k ≠ [] ↔ ∃ x ∈ xs, key x = k := by
  simp [own, List.filter_eq_nil_iff]

/-- **The entry of a key** is made of the items with that key, in their order. -/
theorem getElem?_entries : (entries cmp key step zero xs)[k]? =
    if own key xs k = [] then none else some ((own key xs k).foldl step zero) := by
  induction xs using List.reverseRecOn with
  | nil => simp [entries, own]
  | append_singleton xs x ih =>
      have turn : entries cmp key step zero (xs ++ [x]) =
          (entries cmp key step zero xs).insert (key x)
            (step ((entries cmp key step zero xs)[key x]?.getD zero) x) := List.foldl_append
      rw [turn, Std.ExtTreeMap.getElem?_insert, own_append]
      by_cases same : key x = k
      · subst same
        rw [if_pos Std.ReflCmp.compare_self, ih]
        have mine : own key [x] (key x) = [x] := by simp [own]
        rw [mine, if_neg (List.append_ne_nil_of_right_ne_nil _ (List.cons_ne_nil x [])),
          List.foldl_append, List.foldl_cons, List.foldl_nil]
        by_cases first : own key xs (key x) = []
        · rw [if_pos first, first]
          rfl
        · rw [if_neg first]
          rfl
      · have other : cmp (key x) k ≠ .eq := fun equal => same (Std.LawfulEqCmp.eq_of_compare equal)
        have none_ : own key [x] k = [] := by simp [own, same]
        rw [if_neg other, ih, none_, List.append_nil]

omit [DecidableEq κ] in
/-- What a map holds after it was extended was there before, or came with the extension. -/
theorem mem_of_getElem?_insertMany {map : Std.ExtTreeMap κ β cmp} {l : List (κ × β)} {v : β}
    (found : (map.insertMany l)[k]? = some v) : map[k]? = some v ∨ (k, v) ∈ l := by
  induction l generalizing map with
  | nil => exact .inl (by simpa using found)
  | cons p rest ih =>
      rw [Std.ExtTreeMap.insertMany_cons] at found
      rcases ih found with before | later
      · rw [Std.ExtTreeMap.getElem?_insert] at before
        split at before
        · rename_i same
          obtain rfl := Std.LawfulEqCmp.eq_of_compare same
          obtain rfl := Option.some.inj before
          exact .inr List.mem_cons_self
        · exact .inl before
      · exact .inr (List.mem_cons_of_mem _ later)

end DnsLigase.Theory.Entries
