/-
# Theory.Ranking — counting into a map, and the top of the counts

`counts` is the loop that counts items by key into a hash map, `ranked` the stable sort of its
pairs by descending count.  A map is iterated in any order, so the results are about every
permutation of its pairs: the counts are exact and add up (`mem_counts_iff`, `sum_counts`), the
first `n` of a ranking lead all others (`leads_take`), the numbers of a ranking do not depend on
the order (`ranked_numbers`), and neither do its keys, but for ties (`Leads.tied`).
-/
import DnsLigase.Theory.Entries
import Mathlib.Algebra.Order.BigOperators.Group.List

namespace DnsLigase.Theory.Ranking

open DnsLigase.Theory.Entries

set_option autoImplicit false

variable {α κ : Type} {cmp : κ → κ → Ordering} [Std.TransCmp cmp] [Std.LawfulEqCmp cmp]
  [DecidableEq κ]

/-! ## Counts -/

/-- `for x in xs { *map.entry(key(x)).or_default() += 1 }`. -/
def counts (cmp : κ → κ → Ordering) [Std.TransCmp cmp] (key : α → κ) (xs : List α) :
    Std.ExtTreeMap κ Nat cmp :=
  entries cmp key (fun n _ => n + 1) 0 xs

variable {key : α → κ} {xs : List α} {pairs pairs' : List (κ × Nat)}

theorem getElem?_counts (k : κ) : (counts cmp key xs)[k]? =
    if (xs.map key).count k = 0 then none else some ((xs.map key).count k) := by
  have size : (xs.map key).count k = (own key xs k).length := by
    rw [List.count, List.countP_map, List.countP_eq_length_filter, own]
    congr 2
  have total : ∀ (own : List α) (n : Nat), own.foldl (fun n _ => n + 1) n = n + own.length := by
    intro own
    induction own with
    | nil => exact fun n => rfl
    | cons x rest ih =>
        intro n
        rw [List.foldl_cons, ih, List.length_cons]
        omega
  rw [counts, getElem?_entries, total, size]
  simp

/-- **The counts are exact**: a key is counted if it occurs, with the number of its items. -/
theorem mem_counts_iff (iterated : pairs.Perm (counts cmp key xs).toList) {k : κ} {n : Nat} :
    (k, n) ∈ pairs ↔ 0 < n ∧ (xs.map key).count k = n := by
  rw [iterated.mem_iff, Std.ExtTreeMap.mem_toList_iff_getElem?_eq_some, getElem?_counts]
  split
  · simp only [reduceCtorEq, false_iff]
    omega
  · simp only [Option.some.injEq]
    omega

omit [DecidableEq κ] in
theorem nodup_counts (iterated : pairs.Perm (counts cmp key xs).toList) :
    (pairs.map Prod.fst).Nodup := by
  refine ((iterated.map _).nodup_iff).mpr (List.pairwise_map.mpr ?_)
  refine Std.ExtTreeMap.distinct_keys_toList.imp fun differ same => differ ?_
  rw [same]
  exact Std.ReflCmp.compare_self

/-- **The counts add up** to the number of the items. -/
theorem sum_counts (iterated : pairs.Perm (counts cmp key xs).toList) :
    (pairs.map Prod.snd).sum = xs.length := by
  have numbers : pairs.map Prod.snd = (pairs.map Prod.fst).map fun k => (xs.map key).count k := by
    rw [List.map_map]
    refine List.map_congr_left fun pair member => ?_
    exact ((mem_counts_iff iterated).mp member).2.symm
  have keys : (pairs.map Prod.fst).Perm (xs.map key).dedup := by
    refine (List.perm_ext_iff_of_nodup (nodup_counts iterated) (List.nodup_dedup _)).mpr fun k => ?_
    rw [List.mem_map, List.mem_dedup, ← List.count_pos_iff (a := k)]
    constructor
    · rintro ⟨⟨_, n⟩, member, rfl⟩
      obtain ⟨positive, rfl⟩ := (mem_counts_iff iterated).mp member
      exact positive
    · intro positive
      exact ⟨(k, _), (mem_counts_iff iterated).mpr ⟨positive, rfl⟩, rfl⟩
  rw [numbers, (keys.map _).sum_eq, List.sum_map_count_dedup_eq_length, List.length_map]

/-- Neither the order of the items nor that of the map makes a difference to the pairs. -/
theorem counts_perm {ys : List α} (iterated : pairs.Perm (counts cmp key xs).toList)
    (iterated' : pairs'.Perm (counts cmp key ys).toList) (perm : xs.Perm ys) :
    pairs.Perm pairs' := by
  have distinct : ∀ {zs : List α} {pairs : List (κ × Nat)},
      pairs.Perm (counts cmp key zs).toList → pairs.Nodup :=
    fun iterated => .of_map _ (nodup_counts iterated)
  refine (List.perm_ext_iff_of_nodup (distinct iterated) (distinct iterated')).mpr ?_
  rintro ⟨k, n⟩
  rw [mem_counts_iff iterated, mem_counts_iff iterated', (perm.map key).count_eq]

/-! ## Rankings -/

/-- `sort_by_key(|(_, c)| Reverse(*c))`, which is stable. -/
def ranked (pairs : List (κ × Nat)) : List (κ × Nat) :=
  pairs.mergeSort fun a b => decide (b.2 ≤ a.2)

omit [DecidableEq κ] in
theorem ranked_perm (pairs : List (κ × Nat)) : (ranked pairs).Perm pairs :=
  List.mergeSort_perm _ _

omit [DecidableEq κ] in
theorem ranked_sorted (pairs : List (κ × Nat)) :
    (ranked pairs).Pairwise fun a b => b.2 ≤ a.2 := by
  have sorted : (ranked pairs).Pairwise fun a b => decide (b.2 ≤ a.2) = true := by
    refine List.pairwise_mergeSort (fun a b c first second => ?_) (fun a b => ?_) pairs
    · simp only [decide_eq_true_eq] at first second ⊢
      omega
    · simp only [Bool.or_eq_true, decide_eq_true_eq]
      omega
  exact sorted.imp of_decide_eq_true

omit [DecidableEq κ] in
/-- **The numbers of a ranking do not depend on the order** in which the map is iterated. -/
theorem ranked_numbers (perm : pairs.Perm pairs') :
    (ranked pairs).map Prod.snd = (ranked pairs').map Prod.snd := by
  have same : (ranked pairs).Perm (ranked pairs') :=
    (ranked_perm pairs).trans (perm.trans (ranked_perm pairs').symm)
  have sorted : ∀ pairs : List (κ × Nat),
      ((ranked pairs).map Prod.snd).Pairwise fun a b => b ≤ a :=
    fun pairs => List.pairwise_map.mpr (ranked_sorted pairs)
  exact List.Perm.eq_of_pairwise (fun a b _ _ first second => Nat.le_antisymm second first)
    (sorted pairs) (sorted pairs') (same.map Prod.snd)

/-- What the first `n` pairs of a ranking by `count` have to be. -/
structure Leads (count : κ → Nat) (n : Nat) (top : List (κ × Nat)) : Prop where
  short : top.length ≤ n
  numbers : ∀ pair ∈ top, pair.2 = count pair.1 ∧ 0 < pair.2
  distinct : (top.map Prod.fst).Nodup
  sorted : top.Pairwise fun a b => b.2 ≤ a.2
  /-- Whoever is left out has no more than whoever is shown. -/
  ahead : ∀ k ∉ top.map Prod.fst, ∀ pair ∈ top, count k ≤ pair.2
  /-- Nobody is left out while there is room. -/
  room : top.length < n → ∀ k ∉ top.map Prod.fst, count k = 0

/-- At the same place of both stand keys that count alike. -/
def Tied (count : κ → Nat) (top top' : List (κ × Nat)) : Prop :=
  ∀ (i : Nat) (pair pair' : κ × Nat), top[i]? = some pair → top'[i]? = some pair' →
    count pair.1 = count pair'.1

omit [DecidableEq κ] in
/-- **Where the numbers are the same, only ties differ.** -/
theorem Leads.tied {count count' : κ → Nat} {n n' : Nat} {top top' : List (κ × Nat)}
    (leads : Leads count n top) (leads' : Leads count' n' top') (counts : ∀ k, count' k = count k)
    (numbers : top.map Prod.snd = top'.map Prod.snd) : Tied count top top' := by
  intro i pair pair' here there
  have same : (top.map Prod.snd)[i]? = (top'.map Prod.snd)[i]? := by rw [numbers]
  rw [List.getElem?_map, List.getElem?_map, here, there] at same
  have exact_ := (leads.numbers pair (List.mem_of_getElem? here)).1
  have exact_' := (leads'.numbers pair' (List.mem_of_getElem? there)).1
  rw [← exact_, ← counts, ← exact_']
  exact Option.some.inj same

/-- **The first `n` lead the others.** -/
theorem leads_take (iterated : pairs.Perm (counts cmp key xs).toList) (n : Nat) :
    Leads (fun k => (xs.map key).count k) n ((ranked pairs).take n) := by
  have perm := ranked_perm pairs
  have known : ∀ {k : κ} {c : Nat}, (k, c) ∈ ranked pairs ↔ 0 < c ∧ (xs.map key).count k = c :=
    perm.mem_iff.trans (mem_counts_iff iterated)
  have split := List.take_append_drop n (ranked pairs)
  have sorted := ranked_sorted pairs
  -- a key that is left out but occurs is among the rest
  have left : ∀ k ∉ ((ranked pairs).take n).map Prod.fst, 0 < (xs.map key).count k →
      (k, (xs.map key).count k) ∈ (ranked pairs).drop n := by
    intro k out positive
    have member : (k, (xs.map key).count k) ∈ ranked pairs := known.mpr ⟨positive, rfl⟩
    rw [← split, List.mem_append] at member
    exact member.resolve_left fun shown => out (List.mem_map_of_mem (f := Prod.fst) shown)
  constructor
  · exact List.length_take_le n _
  · rintro ⟨k, c⟩ member
    obtain ⟨positive, same⟩ := known.mp (List.mem_of_mem_take member)
    exact ⟨same.symm, positive⟩
  · have distinct := ((perm.map Prod.fst).nodup_iff).mpr (nodup_counts iterated)
    exact distinct.sublist ((List.take_sublist n _).map _)
  · exact sorted.sublist (List.take_sublist n _)
  · intro k out pair shown
    rcases Nat.eq_zero_or_pos ((xs.map key).count k) with none_ | positive
    · exact none_ ▸ Nat.zero_le _
    · rw [← split] at sorted
      exact (List.pairwise_append.mp sorted).2.2 pair shown _ (left k out positive)
  · intro short k out
    by_contra occurs
    have rest := left k out (Nat.pos_of_ne_zero occurs)
    have empty : (ranked pairs).drop n = [] := by
      rw [List.length_take] at short
      exact List.drop_eq_nil_of_le (by omega)
    rw [empty] at rest
    cases rest

end DnsLigase.Theory.Ranking
