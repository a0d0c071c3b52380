/-
# Dns.Walk — following a name from pointer to pointer

A `Hop` is one step along a name: over a label, or along a pointer to wherever it leads.  A name
is a chain of hops to an octet that is 0.  `Behind` says where such a chain leaves the cursor;
what the first pointer leads to has no part in it.

`parseName_follows`: `parse_name` succeeds exactly where such a chain has at most 64 pointers,
with its labels joined by dots.
-/
import DnsLigase.Dns.Wire
import Mathlib.Data.List.ReduceOption

namespace DnsLigase.Dns

open DnsLigase.Theory.Cursor.Reader DnsLigase.Theory.Utf8

set_option autoImplicit false

/-! ## Hops -/

/-- One step along a name, with the text of the label that it meets; a pointer has none. -/
inductive Hop (b : List UInt8) : Nat → Option String → Nat → Prop
  | label {p : Nat} {n : UInt8} {text : String} :
      b[p]? = some n → n ≠ 0 → n.toNat < 192 → p + 1 + n.toNat ≤ b.length →
      fromUtf8 ((b.drop (p + 1)).take n.toNat) = some text →
      Hop b p (some text) (p + 1 + n.toNat)
  | pointer {p : Nat} {high low : UInt8} :
      b[p]? = some high → 192 ≤ high.toNat → b[p + 1]? = some low →
      pointerTarget high low < b.length →
      Hop b p none (pointerTarget high low)

/-- The cursor behind a name whose chain of hops from `p` ends at `e`: it stands behind the first
pointer if there is one, and otherwise behind the octet that ends the name. -/
def Behind (b : List UInt8) (p : Nat) (hops : List (Option String)) (e p' : Nat) : Prop :=
  (none ∉ hops ∧ p' = e + 1) ∨
    ∃ front back q, hops = front ++ none :: back ∧ none ∉ front ∧ Chain (Hop b) p front q ∧
      p' = q + 2

variable {b : List UInt8} {p q e p' j : Nat} {hops : List (Option String)} {text : String}

/-- An offset determines the hop from it. -/
theorem Hop.unique {met met' : Option String} {q' : Nat} (hop : Hop b p met q)
    (hop' : Hop b p met' q') : met = met' ∧ q = q' := by
  cases hop with
  | label here _ short _ decoded =>
      cases hop' with
      | label here' _ _ _ decoded' =>
          obtain rfl := Option.some.inj (here.symm.trans here')
          exact ⟨decoded.symm.trans decoded', rfl⟩
      | pointer here' high =>
          obtain rfl := Option.some.inj (here.symm.trans here')
          omega
  | pointer here high next =>
      cases hop' with
      | label here' _ short =>
          obtain rfl := Option.some.inj (here.symm.trans here')
          omega
      | pointer here' _ next' =>
          obtain rfl := Option.some.inj (here.symm.trans here')
          obtain rfl := Option.some.inj (next.symm.trans next')
          exact ⟨rfl, rfl⟩

theorem behind_nil : Behind b p [] e p' ↔ p' = e + 1 := by
  constructor
  · rintro (⟨-, behind⟩ | ⟨front, back, q, whole, -⟩)
    · exact behind
    · cases front <;> cases whole
  · exact fun behind => .inl ⟨List.not_mem_nil, behind⟩

theorem behind_pointer : Behind b p (none :: hops) e p' ↔ p' = p + 2 := by
  constructor
  · rintro (⟨clean, -⟩ | ⟨front, back, q, whole, clean, chain, rfl⟩)
    · exact absurd List.mem_cons_self clean
    · cases chain with
      | nil => rfl
      | cons hop _ =>
          obtain ⟨rfl, -⟩ := List.cons.inj whole
          exact absurd List.mem_cons_self clean
  · rintro rfl
    exact .inr ⟨[], hops, p, rfl, List.not_mem_nil, .nil, rfl⟩

/-- Where the cursor is left does not change along a label. -/
theorem behind_label (hop : Hop b p (some text) q) :
    Behind b p (some text :: hops) e p' ↔ Behind b q hops e p' := by
  constructor
  · rintro (⟨clean, behind⟩ | ⟨front, back, q', whole, clean, chain, behind⟩)
    · exact .inl ⟨fun pointer => clean (List.mem_cons_of_mem _ pointer), behind⟩
    · cases chain with
      | nil => cases whole
      | cons first rest =>
          obtain ⟨rfl, later⟩ := List.cons.inj whole
          obtain ⟨-, rfl⟩ := hop.unique first
          exact .inr ⟨_, back, q', later, fun pointer => clean (List.mem_cons_of_mem _ pointer),
            rest, behind⟩
  · rintro (⟨clean, behind⟩ | ⟨front, back, q', rfl, clean, chain, behind⟩)
    · exact .inl ⟨by simpa using clean, behind⟩
    · exact .inr ⟨some text :: front, back, q', rfl, by simpa using clean, .cons hop chain, behind⟩

theorem exists_behind (chain : Chain (Hop b) p hops e) : ∃ p', Behind b p hops e p' := by
  induction chain with
  | nil => exact ⟨_, behind_nil.mpr rfl⟩
  | @cons p mid e met hops hop _ ih =>
      cases met with
      | some text =>
          obtain ⟨p', behind⟩ := ih
          exact ⟨p', (behind_label hop).mpr behind⟩
      | none => exact ⟨_, behind_pointer.mpr rfl⟩

/-! ## The hops of a name -/

theorem hops_of_nameAt {labels : List (List UInt8)} (name : NameAt b p labels q j) :
    ∀ texts : List String, labels = texts.map utf8 →
      ∃ hops e, Chain (Hop b) p hops e ∧ b[e]? = some 0 ∧ hops.count none = j ∧
        hops.reduceOption = texts ∧ Behind b p hops e q := by
  induction name with
  | root here =>
      intro texts spelled
      obtain rfl := List.map_eq_nil_iff.mp spelled.symm
      exact ⟨[], _, .nil, here, rfl, rfl, behind_nil.mpr rfl⟩
  | label here nonzero short fits _ ih =>
      intro texts spelled
      obtain ⟨text, texts, rfl, decoded, spelled⟩ := List.map_eq_cons_iff.mp spelled.symm
      obtain ⟨hops, e, chain, ended, jumps, rfl, behind⟩ := ih texts spelled.symm
      have hop := Hop.label here nonzero short fits (fromUtf8_eq_some.mpr decoded)
      exact ⟨some text :: hops, e, .cons hop chain, ended, by simpa using jumps,
        List.reduceOption_cons_of_some _ _, (behind_label hop).mpr behind⟩
  | pointer here high next target _ ih =>
      intro texts spelled
      obtain ⟨hops, e, chain, ended, rfl, rfl, -⟩ := ih texts spelled
      exact ⟨none :: hops, e, .cons (.pointer here high next target) chain, ended,
        List.count_cons_self, List.reduceOption_cons_of_none _, behind_pointer.mpr rfl⟩

theorem nameAt_of_hops (chain : Chain (Hop b) p hops e) (ended : b[e]? = some 0) :
    ∀ p', Behind b p hops e p' →
      NameAt b p (hops.reduceOption.map utf8) p' (hops.count none) := by
  induction chain with
  | nil =>
      intro p' behind
      obtain rfl := behind_nil.mp behind
      exact .root ended
  | @cons p q e met hops hop chain ih =>
      intro p' behind
      cases met with
      | some text =>
          have rest := ih ended p' ((behind_label hop).mp behind)
          cases hop with
          | label here nonzero short fits decoded =>
              rw [List.reduceOption_cons_of_some, List.map_cons, fromUtf8_eq_some.mp decoded,
                List.count_cons_of_ne (by simp)]
              exact .label here nonzero short fits rest
      | none =>
          obtain rfl := behind_pointer.mp behind
          cases hop with
          | pointer here high next target =>
              rw [List.reduceOption_cons_of_none, List.count_cons_self]
              -- Some cursor is left behind what the pointer leads to; it does not matter which.
              obtain ⟨p', behind⟩ := exists_behind chain
              exact .pointer here high next target (ih ended p' behind)

/-- **`parse_name` follows a name along its pointers**, at most 64 of them, and gives the labels
that it meets; it fails where there is no such way to an end. -/
theorem parseName_follows {name : String} :
    parseName b p = .ok (name, p') ↔
      ∃ hops e, Chain (Hop b) p hops e ∧ b[e]? = some 0 ∧ hops.count none ≤ 64 ∧
        name = joinDots hops.reduceOption ∧ Behind b p hops e p' := by
  rw [parseName_eq_ok_iff]
  constructor
  · rintro ⟨labels, j, standing, few, rfl⟩
    obtain ⟨hops, e, chain, ended, rfl, rfl, behind⟩ := hops_of_nameAt standing labels rfl
    exact ⟨hops, e, chain, ended, few, rfl, behind⟩
  · rintro ⟨hops, e, chain, ended, few, rfl, behind⟩
    exact ⟨hops.reduceOption, _, nameAt_of_hops chain ended p' behind, few, rfl⟩

end DnsLigase.Dns
