/-
# Theory.Loop — a `loop { .. }` as an iterated body

The body of an imperative loop either continues with a new state or breaks with
a result, so it is a function `σ → σ ⊕ ρ`.  `run` iterates the body under fuel.

* `run_isSome`: when a measure falls on every continuing iteration, fuel above
  the measure of the start state is enough.
* `run_mono`: more fuel never changes a result that was reached.
* `Ends body s r`: from `s` the loop breaks with `r`, after however many
  iterations; it is built one iteration at a time and holds of one `r` only.
* `run_panicking`: a loop whose turns could panic, but never do, runs as one that cannot.
* `run_related`: two loops whose turns are related end with related results; the states that
  have to be looked at are the `trace` of the first loop.

A `for` loop whose body may fail is a `foldlM`; `foldlM_isSome` is when it gets to its
end, if a turn fails or not whatever the turns before it made of the state, and
`foldlM_collects` what it has collected then, if every turn adds something of its own.
`foldlM_rel` carries a reflexive and transitive relation from the turns to the loop.
-/
import Mathlib.Data.Option.Basic
import Mathlib.Data.Set.Lattice

namespace DnsLigase.Theory.Loop

set_option autoImplicit false

variable {σ ρ : Type}

/-- Iterate `body` at most `fuel` times; `none` when it has not broken by then. -/
def run (body : σ → σ ⊕ ρ) : Nat → σ → Option ρ
  | 0, _ => none
  | fuel + 1, s =>
      match body s with
      | .inl s' => run body fuel s'
      | .inr r => some r

variable {body : σ → σ ⊕ ρ}

theorem run_of_break {s : σ} {r : ρ} (fuel : Nat) (broke : body s = .inr r) :
    run body (fuel + 1) s = some r := by
  simp [run, broke]

theorem run_of_continue {s s' : σ} (fuel : Nat) (continued : body s = .inl s') :
    run body (fuel + 1) s = run body fuel s' := by
  simp [run, continued]

/-- A measure that falls on every continuing iteration bounds their number. -/
theorem run_isSome (μ : σ → Nat) (falls : ∀ s s', body s = .inl s' → μ s' < μ s) :
    ∀ (fuel : Nat) (s : σ), μ s < fuel → (run body fuel s).isSome
  | 0, _, enough => absurd enough (Nat.not_lt_zero _)
  | fuel + 1, s, enough => by
      cases h : body s with
      | inl s' =>
          rw [run_of_continue fuel h]
          have lower := falls s s' h
          exact run_isSome μ falls fuel s' (by omega)
      | inr r => simp [run_of_break fuel h]

/-- A result that was reached stays the result under more fuel. -/
theorem run_mono : ∀ {fuel more : Nat} {s : σ} {r : ρ}, fuel ≤ more →
    run body fuel s = some r → run body more s = some r
  | 0, _, _, _, _, reached => by simp [run] at reached
  | fuel + 1, 0, _, _, le, _ => absurd le (Nat.not_succ_le_zero _)
  | fuel + 1, more + 1, s, r, le, reached => by
      cases h : body s with
      | inl s' =>
          rw [run_of_continue _ h] at reached ⊢
          exact run_mono (Nat.le_of_succ_le_succ le) reached
      | inr r' =>
          rw [run_of_break _ h] at reached ⊢
          exact reached

/-- From `s` the loop breaks with `r`. -/
def Ends (body : σ → σ ⊕ ρ) (s : σ) (r : ρ) : Prop := ∃ fuel, run body fuel s = some r

theorem Ends.of_break {s : σ} {r : ρ} (broke : body s = .inr r) : Ends body s r :=
  ⟨1, run_of_break 0 broke⟩

theorem Ends.of_continue {s s' : σ} {r : ρ} (continued : body s = .inl s')
    (ends : Ends body s' r) : Ends body s r := by
  obtain ⟨fuel, reached⟩ := ends
  exact ⟨fuel + 1, (run_of_continue fuel continued).trans reached⟩

/-- A loop ends in one way only. -/
theorem Ends.unique {s : σ} {r r' : ρ} (ends : Ends body s r) (ends' : Ends body s r') :
    r = r' := by
  obtain ⟨fuel, reached⟩ := ends
  obtain ⟨fuel', reached'⟩ := ends'
  have left := run_mono (Nat.le_max_left fuel fuel') reached
  have right := run_mono (Nat.le_max_right fuel fuel') reached'
  exact Option.some.inj (left.symm.trans right)

/-! ## Two loops side by side -/

/-- The states from `s` to the first one where `stop` holds, for at most `fuel` turns. -/
def trace (body : σ → σ ⊕ ρ) (stop : σ → Prop) [DecidablePred stop] : Nat → σ → List σ
  | 0, _ => []
  | fuel + 1, s =>
      s :: if stop s then [] else
        match body s with
        | .inl s' => trace body stop fuel s'
        | .inr _ => []

section Related

variable {σ' ρ' : Type} {body' : σ' → σ' ⊕ ρ'} {stop : σ → Prop} [DecidablePred stop]
  {R : σ → σ' → Prop} {Q : ρ → ρ' → Prop}

/-- **Related turns make related loops.**  At a state where `stop` holds, what is left of the two
loops is related as a whole. -/
theorem run_related : ∀ {fuel : Nat} {s : σ} {s' : σ'} {r : ρ},
    (∀ t ∈ trace body stop fuel s, ∀ t', R t t' → ¬ stop t → Sum.LiftRel R Q (body t) (body' t')) →
    (∀ t ∈ trace body stop fuel s, ∀ t', R t t' → stop t → Ends body t r →
      ∃ r', Ends body' t' r' ∧ Q r r') →
    R s s' → run body fuel s = some r → ∃ r', Ends body' s' r' ∧ Q r r'
  | 0, _, _, _, _, _, _, reached => by simp [run] at reached
  | fuel + 1, s, s', r, turns, stops, related, reached => by
      have first : s ∈ trace body stop (fuel + 1) s := List.mem_cons_self
      by_cases stopped : stop s
      · exact stops s first s' related stopped ⟨_, reached⟩
      · have turn := turns s first s' related stopped
        cases h : body s with
        | inl t =>
            rw [run_of_continue fuel h] at reached
            rw [h] at turn
            have later : ∀ u ∈ trace body stop fuel t, u ∈ trace body stop (fuel + 1) s := by
              intro u member
              rw [trace, if_neg stopped, h]
              exact List.mem_cons_of_mem s member
            cases h' : body' s' with
            | inl t' =>
                rw [h'] at turn
                cases turn with
                | inl related =>
                    obtain ⟨r', ends, same⟩ := run_related (fun u member => turns u (later u member))
                      (fun u member => stops u (later u member)) related reached
                    exact ⟨r', .of_continue h' ends, same⟩
            | inr r' => rw [h'] at turn; cases turn
        | inr a =>
            rw [run_of_break fuel h] at reached
            obtain rfl := Option.some.inj reached
            rw [h] at turn
            cases h' : body' s' with
            | inl t' => rw [h'] at turn; cases turn
            | inr r' =>
                rw [h'] at turn
                cases turn with
                | inr same => exact ⟨r', .of_break h', same⟩

end Related

/-! ## Turns that may panic -/

/-- The body of a loop whose turns may panic, which breaks the loop without a result. -/
def panicking (turn : σ → Option (σ ⊕ ρ)) (s : σ) : σ ⊕ Option ρ :=
  match turn s with
  | none => .inr none
  | some (.inl s') => .inl s'
  | some (.inr r) => .inr (some r)

/-- Turns that never panic run as the body that they are. -/
theorem run_panicking {turn : σ → Option (σ ⊕ ρ)} (total : ∀ s, turn s = some (body s)) :
    ∀ (fuel : Nat) (s : σ), run (panicking turn) fuel s = (run body fuel s).map some
  | 0, _ => rfl
  | fuel + 1, s => by
      cases h : body s with
      | inl s' =>
          have turned : panicking turn s = .inl s' := by rw [panicking, total, h]
          rw [run_of_continue _ turned, run_of_continue _ h]
          exact run_panicking total fuel s'
      | inr r =>
          have turned : panicking turn s = .inr (some r) := by rw [panicking, total, h]
          rw [run_of_break _ turned, run_of_break _ h]
          rfl

/-! ## Loops over a list -/

theorem bind_isSome {α β : Type} {x : Option α} {f : α → Option β} {P Q : Prop}
    (first : x.isSome ↔ P) (rest : ∀ a, (f a).isSome ↔ Q) : (x.bind f).isSome ↔ P ∧ Q := by
  rw [← first]
  cases x with
  | none => simp
  | some a => simp [rest]

/-- A loop gets to its end if every turn does. -/
theorem foldlM_isSome {α β : Type} {f : β → α → Option β} {P : α → Prop}
    (turn : ∀ b a, (f b a).isSome ↔ P a) : ∀ (xs : List α) (b : β),
    (xs.foldlM f b).isSome ↔ ∀ a ∈ xs, P a
  | [], b => by simp
  | x :: xs, b => by
      rw [List.foldlM_cons, List.forall_mem_cons]
      exact bind_isSome (turn b x) fun b' => foldlM_isSome turn xs b'

/-- A loop whose every turn adds what the turn gives, whatever is there already, adds what
all its turns give; neither their order nor their number matters. -/
theorem foldlM_collects {α β γ : Type} {f : β → α → Option β} {view : β → Set γ}
    {gives : α → Set γ} (turn : ∀ b a b', f b a = some b' → view b' = view b ∪ gives a) :
    ∀ (xs : List α) (b b' : β), xs.foldlM f b = some b' → view b' = view b ∪ ⋃ a ∈ xs, gives a
  | [], b, b', reached => by
      obtain rfl := Option.some.inj reached
      simp
  | x :: xs, b, b', reached => by
      rw [List.foldlM_cons] at reached
      obtain ⟨mid, first, rest⟩ := Option.bind_eq_some_iff.mp reached
      rw [foldlM_collects turn xs mid b' rest, turn b x mid first, Set.union_assoc]
      simp

/-- What every turn keeps of the state before it, the loop keeps. -/
theorem foldlM_rel {α β : Type} {f : β → α → Option β} {R : β → β → Prop} (refl : ∀ b, R b b)
    (trans : ∀ {a b c}, R a b → R b c → R a c) : ∀ (xs : List α),
    (∀ a ∈ xs, ∀ b b', f b a = some b' → R b b') → ∀ b b', xs.foldlM f b = some b' → R b b'
  | [], _, b, b', reached => by
      obtain rfl := Option.some.inj reached
      exact refl b
  | x :: xs, turn, b, b', reached => by
      rw [List.foldlM_cons] at reached
      obtain ⟨mid, first, rest⟩ := Option.bind_eq_some_iff.mp reached
      obtain ⟨head, tail⟩ := List.forall_mem_cons.mp turn
      exact trans (head b mid first) (foldlM_rel refl trans xs tail mid b' rest)

end DnsLigase.Theory.Loop
