/-
# Theory.Traces — what a program has done by the time it is looked at

`Resumes p events q`: after these requests and answers `p` has `q` left to do.  A
task among others is seen at such a point, and it may stay there for good.

Two kinds of facts hold at every such point when they hold of every run:

* `Obeys P past p Q`: each event of `p` satisfies `P` of what had happened before
  it, and where `p` ends with a value, `Q` holds of that value and of all events;
* `Costs weight n p`: the requests of `p` weigh at most `n` together.

Both have one rule for each way of building a program.
-/
import DnsLigase.Theory.Program
import Mathlib.Algebra.BigOperators.Fin
import Mathlib.Data.List.Induction

namespace DnsLigase.Theory.Program

set_option autoImplicit false

variable {E : Type → Type} {ε α β : Type}

/-! ## Unfinished runs -/

/-- `p` makes these requests, is given these answers, and has `q` left to do. -/
inductive Resumes : Program E ε α → List (Event E) → Program E ε α → Prop
  | refl (p : Program E ε α) : Resumes p [] p
  | perform {γ : Type} {request : E γ} {next : γ → Program E ε α} {answer : γ}
      {events : List (Event E)} {q : Program E ε α} : Resumes (next answer) events q →
      Resumes (.perform request next) (⟨request, answer⟩ :: events) q

section Resumes

variable {p q : Program E ε α} {events : List (Event E)}

/-- One more answer. -/
theorem Resumes.answer {γ : Type} {request : E γ} {next : γ → Program E ε α}
    (resumes : Resumes p events (.perform request next)) (answer : γ) :
    Resumes p (events ++ [⟨request, answer⟩]) (next answer) := by
  generalize left : Program.perform request next = q at resumes
  induction resumes with
  | refl p =>
      subst left
      exact .perform (.refl _)
  | perform _ ih => exact .perform (ih left)

/-- What is left, run to its end. -/
theorem Resumes.runs (resumes : Resumes p events q) {rest : List (Event E)} {out : Except ε α}
    (runs : Runs q rest out) : Runs p (events ++ rest) out := by
  induction resumes with
  | refl p => exact runs
  | perform _ ih => exact .perform (ih runs)

/-- An await that is answered, in front of the rest. -/
theorem resumes_call_bind {request : E α} {answer : α} {f : α → Program E ε β}
    (rest : ∃ q, Resumes (f answer) events q) :
    ∃ q, Resumes (call request >>= f) (⟨request, answer⟩ :: events) q := by
  obtain ⟨q, resumes⟩ := rest
  exact ⟨q, .perform resumes⟩

theorem resumes_attempt_bind {request : E (Except ε α)} {a : α} {f : α → Program E ε β}
    (rest : ∃ q, Resumes (f a) events q) :
    ∃ q, Resumes (attempt request >>= f) (⟨request, .ok a⟩ :: events) q := by
  obtain ⟨q, resumes⟩ := rest
  exact ⟨q, .perform resumes⟩

/-- The first part unfinished, with the rest behind it. -/
theorem Resumes.bind (resumes : Resumes p events q) (f : α → Program E ε β) :
    Resumes (p >>= f) events (q >>= f) := by
  induction resumes with
  | refl p => exact .refl _
  | perform _ ih => exact .perform ih

/-- **Sequencing**: an unfinished run of `p >>= f` is one of `p`, or a run of `p` that gives a
value followed by an unfinished run of the rest. -/
theorem Resumes.of_bind {f : α → Program E ε β} {left : Program E ε β}
    (resumes : Resumes (p >>= f) events left) :
    (∃ q, Resumes p events q) ∨
      ∃ a first rest, Runs p first (.ok a) ∧ Resumes (f a) rest left ∧ events = first ++ rest := by
  induction p generalizing events with
  | done a => exact .inr ⟨a, [], events, .done a, resumes, rfl⟩
  | fail e =>
      cases resumes with
      | refl => exact .inl ⟨_, .refl _⟩
  | perform request next ih =>
      cases resumes with
      | refl => exact .inl ⟨_, .refl _⟩
      | perform later =>
          rcases ih _ later with ⟨q, unfinished⟩ | ⟨a, first, rest, runs, tail, rfl⟩
          · exact .inl ⟨q, .perform unfinished⟩
          · exact .inr ⟨a, _, rest, .perform runs, tail, rfl⟩

end Resumes

/-! ## Facts about each event and what came before it -/

/-- Each event satisfies `P` of what had happened before it. -/
def Always (P : List (Event E) → Event E → Prop) : List (Event E) → List (Event E) → Prop
  | _, [] => True
  | past, event :: rest => P past event ∧ Always P (past ++ [event]) rest

section Always

variable {P P' : List (Event E) → Event E → Prop}

theorem always_append : ∀ {past first rest : List (Event E)},
    Always P past (first ++ rest) ↔ Always P past first ∧ Always P (past ++ first) rest
  | past, [], rest => by simp [Always]
  | past, event :: first, rest => by
      simp only [List.cons_append, Always, always_append, List.append_assoc, List.nil_append,
        and_assoc]

theorem Always.mono (implies : ∀ past event, P past event → P' past event) :
    ∀ {past events : List (Event E)}, Always P past events → Always P' past events
  | _, [], _ => trivial
  | _, _ :: _, ⟨now, later⟩ => ⟨implies _ _ now, later.mono implies⟩

theorem always_of_forall (holds : ∀ past event, P past event) :
    ∀ {past events : List (Event E)}, Always P past events
  | _, [] => trivial
  | _, _ :: _ => ⟨holds _ _, always_of_forall holds⟩

/-- What the last event left is the only thing that counts: a fact that each event keeps. -/
theorem Always.keeps {I : List (Event E) → Prop} (start : I [])
    (step : ∀ past event, P past event → I past → I (past ++ [event])) :
    ∀ {events : List (Event E)}, Always P [] events → I events := by
  intro events
  induction events using List.reverseRecOn with
  | nil => exact fun _ => start
  | append_singleton past event ih =>
      intro always
      obtain ⟨before, now, -⟩ := always_append.mp always
      exact step past event now (ih before)

/-- The fact about one of the events. -/
theorem Always.split {past before after : List (Event E)} {event : Event E}
    (always : Always P past (before ++ event :: after)) : P (past ++ before) event :=
  (always_append.mp always).2.1

end Always

/-- Each event of `p` satisfies `P` of what had happened before it, and `Q` holds of what has
happened where `p` ends with a value. -/
def Obeys (P : List (Event E) → Event E → Prop) (past : List (Event E)) (p : Program E ε α)
    (Q : List (Event E) → α → Prop) : Prop :=
  ∀ events out, Runs p events out →
    Always P past events ∧ ∀ a, out = .ok a → Q (past ++ events) a

section Obeys

variable {P P' : List (Event E) → Event E → Prop} {past events : List (Event E)}
  {p q : Program E ε α} {f : α → Program E ε β} {Q Q' : List (Event E) → α → Prop}
  {R : List (Event E) → β → Prop}

theorem obeys_pure {a : α} (ends : Q past a) :
    Obeys P past (pure a : Program E ε α) Q := by
  intro events out runs
  obtain ⟨rfl, rfl⟩ := runs_pure.mp runs
  refine ⟨trivial, fun b same => ?_⟩
  cases same
  rwa [List.append_nil]

theorem obeys_fail {e : ε} : Obeys P past (.fail e : Program E ε α) Q := by
  intro events out runs
  obtain ⟨rfl, rfl⟩ := runs_fail.mp runs
  exact ⟨trivial, nofun⟩

theorem obeys_call {request : E α} (now : ∀ answer, P past ⟨request, answer⟩)
    (ends : ∀ answer, Q (past ++ [⟨request, answer⟩]) answer) :
    Obeys P past (call request : Program E ε α) Q := by
  intro events out runs
  obtain ⟨answer, rfl, rfl⟩ := runs_call.mp runs
  refine ⟨⟨now answer, trivial⟩, fun b same => ?_⟩
  cases same
  exact ends answer

theorem obeys_attempt {request : E (Except ε α)} (now : ∀ answer, P past ⟨request, answer⟩)
    (ends : ∀ a, Q (past ++ [⟨request, .ok a⟩]) a) :
    Obeys P past (attempt request) Q := by
  intro events out runs
  obtain rfl := runs_attempt.mp runs
  refine ⟨⟨now out, trivial⟩, fun b same => ?_⟩
  cases same
  exact ends b

/-- **Sequencing**: what holds at the end of `p` is what the rest starts from. -/
theorem Obeys.bind (first : Obeys P past p Q)
    (rest : ∀ past' a, Q past' a → Obeys P past' (f a) R) : Obeys P past (p >>= f) R := by
  intro events out runs
  rcases runs_bind.mp runs with ⟨e, failed, rfl⟩ | ⟨a, before, after, gave, tail, rfl⟩
  · exact ⟨(first _ _ failed).1, nofun⟩
  · obtain ⟨always, ended⟩ := first _ _ gave
    obtain ⟨later, final⟩ := rest _ a (ended a rfl) _ _ tail
    rw [← List.append_assoc]
    exact ⟨always_append.mpr ⟨always, later⟩, final⟩

/-- An await in front of the rest. -/
theorem obeys_call_bind {request : E α} (now : ∀ answer, P past ⟨request, answer⟩)
    (rest : ∀ answer, Obeys P (past ++ [⟨request, answer⟩]) (f answer) R) :
    Obeys P past (call request >>= f) R :=
  (obeys_call (Q := fun h answer => h = past ++ [⟨request, answer⟩]) now fun _ => rfl).bind
    fun _ answer same => same ▸ rest answer

theorem obeys_attempt_bind {request : E (Except ε α)} (now : ∀ answer, P past ⟨request, answer⟩)
    (rest : ∀ a, Obeys P (past ++ [⟨request, .ok a⟩]) (f a) R) :
    Obeys P past (attempt request >>= f) R :=
  (obeys_attempt (Q := fun h a => h = past ++ [⟨request, .ok a⟩]) now fun _ => rfl).bind
    fun _ a same => same ▸ rest a

theorem Obeys.mono (obeys : Obeys P past p Q) (implies : ∀ past event, P past event → P' past event)
    (ends : ∀ past a, Q past a → Q' past a) : Obeys P' past p Q' := by
  intro events out runs
  obtain ⟨always, final⟩ := obeys events out runs
  exact ⟨always.mono implies, fun a same => ends _ a (final a same)⟩

/-- **An unfinished run obeys too**, wherever requests can be answered at all. -/
theorem Obeys.resumes (env : ∀ {γ : Type}, E γ → γ) (obeys : Obeys P past p Q)
    (resumes : Resumes p events q) : Always P past events :=
  (always_append.mp (obeys _ _ (resumes.runs (exec_runs env q))).1).1

end Obeys

/-! ## What the requests weigh -/

/-- The weight of the requests together. -/
def cost (weight : ∀ {γ : Type}, E γ → Nat) (events : List (Event E)) : Nat :=
  (events.map fun event => weight event.request).sum

/-- The requests of `p` weigh at most `n` together. -/
def Costs (weight : ∀ {γ : Type}, E γ → Nat) (n : Nat) (p : Program E ε α) : Prop :=
  ∀ events out, Runs p events out → cost weight events ≤ n

section Costs

variable {weight : ∀ {γ : Type}, E γ → Nat} {n m : Nat} {p q : Program E ε α}
  {f : α → Program E ε β} {events : List (Event E)}

@[simp] theorem cost_append {first rest : List (Event E)} :
    cost weight (first ++ rest) = cost weight first + cost weight rest := by
  rw [cost, List.map_append, List.sum_append, cost, cost]

/-- **Sequencing** adds up. -/
theorem Costs.bind (first : Costs weight n p) (rest : ∀ a, Costs weight m (f a)) :
    Costs weight (n + m) (p >>= f) := by
  intro events out runs
  rcases runs_bind.mp runs with ⟨e, failed, -⟩ | ⟨a, before, after, gave, tail, rfl⟩
  · exact Nat.le_add_right_of_le (first _ _ failed)
  · rw [cost_append]
    exact Nat.add_le_add (first _ _ gave) (rest a _ _ tail)

theorem Costs.mono (costs : Costs weight n p) (le : n ≤ m) : Costs weight m p :=
  fun events out runs => Nat.le_trans (costs events out runs) le

/-- An unfinished run has not cost more. -/
theorem Costs.resumes (env : ∀ {γ : Type}, E γ → γ) (costs : Costs weight n p)
    (resumes : Resumes p events q) : cost weight events ≤ n := by
  have whole := costs _ _ (resumes.runs (exec_runs env q))
  rw [cost_append] at whole
  exact Nat.le_trans (Nat.le_add_right _ _) whole

end Costs

end DnsLigase.Theory.Program
