/-
# Theory.Program — code that waits for the outside, as a tree of requests

An asynchronous function is what it computes between its awaits.  `Program` is
that computation with every await as a request whose answer the rest depends on;
it ends with a value or with an error, as a function with `?` in it does.

`Runs p events out` says that `p` ends with `out` after the requests and answers
`events`: nothing is assumed of the answers, so what is proved of every run holds
in every environment, and an assumption about the environment is one about the
events (`Answered`).  `exec` is the run against an environment given as a
function (`exec_runs`), which evaluates.
-/
import Mathlib.Data.List.Basic

namespace DnsLigase.Theory

set_option autoImplicit false

/-- A computation that makes requests `E`, where `E β` is answered by a `β`. -/
inductive Program (E : Type → Type) (ε α : Type) : Type 1
  | done (a : α) : Program E ε α
  | fail (e : ε) : Program E ε α
  | perform {β : Type} (request : E β) (next : β → Program E ε α) : Program E ε α

/-- A request and its answer. -/
structure Event (E : Type → Type) : Type 1 where
  {Answer : Type}
  request : E Answer
  answer : Answer

namespace Program

variable {E : Type → Type} {ε α β : Type}

protected def bind : Program E ε α → (α → Program E ε β) → Program E ε β
  | .done a, f => f a
  | .fail e, _ => .fail e
  | .perform request next, f => .perform request fun answer => (next answer).bind f

instance : Monad (Program E ε) where
  pure := .done
  bind := Program.bind

/-- An await. -/
def call (request : E β) : Program E ε β := .perform request .done

/-- A result of pure code, under `?`. -/
def ofExcept : Except ε α → Program E ε α
  | .ok a => .done a
  | .error e => .fail e

/-- An await under `?`. -/
def attempt (request : E (Except ε β)) : Program E ε β := .perform request ofExcept

/-! ## Runs -/

/-- The ways a program can end, with the requests and answers on the way. -/
inductive Runs : Program E ε α → List (Event E) → Except ε α → Prop
  | done (a : α) : Runs (.done a) [] (.ok a)
  | fail (e : ε) : Runs (.fail e) [] (.error e)
  | perform {γ : Type} {request : E γ} {next : γ → Program E ε α} {answer : γ}
      {events : List (Event E)} {out : Except ε α} : Runs (next answer) events out →
      Runs (.perform request next) (⟨request, answer⟩ :: events) out

/-- Every answer is one that `allows` admits. -/
def Answered (allows : ∀ {γ : Type}, E γ → γ → Prop) (events : List (Event E)) : Prop :=
  ∀ event ∈ events, allows event.request event.answer

section Answered

variable {allows : ∀ {γ : Type}, E γ → γ → Prop} {first rest : List (Event E)}

@[simp] theorem answered_nil : Answered allows ([] : List (Event E)) :=
  fun _ member => absurd member List.not_mem_nil

@[simp] theorem answered_cons {event : Event E} :
    Answered allows (event :: rest) ↔ allows event.request event.answer ∧ Answered allows rest :=
  List.forall_mem_cons

@[simp] theorem answered_append :
    Answered allows (first ++ rest) ↔ Answered allows first ∧ Answered allows rest :=
  List.forall_mem_append

theorem Answered.mono {weaker : ∀ {γ : Type}, E γ → γ → Prop}
    (implies : ∀ {γ : Type} (request : E γ) (answer : γ),
      allows request answer → weaker request answer)
    (answered : Answered allows first) : Answered weaker first :=
  fun event member => implies _ _ (answered event member)

end Answered

variable {p : Program E ε α} {f : α → Program E ε β} {events : List (Event E)}
  {out : Except ε β}

@[simp] theorem runs_pure {a : α} {out : Except ε α} :
    Runs (pure a : Program E ε α) events out ↔ events = [] ∧ out = .ok a := by
  constructor
  · rintro ⟨⟩
    exact ⟨rfl, rfl⟩
  · rintro ⟨rfl, rfl⟩
    exact .done a

@[simp] theorem runs_fail {e : ε} {out : Except ε α} :
    Runs (.fail e : Program E ε α) events out ↔ events = [] ∧ out = .error e := by
  constructor
  · rintro ⟨⟩
    exact ⟨rfl, rfl⟩
  · rintro ⟨rfl, rfl⟩
    exact .fail e

theorem runs_perform {γ : Type} {request : E γ} {next : γ → Program E ε β} :
    Runs (.perform request next) events out ↔
      ∃ answer rest, events = ⟨request, answer⟩ :: rest ∧ Runs (next answer) rest out := by
  constructor
  · rintro ⟨⟩
    exact ⟨_, _, rfl, by assumption⟩
  · rintro ⟨answer, rest, rfl, runs⟩
    exact .perform runs

/-- An await in front of the rest. -/
theorem runs_call_bind {request : E α} :
    Runs (call request >>= f) events out ↔
      ∃ answer rest, events = ⟨request, answer⟩ :: rest ∧ Runs (f answer) rest out :=
  runs_perform

theorem runs_call {request : E α} {out : Except ε α} :
    Runs (call request : Program E ε α) events out ↔
      ∃ answer, events = [⟨request, answer⟩] ∧ out = .ok answer := by
  rw [call, runs_perform]
  constructor
  · rintro ⟨answer, rest, rfl, runs⟩
    obtain ⟨rfl, rfl⟩ := runs_pure.mp runs
    exact ⟨answer, rfl, rfl⟩
  · rintro ⟨answer, rfl, rfl⟩
    exact ⟨answer, [], rfl, .done answer⟩

/-- An await under `?` in front of the rest: a failure ends the run. -/
theorem runs_attempt_bind {request : E (Except ε α)} :
    Runs (attempt request >>= f) events out ↔
      (∃ e, events = [⟨request, .error e⟩] ∧ out = .error e) ∨
      ∃ a rest, events = ⟨request, .ok a⟩ :: rest ∧ Runs (f a) rest out := by
  constructor
  · intro whole
    obtain ⟨answer, rest, rfl, runs⟩ := runs_perform.mp whole
    clear whole
    cases answer with
    | error e =>
        obtain ⟨rfl, rfl⟩ := runs_fail.mp runs
        exact .inl ⟨e, rfl, rfl⟩
    | ok a => exact .inr ⟨a, rest, rfl, runs⟩
  · rintro (⟨e, rfl, rfl⟩ | ⟨a, rest, rfl, runs⟩)
    · exact .perform (.fail e)
    · exact .perform runs

theorem runs_attempt {request : E (Except ε α)} {out : Except ε α} :
    Runs (attempt request) events out ↔ events = [⟨request, out⟩] := by
  constructor
  · intro whole
    obtain ⟨answer, rest, rfl, runs⟩ := runs_perform.mp whole
    clear whole
    cases answer with
    | error e =>
        obtain ⟨rfl, rfl⟩ := runs_fail.mp runs
        rfl
    | ok a =>
        obtain ⟨rfl, rfl⟩ := runs_pure.mp runs
        rfl
  · rintro rfl
    cases out with
    | error e => exact .perform (.fail e)
    | ok a => exact .perform (.done a)

@[simp] theorem ofExcept_ok_bind {a : α} : (ofExcept (.ok a) : Program E ε α) >>= f = f a := rfl

@[simp] theorem ofExcept_error_bind {e : ε} :
    (ofExcept (.error e) : Program E ε α) >>= f = .fail e := rfl

@[simp] theorem pure_bind' {a : α} : (pure a : Program E ε α) >>= f = f a := rfl

/-- **Sequencing**: a run of `p >>= f` is a run of `p` that fails, or one that gives a
value followed by a run of the rest. -/
theorem runs_bind :
    Runs (p >>= f) events out ↔
      (∃ e, Runs p events (.error e) ∧ out = .error e) ∨
      ∃ a first rest, Runs p first (.ok a) ∧ Runs (f a) rest out ∧ events = first ++ rest := by
  induction p generalizing events with
  | done a =>
      change Runs (f a) events out ↔ _
      constructor
      · intro runs
        exact .inr ⟨a, [], events, .done a, runs, rfl⟩
      · rintro (⟨e, ⟨⟩, -⟩ | ⟨_, _, rest, ⟨⟩, runs, rfl⟩)
        exact runs
  | fail e =>
      change Runs (.fail e) events out ↔ _
      constructor
      · intro runs
        obtain ⟨rfl, rfl⟩ := runs_fail.mp runs
        exact .inl ⟨e, .fail e, rfl⟩
      · rintro (⟨_, ⟨⟩, rfl⟩ | ⟨_, _, _, ⟨⟩, -, -⟩)
        exact .fail e
  | perform request next ih =>
      change Runs (.perform request fun answer => next answer >>= f) events out ↔ _
      rw [runs_perform]
      constructor
      · rintro ⟨answer, rest, rfl, runs⟩
        rcases (ih answer).mp runs with ⟨e, failed, rfl⟩ | ⟨a, first, later, gave, tail, rfl⟩
        · exact .inl ⟨e, .perform failed, rfl⟩
        · exact .inr ⟨a, _, later, .perform gave, tail, rfl⟩
      · rintro (⟨e, ⟨⟩, rfl⟩ | ⟨a, _, rest, ⟨⟩, runs, rfl⟩)
        · exact ⟨_, _, rfl, (ih _).mpr (.inl ⟨e, by assumption, rfl⟩)⟩
        · exact ⟨_, _, rfl, (ih _).mpr (.inr ⟨a, _, rest, by assumption, runs, rfl⟩)⟩

/-! ## Programs that do not fail -/

/-- Where the answers are ones that `allows` admits, `p` ends with a value. -/
def Succeeds (allows : ∀ {γ : Type}, E γ → γ → Prop) (p : Program E ε α) : Prop :=
  ∀ events out, Runs p events out → Answered allows events → ∃ a, out = .ok a

section Succeeds

variable {allows : ∀ {γ : Type}, E γ → γ → Prop}

theorem succeeds_pure (a : α) : Succeeds allows (pure a : Program E ε α) := by
  intro events out runs _
  exact ⟨a, (runs_pure.mp runs).2⟩

theorem succeeds_call (request : E α) : Succeeds allows (call request : Program E ε α) := by
  intro events out runs _
  obtain ⟨answer, -, same⟩ := runs_call.mp runs
  exact ⟨answer, same⟩

theorem succeeds_attempt {request : E (Except ε α)}
    (answers : ∀ answer, allows request answer → ∃ a, answer = .ok a) :
    Succeeds allows (attempt request) := by
  intro events out runs answered
  obtain rfl := runs_attempt.mp runs
  exact answers out (answered_cons.mp answered).1

theorem Succeeds.bind (first : Succeeds allows p) (rest : ∀ a, Succeeds allows (f a)) :
    Succeeds allows (p >>= f) := by
  intro events out runs answered
  rcases runs_bind.mp runs with ⟨e, failed, rfl⟩ | ⟨a, before, after, -, tail, rfl⟩
  · obtain ⟨_, ⟨⟩⟩ := first _ _ failed answered
  · exact rest a _ _ tail (answered_append.mp answered).2

end Succeeds

/-! ## What a program may ask -/

/-- Every request that `p` makes is one of `allowed`. -/
def Requests (allowed : ∀ {γ : Type}, E γ → Prop) (p : Program E ε α) : Prop :=
  ∀ events out, Runs p events out → ∀ event ∈ events, allowed event.request

section Requests

variable {allowed : ∀ {γ : Type}, E γ → Prop}

theorem requests_pure (a : α) : Requests allowed (pure a : Program E ε α) := by
  intro events out runs event member
  obtain ⟨rfl, -⟩ := runs_pure.mp runs
  cases member

theorem requests_fail (e : ε) : Requests allowed (.fail e : Program E ε α) := by
  intro events out runs event member
  obtain ⟨rfl, -⟩ := runs_fail.mp runs
  cases member

theorem requests_call {request : E α} (asks : allowed request) :
    Requests allowed (call request : Program E ε α) := by
  intro events out runs event member
  obtain ⟨answer, rfl, -⟩ := runs_call.mp runs
  obtain rfl := List.mem_singleton.mp member
  exact asks

theorem requests_attempt {request : E (Except ε α)} (asks : allowed request) :
    Requests allowed (attempt request : Program E ε α) := by
  intro events out runs event member
  obtain rfl := runs_attempt.mp runs
  obtain rfl := List.mem_singleton.mp member
  exact asks

theorem Requests.bind (first : Requests allowed p) (rest : ∀ a, Requests allowed (f a)) :
    Requests allowed (p >>= f) := by
  intro events out runs event member
  rcases runs_bind.mp runs with ⟨e, failed, -⟩ | ⟨a, before, after, gave, tail, rfl⟩
  · exact first _ _ failed event member
  · rcases List.mem_append.mp member with member | member
    · exact first _ _ gave event member
    · exact rest a _ _ tail event member

end Requests

/-! ## Runs against a given environment -/

/-- The run in which every request is answered by `env`. -/
def exec (env : ∀ {γ : Type}, E γ → γ) : Program E ε α → List (Event E) × Except ε α
  | .done a => ([], .ok a)
  | .fail e => ([], .error e)
  | .perform request next =>
      let rest := (next (env request)).exec env
      (⟨request, env request⟩ :: rest.1, rest.2)

theorem exec_runs (env : ∀ {γ : Type}, E γ → γ) : ∀ p : Program E ε α,
    Runs p (p.exec env).1 (p.exec env).2
  | .done a => .done a
  | .fail e => .fail e
  | .perform request next => .perform (exec_runs env (next (env request)))

theorem exec_answered {allows : ∀ {γ : Type}, E γ → γ → Prop} {env : ∀ {γ : Type}, E γ → γ}
    (admitted : ∀ {γ : Type} (request : E γ), allows request (env request)) :
    ∀ p : Program E ε α, Answered allows (p.exec env).1
  | .done _ => answered_nil
  | .fail _ => answered_nil
  | .perform request next =>
      answered_cons.mpr ⟨admitted request, exec_answered admitted (next (env request))⟩

end Program

end DnsLigase.Theory
