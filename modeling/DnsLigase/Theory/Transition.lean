/-
# Theory.Transition — labelled transition systems and their guarded runs

A `System` has initial states and labelled steps; nondeterminism (which party
moves, what the network does) is in the label.  `Run S guard s` says that `s` is
reached by a run all of whose steps were taken where `guard` allowed them, so a
property that holds only when some step is avoided is a statement about guarded
runs and a property of every run is one about `Reachable`.  What a run does from
some moment on is said of the runs of `S.after s`.
-/
import Mathlib.Logic.Basic

namespace DnsLigase.Theory.Transition

set_option autoImplicit false

/-- Initial states and labelled steps. -/
structure System (σ ι : Type) where
  init : σ → Prop
  step : σ → ι → σ → Prop

variable {σ ι : Type}

/-- States reached by runs whose every step satisfied `guard` where it was taken. -/
inductive Run (S : System σ ι) (guard : σ → ι → Prop) : σ → Prop
  | init {s : σ} : S.init s → Run S guard s
  | step {s s' : σ} {a : ι} : Run S guard s → guard s a → S.step s a s' → Run S guard s'

/-- States reached by any run at all. -/
def Reachable (S : System σ ι) : σ → Prop := Run S fun _ _ => True

/-- The runs that go on from a given state. -/
def System.after (S : System σ ι) (s : σ) : System σ ι := { S with init := fun s' => s' = s }

variable {S : System σ ι} {guard : σ → ι → Prop}

/-- **The invariant rule**, for guarded runs. -/
theorem Run.invariant {Inv : σ → Prop} (start : ∀ s, S.init s → Inv s)
    (keeps : ∀ s a s', Inv s → guard s a → S.step s a s' → Inv s') {s : σ}
    (run : Run S guard s) : Inv s := by
  induction run with
  | init initial => exact start _ initial
  | step _ allowed stepped ih => exact keeps _ _ _ ih allowed stepped

/-- One more step of an unguarded run. -/
theorem Reachable.step {s s' : σ} {a : ι} (run : Reachable S s) (stepped : S.step s a s') :
    Reachable S s' :=
  Run.step run trivial stepped

theorem Reachable.init {s : σ} (initial : S.init s) : Reachable S s :=
  Run.init initial

/-- A guarded run is a run. -/
theorem Run.reachable {s : σ} (run : Run S guard s) : Reachable S s := by
  induction run with
  | init initial => exact Reachable.init initial
  | step _ _ stepped ih => exact ih.step stepped

/-- A run that goes on where another has ended. -/
theorem Run.append {s s' : σ} (run : Run S guard s) (rest : Run (S.after s) guard s') :
    Run S guard s' := by
  induction rest with
  | init same => exact same ▸ run
  | step _ allowed stepped ih => exact ih.step allowed stepped

end DnsLigase.Theory.Transition
