/-
# Theory.History — what has held since when in a history

A history is the list of what has happened, the last event at its end.  `Since P Q`
says that some event satisfied `P`, given what had happened before it, and that every
event after it satisfies `Q`: the past-time operator of temporal logic.  `since_snoc`
unfolds it at the end of the history, where runs grow.
-/
import Mathlib.Data.List.Basic

namespace DnsLigase.Theory.History

set_option autoImplicit false

variable {α : Type} {P P' : List α → α → Prop} {Q : α → Prop}

/-- `P` held of some event, and `Q` holds of every event since. -/
def Since (P : List α → α → Prop) (Q : α → Prop) (history : List α) : Prop :=
  ∃ before event after, history = before ++ event :: after ∧ P before event ∧ ∀ e ∈ after, Q e

@[simp] theorem not_since_nil : ¬ Since P Q [] := by
  rintro ⟨before, event, after, whole, -⟩
  simp at whole

/-- **One more event**: either `P` holds of it, or it keeps what held since before. -/
theorem since_snoc {history : List α} {last : α} :
    Since P Q (history ++ [last]) ↔ P history last ∨ Since P Q history ∧ Q last := by
  constructor
  · rintro ⟨before, event, after, whole, holds, since⟩
    rcases List.eq_nil_or_concat after with rfl | ⟨mid, final, rfl⟩
    · obtain ⟨rfl, same⟩ := List.append_inj' whole rfl
      cases same
      exact .inl holds
    · rw [List.concat_eq_append, ← List.cons_append, ← List.append_assoc] at whole
      obtain ⟨rfl, same⟩ := List.append_inj' whole rfl
      cases same
      rw [List.concat_eq_append] at since
      refine .inr ⟨⟨before, event, mid, rfl, holds, fun e member => ?_⟩, ?_⟩
      · exact since e (List.mem_append_left _ member)
      · exact since last (List.mem_append_right _ (List.mem_singleton_self _))
  · rintro (holds | ⟨⟨before, event, after, rfl, holds, since⟩, kept⟩)
    · exact ⟨history, last, [], rfl, holds, nofun⟩
    · refine ⟨before, event, after ++ [last], by simp, holds, fun e member => ?_⟩
      rcases List.mem_append.mp member with member | member
      · exact since e member
      · rwa [List.mem_singleton.mp member]

/-- `P` held of some event. -/
abbrev Once (P : List α → α → Prop) (history : List α) : Prop := Since P (fun _ => True) history

end DnsLigase.Theory.History
