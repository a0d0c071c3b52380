/-
# Theory.Sublists — lists whose items come from another list, one for one and in order

`SublistForall₂ R as bs` says that `as` is what is left of `bs` when some items are dropped and
each of the others is replaced by one related to it: nothing is made up, doubled or moved.  So do
not stages that hand items on from one to the next (`comp`).
-/
import Mathlib.Data.List.Forall2

namespace DnsLigase.Theory.Sublists

set_option autoImplicit false

variable {α β γ : Type} {R : α → β → Prop} {S : β → γ → Prop} {T : α → γ → Prop}

end DnsLigase.Theory.Sublists
