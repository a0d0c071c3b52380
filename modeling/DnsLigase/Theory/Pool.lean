/-
# Theory.Pool — things that are pooled or held by one party

Parties take things out of a pool, make new ones, give them back or drop them.  `Owned` says
that the pool lists no thing twice, that no thing is held by two parties or held and pooled,
and that all of these are `live`.  Each operation has a rule that keeps it.
-/
import Mathlib.Data.List.Nodup
import Mathlib.Logic.Function.Basic

namespace DnsLigase.Theory.Pool

set_option autoImplicit false

variable {ι κ : Type}

structure Owned (pool : List κ) (holds : ι → Option κ) (live : κ → Prop) : Prop where
  nodup : pool.Nodup
  pooled : ∀ k ∈ pool, live k
  held : ∀ c k, holds c = some k → live k
  apart : ∀ c k, holds c = some k → k ∉ pool
  exclusive : ∀ c c' k, holds c = some k → holds c' = some k → c = c'

theorem Owned.empty (live : κ → Prop) : Owned [] (fun _ : ι => none) live where
  nodup := List.nodup_nil
  pooled := nofun
  held := nofun
  apart := nofun
  exclusive := nofun

variable {pool : List κ} {holds : ι → Option κ} {live live' : κ → Prop} {c : ι} {k : κ}

theorem Owned.mono (owned : Owned pool holds live)
    (pooled : ∀ k ∈ pool, live k → live' k) (held : ∀ c k, holds c = some k → live k → live' k) :
    Owned pool holds live' :=
  { owned with
    pooled := fun k member => pooled k member (owned.pooled k member)
    held := fun c k has => held c k has (owned.held c k has) }

variable [DecidableEq ι]

/-- What a party holds after one of them has taken something else, or nothing. -/
theorem update_eq_some {c' : ι} {o : Option κ} :
    Function.update holds c o c' = some k ↔ c' = c ∧ o = some k ∨ c' ≠ c ∧ holds c' = some k := by
  rw [Function.update_apply]
  by_cases same : c' = c <;> simp [same]

namespace Owned

/-- A party goes on with what it holds. -/
theorem keep (owned : Owned pool holds live) {o : Option κ} (has : holds c = o) :
    Owned pool (Function.update holds c o) live := by
  rwa [Function.update_eq_self_iff.mpr has.symm]

/-- A thing that no one has is taken. -/
theorem take (owned : Owned pool holds live) (free : ∀ c, holds c ≠ some k) (apart : k ∉ pool)
    (isLive : live k) : Owned pool (Function.update holds c (some k)) live where
  nodup := owned.nodup
  pooled := owned.pooled
  held c' k' has := by
    rcases update_eq_some.mp has with ⟨-, same⟩ | ⟨-, before⟩
    · exact Option.some.inj same ▸ isLive
    · exact owned.held c' k' before
  apart c' k' has := by
    rcases update_eq_some.mp has with ⟨-, same⟩ | ⟨-, before⟩
    · exact Option.some.inj same ▸ apart
    · exact owned.apart c' k' before
  exclusive c₁ c₂ k' has has' := by
    rcases update_eq_some.mp has with ⟨rfl, same⟩ | ⟨-, before⟩ <;>
      rcases update_eq_some.mp has' with ⟨rfl, same'⟩ | ⟨-, before'⟩
    · rfl
    · exact absurd (before'.trans same.symm) (free c₂)
    · exact absurd (before.trans same'.symm) (free c₁)
    · exact owned.exclusive c₁ c₂ k' before before'

/-- The last thing in the pool is taken out. -/
theorem checkout (owned : Owned (pool ++ [k]) holds live) :
    Owned pool (Function.update holds c (some k)) live := by
  have member : k ∈ pool ++ [k] := by simp
  obtain ⟨nodup, -, distinct⟩ := List.nodup_append.mp owned.nodup
  have rest : Owned pool holds live :=
    { nodup
      pooled := fun k' inPool => owned.pooled k' (List.mem_append_left _ inPool)
      held := owned.held
      apart := fun c' k' has inPool => owned.apart c' k' has (List.mem_append_left _ inPool)
      exclusive := owned.exclusive }
  exact rest.take (fun c' has => owned.apart c' k has member)
    (fun inPool => distinct k inPool k (List.mem_singleton_self k) rfl) (owned.pooled k member)

/-- A new thing is made, and held. -/
theorem create (owned : Owned pool holds live) (isNew : ¬ live k) (isLive : live' k)
    (still : ∀ k, live k → live' k) : Owned pool (Function.update holds c (some k)) live' :=
  (owned.mono (fun k _ => still k) fun _ k _ => still k).take
    (fun c' has => isNew (owned.held c' k has)) (fun member => isNew (owned.pooled k member)) isLive

/-- A party no longer holds its thing. -/
theorem release (owned : Owned pool holds live) :
    Owned pool (Function.update holds c none) live := by
  have before : ∀ {c' k'}, Function.update holds c none c' = some k' → holds c' = some k' := by
    intro c' k' has
    rcases update_eq_some.mp has with ⟨-, impossible⟩ | ⟨-, before⟩
    · cases impossible
    · exact before
  exact
    { nodup := owned.nodup
      pooled := owned.pooled
      held := fun c' k' has => owned.held c' k' (before has)
      apart := fun c' k' has => owned.apart c' k' (before has)
      exclusive := fun c₁ c₂ k' has has' => owned.exclusive c₁ c₂ k' (before has) (before has') }

/-- Once released, it is held by no one. -/
theorem release_ne (owned : Owned pool holds live) (has : holds c = some k) (c' : ι) :
    Function.update holds c none c' ≠ some k := by
  intro still
  rcases update_eq_some.mp still with ⟨-, impossible⟩ | ⟨other, before⟩
  · cases impossible
  · exact other (owned.exclusive c' c k before has)

/-- It is dropped: only the other things need to stay live. -/
theorem drop (owned : Owned pool holds live) (has : holds c = some k)
    (still : ∀ k', k' ≠ k → live k' → live' k') :
    Owned pool (Function.update holds c none) live' := by
  refine owned.release.mono (fun k' member => still k' ?_) fun c' k' has' => still k' ?_
  · rintro rfl
    exact owned.apart c k' has member
  · rintro rfl
    exact owned.release_ne has c' has'

/-- It goes back into the pool. -/
theorem giveBack (owned : Owned pool holds live) (has : holds c = some k) :
    Owned (pool ++ [k]) (Function.update holds c none) live where
  nodup := owned.nodup.append (List.nodup_singleton k)
    (List.disjoint_singleton.mpr (owned.apart c k has))
  pooled k' member := by
    rcases List.mem_append.mp member with member | member
    · exact owned.pooled k' member
    · exact List.mem_singleton.mp member ▸ owned.held c k has
  held := owned.release.held
  apart c' k' has' member := by
    rcases List.mem_append.mp member with member | member
    · exact owned.release.apart c' k' has' member
    · exact owned.release_ne has c' (List.mem_singleton.mp member ▸ has')
  exclusive := owned.release.exclusive

end Owned

end DnsLigase.Theory.Pool
