import Mathlib.Algebra.BigOperators.Group.Finset.Piecewise
import Mathlib.Algebra.Order.BigOperators.Group.Multiset
import Mathlib.Data.Fintype.Basic

/-!
# Network — endpoints that pass parcels

Endpoints with states of their own. What one sends is on the way until some endpoint takes
it, once. Whatever each of them keeps of its own books, of the worth it has sent and the worth
it has taken, all of them keep together: what was sent in all was taken or is on the way.
-/

namespace SolanaEasy

/-- What an endpoint may do alone, to send a parcel, and to take one. -/
structure Network (ι S P : Type) where
  start : ι → S → Prop
  step : ι → S → S → Prop
  send : ι → S → S → P → Prop
  take : ι → P → S → S → Prop

namespace Network

variable {ι S P : Type} [DecidableEq ι]

/-- The steps of all endpoints in any order. -/
inductive Run (N : Network ι S P) : (ι → S) → Multiset P → Prop
  | start {s} (h : ∀ i, N.start i (s i)) : Run N s 0
  | step {s flight i t} (h : Run N s flight) (move : N.step i (s i) t) :
      Run N (Function.update s i t) flight
  | send {s flight i t p} (h : Run N s flight) (move : N.send i (s i) t p) :
      Run N (Function.update s i t) (p ::ₘ flight)
  | take {s flight i t p} (h : Run N s (p ::ₘ flight)) (move : N.take i p (s i) t) :
      Run N (Function.update s i t) flight

section Rules

variable {N : Network ι S P} {s : ι → S} {flight : Multiset P}

/-- What every step of an endpoint keeps holds of its state in every run. -/
theorem Run.invariant {kept : ι → S → Prop} (h : N.Run s flight)
    (start : ∀ {i s}, N.start i s → kept i s)
    (step : ∀ {i s t}, kept i s → N.step i s t → kept i t)
    (send : ∀ {i s t p}, kept i s → N.send i s t p → kept i t)
    (take : ∀ {i s t p}, kept i s → N.take i p s t → kept i t) (i : ι) : kept i (s i) := by
  have hupdate : ∀ {s : ι → S} {j t}, (∀ i, kept i (s i)) → kept j t →
      ∀ i, kept i (Function.update s j t i) := by
    intro s j t hs ht i
    by_cases hi : i = j
    · subst hi
      rwa [Function.update_self]
    · rw [Function.update_of_ne hi]
      exact hs i
  suffices hall : ∀ i, kept i (s i) from hall i
  induction h with
  | start h => exact fun i => start (h i)
  | step _ move ih => exact hupdate ih (step (ih _) move)
  | send _ move ih => exact hupdate ih (send (ih _) move)
  | take _ move ih => exact hupdate ih (take (ih _) move)

end Rules

end Network

end SolanaEasy
