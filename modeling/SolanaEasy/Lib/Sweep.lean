import Mathlib.Algebra.BigOperators.Group.Finset.Basic

/-!
# Sweep — pots that are emptied along a list of keys

Keys may be listed more than once and need not have a pot. Each visit takes out what is
found and leaves an empty pot, so that in the sum of the takings each pot counts once.
-/

namespace SolanaEasy.Sweep

variable {K A B C : Type} [DecidableEq K] {e : A} {pots : K → Option A} {k : K} {ks : List K}

/-- The pots after a visit to `k`; `e` is the empty pot. -/
def visit (e : A) (pots : K → Option A) (k : K) : K → Option A :=
  Function.update pots k ((pots k).map fun _ => e)

/-- What a round takes out, in its order. -/
def takings (e : A) : (K → Option A) → List K → List A
  | _, [] => []
  | pots, k :: ks => (pots k).toList ++ takings e (visit e pots k) ks

theorem visit_of_none (h : pots k = none) : visit e pots k = pots := by
  rw [visit, h, Option.map_none, ← h, Function.update_eq_self]

theorem visit_update_same (x : A) :
    visit e (Function.update pots k (some x)) k = Function.update pots k (some e) := by
  rw [visit, Function.update_self, Function.update_idem, Option.map_some]

theorem visit_update_of_ne {j : K} (h : j ≠ k) (x : Option A) :
    visit e (Function.update pots j x) k = Function.update (visit e pots k) j x := by
  rw [visit, visit, Function.update_of_ne (Ne.symm h), Function.update_comm h]

theorem takings_cons_none (h : pots k = none) : takings e pots (k :: ks) = takings e pots ks := by
  rw [takings, visit_of_none h, h, Option.toList_none, List.nil_append]

theorem takings_cons_some {x : A} (h : pots k = some x) :
    takings e pots (k :: ks) = x :: takings e (visit e pots k) ks := by
  rw [takings, h, Option.toList_some, List.singleton_append]

/-! ## Totals -/

section Total

variable [AddCommMonoid B] {f : A → B}

/-- What the distinct pots hold together, in the measure `f`. -/
def total (f : A → B) (pots : K → Option A) (ks : List K) : B :=
  ∑ k ∈ ks.toFinset, ((pots k).map f).getD 0

/-- The first visit takes out all there is, later ones find an empty pot. -/
theorem total_cons (he : f e = 0) (pots : K → Option A) (k : K) (ks : List K) :
    total f pots (k :: ks) = ((pots k).map f).getD 0 + total f (visit e pots k) ks := by
  have hempty : ((visit e pots k k).map f).getD 0 = 0 := by
    rw [visit, Function.update_self]
    cases pots k with
    | none => rfl
    | some x => exact he
  have hrest : total f pots (ks.filter (· ≠ k)) = total f (visit e pots k) ks := by
    rw [total, total, List.toFinset_filter, Finset.sum_filter]
    refine Finset.sum_congr rfl fun j _ => ?_
    by_cases hj : j = k
    · subst hj
      rw [if_neg (by simp), hempty]
    · rw [if_pos (by simpa using hj), visit, Function.update_of_ne hj]
  have hkeys : (k :: ks).toFinset = insert k (ks.filter (· ≠ k)).toFinset := by
    ext j
    by_cases hj : j = k <;> simp [hj]
  rw [← hrest, total, hkeys, Finset.sum_insert (by simp)]
  rfl

theorem sum_takings (he : f e = 0) (pots : K → Option A) (ks : List K) :
    ((takings e pots ks).map f).sum = total f pots ks := by
  induction ks generalizing pots with
  | nil => rfl
  | cons k ks ih =>
    rw [total_cons he, takings, List.map_append, List.sum_append, ih]
    cases pots k with
    | none => rfl
    | some x => simp

/-- A partial addition that `g` measures, over a whole list. -/
theorem measure_foldlM {plus : C → A → Option C} {g : C → B}
    (hplus : ∀ a x b, plus a x = some b → g b = g a + f x) {xs : List A} {a b : C}
    (h : xs.foldlM plus a = some b) : g b = g a + (xs.map f).sum := by
  induction xs generalizing a with
  | nil =>
    obtain rfl := Option.some.inj h
    rw [List.map_nil, List.sum_nil, add_zero]
  | cons x xs ih =>
    rw [List.foldlM_cons] at h
    obtain ⟨c, hc, h⟩ := Option.bind_eq_some_iff.mp h
    rw [ih h, hplus a x c hc, List.map_cons, List.sum_cons, add_assoc]

/-- What is added up in a round are the distinct pots. -/
theorem measure_takings {plus : C → A → Option C} {g : C → B} (he : f e = 0)
    (hplus : ∀ a x b, plus a x = some b → g b = g a + f x) {a b : C}
    (h : (takings e pots ks).foldlM plus a = some b) : g b = g a + total f pots ks := by
  rw [measure_foldlM hplus h, sum_takings he]

end Total

end SolanaEasy.Sweep
