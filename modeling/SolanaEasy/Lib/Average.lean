import Mathlib.Algebra.Order.Field.Basic
import Mathlib.Algebra.Order.Ring.Abs
import Mathlib.Data.List.Induction
import Mathlib.Data.Rat.Cast.Order
import Mathlib.Tactic.FieldSimp
import Mathlib.Tactic.Linarith
import Mathlib.Tactic.Ring

/-!
# Average — a running average in whole numbers

A level is set from time to time, and of all levels since the start one whole number is
kept: each new level replaces it by the mean of itself and the level in force so far,
weighted by their times and rounded toward zero. The number stays among the levels; every
rounding loses less than one, and the losses add up.
-/

namespace SolanaEasy

/-- A level in force from a time on. -/
structure Setting where
  since : ℤ
  value : ℤ

/-- The rounded mean of `r` for the time `t` and `q` for the time `d`. -/
def weighted (r t q d : ℤ) : ℤ :=
  if t + d = 0 then q else (r * t + q * d).tdiv (t + d)

section Blend

variable {r t q d : ℤ}

/-- A mean is no lower than both, and no higher than both. -/
theorem weighted_between (ht : 0 ≤ t) (hd : 0 ≤ d) :
    (r ≤ weighted r t q d ∨ q ≤ weighted r t q d) ∧ (weighted r t q d ≤ r ∨ weighted r t q d ≤ q) := by
  unfold weighted
  split
  · exact ⟨.inr le_rfl, .inr le_rfl⟩
  case isFalse hne =>
    have hpos : 0 < t + d := by omega
    have hlower : ∀ b, b ≤ r → b ≤ q → b ≤ (r * t + q * d).tdiv (t + d) := by
      intro b hr hq
      have hsum : b * (t + d) ≤ r * t + q * d := by nlinarith
      have := Int.tdiv_le_tdiv hpos hsum
      rwa [Int.mul_tdiv_cancel b hne] at this
    have hupper : ∀ b, r ≤ b → q ≤ b → (r * t + q * d).tdiv (t + d) ≤ b := by
      intro b hr hq
      have hsum : r * t + q * d ≤ b * (t + d) := by nlinarith
      have := Int.tdiv_le_tdiv hpos hsum
      rwa [Int.mul_tdiv_cancel b hne] at this
    rcases le_total r q with h | h
    · exact ⟨.inl (hlower r le_rfl h), .inr (hupper q h le_rfl)⟩
    · exact ⟨.inr (hlower q h le_rfl), .inl (hupper r le_rfl h)⟩

/-- What one rounding loses, over the whole time. -/
theorem abs_weighted_sub_le (ht : 0 ≤ t) (hd : 0 ≤ d) :
    |weighted r t q d * (t + d) - (r * t + q * d)| ≤ max (t + d - 1) 0 := by
  unfold weighted
  split
  case isTrue h =>
    obtain rfl : t = 0 := by omega
    obtain rfl : d = 0 := by omega
    simp
  case isFalse hne =>
    have hpos : 0 < t + d := by omega
    have hsplit := Int.mul_tdiv_add_tmod (r * t + q * d) (t + d)
    have hmod := Int.natAbs_tmod (r * t + q * d) (t + d)
    have hlt := Nat.mod_lt (r * t + q * d).natAbs (Int.natAbs_pos.mpr hne)
    have hrest : (r * t + q * d).tdiv (t + d) * (t + d) - (r * t + q * d) =
        -(r * t + q * d).tmod (t + d) := by linarith
    rw [hrest, abs_neg, Int.abs_eq_natAbs, hmod]
    omega

end Blend

/-! ## Histories of levels -/

namespace Setting

variable (s : Setting)

/-- The level in force at the end. -/
def last (history : List Setting) : Setting := history.getLastD s

/-- The levels times their durations, up to the last one. -/
def area (s : Setting) : List Setting → ℤ
  | [] => 0
  | u :: rest => s.value * (u.since - s.since) + area u rest

/-- The time from the first level to the last one. -/
def span (history : List Setting) : ℤ := (s.last history).since - s.since

/-- The number kept. -/
def kept (history : List Setting) : ℤ :=
  (history.foldl (fun p u =>
    (weighted p.1 (p.2.since - s.since) p.2.value (u.since - p.2.since), u)) (s.value, s)).1

/-- Time does not run backwards. -/
def Ordered (history : List Setting) : Prop :=
  (s :: history).Pairwise fun u v => u.since ≤ v.since

variable {s} {history : List Setting} {u : Setting}

theorem last_concat : s.last (history ++ [u]) = u := by
  simp [last, List.getLastD_eq_getLast?]

theorem last_mem : s.last history ∈ s :: history := by
  unfold last
  cases history using List.reverseRecOn with
  | nil => simp
  | append_singleton rest u => simp [List.getLastD_eq_getLast?]

theorem area_concat : s.area (history ++ [u]) =
    s.area history + (s.last history).value * (u.since - (s.last history).since) := by
  induction history generalizing s with
  | nil => simp [area, last]
  | cons v rest ih =>
    have hlast : s.last (v :: rest) = v.last rest := by
      simp [last, List.getLastD_eq_getLast?, List.getLast?_cons]
    rw [List.cons_append, area, ih, area, hlast]
    ring

theorem kept_foldl : history.foldl (fun p u =>
    (weighted p.1 (p.2.since - s.since) p.2.value (u.since - p.2.since), u)) (s.value, s) =
      (s.kept history, s.last history) := by
  refine Prod.ext rfl ?_
  cases history using List.reverseRecOn with
  | nil => rfl
  | append_singleton rest u => rw [last_concat, List.foldl_concat]

theorem kept_concat : s.kept (history ++ [u]) =
    weighted (s.kept history) (s.span history) (s.last history).value
      (u.since - (s.last history).since) := by
  rw [kept, List.foldl_concat, kept_foldl]
  rfl

theorem span_concat :
    s.span (history ++ [u]) = s.span history + (u.since - (s.last history).since) := by
  simp only [span, last_concat]
  ring

theorem Ordered.of_concat (h : s.Ordered (history ++ [u])) :
    s.Ordered history ∧ (s.last history).since ≤ u.since := by
  rw [Ordered, ← List.cons_append] at h
  obtain ⟨hbefore, _, hlast⟩ := List.pairwise_append.mp h
  exact ⟨hbefore, hlast _ last_mem _ (List.mem_singleton_self u)⟩

theorem Ordered.span_nonneg (h : s.Ordered history) : 0 ≤ s.span history := by
  have hmem : s.last history ∈ s :: history := last_mem
  rcases List.mem_cons.mp hmem with heq | hmem
  · rw [span, heq, sub_self]
  · exact sub_nonneg.mpr (List.rel_of_pairwise_cons h hmem)

/-- The number kept stays among the levels. -/
theorem Ordered.kept_between (h : s.Ordered history) :
    (∃ v ∈ s :: history, v.value ≤ s.kept history) ∧
      ∃ v ∈ s :: history, s.kept history ≤ v.value := by
  induction history using List.reverseRecOn with
  | nil => exact ⟨⟨s, by simp, le_rfl⟩, s, by simp, le_rfl⟩
  | append_singleton history u ih =>
    obtain ⟨hbefore, hlast⟩ := h.of_concat
    obtain ⟨⟨v, hv, hlower⟩, w, hw, hupper⟩ := ih hbefore
    have hstep := weighted_between (r := s.kept history) (q := (s.last history).value)
      hbefore.span_nonneg (sub_nonneg.mpr hlast)
    rw [kept_concat, ← List.cons_append]
    constructor
    · rcases hstep.1 with hle | hle
      · exact ⟨v, List.mem_append_left _ hv, hlower.trans hle⟩
      · exact ⟨_, List.mem_append_left _ last_mem, hle⟩
    · rcases hstep.2 with hle | hle
      · exact ⟨w, List.mem_append_left _ hw, hle.trans hupper⟩
      · exact ⟨_, List.mem_append_left _ last_mem, hle⟩

/-- Each level adds one loss, and the losses are spread over the whole time. -/
theorem Ordered.abs_kept_sub_le (h : s.Ordered history) :
    |s.kept history * s.span history - s.area history| ≤
      history.length * max (s.span history - 1) 0 := by
  induction history using List.reverseRecOn with
  | nil => simp [kept, span, last, area]
  | append_singleton history u ih =>
    obtain ⟨hbefore, hlast⟩ := h.of_concat
    have hd := sub_nonneg.mpr hlast
    have hloss := abs_weighted_sub_le (r := s.kept history) (q := (s.last history).value)
      hbefore.span_nonneg hd
    have hgrow : max (s.span history - 1) 0 ≤ max (s.span (history ++ [u]) - 1) 0 := by
      rw [span_concat]
      exact max_le_max (by linarith) le_rfl
    have hold : |s.kept history * s.span history - s.area history| ≤
        history.length * max (s.span (history ++ [u]) - 1) 0 :=
      (ih hbefore).trans (mul_le_mul_of_nonneg_left hgrow (Int.natCast_nonneg _))
    rw [kept_concat, area_concat, List.length_append, List.length_singleton]
    rw [← span_concat] at hloss
    have hsum := (abs_add_le _ _).trans (add_le_add hloss hold)
    calc _ = _ := by congr 1; ring
      _ ≤ _ := hsum
      _ = _ := by push_cast; ring

/-- The number kept differs from the true average by less than the number of roundings. -/
theorem Ordered.abs_kept_sub_average_lt (h : s.Ordered history) (hspan : s.span history ≠ 0) :
    |(s.kept history : ℚ) - s.area history / s.span history| < history.length := by
  have hpos : 0 < s.span history := lt_of_le_of_ne h.span_nonneg hspan.symm
  have hlength : 0 < history.length := by
    rw [List.length_pos_iff]
    rintro rfl
    exact hspan (sub_self s.since)
  have hloss := h.abs_kept_sub_le
  rw [max_eq_left (by omega)] at hloss
  have hcast : (0 : ℚ) < s.span history := by exact_mod_cast hpos
  have hbelow : |s.kept history * s.span history - s.area history| <
      history.length * s.span history := by
    refine hloss.trans_lt ?_
    have : (0 : ℤ) < history.length := by exact_mod_cast hlength
    nlinarith
  have hdiv : (s.kept history : ℚ) - s.area history / s.span history =
      ((s.kept history * s.span history - s.area history : ℤ) : ℚ) / s.span history := by
    push_cast
    field_simp
  rw [hdiv, abs_div, abs_of_pos hcast, div_lt_iff₀ hcast]
  exact_mod_cast hbelow

end Setting

end SolanaEasy
