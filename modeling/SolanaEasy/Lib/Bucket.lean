import Mathlib.Tactic.Ring

/-!
# Bucket — a level that rises with time and is written down late

A bucket of fixed capacity fills at a fixed rate. Only its level at the last touch is
stored; the level at any later time follows from it. What is taken out of it over a run
is bounded by what was in it, what flowed in and what was poured in.
-/

namespace SolanaEasy

/-- What a bucket held, and when. -/
structure Bucket where
  level : ℕ
  time : ℕ

namespace Bucket

variable (capacity rate : ℕ)

/-- The level at a later time, if nobody touches the bucket. -/
def levelAt (b : Bucket) (t : ℕ) : ℕ := min capacity (b.level + (t - b.time) * rate)

/-- Touched at `t`: at most what is there, and `extra` on top of it, is kept or taken out. -/
structure Touched (t extra x : ℕ) (b b' : Bucket) : Prop where
  time : b'.time = t
  level : b'.level + x ≤ min capacity (b.level + (t - b.time) * rate + extra)

/-- Waiting and touching, from the bucket `b₀` at `t₀`, with what was poured in and what was
taken out so far. -/
inductive Run (t₀ : ℕ) (b₀ : Bucket) : ℕ → ℕ → ℕ → Bucket → Prop
  | start : Run t₀ b₀ 0 0 t₀ b₀
  | wait {e n t t' b} (h : Run t₀ b₀ e n t b) (later : t ≤ t') : Run t₀ b₀ e n t' b
  | touch {e n t extra x b b'} (h : Run t₀ b₀ e n t b)
      (touched : Touched capacity rate t extra x b b') : Run t₀ b₀ (e + extra) (n + x) t b'

variable {capacity rate} {b b' : Bucket}

/-- The level rises no faster than the rate. -/
theorem levelAt_le {t t' : ℕ} (h : t ≤ t') :
    b.levelAt capacity rate t' ≤ b.levelAt capacity rate t + (t' - t) * rate := by
  have hsplit : t' - b.time ≤ (t - b.time) + (t' - t) := by omega
  have hflow : (t' - b.time) * rate ≤ (t - b.time) * rate + (t' - t) * rate := by
    rw [← Nat.add_mul]
    exact Nat.mul_le_mul_right rate hsplit
  unfold levelAt
  omega

theorem Touched.levelAt_le {t extra x : ℕ} (h : Touched capacity rate t extra x b b') :
    x + b'.levelAt capacity rate t ≤ b.levelAt capacity rate t + extra := by
  have hlevel := h.level
  have hnow : (t - b'.time) * rate = 0 := by rw [h.time, Nat.sub_self, Nat.zero_mul]
  unfold levelAt
  omega

/-- What is taken out was there, flowed in, or was poured in. -/
theorem Run.taken_le {t₀ e n t : ℕ} {b₀ : Bucket} (h : Run capacity rate t₀ b₀ e n t b) :
    t₀ ≤ t ∧ n + b.levelAt capacity rate t ≤
      b₀.levelAt capacity rate t₀ + (t - t₀) * rate + e := by
  induction h with
  | start => exact ⟨Nat.le_refl _, by omega⟩
  | @wait e n t t' b _ later ih =>
    obtain ⟨hle, hbound⟩ := ih
    have hrise : b.levelAt capacity rate t' ≤ b.levelAt capacity rate t + (t' - t) * rate :=
      levelAt_le later
    have hflow : (t' - t₀) * rate = (t - t₀) * rate + (t' - t) * rate := by
      rw [← Nat.add_mul]
      congr 1
      omega
    exact ⟨hle.trans later, by omega⟩
  | touch _ touched ih =>
    have hstep := touched.levelAt_le
    exact ⟨ih.1, by omega⟩

end Bucket

end SolanaEasy
