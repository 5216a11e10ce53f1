import SolanaEasy.Oft.Store
import SolanaEasy.Token.Law.FeeCalculators
import Mathlib.Order.GaloisConnection.Basic

/-!
# PreFeeAmount — the least amount that leaves a given net amount

Below a rate of 100% the net amount grows with the gross amount by steps of one or none,
and the amount worked back is its lower adjoint. At 100% nothing below the maximum fee is
left, and what is left of a larger amount determines it.
-/

namespace SolanaEasy.Oft

open Token (TransferFee checkedAdd checkedSub checkedAdd_eq_some checkedSub_eq_some)

/-! ## Net and gross amounts -/

/-- What is left of `x` after `bps` in every `one`, rounded up, but at most `max`. -/
def net (one bps max x : ℕ) : ℕ := x - min (TransferFee.ceilDiv (x * bps) one) max

/-- What leaves `y` when less than everything is taken. -/
def gross (one bps max y : ℕ) : ℕ := min (TransferFee.ceilDiv (y * one) (one - bps)) (y + max)

section Below

variable {one bps max : ℕ} (hbps : bps < one)
include hbps

theorem ceilDiv_le_self (x : ℕ) : TransferFee.ceilDiv (x * bps) one ≤ x :=
  TransferFee.ceilDiv_le (Nat.zero_lt_of_lt hbps) (Nat.mul_le_mul_left x hbps.le)

/-- Working back never gives less than what is left. -/
theorem le_ceilDiv_self (y : ℕ) : y ≤ TransferFee.ceilDiv (y * one) (one - bps) := by
  refine Nat.le_of_mul_le_mul_right ?_ (Nat.zero_lt_of_lt hbps)
  exact (TransferFee.le_ceilDiv_mul _ (Nat.sub_pos_of_lt hbps)).trans
    (Nat.mul_le_mul_left _ (Nat.sub_le _ _))

theorem gross_le_iff {x y : ℕ} : gross one bps max y ≤ x ↔ y ≤ net one bps max x := by
  have hle := ceilDiv_le_self hbps x
  have hpart : x * bps ≤ x * one := Nat.mul_le_mul_left x hbps.le
  have hraw : TransferFee.ceilDiv (y * one) (one - bps) ≤ x ↔
      y ≤ x - TransferFee.ceilDiv (x * bps) one := by
    constructor
    · intro h
      have hgross : y * one ≤ x * (one - bps) :=
        (TransferFee.le_ceilDiv_mul _ (Nat.sub_pos_of_lt hbps)).trans (Nat.mul_le_mul_right _ h)
      have hx : y ≤ x := by
        exact (le_ceilDiv_self hbps y).trans h
      rw [Nat.mul_sub] at hgross
      have hfee : TransferFee.ceilDiv (x * bps) one ≤ x - y := by
        refine TransferFee.ceilDiv_le (Nat.zero_lt_of_lt hbps) ?_
        rw [Nat.sub_mul]
        omega
      omega
    · intro h
      have hx : y * one ≤ x * one := Nat.mul_le_mul_right one (h.trans (Nat.sub_le _ _))
      have hfee : x * bps ≤ (x - y) * one := by
        refine (TransferFee.le_ceilDiv_mul _ (Nat.zero_lt_of_lt hbps)).trans
          (Nat.mul_le_mul_right _ ?_)
        omega
      refine TransferFee.ceilDiv_le (Nat.sub_pos_of_lt hbps) ?_
      rw [Nat.sub_mul] at hfee
      rw [Nat.mul_sub]
      omega
  rw [gross, net, min_le_iff, hraw]
  generalize TransferFee.ceilDiv (x * bps) one = fee at hle ⊢
  omega

theorem gross_lt_gross (max y : ℕ) : gross one bps max y < gross one bps max (y + 1) := by
  have hraw : TransferFee.ceilDiv (y * one) (one - bps) <
      TransferFee.ceilDiv ((y + 1) * one) (one - bps) := by
    have hnext := TransferFee.le_ceilDiv_mul ((y + 1) * one) (Nat.sub_pos_of_lt hbps)
    generalize TransferFee.ceilDiv ((y + 1) * one) (one - bps) = n at hnext ⊢
    cases n with
    | zero =>
      rw [Nat.zero_mul, Nat.succ_mul] at hnext
      omega
    | succ n =>
      refine Nat.lt_succ_of_le (TransferFee.ceilDiv_le (Nat.sub_pos_of_lt hbps) ?_)
      rw [Nat.succ_mul, Nat.succ_mul] at hnext
      omega
  rw [gross, gross]
  generalize TransferFee.ceilDiv (y * one) (one - bps) = m at hraw ⊢
  generalize TransferFee.ceilDiv ((y + 1) * one) (one - bps) = n at hraw ⊢
  omega

/-- The lower adjoint is injective, so its value is a preimage, and the least. -/
theorem isLeast_gross (y : ℕ) : IsLeast {x | net one bps max x = y} (gross one bps max y) := by
  have hconnection : GaloisConnection (gross one bps max) (net one bps max) :=
    fun _ _ => gross_le_iff hbps
  have hinjective := (strictMono_nat_of_lt_succ (gross_lt_gross hbps max)).injective
  refine ⟨hinjective (hconnection.l_u_l_eq_l y), fun x hx => ?_⟩
  exact hconnection.l_le hx.ge

end Below

theorem net_whole {one : ℕ} (hone : 0 < one) (max x : ℕ) : net one one max x = x - max := by
  have hfee : TransferFee.ceilDiv (x * one) one = x :=
    TransferFee.ceilDiv_eq hone (Nat.add_zero _).symm
  rw [net, hfee]
  omega

/-- What leaves `y`, at any rate up to 100%. -/
def leastGross (one bps max y : ℕ) : ℕ :=
  if bps = one then if y = 0 then 0 else y + max else gross one bps max y

theorem isLeast_leastGross {one bps : ℕ} (hone : 0 < one) (hbps : bps ≤ one) (max y : ℕ) :
    IsLeast {x | net one bps max x = y} (leastGross one bps max y) := by
  by_cases hwhole : bps = one
  · rw [leastGross, if_pos hwhole, hwhole]
    by_cases hy : y = 0
    · rw [if_pos hy, hy]
      exact ⟨(net_whole hone max 0).trans (Nat.zero_sub _), fun x _ => Nat.zero_le x⟩
    · rw [if_neg hy]
      refine ⟨(net_whole hone max _).trans (Nat.add_sub_cancel _ _), fun x hx => ?_⟩
      have hx' : x - max = y := (net_whole hone max x).symm.trans hx
      omega
  · rw [leastGross, if_neg hwhole]
    exact isLeast_gross (Nat.lt_of_le_of_ne hbps hwhole) y

theorem leastGross_free {one : ℕ} (hone : 0 < one) (max y : ℕ) : leastGross one 0 max y = y := by
  have hraw : TransferFee.ceilDiv (y * one) (one - 0) = y :=
    TransferFee.ceilDiv_eq hone (Nat.add_zero _).symm
  rw [leastGross, if_neg hone.ne, gross, hraw, Nat.min_eq_left (Nat.le_add_right _ _)]

theorem leastGross_zero {one bps : ℕ} (hone : 0 < one) (hbps : bps ≤ one) (max : ℕ) :
    leastGross one bps max 0 = 0 :=
  Nat.le_zero.mp ((isLeast_leastGross hone hbps max 0).2 (Nat.zero_sub _))

/-! ## The calculators on 64 bits -/

section Fee

variable {f : TransferFee} (hbps : f.transferFeeBasisPoints.toNat ≤ maxFeeBasisPoints)

/-- The copy agrees with the interface: none of the checked operations fails. -/
theorem calculatePreFeeAmount_eq (f : TransferFee) (y : UInt64) :
    calculatePreFeeAmount f y = f.calculatePreFeeAmount y := by
  simp only [calculatePreFeeAmount, TransferFee.calculatePreFeeAmount]
  by_cases hzero : f.transferFeeBasisPoints.toNat = 0
  · rw [if_pos hzero, if_pos hzero]
  rw [if_neg hzero, if_neg hzero]
  by_cases hy : y = 0
  · rw [if_pos hy, if_pos hy]
  rw [if_neg hy, if_neg hy]
  by_cases hwhole : f.transferFeeBasisPoints.toNat = maxFeeBasisPoints
  · rw [if_pos hwhole]
    exact (if_pos hwhole).symm
  rw [if_neg hwhole]
  refine .trans ?_ (if_neg hwhole).symm
  have hlt := y.toNat_lt
  have hnumerator : Token.u128 (y.toNat * TransferFee.maxFeeBasisPoints) =
      some (y.toNat * maxFeeBasisPoints) :=
    Token.u128_eq (show y.toNat * 10000 < 2 ^ 128 by omega)
  rw [hnumerator, Option.bind_eq_bind, Option.bind_some]
  by_cases hbelow : f.transferFeeBasisPoints.toNat < maxFeeBasisPoints
  · have hdenominator : TransferFee.u128Sub TransferFee.maxFeeBasisPoints
        f.transferFeeBasisPoints.toNat =
          some (maxFeeBasisPoints - f.transferFeeBasisPoints.toNat) :=
      TransferFee.u128Sub_eq hbelow.le
    have hraw := TransferFee.checkedCeilDiv_eq (n := y.toNat * maxFeeBasisPoints)
      (Nat.sub_pos_of_lt hbelow) (by rw [maxFeeBasisPoints]; omega)
    rw [if_pos hbelow, hdenominator, Option.bind_some, hraw, Option.bind_some,
      TransferFee.u128Sub_eq (le_ceilDiv_self hbelow y.toNat), Option.bind_some]
  · rw [if_neg hbelow, TransferFee.u128Sub, if_neg, Option.bind_none]
    exact fun hle => hbelow (Nat.lt_of_le_of_ne hle hwhole)

include hbps

theorem exists_calculateFee (x : UInt64) : ∃ fee, f.calculateFee x = some fee ∧ fee.toNat =
    min (TransferFee.ceilDiv (x.toNat * f.transferFeeBasisPoints.toNat) maxFeeBasisPoints)
      f.maximumFee.toNat := by
  obtain ⟨raw, delta, _, _, hexact, hshort⟩ := Token.calculateFee_eq x hbps
  refine ⟨min raw f.maximumFee,
    Token.calculateFee_rule hshort hexact f.maximumFee f.epoch, ?_⟩
  rw [maxFeeBasisPoints, UInt64.toNat_min,
    TransferFee.ceilDiv_eq hshort ((Nat.mul_comm _ _).trans hexact)]

/-- The fee never exceeds the amount. -/
theorem calculateFee_le_amount {x fee : UInt64} (h : f.calculateFee x = some fee) :
    fee ≤ x ∧ f.calculatePostFeeAmount x = some (x - fee) := by
  obtain ⟨fee', hfee, hvalue⟩ := exists_calculateFee hbps x
  obtain rfl := Option.some.inj (hfee.symm.trans h)
  have hle : fee'.toNat ≤ x.toNat := by
    rw [hvalue]
    exact (Nat.min_le_left _ _).trans
      (TransferFee.ceilDiv_le (by decide) (Nat.mul_le_mul_left _ hbps))
  refine ⟨UInt64.le_iff_toNat_le.mpr hle, ?_⟩
  rw [TransferFee.calculatePostFeeAmount, h, Option.bind_eq_bind, Option.bind_some,
    checkedSub_eq_some, UInt64.toNat_sub_of_le _ _ (UInt64.le_iff_toNat_le.mpr hle),
    Nat.sub_add_cancel hle]

theorem calculatePostFeeAmount_eq_some {x y : UInt64} :
    f.calculatePostFeeAmount x = some y ↔
      net maxFeeBasisPoints f.transferFeeBasisPoints.toNat f.maximumFee.toNat x.toNat =
        y.toNat := by
  obtain ⟨fee, hfee, hvalue⟩ := exists_calculateFee hbps x
  obtain ⟨hle, hpost⟩ := calculateFee_le_amount hbps hfee
  rw [hpost, net, ← hvalue, ← UInt64.toNat_sub_of_le _ _ hle, Option.some.injEq,
    UInt64.toNat_inj]

theorem calculatePreFeeAmount_eq_some {x y : UInt64} :
    calculatePreFeeAmount f y = some x ↔
      leastGross maxFeeBasisPoints f.transferFeeBasisPoints.toNat f.maximumFee.toNat y.toNat =
        x.toNat := by
  rw [calculatePreFeeAmount]
  by_cases hzero : f.transferFeeBasisPoints.toNat = 0
  · rw [if_pos hzero, hzero, leastGross_free (by decide), Option.some.injEq, UInt64.toNat_inj]
  rw [if_neg hzero]
  by_cases hy : y = 0
  · rw [if_pos hy, hy, show (0 : UInt64).toNat = 0 from rfl, leastGross_zero (by decide) hbps,
      Option.some.injEq, ← UInt64.toNat_inj]
    exact Iff.rfl
  have hpos : y.toNat ≠ 0 := fun h => hy (UInt64.toNat_inj.mp h)
  rw [if_neg hy, leastGross]
  by_cases hwhole : f.transferFeeBasisPoints.toNat = maxFeeBasisPoints
  · rw [if_pos hwhole, if_pos hwhole, if_neg hpos, checkedAdd_eq_some]
    omega
  have hbelow := Nat.lt_of_le_of_ne hbps hwhole
  have hraw := le_ceilDiv_self hbelow y.toNat
  rw [if_neg hwhole, if_neg hwhole, if_pos hbelow, gross]
  generalize TransferFee.ceilDiv (y.toNat * maxFeeBasisPoints)
    (maxFeeBasisPoints - f.transferFeeBasisPoints.toNat) = raw at hraw ⊢
  have hlt := x.toNat_lt
  by_cases hcap : f.maximumFee.toNat ≤ raw - y.toNat
  · rw [if_pos hcap, checkedAdd_eq_some]
    omega
  rw [if_neg hcap, Nat.min_eq_left (by omega)]
  by_cases hfits : raw < 2 ^ 64
  · rw [if_pos hfits, Option.some.injEq, ← UInt64.toNat_inj, UInt64.toNat_ofNat_of_lt' hfits]
  · rw [if_neg hfits]
    exact iff_of_false (by simp) (by omega)

end Fee

/-- The amount worked back is the least one that leaves the net amount, and there is none
exactly when no 64-bit amount does. -/
theorem calculatePreFeeAmount_least (f : TransferFee)
    (hbps : f.transferFeeBasisPoints.toNat ≤ maxFeeBasisPoints) :
    (∀ x y, f.calculatePreFeeAmount y = some x ↔
      f.calculatePostFeeAmount x = some y ∧
        ∀ x', f.calculatePostFeeAmount x' = some y → x ≤ x') ∧
    (∀ y, f.calculatePreFeeAmount y = none ↔ ∀ x, f.calculatePostFeeAmount x ≠ some y) ∧
    (∀ x, ∃ fee inverse, f.calculateFee x = some fee ∧ fee ≤ x ∧
      f.calculateInverseFee (x - fee) = some inverse ∧ inverse ≤ fee) ∧
    ∀ y, calculatePreFeeAmount f y = f.calculatePreFeeAmount y := by
  have hleast := fun y : UInt64 =>
    isLeast_leastGross (show 0 < maxFeeBasisPoints by decide) hbps f.maximumFee.toNat y.toNat
  have hsome : ∀ {x y}, f.calculatePreFeeAmount y = some x ↔ leastGross maxFeeBasisPoints
      f.transferFeeBasisPoints.toNat f.maximumFee.toNat y.toNat = x.toNat := fun {x y} => by
    rw [← calculatePreFeeAmount_eq, calculatePreFeeAmount_eq_some hbps]
  have hbelow : ∀ {x y}, f.calculatePostFeeAmount x = some y → leastGross maxFeeBasisPoints
      f.transferFeeBasisPoints.toNat f.maximumFee.toNat y.toNat ≤ x.toNat := fun {x y} h =>
    (hleast y).2 ((calculatePostFeeAmount_eq_some hbps).mp h)
  have hpost : ∀ {x y}, f.calculatePreFeeAmount y = some x →
      f.calculatePostFeeAmount x = some y := by
    intro x y h
    rw [calculatePostFeeAmount_eq_some hbps, ← hsome.mp h]
    exact (hleast y).1
  have hexists : ∀ {x y}, f.calculatePostFeeAmount x = some y →
      ∃ x', f.calculatePreFeeAmount y = some x' ∧ x' ≤ x := by
    intro x y h
    have hle := hbelow h
    have hfits := hle.trans_lt x.toNat_lt
    refine ⟨_, hsome.mpr (UInt64.toNat_ofNat_of_lt' hfits).symm, ?_⟩
    rw [UInt64.le_iff_toNat_le, UInt64.toNat_ofNat_of_lt' hfits]
    exact hle
  refine ⟨fun x y => ⟨fun h => ⟨hpost h, fun x' h' => ?_⟩, fun ⟨h, hmin⟩ => ?_⟩,
    fun y => ⟨fun h x hx => ?_, fun h => ?_⟩, fun x => ?_, calculatePreFeeAmount_eq f⟩
  · rw [UInt64.le_iff_toNat_le, ← hsome.mp h]
    exact hbelow h'
  · obtain ⟨x', hx', hle⟩ := hexists h
    rw [hx', UInt64.le_antisymm hle (hmin x' (hpost hx'))]
  · obtain ⟨x', hx', _⟩ := hexists hx
    cases h.symm.trans hx'
  · cases hpre : f.calculatePreFeeAmount y with
    | none => rfl
    | some x => exact absurd (hpost hpre) (h x)
  · obtain ⟨fee, hfee, _⟩ := exists_calculateFee hbps x
    obtain ⟨hle, hnet⟩ := calculateFee_le_amount hbps hfee
    obtain ⟨x', hpre, hx'⟩ := hexists hnet
    obtain ⟨fee', hfee', _⟩ := exists_calculateFee hbps x'
    obtain ⟨hle', hnet'⟩ := calculateFee_le_amount hbps hfee'
    refine ⟨fee, fee', hfee, hle, ?_, ?_⟩
    · rw [TransferFee.calculateInverseFee, hpre, Option.bind_eq_bind, Option.bind_some, hfee']
    · -- both amounts leave the same, and the one worked back is no larger
      have hsame := congrArg UInt64.toNat (Option.some.inj ((hpost hpre).symm.trans hnet'))
      rw [UInt64.toNat_sub_of_le _ _ hle, UInt64.toNat_sub_of_le _ _ hle'] at hsame
      rw [UInt64.le_iff_toNat_le] at hle hle' hx' ⊢
      omega

theorem calculatePreFeeAmount_least_tenth :
    1000 ≤ maxFeeBasisPoints ∧
    (∀ x y, (⟨0, 5000, 1000⟩ : TransferFee).calculatePreFeeAmount y = some x ↔
      (⟨0, 5000, 1000⟩ : TransferFee).calculatePostFeeAmount x = some y ∧
        ∀ x', (⟨0, 5000, 1000⟩ : TransferFee).calculatePostFeeAmount x' = some y → x ≤ x') :=
  ⟨by decide, (calculatePreFeeAmount_least ⟨0, 5000, 1000⟩ (by decide)).1⟩

end SolanaEasy.Oft
