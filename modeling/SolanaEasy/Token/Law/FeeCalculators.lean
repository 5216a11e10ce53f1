import SolanaEasy.Token.Confidential.Generation

/-!
# Fee calculators — one fee, computed in three places

The token interface takes a fee off an amount and works an amount back from what is left
of it. The proof generation of the client and the JavaScript client each compute the same
fee, with checked arithmetic on wider integers and with integers of any size.
-/

namespace SolanaEasy.Token

namespace TransferFee

/-! ## From the net amount back to the gross amount -/

/-- `checked_sub` on `u128`. -/
def u128Sub (a b : ℕ) : Option ℕ := if b ≤ a then some (a - b) else none

/-- `ceil_div`, with its checks. -/
def checkedCeilDiv (numerator denominator : ℕ) : Option ℕ := do
  let padded ← u128 (numerator + denominator)
  let padded ← u128Sub padded 1
  if denominator = 0 then none else some (padded / denominator)

/-- `calculate_post_fee_amount`. -/
def calculatePostFeeAmount (f : TransferFee) (preFeeAmount : UInt64) : Option UInt64 := do
  checkedSub preFeeAmount (← f.calculateFee preFeeAmount)

/-- `calculate_pre_fee_amount`. -/
def calculatePreFeeAmount (f : TransferFee) (postFeeAmount : UInt64) : Option UInt64 :=
  let transferFeeBasisPoints := f.transferFeeBasisPoints.toNat
  if transferFeeBasisPoints = 0 then some postFeeAmount
  else if postFeeAmount = 0 then some 0
  else if transferFeeBasisPoints = maxFeeBasisPoints then checkedAdd f.maximumFee postFeeAmount
  else do
    let numerator ← u128 (postFeeAmount.toNat * maxFeeBasisPoints)
    let denominator ← u128Sub maxFeeBasisPoints transferFeeBasisPoints
    let rawPreFeeAmount ← checkedCeilDiv numerator denominator
    let rawFee ← u128Sub rawPreFeeAmount postFeeAmount.toNat
    if f.maximumFee.toNat ≤ rawFee then checkedAdd postFeeAmount f.maximumFee
    else if rawPreFeeAmount < 2 ^ 64 then some (UInt64.ofNat rawPreFeeAmount) else none

/-- `calculate_inverse_fee`. -/
def calculateInverseFee (f : TransferFee) (postFeeAmount : UInt64) : Option UInt64 := do
  f.calculateFee (← f.calculatePreFeeAmount postFeeAmount)

end TransferFee

/-! ## The percentage -/

theorem u128_eq {n : ℕ} (h : n < 2 ^ 128) : u128 n = some n := by
  rw [u128, if_pos h]

theorem TransferFee.u128Sub_eq {a b : ℕ} (h : b ≤ a) : u128Sub a b = some (a - b) := by
  rw [u128Sub, if_pos h]

theorem TransferFee.checkedCeilDiv_eq {n d : ℕ} (hd : 0 < d) (h : n + d < 2 ^ 128) :
    checkedCeilDiv n d = some (ceilDiv n d) := by
  rw [checkedCeilDiv, u128_eq h, Option.bind_eq_bind, Option.bind_some,
    u128Sub_eq (show 1 ≤ n + d by omega), Option.bind_some, if_neg hd.ne', ceilDiv]

/-- The percentage, rounded up by `delta`. -/
theorem calculateFee_eq (amount : UInt64) {bps : UInt16} (hbps : bps.toNat ≤ 10000) :
    ∃ fee delta, calculateFee amount bps = some (fee, delta) ∧ fee.toNat ≤ amount.toNat ∧
      10000 * fee.toNat = amount.toNat * bps.toNat + delta.toNat ∧ delta.toNat < 10000 := by
  have hamount := amount.toNat_lt
  have hproduct : amount.toNat * bps.toNat ≤ amount.toNat * 10000 := Nat.mul_le_mul_left _ hbps
  generalize hn : amount.toNat * bps.toNat = n at hproduct
  -- the quotient `q` and how far it overshoots
  obtain ⟨q, hq⟩ : ∃ q, (n + oneInBasisPoints - 1) / oneInBasisPoints = q := ⟨_, rfl⟩
  have hround : n ≤ q * oneInBasisPoints ∧ q * oneInBasisPoints < n + oneInBasisPoints := by
    rw [oneInBasisPoints] at hq ⊢
    omega
  have hshort : q ≤ amount.toNat := by
    rw [oneInBasisPoints] at hround
    omega
  have hdelta : q * oneInBasisPoints - n < 10000 := by
    rw [oneInBasisPoints] at hround ⊢
    omega
  have hnumerator : u128 n = some n := u128_eq (by omega)
  have hpadded : u128 (n + oneInBasisPoints) = some (n + oneInBasisPoints) := by
    refine u128_eq ?_
    rw [oneInBasisPoints]
    omega
  have hscaled : u128 (q * oneInBasisPoints) = some (q * oneInBasisPoints) := by
    refine u128_eq ?_
    rw [oneInBasisPoints] at hround ⊢
    omega
  refine ⟨UInt64.ofNat q, UInt64.ofNat (q * oneInBasisPoints - n), ?_, ?_, ?_, ?_⟩
  · simp only [calculateFee, hn, hnumerator, hpadded, hq, hscaled, Option.bind_eq_bind,
      Option.bind_some, if_pos hround.1]
    rfl
  · rw [UInt64.toNat_ofNat_of_lt' (show _ < 2 ^ 64 by omega)]
    exact hshort
  · rw [UInt64.toNat_ofNat_of_lt' (show _ < 2 ^ 64 by omega),
      UInt64.toNat_ofNat_of_lt' (show _ < 2 ^ 64 by omega)]
    rw [oneInBasisPoints] at hround ⊢
    omega
  · rw [UInt64.toNat_ofNat_of_lt' (show _ < 2 ^ 64 by omega)]
    exact hdelta

/-- What is withheld of an amount, by the public rule, and the delta that is claimed for it. -/
structure Withheld (amount : UInt64) (bps : UInt16) (max fee delta : UInt64) : Prop where
  rule : ∀ epoch, (⟨epoch, max, bps⟩ : TransferFee).calculateFee amount = some fee
  le : fee.toNat ≤ amount.toNat
  le_max : fee.toNat ≤ max.toNat
  short : delta.toNat < 10000
  exact : fee = max ∨ 10000 * fee.toNat = amount.toNat * bps.toNat + delta.toNat

/-- The rounded percentage, cut at the maximum, is what the public fee is. -/
theorem calculateFee_rule {amount raw : UInt64} {bps : UInt16} {delta : ℕ}
    (hshort : delta < 10000) (hexact : 10000 * raw.toNat = amount.toNat * bps.toNat + delta)
    (max epoch : UInt64) :
    (⟨epoch, max, bps⟩ : TransferFee).calculateFee amount = some (min raw max) := by
  have hceil : TransferFee.ceilDiv (amount.toNat * bps.toNat) TransferFee.maxFeeBasisPoints =
      raw.toNat :=
    TransferFee.ceilDiv_eq hshort (by rw [TransferFee.maxFeeBasisPoints, Nat.mul_comm, hexact])
  have hraw := raw.toNat_lt
  rw [TransferFee.calculateFee]
  split
  · rename_i hzero
    have hproduct : amount.toNat * bps.toNat = 0 := by
      simp only [Bool.or_eq_true, beq_iff_eq] at hzero
      rcases hzero with h | h
      · rw [h]
        rfl
      · rw [h]
        exact Nat.zero_mul _
    have hnone : raw = 0 := by
      rw [← UInt64.toNat_inj]
      show raw.toNat = 0
      omega
    subst hnone
    rw [UInt64.min_def, if_pos UInt64.zero_le]
  · simp only [hceil, if_pos hraw, UInt64.ofNat_toNat]

theorem exists_withheld (amount : UInt64) {bps : UInt16} (hbps : bps.toNat ≤ 10000)
    (max : UInt64) : ∃ raw rawDelta, calculateFee amount bps = some (raw, rawDelta) ∧
      Withheld amount bps max (cappedFee max raw rawDelta).1 (cappedFee max raw rawDelta).2 := by
  obtain ⟨raw, rawDelta, hcalculate, hle, hexact, hshort⟩ := calculateFee_eq amount hbps
  have hrule := calculateFee_rule hshort hexact max
  refine ⟨raw, rawDelta, hcalculate, ?_⟩
  by_cases hcap : max < raw
  · have hlt := UInt64.lt_iff_toNat_lt.mp hcap
    rw [UInt64.min_def, if_neg (UInt64.not_le.mpr hcap)] at hrule
    rw [cappedFee, if_pos hcap]
    refine ⟨hrule, hlt.le.trans hle, le_refl _, ?_, .inl rfl⟩
    show (0 : ℕ) < 10000
    omega
  · have hge := UInt64.not_lt.mp hcap
    rw [UInt64.min_def, if_pos hge] at hrule
    rw [cappedFee, if_neg hcap]
    exact ⟨hrule, hle, UInt64.le_iff_toNat_le.mp hge, hshort, .inr hexact⟩

/-! ## The JavaScript client -/

/-- `TransferFee` of `state.ts`; the rate is a `number` that the layout read from two bytes. -/
structure JsTransferFee where
  epoch : ℤ
  maximumFee : ℤ
  transferFeeBasisPoints : ℤ

/-- `transferFeeLayout().decode` on the fields of a packed fee. -/
def TransferFee.toJs (f : TransferFee) : JsTransferFee :=
  ⟨f.epoch.toNat, f.maximumFee.toNat, f.transferFeeBasisPoints.toNat⟩

/-- `calculateFee` of `state.ts`. Division of `bigint` rounds towards zero. -/
def JsTransferFee.calculateFee (transferFee : JsTransferFee) (preFeeAmount : ℤ) : ℤ :=
  if transferFee.transferFeeBasisPoints = 0 ∨ preFeeAmount = 0 then 0
  else
    let numerator := preFeeAmount * transferFee.transferFeeBasisPoints
    let rawFee := (numerator + 10000 - 1).tdiv 10000
    if rawFee > transferFee.maximumFee then transferFee.maximumFee else rawFee

theorem TransferFee.toJs_calculateFee {f : TransferFee} {amount fee : UInt64}
    (h : f.calculateFee amount = some fee) : f.toJs.calculateFee amount.toNat = fee.toNat := by
  have hnumerator : ((amount.toNat : ℤ) * (f.transferFeeBasisPoints.toNat : ℤ) + 10000 - 1).tdiv
      10000 = (TransferFee.ceilDiv (amount.toNat * f.transferFeeBasisPoints.toNat)
        TransferFee.maxFeeBasisPoints : ℕ) := by
    rw [TransferFee.ceilDiv, TransferFee.maxFeeBasisPoints, ← Nat.cast_mul,
      show ((amount.toNat * f.transferFeeBasisPoints.toNat : ℕ) : ℤ) + 10000 - 1 =
        ((amount.toNat * f.transferFeeBasisPoints.toNat + 10000 - 1 : ℕ) : ℤ) by omega]
    exact Int.ofNat_tdiv _ _
  rw [TransferFee.calculateFee] at h
  rw [JsTransferFee.calculateFee]
  split at h
  · rename_i hzero
    obtain rfl := Option.some.inj h
    simp only [Bool.or_eq_true, beq_iff_eq] at hzero
    refine if_pos ?_
    rcases hzero with hbps | hamount
    · exact .inl (by rw [toJs, hbps]; rfl)
    · exact .inr (by rw [hamount]; rfl)
  · rename_i hzero
    simp only [Bool.or_eq_true, beq_iff_eq, not_or] at hzero
    have hsome : ¬ (f.toJs.transferFeeBasisPoints = 0 ∨ (amount.toNat : ℤ) = 0) := by
      rintro (hbps | hamount)
      · exact hzero.1 (UInt16.toNat_inj.mp (Int.natCast_eq_zero.mp hbps))
      · exact hzero.2 (UInt64.toNat_inj.mp (Int.natCast_eq_zero.mp hamount))
    simp only at h
    split at h
    · rename_i hfits
      obtain rfl := Option.some.inj h
      rw [if_neg hsome]
      simp only [toJs, hnumerator, UInt64.toNat_min, UInt64.toNat_ofNat_of_lt' hfits]
      by_cases hcap : f.maximumFee.toNat < TransferFee.ceilDiv
          (amount.toNat * f.transferFeeBasisPoints.toNat) TransferFee.maxFeeBasisPoints
      · rw [if_pos (Int.ofNat_lt.mpr hcap), Nat.min_eq_right hcap.le]
      · rw [if_neg fun hlt => hcap (Int.ofNat_lt.mp hlt), Nat.min_eq_left (Nat.not_lt.mp hcap)]
    · cases h

/-! ## One fee -/

/-- The three calculators return the same fee, and the delta of the proof is how far the
percentage was rounded up; no checked operation on the way fails. -/
theorem fee_calculators_agree (amount : UInt64) (epoch maximumFee : UInt64) (bps : UInt16)
    (hbps : bps.toNat ≤ TransferFee.maxFeeBasisPoints) :
    ∃ rawFee rawDelta fee claimedDelta net complement : UInt64,
      calculateFee amount bps = some (rawFee, rawDelta) ∧
      cappedFee maximumFee rawFee rawDelta = (fee, claimedDelta) ∧
      (⟨epoch, maximumFee, bps⟩ : TransferFee).calculateFee amount = some fee ∧
      (⟨epoch, maximumFee, bps⟩ : TransferFee).toJs.calculateFee amount.toNat = fee.toNat ∧
      rawFee.toNat =
        TransferFee.ceilDiv (amount.toNat * bps.toNat) TransferFee.maxFeeBasisPoints ∧
      rawDelta.toNat ≤ 9999 ∧
      (rawDelta.toNat : ℤ) = rawFee.toNat * 10000 - amount.toNat * bps.toNat ∧
      checkedSub amount fee = some net ∧
      checkedSub (UInt64.ofNat maxFeeBasisPointsSubOne) claimedDelta = some complement := by
  rw [TransferFee.maxFeeBasisPoints] at hbps
  obtain ⟨rawFee, rawDelta, hcalculate, hle, hexact, hshort⟩ := calculateFee_eq amount hbps
  obtain ⟨rawFee', rawDelta', hcalculate', hw⟩ := exists_withheld amount hbps maximumFee
  obtain ⟨rfl, rfl⟩ := Prod.mk.inj (Option.some.inj (hcalculate.symm.trans hcalculate'))
  rcases hcap : cappedFee maximumFee rawFee rawDelta with ⟨fee, claimedDelta⟩
  rw [hcap] at hw
  have hrule := hw.rule epoch
  have hdelta := hw.short
  have hnet : checkedSub amount fee = some (amount - fee) := by
    rw [checkedSub_eq_some, UInt64.toNat_sub_of_le _ _ (UInt64.le_iff_toNat_le.mpr hw.le)]
    exact Nat.sub_add_cancel hw.le
  have hcomplement : ∃ complement,
      checkedSub (UInt64.ofNat maxFeeBasisPointsSubOne) claimedDelta = some complement := by
    refine ⟨UInt64.ofNat (9999 - claimedDelta.toNat), checkedSub_eq_some.mpr ?_⟩
    rw [maxFeeBasisPointsSubOne, UInt64.toNat_ofNat_of_lt' (show _ < 2 ^ 64 by omega),
      UInt64.toNat_ofNat_of_lt' (show 9999 < 2 ^ 64 by omega)]
    exact Nat.sub_add_cancel (Nat.le_of_lt_succ hdelta)
  obtain ⟨complement, hcomplement⟩ := hcomplement
  refine ⟨rawFee, rawDelta, fee, claimedDelta, amount - fee, complement, hcalculate, hcap, hrule,
    TransferFee.toJs_calculateFee hrule, ?_, Nat.le_of_lt_succ hshort, ?_, hnet, hcomplement⟩
  · exact (TransferFee.ceilDiv_eq hshort ((Nat.mul_comm _ _).trans hexact)).symm
  · have hcast : (10000 * rawFee.toNat : ℤ) = amount.toNat * bps.toNat + rawDelta.toNat := by
      exact_mod_cast hexact
    omega

theorem fee_calculators_agree_capped :
    10000 ≤ TransferFee.maxFeeBasisPoints ∧
    ∃ rawFee rawDelta fee claimedDelta net complement : UInt64,
      calculateFee 18446744073709551615 10000 = some (rawFee, rawDelta) ∧
      cappedFee 5000 rawFee rawDelta = (fee, claimedDelta) ∧
      (⟨0, 5000, 10000⟩ : TransferFee).calculateFee 18446744073709551615 = some fee ∧
      (⟨0, 5000, 10000⟩ : TransferFee).toJs.calculateFee
        (18446744073709551615 : UInt64).toNat = fee.toNat ∧
      rawFee.toNat = TransferFee.ceilDiv ((18446744073709551615 : UInt64).toNat *
        (10000 : UInt16).toNat) TransferFee.maxFeeBasisPoints ∧
      rawDelta.toNat ≤ 9999 ∧
      (rawDelta.toNat : ℤ) = rawFee.toNat * 10000 -
        (18446744073709551615 : UInt64).toNat * (10000 : UInt16).toNat ∧
      checkedSub 18446744073709551615 fee = some net ∧
      checkedSub (UInt64.ofNat maxFeeBasisPointsSubOne) claimedDelta = some complement :=
  ⟨by decide, fee_calculators_agree 18446744073709551615 0 5000 10000 (by decide)⟩

end SolanaEasy.Token
