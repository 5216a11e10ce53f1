import SolanaEasy.Oft.PreFeeAmount
import SolanaEasy.Oft.Solvency

/-!
# Amounts — what `compute_fee_and_adjust_amount` returns

Dust is taken off before the amount sent is worked back and again from the fee. The amount
worked back is the least that leaves the amount without dust, so it is no more than what
the caller offers, and it leaves exactly that amount.
-/

namespace SolanaEasy.Oft

open Token (Pubkey Ledger TransferFee)

/-! ## Working back -/

/-- The least amount that leaves `y` is at most any that leaves `y` or more. -/
theorem leastGross_le {one bps max x y : ℕ} (hone : 0 < one) (hbps : bps ≤ one)
    (h : y ≤ net one bps max x) : leastGross one bps max y ≤ x := by
  unfold leastGross
  split
  case isTrue hwhole =>
    rw [hwhole, net_whole hone] at h
    split <;> omega
  case isFalse hwhole =>
    exact (gross_le_iff (Nat.lt_of_le_of_ne hbps hwhole)).mpr h

section Calculators

variable {x y : UInt64} {fee : Option TransferFee}

/-- What is left of an amount under the fee of a mint, if it takes one. -/
def postFee (fee : Option TransferFee) (x : UInt64) : Option UInt64 :=
  fee.elim (some x) fun f => calculatePostFeeAmount f x

def preFee (fee : Option TransferFee) (y : UInt64) : Option UInt64 :=
  fee.elim (some y) fun f => calculatePreFeeAmount f y

/-- The amount worked back leaves the amount it was worked back from. -/
theorem postFee_of_preFee
    (hfee : ∀ f ∈ fee, f.transferFeeBasisPoints.toNat ≤ maxFeeBasisPoints)
    (h : preFee fee y = some x) : postFee fee x = some y := by
  cases fee with
  | none => exact h.symm
  | some f =>
    have hbps := hfee f rfl
    have hpre := (calculatePreFeeAmount_eq_some hbps).mp h
    refine (calculatePostFeeAmount_eq_some hbps).mpr ?_
    rw [← hpre]
    exact (isLeast_leastGross (by decide) hbps _ _).1

/-- It is at most any amount that leaves as much. -/
theorem preFee_le {z z' : UInt64}
    (hfee : ∀ f ∈ fee, f.transferFeeBasisPoints.toNat ≤ maxFeeBasisPoints)
    (hpost : postFee fee z = some z') (hle : y ≤ z') (h : preFee fee y = some x) : x ≤ z := by
  cases fee with
  | none =>
    obtain rfl := Option.some.inj hpost
    obtain rfl := Option.some.inj h
    exact hle
  | some f =>
    have hbps := hfee f rfl
    have hpost := (calculatePostFeeAmount_eq_some hbps).mp hpost
    have hpre := (calculatePreFeeAmount_eq_some hbps).mp h
    rw [UInt64.le_iff_toNat_le] at hle ⊢
    rw [← hpre]
    exact leastGross_le (by decide) hbps (hpost ▸ hle)

theorem getPostFeeAmountLd_eq_ok {ctx : Token.Context} {σ : Ledger} {mint : Pubkey} :
    getPostFeeAmountLd ctx σ mint x = .ok y ↔
      ∃ fee, epochFee ctx σ mint = .ok fee ∧ postFee fee x = some y := by
  rw [getPostFeeAmountLd, bind_eq_ok]
  refine exists_congr fun fee => and_congr_right fun _ => ?_
  cases fee with
  | none => simp [postFee]
  | some f => exact okOr_eq_ok

theorem getPreFeeAmountLd_eq_ok {ctx : Token.Context} {σ : Ledger} {mint : Pubkey} :
    getPreFeeAmountLd ctx σ mint y = .ok x ↔
      ∃ fee, epochFee ctx σ mint = .ok fee ∧ preFee fee y = some x := by
  rw [getPreFeeAmountLd, bind_eq_ok]
  refine exists_congr fun fee => and_congr_right fun _ => ?_
  cases fee with
  | none => simp [preFee]
  | some f => exact okOr_eq_ok

end Calculators

/-! ## The fee of the program -/

section OftFee

variable {s : OFTStore} {g : UInt64} {feeBps : Option UInt16}

/-- Below 100% the narrowing to 64 bits loses nothing. -/
theorem toNat_calculateFee {bps : UInt16}
    (hbps : (feeBps.getD bps).toNat < maxFeeBasisPoints) :
    (calculateFee g bps feeBps).toNat = g.toNat * (feeBps.getD bps).toNat / maxFeeBasisPoints := by
  unfold calculateFee
  simp only
  split
  case isTrue hzero =>
    rw [Bool.or_eq_true, beq_iff_eq, beq_iff_eq] at hzero
    rcases hzero with hzero | hzero
    · rw [hzero, Nat.mul_zero]
      rfl
    · rw [hzero]
      simp
  case isFalse =>
    have hle : g.toNat * (feeBps.getD bps).toNat / maxFeeBasisPoints ≤ g.toNat :=
      Nat.div_le_of_le_mul
        ((Nat.mul_le_mul_left _ hbps.le).trans (Nat.mul_comm _ _).le)
    exact UInt64.toNat_ofNat_of_lt' (hle.trans_lt g.toNat_lt)

theorem calculateFee_le_self {bps : UInt16}
    (hbps : (feeBps.getD bps).toNat < maxFeeBasisPoints) : calculateFee g bps feeBps ≤ g := by
  rw [UInt64.le_iff_toNat_le, toNat_calculateFee hbps]
  exact Nat.div_le_of_le_mul ((Nat.mul_le_mul_left _ hbps.le).trans (Nat.mul_comm _ _).le)

theorem OFTStore.removeDust_le (s : OFTStore) (x : UInt64) : s.removeDust x ≤ x := by
  rw [UInt64.le_iff_toNat_le, toNat_removeDust]
  exact Nat.div_mul_le_self _ _

/-- The fee without its dust comes off without an underflow. -/
theorem minus_oftFee_ne_panic (hbps : (feeBps.getD s.defaultFeeBps).toNat < maxFeeBasisPoints) :
    minus g (s.removeDust (calculateFee g s.defaultFeeBps feeBps)) ≠ .error .panic := by
  refine minus_ne_panic (UInt64.le_iff_toNat_le.mp ?_)
  exact UInt64.le_trans (s.removeDust_le _) (calculateFee_le_self hbps)

/-- What an amount without dust comes to in shared decimals and back. -/
theorem OFTStore.sd2ld_ld2sd {x : UInt64} (h : s.ld2sdRate.toNat ∣ x.toNat) :
    s.sd2ld (s.ld2sd x) = .ok x :=
  times_eq_ok.mpr (ld2sd_mul h).symm

end OftFee

/-! ## The amounts -/

section Amounts

variable {ctx : Token.Context} {σ : Ledger} {s : OFTStore} {amount sent received oftFee : UInt64}
  {feeBps : Option UInt16}

/-- The amount without dust, and what becomes of it. -/
theorem computeFeeAndAdjustAmount_split
    (h : computeFeeAndAdjustAmount ctx σ amount s feeBps = .ok (sent, received, oftFee)) :
    ∃ g, s.ld2sdRate.toNat ∣ g.toNat ∧
      oftFee = s.removeDust (calculateFee g s.defaultFeeBps feeBps) ∧
      received.toNat + oftFee.toNat = g.toNat ∧
      (s.oftType = .adapter → ∃ fee post, epochFee ctx σ s.tokenMint = .ok fee ∧
        postFee fee amount = some post ∧ g = s.removeDust post ∧ preFee fee g = some sent) ∧
      (s.oftType = .native → g = sent ∧ sent = s.removeDust amount) := by
  unfold computeFeeAndAdjustAmount at h
  cases htype : s.oftType with
  | adapter =>
    simp only [htype, bind_eq_ok, own_eq_ok, pure_eq_ok, Prod.mk.injEq] at h
    obtain ⟨post, hpost, sent', hsent, received', hreceived, rfl, rfl, rfl⟩ := h
    obtain ⟨fee, hfee, hpost⟩ := getPostFeeAmountLd_eq_ok.mp hpost
    obtain ⟨fee', hfee', hsent⟩ := getPreFeeAmountLd_eq_ok.mp hsent
    obtain rfl := Except.ok.inj (hfee.symm.trans hfee')
    exact ⟨_, s.rate_dvd_removeDust post, rfl, minus_eq_ok.mp hreceived,
      fun _ => ⟨fee, post, hfee, hpost, rfl, hsent⟩, OFTType.noConfusion⟩
  | native =>
    simp only [htype, bind_eq_ok, own_eq_ok, pure_eq_ok, Prod.mk.injEq] at h
    obtain ⟨received', hreceived, rfl, rfl, rfl⟩ := h
    exact ⟨_, s.rate_dvd_removeDust amount, rfl, minus_eq_ok.mp hreceived,
      OFTType.noConfusion, fun _ => ⟨rfl, rfl⟩⟩

/-- No operation of the function panics. -/
theorem computeFeeAndAdjustAmount_ne_panic
    (hbps : (feeBps.getD s.defaultFeeBps).toNat < maxFeeBasisPoints) :
    computeFeeAndAdjustAmount ctx σ amount s feeBps ≠ .error (.oft .panic) := by
  have hepoch : epochFee ctx σ s.tokenMint ≠ .error (.oft .panic) := by
    apply bind_ne_error (invoke_ne_oft _ _)
    intro _ _
    exact ok_ne_error
  have hminus : ∀ g, own (minus g (s.removeDust (calculateFee g s.defaultFeeBps feeBps))) ≠
      .error (.oft .panic) := fun g => own_ne_oft (minus_oftFee_ne_panic hbps)
  have helim : ∀ (fee : Option TransferFee) (x : UInt64) (f : TransferFee → Option UInt64),
      fee.elim (.ok x) (fun fee => okOr (.invoked .invalidArgument) (f fee)) ≠
        Except.error (Failure.oft .panic) := by
    intro fee x f
    cases fee with
    | none => exact ok_ne_error
    | some fee => exact okOr_ne_error (by decide) _
  unfold computeFeeAndAdjustAmount
  split
  · apply bind_ne_error
    · apply bind_ne_error hepoch
      intro fee _
      exact helim fee _ _
    intro post _
    apply bind_ne_error
    · apply bind_ne_error hepoch
      intro fee _
      exact helim fee _ _
    intro sent _
    apply bind_ne_error (hminus _)
    intro _ _
    exact ok_ne_error
  · apply bind_ne_error (hminus _)
    intro _ _
    exact ok_ne_error

/-- No more is sent than offered, what is received and the fee have no dust and together make
what arrives, and what is received survives the shared decimals. Every number is the one that
unbounded arithmetic gives, and nothing panics. -/
theorem oft_amounts (ctx : Token.Context) (σ : Ledger) (amount : UInt64) (s : OFTStore)
    (feeBps : Option UInt16)
    (hbps : (feeBps.getD s.defaultFeeBps).toNat < maxFeeBasisPoints)
    (hfee : ∀ fee, epochFee ctx σ s.tokenMint = .ok (some fee) →
      fee.transferFeeBasisPoints.toNat ≤ maxFeeBasisPoints) :
    (∀ sent received oftFee,
      computeFeeAndAdjustAmount ctx σ amount s feeBps = .ok (sent, received, oftFee) →
        sent ≤ amount ∧ s.ld2sdRate.toNat ∣ received.toNat ∧ s.ld2sdRate.toNat ∣ oftFee.toNat ∧
        (s.oftType = .adapter → ∃ post, getPostFeeAmountLd ctx σ s.tokenMint sent = .ok post ∧
          received.toNat + oftFee.toNat = post.toNat) ∧
        (s.oftType = .native → received.toNat + oftFee.toNat = sent.toNat) ∧
        s.sd2ld (s.ld2sd received) = .ok received ∧
        oftFee.toNat = (received.toNat + oftFee.toNat) * (feeBps.getD s.defaultFeeBps).toNat /
          maxFeeBasisPoints / s.ld2sdRate.toNat * s.ld2sdRate.toNat) ∧
      computeFeeAndAdjustAmount ctx σ amount s feeBps ≠ .error (.oft .panic) := by
  refine ⟨?_, computeFeeAndAdjustAmount_ne_panic hbps⟩
  intro sent received oftFee h
  obtain ⟨g, hdust, rfl, hsum, hadapter, hnative⟩ := computeFeeAndAdjustAmount_split h
  have hfeeDust := s.rate_dvd_removeDust (calculateFee g s.defaultFeeBps feeBps)
  have hreceived : s.ld2sdRate.toNat ∣ received.toNat := by
    rw [← hsum] at hdust
    exact (Nat.dvd_add_left hfeeDust).mp hdust
  refine ⟨?_, hreceived, hfeeDust, ?_, ?_, OFTStore.sd2ld_ld2sd hreceived, ?_⟩
  · cases htype : s.oftType with
    | adapter =>
      obtain ⟨fee, post, hepoch, hpost, rfl, hpre⟩ := hadapter htype
      have hbound : ∀ f ∈ fee, f.transferFeeBasisPoints.toNat ≤ maxFeeBasisPoints :=
        fun f hf => hfee f (hf ▸ hepoch)
      exact preFee_le hbound hpost (s.removeDust_le post) hpre
    | native =>
      obtain ⟨_, rfl⟩ := hnative htype
      exact s.removeDust_le amount
  · intro htype
    obtain ⟨fee, post, hepoch, _, _, hpre⟩ := hadapter htype
    have hbound : ∀ f ∈ fee, f.transferFeeBasisPoints.toNat ≤ maxFeeBasisPoints :=
      fun f hf => hfee f (hf ▸ hepoch)
    exact ⟨g, getPostFeeAmountLd_eq_ok.mpr ⟨fee, hepoch, postFee_of_preFee hbound hpre⟩, hsum⟩
  · intro htype
    rw [hsum, (hnative htype).1]
  · rw [hsum, OFTStore.toNat_removeDust, toNat_calculateFee hbps]

/-- An adapter of a mint with a fee of one percent: of 5057 tokens 5050 are sent, which leave
5000, and 100 of these are the fee. -/
def adapterStore : OFTStore where
  oftType := .adapter
  ld2sdRate := 100
  tokenMint := 1
  tokenEscrow := 3
  tvlLd := 0
  admin := 9
  defaultFeeBps := 200
  paused := false
  pauser := none
  unpauser := none
  rate_pos := by decide

theorem oft_amounts_bridge :
    computeFeeAndAdjustAmount .plain bridgeLedger 5057 adapterStore none = .ok (5050, 4900, 100) ∧
      adapterStore.sd2ld (adapterStore.ld2sd 4900) = .ok 4900 ∧
      computeFeeAndAdjustAmount .plain bridgeLedger 5057 adapterStore none ≠
        .error (.oft .panic) := by
  have hfee : ∀ fee, epochFee .plain bridgeLedger adapterStore.tokenMint = .ok (some fee) →
      fee.transferFeeBasisPoints.toNat ≤ maxFeeBasisPoints := by
    intro fee hfee
    have hall : ((toOption (epochFee .plain bridgeLedger adapterStore.tokenMint)).bind id).all
        (fun fee => decide (fee.transferFeeBasisPoints.toNat ≤ maxFeeBasisPoints)) = true := by
      decide +kernel
    rw [hfee] at hall
    exact of_decide_eq_true hall
  have hrun : toOption (computeFeeAndAdjustAmount .plain bridgeLedger 5057 adapterStore none) =
      some (5050, 4900, 100) := by decide +kernel
  have hok := toOption_eq_some.mp hrun
  obtain ⟨hamounts, hpanic⟩ :=
    oft_amounts .plain bridgeLedger 5057 adapterStore none (by decide) hfee
  obtain ⟨_, _, _, _, _, hshared, _⟩ := hamounts _ _ _ hok
  exact ⟨hok, hshared, hpanic⟩

end Amounts

end SolanaEasy.Oft
