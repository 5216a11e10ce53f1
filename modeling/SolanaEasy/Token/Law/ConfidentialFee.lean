import SolanaEasy.Token.Hidden
import SolanaEasy.Token.Honest

/-!
# Confidential fee — what an accepted transfer with fee withholds

The public rule for fees, recovered from commitments. Every relation between them is
between numbers far below the order of the field, so it holds of the numbers; and what the
percentage-with-cap proof leaves open is only whether the fee is capped.
-/

namespace SolanaEasy.Token

open Processor TransferFee

section Residues

variable {l : ℕ}

/-- Residues of small numbers are the numbers. -/
theorem eq_of_natCast_eq {a b : ℕ} (ha : a < l) (hb : b < l) (h : (a : ZMod l) = b) : a = b := by
  have hmod := (ZMod.natCast_eq_natCast_iff' a b l).mp h
  rwa [Nat.mod_eq_of_lt ha, Nat.mod_eq_of_lt hb] at hmod

end Residues

variable {l : ℕ} {rt : Runtime} {R : Reading l rt} {p : FeeProof} {o : FeeOpenings}

/-- What the five proofs of a transfer with fee state. -/
structure FeeProof.Holds (R : Reading l rt) (p : FeeProof) : Prop where
  equality : R.pt p.equality.pubkey p.equality.ciphertext = R.val p.equality.commitment
  validity : R.Valid3 p.validity.firstPubkey p.validity.secondPubkey p.validity.thirdPubkey
      p.validity.groupedCiphertextLo ∧
    R.Valid3 p.validity.firstPubkey p.validity.secondPubkey p.validity.thirdPubkey
      p.validity.groupedCiphertextHi
  sigma : R.val p.sigma.percentageCommitment = p.sigma.maxValue.toNat ∨
    R.val p.sigma.deltaCommitment = R.val p.sigma.claimedCommitment
  feeValidity : R.Valid2 p.feeValidity.firstPubkey p.feeValidity.secondPubkey
      p.feeValidity.groupedCiphertextLo ∧
    R.Valid2 p.feeValidity.firstPubkey p.feeValidity.secondPubkey
      p.feeValidity.groupedCiphertextHi
  range : R.InRange p.range

namespace FeeProof.Opens

/-- The net amount is what the fee leaves. -/
theorem split (hl : 2 ^ 65 ≤ l) (h : p.Opens R o) : o.amount = o.fee + o.net := by
  have hlo := h.lo.1
  have hhi := h.hi.1
  have hfeeLo := h.feeLo.1
  have hfeeHi := h.feeHi.1
  have hnet := h.net.1
  refine eq_of_natCast_eq (l := l) ?_ ?_ ?_
  · rw [FeeOpenings.amount]
    omega
  · rw [FeeOpenings.fee]
    omega
  · rw [Nat.cast_add, ← h.net.2]
    ring

theorem complements (hl : 2 ^ 65 ≤ l) (h : p.Opens R o) : o.claimed + o.complement = 9999 := by
  have hclaimed := h.claimed.1
  have hcomplement := h.complement.1
  refine eq_of_natCast_eq (l := l) (by omega) (by omega) ?_
  rw [Nat.cast_add, ← h.complement.2]
  push_cast
  ring

/-- A fee that is not capped is the percentage, rounded up. -/
theorem percentage_exact (hl : 2 ^ 65 ≤ l) (h : p.Opens R o) {bps : UInt16}
    (hdelta : R.val p.sigma.deltaCommitment =
      10000 * (o.fee : ZMod l) - bps.toNat * o.amount)
    (hsame : R.val p.sigma.deltaCommitment = R.val p.sigma.claimedCommitment) :
    10000 * o.fee = bps.toNat * o.amount + o.claimed := by
  have hbps := bps.toNat_lt
  have hlo := h.lo.1
  have hhi := h.hi.1
  have hfeeLo := h.feeLo.1
  have hfeeHi := h.feeHi.1
  have hclaimed := h.claimed.1
  have hamount : o.amount < 2 ^ 48 := by
    rw [FeeOpenings.amount]
    omega
  have hproduct : bps.toNat * o.amount ≤ 2 ^ 16 * 2 ^ 48 := Nat.mul_le_mul hbps.le hamount.le
  refine eq_of_natCast_eq (l := l) ?_ (by omega) ?_
  · rw [FeeOpenings.fee]
    omega
  · rw [hsame, h.claimed.2] at hdelta
    rw [Nat.cast_add, hdelta]
    push_cast
    ring

theorem amount_lt (h : p.Opens R o) : o.amount < 2 ^ 48 := by
  have hlo := h.lo.1
  have hhi := h.hi.1
  rw [FeeOpenings.amount]
  omega

theorem fee_lt (h : p.Opens R o) : o.fee < 2 ^ 48 := by
  have hlo := h.feeLo.1
  have hhi := h.feeHi.1
  rw [FeeOpenings.fee]
  omega

end FeeProof.Opens

/-- A fee that is the maximum, or the percentage, is enough. -/
theorem calculateFee_le {f : TransferFee} {amount fee : ℕ} (hamount : amount < 2 ^ 48)
    (hfee : fee = f.maximumFee.toNat ∨
      fee = ceilDiv (amount * f.transferFeeBasisPoints.toNat) maxFeeBasisPoints) :
    ∃ x, f.calculateFee (UInt64.ofNat amount) = some x ∧ x.toNat ≤ fee := by
  have hvalue : (UInt64.ofNat amount).toNat = amount :=
      UInt64.toNat_ofNat_of_lt' (show amount < 2 ^ 64 by omega)
  rw [TransferFee.calculateFee]
  split
  · exact ⟨0, rfl, Nat.zero_le _⟩
  · have hbps := f.transferFeeBasisPoints.toNat_lt
    have hproduct : amount * f.transferFeeBasisPoints.toNat ≤ 2 ^ 48 * 2 ^ 16 :=
      Nat.mul_le_mul hamount.le hbps.le
    have hraw : ceilDiv (amount * f.transferFeeBasisPoints.toNat) maxFeeBasisPoints ≤ 2 ^ 63 :=
      ceilDiv_le (by decide) (hproduct.trans (by decide))
    simp only [hvalue]
    rw [if_pos (by omega)]
    refine ⟨_, rfl, ?_⟩
    rw [UInt64.toNat_min, UInt64.toNat_ofNat_of_lt' (show _ < 2 ^ 64 by omega)]
    omega

/-- Whatever is accepted moves an amount below `2⁴⁸`, of which it withholds the maximum or
exactly the percentage rounded up, never less than `calculate_fee`; the rest arrives; and
what the commitments state modulo `l` holds of the numbers they hide. -/
theorem confidential_fee_sound (hl : 2 ^ 65 ≤ l) {f : TransferFee}
    {t : TransferWithFeeProofContext}
    (h : TransferWithFeeProofContext.verifyAndExtract rt p f.transferFeeBasisPoints f.maximumFee =
      .ok t)
    (holds : p.Holds R) :
    ∃ o, p.Opens R o ∧ o.amount < 2 ^ 48 ∧
      (o.fee = f.maximumFee.toNat ∨
        o.fee = ceilDiv (o.amount * f.transferFeeBasisPoints.toNat) maxFeeBasisPoints) ∧
      (∃ x, f.calculateFee (UInt64.ofNat o.amount) = some x ∧ x.toNat ≤ o.fee) ∧
      o.fee ≤ o.amount ∧
      R.halves t.source t.ciphertextLo.underFirst t.ciphertextHi.underFirst = o.amount ∧
      R.halves t.destination t.ciphertextLo.underSecond t.ciphertextHi.underSecond -
          R.halves t.destination t.feeCiphertextLo.underFirst t.feeCiphertextHi.underFirst =
        ((o.amount - o.fee : ℕ) : ZMod l) ∧
      R.halves t.withdrawWithheldAuthority t.feeCiphertextLo.underSecond
        t.feeCiphertextHi.underSecond = o.fee ∧
      R.pt t.source t.newSourceCiphertext = o.rest ∧
      o.amount = o.fee + o.net ∧ o.claimed + o.complement = 9999 ∧
      ∃ d : ℤ, R.val p.sigma.deltaCommitment = d ∧ 2 * |d| < l ∧
        10000 * (o.fee : ℤ) = f.transferFeeBasisPoints.toNat * o.amount + d ∧
        (o.fee ≠ f.maximumFee.toNat → d = o.claimed) := by
  obtain ⟨o, hopens, hmax, hdelta, hkey, hkeys, rfl⟩ :=
    TransferWithFeeProofContext.verifyAndExtract_opens holds.range h
  obtain ⟨hsource, hdestination, hfee, hcollector⟩ := hopens.reads holds.validity holds.feeValidity
  have hamount := hopens.amount_lt
  have hsplit := hopens.split hl
  have hcomplements := hopens.complements hl
  -- either the cap, or the claimed delta is the real one
  have hcases : o.fee = f.maximumFee.toNat ∨
      10000 * o.fee = f.transferFeeBasisPoints.toNat * o.amount + o.claimed := by
    refine holds.sigma.imp (fun hcap => ?_) fun hsame => hopens.percentage_exact hl hdelta hsame
    have hcapped := f.maximumFee.toNat_lt
    have hfeeLt := hopens.fee_lt
    refine eq_of_natCast_eq (l := l) (by omega) (by omega) ?_
    rw [← hopens.percentage, hcap, hmax]
  have hrule : o.fee = f.maximumFee.toNat ∨
      o.fee = ceilDiv (o.amount * f.transferFeeBasisPoints.toNat) maxFeeBasisPoints := by
    refine hcases.imp_right fun hexact => (ceilDiv_eq (r := o.claimed) ?_ ?_).symm
    · rw [maxFeeBasisPoints]
      omega
    · rw [maxFeeBasisPoints, Nat.mul_comm o.fee, Nat.mul_comm o.amount]
      exact hexact
  refine ⟨o, hopens, hamount, hrule, calculateFee_le hamount hrule, by omega,
    hkey ▸ hsource.halves, ?_, hcollector.halves, holds.equality.trans hopens.rest.2, hsplit,
    hcomplements, 10000 * o.fee - f.transferFeeBasisPoints.toNat * o.amount, ?_, ?_, by ring, ?_⟩
  · rw [hdestination.halves, hkeys, hfee.halves, Nat.cast_sub (by omega)]
    rfl
  · rw [hdelta]
    push_cast
    ring
  · have hbps := f.transferFeeBasisPoints.toNat_lt
    have hfeeLt := hopens.fee_lt
    have hproduct : f.transferFeeBasisPoints.toNat * o.amount < 2 ^ 16 * 2 ^ 48 :=
      Nat.mul_lt_mul_of_lt_of_lt hbps hamount
    have hcast : (f.transferFeeBasisPoints.toNat * o.amount : ℤ) < 2 ^ 64 := by
        exact_mod_cast hproduct
    have hnonneg : (0 : ℤ) ≤ f.transferFeeBasisPoints.toNat * o.amount :=
      mul_nonneg (Int.natCast_nonneg _) (Int.natCast_nonneg _)
    rcases abs_cases (10000 * (o.fee : ℤ) - f.transferFeeBasisPoints.toNat * o.amount) with h | h
    · omega
    · omega
  · intro hne
    have hexact := hcases.resolve_left hne
    have hcast : 10000 * (o.fee : ℤ) = f.transferFeeBasisPoints.toNat * o.amount + o.claimed := by
      exact_mod_cast hexact
    omega

/-! A transfer of 100, at one per cent, of which one is withheld, over the real order. -/

def centFee : TransferFee := ⟨0, 5, 100⟩

def centProof : FeeProof :=
  let point := pointOf ristrettoOrder
  { equality := ⟨3, ⟨point 7, 0⟩, point 7⟩
    validity := ⟨3, 4, 0, ⟨point 100, 0, 0, 0⟩, ⟨point 0, 0, 0, 0⟩⟩
    sigma := ⟨point 1, point 0, point 0, 5⟩
    feeValidity := ⟨4, 8, ⟨point 1, 0, 0⟩, ⟨point 0, 0, 0⟩⟩
    range := ⟨⟨[point 7, point 100, point 0, point 0, point 9999, point 1, point 0, point 99], rfl⟩,
      ⟨[64, 16, 32, 16, 16, 16, 32, 64], rfl⟩⟩ }

theorem confidential_fee_sound_cent :
    ∃ o, centProof.Opens (Reading.modular ristrettoOrder (by decide) (by decide)) o ∧
      o.fee ≤ o.amount ∧ (o.fee = 5 ∨ o.fee = ceilDiv (o.amount * 100) 10000) := by
  have hall : (centProof.range.commitments.toList.zip centProof.range.bitLengths.toList).all
      (fun x => residue ristrettoOrder x.1 < 2 ^ x.2.toNat) = true := by decide +kernel
  have hsmall := fun x hx => of_decide_eq_true (List.all_eq_true.mp hall x hx)
  have holds : centProof.Holds (Reading.modular ristrettoOrder (by decide) (by decide)) :=
    { equality := rfl
      validity := ⟨⟨rfl, rfl, rfl⟩, rfl, rfl, rfl⟩
      sigma := .inr rfl
      feeValidity := ⟨⟨rfl, rfl⟩, rfl, rfl⟩
      range := fun p b hmem => ⟨_, hsmall (p, b) hmem, rfl⟩ }
  have hsome : (toOption (TransferWithFeeProofContext.verifyAndExtract (.modular ristrettoOrder)
      centProof centFee.transferFeeBasisPoints centFee.maximumFee)).isSome = true := by
    decide +kernel
  obtain ⟨t, ht⟩ := Option.isSome_iff_exists.mp hsome
  obtain ⟨o, hopens, _, hrule, _, hle, _⟩ :=
    confidential_fee_sound (by decide) (toOption_eq_some.mp ht) holds
  exact ⟨o, hopens, hle, hrule⟩

end SolanaEasy.Token
