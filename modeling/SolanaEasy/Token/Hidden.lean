import SolanaEasy.Token.Effect
import Mathlib.Tactic.LinearCombination

/-!
# Hidden — what the updates do to hidden amounts

Under a reading an update of a ciphertext is an addition, and the proofs of the
instruction say what is added: the same number for every party, and one that is
small. One lemma for every update of a balance, a withheld fee or a supply.
-/

namespace SolanaEasy.Token

open Processor CiphertextArithmetic ConfidentialTransfer

section Hidden

variable {l : ℕ} {rt : Runtime} (R : Reading l rt) {ctx : Context} {σ : Ledger}

/-! ## Two halves -/

theorem Reading.pt_shifted {a c : PodElGamalCiphertext} (k : PodElGamalPubkey)
    (h : multiply rt shiftScalar a = some c) : R.pt k c = 2 ^ 16 * R.pt k a := by
  rw [R.pt_mul k (by omega) h]
  norm_num

theorem Reading.pt_addWithLoHi {a lo hi c : PodElGamalCiphertext} (k : PodElGamalPubkey)
    (h : addWithLoHi rt a lo hi = some c) : R.pt k c = R.pt k a + R.halves k lo hi := by
  simp only [addWithLoHi, Option.bind_eq_bind, Option.bind_eq_some_iff] at h
  obtain ⟨shifted, hshifted, combined, hcombined, h⟩ := h
  rw [R.pt_add k h, R.pt_add k hcombined, R.pt_shifted k hshifted, halves]

theorem Reading.pt_subtractWithLoHi {a lo hi c : PodElGamalCiphertext} (k : PodElGamalPubkey)
    (h : subtractWithLoHi rt a lo hi = some c) : R.pt k c = R.pt k a - R.halves k lo hi := by
  simp only [subtractWithLoHi, Option.bind_eq_bind, Option.bind_eq_some_iff] at h
  obtain ⟨shifted, hshifted, combined, hcombined, h⟩ := h
  rw [R.pt_sub k h, R.pt_add k hcombined, R.pt_shifted k hshifted, halves]

/-! ## Grouped ciphertexts -/

namespace PodGroupedElGamalCiphertext3Handles

/-- The ciphertext under the first key. -/
def underFirst (c : PodGroupedElGamalCiphertext3Handles) : PodElGamalCiphertext :=
  ⟨c.commitment, c.first⟩

def underSecond (c : PodGroupedElGamalCiphertext3Handles) : PodElGamalCiphertext :=
  ⟨c.commitment, c.second⟩

@[simp] theorem tryExtractCiphertext_zero (c : PodGroupedElGamalCiphertext3Handles) :
    c.tryExtractCiphertext 0 = .ok c.underFirst := rfl

@[simp] theorem tryExtractCiphertext_one (c : PodGroupedElGamalCiphertext3Handles) :
    c.tryExtractCiphertext 1 = .ok c.underSecond := rfl

end PodGroupedElGamalCiphertext3Handles

namespace PodGroupedElGamalCiphertext2Handles

def underFirst (c : PodGroupedElGamalCiphertext2Handles) : PodElGamalCiphertext :=
  ⟨c.commitment, c.first⟩

def underSecond (c : PodGroupedElGamalCiphertext2Handles) : PodElGamalCiphertext :=
  ⟨c.commitment, c.second⟩

@[simp] theorem tryExtractCiphertext_zero (c : PodGroupedElGamalCiphertext2Handles) :
    c.tryExtractCiphertext 0 = .ok c.underFirst := rfl

@[simp] theorem tryExtractCiphertext_one (c : PodGroupedElGamalCiphertext2Handles) :
    c.tryExtractCiphertext 1 = .ok c.underSecond := rfl

end PodGroupedElGamalCiphertext2Handles

/-! ## Range proofs -/

variable {R}

theorem agrees_getElem? {α : Type} [BEq α] [LawfulBEq α] {proved expected : List α}
    (h : agrees proved expected = true) (hlen : expected.length ≤ proved.length) {i : ℕ} {x : α}
    (hx : expected[i]? = some x) : proved[i]? = some x := by
  obtain ⟨hi, rfl⟩ := List.getElem?_eq_some_iff.mp hx
  have hmem : (proved[i], expected[i]) ∈ proved.zip expected :=
    List.mem_iff_getElem.mpr ⟨i, by simp; omega, by simp⟩
  have hsame := List.all_eq_true.mp h _ hmem
  rw [List.getElem?_eq_getElem (by omega)]
  exact congrArg some (eq_of_beq hsame)

/-- The number a range proof shows at one place. -/
theorem Reading.InRange.at {c : BatchedRangeProofContext} (h : R.InRange c) {i : ℕ}
    {p : PodPedersenCommitment} {b : UInt8} (hp : c.commitments.toList[i]? = some p)
    (hb : c.bitLengths.toList[i]? = some b) : ∃ n : ℕ, n < 2 ^ b.toNat ∧ R.val p = n := by
  refine h p b (List.mem_iff_getElem?.mpr ⟨i, ?_⟩)
  rw [List.getElem?_zip_eq_some]
  exact ⟨hp, hb⟩

/-- A number in two halves of 16 and 32 bits. -/
theorem short_of_halves {lo hi : ℕ} (hlo : lo < 2 ^ 16) (hhi : hi < 2 ^ 32) :
    lo + 2 ^ 16 * hi < 2 ^ 49 := by
  omega

/-! ## Amounts that were proved -/

/-- The number `x` that two keys read in a grouped amount, and what is left of the balance it
is taken from, or what the supply it joins has become. -/
structure Reading.Shows (R : Reading l rt) (lo hi : PodGroupedElGamalCiphertext3Handles)
    (first second balanceKey : PodElGamalPubkey) (balance : PodElGamalCiphertext) (x : ℕ) :
    Prop where
  short : x < 2 ^ 49
  small : Small (R.pt balanceKey balance)
  first : R.halves first lo.underFirst hi.underFirst = x
  second : R.halves second lo.underSecond hi.underSecond = x

theorem AmountProof.verify_ok {p : AmountProof} {k : PodElGamalPubkey} (h : p.verify k = .ok ()) :
    p.equality.pubkey = k ∧
      agrees p.range.commitments.toList [p.equality.commitment,
        p.validity.groupedCiphertextLo.commitment, p.validity.groupedCiphertextHi.commitment] =
        true ∧
      agrees p.range.bitLengths.toList [64, 16, 32, 16] = true := by
  simp only [verify, bind_eq_ok, failIf_eq_ok, exists_unit, bne_eq_false_iff_eq,
    Bool.not_eq_false'] at h
  exact h

theorem takeAmountProof_ok {sysvarFirst : Bool} {eo vo ro : Int} {as as' : List AccountInfo}
    {p : AmountProof} (h : takeAmountProof ctx σ sysvarFirst eo vo ro as = .ok (p, as')) :
    Attested .ciphertextCommitmentEquality ctx σ p.equality ∧
      Attested .batchedGroupedCiphertext3HandlesValidity ctx σ p.validity ∧
      Attested .batchedRangeProofU128 ctx σ p.range := by
  simp only [takeAmountProof, bind_eq_ok, pure_eq_ok, Prod.exists, Prod.mk.injEq] at h
  obtain ⟨_, _, _, _, _, hequality, _, _, hvalidity, _, _, hrange, rfl, _⟩ := h
  exact ⟨⟨_, _, _, _, hequality⟩, ⟨_, _, _, _, hvalidity⟩, ⟨_, _, _, _, hrange⟩⟩

/-- Two halves that a key reads, one of 16 and one of 32 bits. -/
structure Reading.Parts (R : Reading l rt) (k : PodElGamalPubkey) (lo hi : PodElGamalCiphertext)
    (a b : ℕ) : Prop where
  lo_lt : a < 2 ^ 16
  hi_lt : b < 2 ^ 32
  lo : R.pt k lo = a
  hi : R.pt k hi = b

theorem Reading.Parts.halves {k : PodElGamalPubkey} {lo hi : PodElGamalCiphertext} {a b : ℕ}
    (h : R.Parts k lo hi a b) : R.halves k lo hi = (a + 2 ^ 16 * b : ℕ) := by
  rw [Reading.halves, h.lo, h.hi]
  simp only [Nat.cast_add, Nat.cast_mul, Nat.cast_pow, Nat.cast_ofNat]

theorem takeAmountProof_parts (hR : R.Sound ctx σ) {sysvarFirst : Bool} {eo vo ro : Int}
    {as as' : List AccountInfo} {p : AmountProof} {k : PodElGamalPubkey}
    (h : takeAmountProof ctx σ sysvarFirst eo vo ro as = .ok (p, as'))
    (hv : p.verify k = .ok ()) :
    p.equality.pubkey = k ∧ Small (R.pt p.equality.pubkey p.equality.ciphertext) ∧ ∃ a b,
      R.Parts p.validity.firstPubkey p.validity.groupedCiphertextLo.underFirst
          p.validity.groupedCiphertextHi.underFirst a b ∧
        R.Parts p.validity.secondPubkey p.validity.groupedCiphertextLo.underSecond
          p.validity.groupedCiphertextHi.underSecond a b := by
  obtain ⟨hequality, hvalidity, hrange⟩ := takeAmountProof_ok h
  obtain ⟨hkey, hcommitments, hbits⟩ := p.verify_ok hv
  have hin := hR.range128 _ hrange
  have hshown : ∀ (i : ℕ) (b : UInt8) q, ([p.equality.commitment,
      p.validity.groupedCiphertextLo.commitment, p.validity.groupedCiphertextHi.commitment][i]? =
        some q) →
      ([64, 16, 32, 16] : List UInt8)[i]? = some b → ∃ n : ℕ, n < 2 ^ b.toNat ∧ R.val q = n :=
    fun i b q hq hb => hin.at
      (agrees_getElem? hcommitments (by simp [p.range.commitments.length_eq]) hq)
      (agrees_getElem? hbits (by simp [p.range.bitLengths.length_eq]) hb)
  obtain ⟨rest, hrest, hval⟩ := hshown 0 64 _ rfl rfl
  obtain ⟨lo, hlo, hvalLo⟩ := hshown 1 16 _ rfl rfl
  obtain ⟨hi, hhi, hvalHi⟩ := hshown 2 32 _ rfl rfl
  obtain ⟨⟨hlo₁, hlo₂, _⟩, hhi₁, hhi₂, _⟩ := hR.validity3 _ hvalidity
  exact ⟨hkey, ⟨rest, hrest, (hR.equality _ hequality).trans hval⟩, lo, hi,
    ⟨hlo, hhi, hlo₁.trans hvalLo, hhi₁.trans hvalHi⟩,
    ⟨hlo, hhi, hlo₂.trans hvalLo, hhi₂.trans hvalHi⟩⟩

theorem takeAmountProof_shows (hR : R.Sound ctx σ) {sysvarFirst : Bool} {eo vo ro : Int}
    {as as' : List AccountInfo} {p : AmountProof} {k : PodElGamalPubkey}
    (h : takeAmountProof ctx σ sysvarFirst eo vo ro as = .ok (p, as'))
    (hv : p.verify k = .ok ()) :
    p.equality.pubkey = k ∧ ∃ x, R.Shows p.validity.groupedCiphertextLo
      p.validity.groupedCiphertextHi p.validity.firstPubkey p.validity.secondPubkey
      p.equality.pubkey p.equality.ciphertext x := by
  obtain ⟨hkey, hsmall, a, b, hfirst, hsecond⟩ := takeAmountProof_parts hR h hv
  exact ⟨hkey, a + 2 ^ 16 * b, short_of_halves hfirst.lo_lt hfirst.hi_lt, hsmall, hfirst.halves,
    hsecond.halves⟩

theorem verifyTransferProof_shows (hR : R.Sound ctx σ) {eo vo ro : Int}
    {as as' : List AccountInfo} {p : TransferProofContext}
    (h : verifyTransferProof ctx σ eo vo ro as = .ok (p, as')) :
    ∃ x, R.Shows p.ciphertextLo p.ciphertextHi p.source p.destination p.source
      p.newSourceCiphertext x := by
  simp only [verifyTransferProof, TransferProofContext.verifyAndExtract, bind_eq_ok, pure_eq_ok,
    Prod.exists, Prod.mk.injEq, exists_unit] at h
  obtain ⟨q, _, htake, _, ⟨hverify, rfl⟩, rfl, _⟩ := h
  obtain ⟨hkey, x, hx⟩ := takeAmountProof_shows hR htake hverify
  exact ⟨x, hx.short, hx.small, hkey ▸ hx.first, hx.second⟩

theorem verifyTransferProof_parts (hR : R.Sound ctx σ) {eo vo ro : Int}
    {as as' : List AccountInfo} {p : TransferProofContext}
    (h : verifyTransferProof ctx σ eo vo ro as = .ok (p, as')) :
    ∃ a b, R.Parts p.destination p.ciphertextLo.underSecond p.ciphertextHi.underSecond a b := by
  simp only [verifyTransferProof, TransferProofContext.verifyAndExtract, bind_eq_ok, pure_eq_ok,
    Prod.exists, Prod.mk.injEq, exists_unit] at h
  obtain ⟨q, _, htake, _, ⟨hverify, rfl⟩, rfl, _⟩ := h
  obtain ⟨_, _, a, b, _, hsecond⟩ := takeAmountProof_parts hR htake hverify
  exact ⟨a, b, hsecond⟩

theorem verifyMintProof_shows (hR : R.Sound ctx σ) {eo vo ro : Int} {as as' : List AccountInfo}
    {p : MintProofContext} (h : verifyMintProof ctx σ eo vo ro as = .ok (p, as')) :
    ∃ x, R.Shows p.mintAmountCiphertextLo p.mintAmountCiphertextHi p.destination p.supply
      p.supply p.newSupplyCiphertext x := by
  simp only [verifyMintProof, MintProofContext.verifyAndExtract, bind_eq_ok, pure_eq_ok,
    Prod.exists, Prod.mk.injEq, exists_unit] at h
  obtain ⟨q, _, htake, _, ⟨hverify, rfl⟩, rfl, _⟩ := h
  obtain ⟨hkey, x, hx⟩ := takeAmountProof_shows hR htake hverify
  exact ⟨x, hx.short, hx.small, hx.first, hkey ▸ hx.second⟩

theorem verifyMintProof_parts (hR : R.Sound ctx σ) {eo vo ro : Int} {as as' : List AccountInfo}
    {p : MintProofContext} (h : verifyMintProof ctx σ eo vo ro as = .ok (p, as')) :
    ∃ a b, R.Parts p.destination p.mintAmountCiphertextLo.underFirst
      p.mintAmountCiphertextHi.underFirst a b := by
  simp only [verifyMintProof, MintProofContext.verifyAndExtract, bind_eq_ok, pure_eq_ok,
    Prod.exists, Prod.mk.injEq, exists_unit] at h
  obtain ⟨q, _, htake, _, ⟨hverify, rfl⟩, rfl, _⟩ := h
  obtain ⟨_, _, a, b, hfirst, _⟩ := takeAmountProof_parts hR htake hverify
  exact ⟨a, b, hfirst⟩

theorem verifyBurnProof_shows (hR : R.Sound ctx σ) {eo vo ro : Int} {as as' : List AccountInfo}
    {p : BurnProofContext} (h : verifyBurnProof ctx σ eo vo ro as = .ok (p, as')) :
    ∃ x, R.Shows p.burnAmountCiphertextLo p.burnAmountCiphertextHi p.source p.supply p.source
      p.remainingBalanceCiphertext x := by
  simp only [verifyBurnProof, BurnProofContext.verifyAndExtract, bind_eq_ok, pure_eq_ok,
    Prod.exists, Prod.mk.injEq, exists_unit] at h
  obtain ⟨q, _, htake, _, ⟨hverify, rfl⟩, rfl, _⟩ := h
  obtain ⟨hkey, x, hx⟩ := takeAmountProof_shows hR htake hverify
  exact ⟨x, hx.short, hx.small, hkey ▸ hx.first, hx.second⟩

theorem verifyWithdrawProof_small (hR : R.Sound ctx σ) {eo ro : Int} {as as' : List AccountInfo}
    {p : WithdrawProofContext} (h : verifyWithdrawProof ctx σ eo ro as = .ok (p, as')) :
    Small (R.pt p.sourcePubkey p.remainingBalanceCiphertext) := by
  simp only [verifyWithdrawProof, WithdrawProofContext.verifyAndExtract, bind_eq_ok, pure_eq_ok,
    Prod.exists, Prod.mk.injEq, exists_unit, failIf_eq_ok, bne_eq_false_iff_eq] at h
  obtain ⟨_, _, _, equality, _, hequality, range, _, hrange, _, ⟨hcommitment, hbits, rfl⟩,
      rfl, _⟩ := h
  rw [List.head?_eq_getElem?] at hcommitment hbits
  obtain ⟨n, hn, hval⟩ := (hR.range64 range ⟨_, _, _, _, hrange⟩).at hcommitment hbits
  exact ⟨n, hn, (hR.equality equality ⟨_, _, _, _, hequality⟩).trans hval⟩

/-! ## Amounts with a fee -/

theorem pt_combine {lo hi c : PodRistrettoPoint} (h : combineLoHiPedersenPoints rt lo hi = .ok c) :
    R.val c = R.val lo + 2 ^ 16 * R.val hi := by
  simp only [combineLoHiPedersenPoints, curve, bind_eq_ok, okOr_eq_ok] at h
  obtain ⟨scaled, hscaled, h⟩ := h
  rw [R.val_add h, R.val_mul (by omega) hscaled]
  norm_num

/-- A transfer of `x` of which `fee` is withheld and `net` arrives. -/
structure Reading.ShowsFee (R : Reading l rt) (p : TransferWithFeeProofContext) (x fee net : ℕ) :
    Prop where
  shows : R.Shows p.ciphertextLo p.ciphertextHi p.source p.destination p.source
    p.newSourceCiphertext x
  short : fee < 2 ^ 49
  word : net < 2 ^ 64
  split : (x : ZMod l) = fee + net
  first : R.halves p.destination p.feeCiphertextLo.underFirst p.feeCiphertextHi.underFirst = fee
  second : R.halves p.withdrawWithheldAuthority p.feeCiphertextLo.underSecond
    p.feeCiphertextHi.underSecond = fee

/-- What the commitments of a transfer with fee open to: the eight numbers that the range
proof covers. -/
structure FeeOpenings where
  rest : ℕ
  lo : ℕ
  hi : ℕ
  claimed : ℕ
  complement : ℕ
  feeLo : ℕ
  feeHi : ℕ
  net : ℕ

namespace FeeOpenings

variable (o : FeeOpenings)

def amount : ℕ := o.lo + 2 ^ 16 * o.hi

def fee : ℕ := o.feeLo + 2 ^ 16 * o.feeHi

theorem amount_cast : (o.amount : ZMod l) = o.lo + 2 ^ 16 * o.hi := by
  simp only [amount, Nat.cast_add, Nat.cast_mul, Nat.cast_pow, Nat.cast_ofNat]

theorem fee_cast : (o.fee : ZMod l) = o.feeLo + 2 ^ 16 * o.feeHi := by
  simp only [fee, Nat.cast_add, Nat.cast_mul, Nat.cast_pow, Nat.cast_ofNat]

end FeeOpenings

structure FeeProof.Opens (R : Reading l rt) (p : FeeProof) (o : FeeOpenings) : Prop where
  rest : o.rest < 2 ^ 64 ∧ R.val p.equality.commitment = o.rest
  lo : o.lo < 2 ^ 16 ∧ R.val p.validity.groupedCiphertextLo.commitment = o.lo
  hi : o.hi < 2 ^ 32 ∧ R.val p.validity.groupedCiphertextHi.commitment = o.hi
  claimed : o.claimed < 2 ^ 16 ∧ R.val p.sigma.claimedCommitment = o.claimed
  complement : o.complement < 2 ^ 16 ∧ (9999 : ZMod l) - o.claimed = o.complement
  feeLo : o.feeLo < 2 ^ 16 ∧ R.val p.feeValidity.groupedCiphertextLo.commitment = o.feeLo
  feeHi : o.feeHi < 2 ^ 32 ∧ R.val p.feeValidity.groupedCiphertextHi.commitment = o.feeHi
  net : o.net < 2 ^ 64 ∧ (o.amount : ZMod l) - o.fee = o.net
  percentage : R.val p.sigma.percentageCommitment = o.fee

theorem FeeProof.expectedCommitments_ok {p : FeeProof} {expected : List PodPedersenCommitment}
    (h : p.expectedCommitments rt = .ok expected) :
    ∃ complement net, expected = [p.equality.commitment, p.validity.groupedCiphertextLo.commitment,
        p.validity.groupedCiphertextHi.commitment, p.sigma.claimedCommitment, complement,
        p.feeValidity.groupedCiphertextLo.commitment, p.feeValidity.groupedCiphertextHi.commitment,
        net] ∧
      R.val complement = 9999 - R.val p.sigma.claimedCommitment ∧
      R.val net = R.val p.validity.groupedCiphertextLo.commitment +
        2 ^ 16 * R.val p.validity.groupedCiphertextHi.commitment -
          R.val p.sigma.percentageCommitment := by
  simp only [expectedCommitments, bind_eq_ok, pure_eq_ok] at h
  obtain ⟨maxSubOne, hmax, complement, hcomplement, amount, hamount, net, hnet, rfl⟩ := h
  simp only [curve, okOr_eq_ok] at hmax hcomplement hnet
  refine ⟨complement, net, rfl, ?_, by rw [R.val_sub hnet, pt_combine hamount]⟩
  rw [R.val_sub hcomplement, R.val_mul (by omega) hmax, R.val_G]
  norm_num

/-- `10000 · fee - rate · amount` is the delta. -/
theorem verifyDeltaCommitment_ok {lo hi fee delta : PodPedersenCommitment} {bps : UInt16}
    (h : verifyDeltaCommitment rt lo hi fee delta bps = .ok ()) :
    R.val delta = 10000 * R.val fee - bps.toNat * (R.val lo + 2 ^ 16 * R.val hi) := by
  have hbps := bps.toNat_lt
  simp only [verifyDeltaCommitment, bind_eq_ok, failIf_eq_ok, bne_eq_false_iff_eq] at h
  obtain ⟨amount, hamount, scaledAmount, hscaled, scaledFee, hfee, expected, hexpected, rfl⟩ := h
  simp only [curve, okOr_eq_ok] at hscaled hfee hexpected
  rw [R.val_sub hexpected, R.val_mul (by omega) hfee, R.val_mul (by omega) hscaled,
    pt_combine hamount]
  norm_num

/-- The openings of contexts that are accepted. -/
theorem TransferWithFeeProofContext.verifyAndExtract_opens {p : FeeProof} {bps : UInt16}
    {max : UInt64} {t : TransferWithFeeProofContext} (hin : R.InRange p.range)
    (h : TransferWithFeeProofContext.verifyAndExtract rt p bps max = .ok t) :
    ∃ o, p.Opens R o ∧ p.sigma.maxValue = max ∧
      R.val p.sigma.deltaCommitment = 10000 * (o.fee : ZMod l) - bps.toNat * o.amount ∧
      p.equality.pubkey = p.validity.firstPubkey ∧
      p.validity.secondPubkey = p.feeValidity.firstPubkey ∧
      t = ⟨p.validity.groupedCiphertextLo, p.validity.groupedCiphertextHi, p.equality.pubkey,
        p.validity.secondPubkey, p.validity.thirdPubkey, p.feeValidity.secondPubkey,
        p.equality.ciphertext, p.feeValidity.groupedCiphertextLo,
        p.feeValidity.groupedCiphertextHi⟩ := by
  simp only [TransferWithFeeProofContext.verifyAndExtract, bind_eq_ok, pure_eq_ok, exists_unit,
    failIf_eq_ok, bne_eq_false_iff_eq, Bool.not_eq_false'] at h
  obtain ⟨hmax, hkeys, expected, hexpected, hcommitments, hbits, fee, hfee, hkey, hpercentage,
    hdelta, rfl⟩ := h
  obtain ⟨complement, net, rfl, hcomplement, hnet⟩ :=
    FeeProof.expectedCommitments_ok (R := R) hexpected
  have hshown : ∀ (i : ℕ) (b : UInt8) q, ([p.equality.commitment,
      p.validity.groupedCiphertextLo.commitment, p.validity.groupedCiphertextHi.commitment,
      p.sigma.claimedCommitment, complement, p.feeValidity.groupedCiphertextLo.commitment,
      p.feeValidity.groupedCiphertextHi.commitment, net][i]? = some q) →
      ([64, 16, 32, 16, 16, 16, 32, 64] : List UInt8)[i]? = some b →
      ∃ n : ℕ, n < 2 ^ b.toNat ∧ R.val q = n :=
    fun i b q hq hb => hin.at
      (agrees_getElem? hcommitments (by simp [p.range.commitments.length_eq]) hq)
      (agrees_getElem? hbits (by simp [p.range.bitLengths.length_eq]) hb)
  obtain ⟨rest, hrest⟩ := hshown 0 64 _ rfl rfl
  obtain ⟨lo, hlo⟩ := hshown 1 16 _ rfl rfl
  obtain ⟨hi, hhi⟩ := hshown 2 32 _ rfl rfl
  obtain ⟨claimed, hclaimed⟩ := hshown 3 16 _ rfl rfl
  obtain ⟨complement', hcomplement'⟩ := hshown 4 16 _ rfl rfl
  obtain ⟨feeLo, hfeeLo⟩ := hshown 5 16 _ rfl rfl
  obtain ⟨feeHi, hfeeHi⟩ := hshown 6 32 _ rfl rfl
  obtain ⟨net', hnet'⟩ := hshown 7 64 _ rfl rfl
  let o : FeeOpenings := ⟨rest, lo, hi, claimed, complement', feeLo, feeHi, net'⟩
  have hpercentageVal : R.val p.sigma.percentageCommitment = o.fee := by
    rw [← hpercentage, pt_combine hfee, hfeeLo.2, hfeeHi.2, o.fee_cast]
  refine ⟨o, ⟨hrest, hlo, hhi, hclaimed, ⟨hcomplement'.1, ?_⟩, hfeeLo, hfeeHi, ⟨hnet'.1, ?_⟩,
    hpercentageVal⟩, hmax.symm, ?_, hkey, hkeys, rfl⟩
  · rw [← hcomplement'.2, hcomplement, hclaimed.2]
  · rw [← hnet'.2, hnet, hpercentageVal, hlo.2, hhi.2, o.amount_cast]
  · rw [verifyDeltaCommitment_ok hdelta, hpercentageVal, hlo.2, hhi.2, o.amount_cast]

/-- What both parties of a transfer with fee, and who collects its fees, read in it. -/
theorem FeeProof.Opens.reads {p : FeeProof} {o : FeeOpenings} (h : p.Opens R o)
    (hvalidity : R.Valid3 p.validity.firstPubkey p.validity.secondPubkey p.validity.thirdPubkey
        p.validity.groupedCiphertextLo ∧
      R.Valid3 p.validity.firstPubkey p.validity.secondPubkey p.validity.thirdPubkey
        p.validity.groupedCiphertextHi)
    (hfee : R.Valid2 p.feeValidity.firstPubkey p.feeValidity.secondPubkey
        p.feeValidity.groupedCiphertextLo ∧
      R.Valid2 p.feeValidity.firstPubkey p.feeValidity.secondPubkey
        p.feeValidity.groupedCiphertextHi) :
    R.Parts p.validity.firstPubkey p.validity.groupedCiphertextLo.underFirst
        p.validity.groupedCiphertextHi.underFirst o.lo o.hi ∧
      R.Parts p.validity.secondPubkey p.validity.groupedCiphertextLo.underSecond
        p.validity.groupedCiphertextHi.underSecond o.lo o.hi ∧
      R.Parts p.feeValidity.firstPubkey p.feeValidity.groupedCiphertextLo.underFirst
        p.feeValidity.groupedCiphertextHi.underFirst o.feeLo o.feeHi ∧
      R.Parts p.feeValidity.secondPubkey p.feeValidity.groupedCiphertextLo.underSecond
        p.feeValidity.groupedCiphertextHi.underSecond o.feeLo o.feeHi := by
  obtain ⟨⟨hlo₁, hlo₂, _⟩, hhi₁, hhi₂, _⟩ := hvalidity
  obtain ⟨⟨hfeeLo₁, hfeeLo₂⟩, hfeeHi₁, hfeeHi₂⟩ := hfee
  have hlo := h.lo
  have hhi := h.hi
  have hfeeLo := h.feeLo
  have hfeeHi := h.feeHi
  refine ⟨⟨hlo.1, hhi.1, ?_, ?_⟩, ⟨hlo.1, hhi.1, ?_, ?_⟩, ⟨hfeeLo.1, hfeeHi.1, ?_, ?_⟩,
    ⟨hfeeLo.1, hfeeHi.1, ?_, ?_⟩⟩
  · exact hlo₁.trans hlo.2
  · exact hhi₁.trans hhi.2
  · exact hlo₂.trans hlo.2
  · exact hhi₂.trans hhi.2
  · exact hfeeLo₁.trans hfeeLo.2
  · exact hfeeHi₁.trans hfeeHi.2
  · exact hfeeLo₂.trans hfeeLo.2
  · exact hfeeHi₂.trans hfeeHi.2

/-- The openings, as they are read in what the proofs are combined to. -/
structure Reading.OpensFee (R : Reading l rt) (p : TransferWithFeeProofContext)
    (o : FeeOpenings) : Prop where
  small : Small (R.pt p.source p.newSourceCiphertext)
  net : o.net < 2 ^ 64 ∧ (o.amount : ZMod l) - o.fee = o.net
  source : R.Parts p.source p.ciphertextLo.underFirst p.ciphertextHi.underFirst o.lo o.hi
  destination : R.Parts p.destination p.ciphertextLo.underSecond p.ciphertextHi.underSecond
    o.lo o.hi
  fee : R.Parts p.destination p.feeCiphertextLo.underFirst p.feeCiphertextHi.underFirst
    o.feeLo o.feeHi
  collector : R.Parts p.withdrawWithheldAuthority p.feeCiphertextLo.underSecond
    p.feeCiphertextHi.underSecond o.feeLo o.feeHi

theorem verifyTransferWithFeeProof_opens (hR : R.Sound ctx σ) {o : FeeProofOffsets}
    {t : TransferFee} {as as' : List AccountInfo} {p : TransferWithFeeProofContext}
    (h : verifyTransferWithFeeProof rt ctx σ o t as = .ok (p, as')) : ∃ o, R.OpensFee p o := by
  simp only [verifyTransferWithFeeProof, bind_eq_ok, pure_eq_ok, Prod.exists,
    Prod.mk.injEq] at h
  obtain ⟨_, _, _, equality, _, hequality, validity, _, hvalidity, sigma, _, _, feeValidity, _,
    hfeeValidity, range, _, hrange, _, hextract, rfl, _⟩ := h
  obtain ⟨o, hopens, _, _, hkey, hkeys, rfl⟩ :=
    TransferWithFeeProofContext.verifyAndExtract_opens (hR.range256 _ ⟨_, _, _, _, hrange⟩) hextract
  obtain ⟨hsource, hdestination, hfee, hcollector⟩ := hopens.reads
    (hR.validity3 _ ⟨_, _, _, _, hvalidity⟩) (hR.validity2 _ ⟨_, _, _, _, hfeeValidity⟩)
  refine ⟨o, ⟨o.rest, hopens.rest.1, ?_⟩, hopens.net, hkey ▸ hsource, hdestination,
    hkeys ▸ hfee, hcollector⟩
  rw [hR.equality _ ⟨_, _, _, _, hequality⟩]
  exact hopens.rest.2

theorem verifyTransferWithFeeProof_showsFee (hR : R.Sound ctx σ) {o : FeeProofOffsets}
    {t : TransferFee} {as as' : List AccountInfo} {p : TransferWithFeeProofContext}
    (h : verifyTransferWithFeeProof rt ctx σ o t as = .ok (p, as')) :
    ∃ x fee net, R.ShowsFee p x fee net := by
  obtain ⟨o, ho⟩ := verifyTransferWithFeeProof_opens hR h
  refine ⟨o.amount, o.fee, o.net, ⟨short_of_halves ho.source.lo_lt ho.source.hi_lt, ho.small,
    ho.source.halves, ho.destination.halves⟩, short_of_halves ho.fee.lo_lt ho.fee.hi_lt, ho.net.1,
    ?_, ho.fee.halves, ho.collector.halves⟩
  rw [← ho.net.2]
  ring

/-! ## Balances -/

section Balances

variable {e e' : ConfidentialTransferAccount}

theorem incrementPendingBalanceCreditCounter_ok
    (h : e.incrementPendingBalanceCreditCounter = .ok e') :
    ∃ n, checkedAdd e.pendingBalanceCreditCounter 1 = some n ∧
      e' = { e with pendingBalanceCreditCounter := n } := by
  simp only [ConfidentialTransferAccount.incrementPendingBalanceCreditCounter, bind_eq_ok,
    okOr_eq_ok, pure_eq_ok] at h
  obtain ⟨n, hn, rfl⟩ := h
  exact ⟨n, hn, rfl⟩

/-- An account that may be closed has zeros for all its balances. -/
theorem closable_ok (h : e.closable = .ok ()) :
    e.pendingBalanceLo = .zeroed ∧ e.pendingBalanceHi = .zeroed ∧
      e.availableBalance = .zeroed := by
  rw [ConfidentialTransferAccount.closable] at h
  split at h
  · rename_i hzero
    simp only [Bool.and_eq_true, beq_iff_eq] at hzero
    exact ⟨hzero.1.1, hzero.1.2, hzero.2⟩
  · cases h

theorem pt_addPart {a c : PodElGamalCiphertext} {n : ℕ} (hn : n < 2 ^ 64) (k : PodElGamalPubkey)
    (h : addPart rt a n = .ok c) : R.pt k c = R.pt k a + n := by
  rw [addPart] at h
  split at h
  · simp only [arithmetic, okOr_eq_ok] at h
    exact R.pt_addTo k hn h
  · obtain rfl := Except.ok.inj h
    have hzero : n = 0 := by omega
    rw [hzero, Nat.cast_zero, add_zero]

/-- Units that pass from the open into the pending balance. -/
theorem deposited_reads {x : UInt64} (h : deposited rt x e = .ok e') :
    R.pending e' = R.pending e + x.toNat ∧ R.available e' = R.available e := by
  simp only [deposited, verifyAndSplitDepositAmount, bind_eq_ok, exists_unit, failIf_eq_ok,
    pure_eq_ok, Prod.exists, Prod.mk.injEq] at h
  obtain ⟨_, lo, hi, ⟨_, rfl, rfl⟩, pendingLo, hlo, pendingHi, hhi, h⟩ := h
  obtain ⟨_, _, rfl⟩ := incrementPendingBalanceCreditCounter_ok h
  have hx := x.toNat_lt
  refine ⟨?_, rfl⟩
  have hsplit : ((x.toNat : ℕ) : ZMod l) =
      ((x.toNat % 2 ^ 16 : ℕ) : ZMod l) + 2 ^ 16 * ((x.toNat / 2 ^ 16 : ℕ) : ZMod l) := by
    conv_lhs => rw [← Nat.mod_add_div x.toNat (2 ^ 16)]
    simp only [Nat.cast_add, Nat.cast_mul, Nat.cast_pow, Nat.cast_ofNat]
  rw [Reading.pending, Reading.pending, pt_addPart (by omega) _ hlo, pt_addPart (by omega) _ hhi,
    hsplit]
  ring

/-- Units that pass from the available balance into the open. -/
theorem withdrawn_reads (hR : R.Sound ctx σ) {x : UInt64} {b : PodAeCiphertext} {eo ro : Int}
    {as as' : List AccountInfo} {p : WithdrawProofContext}
    (proved : verifyWithdrawProof ctx σ eo ro as = .ok (p, as'))
    (h : withdrawn rt x p b e = .ok e') :
    R.pending e' = R.pending e ∧ R.available e = R.available e' + x.toNat ∧
      Small (R.available e') := by
  simp only [withdrawn, bind_eq_ok, exists_unit, failIf_eq_ok, bne_eq_false_iff_eq] at h
  obtain ⟨_, hkey, h⟩ := h
  have hx := x.toNat_lt
  -- zero is not subtracted, to spare the system call
  obtain ⟨a, hsub, hrest, rfl⟩ : ∃ a, R.pt e.elgamalPubkey a = R.available e - x.toNat ∧
      a = p.remainingBalanceCiphertext ∧
        { e with availableBalance := a, decryptableAvailableBalance := b } = e' := by
    split at h
    · simp only [arithmetic, bind_eq_ok, okOr_eq_ok, failIf_eq_ok, bne_eq_false_iff_eq,
        exists_unit, pure_eq_ok] at h
      obtain ⟨a, ha, hrest, rfl⟩ := h
      exact ⟨a, R.pt_subtractFrom _ hx ha, hrest, rfl⟩
    · rename_i hzero
      simp only [ok_bind, bind_eq_ok, failIf_eq_ok, bne_eq_false_iff_eq, exists_unit,
        pure_eq_ok] at h
      obtain ⟨hrest, rfl⟩ := h
      obtain rfl : x = 0 := by simpa [UInt64.pos_iff_ne_zero] using hzero
      exact ⟨_, by simp [Reading.available], hrest, rfl⟩
  refine ⟨rfl, ?_, ?_⟩
  · rw [show R.available { e with availableBalance := a, decryptableAvailableBalance := b } = _
      from hsub]
    ring
  · rw [Reading.available]
    simp only [hkey, hrest]
    exact verifyWithdrawProof_small hR proved

section Shows

variable {lo hi : PodGroupedElGamalCiphertext3Handles} {first second balanceKey : PodElGamalPubkey}
  {balance : PodElGamalCiphertext} {x : ℕ}

/-- What a transfer takes from the available balance. -/
theorem debited_reads {b : PodAeCiphertext} (hx : R.Shows lo hi first second first balance x)
    (h : debited rt first lo hi balance b e = .ok e') :
    R.pending e' = R.pending e ∧ R.available e = R.available e' + x ∧ Small (R.available e') := by
  simp only [debited, bind_eq_ok, exists_unit, failIf_eq_ok, bne_eq_false_iff_eq, pure_eq_ok,
    PodGroupedElGamalCiphertext3Handles.tryExtractCiphertext_zero, Except.ok.injEq,
    exists_eq_left', arithmetic, okOr_eq_ok] at h
  obtain ⟨_, hkey, a, ha, rfl, rfl⟩ := h
  have hsub := R.pt_subtractWithLoHi e.elgamalPubkey ha
  rw [← hkey, hx.first, hkey] at hsub
  refine ⟨rfl, ?_, ?_⟩
  · rw [show R.available { e with availableBalance := a, decryptableAvailableBalance := b } = _
      from hsub, Reading.available]
    ring
  · rw [Reading.available]
    simp only [← hkey]
    exact hx.small

/-- What a transfer adds to the pending balance. -/
theorem credited_reads (hx : R.Shows lo hi first second balanceKey balance x)
    (h : credited rt second lo hi e = .ok e') :
    R.pending e' = R.pending e + x ∧ R.available e' = R.available e ∧
      e'.elgamalPubkey = second := by
  simp only [credited, bind_eq_ok, exists_unit, failIf_eq_ok, bne_eq_false_iff_eq,
    PodGroupedElGamalCiphertext3Handles.tryExtractCiphertext_one, Except.ok.injEq,
    exists_eq_left', arithmetic, okOr_eq_ok] at h
  obtain ⟨_, hkey, pendingLo, hlo, pendingHi, hhi, h⟩ := h
  obtain ⟨_, _, rfl⟩ := incrementPendingBalanceCreditCounter_ok h
  refine ⟨?_, rfl, hkey.symm⟩
  have hsecond := hx.second
  rw [Reading.halves, hkey] at hsecond
  rw [Reading.pending, Reading.pending, R.pt_add _ hlo, R.pt_add _ hhi, ← hsecond]
  ring

end Shows

/-- A fee that leaves the pending balance and is withheld under another key. -/
theorem feeWithheld_reads {p : TransferWithFeeProofContext} {x fee net : ℕ}
    {y y' : ConfidentialTransferFeeAmount} (hp : R.ShowsFee p x fee net)
    (hkey : e.elgamalPubkey = p.destination) (h : FeeWithheld rt p e e' y y') :
    R.pending e' + fee = R.pending e ∧ R.available e' = R.available e ∧
      R.pt p.withdrawWithheldAuthority y'.withheldAmount =
        R.pt p.withdrawWithheldAuthority y.withheldAmount + fee := by
  obtain ⟨lo, hi, lo', hi', pendingLo, pendingHi, withheld, hlo, hhi, hpendingLo, hpendingHi, hlo',
    hhi', hwithheld, rfl, rfl⟩ := h
  rw [PodGroupedElGamalCiphertext2Handles.tryExtractCiphertext_zero, Except.ok.injEq] at hlo hhi
  rw [PodGroupedElGamalCiphertext2Handles.tryExtractCiphertext_one, Except.ok.injEq] at hlo' hhi'
  subst hlo hhi hlo' hhi'
  refine ⟨?_, rfl, ?_⟩
  · have hfirst := hp.first
    rw [Reading.halves, ← hkey] at hfirst
    rw [Reading.pending, Reading.pending, R.pt_sub _ hpendingLo, R.pt_sub _ hpendingHi, ← hfirst]
    ring
  · rw [R.pt_addWithLoHi _ hwithheld, hp.second]

/-- A withdrawn fee joins the available balance. -/
theorem feeCredited_reads {err : ProgramError} {c : PodElGamalCiphertext} {b : PodAeCiphertext}
    (h : ConfidentialTransferFee.feeCredited rt err c b e = .ok e') :
    R.pending e' = R.pending e ∧ R.available e' = R.available e + R.pt e.elgamalPubkey c := by
  simp only [ConfidentialTransferFee.feeCredited, bind_eq_ok, okOr_eq_ok, pure_eq_ok] at h
  obtain ⟨a, ha, rfl⟩ := h
  exact ⟨rfl, R.pt_add _ ha⟩

/-- The pending balance joins the available one. -/
theorem pendingApplied_reads {n : UInt64} {b : PodAeCiphertext}
    (h : pendingApplied rt n b e = .ok e') :
    R.pending e' = 0 ∧ R.available e' = R.available e + R.pending e := by
  simp only [pendingApplied, arithmetic, bind_eq_ok, okOr_eq_ok, pure_eq_ok] at h
  obtain ⟨a, ha, rfl⟩ := h
  refine ⟨?_, R.pt_addWithLoHi _ ha⟩
  rw [Reading.pending]
  simp only [R.pt_zeroed]
  ring

/-- An account is emptied only of nothing. -/
theorem emptied_reads {p : ZeroCiphertextProofContext} (hR : R.Sound ctx σ)
    (proved : Attested .zeroCiphertext ctx σ p) (h : emptied p e = .ok e') :
    R.pending e' = R.pending e ∧ R.available e = 0 ∧ R.available e' = 0 := by
  simp only [emptied, bind_eq_ok, exists_unit, failIf_eq_ok, bne_eq_false_iff_eq,
    pure_eq_ok] at h
  obtain ⟨hkey, hbalance, _, rfl⟩ := h
  refine ⟨rfl, ?_, R.pt_zeroed _⟩
  rw [Reading.available, hkey, hbalance]
  exact hR.zero p proved

theorem configured_reads (R : Reading l rt) (a : PodBool) (k : PodElGamalPubkey)
    (b : PodAeCiphertext) (n : UInt64) :
    R.pending (configuredAccount a k b n) = 0 ∧ R.available (configuredAccount a k b n) = 0 := by
  refine ⟨?_, R.pt_zeroed _⟩
  rw [Reading.pending]
  simp only [configuredAccount, R.pt_zeroed]
  ring

end Balances

/-! ## Supplies -/

section Supplies

variable {e e' : ConfidentialTransferAccount} {u u' : ConfidentialMintBurn}

theorem mintedTo_reads {t : ConfidentialTransferMint} {p : MintProofContext}
    {i : ConfidentialMintBurn.InstructionData} {x : ℕ}
    (hx : R.Shows p.mintAmountCiphertextLo p.mintAmountCiphertextHi p.destination p.supply
      p.supply p.newSupplyCiphertext x) (h : ConfidentialMintBurn.mintedTo rt t p i e = .ok e') :
    R.pending e' = R.pending e + x ∧ R.available e' = R.available e := by
  simp only [ConfidentialMintBurn.mintedTo, bind_eq_ok, exists_unit, failIf_eq_ok,
    bne_eq_false_iff_eq, PodGroupedElGamalCiphertext3Handles.tryExtractCiphertext_zero,
    Except.ok.injEq, exists_eq_left', arithmetic, okOr_eq_ok] at h
  obtain ⟨_, hkey, _, _, pendingLo, hlo, pendingHi, hhi, h⟩ := h
  obtain ⟨_, _, rfl⟩ := incrementPendingBalanceCreditCounter_ok h
  refine ⟨?_, rfl⟩
  have hfirst := hx.first
  rw [Reading.halves, hkey] at hfirst
  rw [Reading.pending, Reading.pending, R.pt_add _ hlo, R.pt_add _ hhi, ← hfirst]
  ring

theorem burnedFrom_reads {p : BurnProofContext} {i : ConfidentialMintBurn.InstructionData} {x : ℕ}
    (hx : R.Shows p.burnAmountCiphertextLo p.burnAmountCiphertextHi p.source p.supply p.source
      p.remainingBalanceCiphertext x) (h : ConfidentialMintBurn.burnedFrom rt p i e = .ok e') :
    R.pending e' = R.pending e ∧ R.available e = R.available e' + x ∧ Small (R.available e') := by
  simp only [ConfidentialMintBurn.burnedFrom, bind_eq_ok, exists_unit, failIf_eq_ok,
    bne_eq_false_iff_eq, pure_eq_ok,
    PodGroupedElGamalCiphertext3Handles.tryExtractCiphertext_zero, Except.ok.injEq,
    exists_eq_left', arithmetic, okOr_eq_ok] at h
  obtain ⟨_, hkey, _, a, ha, rfl, rfl⟩ := h
  have hsub := R.pt_subtractWithLoHi e.elgamalPubkey ha
  rw [← hkey, hx.first, hkey] at hsub
  refine ⟨rfl, ?_, ?_⟩
  · rw [show R.available { e with
        availableBalance := p.remainingBalanceCiphertext
        decryptableAvailableBalance := i.newDecryptableBalance } = _ from hsub, Reading.available]
    ring
  · rw [Reading.available]
    simp only [← hkey]
    exact hx.small

/-- The recorded supply, under its own key. -/
def Reading.supply (R : Reading l rt) (u : ConfidentialMintBurn) : ZMod l :=
  R.pt u.supplyElgamalPubkey u.confidentialSupply

/-- What is recorded as burned. -/
def Reading.burned (R : Reading l rt) (u : ConfidentialMintBurn) : ZMod l :=
  R.pt u.supplyElgamalPubkey u.pendingBurn

theorem supplyMinted_reads {p : MintProofContext} {i : ConfidentialMintBurn.InstructionData}
    {x : ℕ} (hx : R.Shows p.mintAmountCiphertextLo p.mintAmountCiphertextHi p.destination p.supply
      p.supply p.newSupplyCiphertext x)
    (h : ConfidentialMintBurn.supplyMinted rt p i u = .ok u') :
    R.supply u' = R.supply u + x ∧ Small (R.supply u') ∧ R.burned u' = R.burned u := by
  simp only [ConfidentialMintBurn.supplyMinted, bind_eq_ok, exists_unit, failIf_eq_ok,
    bne_eq_false_iff_eq, pure_eq_ok, mapErr_eq_ok,
    PodGroupedElGamalCiphertext3Handles.tryExtractCiphertext_one, Except.ok.injEq,
    exists_eq_left', arithmetic, okOr_eq_ok] at h
  obtain ⟨hkey, s, hs, rfl, rfl⟩ := h
  have hadd := R.pt_addWithLoHi u.supplyElgamalPubkey hs
  rw [hkey, hx.second, ← hkey] at hadd
  refine ⟨hadd, ?_, rfl⟩
  rw [Reading.supply]
  simp only [hkey]
  exact hx.small

theorem supplyBurned_reads {t : ConfidentialTransferMint} {p : BurnProofContext} {x : ℕ}
    (hx : R.Shows p.burnAmountCiphertextLo p.burnAmountCiphertextHi p.source p.supply p.source
      p.remainingBalanceCiphertext x)
    (h : ConfidentialMintBurn.supplyBurned rt t p u = .ok u') :
    R.burned u' = R.burned u + x ∧ R.supply u' = R.supply u := by
  simp only [ConfidentialMintBurn.supplyBurned, bind_eq_ok, exists_unit, failIf_eq_ok,
    bne_eq_false_iff_eq, pure_eq_ok, mapErr_eq_ok,
    PodGroupedElGamalCiphertext3Handles.tryExtractCiphertext_one, Except.ok.injEq,
    exists_eq_left', arithmetic, okOr_eq_ok] at h
  obtain ⟨_, hkey, n, hn, rfl⟩ := h
  have hadd := R.pt_addWithLoHi u.supplyElgamalPubkey hn
  rw [hkey, hx.second, ← hkey] at hadd
  exact ⟨hadd, rfl⟩

theorem burnApplied_reads (h : ConfidentialMintBurn.burnApplied rt u = .ok u') :
    R.supply u' = R.supply u - R.burned u ∧ R.burned u' = 0 := by
  simp only [ConfidentialMintBurn.burnApplied, arithmetic, bind_eq_ok, okOr_eq_ok,
    pure_eq_ok] at h
  obtain ⟨s, hs, rfl⟩ := h
  exact ⟨R.pt_sub _ hs, R.pt_zeroed _⟩

/-- The supply is re-encrypted only when nothing is recorded as burned. -/
theorem checkRotation_reads (hR : R.Sound ctx σ) {p : CiphertextCiphertextEqualityProofContext}
    (proved : Attested .ciphertextCiphertextEquality ctx σ p)
    (h : ConfidentialMintBurn.checkRotation p u = .ok ()) :
    R.pt p.secondPubkey p.secondCiphertext = R.supply u ∧ R.burned u = 0 ∧
      R.pt p.secondPubkey u.pendingBurn = 0 := by
  simp only [ConfidentialMintBurn.checkRotation, bind_eq_ok, exists_unit, failIf_eq_ok,
    bne_eq_false_iff_eq] at h
  obtain ⟨hkey, hsupply, hburn⟩ := h
  have hzero : u.pendingBurn = .zeroed := hburn
  refine ⟨?_, ?_, ?_⟩
  · rw [← hR.ciphertexts p proved, Reading.supply, hkey, hsupply]
  · rw [Reading.burned, hzero, R.pt_zeroed]
  · rw [hzero, R.pt_zeroed]

end Supplies

/-! ## Mints -/

/-- The hidden supply that is not recorded as burned. -/
def MintCore.outstanding (R : Reading l rt) (m : MintCore) : ZMod l :=
  (m.mintBurn.map fun u => R.supply u - R.burned u).getD 0

theorem MintCore.outstanding_of_mintBurn {m : MintCore} {u : ConfidentialMintBurn}
    (h : m.mintBurn = some u) : m.outstanding R = R.supply u - R.burned u := by
  rw [outstanding, h]
  rfl

/-- Outside of trades nothing is made or destroyed in secret. -/
theorem MintEffect.outstanding_eq {c : Call} {M : Pubkey} {m m' : View PodMint}
    (hR : R.Sound c.ctx c.σ) (h : MintEffect rt c M m m') :
    m'.mintCore.outstanding R = m.mintCore.outstanding R := by
  -- a change of the hidden supply that keeps what is outstanding
  have hkeep : ∀ {u u' : ConfidentialMintBurn}, m.mintCore.mintBurn = some u →
      m'.mintCore = { m.mintCore with mintBurn := some u' } →
      R.supply u' - R.burned u' = R.supply u - R.burned u →
      m'.mintCore.outstanding R = m.mintCore.outstanding R := by
    intro u u' config core hsame
    rw [MintCore.outstanding_of_mintBurn (congrArg MintCore.mintBurn core :),
      MintCore.outstanding_of_mintBurn config, hsame]
  cases h with
  | quiet core | rewrite _ core | withheld core | secretFees _ core | setFee _ _ _ _ core
  | pause _ _ core =>
    exact (congrArg (MintCore.outstanding R) core :)
  | rotate config proved checked core =>
    obtain ⟨hsupply, hburned, hburned'⟩ := checkRotation_reads hR proved checked
    refine hkeep config core ?_
    rw [Reading.supply, Reading.burned, hsupply, hburned, hburned']
  | restate config core => exact hkeep config core rfl
  | applyBurn config update core =>
    obtain ⟨hsupply, hburned⟩ := burnApplied_reads (R := R) update
    refine hkeep config core ?_
    rw [hsupply, hburned, sub_zero]

/-! ## Transfers -/

/-- Withheld fees under the key `k`. -/
def Reading.fees (R : Reading l rt) (k : PodElGamalPubkey)
    (y : Option ConfidentialTransferFeeAmount) : ZMod l :=
  (y.map fun a => R.pt k a.withheldAmount).getD 0

/-- The mint keeps its hidden fees, if it has any, under the key `k`. -/
def MintCore.FeeKey (m : MintCore) (k : PodElGamalPubkey) : Prop :=
  ∀ k' x, m.secretFees = some (k', x) → k' = k

/-- A transfer of `x` that credits `net` and withholds `fee`. -/
structure Reading.Moves (R : Reading l rt) (m : View PodMint)
    (e e' g g' : ConfidentialTransferAccount) (y y' : Option ConfidentialTransferFeeAmount)
    (x fee net : ℕ) : Prop where
  short : x < 2 ^ 49
  shortFee : fee < 2 ^ 49
  word : net < 2 ^ 64
  split : (x : ZMod l) = fee + net
  still : R.pending e' = R.pending e
  debit : R.available e = R.available e' + x
  small : Small (R.available e')
  credit : R.pending g' = R.pending g + net
  still' : R.available g' = R.available g
  withheld : ∀ k, m.mintCore.FeeKey k → R.fees k y' = R.fees k y + fee

variable {c : Call}

theorem SecretlyMoved.reads (hR : R.Sound c.ctx c.σ) {m : View PodMint} {self : Bool}
    {e e' g g' : ConfidentialTransferAccount} {y y' : Option ConfidentialTransferFeeAmount}
    (h : SecretlyMoved rt c m self e e' g g' y y') :
    ∃ x fee net, R.Moves m e e' g g' y y' x fee net := by
  -- where nothing is withheld, all of it arrives
  have hwhole : ∀ {x lo hi first second balance b}, R.Shows lo hi first second first balance x →
      debited rt first lo hi balance b e = .ok e' → credited rt second lo hi g = .ok g' →
      y' = y → ∃ x fee net, R.Moves m e e' g g' y y' x fee net := by
    rintro x lo hi first second balance b hx hdebit hcredit rfl
    obtain ⟨hstill, hdebit, hsmall⟩ := debited_reads hx hdebit
    obtain ⟨hcredit, hstill', _⟩ := credited_reads hx hcredit
    have hshort := hx.short
    exact ⟨x, 0, x, hshort, by omega, by omega, by simp, hstill, hdebit, hsmall, hcredit, hstill',
      fun _ _ => by simp⟩
  cases h with
  | plain free proved debit credit =>
    obtain ⟨x, hx⟩ := verifyTransferProof_shows hR proved
    exact hwhole hx debit credit rfl
  | selfWithFee config proved debit credit itself =>
    obtain ⟨x, fee, net, hx⟩ := verifyTransferWithFeeProof_showsFee hR proved
    exact hwhole hx.shows debit credit rfl
  | withFee config feeConfig proved key debit credit other withheld =>
    obtain ⟨x, fee, net, hx⟩ := verifyTransferWithFeeProof_showsFee hR proved
    obtain ⟨hstill, hdebit, hsmall⟩ := debited_reads hx.shows debit
    obtain ⟨hcredit, hstill', hkey⟩ := credited_reads hx.shows credit
    obtain ⟨hfee, hstill'', hwithheld⟩ := feeWithheld_reads hx hkey withheld
    refine ⟨x, fee, net, hx.shows.short, hx.short, hx.word, hx.split, hstill, hdebit, hsmall, ?_,
      hstill''.trans hstill', fun k hk => ?_⟩
    · rw [hcredit, hx.split] at hfee
      linear_combination hfee
    · obtain rfl := hk _ _ (View.mintCore_secretFees_of_get feeConfig)
      simp only [Reading.fees, Option.map_some, Option.getD_some]
      rw [← key]
      exact hwithheld

/-! ## Accounts -/

/-- Pending and available together, of an account that may have neither. -/
def Core.hidden (R : Reading l rt) (a : Core) : ZMod l := (a.secret.map R.balance).getD 0

theorem Core.hidden_of_secret {a : Core} {e : ConfidentialTransferAccount}
    (h : a.secret = some e) : a.hidden R = R.balance e := by
  rw [hidden, h]
  rfl

/-- An update that keeps what the balances of an account add up to. -/
theorem Core.hidden_of_balance {a a' : Core} {e e' : ConfidentialTransferAccount}
    (secret : a.secret = some e) (secret' : a'.secret = some e')
    (h : R.balance e' = R.balance e) : a'.hidden R = a.hidden R := by
  rw [hidden_of_secret secret, hidden_of_secret secret', h]

theorem Core.hidden_congr {a a' : Core} (h : a'.secret = a.secret) :
    a'.hidden R = a.hidden R := by
  rw [hidden, h, hidden]

/-- Outside of trades hidden balances change only where withheld fees are paid out. -/
theorem Effect.hidden_eq {β : Book} {k : Pubkey} {v v' : View PodAccount}
    (hR : R.Sound c.ctx c.σ) (h : Effect rt c β k v v') :
    v'.core.hidden R = v.core.hidden R ∨
      c.instruction.collects = true ∧ v.base.isFrozen = false := by
  cases h with
  | secretCollect collects thawed => exact .inr ⟨collects, thawed⟩
  | quiet core | allowance _ _ _ _ core | owner _ _ _ _ core | closer _ _ core | state _ _ _ core
  | lock _ _ core | native _ _ _ core | harvest core | collect _ _ _ core | secretHarvest _ core =>
    exact .inl (Core.hidden_congr (congrArg Core.secret core :))
  | @configure m a key b n y _ mint confidential chosen new fees core =>
    obtain ⟨hpending, havailable⟩ := configured_reads R a key b n
    left
    rw [Core.hidden_of_secret (congrArg Core.secret core :), Reading.balance, hpending,
      havailable, Core.hidden, new]
    exact add_zero 0
  | setting secret core =>
    exact .inl (Core.hidden_of_balance secret (congrArg Core.secret core :) rfl)
  | emptied secret proved update core =>
    obtain ⟨hpending, hbefore, hafter⟩ := emptied_reads hR proved update
    refine .inl (Core.hidden_of_balance secret (congrArg Core.secret core :) ?_)
    rw [Reading.balance, Reading.balance, hpending, hbefore, hafter]
  | apply _ secret endorsed update core =>
    obtain ⟨hpending, havailable⟩ := pendingApplied_reads (R := R) update
    refine .inl (Core.hidden_of_balance secret (congrArg Core.secret core :) ?_)
    rw [Reading.balance, Reading.balance, hpending, havailable]
    ring

end Hidden

end SolanaEasy.Token
