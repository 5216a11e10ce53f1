import SolanaEasy.Token.Confidential.Curve
import Mathlib.Data.Fin.VecNotation

/-!
# Proof generation — what a client builds before it sends

`confidential/proof-generation/src`. What the source draws at random, and the balance that
it decrypts with the AES key, are arguments. The proofs themselves are those of
`solana_zk_sdk`, which is not part of the repository: a `ProofSystem` stands for its
constructors and for the program that verifies what they return.
-/

namespace SolanaEasy.Token

open ElGamal

/-- `TokenProofGenerationError`. -/
inductive TokenProofGenerationError where
  | proofGeneration
  | notEnoughFunds
  | illegalAmountBitLength
  | feeCalculation
  | ciphertextExtraction
deriving DecidableEq, Repr

/-- A proof and the context it is about. -/
structure ProofData (U : Type) where
  contextData : U
  proof : Bytes

/-! ## The proof system -/

/-- `BatchedRangeProofU64Data::new` and its siblings: commitments, amounts, bit lengths,
openings. -/
abbrev RangeProver (F P : Type) :=
  List P → List UInt64 → List ℕ → List F → Option (ProofData BatchedRangeProofContext)

section Generation

variable {F P : Type} [CommRing F] [AddCommGroup P] [Module F P] {B : Bases P}

structure ProofSystem (F : Type) [CommRing F] [Module F P] (B : Bases P) where
  equality : Keypair F B → Ciphertext P → P → F → UInt64 →
    Option (ProofData CiphertextCommitmentEqualityProofContext)
  validity3 : (Fin 3 → P) → GroupedCiphertext 3 P → GroupedCiphertext 3 P → UInt64 → UInt64 →
    F → F → Option (ProofData BatchedGroupedCiphertext3HandlesValidityProofContext)
  validity2 : (Fin 2 → P) → GroupedCiphertext 2 P → GroupedCiphertext 2 P → UInt64 → UInt64 →
    F → F → Option (ProofData BatchedGroupedCiphertext2HandlesValidityProofContext)
  percentageWithCap : P → F → UInt64 → P → F → UInt64 → P → F → UInt64 →
    Option (ProofData PercentageWithCapProofContext)
  rangeU64 : RangeProver F P
  rangeU128 : RangeProver F P
  rangeU256 : RangeProver F P
  /-- The verifying program, on the bytes of a context and a proof. -/
  verify : ProofType → Bytes → Bytes → Bool

variable (Z : ProofSystem F B)

/-- The proof is accepted on chain. -/
def ProofSystem.Verifies {U : Type} [Pod U] (t : ProofType) (d : ProofData U) : Prop :=
  Z.verify t (Pod.toBytes d.contextData) d.proof = true

/-! ## Splitting and combining -/

def transferAmountLoBits : ℕ := 16
def transferAmountHiBits : ℕ := 32
def remainingBalanceBitLength : ℕ := 64
def rangeProofPaddingBitLength : ℕ := 16

/-- `try_split_u64`. -/
def trySplitU64 (amount : UInt64) (bitLength : ℕ) : Option (UInt64 × UInt64) :=
  if bitLength = 0 then some (0, amount)
  else if bitLength < 64 then
    let complement := UInt64.ofNat (64 - bitLength)
    some (amount <<< complement >>> complement, amount >>> UInt64.ofNat bitLength)
  else if bitLength = 64 then some (amount, 0)
  else none

/-- `1_u64.checked_shl(bit_length)`. -/
def twoPower (bitLength : ℕ) : Option ℕ :=
  if bitLength < 64 then some (2 ^ bitLength) else none

/-- `try_combine_lo_hi_ciphertexts`. -/
def tryCombineLoHiCiphertexts (F : Type) [CommRing F] [Module F P]
    (ciphertextLo ciphertextHi : Ciphertext P) (bitLength : ℕ) : Option (Ciphertext P) := do
  let power ← twoPower bitLength
  return ciphertextLo + (power : F) • ciphertextHi

/-- `try_combine_lo_hi_commitments`. -/
def tryCombineLoHiCommitments (F : Type) [CommRing F] [Module F P] (commLo commHi : P)
    (bitLength : ℕ) : Option P := do
  let power ← twoPower bitLength
  return commLo + (power : F) • commHi

/-- `try_combine_lo_hi_openings`. -/
def tryCombineLoHiOpenings (openingLo openingHi : F) (bitLength : ℕ) : Option F := do
  let power ← twoPower bitLength
  return openingLo + (power : F) * openingHi

/-! ## The proofs of an encrypted amount -/

/-- `CiphertextValidityProofWithAuditorCiphertext`. -/
structure CiphertextValidityProofWithAuditorCiphertext where
  proofData : ProofData BatchedGroupedCiphertext3HandlesValidityProofContext
  ciphertextLo : PodElGamalCiphertext
  ciphertextHi : PodElGamalCiphertext

/-- `TransferProofData`, `MintProofData` and `BurnProofData`. -/
structure AmountProofData where
  equalityProofData : ProofData CiphertextCommitmentEqualityProofContext
  ciphertextValidityProofDataWithCiphertext : CiphertextValidityProofWithAuditorCiphertext
  rangeProofData : ProofData BatchedRangeProofContext

/-- The openings drawn for the halves of an amount, the new balance and the padding. -/
structure AmountOpenings (F : Type) where
  lo : F
  hi : F
  balance : F
  padding : F

/-- `TransferAmountCiphertext::new`, `MintAmountCiphertext::new`, `BurnAmountCiphertext::new` and
`FeeCiphertext::new`. -/
def amountCiphertext (B : Bases P) {n : ℕ} (keys : Fin n → P) (amount : UInt64) (opening : F) :
    GroupedCiphertext n P :=
  B.encryptWith keys (amount.toNat : F) opening

/-- The validity proof, with the ciphertexts of the auditor taken out of its context. -/
def validityProofData (keys : Fin 3 → P) (amountLo amountHi : UInt64) (openingLo openingHi : F) :
    Except TokenProofGenerationError CiphertextValidityProofWithAuditorCiphertext := do
  let proofData ← okOr .proofGeneration (Z.validity3 keys
    (amountCiphertext B keys amountLo openingLo) (amountCiphertext B keys amountHi openingHi)
    amountLo amountHi openingLo openingHi)
  let ciphertextLo ← mapErr .ciphertextExtraction
    (proofData.contextData.groupedCiphertextLo.tryExtractCiphertext 2)
  let ciphertextHi ← mapErr .ciphertextExtraction
    (proofData.contextData.groupedCiphertextHi.tryExtractCiphertext 2)
  return ⟨proofData, ciphertextLo, ciphertextHi⟩

/-- What a transfer, a mint and a burn prove, once the new balance or supply is known. -/
def amountProofData (balanceKeypair : Keypair F B) (keys : Fin 3 → P)
    (newBalanceCiphertext : Ciphertext P) (newBalance amountLo amountHi : UInt64)
    (r : AmountOpenings F) : Except TokenProofGenerationError AmountProofData := do
  let newBalanceCommitment := B.commit (newBalance.toNat : F) r.balance
  let equality ← okOr .proofGeneration (Z.equality balanceKeypair newBalanceCiphertext
    newBalanceCommitment r.balance newBalance)
  let validity ← validityProofData Z keys amountLo amountHi r.lo r.hi
  let range ← okOr .proofGeneration (Z.rangeU128
    [newBalanceCommitment, (amountCiphertext B keys amountLo r.lo).commitment,
      (amountCiphertext B keys amountHi r.hi).commitment, B.commit 0 r.padding]
    [newBalance, amountLo, amountHi, 0]
    [remainingBalanceBitLength, transferAmountLoBits, transferAmountHiBits,
      rangeProofPaddingBitLength]
    [r.balance, r.lo, r.hi, r.padding])
  return ⟨equality, validity, range⟩

/-- `transfer_split_proof_data`. -/
def transferSplitProofData (currentAvailableBalance : Ciphertext P)
    (currentDecryptableAvailableBalance : Option UInt64) (transferAmount : UInt64)
    (sourceElgamalKeypair : Keypair F B) (destinationElgamalPubkey : P)
    (auditorElgamalPubkey : Option P) (r : AmountOpenings F) :
    Except TokenProofGenerationError AmountProofData := do
  let auditorElgamalPubkey := auditorElgamalPubkey.getD 0
  let keys := ![sourceElgamalKeypair.pubkey, destinationElgamalPubkey, auditorElgamalPubkey]
  let (transferAmountLo, transferAmountHi) ←
    okOr .illegalAmountBitLength (trySplitU64 transferAmount transferAmountLoBits)
  let groupedLo := amountCiphertext B keys transferAmountLo r.lo
  let groupedHi := amountCiphertext B keys transferAmountHi r.hi
  let currentDecryptedAvailableBalance ←
    okOr .illegalAmountBitLength currentDecryptableAvailableBalance
  let newDecryptedAvailableBalance ←
    okOr .notEnoughFunds (checkedSub currentDecryptedAvailableBalance transferAmount)
  let combined ← okOr .illegalAmountBitLength (tryCombineLoHiCiphertexts F
    (groupedLo.toElgamalCiphertext 0) (groupedHi.toElgamalCiphertext 0) transferAmountLoBits)
  amountProofData Z sourceElgamalKeypair keys (currentAvailableBalance - combined)
    newDecryptedAvailableBalance transferAmountLo transferAmountHi r

/-- `burn_split_proof_data`: the balance is subtracted from after the ciphertext. -/
def burnSplitProofData (currentAvailableBalanceCiphertext : Ciphertext P)
    (currentDecryptableAvailableBalance : Option UInt64) (burnAmount : UInt64)
    (sourceElgamalKeypair : Keypair F B) (supplyElgamalPubkey : P)
    (auditorElgamalPubkey : Option P) (r : AmountOpenings F) :
    Except TokenProofGenerationError AmountProofData := do
  let auditorElgamalPubkey := auditorElgamalPubkey.getD 0
  let keys := ![sourceElgamalKeypair.pubkey, supplyElgamalPubkey, auditorElgamalPubkey]
  let (burnAmountLo, burnAmountHi) ←
    okOr .illegalAmountBitLength (trySplitU64 burnAmount transferAmountLoBits)
  let groupedLo := amountCiphertext B keys burnAmountLo r.lo
  let groupedHi := amountCiphertext B keys burnAmountHi r.hi
  let currentDecryptedAvailableBalance ←
    okOr .illegalAmountBitLength currentDecryptableAvailableBalance
  let combined ← okOr .illegalAmountBitLength (tryCombineLoHiCiphertexts F
    (groupedLo.toElgamalCiphertext 0) (groupedHi.toElgamalCiphertext 0) transferAmountLoBits)
  let remainingBalance ←
    okOr .notEnoughFunds (checkedSub currentDecryptedAvailableBalance burnAmount)
  amountProofData Z sourceElgamalKeypair keys (currentAvailableBalanceCiphertext - combined)
    remainingBalance burnAmountLo burnAmountHi r

/-- `mint_split_proof_data`: the key of the supply is the second one. -/
def mintSplitProofData (currentSupplyCiphertext : Ciphertext P)
    (mintAmount currentSupply : UInt64) (supplyElgamalKeypair : Keypair F B)
    (destinationElgamalPubkey : P) (auditorElgamalPubkey : Option P) (r : AmountOpenings F) :
    Except TokenProofGenerationError AmountProofData := do
  let auditorElgamalPubkey := auditorElgamalPubkey.getD 0
  let keys := ![destinationElgamalPubkey, supplyElgamalKeypair.pubkey, auditorElgamalPubkey]
  let (mintAmountLo, mintAmountHi) ←
    okOr .illegalAmountBitLength (trySplitU64 mintAmount transferAmountLoBits)
  let groupedLo := amountCiphertext B keys mintAmountLo r.lo
  let groupedHi := amountCiphertext B keys mintAmountHi r.hi
  let combined ← okOr .illegalAmountBitLength (tryCombineLoHiCiphertexts F
    (groupedLo.toElgamalCiphertext 1) (groupedHi.toElgamalCiphertext 1) transferAmountLoBits)
  let newSupply ← okOr .illegalAmountBitLength (checkedAdd currentSupply mintAmount)
  amountProofData Z supplyElgamalKeypair keys (currentSupplyCiphertext + combined) newSupply
    mintAmountLo mintAmountHi r

/-! ## The proofs of a withdrawal -/

structure WithdrawProofData where
  equalityProofData : ProofData CiphertextCommitmentEqualityProofContext
  rangeProofData : ProofData BatchedRangeProofContext

/-- `withdraw_proof_data`; `opening` is drawn for the remaining balance. -/
def withdrawProofData (currentAvailableBalance : Ciphertext P)
    (currentBalance withdrawAmount : UInt64) (elgamalKeypair : Keypair F B) (opening : F) :
    Except TokenProofGenerationError WithdrawProofData := do
  let remainingBalance ← okOr .notEnoughFunds (checkedSub currentBalance withdrawAmount)
  let remainingBalanceCommitment := B.commit (remainingBalance.toNat : F) opening
  let remainingBalanceCiphertext :=
    currentAvailableBalance - B.encode (withdrawAmount.toNat : F)
  let equality ← okOr .proofGeneration (Z.equality elgamalKeypair remainingBalanceCiphertext
    remainingBalanceCommitment opening remainingBalance)
  let range ← okOr .proofGeneration (Z.rangeU64 [remainingBalanceCommitment]
    [remainingBalance] [remainingBalanceBitLength] [opening])
  return ⟨equality, range⟩

/-! ## The proofs of a transfer with fee -/

def maxFeeBasisPointsSubOne : ℕ := 9999
def oneInBasisPoints : ℕ := 10000
def deltaBitLength : ℕ := 16
def netTransferAmountBitLength : ℕ := 64

/-- The result of a checked operation on `u128`. -/
def u128 (n : ℕ) : Option ℕ := if n < 2 ^ 128 then some n else none

/-- `calculate_fee`: the percentage rounded up, and how far it was rounded. -/
def calculateFee (transferAmount : UInt64) (feeRateBasisPoints : UInt16) :
    Option (UInt64 × UInt64) := do
  let numerator ← u128 (transferAmount.toNat * feeRateBasisPoints.toNat)
  let padded ← u128 (numerator + oneInBasisPoints)
  let fee := (padded - 1) / oneInBasisPoints
  let scaled ← u128 (fee * oneInBasisPoints)
  let deltaFee ← if numerator ≤ scaled then some (scaled - numerator) else none
  return (UInt64.ofNat fee, UInt64.ofNat deltaFee)

/-- `compute_delta_commitment_and_opening`. -/
def computeDeltaCommitmentAndOpening (combined combinedFee : P × F) (feeRateBasisPoints : UInt16) :
    P × F :=
  ((oneInBasisPoints : F) • combinedFee.1 - (feeRateBasisPoints.toNat : F) • combined.1,
    (oneInBasisPoints : F) * combinedFee.2 - (feeRateBasisPoints.toNat : F) * combined.2)

structure TransferWithFeeProofData where
  equalityProofData : ProofData CiphertextCommitmentEqualityProofContext
  transferAmountCiphertextValidityProofDataWithCiphertext :
    CiphertextValidityProofWithAuditorCiphertext
  percentageWithCapProofData : ProofData PercentageWithCapProofContext
  feeCiphertextValidityProofData : ProofData BatchedGroupedCiphertext2HandlesValidityProofContext
  rangeProofData : ProofData BatchedRangeProofContext

/-- The openings drawn for a transfer with fee. -/
structure FeeProofOpenings (F : Type) where
  lo : F
  hi : F
  balance : F
  feeLo : F
  feeHi : F
  claimed : F

/-- The fee that is taken and the delta that is claimed: none when the fee is capped. -/
def cappedFee (maximumFee rawFeeAmount rawDeltaFee : UInt64) : UInt64 × UInt64 :=
  if maximumFee < rawFeeAmount then (maximumFee, 0) else (rawFeeAmount, rawDeltaFee)

/-- The three proofs about the fee, and the range proof over all eight numbers. -/
def feeProofData (keys : Fin 3 → P) (feeKeys : Fin 2 → P)
    (transferAmount newBalance amountLo amountHi : UInt64) (feeRateBasisPoints : UInt16)
    (maximumFee : UInt64) (r : FeeProofOpenings F) : Except TokenProofGenerationError
      (ProofData PercentageWithCapProofContext ×
        ProofData BatchedGroupedCiphertext2HandlesValidityProofContext ×
        ProofData BatchedRangeProofContext) := do
  let (rawFeeAmount, rawDeltaFee) ←
    okOr .feeCalculation (calculateFee transferAmount feeRateBasisPoints)
  let (feeAmount, claimedDeltaFee) := cappedFee maximumFee rawFeeAmount rawDeltaFee
  let netTransferAmount ← okOr .feeCalculation (checkedSub transferAmount feeAmount)
  let (feeAmountLo, feeAmountHi) ←
    okOr .illegalAmountBitLength (trySplitU64 feeAmount transferAmountLoBits)
  let amountCommitmentLo := (amountCiphertext B keys amountLo r.lo).commitment
  let amountCommitmentHi := (amountCiphertext B keys amountHi r.hi).commitment
  let feeCiphertextLo := amountCiphertext B feeKeys feeAmountLo r.feeLo
  let feeCiphertextHi := amountCiphertext B feeKeys feeAmountHi r.feeHi
  let combinedCommitment ← okOr .illegalAmountBitLength (tryCombineLoHiCommitments F
    amountCommitmentLo amountCommitmentHi transferAmountLoBits)
  let combinedOpening ← okOr .illegalAmountBitLength
    (tryCombineLoHiOpenings r.lo r.hi transferAmountLoBits)
  let combinedFeeCommitment ← okOr .illegalAmountBitLength (tryCombineLoHiCommitments F
    feeCiphertextLo.commitment feeCiphertextHi.commitment transferAmountLoBits)
  let combinedFeeOpening ← okOr .illegalAmountBitLength
    (tryCombineLoHiOpenings r.feeLo r.feeHi transferAmountLoBits)
  let claimedCommitment := B.commit (claimedDeltaFee.toNat : F) r.claimed
  let (deltaCommitment, deltaOpening) := computeDeltaCommitmentAndOpening
    (combinedCommitment, combinedOpening) (combinedFeeCommitment, combinedFeeOpening)
    feeRateBasisPoints
  let percentageWithCap ← okOr .proofGeneration (Z.percentageWithCap combinedFeeCommitment
    combinedFeeOpening feeAmount deltaCommitment deltaOpening claimedDeltaFee claimedCommitment
    r.claimed maximumFee)
  let feeValidity ← okOr .proofGeneration (Z.validity2 feeKeys feeCiphertextLo feeCiphertextHi
    feeAmountLo feeAmountHi r.feeLo r.feeHi)
  let deltaFeeComplement ← okOr .feeCalculation
    (checkedSub (UInt64.ofNat maxFeeBasisPointsSubOne) claimedDeltaFee)
  let range ← okOr .proofGeneration (Z.rangeU256
    [B.commit (newBalance.toNat : F) r.balance, amountCommitmentLo, amountCommitmentHi,
      claimedCommitment, B.commit (maxFeeBasisPointsSubOne : F) 0 - claimedCommitment,
      feeCiphertextLo.commitment, feeCiphertextHi.commitment,
      combinedCommitment - combinedFeeCommitment]
    [newBalance, amountLo, amountHi, claimedDeltaFee, deltaFeeComplement, feeAmountLo,
      feeAmountHi, netTransferAmount]
    [remainingBalanceBitLength, transferAmountLoBits, transferAmountHiBits, deltaBitLength,
      deltaBitLength, transferAmountLoBits, transferAmountHiBits, netTransferAmountBitLength]
    [r.balance, r.lo, r.hi, r.claimed, 0 - r.claimed, r.feeLo, r.feeHi,
      combinedOpening - combinedFeeOpening])
  return (percentageWithCap, feeValidity, range)

/-- `transfer_with_fee_split_proof_data`. -/
def transferWithFeeSplitProofData (currentAvailableBalance : Ciphertext P)
    (currentDecryptableAvailableBalance : Option UInt64) (transferAmount : UInt64)
    (sourceElgamalKeypair : Keypair F B) (destinationElgamalPubkey : P)
    (auditorElgamalPubkey : Option P) (withdrawWithheldAuthorityElgamalPubkey : P)
    (feeRateBasisPoints : UInt16) (maximumFee : UInt64) (r : FeeProofOpenings F) :
    Except TokenProofGenerationError TransferWithFeeProofData := do
  let auditorElgamalPubkey := auditorElgamalPubkey.getD 0
  let keys := ![sourceElgamalKeypair.pubkey, destinationElgamalPubkey, auditorElgamalPubkey]
  let (transferAmountLo, transferAmountHi) ←
    okOr .illegalAmountBitLength (trySplitU64 transferAmount transferAmountLoBits)
  let groupedLo := amountCiphertext B keys transferAmountLo r.lo
  let groupedHi := amountCiphertext B keys transferAmountHi r.hi
  let currentDecryptedAvailableBalance ←
    okOr .illegalAmountBitLength currentDecryptableAvailableBalance
  let newDecryptedAvailableBalance ←
    okOr .notEnoughFunds (checkedSub currentDecryptedAvailableBalance transferAmount)
  let combined ← okOr .illegalAmountBitLength (tryCombineLoHiCiphertexts F
    (groupedLo.toElgamalCiphertext 0) (groupedHi.toElgamalCiphertext 0) transferAmountLoBits)
  let equality ← okOr .proofGeneration (Z.equality sourceElgamalKeypair
    (currentAvailableBalance - combined)
    (B.commit (newDecryptedAvailableBalance.toNat : F) r.balance) r.balance
    newDecryptedAvailableBalance)
  let validity ← validityProofData Z keys transferAmountLo transferAmountHi r.lo r.hi
  let (percentageWithCap, feeValidity, range) ← feeProofData Z keys
    ![destinationElgamalPubkey, withdrawWithheldAuthorityElgamalPubkey] transferAmount
    newDecryptedAvailableBalance transferAmountLo transferAmountHi feeRateBasisPoints maximumFee r
  return ⟨equality, validity, percentageWithCap, feeValidity, range⟩

end Generation

end SolanaEasy.Token
