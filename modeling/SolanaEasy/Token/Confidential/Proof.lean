import SolanaEasy.Token.Confidential.Arithmetic

/-!
# Proof contexts — what the zero-knowledge programs have verified

The contexts of `solana_zk_sdk` that the token program reads, where it reads them
from (`proof-extraction/src/instruction.rs`), and the consistency checks that tie
several contexts of one instruction together (`withdraw.rs`, `transfer.rs`,
`transfer_with_fee.rs`, `mint.rs`, `burn.rs`).
-/

namespace SolanaEasy.Token

abbrev PodPedersenCommitment := PodRistrettoPoint

/-! ## Grouped ciphertexts -/

/-- One commitment with a decrypt handle for each of two keys. -/
structure PodGroupedElGamalCiphertext2Handles where
  commitment : PodPedersenCommitment
  first : PodRistrettoPoint
  second : PodRistrettoPoint
deriving DecidableEq

namespace PodGroupedElGamalCiphertext2Handles

instance : Pod PodGroupedElGamalCiphertext2Handles :=
  Pod.ofEquiv PodGroupedElGamalCiphertext2Handles (fun c => (c.commitment, c.first, c.second))
    (fun (a, b, c) => ⟨a, b, c⟩) (fun _ => rfl) (fun _ => rfl)

/-- `try_extract_ciphertext`. -/
def tryExtractCiphertext (c : PodGroupedElGamalCiphertext2Handles) :
    Nat → Result PodElGamalCiphertext
  | 0 => .ok ⟨c.commitment, c.first⟩
  | 1 => .ok ⟨c.commitment, c.second⟩
  | _ => .error TokenProofExtractionError.ciphertextExtraction

end PodGroupedElGamalCiphertext2Handles

/-- One commitment with a decrypt handle for each of three keys. -/
structure PodGroupedElGamalCiphertext3Handles where
  commitment : PodPedersenCommitment
  first : PodRistrettoPoint
  second : PodRistrettoPoint
  third : PodRistrettoPoint
deriving DecidableEq

namespace PodGroupedElGamalCiphertext3Handles

instance : Pod PodGroupedElGamalCiphertext3Handles :=
  Pod.ofEquiv PodGroupedElGamalCiphertext3Handles
    (fun c => (c.commitment, c.first, c.second, c.third))
    (fun (a, b, c, d) => ⟨a, b, c, d⟩) (fun _ => rfl) (fun _ => rfl)

/-- `try_extract_ciphertext`. -/
def tryExtractCiphertext (c : PodGroupedElGamalCiphertext3Handles) :
    Nat → Result PodElGamalCiphertext
  | 0 => .ok ⟨c.commitment, c.first⟩
  | 1 => .ok ⟨c.commitment, c.second⟩
  | 2 => .ok ⟨c.commitment, c.third⟩
  | _ => .error TokenProofExtractionError.ciphertextExtraction

end PodGroupedElGamalCiphertext3Handles

/-! ## The contexts -/

/-- The proof types the token program asks for, with their numbers. -/
inductive ProofType where
  | zeroCiphertext
  | ciphertextCiphertextEquality
  | ciphertextCommitmentEquality
  | pubkeyValidity
  | percentageWithCap
  | batchedRangeProofU64
  | batchedRangeProofU128
  | batchedRangeProofU256
  | batchedGroupedCiphertext2HandlesValidity
  | batchedGroupedCiphertext3HandlesValidity
deriving DecidableEq, Repr

/-- `ProofType::into`, which is also the number of the verifying instruction. -/
def ProofType.toU8 : ProofType → UInt8
  | zeroCiphertext => 1
  | ciphertextCiphertextEquality => 2
  | ciphertextCommitmentEquality => 3
  | pubkeyValidity => 4
  | percentageWithCap => 5
  | batchedRangeProofU64 => 6
  | batchedRangeProofU128 => 7
  | batchedRangeProofU256 => 8
  | batchedGroupedCiphertext2HandlesValidity => 10
  | batchedGroupedCiphertext3HandlesValidity => 12

structure ZeroCiphertextProofContext where
  pubkey : PodElGamalPubkey
  ciphertext : PodElGamalCiphertext

instance : Pod ZeroCiphertextProofContext :=
  Pod.ofEquiv ZeroCiphertextProofContext (fun c => (c.pubkey, c.ciphertext))
    (fun (a, b) => ⟨a, b⟩) (fun _ => rfl) (fun _ => rfl)

structure CiphertextCiphertextEqualityProofContext where
  firstPubkey : PodElGamalPubkey
  secondPubkey : PodElGamalPubkey
  firstCiphertext : PodElGamalCiphertext
  secondCiphertext : PodElGamalCiphertext

instance : Pod CiphertextCiphertextEqualityProofContext :=
  Pod.ofEquiv CiphertextCiphertextEqualityProofContext
    (fun c => (c.firstPubkey, c.secondPubkey, c.firstCiphertext, c.secondCiphertext))
    (fun (a, b, c, d) => ⟨a, b, c, d⟩) (fun _ => rfl) (fun _ => rfl)

structure CiphertextCommitmentEqualityProofContext where
  pubkey : PodElGamalPubkey
  ciphertext : PodElGamalCiphertext
  commitment : PodPedersenCommitment

instance : Pod CiphertextCommitmentEqualityProofContext :=
  Pod.ofEquiv CiphertextCommitmentEqualityProofContext
    (fun c => (c.pubkey, c.ciphertext, c.commitment))
    (fun (a, b, c) => ⟨a, b, c⟩) (fun _ => rfl) (fun _ => rfl)

structure PubkeyValidityProofContext where
  pubkey : PodElGamalPubkey

instance : Pod PubkeyValidityProofContext :=
  Pod.ofEquiv PubkeyValidityProofContext PubkeyValidityProofContext.pubkey
    PubkeyValidityProofContext.mk (fun _ => rfl) (fun _ => rfl)

structure PercentageWithCapProofContext where
  percentageCommitment : PodPedersenCommitment
  deltaCommitment : PodPedersenCommitment
  claimedCommitment : PodPedersenCommitment
  maxValue : UInt64

instance : Pod PercentageWithCapProofContext :=
  Pod.ofEquiv PercentageWithCapProofContext
    (fun c => (c.percentageCommitment, c.deltaCommitment, c.claimedCommitment, c.maxValue))
    (fun (a, b, c, d) => ⟨a, b, c, d⟩) (fun _ => rfl) (fun _ => rfl)

structure BatchedRangeProofContext where
  commitments : PodArray PodPedersenCommitment 8
  bitLengths : PodArray UInt8 8

instance : Pod BatchedRangeProofContext :=
  Pod.ofEquiv BatchedRangeProofContext (fun c => (c.commitments, c.bitLengths))
    (fun (a, b) => ⟨a, b⟩) (fun _ => rfl) (fun _ => rfl)

structure BatchedGroupedCiphertext2HandlesValidityProofContext where
  firstPubkey : PodElGamalPubkey
  secondPubkey : PodElGamalPubkey
  groupedCiphertextLo : PodGroupedElGamalCiphertext2Handles
  groupedCiphertextHi : PodGroupedElGamalCiphertext2Handles

instance : Pod BatchedGroupedCiphertext2HandlesValidityProofContext :=
  Pod.ofEquiv BatchedGroupedCiphertext2HandlesValidityProofContext
    (fun c => (c.firstPubkey, c.secondPubkey, c.groupedCiphertextLo, c.groupedCiphertextHi))
    (fun (a, b, c, d) => ⟨a, b, c, d⟩) (fun _ => rfl) (fun _ => rfl)

structure BatchedGroupedCiphertext3HandlesValidityProofContext where
  firstPubkey : PodElGamalPubkey
  secondPubkey : PodElGamalPubkey
  thirdPubkey : PodElGamalPubkey
  groupedCiphertextLo : PodGroupedElGamalCiphertext3Handles
  groupedCiphertextHi : PodGroupedElGamalCiphertext3Handles

instance : Pod BatchedGroupedCiphertext3HandlesValidityProofContext :=
  Pod.ofEquiv BatchedGroupedCiphertext3HandlesValidityProofContext
    (fun c => (c.firstPubkey, c.secondPubkey, c.thirdPubkey, c.groupedCiphertextLo,
      c.groupedCiphertextHi))
    (fun (a, b, c, d, e) => ⟨a, b, c, d, e⟩) (fun _ => rfl) (fun _ => rfl)

/-- `ProofContextState<U>`: the data of a context-state account. -/
structure ProofContextState (U : Type) where
  contextStateAuthority : Pubkey
  proofType : UInt8
  proofContext : U

instance {U : Type} [Pod U] : Pod (ProofContextState U) :=
  Pod.ofEquiv (ProofContextState U)
    (fun c => (c.contextStateAuthority, c.proofType, c.proofContext))
    (fun (a, b, c) => ⟨a, b, c⟩) (fun _ => rfl) (fun _ => rfl)

/-! ## Reading a context -/

/-- `verify_and_extract_context::<T, U>`, with `T::PROOF_TYPE = proofType`: the
context, and the accounts that follow. -/
def verifyAndExtractContext (U : Type) [Pod U] (proofType : ProofType) (ctx : Context)
    (σ : Ledger) (offset : Int) (sysvarAccount : Option AccountInfo)
    (accounts : List AccountInfo) : Result (U × List AccountInfo) :=
  if offset == 0 then
    match accounts with
    | contextStateInfo :: rest => do
      failIf ((σ contextStateInfo.key).owner != Keys.zkProofProgram) .incorrectProgramId
      let contextState ←
        okOr .invalidArgument (Pod.decode? (ProofContextState U) (σ contextStateInfo.key).data)
      failIf (contextState.proofType != proofType.toU8) .invalidInstructionData
      return (contextState.proofContext, rest)
    | [] => .error .notEnoughAccountKeys
  else do
    let (sysvar, rest) ←
      match sysvarAccount, accounts with
      | some sysvar, accounts => Except.ok (sysvar, accounts)
      | none, sysvar :: rest => .ok (sysvar, rest)
      | none, [] => .error ProgramError.notEnoughAccountKeys
    failIf (sysvar.key != Keys.instructionsSysvar) .unsupportedSysvar
    let instruction ← okOr .invalidArgument (ctx.getInstructionRelative offset)
    failIf (instruction.programId != Keys.zkProofProgram
      || instruction.instructionType != proofType.toU8) .invalidInstructionData
    let context ← okOr .invalidInstructionData (Pod.decode? U instruction.contextData)
    return (context, rest)

/-- The sysvar account, taken first when one of the proofs is an instruction. -/
def takeSysvar (wanted : Bool) (accounts : List AccountInfo) :
    Result (Option AccountInfo × List AccountInfo) :=
  match wanted, accounts with
  | false, accounts => .ok (none, accounts)
  | true, sysvar :: rest => .ok (some sysvar, rest)
  | true, [] => .error .notEnoughAccountKeys

/-- `zip(..).all(==)`: every expected element is the one proved. -/
def agrees {α : Type} [BEq α] (proved expected : List α) : Bool :=
  (proved.zip expected).all fun (p, e) => p == e

/-! ## Withdrawals -/

/-- `WithdrawProofContext`. -/
structure WithdrawProofContext where
  sourcePubkey : PodElGamalPubkey
  remainingBalanceCiphertext : PodElGamalCiphertext

/-- `WithdrawProofContext::verify_and_extract`. -/
def WithdrawProofContext.verifyAndExtract (equality : CiphertextCommitmentEqualityProofContext)
    (range : BatchedRangeProofContext) : Result WithdrawProofContext := do
  failIf (range.commitments.toList.head? != some equality.commitment)
    TokenProofExtractionError.pedersenCommitmentMismatch
  failIf (range.bitLengths.toList.head? != some 64)
    TokenProofExtractionError.rangeProofLengthMismatch
  return ⟨equality.pubkey, equality.ciphertext⟩

/-- `verify_withdraw_proof`. -/
def verifyWithdrawProof (ctx : Context) (σ : Ledger) (equalityOffset rangeOffset : Int)
    (accounts : List AccountInfo) : Result (WithdrawProofContext × List AccountInfo) := do
  let (sysvar, accounts) ← takeSysvar (equalityOffset != 0 || rangeOffset != 0) accounts
  let (equality, accounts) ← verifyAndExtractContext CiphertextCommitmentEqualityProofContext
    .ciphertextCommitmentEquality ctx σ equalityOffset sysvar accounts
  let (range, accounts) ← verifyAndExtractContext BatchedRangeProofContext
    .batchedRangeProofU64 ctx σ rangeOffset sysvar accounts
  let context ← WithdrawProofContext.verifyAndExtract equality range
  return (context, accounts)

/-! ## Transfers, mints and burns -/

/-- The three contexts of a transfer, mint or burn of an encrypted amount. -/
structure AmountProof where
  equality : CiphertextCommitmentEqualityProofContext
  validity : BatchedGroupedCiphertext3HandlesValidityProofContext
  range : BatchedRangeProofContext

/-- The checks that `TransferProofContext`, `MintProofContext` and
`BurnProofContext` make; `balancePubkey` is the key of the validity proof that
must be the one of the new balance. -/
def AmountProof.verify (p : AmountProof) (balancePubkey : PodElGamalPubkey) : Result Unit := do
  failIf (p.equality.pubkey != balancePubkey) TokenProofExtractionError.elGamalPubkeyMismatch
  failIf (!agrees p.range.commitments.toList
    [p.equality.commitment, p.validity.groupedCiphertextLo.commitment,
      p.validity.groupedCiphertextHi.commitment])
    TokenProofExtractionError.pedersenCommitmentMismatch
  failIf (!agrees p.range.bitLengths.toList [64, 16, 32, 16])
    TokenProofExtractionError.rangeProofLengthMismatch

/-- The equality, validity and range contexts, in the order they are read. -/
def takeAmountProof (ctx : Context) (σ : Ledger) (sysvarFirst : Bool)
    (equalityOffset validityOffset rangeOffset : Int) (accounts : List AccountInfo) :
    Result (AmountProof × List AccountInfo) := do
  let (sysvar, accounts) ← takeSysvar sysvarFirst accounts
  let (equality, accounts) ← verifyAndExtractContext CiphertextCommitmentEqualityProofContext
    .ciphertextCommitmentEquality ctx σ equalityOffset sysvar accounts
  let (validity, accounts) ←
    verifyAndExtractContext BatchedGroupedCiphertext3HandlesValidityProofContext
      .batchedGroupedCiphertext3HandlesValidity ctx σ validityOffset sysvar accounts
  let (range, accounts) ← verifyAndExtractContext BatchedRangeProofContext
    .batchedRangeProofU128 ctx σ rangeOffset sysvar accounts
  return (⟨equality, validity, range⟩, accounts)

/-- `TransferProofContext`, with the keys of the source, destination and auditor. -/
structure TransferProofContext where
  ciphertextLo : PodGroupedElGamalCiphertext3Handles
  ciphertextHi : PodGroupedElGamalCiphertext3Handles
  source : PodElGamalPubkey
  destination : PodElGamalPubkey
  auditor : PodElGamalPubkey
  newSourceCiphertext : PodElGamalCiphertext

/-- `TransferProofContext::verify_and_extract`. -/
def TransferProofContext.verifyAndExtract (p : AmountProof) : Result TransferProofContext := do
  p.verify p.validity.firstPubkey
  return ⟨p.validity.groupedCiphertextLo, p.validity.groupedCiphertextHi, p.equality.pubkey,
    p.validity.secondPubkey, p.validity.thirdPubkey, p.equality.ciphertext⟩

/-- `verify_transfer_proof`. -/
def verifyTransferProof (ctx : Context) (σ : Ledger)
    (equalityOffset validityOffset rangeOffset : Int) (accounts : List AccountInfo) :
    Result (TransferProofContext × List AccountInfo) := do
  let (proof, accounts) ← takeAmountProof ctx σ
    (equalityOffset != 0 || validityOffset != 0 || rangeOffset != 0)
    equalityOffset validityOffset rangeOffset accounts
  let context ← TransferProofContext.verifyAndExtract proof
  return (context, accounts)

/-- `MintProofContext`, with the keys of the destination, supply and auditor. -/
structure MintProofContext where
  mintAmountCiphertextLo : PodGroupedElGamalCiphertext3Handles
  mintAmountCiphertextHi : PodGroupedElGamalCiphertext3Handles
  destination : PodElGamalPubkey
  supply : PodElGamalPubkey
  auditor : PodElGamalPubkey
  newSupplyCiphertext : PodElGamalCiphertext

/-- `MintProofContext::verify_and_extract`. -/
def MintProofContext.verifyAndExtract (p : AmountProof) : Result MintProofContext := do
  p.verify p.validity.secondPubkey
  return ⟨p.validity.groupedCiphertextLo, p.validity.groupedCiphertextHi,
    p.validity.firstPubkey, p.equality.pubkey, p.validity.thirdPubkey, p.equality.ciphertext⟩

/-- `verify_mint_proof`: the sysvar account is expected only for an equality proof
in an instruction. -/
def verifyMintProof (ctx : Context) (σ : Ledger)
    (equalityOffset validityOffset rangeOffset : Int) (accounts : List AccountInfo) :
    Result (MintProofContext × List AccountInfo) := do
  let (proof, accounts) ← takeAmountProof ctx σ (equalityOffset != 0)
    equalityOffset validityOffset rangeOffset accounts
  let context ← MintProofContext.verifyAndExtract proof
  return (context, accounts)

/-- `BurnProofContext`, with the keys of the source, supply and auditor. -/
structure BurnProofContext where
  burnAmountCiphertextLo : PodGroupedElGamalCiphertext3Handles
  burnAmountCiphertextHi : PodGroupedElGamalCiphertext3Handles
  source : PodElGamalPubkey
  supply : PodElGamalPubkey
  auditor : PodElGamalPubkey
  remainingBalanceCiphertext : PodElGamalCiphertext

/-- `BurnProofContext::verify_and_extract`. -/
def BurnProofContext.verifyAndExtract (p : AmountProof) : Result BurnProofContext := do
  p.verify p.validity.firstPubkey
  return ⟨p.validity.groupedCiphertextLo, p.validity.groupedCiphertextHi, p.equality.pubkey,
    p.validity.secondPubkey, p.validity.thirdPubkey, p.equality.ciphertext⟩

/-- `verify_burn_proof`. -/
def verifyBurnProof (ctx : Context) (σ : Ledger)
    (equalityOffset validityOffset rangeOffset : Int) (accounts : List AccountInfo) :
    Result (BurnProofContext × List AccountInfo) := do
  let (proof, accounts) ← takeAmountProof ctx σ (equalityOffset != 0)
    equalityOffset validityOffset rangeOffset accounts
  let context ← BurnProofContext.verifyAndExtract proof
  return (context, accounts)

/-! ## Transfers with fee -/

/-- The five contexts of a transfer with fee. -/
structure FeeProof where
  equality : CiphertextCommitmentEqualityProofContext
  validity : BatchedGroupedCiphertext3HandlesValidityProofContext
  sigma : PercentageWithCapProofContext
  feeValidity : BatchedGroupedCiphertext2HandlesValidityProofContext
  range : BatchedRangeProofContext

/-- `TransferWithFeeProofContext`. -/
structure TransferWithFeeProofContext where
  ciphertextLo : PodGroupedElGamalCiphertext3Handles
  ciphertextHi : PodGroupedElGamalCiphertext3Handles
  source : PodElGamalPubkey
  destination : PodElGamalPubkey
  auditor : PodElGamalPubkey
  withdrawWithheldAuthority : PodElGamalPubkey
  newSourceCiphertext : PodElGamalCiphertext
  feeCiphertextLo : PodGroupedElGamalCiphertext2Handles
  feeCiphertextHi : PodGroupedElGamalCiphertext2Handles

/-- An arithmetic system call that must succeed. -/
def curve (o : Option PodRistrettoPoint) : Result PodRistrettoPoint :=
  okOr TokenProofExtractionError.curveArithmetic o

/-- `combine_lo_hi_pedersen_points`. -/
def combineLoHiPedersenPoints (rt : Runtime) (lo hi : PodRistrettoPoint) :
    Result PodRistrettoPoint := do
  let scaledHi ← curve (rt.multiplyRistretto (natToScalar 65536) hi)
  curve (rt.addRistretto lo scaledHi)

/-- `verify_delta_commitment`: `10000 · fee - rate · amount` is the delta. -/
def verifyDeltaCommitment (rt : Runtime) (amountLo amountHi fee delta : PodPedersenCommitment)
    (transferFeeBasisPoints : UInt16) : Result Unit := do
  let transferAmountPoint ← combineLoHiPedersenPoints rt amountLo amountHi
  let scaledTransferAmount ← curve
    (rt.multiplyRistretto (natToScalar transferFeeBasisPoints.toNat) transferAmountPoint)
  let scaledFee ← curve (rt.multiplyRistretto (natToScalar 10000) fee)
  let expected ← curve (rt.subtractRistretto scaledFee scaledTransferAmount)
  failIf (expected != delta) TokenProofExtractionError.curveArithmetic

/-- The eight commitments a range proof of a transfer with fee must cover: the new
balance, the amount, the claimed delta and its complement to `9999`, the fee, and
the net amount. -/
def FeeProof.expectedCommitments (rt : Runtime) (p : FeeProof) :
    Result (List PodPedersenCommitment) := do
  let amountLo := p.validity.groupedCiphertextLo.commitment
  let amountHi := p.validity.groupedCiphertextHi.commitment
  let maxSubOne ← curve (rt.multiplyRistretto (natToScalar 9999) ristrettoG)
  let complement ← curve (rt.subtractRistretto maxSubOne p.sigma.claimedCommitment)
  let transferAmountPoint ← combineLoHiPedersenPoints rt amountLo amountHi
  let net ← curve (rt.subtractRistretto transferAmountPoint p.sigma.percentageCommitment)
  return [p.equality.commitment, amountLo, amountHi, p.sigma.claimedCommitment, complement,
    p.feeValidity.groupedCiphertextLo.commitment, p.feeValidity.groupedCiphertextHi.commitment,
    net]

/-- `TransferWithFeeProofContext::verify_and_extract`. -/
def TransferWithFeeProofContext.verifyAndExtract (rt : Runtime) (p : FeeProof)
    (expectedFeeRateBasisPoints : UInt16) (expectedMaximumFee : UInt64) :
    Result TransferWithFeeProofContext := do
  failIf (expectedMaximumFee != p.sigma.maxValue) TokenProofExtractionError.feeParametersMismatch
  failIf (p.validity.secondPubkey != p.feeValidity.firstPubkey)
    TokenProofExtractionError.elGamalPubkeyMismatch
  let expectedCommitments ← p.expectedCommitments rt
  failIf (!agrees p.range.commitments.toList expectedCommitments)
    TokenProofExtractionError.pedersenCommitmentMismatch
  failIf (!agrees p.range.bitLengths.toList [64, 16, 32, 16, 16, 16, 32, 64])
    TokenProofExtractionError.rangeProofLengthMismatch
  let validityProofFeePoint ← combineLoHiPedersenPoints rt
    p.feeValidity.groupedCiphertextLo.commitment p.feeValidity.groupedCiphertextHi.commitment
  failIf (p.equality.pubkey != p.validity.firstPubkey)
    TokenProofExtractionError.elGamalPubkeyMismatch
  failIf (validityProofFeePoint != p.sigma.percentageCommitment)
    TokenProofExtractionError.feeParametersMismatch
  verifyDeltaCommitment rt p.validity.groupedCiphertextLo.commitment
    p.validity.groupedCiphertextHi.commitment p.sigma.percentageCommitment
    p.sigma.deltaCommitment expectedFeeRateBasisPoints
  return ⟨p.validity.groupedCiphertextLo, p.validity.groupedCiphertextHi, p.equality.pubkey,
    p.validity.secondPubkey, p.validity.thirdPubkey, p.feeValidity.secondPubkey,
    p.equality.ciphertext, p.feeValidity.groupedCiphertextLo, p.feeValidity.groupedCiphertextHi⟩

/-- The five offsets of a transfer with fee. -/
structure FeeProofOffsets where
  equality : Int
  validity : Int
  feeSigma : Int
  feeValidity : Int
  range : Int

/-- `verify_transfer_with_fee_proof`. -/
def verifyTransferWithFeeProof (rt : Runtime) (ctx : Context) (σ : Ledger) (o : FeeProofOffsets)
    (feeParameters : TransferFee) (accounts : List AccountInfo) :
    Result (TransferWithFeeProofContext × List AccountInfo) := do
  let (sysvar, accounts) ← takeSysvar (o.equality != 0 || o.validity != 0 || o.feeSigma != 0
    || o.feeValidity != 0 || o.range != 0) accounts
  let (equality, accounts) ← verifyAndExtractContext CiphertextCommitmentEqualityProofContext
    .ciphertextCommitmentEquality ctx σ o.equality sysvar accounts
  let (validity, accounts) ←
    verifyAndExtractContext BatchedGroupedCiphertext3HandlesValidityProofContext
      .batchedGroupedCiphertext3HandlesValidity ctx σ o.validity sysvar accounts
  let (sigma, accounts) ← verifyAndExtractContext PercentageWithCapProofContext
    .percentageWithCap ctx σ o.feeSigma sysvar accounts
  let (feeValidity, accounts) ←
    verifyAndExtractContext BatchedGroupedCiphertext2HandlesValidityProofContext
      .batchedGroupedCiphertext2HandlesValidity ctx σ o.feeValidity sysvar accounts
  let (range, accounts) ← verifyAndExtractContext BatchedRangeProofContext
    .batchedRangeProofU256 ctx σ o.range sysvar accounts
  let context ← TransferWithFeeProofContext.verifyAndExtract rt
    ⟨equality, validity, sigma, feeValidity, range⟩ feeParameters.transferFeeBasisPoints
    feeParameters.maximumFee
  return (context, accounts)

end SolanaEasy.Token
