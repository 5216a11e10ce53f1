import SolanaEasy.Token.Entrypoint
import SolanaEasy.Token.Honest

/-!
# Proof locations — where a client puts its proofs

The builders of the interface crate for instructions that need proofs. A proof is either an
instruction of the same transaction, at an offset, or it was verified before into an account.
The builder tells the program which by the offsets in the data and by the accounts it lists.
-/

namespace SolanaEasy.Token

/-- `ProofLocation`. Of the proof data only the context is of interest here. -/
inductive ProofLocation (U : Type) where
  | instructionOffset (offset : Int8) (nonZero : offset ≠ 0) (proofData : U)
  | contextStateAccount (key : Pubkey)

/-- `sysvar::instructions::id()`, as an account of an instruction. -/
def instructionsSysvarMeta : AccountInfo := ⟨Keys.instructionsSysvar, false⟩

namespace ProofLocation

variable {U : Type} [Pod U]

def isInstructionOffset : ProofLocation U → Bool
  | instructionOffset .. => true
  | contextStateAccount _ => false

/-- The offset in the data; an account has the offset zero. -/
def offset : ProofLocation U → Int8
  | instructionOffset offset _ _ => offset
  | contextStateAccount _ => 0

/-- The account that a location lists, the sysvar apart. -/
def contextAccounts : ProofLocation U → List AccountInfo
  | instructionOffset .. => []
  | contextStateAccount key => [⟨key, false⟩]

/-- The account of the only proof of an instruction. -/
def proofAccounts : ProofLocation U → List AccountInfo
  | instructionOffset .. => [instructionsSysvarMeta]
  | contextStateAccount key => [⟨key, false⟩]

end ProofLocation

/-- The sysvar, if one of the proofs is an instruction. -/
def sysvarAccounts (wanted : Bool) : List AccountInfo :=
  if wanted then [instructionsSysvarMeta] else []

/-- The authority, which signs unless it is a multisig whose signers do. -/
def authorityAccounts (authority : Pubkey) (multisigSigners : List Pubkey) : List AccountInfo :=
  ⟨authority, multisigSigners.isEmpty⟩ :: multisigSigners.map fun k => ⟨k, true⟩

/-- `Instruction`, for the token program. -/
structure BuiltInstruction where
  accounts : List AccountInfo
  data : Bytes

/-- The program, on an instruction that was built. -/
def BuiltInstruction.process (K : Conversions) (I : SplInterfaces) (rt : Runtime) (ctx : Context)
    (σ : Ledger) (b : BuiltInstruction) : Result Ledger :=
  processInput K I rt ctx b.accounts b.data σ

namespace Builder

/-! ## One proof -/

/-- `inner_configure_account`. -/
def innerConfigureAccount (tokenAccount mint : Pubkey) (decryptableZeroBalance : PodAeCiphertext)
    (maximumPendingBalanceCreditCounter : UInt64) (authority : Pubkey)
    (multisigSigners : List Pubkey) (proof : ProofLocation PubkeyValidityProofContext) :
    BuiltInstruction where
  accounts := ⟨tokenAccount, false⟩ :: ⟨mint, false⟩ ::
    (proof.proofAccounts ++ authorityAccounts authority multisigSigners)
  data := encodeInstruction .confidentialTransferExtension 2
    (⟨decryptableZeroBalance, maximumPendingBalanceCreditCounter, proof.offset⟩ :
      ConfigureAccountInstructionData)

/-- `inner_empty_account`. -/
def innerEmptyAccount (tokenAccount authority : Pubkey) (multisigSigners : List Pubkey)
    (proof : ProofLocation ZeroCiphertextProofContext) : BuiltInstruction where
  accounts := ⟨tokenAccount, false⟩ ::
    (proof.proofAccounts ++ authorityAccounts authority multisigSigners)
  data := encodeInstruction .confidentialTransferExtension 4 proof.offset

/-- `inner_withdraw_withheld_tokens_from_mint`. -/
def innerWithdrawWithheldTokensFromMint (mint destination : Pubkey)
    (newDecryptableAvailableBalance : PodAeCiphertext) (authority : Pubkey)
    (multisigSigners : List Pubkey)
    (proof : ProofLocation CiphertextCiphertextEqualityProofContext) : BuiltInstruction where
  accounts := ⟨mint, false⟩ :: ⟨destination, false⟩ ::
    (proof.proofAccounts ++ authorityAccounts authority multisigSigners)
  data := encodeInstruction .confidentialTransferFeeExtension 1
    (⟨proof.offset, newDecryptableAvailableBalance⟩ : WithdrawWithheldTokensFromMintData)

/-- `inner_withdraw_withheld_tokens_from_accounts`. -/
def innerWithdrawWithheldTokensFromAccounts (mint destination : Pubkey)
    (newDecryptableAvailableBalance : PodAeCiphertext) (authority : Pubkey)
    (multisigSigners sources : List Pubkey)
    (proof : ProofLocation CiphertextCiphertextEqualityProofContext) :
    Result BuiltInstruction := do
  failIf (256 ≤ sources.length) .invalidInstructionData
  return {
    accounts := ⟨mint, false⟩ :: ⟨destination, false⟩ :: (proof.proofAccounts ++
      (authorityAccounts authority multisigSigners ++ sources.map fun k => ⟨k, false⟩))
    data := encodeInstruction .confidentialTransferFeeExtension 2
      (⟨UInt8.ofNat sources.length, proof.offset, newDecryptableAvailableBalance⟩ :
        WithdrawWithheldTokensFromAccountsData) }

/-! ## Several proofs -/

/-- `inner_withdraw`. -/
def innerWithdraw (tokenAccount mint : Pubkey) (amount : UInt64) (decimals : UInt8)
    (newDecryptableAvailableBalance : PodAeCiphertext) (authority : Pubkey)
    (multisigSigners : List Pubkey)
    (equality : ProofLocation CiphertextCommitmentEqualityProofContext)
    (range : ProofLocation BatchedRangeProofContext) : BuiltInstruction where
  accounts := ⟨tokenAccount, false⟩ :: ⟨mint, false⟩ ::
    (sysvarAccounts (equality.isInstructionOffset || range.isInstructionOffset) ++
      (equality.contextAccounts ++ (range.contextAccounts ++
        authorityAccounts authority multisigSigners)))
  data := encodeInstruction .confidentialTransferExtension 6
    (⟨amount, decimals, newDecryptableAvailableBalance, equality.offset, range.offset⟩ :
      WithdrawInstructionData)

/-- `inner_transfer`. -/
def innerTransfer (source mint destination : Pubkey)
    (newSourceDecryptableAvailableBalance : PodAeCiphertext)
    (auditorCiphertextLo auditorCiphertextHi : PodElGamalCiphertext) (authority : Pubkey)
    (multisigSigners : List Pubkey)
    (equality : ProofLocation CiphertextCommitmentEqualityProofContext)
    (validity : ProofLocation BatchedGroupedCiphertext3HandlesValidityProofContext)
    (range : ProofLocation BatchedRangeProofContext) : BuiltInstruction where
  accounts := ⟨source, false⟩ :: ⟨mint, false⟩ :: ⟨destination, false⟩ ::
    (sysvarAccounts (equality.isInstructionOffset || validity.isInstructionOffset ||
        range.isInstructionOffset) ++
      (equality.contextAccounts ++ (validity.contextAccounts ++ (range.contextAccounts ++
        authorityAccounts authority multisigSigners))))
  data := encodeInstruction .confidentialTransferExtension 7
    (⟨newSourceDecryptableAvailableBalance, auditorCiphertextLo, auditorCiphertextHi,
      equality.offset, validity.offset, range.offset⟩ : TransferInstructionData)

/-- `inner_transfer_with_fee`. -/
def innerTransferWithFee (source mint destination : Pubkey)
    (newSourceDecryptableAvailableBalance : PodAeCiphertext)
    (auditorCiphertextLo auditorCiphertextHi : PodElGamalCiphertext) (authority : Pubkey)
    (multisigSigners : List Pubkey)
    (equality : ProofLocation CiphertextCommitmentEqualityProofContext)
    (validity : ProofLocation BatchedGroupedCiphertext3HandlesValidityProofContext)
    (feeSigma : ProofLocation PercentageWithCapProofContext)
    (feeValidity : ProofLocation BatchedGroupedCiphertext2HandlesValidityProofContext)
    (range : ProofLocation BatchedRangeProofContext) : BuiltInstruction where
  accounts := ⟨source, false⟩ :: ⟨mint, false⟩ :: ⟨destination, false⟩ ::
    (sysvarAccounts (equality.isInstructionOffset || validity.isInstructionOffset ||
        feeSigma.isInstructionOffset || feeValidity.isInstructionOffset ||
        range.isInstructionOffset) ++
      (equality.contextAccounts ++ (validity.contextAccounts ++ (feeSigma.contextAccounts ++
        (feeValidity.contextAccounts ++ (range.contextAccounts ++
          authorityAccounts authority multisigSigners))))))
  data := encodeInstruction .confidentialTransferExtension 13
    (⟨newSourceDecryptableAvailableBalance, auditorCiphertextLo, auditorCiphertextHi,
      equality.offset, validity.offset, feeSigma.offset, feeValidity.offset, range.offset⟩ :
      TransferWithFeeInstructionData)

end Builder

/-! ## Proof instructions -/

/-- What a builder has put together so far: the accounts, the offset that the next proof
instruction will have, and the proof instructions. -/
structure ProofPlan where
  accounts : List AccountInfo
  expectedInstructionOffset : Int8
  proofInstructions : List ProofInstruction

namespace ProofPlan

variable {U : Type} [Pod U]

/-- Before any proof. -/
def start (accounts : List AccountInfo) : ProofPlan := ⟨accounts, 1, []⟩

/-- `process_proof_location`. A proof instruction must stand where its offset says. -/
def processProofLocation (t : ProofType) (proof : ProofLocation U) (pushSysvar : Bool)
    (p : ProofPlan) : Result ProofPlan :=
  match proof with
  | .instructionOffset offset _ proofData => do
    failIf (offset != p.expectedInstructionOffset) .invalidInstructionData
    -- `checked_add`
    failIf (p.expectedInstructionOffset == Int8.maxValue) .invalidInstructionData
    return {
      accounts := p.accounts ++ sysvarAccounts pushSysvar
      expectedInstructionOffset := p.expectedInstructionOffset + 1
      proofInstructions := p.proofInstructions ++ [.verifying t proofData] }
  | .contextStateAccount key => .ok { p with accounts := p.accounts ++ [⟨key, false⟩] }

end ProofPlan

/-! ## Transactions -/

/-- An instruction with the proof instructions that follow it. -/
abbrev Transaction := BuiltInstruction × List ProofInstruction

namespace Builder

/-- `rotate_supply_elgamal_pubkey`. -/
def rotateSupplyElgamalPubkey (mint authority : Pubkey) (multisigSigners : List Pubkey)
    (newSupplyElgamalPubkey : PodElGamalPubkey)
    (proof : ProofLocation CiphertextCiphertextEqualityProofContext) : Result Transaction := do
  let p ← (ProofPlan.start [⟨mint, false⟩]).processProofLocation .ciphertextCiphertextEquality
    proof true
  return (⟨p.accounts ++ authorityAccounts authority multisigSigners,
    encodeInstruction .confidentialMintBurnExtension 1
      (⟨newSupplyElgamalPubkey, proof.offset⟩ : RotateSupplyElGamalPubkeyData)⟩,
    p.proofInstructions)

/-- The three proofs of a mint or a burn: only the first one may bring the sysvar. -/
def splitProofPlan (tokenAccount mint : Pubkey)
    (equality : ProofLocation CiphertextCommitmentEqualityProofContext)
    (validity : ProofLocation BatchedGroupedCiphertext3HandlesValidityProofContext)
    (range : ProofLocation BatchedRangeProofContext) : Result ProofPlan := do
  let p ← (ProofPlan.start [⟨tokenAccount, false⟩, ⟨mint, false⟩]).processProofLocation
    .ciphertextCommitmentEquality equality true
  let p ← p.processProofLocation .batchedGroupedCiphertext3HandlesValidity validity false
  p.processProofLocation .batchedRangeProofU128 range false

/-- `confidential_mint_with_split_proofs` and `confidential_burn_with_split_proofs`, which
differ in their number. -/
def amountWithSplitProofs (tag : UInt8) (tokenAccount mint : Pubkey)
    (newDecryptableBalance : PodAeCiphertext)
    (auditorCiphertextLo auditorCiphertextHi : PodElGamalCiphertext) (authority : Pubkey)
    (multisigSigners : List Pubkey)
    (equality : ProofLocation CiphertextCommitmentEqualityProofContext)
    (validity : ProofLocation BatchedGroupedCiphertext3HandlesValidityProofContext)
    (range : ProofLocation BatchedRangeProofContext) : Result Transaction := do
  let p ← splitProofPlan tokenAccount mint equality validity range
  return (⟨p.accounts ++ authorityAccounts authority multisigSigners,
    encodeInstruction .confidentialMintBurnExtension tag
      (⟨newDecryptableBalance, auditorCiphertextLo, auditorCiphertextHi, equality.offset,
        validity.offset, range.offset⟩ : AmountInstructionData)⟩, p.proofInstructions)

def confidentialMintWithSplitProofs := amountWithSplitProofs 3

def confidentialBurnWithSplitProofs := amountWithSplitProofs 4

end Builder

end SolanaEasy.Token
