import SolanaEasy.Lib.Dispatch
import SolanaEasy.Token.PodInstruction

/-!
# Extension instructions — what stands behind the prefix of an extension

The instruction enumerations of the extensions, as tables: the branch at position `n` is the
instruction with the number `n`, with its data in Pod form and the handler that the processor
of the extension calls. The data are those of the interface crate, field by field.
-/

namespace SolanaEasy.Token

open Processor

/-- What an input asks for. A rotation carries a key that its handler does not read; the last
three answer through the return data. -/
inductive Request where
  | instruction (i : Instruction)
  | rotateSupplyElGamalPubkey (newSupplyElgamalPubkey : PodElGamalPubkey)
      (proofInstructionOffset : Int8)
  | amountToUiAmount (amount : UInt64)
  | uiAmountToAmount (uiAmount : String)
  | emit (first last : Option UInt64)

/-- `decode_instruction_type`, then `decode_instruction_data` where a branch has data. -/
def decodeBranches (bs : List (Branch Request)) : Bytes → Result Request :=
  dispatch .invalidInstructionData TokenError.invalidInstruction bs

/-- A branch that calls a handler of the step function. -/
def calls {D : Type} [Pod D] (make : D → Instruction) : Branch Request :=
  .data fun d => .instruction (make d)

def callsPlain (i : Instruction) : Branch Request := .plain (.instruction i)

/-! ## Pointers and hooks -/

/-- `InitializeInstructionData` of the pointers and of the transfer hook. -/
structure InitializeAddressData where
  authority : OptionalNonZeroPubkey
  address : OptionalNonZeroPubkey

instance : Pod InitializeAddressData :=
  Pod.ofEquiv InitializeAddressData (fun d => (d.authority, d.address)) (fun p => ⟨p.1, p.2⟩)
    (fun _ => rfl) (fun _ => rfl)

def metadataPointerInstruction : List (Branch Request) :=
  [calls fun d : InitializeAddressData => .initializeMetadataPointer d.authority d.address,
    calls fun address : OptionalNonZeroPubkey => .updateMetadataPointer address]

def groupPointerInstruction : List (Branch Request) :=
  [calls fun d : InitializeAddressData => .initializeGroupPointer d.authority d.address,
    calls fun address : OptionalNonZeroPubkey => .updateGroupPointer address]

def groupMemberPointerInstruction : List (Branch Request) :=
  [calls fun d : InitializeAddressData => .initializeGroupMemberPointer d.authority d.address,
    calls fun address : OptionalNonZeroPubkey => .updateGroupMemberPointer address]

def transferHookInstruction : List (Branch Request) :=
  [calls fun d : InitializeAddressData => .initializeTransferHook d.authority d.address,
    calls fun programId : OptionalNonZeroPubkey => .updateTransferHook programId]

/-! ## Switches -/

def cpiGuardInstruction : List (Branch Request) :=
  [callsPlain (.cpiGuard true), callsPlain (.cpiGuard false)]

def requiredMemoTransfersInstruction : List (Branch Request) :=
  [callsPlain (.requiredMemoTransfers true), callsPlain (.requiredMemoTransfers false)]

def pausableInstruction : List (Branch Request) :=
  [calls fun authority : Pubkey => .initializePausable authority, callsPlain .pause,
    callsPlain .resume]

/-! ## What a mint shows -/

/-- `InitializeInstructionData` of the interest-bearing mint. -/
structure InitializeInterestData where
  rateAuthority : OptionalNonZeroPubkey
  rate : Int16

instance : Pod InitializeInterestData :=
  Pod.ofEquiv InitializeInterestData (fun d => (d.rateAuthority, d.rate)) (fun p => ⟨p.1, p.2⟩)
    (fun _ => rfl) (fun _ => rfl)

def interestBearingMintInstruction : List (Branch Request) :=
  [calls fun d : InitializeInterestData => .initializeInterestBearingMint d.rateAuthority d.rate,
    calls fun rate : Int16 => .updateRate rate]

/-- `InitializeInstructionData` of the scaled UI amount. -/
structure InitializeMultiplierData where
  authority : OptionalNonZeroPubkey
  multiplier : UInt64

instance : Pod InitializeMultiplierData :=
  Pod.ofEquiv InitializeMultiplierData (fun d => (d.authority, d.multiplier))
    (fun p => ⟨p.1, p.2⟩) (fun _ => rfl) (fun _ => rfl)

structure UpdateMultiplierInstructionData where
  multiplier : UInt64
  effectiveTimestamp : Int64

instance : Pod UpdateMultiplierInstructionData :=
  Pod.ofEquiv UpdateMultiplierInstructionData (fun d => (d.multiplier, d.effectiveTimestamp))
    (fun p => ⟨p.1, p.2⟩) (fun _ => rfl) (fun _ => rfl)

def scaledUiAmountMintInstruction : List (Branch Request) :=
  [calls fun d : InitializeMultiplierData => .initializeScaledUiAmount d.authority d.multiplier,
    calls fun d : UpdateMultiplierInstructionData =>
      .updateMultiplier d.multiplier d.effectiveTimestamp]

/-- `default_account_state::instruction::decode_instruction`, and the handler. -/
def decodeDefaultAccountState : Bytes → Result Request
  | [tag, state] => do
    failIf (2 ≤ tag.toNat) TokenError.invalidInstruction
    let state ← okOr TokenError.invalidInstruction (AccountState.ofU8 state)
    return .instruction
      (if tag = 0 then .initializeDefaultAccountState state else .updateDefaultAccountState state)
  | _ => .error TokenError.invalidInstruction

/-! ## Confidential transfers -/

section ConfidentialTransfer

/-- `InitializeMintData` of the confidential transfers. -/
structure InitializeSecretMintData where
  authority : OptionalNonZeroPubkey
  autoApproveNewAccounts : PodBool
  auditorElgamalPubkey : OptionalNonZeroElGamalPubkey

instance : Pod InitializeSecretMintData :=
  Pod.ofEquiv InitializeSecretMintData
    (fun d => (d.authority, d.autoApproveNewAccounts, d.auditorElgamalPubkey))
    (fun p => ⟨p.1, p.2.1, p.2.2⟩) (fun _ => rfl) (fun _ => rfl)

structure UpdateMintData where
  autoApproveNewAccounts : PodBool
  auditorElgamalPubkey : OptionalNonZeroElGamalPubkey

instance : Pod UpdateMintData :=
  Pod.ofEquiv UpdateMintData (fun d => (d.autoApproveNewAccounts, d.auditorElgamalPubkey))
    (fun p => ⟨p.1, p.2⟩) (fun _ => rfl) (fun _ => rfl)

structure ConfigureAccountInstructionData where
  decryptableZeroBalance : PodAeCiphertext
  maximumPendingBalanceCreditCounter : UInt64
  proofInstructionOffset : Int8

instance : Pod ConfigureAccountInstructionData :=
  Pod.ofEquiv ConfigureAccountInstructionData
    (fun d => (d.decryptableZeroBalance, d.maximumPendingBalanceCreditCounter,
      d.proofInstructionOffset))
    (fun p => ⟨p.1, p.2.1, p.2.2⟩) (fun _ => rfl) (fun _ => rfl)

structure DepositInstructionData where
  amount : UInt64
  decimals : UInt8

instance : Pod DepositInstructionData :=
  Pod.ofEquiv DepositInstructionData (fun d => (d.amount, d.decimals)) (fun p => ⟨p.1, p.2⟩)
    (fun _ => rfl) (fun _ => rfl)

structure WithdrawInstructionData where
  amount : UInt64
  decimals : UInt8
  newDecryptableAvailableBalance : PodAeCiphertext
  equalityProofInstructionOffset : Int8
  rangeProofInstructionOffset : Int8

instance : Pod WithdrawInstructionData :=
  Pod.ofEquiv WithdrawInstructionData
    (fun d => (d.amount, d.decimals, d.newDecryptableAvailableBalance,
      d.equalityProofInstructionOffset, d.rangeProofInstructionOffset))
    (fun p => ⟨p.1, p.2.1, p.2.2.1, p.2.2.2.1, p.2.2.2.2⟩) (fun _ => rfl) (fun _ => rfl)

structure TransferInstructionData where
  newSourceDecryptableAvailableBalance : PodAeCiphertext
  transferAmountAuditorCiphertextLo : PodElGamalCiphertext
  transferAmountAuditorCiphertextHi : PodElGamalCiphertext
  equalityProofInstructionOffset : Int8
  ciphertextValidityProofInstructionOffset : Int8
  rangeProofInstructionOffset : Int8

instance : Pod TransferInstructionData :=
  Pod.ofEquiv TransferInstructionData
    (fun d => (d.newSourceDecryptableAvailableBalance, d.transferAmountAuditorCiphertextLo,
      d.transferAmountAuditorCiphertextHi, d.equalityProofInstructionOffset,
      d.ciphertextValidityProofInstructionOffset, d.rangeProofInstructionOffset))
    (fun p => ⟨p.1, p.2.1, p.2.2.1, p.2.2.2.1, p.2.2.2.2.1, p.2.2.2.2.2⟩)
    (fun _ => rfl) (fun _ => rfl)

def TransferInstructionData.transferData (d : TransferInstructionData) :
    ConfidentialTransfer.TransferData where
  newSourceDecryptableAvailableBalance := d.newSourceDecryptableAvailableBalance
  auditorCiphertextLo := d.transferAmountAuditorCiphertextLo
  auditorCiphertextHi := d.transferAmountAuditorCiphertextHi
  equalityProofInstructionOffset := d.equalityProofInstructionOffset.toInt
  ciphertextValidityProofInstructionOffset := d.ciphertextValidityProofInstructionOffset.toInt
  feeSigmaProofInstructionOffset := none
  feeCiphertextValidityProofInstructionOffset := none
  rangeProofInstructionOffset := d.rangeProofInstructionOffset.toInt

structure ApplyPendingBalanceData where
  expectedPendingBalanceCreditCounter : UInt64
  newDecryptableAvailableBalance : PodAeCiphertext

instance : Pod ApplyPendingBalanceData :=
  Pod.ofEquiv ApplyPendingBalanceData
    (fun d => (d.expectedPendingBalanceCreditCounter, d.newDecryptableAvailableBalance))
    (fun p => ⟨p.1, p.2⟩) (fun _ => rfl) (fun _ => rfl)

structure TransferWithFeeInstructionData where
  newSourceDecryptableAvailableBalance : PodAeCiphertext
  transferAmountAuditorCiphertextLo : PodElGamalCiphertext
  transferAmountAuditorCiphertextHi : PodElGamalCiphertext
  equalityProofInstructionOffset : Int8
  transferAmountCiphertextValidityProofInstructionOffset : Int8
  feeSigmaProofInstructionOffset : Int8
  feeCiphertextValidityProofInstructionOffset : Int8
  rangeProofInstructionOffset : Int8

instance : Pod TransferWithFeeInstructionData :=
  Pod.ofEquiv TransferWithFeeInstructionData
    (fun d => (d.newSourceDecryptableAvailableBalance, d.transferAmountAuditorCiphertextLo,
      d.transferAmountAuditorCiphertextHi, d.equalityProofInstructionOffset,
      d.transferAmountCiphertextValidityProofInstructionOffset,
      d.feeSigmaProofInstructionOffset, d.feeCiphertextValidityProofInstructionOffset,
      d.rangeProofInstructionOffset))
    (fun p => ⟨p.1, p.2.1, p.2.2.1, p.2.2.2.1, p.2.2.2.2.1, p.2.2.2.2.2.1, p.2.2.2.2.2.2.1,
      p.2.2.2.2.2.2.2⟩)
    (fun _ => rfl) (fun _ => rfl)

def TransferWithFeeInstructionData.transferData (d : TransferWithFeeInstructionData) :
    ConfidentialTransfer.TransferData where
  newSourceDecryptableAvailableBalance := d.newSourceDecryptableAvailableBalance
  auditorCiphertextLo := d.transferAmountAuditorCiphertextLo
  auditorCiphertextHi := d.transferAmountAuditorCiphertextHi
  equalityProofInstructionOffset := d.equalityProofInstructionOffset.toInt
  ciphertextValidityProofInstructionOffset :=
    d.transferAmountCiphertextValidityProofInstructionOffset.toInt
  feeSigmaProofInstructionOffset := some d.feeSigmaProofInstructionOffset.toInt
  feeCiphertextValidityProofInstructionOffset :=
    some d.feeCiphertextValidityProofInstructionOffset.toInt
  rangeProofInstructionOffset := d.rangeProofInstructionOffset.toInt

def confidentialTransferInstruction : List (Branch Request) :=
  [calls fun d : InitializeSecretMintData =>
      .initializeConfidentialTransferMint d.authority d.autoApproveNewAccounts
        d.auditorElgamalPubkey,
    calls fun d : UpdateMintData =>
      .updateConfidentialTransferMint d.autoApproveNewAccounts d.auditorElgamalPubkey,
    calls fun d : ConfigureAccountInstructionData =>
      .configureAccount d.decryptableZeroBalance d.maximumPendingBalanceCreditCounter
        d.proofInstructionOffset.toInt,
    callsPlain .approveAccount,
    calls fun offset : Int8 => .emptyAccount offset.toInt,
    calls fun d : DepositInstructionData => .deposit d.amount d.decimals,
    calls fun d : WithdrawInstructionData =>
      .withdraw d.amount d.decimals d.newDecryptableAvailableBalance
        d.equalityProofInstructionOffset.toInt d.rangeProofInstructionOffset.toInt,
    calls fun d : TransferInstructionData => .confidentialTransfer d.transferData,
    calls fun d : ApplyPendingBalanceData =>
      .applyPendingBalance d.expectedPendingBalanceCreditCounter
        d.newDecryptableAvailableBalance,
    callsPlain (.confidentialCredits true),
    callsPlain (.confidentialCredits false),
    callsPlain (.nonConfidentialCredits true),
    callsPlain (.nonConfidentialCredits false),
    calls fun d : TransferWithFeeInstructionData => .confidentialTransfer d.transferData,
    callsPlain .configureAccountWithRegistry]

end ConfidentialTransfer

/-! ## Confidential fees -/

structure InitializeConfidentialTransferFeeConfigData where
  authority : OptionalNonZeroPubkey
  withdrawWithheldAuthorityElgamalPubkey : PodElGamalPubkey

instance : Pod InitializeConfidentialTransferFeeConfigData :=
  Pod.ofEquiv InitializeConfidentialTransferFeeConfigData
    (fun d => (d.authority, d.withdrawWithheldAuthorityElgamalPubkey)) (fun p => ⟨p.1, p.2⟩)
    (fun _ => rfl) (fun _ => rfl)

structure WithdrawWithheldTokensFromMintData where
  proofInstructionOffset : Int8
  newDecryptableAvailableBalance : PodAeCiphertext

instance : Pod WithdrawWithheldTokensFromMintData :=
  Pod.ofEquiv WithdrawWithheldTokensFromMintData
    (fun d => (d.proofInstructionOffset, d.newDecryptableAvailableBalance))
    (fun p => ⟨p.1, p.2⟩) (fun _ => rfl) (fun _ => rfl)

structure WithdrawWithheldTokensFromAccountsData where
  numTokenAccounts : UInt8
  proofInstructionOffset : Int8
  newDecryptableAvailableBalance : PodAeCiphertext

instance : Pod WithdrawWithheldTokensFromAccountsData :=
  Pod.ofEquiv WithdrawWithheldTokensFromAccountsData
    (fun d => (d.numTokenAccounts, d.proofInstructionOffset, d.newDecryptableAvailableBalance))
    (fun p => ⟨p.1, p.2.1, p.2.2⟩) (fun _ => rfl) (fun _ => rfl)

def confidentialTransferFeeInstruction : List (Branch Request) :=
  [calls fun d : InitializeConfidentialTransferFeeConfigData =>
      .initializeConfidentialTransferFeeConfig d.authority
        d.withdrawWithheldAuthorityElgamalPubkey,
    calls fun d : WithdrawWithheldTokensFromMintData =>
      .confidentialWithdrawWithheldTokensFromMint d.newDecryptableAvailableBalance
        d.proofInstructionOffset.toInt,
    calls fun d : WithdrawWithheldTokensFromAccountsData =>
      .confidentialWithdrawWithheldTokensFromAccounts d.numTokenAccounts
        d.newDecryptableAvailableBalance d.proofInstructionOffset.toInt,
    callsPlain .confidentialHarvestWithheldTokensToMint,
    callsPlain (.harvestToMint true),
    callsPlain (.harvestToMint false)]

/-! ## Confidential mint and burn -/

/-- `InitializeMintData` of the confidential mint and burn. -/
structure InitializeMintBurnData where
  supplyElgamalPubkey : PodElGamalPubkey
  decryptableSupply : PodAeCiphertext

instance : Pod InitializeMintBurnData :=
  Pod.ofEquiv InitializeMintBurnData (fun d => (d.supplyElgamalPubkey, d.decryptableSupply))
    (fun p => ⟨p.1, p.2⟩) (fun _ => rfl) (fun _ => rfl)

structure RotateSupplyElGamalPubkeyData where
  newSupplyElgamalPubkey : PodElGamalPubkey
  proofInstructionOffset : Int8

instance : Pod RotateSupplyElGamalPubkeyData :=
  Pod.ofEquiv RotateSupplyElGamalPubkeyData
    (fun d => (d.newSupplyElgamalPubkey, d.proofInstructionOffset)) (fun p => ⟨p.1, p.2⟩)
    (fun _ => rfl) (fun _ => rfl)

/-- `MintInstructionData` and `BurnInstructionData`. -/
structure AmountInstructionData where
  newDecryptableBalance : PodAeCiphertext
  amountAuditorCiphertextLo : PodElGamalCiphertext
  amountAuditorCiphertextHi : PodElGamalCiphertext
  equalityProofInstructionOffset : Int8
  ciphertextValidityProofInstructionOffset : Int8
  rangeProofInstructionOffset : Int8

instance : Pod AmountInstructionData :=
  Pod.ofEquiv AmountInstructionData
    (fun d => (d.newDecryptableBalance, d.amountAuditorCiphertextLo, d.amountAuditorCiphertextHi,
      d.equalityProofInstructionOffset, d.ciphertextValidityProofInstructionOffset,
      d.rangeProofInstructionOffset))
    (fun p => ⟨p.1, p.2.1, p.2.2.1, p.2.2.2.1, p.2.2.2.2.1, p.2.2.2.2.2⟩)
    (fun _ => rfl) (fun _ => rfl)

def AmountInstructionData.instructionData (d : AmountInstructionData) :
    ConfidentialMintBurn.InstructionData where
  newDecryptableBalance := d.newDecryptableBalance
  auditorCiphertextLo := d.amountAuditorCiphertextLo
  auditorCiphertextHi := d.amountAuditorCiphertextHi
  equalityProofInstructionOffset := d.equalityProofInstructionOffset.toInt
  ciphertextValidityProofInstructionOffset := d.ciphertextValidityProofInstructionOffset.toInt
  rangeProofInstructionOffset := d.rangeProofInstructionOffset.toInt

def confidentialMintBurnInstruction : List (Branch Request) :=
  [calls fun d : InitializeMintBurnData =>
      .initializeConfidentialMintBurn d.supplyElgamalPubkey d.decryptableSupply,
    .data fun d : RotateSupplyElGamalPubkeyData =>
      .rotateSupplyElGamalPubkey d.newSupplyElgamalPubkey d.proofInstructionOffset,
    calls fun newDecryptableSupply : PodAeCiphertext =>
      .updateDecryptableSupply newDecryptableSupply,
    calls fun d : AmountInstructionData => .confidentialMint d.instructionData,
    calls fun d : AmountInstructionData => .confidentialBurn d.instructionData,
    callsPlain .applyPendingBurn]

/-! ## The processor of an extension -/

/-- The `process_instruction` of each extension, on the input behind the prefix. -/
def decodeExtension (input : Bytes) : PodTokenInstruction → Result Request
  | .transferFeeExtension => do
    let i ← decodeTransferFee input
    return .instruction i
  | .confidentialTransferExtension => decodeBranches confidentialTransferInstruction input
  | .defaultAccountStateExtension => decodeDefaultAccountState input
  | .memoTransferExtension => decodeBranches requiredMemoTransfersInstruction input
  | .interestBearingMintExtension => decodeBranches interestBearingMintInstruction input
  | .cpiGuardExtension => decodeBranches cpiGuardInstruction input
  | .transferHookExtension => decodeBranches transferHookInstruction input
  | .confidentialTransferFeeExtension => decodeBranches confidentialTransferFeeInstruction input
  | .metadataPointerExtension => decodeBranches metadataPointerInstruction input
  | .groupPointerExtension => decodeBranches groupPointerInstruction input
  | .groupMemberPointerExtension => decodeBranches groupMemberPointerInstruction input
  | .confidentialMintBurnExtension => decodeBranches confidentialMintBurnInstruction input
  | .scaledUiAmountExtension => decodeBranches scaledUiAmountMintInstruction input
  | .pausableExtension => decodeBranches pausableInstruction input
  | _ => .error .invalidInstructionData

end SolanaEasy.Token
