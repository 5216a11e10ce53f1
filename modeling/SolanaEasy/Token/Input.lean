import SolanaEasy.Token.ExtensionInstruction
import SolanaEasy.Token.SplInterface

/-!
# Inputs — from bytes to handlers, and back

What `Processor::process` makes of its input to the end: the prefix, the processor of the
extension behind it, and the instructions of the two interfaces. Beside it, the bytes that
the builders of the interface crate and of the generated client write for every instruction.
-/

namespace SolanaEasy.Token

open Processor

/-! ## Reading -/

def TokenMetadataInstruction.request : TokenMetadataInstruction → Request
  | initializeMetadata name symbol uri => .instruction (.initializeTokenMetadata name symbol uri)
  | updateField field value => .instruction (.updateTokenMetadataField field value)
  | removeKey idempotent key => .instruction (.removeTokenMetadataKey key idempotent)
  | updateAuthority newAuthority => .instruction (.updateTokenMetadataAuthority newAuthority)
  | emit start last => .emit start last

def TokenGroupInstruction.request : TokenGroupInstruction → Request
  | initializeGroup updateAuthority maxSize =>
    .instruction (.initializeGroup updateAuthority maxSize)
  | updateGroupMaxSize maxSize => .instruction (.updateGroupMaxSize maxSize)
  | updateGroupAuthority newAuthority => .instruction (.updateGroupAuthority newAuthority)
  | initializeMember => .instruction .initializeMember

/-- The handler that an input selects, followed to the processor of its extension. -/
def Processor.Selected.request : Selected → Result Request
  | .instruction i => .ok (.instruction i)
  | .amountToUiAmount amount => .ok (.amountToUiAmount amount)
  | .uiAmountToAmount uiAmount => .ok (.uiAmountToAmount uiAmount)
  | .extension t input => decodeExtension input t

/-- The decoding in `Processor::process`, to the end. -/
def interpret (I : SplInterfaces) (input : Bytes) : Result Request :=
  match decodeInstructionType input with
  | .ok t => do
    let s ← select input t
    s.request
  | .error _ =>
    match I.metadata input with
    | some i => .ok i.request
    | none =>
      match I.group input with
      | some i => .ok i.request
      | none => .error TokenError.invalidInstruction

/-! ## Writing -/

/-- `encode_instruction`. -/
def encodeInstruction (t : TokenInstruction) (tag : UInt8) {D : Type} [Pod D] (data : D) : Bytes :=
  t.pack ++ tag :: Pod.toBytes data

/-- The data of a transfer, with or without a fee. -/
def TransferData.pack (d : ConfidentialTransfer.TransferData) : Bytes :=
  match d.feeSigmaProofInstructionOffset, d.feeCiphertextValidityProofInstructionOffset with
  | some sigma, some validity =>
    encodeInstruction .confidentialTransferExtension 13
      (⟨d.newSourceDecryptableAvailableBalance, d.auditorCiphertextLo, d.auditorCiphertextHi,
        .ofInt d.equalityProofInstructionOffset,
        .ofInt d.ciphertextValidityProofInstructionOffset, .ofInt sigma, .ofInt validity,
        .ofInt d.rangeProofInstructionOffset⟩ : TransferWithFeeInstructionData)
  | _, _ =>
    encodeInstruction .confidentialTransferExtension 7
      (⟨d.newSourceDecryptableAvailableBalance, d.auditorCiphertextLo, d.auditorCiphertextHi,
        .ofInt d.equalityProofInstructionOffset,
        .ofInt d.ciphertextValidityProofInstructionOffset,
        .ofInt d.rangeProofInstructionOffset⟩ : TransferInstructionData)

/-- The data of a confidential mint or burn. -/
def InstructionData.encode (d : ConfidentialMintBurn.InstructionData) : AmountInstructionData where
  newDecryptableBalance := d.newDecryptableBalance
  amountAuditorCiphertextLo := d.auditorCiphertextLo
  amountAuditorCiphertextHi := d.auditorCiphertextHi
  equalityProofInstructionOffset := .ofInt d.equalityProofInstructionOffset
  ciphertextValidityProofInstructionOffset := .ofInt d.ciphertextValidityProofInstructionOffset
  rangeProofInstructionOffset := .ofInt d.rangeProofInstructionOffset

/-- The data that the builder of an instruction writes. -/
def Instruction.pack : Instruction → Bytes
  | .initializeMint decimals mintAuthority freezeAuthority =>
    TokenInstruction.pack (.initializeMint decimals mintAuthority freezeAuthority)
  | .initializeMint2 decimals mintAuthority freezeAuthority =>
    TokenInstruction.pack (.initializeMint2 decimals mintAuthority freezeAuthority)
  | .initializeAccount => TokenInstruction.pack .initializeAccount
  | .initializeAccount2 owner => TokenInstruction.pack (.initializeAccount2 owner)
  | .initializeAccount3 owner => TokenInstruction.pack (.initializeAccount3 owner)
  | .initializeMultisig m => TokenInstruction.pack (.initializeMultisig m)
  | .initializeMultisig2 m => TokenInstruction.pack (.initializeMultisig2 m)
  | .transfer amount => TokenInstruction.pack (.transfer amount)
  | .approve amount => TokenInstruction.pack (.approve amount)
  | .revoke => TokenInstruction.pack .revoke
  | .setAuthority authorityType newAuthority =>
    TokenInstruction.pack (.setAuthority authorityType newAuthority)
  | .mintTo amount => TokenInstruction.pack (.mintTo amount)
  | .burn amount => TokenInstruction.pack (.burn amount)
  | .closeAccount => TokenInstruction.pack .closeAccount
  | .freezeAccount => TokenInstruction.pack .freezeAccount
  | .thawAccount => TokenInstruction.pack .thawAccount
  | .transferChecked amount decimals => TokenInstruction.pack (.transferChecked amount decimals)
  | .approveChecked amount decimals => TokenInstruction.pack (.approveChecked amount decimals)
  | .mintToChecked amount decimals => TokenInstruction.pack (.mintToChecked amount decimals)
  | .burnChecked amount decimals => TokenInstruction.pack (.burnChecked amount decimals)
  | .syncNative => TokenInstruction.pack .syncNative
  | .getAccountDataSize types => TokenInstruction.pack (.getAccountDataSize types)
  | .initializeMintCloseAuthority closeAuthority =>
    TokenInstruction.pack (.initializeMintCloseAuthority closeAuthority)
  | .initializeImmutableOwner => TokenInstruction.pack .initializeImmutableOwner
  | .reallocate types => TokenInstruction.pack (.reallocate types)
  | .createNativeMint => TokenInstruction.pack .createNativeMint
  | .initializeNonTransferableMint => TokenInstruction.pack .initializeNonTransferableMint
  | .initializePermanentDelegate delegate =>
    TokenInstruction.pack (.initializePermanentDelegate delegate)
  | .withdrawExcessLamports => TokenInstruction.pack .withdrawExcessLamports
  | .initializeTransferFeeConfig configAuthority withdrawWithheldAuthority basisPoints fee =>
    TokenInstruction.transferFeeExtension.pack ++ TransferFeeInstruction.pack
      (.initializeTransferFeeConfig configAuthority withdrawWithheldAuthority basisPoints fee)
  | .transferCheckedWithFee amount decimals fee =>
    TokenInstruction.transferFeeExtension.pack ++
      TransferFeeInstruction.pack (.transferCheckedWithFee amount decimals fee)
  | .withdrawWithheldTokensFromMint =>
    TokenInstruction.transferFeeExtension.pack ++
      TransferFeeInstruction.pack .withdrawWithheldTokensFromMint
  | .withdrawWithheldTokensFromAccounts num =>
    TokenInstruction.transferFeeExtension.pack ++
      TransferFeeInstruction.pack (.withdrawWithheldTokensFromAccounts num)
  | .harvestWithheldTokensToMint =>
    TokenInstruction.transferFeeExtension.pack ++
      TransferFeeInstruction.pack .harvestWithheldTokensToMint
  | .setTransferFee basisPoints fee =>
    TokenInstruction.transferFeeExtension.pack ++
      TransferFeeInstruction.pack (.setTransferFee basisPoints fee)
  | .initializeDefaultAccountState state =>
    TokenInstruction.defaultAccountStateExtension.pack ++ [0, state.toU8]
  | .updateDefaultAccountState state =>
    TokenInstruction.defaultAccountStateExtension.pack ++ [1, state.toU8]
  | .requiredMemoTransfers enable =>
    encodeInstruction .memoTransferExtension (if enable then 0 else 1) ()
  | .cpiGuard enable => encodeInstruction .cpiGuardExtension (if enable then 0 else 1) ()
  | .initializeInterestBearingMint rateAuthority rate =>
    encodeInstruction .interestBearingMintExtension 0
      (⟨rateAuthority, rate⟩ : InitializeInterestData)
  | .updateRate rate => encodeInstruction .interestBearingMintExtension 1 rate
  | .initializeTransferHook authority programId =>
    encodeInstruction .transferHookExtension 0 (⟨authority, programId⟩ : InitializeAddressData)
  | .updateTransferHook programId => encodeInstruction .transferHookExtension 1 programId
  | .initializeMetadataPointer authority address =>
    encodeInstruction .metadataPointerExtension 0 (⟨authority, address⟩ : InitializeAddressData)
  | .updateMetadataPointer address => encodeInstruction .metadataPointerExtension 1 address
  | .initializeGroupPointer authority address =>
    encodeInstruction .groupPointerExtension 0 (⟨authority, address⟩ : InitializeAddressData)
  | .updateGroupPointer address => encodeInstruction .groupPointerExtension 1 address
  | .initializeGroupMemberPointer authority address =>
    encodeInstruction .groupMemberPointerExtension 0
      (⟨authority, address⟩ : InitializeAddressData)
  | .updateGroupMemberPointer address =>
    encodeInstruction .groupMemberPointerExtension 1 address
  | .initializeScaledUiAmount authority multiplier =>
    encodeInstruction .scaledUiAmountExtension 0
      (⟨authority, multiplier⟩ : InitializeMultiplierData)
  | .updateMultiplier multiplier effectiveTimestamp =>
    encodeInstruction .scaledUiAmountExtension 1
      (⟨multiplier, effectiveTimestamp⟩ : UpdateMultiplierInstructionData)
  | .initializePausable authority => encodeInstruction .pausableExtension 0 authority
  | .pause => encodeInstruction .pausableExtension 1 ()
  | .resume => encodeInstruction .pausableExtension 2 ()
  | .initializeConfidentialTransferMint authority autoApprove auditor =>
    encodeInstruction .confidentialTransferExtension 0
      (⟨authority, autoApprove, auditor⟩ : InitializeSecretMintData)
  | .updateConfidentialTransferMint autoApprove auditor =>
    encodeInstruction .confidentialTransferExtension 1 (⟨autoApprove, auditor⟩ : UpdateMintData)
  | .configureAccount decryptableZeroBalance maximumCounter offset =>
    encodeInstruction .confidentialTransferExtension 2
      (⟨decryptableZeroBalance, maximumCounter, .ofInt offset⟩ : ConfigureAccountInstructionData)
  | .configureAccountWithRegistry => encodeInstruction .confidentialTransferExtension 14 ()
  | .approveAccount => encodeInstruction .confidentialTransferExtension 3 ()
  | .emptyAccount offset =>
    encodeInstruction .confidentialTransferExtension 4 (Int8.ofInt offset)
  | .deposit amount decimals =>
    encodeInstruction .confidentialTransferExtension 5 (⟨amount, decimals⟩ : DepositInstructionData)
  | .withdraw amount decimals newBalance equalityOffset rangeOffset =>
    encodeInstruction .confidentialTransferExtension 6
      (⟨amount, decimals, newBalance, .ofInt equalityOffset, .ofInt rangeOffset⟩ :
        WithdrawInstructionData)
  | .confidentialTransfer data => TransferData.pack data
  | .applyPendingBalance expectedCounter newBalance =>
    encodeInstruction .confidentialTransferExtension 8
      (⟨expectedCounter, newBalance⟩ : ApplyPendingBalanceData)
  | .confidentialCredits enable =>
    encodeInstruction .confidentialTransferExtension (if enable then 9 else 10) ()
  | .nonConfidentialCredits enable =>
    encodeInstruction .confidentialTransferExtension (if enable then 11 else 12) ()
  | .initializeConfidentialTransferFeeConfig authority key =>
    encodeInstruction .confidentialTransferFeeExtension 0
      (⟨authority, key⟩ : InitializeConfidentialTransferFeeConfigData)
  | .confidentialWithdrawWithheldTokensFromMint newBalance offset =>
    encodeInstruction .confidentialTransferFeeExtension 1
      (⟨.ofInt offset, newBalance⟩ : WithdrawWithheldTokensFromMintData)
  | .confidentialWithdrawWithheldTokensFromAccounts num newBalance offset =>
    encodeInstruction .confidentialTransferFeeExtension 2
      (⟨num, .ofInt offset, newBalance⟩ : WithdrawWithheldTokensFromAccountsData)
  | .confidentialHarvestWithheldTokensToMint =>
    encodeInstruction .confidentialTransferFeeExtension 3 ()
  | .harvestToMint enable =>
    encodeInstruction .confidentialTransferFeeExtension (if enable then 4 else 5) ()
  | .initializeConfidentialMintBurn key decryptableSupply =>
    encodeInstruction .confidentialMintBurnExtension 0
      (⟨key, decryptableSupply⟩ : InitializeMintBurnData)
  | .rotateSupplyElGamalPubkey offset =>
    encodeInstruction .confidentialMintBurnExtension 1
      (⟨0, .ofInt offset⟩ : RotateSupplyElGamalPubkeyData)
  | .updateDecryptableSupply newDecryptableSupply =>
    encodeInstruction .confidentialMintBurnExtension 2 newDecryptableSupply
  | .confidentialMint data =>
    encodeInstruction .confidentialMintBurnExtension 3 (InstructionData.encode data)
  | .confidentialBurn data =>
    encodeInstruction .confidentialMintBurnExtension 4 (InstructionData.encode data)
  | .applyPendingBurn => encodeInstruction .confidentialMintBurnExtension 5 ()
  | .initializeTokenMetadata name symbol uri =>
    TokenMetadataInstruction.pack (.initializeMetadata name symbol uri)
  | .updateTokenMetadataField field value =>
    TokenMetadataInstruction.pack (.updateField field value)
  | .removeTokenMetadataKey key idempotent =>
    TokenMetadataInstruction.pack (.removeKey idempotent key)
  | .updateTokenMetadataAuthority newAuthority =>
    TokenMetadataInstruction.pack (.updateAuthority newAuthority)
  | .initializeGroup updateAuthority maxSize =>
    TokenGroupInstruction.pack (.initializeGroup updateAuthority maxSize)
  | .updateGroupMaxSize maxSize => TokenGroupInstruction.pack (.updateGroupMaxSize maxSize)
  | .updateGroupAuthority newAuthority =>
    TokenGroupInstruction.pack (.updateGroupAuthority newAuthority)
  | .initializeMember => TokenGroupInstruction.pack .initializeMember

def Request.pack : Request → Bytes
  | .instruction i => i.pack
  | .rotateSupplyElGamalPubkey newSupplyElgamalPubkey offset =>
    encodeInstruction .confidentialMintBurnExtension 1
      (⟨newSupplyElgamalPubkey, offset⟩ : RotateSupplyElGamalPubkeyData)
  | .amountToUiAmount amount => TokenInstruction.pack (.amountToUiAmount amount)
  | .uiAmountToAmount uiAmount => TokenInstruction.pack (.uiAmountToAmount uiAmount)
  | .emit start last => TokenMetadataInstruction.pack (.emit start last)

/-! ## What can be written -/

/-- A proof offset has one byte. -/
def FitsOffset (x : Int) : Prop := -2 ^ 7 ≤ x ∧ x < 2 ^ 7

def Instruction.Encodable : Instruction → Prop
  | .configureAccount _ _ offset | .emptyAccount offset
  | .confidentialWithdrawWithheldTokensFromMint _ offset
  | .confidentialWithdrawWithheldTokensFromAccounts _ _ offset
  | .rotateSupplyElGamalPubkey offset => FitsOffset offset
  | .withdraw _ _ _ equalityOffset rangeOffset =>
    FitsOffset equalityOffset ∧ FitsOffset rangeOffset
  | .confidentialTransfer data =>
    FitsOffset data.equalityProofInstructionOffset ∧
      FitsOffset data.ciphertextValidityProofInstructionOffset ∧
      FitsOffset data.rangeProofInstructionOffset ∧
      ((data.feeSigmaProofInstructionOffset = none ∧
          data.feeCiphertextValidityProofInstructionOffset = none) ∨
        ∃ sigma validity, data.feeSigmaProofInstructionOffset = some sigma ∧
          data.feeCiphertextValidityProofInstructionOffset = some validity ∧
          FitsOffset sigma ∧ FitsOffset validity)
  | .confidentialMint data | .confidentialBurn data =>
    FitsOffset data.equalityProofInstructionOffset ∧
      FitsOffset data.ciphertextValidityProofInstructionOffset ∧
      FitsOffset data.rangeProofInstructionOffset
  | .initializeTokenMetadata name symbol uri =>
    TokenMetadataInstruction.Sized (.initializeMetadata name symbol uri)
  | .updateTokenMetadataField field value =>
    TokenMetadataInstruction.Sized (.updateField field value)
  | .removeTokenMetadataKey key idempotent =>
    TokenMetadataInstruction.Sized (.removeKey idempotent key)
  | _ => True

/-- A rotation always comes with a key. -/
def Request.Encodable : Request → Prop
  | .instruction (.rotateSupplyElGamalPubkey _) => False
  | .instruction i => i.Encodable
  | _ => True

/-- The handler does not look at what follows the data. -/
def Request.lenient : Request → Bool
  | .instruction (.initializeMint ..) | .instruction (.initializeMint2 ..)
  | .instruction .initializeAccount | .instruction .revoke | .instruction (.setAuthority ..)
  | .instruction .closeAccount | .instruction .freezeAccount | .instruction .thawAccount
  | .instruction .syncNative | .instruction (.initializeMintCloseAuthority _)
  | .instruction .initializeImmutableOwner | .instruction .createNativeMint
  | .instruction .initializeNonTransferableMint | .instruction .withdrawExcessLamports
  | .instruction (.initializeTransferFeeConfig ..) | .instruction (.transferCheckedWithFee ..)
  | .instruction .withdrawWithheldTokensFromMint
  | .instruction (.withdrawWithheldTokensFromAccounts _)
  | .instruction .harvestWithheldTokensToMint | .instruction (.setTransferFee ..)
  | .instruction (.requiredMemoTransfers _) | .instruction (.cpiGuard _) | .instruction .pause
  | .instruction .resume | .instruction .approveAccount
  | .instruction .configureAccountWithRegistry | .instruction (.confidentialCredits _)
  | .instruction (.nonConfidentialCredits _)
  | .instruction .confidentialHarvestWithheldTokensToMint | .instruction (.harvestToMint _)
  | .instruction .applyPendingBurn => true
  | _ => false

def Request.encoding : Encoding Request where
  pack := pack
  lenient := lenient
  valid := Encodable

end SolanaEasy.Token
