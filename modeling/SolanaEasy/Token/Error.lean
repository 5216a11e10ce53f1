import SolanaEasy.Lib.Result

/-!
# Errors

`TokenError` follows `interface/src/error.rs`. `ProgramError` adds the program
errors the processors return, the errors of the crates whose code the handlers
call, and the faults with which the runtime ends an instruction: a panic, a
second borrow of an account, and a change to an account the program may not
change.
-/

namespace SolanaEasy.Token

inductive TokenError where
  | notRentExempt
  | insufficientFunds
  | invalidMint
  | mintMismatch
  | ownerMismatch
  | fixedSupply
  | alreadyInUse
  | invalidNumberOfProvidedSigners
  | invalidNumberOfRequiredSigners
  | uninitializedState
  | nativeNotSupported
  | nonNativeHasBalance
  | invalidInstruction
  | invalidState
  | overflow
  | authorityTypeNotSupported
  | mintCannotFreeze
  | accountFrozen
  | mintDecimalsMismatch
  | nonNativeNotSupported
  | extensionTypeMismatch
  | extensionBaseMismatch
  | extensionAlreadyInitialized
  | confidentialTransferAccountHasBalance
  | confidentialTransferAccountNotApproved
  | confidentialTransferDepositsAndTransfersDisabled
  | confidentialTransferElGamalPubkeyMismatch
  | confidentialTransferBalanceMismatch
  | mintHasSupply
  | noAuthorityExists
  | transferFeeExceedsMaximum
  | mintRequiredForTransfer
  | feeMismatch
  | feeParametersMismatch
  | immutableOwner
  | accountHasWithheldTransferFees
  | noMemo
  | nonTransferable
  | nonTransferableNeedsImmutableOwnership
  | maximumPendingBalanceCreditCounterExceeded
  | maximumDepositAmountExceeded
  | cpiGuardSettingsLocked
  | cpiGuardTransferBlocked
  | cpiGuardBurnBlocked
  | cpiGuardCloseAccountBlocked
  | cpiGuardApproveBlocked
  | cpiGuardSetAuthorityBlocked
  | cpiGuardOwnerChangeBlocked
  | extensionNotFound
  | nonConfidentialTransfersDisabled
  | confidentialTransferFeeAccountHasWithheldFee
  | invalidExtensionCombination
  | invalidLengthForAlloc
  | accountDecryption
  | proofGeneration
  | invalidProofInstructionOffset
  | harvestToMintDisabled
  | splitProofContextStateAccountsNotSupported
  | notEnoughProofContextStateAccounts
  | malformedCiphertext
  | ciphertextArithmeticFailed
  | pedersenCommitmentMismatch
  | rangeProofLengthMismatch
  | illegalBitLength
  | feeCalculation
  | illegalMintBurnConversion
  | invalidScale
  | mintPaused
  | pendingBalanceNonZero
deriving DecidableEq, Repr

/-- `TokenProofExtractionError` of the proof-extraction crate. -/
inductive TokenProofExtractionError where
  | elGamalPubkeyMismatch
  | pedersenCommitmentMismatch
  | rangeProofLengthMismatch
  | feeParametersMismatch
  | curveArithmetic
  | ciphertextExtraction
deriving DecidableEq, Repr

/-- `From<TokenProofExtractionError> for TokenError`. -/
def TokenProofExtractionError.toTokenError : TokenProofExtractionError → TokenError
  | elGamalPubkeyMismatch => .confidentialTransferElGamalPubkeyMismatch
  | pedersenCommitmentMismatch => .pedersenCommitmentMismatch
  | rangeProofLengthMismatch => .rangeProofLengthMismatch
  | feeParametersMismatch => .feeParametersMismatch
  | curveArithmetic => .ciphertextArithmeticFailed
  | ciphertextExtraction => .malformedCiphertext

inductive TokenMetadataError where
  | immutableMetadata
  | incorrectMintAuthority
  | incorrectUpdateAuthority
  | keyNotFound
deriving DecidableEq, Repr

inductive TokenGroupError where
  | sizeExceedsNewMaxSize
  | sizeExceedsMaxSize
  | immutableGroup
  | incorrectMintAuthority
  | incorrectUpdateAuthority
  | memberAccountIsGroupAccount
deriving DecidableEq, Repr

/-- A fault raised by the runtime rather than returned by the program. -/
inductive RuntimeFault where
  | panic
  | accountBorrowFailed
  | externalAccountDataModified
  | externalAccountLamportSpend
  | invalidRealloc
  | arithmeticOverflow
  | systemTransfer
  | syscall
deriving DecidableEq, Repr

inductive ProgramError where
  | invalidArgument
  | invalidInstructionData
  | invalidAccountData
  | accountDataTooSmall
  | incorrectProgramId
  | missingRequiredSignature
  | uninitializedAccount
  | notEnoughAccountKeys
  | accountNotRentExempt
  | illegalOwner
  | invalidAccountOwner
  | invalidSeeds
  | unsupportedSysvar
  | token (e : TokenError)
  | tokenMetadata (e : TokenMetadataError)
  | tokenGroup (e : TokenGroupError)
  | runtime (f : RuntimeFault)
deriving DecidableEq, Repr

instance : Coe TokenError ProgramError := ⟨.token⟩
instance : Coe TokenProofExtractionError ProgramError := ⟨fun e => .token e.toTokenError⟩
instance : Coe TokenMetadataError ProgramError := ⟨.tokenMetadata⟩
instance : Coe TokenGroupError ProgramError := ⟨.tokenGroup⟩
instance : Coe RuntimeFault ProgramError := ⟨.runtime⟩

abbrev Result := Except ProgramError

end SolanaEasy.Token
