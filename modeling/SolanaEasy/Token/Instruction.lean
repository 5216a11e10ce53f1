import SolanaEasy.Token.Processor.ConfidentialMintBurn
import SolanaEasy.Token.Processor.TokenMetadata

/-!
# Instructions — the program as one step function

`Instruction` lists what `Processor::process` dispatches on, after decoding;
`process` is the dispatch. A run of the chain alternates successful instructions
of the token program with steps of everyone else.
-/

namespace SolanaEasy.Token

open Processor

inductive Instruction where
  | initializeMint (decimals : UInt8) (mintAuthority : Pubkey) (freezeAuthority : Option Pubkey)
  | initializeMint2 (decimals : UInt8) (mintAuthority : Pubkey) (freezeAuthority : Option Pubkey)
  | initializeAccount
  | initializeAccount2 (owner : Pubkey)
  | initializeAccount3 (owner : Pubkey)
  | initializeMultisig (m : UInt8)
  | initializeMultisig2 (m : UInt8)
  | transfer (amount : UInt64)
  | approve (amount : UInt64)
  | revoke
  | setAuthority (authorityType : AuthorityType) (newAuthority : Option Pubkey)
  | mintTo (amount : UInt64)
  | burn (amount : UInt64)
  | closeAccount
  | freezeAccount
  | thawAccount
  | transferChecked (amount : UInt64) (decimals : UInt8)
  | approveChecked (amount : UInt64) (decimals : UInt8)
  | mintToChecked (amount : UInt64) (decimals : UInt8)
  | burnChecked (amount : UInt64) (decimals : UInt8)
  | syncNative
  | getAccountDataSize (extensionTypes : List ExtensionType)
  | initializeMintCloseAuthority (closeAuthority : Option Pubkey)
  | initializeImmutableOwner
  | reallocate (extensionTypes : List ExtensionType)
  | createNativeMint
  | initializeNonTransferableMint
  | initializePermanentDelegate (delegate : Pubkey)
  | withdrawExcessLamports
  | initializeTransferFeeConfig (configAuthority withdrawWithheldAuthority : Option Pubkey)
      (transferFeeBasisPoints : UInt16) (maximumFee : UInt64)
  | transferCheckedWithFee (amount : UInt64) (decimals : UInt8) (fee : UInt64)
  | withdrawWithheldTokensFromMint
  | withdrawWithheldTokensFromAccounts (numTokenAccounts : UInt8)
  | harvestWithheldTokensToMint
  | setTransferFee (transferFeeBasisPoints : UInt16) (maximumFee : UInt64)
  | initializeDefaultAccountState (state : AccountState)
  | updateDefaultAccountState (state : AccountState)
  | requiredMemoTransfers (enable : Bool)
  | cpiGuard (enable : Bool)
  | initializeInterestBearingMint (rateAuthority : OptionalNonZeroPubkey) (rate : Int16)
  | updateRate (rate : Int16)
  | initializeTransferHook (authority programId : OptionalNonZeroPubkey)
  | updateTransferHook (programId : OptionalNonZeroPubkey)
  | initializeMetadataPointer (authority address : OptionalNonZeroPubkey)
  | updateMetadataPointer (address : OptionalNonZeroPubkey)
  | initializeGroupPointer (authority address : OptionalNonZeroPubkey)
  | updateGroupPointer (address : OptionalNonZeroPubkey)
  | initializeGroupMemberPointer (authority address : OptionalNonZeroPubkey)
  | updateGroupMemberPointer (address : OptionalNonZeroPubkey)
  | initializeScaledUiAmount (authority : OptionalNonZeroPubkey) (multiplier : UInt64)
  | updateMultiplier (multiplier : UInt64) (effectiveTimestamp : Int64)
  | initializePausable (authority : Pubkey)
  | pause
  | resume
  | initializeConfidentialTransferMint (authority : OptionalNonZeroPubkey)
      (autoApproveNewAccounts : PodBool) (auditor : OptionalNonZeroElGamalPubkey)
  | updateConfidentialTransferMint (autoApproveNewAccounts : PodBool)
      (auditor : OptionalNonZeroElGamalPubkey)
  | configureAccount (decryptableZeroBalance : PodAeCiphertext)
      (maximumPendingBalanceCreditCounter : UInt64) (proofInstructionOffset : Int)
  | configureAccountWithRegistry
  | approveAccount
  | emptyAccount (proofInstructionOffset : Int)
  | deposit (amount : UInt64) (decimals : UInt8)
  | withdraw (amount : UInt64) (decimals : UInt8)
      (newDecryptableAvailableBalance : PodAeCiphertext) (equalityOffset rangeOffset : Int)
  | confidentialTransfer (data : ConfidentialTransfer.TransferData)
  | applyPendingBalance (expectedPendingBalanceCreditCounter : UInt64)
      (newDecryptableAvailableBalance : PodAeCiphertext)
  | confidentialCredits (enable : Bool)
  | nonConfidentialCredits (enable : Bool)
  | initializeConfidentialTransferFeeConfig (authority : OptionalNonZeroPubkey)
      (withdrawWithheldAuthorityElgamalPubkey : PodElGamalPubkey)
  | confidentialWithdrawWithheldTokensFromMint
      (newDecryptableAvailableBalance : PodAeCiphertext) (proofInstructionOffset : Int)
  | confidentialWithdrawWithheldTokensFromAccounts (numTokenAccounts : UInt8)
      (newDecryptableAvailableBalance : PodAeCiphertext) (proofInstructionOffset : Int)
  | confidentialHarvestWithheldTokensToMint
  | harvestToMint (enable : Bool)
  | initializeConfidentialMintBurn (supplyElgamalPubkey : PodElGamalPubkey)
      (decryptableSupply : PodAeCiphertext)
  | rotateSupplyElGamalPubkey (proofInstructionOffset : Int)
  | updateDecryptableSupply (newDecryptableSupply : PodAeCiphertext)
  | confidentialMint (data : ConfidentialMintBurn.InstructionData)
  | confidentialBurn (data : ConfidentialMintBurn.InstructionData)
  | applyPendingBurn
  | initializeTokenMetadata (name symbol uri : String)
  | updateTokenMetadataField (field : TokenMetadata.Field) (value : String)
  | removeTokenMetadataKey (key : String) (idempotent : Bool)
  | updateTokenMetadataAuthority (newAuthority : OptionalNonZeroPubkey)
  | initializeGroup (updateAuthority : OptionalNonZeroPubkey) (maxSize : UInt64)
  | updateGroupMaxSize (maxSize : UInt64)
  | updateGroupAuthority (newAuthority : OptionalNonZeroPubkey)
  | initializeMember

/-- `Processor::process`, on a decoded instruction. `GetAccountDataSize` answers
through the return data and leaves the ledger alone. -/
def process (rt : Runtime) (ctx : Context) (accounts : List AccountInfo) :
    Instruction → Ledger → Result Ledger
  | .initializeMint decimals mintAuthority freezeAuthority =>
    processInitializeMint rt accounts decimals mintAuthority (.ofOption freezeAuthority)
  | .initializeMint2 decimals mintAuthority freezeAuthority =>
    processInitializeMint2 rt accounts decimals mintAuthority (.ofOption freezeAuthority)
  | .initializeAccount => processInitializeAccount rt accounts
  | .initializeAccount2 owner => processInitializeAccount2 rt accounts owner
  | .initializeAccount3 owner => processInitializeAccount3 rt accounts owner
  | .initializeMultisig m => processInitializeMultisig rt accounts m
  | .initializeMultisig2 m => processInitializeMultisig2 rt accounts m
  | .transfer amount => processTransfer ctx accounts amount .unchecked
  | .approve amount => processApprove ctx accounts amount .unchecked
  | .revoke => processRevoke accounts
  | .setAuthority authorityType newAuthority =>
    processSetAuthority ctx accounts authorityType (.ofOption newAuthority)
  | .mintTo amount => processMintTo accounts amount .unchecked
  | .burn amount => processBurn ctx accounts amount .unchecked
  | .closeAccount => processCloseAccount ctx accounts
  | .freezeAccount => processToggleFreezeAccount accounts true
  | .thawAccount => processToggleFreezeAccount accounts false
  | .transferChecked amount decimals => processTransfer ctx accounts amount (.checked decimals)
  | .approveChecked amount decimals => processApprove ctx accounts amount (.checked decimals)
  | .mintToChecked amount decimals => processMintTo accounts amount (.checked decimals)
  | .burnChecked amount decimals => processBurn ctx accounts amount (.checked decimals)
  | .syncNative => processSyncNative accounts
  | .getAccountDataSize extensionTypes => fun σ => do
    let _ ← processGetAccountDataSize accounts extensionTypes σ
    return σ
  | .initializeMintCloseAuthority closeAuthority =>
    processInitializeMintCloseAuthority accounts (.ofOption closeAuthority)
  | .initializeImmutableOwner => processInitializeImmutableOwner accounts
  | .reallocate extensionTypes => processReallocate rt accounts extensionTypes
  | .createNativeMint => processCreateNativeMint rt accounts
  | .initializeNonTransferableMint => processInitializeNonTransferableMint accounts
  | .initializePermanentDelegate delegate => processInitializePermanentDelegate accounts delegate
  | .withdrawExcessLamports => processWithdrawExcessLamports rt accounts
  | .initializeTransferFeeConfig configAuthority withdrawWithheldAuthority basisPoints maximumFee =>
    TransferFee.processInitializeTransferFeeConfig ctx accounts configAuthority
      withdrawWithheldAuthority basisPoints maximumFee
  | .transferCheckedWithFee amount decimals fee =>
    processTransfer ctx accounts amount (.checkedWithFee decimals fee)
  | .withdrawWithheldTokensFromMint => TransferFee.processWithdrawWithheldTokensFromMint accounts
  | .withdrawWithheldTokensFromAccounts numTokenAccounts =>
    TransferFee.processWithdrawWithheldTokensFromAccounts accounts numTokenAccounts
  | .harvestWithheldTokensToMint => TransferFee.processHarvestWithheldTokensToMint accounts
  | .setTransferFee basisPoints maximumFee =>
    TransferFee.processSetTransferFee ctx accounts basisPoints maximumFee
  | .initializeDefaultAccountState state => processInitializeDefaultAccountState accounts state
  | .updateDefaultAccountState state => processUpdateDefaultAccountState accounts state
  | .requiredMemoTransfers enable => processToggleRequiredMemoTransfers accounts enable
  | .cpiGuard enable => processToggleCpiGuard ctx accounts enable
  | .initializeInterestBearingMint rateAuthority rate =>
    InterestBearingMint.processInitialize ctx accounts rateAuthority rate
  | .updateRate rate => InterestBearingMint.processUpdateRate ctx accounts rate
  | .initializeTransferHook authority programId =>
    TransferHook.processInitialize accounts authority programId
  | .updateTransferHook programId => TransferHook.processUpdate accounts programId
  | .initializeMetadataPointer authority address =>
    MetadataPointer.processInitialize accounts authority address
  | .updateMetadataPointer address => MetadataPointer.processUpdate accounts address
  | .initializeGroupPointer authority address =>
    GroupPointer.processInitialize accounts authority address
  | .updateGroupPointer address => GroupPointer.processUpdate accounts address
  | .initializeGroupMemberPointer authority address =>
    GroupMemberPointer.processInitialize accounts authority address
  | .updateGroupMemberPointer address => GroupMemberPointer.processUpdate accounts address
  | .initializeScaledUiAmount authority multiplier =>
    ScaledUiAmount.processInitialize accounts authority multiplier
  | .updateMultiplier multiplier effectiveTimestamp =>
    ScaledUiAmount.processUpdateMultiplier ctx accounts multiplier effectiveTimestamp
  | .initializePausable authority => Pausable.processInitialize accounts authority
  | .pause => Pausable.processTogglePause accounts true
  | .resume => Pausable.processTogglePause accounts false
  | .initializeConfidentialTransferMint authority autoApprove auditor =>
    ConfidentialTransfer.processInitializeMint accounts authority autoApprove auditor
  | .updateConfidentialTransferMint autoApprove auditor =>
    ConfidentialTransfer.processUpdateMint accounts autoApprove auditor
  | .configureAccount decryptableZeroBalance maximumCounter offset =>
    ConfidentialTransfer.processConfigureAccount ctx accounts decryptableZeroBalance
      maximumCounter offset
  | .configureAccountWithRegistry =>
    ConfidentialTransfer.processConfigureAccountWithRegistry rt accounts
  | .approveAccount => ConfidentialTransfer.processApproveAccount accounts
  | .emptyAccount offset => ConfidentialTransfer.processEmptyAccount ctx accounts offset
  | .deposit amount decimals => ConfidentialTransfer.processDeposit rt accounts amount decimals
  | .withdraw amount decimals newBalance equalityOffset rangeOffset =>
    ConfidentialTransfer.processWithdraw rt ctx accounts amount decimals newBalance
      equalityOffset rangeOffset
  | .confidentialTransfer data => ConfidentialTransfer.processTransfer rt ctx accounts data
  | .applyPendingBalance expectedCounter newBalance =>
    ConfidentialTransfer.processApplyPendingBalance rt accounts expectedCounter newBalance
  | .confidentialCredits enable =>
    ConfidentialTransfer.processAllowConfidentialCredits accounts enable
  | .nonConfidentialCredits enable =>
    ConfidentialTransfer.processAllowNonConfidentialCredits accounts enable
  | .initializeConfidentialTransferFeeConfig authority key =>
    ConfidentialTransferFee.processInitializeConfidentialTransferFeeConfig accounts authority key
  | .confidentialWithdrawWithheldTokensFromMint newBalance offset =>
    ConfidentialTransferFee.processWithdrawWithheldTokensFromMint rt ctx accounts newBalance offset
  | .confidentialWithdrawWithheldTokensFromAccounts numTokenAccounts newBalance offset =>
    ConfidentialTransferFee.processWithdrawWithheldTokensFromAccounts rt ctx accounts
      numTokenAccounts newBalance offset
  | .confidentialHarvestWithheldTokensToMint =>
    ConfidentialTransferFee.processHarvestWithheldTokensToMint rt accounts
  | .harvestToMint true => ConfidentialTransferFee.processEnableHarvestToMint accounts
  | .harvestToMint false => ConfidentialTransferFee.processDisableHarvestToMint accounts
  | .initializeConfidentialMintBurn key decryptableSupply =>
    ConfidentialMintBurn.processInitializeMint accounts key decryptableSupply
  | .rotateSupplyElGamalPubkey offset =>
    ConfidentialMintBurn.processRotateSupplyElGamalPubkey ctx accounts offset
  | .updateDecryptableSupply newDecryptableSupply =>
    ConfidentialMintBurn.processUpdateDecryptableSupply accounts newDecryptableSupply
  | .confidentialMint data => ConfidentialMintBurn.processConfidentialMint rt ctx accounts data
  | .confidentialBurn data => ConfidentialMintBurn.processConfidentialBurn rt ctx accounts data
  | .applyPendingBurn => ConfidentialMintBurn.processApplyPendingBurn rt accounts
  | .initializeTokenMetadata name symbol uri =>
    TokenMetadata.processInitialize rt accounts name symbol uri
  | .updateTokenMetadataField field value =>
    TokenMetadata.processUpdateField rt accounts field value
  | .removeTokenMetadataKey key idempotent =>
    TokenMetadata.processRemoveKey rt accounts key idempotent
  | .updateTokenMetadataAuthority newAuthority =>
    TokenMetadata.processUpdateAuthority rt accounts newAuthority
  | .initializeGroup updateAuthority maxSize =>
    TokenGroup.processInitializeGroup accounts updateAuthority maxSize
  | .updateGroupMaxSize maxSize => TokenGroup.processUpdateGroupMaxSize accounts maxSize
  | .updateGroupAuthority newAuthority =>
    TokenGroup.processUpdateGroupAuthority accounts newAuthority
  | .initializeMember => TokenGroup.processInitializeMember accounts

end SolanaEasy.Token
