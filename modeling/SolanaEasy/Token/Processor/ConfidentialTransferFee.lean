import SolanaEasy.Token.Processor.ConfidentialTransferTokens

/-!
# Confidential transfer fees — withheld amounts under encryption

`program/src/extension/confidential_transfer_fee/processor.rs`. A withdrawal
proves that the withheld ciphertexts add up to what the destination is credited,
re-encrypted under the destination's key.
-/

namespace SolanaEasy.Token.Processor.ConfidentialTransferFee

open CiphertextArithmetic ConfidentialTransfer

/-- `process_initialize_confidential_transfer_fee_config`. -/
def processInitializeConfidentialTransferFeeConfig (accounts : List AccountInfo)
    (authority : OptionalNonZeroPubkey)
    (withdrawWithheldAuthorityElgamalPubkey : PodElGamalPubkey) :
    Ledger → Result Ledger :=
  initMintExtension accounts (.ok ())
    (.ok (⟨authority, withdrawWithheldAuthorityElgamalPubkey, .ofBool true, .zeroed⟩ :
      ConfidentialTransferFeeConfig))

/-- The authority that may withdraw withheld fees. -/
def checkWithdrawAuthority (σ : Ledger) (mint : PodState PodMint) (authorityInfo : AccountInfo)
    (signers : List AccountInfo) : Result Unit := do
  let transferFeeConfig ← mint.getExtension TransferFeeConfig
  let withdrawWithheldAuthority ←
    okOr TokenError.noAuthorityExists transferFeeConfig.withdrawWithheldAuthority.toOption
  checkOwner σ authorityInfo signers withdrawWithheldAuthority

/-- The destination of a withdrawal, open for credits. -/
def loadFeeDestination (σ : Ledger) (mintKey destinationKey : Pubkey) :
    Result (PodState PodAccount) := do
  let destination ← loadCheckedBeside σ PodAccount mintKey destinationKey
  failIf (destination.base.mint != mintKey) TokenError.mintMismatch
  failIf destination.base.isFrozen TokenError.accountFrozen
  return destination

/-- The keys of an equality proof: the fee key of the mint, then the destination's. -/
def checkFeeKeys (proofContext : CiphertextCiphertextEqualityProofContext)
    (feeConfig : ConfidentialTransferFeeConfig) (state : ConfidentialTransferAccount) :
    Result Unit := do
  failIf (proofContext.firstPubkey != feeConfig.withdrawWithheldAuthorityElgamalPubkey)
    TokenError.confidentialTransferElGamalPubkeyMismatch
  failIf (proofContext.secondPubkey != state.elgamalPubkey)
    TokenError.confidentialTransferElGamalPubkeyMismatch

/-- The credit of a withdrawal to the available balance. -/
def feeCredited (rt : Runtime) (failure : ProgramError) (second : PodElGamalCiphertext)
    (newDecryptableAvailableBalance : PodAeCiphertext) (state : ConfidentialTransferAccount) :
    Result ConfidentialTransferAccount := do
  let availableBalance ← okOr failure (add rt state.availableBalance second)
  return { state with
    availableBalance := availableBalance
    decryptableAvailableBalance := newDecryptableAvailableBalance }

/-- `process_withdraw_withheld_tokens_from_mint`. -/
def processWithdrawWithheldTokensFromMint (rt : Runtime) (ctx : Context)
    (accounts : List AccountInfo) (newDecryptableAvailableBalance : PodAeCiphertext)
    (proofInstructionOffset : Int) (σ : Ledger) : Result Ledger :=
  match accounts with
  | mintInfo :: destinationInfo :: rest => do
    let (proofContext, rest) ← verifyAndExtractContext CiphertextCiphertextEqualityProofContext
      .ciphertextCiphertextEquality ctx σ proofInstructionOffset none rest
    match rest with
    | authorityInfo :: signers => do
      let mint ← loadChecked σ PodMint mintInfo.key
      checkWithdrawAuthority σ mint authorityInfo signers
      let feeConfig ← mint.getExtension ConfidentialTransferFeeConfig
      let destination ← loadFeeDestination σ mintInfo.key destinationInfo.key
      let state ← destination.getExtension ConfidentialTransferAccount
      state.validAsDestination
      checkFeeKeys proofContext feeConfig state
      failIf (proofContext.firstCiphertext != feeConfig.withheldAmount)
        TokenError.confidentialTransferBalanceMismatch
      let state ← feeCredited rt TokenError.ciphertextArithmeticFailed
        proofContext.secondCiphertext newDecryptableAvailableBalance state
      let destination ← destination.setExtension state
      let mint ← mint.setExtension { feeConfig with withheldAmount := .zeroed }
      let σ ← store σ destinationInfo.key destination
      store σ mintInfo.key mint
    | [] => .error .notEnoughAccountKeys
  | _ => .error .notEnoughAccountKeys

/-- `harvest_from_account`. -/
def harvestFromAccount (σ : Ledger) (mintKey accountKey : Pubkey) :
    Result (Ledger × PodElGamalCiphertext) := do
  let account ← mapErr (.token .invalidState) (load σ PodAccount accountKey)
  failIf (account.base.mint != mintKey) TokenError.mintMismatch
  mapErr (.token .invalidState) (checkProgramAccount (σ accountKey).owner)
  let extension ← mapErr (.token .invalidState)
    (account.getExtension ConfidentialTransferFeeAmount)
  let account ← account.setExtension { extension with withheldAmount := .zeroed }
  let σ ← store σ accountKey account
  return (σ, extension.withheldAmount)

/-- The loop of `process_withdraw_withheld_tokens_from_accounts`: the destination
stays borrowed, and the aggregate is summed under encryption. -/
def withdrawAll (rt : Runtime) (mintKey destinationKey : Pubkey) : List AccountInfo → Ledger →
    PodState PodAccount → PodElGamalCiphertext →
    Result (Ledger × PodState PodAccount × PodElGamalCiphertext)
  | [], σ, destination, aggregate => .ok (σ, destination, aggregate)
  | accountInfo :: rest, σ, destination, aggregate =>
    if accountInfo.key == destinationKey then do
      let extension ← mapErr (.token .invalidState)
        (destination.getExtension ConfidentialTransferFeeAmount)
      let aggregate ← arithmetic (add rt aggregate extension.withheldAmount)
      let destination ← destination.setExtension { extension with withheldAmount := .zeroed }
      withdrawAll rt mintKey destinationKey rest σ destination aggregate
    else do
      failIf (accountInfo.key == mintKey) RuntimeFault.accountBorrowFailed
      match toOption (harvestFromAccount σ mintKey accountInfo.key) with
      | some (σ, withheldAmount) => do
        let aggregate ← arithmetic (add rt aggregate withheldAmount)
        withdrawAll rt mintKey destinationKey rest σ destination aggregate
      | none => withdrawAll rt mintKey destinationKey rest σ destination aggregate

/-- `process_withdraw_withheld_tokens_from_accounts`. -/
def processWithdrawWithheldTokensFromAccounts (rt : Runtime) (ctx : Context)
    (accounts : List AccountInfo) (numTokenAccounts : UInt8)
    (newDecryptableAvailableBalance : PodAeCiphertext) (proofInstructionOffset : Int)
    (σ : Ledger) : Result Ledger :=
  match accounts with
  | mintInfo :: destinationInfo :: rest => do
    let (proofContext, rest) ← verifyAndExtractContext CiphertextCiphertextEqualityProofContext
      .ciphertextCiphertextEquality ctx σ proofInstructionOffset none rest
    match rest with
    | authorityInfo :: accountInfos => do
      let numSigners := accountInfos.length - numTokenAccounts.toNat
      let mint ← loadChecked σ PodMint mintInfo.key
      checkWithdrawAuthority σ mint authorityInfo (accountInfos.take numSigners)
      let destination ← loadFeeDestination σ mintInfo.key destinationInfo.key
      let state ← destination.getExtension ConfidentialTransferAccount
      state.validAsDestination
      let feeConfig ← mint.getExtension ConfidentialTransferFeeConfig
      checkFeeKeys proofContext feeConfig state
      let (σ, destination, aggregate) ← withdrawAll rt mintInfo.key destinationInfo.key
        (accountInfos.drop numSigners) σ destination .zeroed
      failIf (proofContext.firstCiphertext != aggregate)
        TokenError.confidentialTransferBalanceMismatch
      let state ← destination.getExtension ConfidentialTransferAccount
      let state ← feeCredited rt .invalidInstructionData proofContext.secondCiphertext
        newDecryptableAvailableBalance state
      let destination ← destination.setExtension state
      store σ destinationInfo.key destination
    | [] => .error .notEnoughAccountKeys
  | _ => .error .notEnoughAccountKeys

/-- The loop of `process_harvest_withheld_tokens_to_mint`. -/
def harvestAll (rt : Runtime) (mintKey : Pubkey) : List AccountInfo → Ledger →
    ConfidentialTransferFeeConfig → Result (Ledger × ConfidentialTransferFeeConfig)
  | [], σ, feeConfig => .ok (σ, feeConfig)
  | accountInfo :: rest, σ, feeConfig => do
    failIf (accountInfo.key == mintKey) RuntimeFault.accountBorrowFailed
    match toOption (harvestFromAccount σ mintKey accountInfo.key) with
    | some (σ, withheldAmount) => do
      let sum ← arithmetic (add rt feeConfig.withheldAmount withheldAmount)
      harvestAll rt mintKey rest σ { feeConfig with withheldAmount := sum }
    | none => harvestAll rt mintKey rest σ feeConfig

/-- `process_harvest_withheld_tokens_to_mint`. -/
def processHarvestWithheldTokensToMint (rt : Runtime) (accounts : List AccountInfo)
    (σ : Ledger) : Result Ledger :=
  match accounts with
  | mintInfo :: tokenAccountInfos => do
    let mint ← loadChecked σ PodMint mintInfo.key
    let _ ← mint.getExtension TransferFeeConfig
    let feeConfig ← mint.getExtension ConfidentialTransferFeeConfig
    failIf (!feeConfig.harvestToMintEnabled.toBool) TokenError.harvestToMintDisabled
    let (σ, feeConfig) ← harvestAll rt mintInfo.key tokenAccountInfos σ feeConfig
    let mint ← mint.setExtension feeConfig
    store σ mintInfo.key mint
  | [] => .error .notEnoughAccountKeys

/-- The two functions that switch harvesting to the mint. -/
def toggleHarvestToMint (accounts : List AccountInfo) (enabled : Bool) (σ : Ledger) :
    Result Ledger :=
  match accounts with
  | mintInfo :: _ :: _ => do
    checkProgramAccount (σ mintInfo.key).owner
    updateMintExtension accounts (fun e : ConfidentialTransferFeeConfig => e.authority.toOption)
      .noAuthorityExists (fun e => .ok { e with harvestToMintEnabled := .ofBool enabled }) σ
  | _ => .error .notEnoughAccountKeys

/-- `process_enable_harvest_to_mint`. -/
def processEnableHarvestToMint (accounts : List AccountInfo) : Ledger → Result Ledger :=
  toggleHarvestToMint accounts true

/-- `process_disable_harvest_to_mint`. -/
def processDisableHarvestToMint (accounts : List AccountInfo) : Ledger → Result Ledger :=
  toggleHarvestToMint accounts false

end SolanaEasy.Token.Processor.ConfidentialTransferFee
