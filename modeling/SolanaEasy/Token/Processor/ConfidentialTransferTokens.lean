import SolanaEasy.Token.Processor.ConfidentialTransfer

/-!
# Confidential transfers between accounts

`process_transfer` of `program/src/extension/confidential_transfer/processor.rs`
and the four functions it calls. The source is written back before the
destination is read, so a self-transfer sees its own debit.
-/

namespace SolanaEasy.Token.Processor.ConfidentialTransfer

open CiphertextArithmetic

/-- `check_auditor_ciphertext`. -/
def checkAuditorCiphertext (lo hi : PodElGamalCiphertext)
    (groupedLo groupedHi : PodGroupedElGamalCiphertext3Handles) : Result Unit := do
  let auditorLo ← groupedLo.tryExtractCiphertext 2
  let auditorHi ← groupedHi.tryExtractCiphertext 2
  failIf (lo != auditorLo) TokenError.confidentialTransferBalanceMismatch
  failIf (hi != auditorHi) TokenError.confidentialTransferBalanceMismatch

/-! ## Source -/

/-- The checks of `process_source_for_transfer` before its balance is read. -/
def checkSource (ctx : Context) (σ : Ledger) (account : PodState PodAccount) (mintKey : Pubkey)
    (authorityInfo : AccountInfo) (signers : List AccountInfo) : Result Unit := do
  failIf (account.hasExtension NonTransferableAccount) TokenError.nonTransferable
  checkOwner σ authorityInfo signers account.base.owner
  failIf (cpiGuardLocked account && authorityInfo.key == account.base.owner && ctx.inCpi)
    TokenError.cpiGuardTransferBlocked
  failIf account.base.isFrozen TokenError.accountFrozen
  failIf (account.base.mint != mintKey) TokenError.mintMismatch

/-- The debit of an encrypted amount, compared with the balance that was proved. -/
def debited (rt : Runtime) (sourcePubkey : PodElGamalPubkey)
    (ciphertextLo ciphertextHi : PodGroupedElGamalCiphertext3Handles)
    (newSourceCiphertext : PodElGamalCiphertext)
    (newSourceDecryptableAvailableBalance : PodAeCiphertext)
    (state : ConfidentialTransferAccount) : Result ConfidentialTransferAccount := do
  state.validAsSource
  failIf (sourcePubkey != state.elgamalPubkey)
    TokenError.confidentialTransferElGamalPubkeyMismatch
  let amountLo ← ciphertextLo.tryExtractCiphertext 0
  let amountHi ← ciphertextHi.tryExtractCiphertext 0
  let newAvailableBalance ← arithmetic
    (subtractWithLoHi rt state.availableBalance amountLo amountHi)
  failIf (newAvailableBalance != newSourceCiphertext)
    TokenError.confidentialTransferBalanceMismatch
  return { state with
    availableBalance := newAvailableBalance
    decryptableAvailableBalance := newSourceDecryptableAvailableBalance }

/-- The two source functions, which differ in the type of their proof context. -/
def debitSource (ctx : Context) (σ : Ledger)
    (sourceInfo mintInfo authorityInfo : AccountInfo) (signers : List AccountInfo)
    (update : ConfidentialTransferAccount → Result ConfidentialTransferAccount) :
    Result Ledger := do
  checkProgramAccount (σ sourceInfo.key).owner
  -- `authority_info.data_len()` while the mint is mutably borrowed
  failIf (authorityInfo.key == mintInfo.key) RuntimeFault.accountBorrowFailed
  let account ← loadBeside σ PodAccount mintInfo.key sourceInfo.key
  checkSource ctx σ account mintInfo.key authorityInfo signers
  let state ← account.getExtension ConfidentialTransferAccount
  let state ← update state
  let account ← account.setExtension state
  store σ sourceInfo.key account

/-- `process_source_for_transfer`. -/
def processSourceForTransfer (rt : Runtime) (ctx : Context) (σ : Ledger)
    (sourceInfo mintInfo authorityInfo : AccountInfo) (signers : List AccountInfo)
    (proofContext : TransferProofContext)
    (newSourceDecryptableAvailableBalance : PodAeCiphertext) : Result Ledger :=
  debitSource ctx σ sourceInfo mintInfo authorityInfo signers
    (debited rt proofContext.source proofContext.ciphertextLo proofContext.ciphertextHi
      proofContext.newSourceCiphertext newSourceDecryptableAvailableBalance)

/-- `process_source_for_transfer_with_fee`. -/
def processSourceForTransferWithFee (rt : Runtime) (ctx : Context) (σ : Ledger)
    (sourceInfo mintInfo authorityInfo : AccountInfo) (signers : List AccountInfo)
    (proofContext : TransferWithFeeProofContext)
    (newSourceDecryptableAvailableBalance : PodAeCiphertext) : Result Ledger :=
  debitSource ctx σ sourceInfo mintInfo authorityInfo signers
    (debited rt proofContext.source proofContext.ciphertextLo proofContext.ciphertextHi
      proofContext.newSourceCiphertext newSourceDecryptableAvailableBalance)

/-! ## Destination -/

/-- The credit of an encrypted amount to the pending balance. -/
def credited (rt : Runtime) (destinationPubkey : PodElGamalPubkey)
    (ciphertextLo ciphertextHi : PodGroupedElGamalCiphertext3Handles)
    (state : ConfidentialTransferAccount) : Result ConfidentialTransferAccount := do
  state.validAsDestination
  failIf (destinationPubkey != state.elgamalPubkey)
    TokenError.confidentialTransferElGamalPubkeyMismatch
  let amountLo ← ciphertextLo.tryExtractCiphertext 1
  let amountHi ← ciphertextHi.tryExtractCiphertext 1
  let pendingBalanceLo ← arithmetic (add rt state.pendingBalanceLo amountLo)
  let pendingBalanceHi ← arithmetic (add rt state.pendingBalanceHi amountHi)
  { state with
    pendingBalanceLo := pendingBalanceLo
    pendingBalanceHi := pendingBalanceHi }.incrementPendingBalanceCreditCounter

/-- The account checks of both destination functions. -/
def loadDestination (ctx : Context) (σ : Ledger) (destinationInfo mintInfo : AccountInfo) :
    Result (PodState PodAccount) := do
  let account ← loadCheckedBeside σ PodAccount mintInfo.key destinationInfo.key
  failIf account.base.isFrozen TokenError.accountFrozen
  failIf (account.base.mint != mintInfo.key) TokenError.mintMismatch
  checkMemo ctx account
  return account

/-- `process_destination_for_transfer`. -/
def processDestinationForTransfer (rt : Runtime) (ctx : Context) (σ : Ledger)
    (destinationInfo mintInfo : AccountInfo) (proofContext : TransferProofContext) :
    Result Ledger := do
  let account ← loadDestination ctx σ destinationInfo mintInfo
  let state ← account.getExtension ConfidentialTransferAccount
  let state ← credited rt proofContext.destination proofContext.ciphertextLo
    proofContext.ciphertextHi state
  let account ← account.setExtension state
  store σ destinationInfo.key account

/-- The fee leaves the pending balance and is withheld under the key of the
withdraw-withheld authority. -/
def withholdFee (rt : Runtime) (proofContext : TransferWithFeeProofContext)
    (account : PodState PodAccount) (state : ConfidentialTransferAccount) :
    Result (PodState PodAccount) := do
  let destinationFeeLo ← proofContext.feeCiphertextLo.tryExtractCiphertext 0
  let destinationFeeHi ← proofContext.feeCiphertextHi.tryExtractCiphertext 0
  let pendingBalanceLo ← arithmetic (subtract rt state.pendingBalanceLo destinationFeeLo)
  let pendingBalanceHi ← arithmetic (subtract rt state.pendingBalanceHi destinationFeeHi)
  let account ← account.setExtension
    { state with pendingBalanceLo := pendingBalanceLo, pendingBalanceHi := pendingBalanceHi }
  let authorityFeeLo ← proofContext.feeCiphertextLo.tryExtractCiphertext 1
  let authorityFeeHi ← proofContext.feeCiphertextHi.tryExtractCiphertext 1
  let feeAmount ← account.getExtension ConfidentialTransferFeeAmount
  let withheldAmount ← arithmetic
    (addWithLoHi rt feeAmount.withheldAmount authorityFeeLo authorityFeeHi)
  account.setExtension { feeAmount with withheldAmount := withheldAmount }

/-- `process_destination_for_transfer_with_fee`. -/
def processDestinationForTransferWithFee (rt : Runtime) (ctx : Context) (σ : Ledger)
    (destinationInfo mintInfo : AccountInfo) (proofContext : TransferWithFeeProofContext)
    (isSelfTransfer : Bool) : Result Ledger := do
  let account ← loadDestination ctx σ destinationInfo mintInfo
  let state ← account.getExtension ConfidentialTransferAccount
  let state ← credited rt proofContext.destination proofContext.ciphertextLo
    proofContext.ciphertextHi state
  let account ← if isSelfTransfer then account.setExtension state
    else withholdFee rt proofContext account state
  store σ destinationInfo.key account

/-! ## Transfer -/

/-- The data of a confidential transfer instruction. -/
structure TransferData where
  newSourceDecryptableAvailableBalance : PodAeCiphertext
  auditorCiphertextLo : PodElGamalCiphertext
  auditorCiphertextHi : PodElGamalCiphertext
  equalityProofInstructionOffset : Int
  ciphertextValidityProofInstructionOffset : Int
  feeSigmaProofInstructionOffset : Option Int
  feeCiphertextValidityProofInstructionOffset : Option Int
  rangeProofInstructionOffset : Int

/-- The branch of a mint without transfer fees. -/
def transferWithoutFee (rt : Runtime) (ctx : Context) (σ : Ledger) (mint : PodState PodMint)
    (sourceInfo mintInfo destinationInfo : AccountInfo) (data : TransferData)
    (accounts : List AccountInfo) : Result Ledger := do
  let confidentialTransferMint ← mint.getExtension ConfidentialTransferMint
  let (proofContext, rest) ← verifyTransferProof ctx σ data.equalityProofInstructionOffset
    data.ciphertextValidityProofInstructionOffset data.rangeProofInstructionOffset accounts
  match rest with
  | authorityInfo :: signers => do
    failIf (!confidentialTransferMint.auditorElgamalPubkey.equals proofContext.auditor)
      TokenError.confidentialTransferElGamalPubkeyMismatch
    checkAuditorCiphertext data.auditorCiphertextLo data.auditorCiphertextHi
      proofContext.ciphertextLo proofContext.ciphertextHi
    let σ ← processSourceForTransfer rt ctx σ sourceInfo mintInfo authorityInfo signers
      proofContext data.newSourceDecryptableAvailableBalance
    processDestinationForTransfer rt ctx σ destinationInfo mintInfo proofContext
  | [] => .error .notEnoughAccountKeys

/-- The branch of a mint with transfer fees. -/
def transferWithFee (rt : Runtime) (ctx : Context) (σ : Ledger) (mint : PodState PodMint)
    (transferFeeConfig : TransferFeeConfig) (sourceInfo mintInfo destinationInfo : AccountInfo)
    (data : TransferData) (accounts : List AccountInfo) : Result Ledger := do
  let confidentialTransferMint ← mint.getExtension ConfidentialTransferMint
  let feeParameters := transferFeeConfig.getEpochFee ctx.epoch
  let feeSigmaOffset ← okOr .invalidInstructionData data.feeSigmaProofInstructionOffset
  let feeValidityOffset ←
    okOr .invalidInstructionData data.feeCiphertextValidityProofInstructionOffset
  let (proofContext, rest) ← verifyTransferWithFeeProof rt ctx σ
    ⟨data.equalityProofInstructionOffset, data.ciphertextValidityProofInstructionOffset,
      feeSigmaOffset, feeValidityOffset, data.rangeProofInstructionOffset⟩
    feeParameters accounts
  match rest with
  | authorityInfo :: signers => do
    failIf (!confidentialTransferMint.auditorElgamalPubkey.equals proofContext.auditor)
      TokenError.confidentialTransferElGamalPubkeyMismatch
    let feeConfig ← mint.getExtension ConfidentialTransferFeeConfig
    failIf (proofContext.withdrawWithheldAuthority
      != feeConfig.withdrawWithheldAuthorityElgamalPubkey)
      TokenError.confidentialTransferElGamalPubkeyMismatch
    checkAuditorCiphertext data.auditorCiphertextLo data.auditorCiphertextHi
      proofContext.ciphertextLo proofContext.ciphertextHi
    let σ ← processSourceForTransferWithFee rt ctx σ sourceInfo mintInfo authorityInfo signers
      proofContext data.newSourceDecryptableAvailableBalance
    processDestinationForTransferWithFee rt ctx σ destinationInfo mintInfo proofContext
      (sourceInfo.key == destinationInfo.key)
  | [] => .error .notEnoughAccountKeys

/-- One `transferring` flag, set on the stored account. -/
def raiseTransferring (σ : Ledger) (k : Pubkey) : Result Ledger := do
  let account ← load σ PodAccount k
  let account ← setTransferring account true
  store σ k account

/-- The call of the hook program at the end of a confidential transfer. -/
def callHook (ctx : Context) (mint : PodState PodMint) (source destination : Pubkey)
    (σ : Ledger) : Result Ledger :=
  match getProgramId mint with
  | none => .ok σ
  | some _ => do
    let σ ← raiseTransferring σ source
    let σ ← raiseTransferring σ destination
    let σ ← ctx.executeHook σ
    let σ ← unsetTransferring σ source
    unsetTransferring σ destination

/-- `process_transfer`. -/
def processTransfer (rt : Runtime) (ctx : Context) (accounts : List AccountInfo)
    (data : TransferData) (σ : Ledger) : Result Ledger :=
  match accounts with
  | sourceInfo :: mintInfo :: destinationInfo :: rest => do
    let mint ← loadChecked σ PodMint mintInfo.key
    failIf (isPaused mint) TokenError.mintPaused
    let σ ← match toOption (mint.getExtension TransferFeeConfig) with
      | none => transferWithoutFee rt ctx σ mint sourceInfo mintInfo destinationInfo data rest
      | some transferFeeConfig =>
        transferWithFee rt ctx σ mint transferFeeConfig sourceInfo mintInfo destinationInfo
            data rest
    callHook ctx mint sourceInfo.key destinationInfo.key σ
  | _ => .error .notEnoughAccountKeys

end SolanaEasy.Token.Processor.ConfidentialTransfer
