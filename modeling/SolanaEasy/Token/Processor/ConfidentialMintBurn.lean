import SolanaEasy.Token.Processor.ConfidentialTransferFee

/-!
# Confidential minting and burning — an encrypted supply

`program/src/extension/confidential_mint_burn/processor.rs`. The supply of such a
mint is a ciphertext; what is burned is collected in a second ciphertext until
`ApplyPendingBurn` subtracts it.
-/

namespace SolanaEasy.Token.Processor.ConfidentialMintBurn

open CiphertextArithmetic ConfidentialTransfer

/-- `process_initialize_mint`: both ciphertexts start as their default. -/
def processInitializeMint (accounts : List AccountInfo) (supplyElgamalPubkey : PodElGamalPubkey)
    (decryptableSupply : PodAeCiphertext) (σ : Ledger) : Result Ledger :=
  match accounts with
  | mintInfo :: _ => do
    checkProgramAccount (σ mintInfo.key).owner
    initMintExtension accounts (.ok ())
      (.ok { (default : Token.ConfidentialMintBurn) with
        supplyElgamalPubkey := supplyElgamalPubkey
        decryptableSupply := decryptableSupply }) σ
  | [] => .error .notEnoughAccountKeys

/-- The mint authority, whose data length is read while the mint is borrowed. -/
def checkMintAuthority (σ : Ledger) (mintKey : Pubkey) (mint : PodState PodMint)
    (authorityInfo : AccountInfo) (signers : List AccountInfo) : Result Unit := do
  failIf (authorityInfo.key == mintKey) RuntimeFault.accountBorrowFailed
  let authority ← okOr TokenError.noAuthorityExists mint.base.mintAuthority.toOption
  checkOwner σ authorityInfo signers authority

/-- The checks of `process_rotate_supply_elgamal_pubkey` on its proof. -/
def checkRotation (proofContext : CiphertextCiphertextEqualityProofContext)
    (e : Token.ConfidentialMintBurn) : Result Unit := do
  failIf (e.supplyElgamalPubkey != proofContext.firstPubkey)
    TokenError.confidentialTransferElGamalPubkeyMismatch
  failIf (e.confidentialSupply != proofContext.firstCiphertext) .invalidInstructionData
  failIf (e.pendingBurn != default) TokenError.pendingBalanceNonZero

/-- `process_rotate_supply_elgamal_pubkey`. -/
def processRotateSupplyElGamalPubkey (ctx : Context) (accounts : List AccountInfo)
    (proofInstructionOffset : Int) (σ : Ledger) : Result Ledger :=
  match accounts with
  | mintInfo :: rest => do
    let mint ← loadChecked σ PodMint mintInfo.key
    let extension ← mint.getExtension Token.ConfidentialMintBurn
    let (proofContext, rest) ← verifyAndExtractContext CiphertextCiphertextEqualityProofContext
      .ciphertextCiphertextEquality ctx σ proofInstructionOffset none rest
    checkRotation proofContext extension
    match rest with
    | authorityInfo :: signers => do
      checkMintAuthority σ mintInfo.key mint authorityInfo signers
      let mint ← mint.setExtension
        { extension with
          supplyElgamalPubkey := proofContext.secondPubkey
          confidentialSupply := proofContext.secondCiphertext }
      store σ mintInfo.key mint
    | [] => .error .notEnoughAccountKeys
  | [] => .error .notEnoughAccountKeys

/-- A change of the extension that the mint authority makes. -/
def authorityUpdate (accounts : List AccountInfo)
    (update : Token.ConfidentialMintBurn → Result Token.ConfidentialMintBurn) (σ : Ledger) :
    Result Ledger :=
  match accounts with
  | mintInfo :: rest => do
    let mint ← loadChecked σ PodMint mintInfo.key
    let extension ← mint.getExtension Token.ConfidentialMintBurn
    match rest with
    | authorityInfo :: signers => do
      checkMintAuthority σ mintInfo.key mint authorityInfo signers
      let extension ← update extension
      let mint ← mint.setExtension extension
      store σ mintInfo.key mint
    | [] => .error .notEnoughAccountKeys
  | [] => .error .notEnoughAccountKeys

/-- `process_update_decryptable_supply`. -/
def processUpdateDecryptableSupply (accounts : List AccountInfo)
    (newDecryptableSupply : PodAeCiphertext) : Ledger → Result Ledger :=
  authorityUpdate accounts fun e => .ok { e with decryptableSupply := newDecryptableSupply }

/-- The update of `process_apply_pending_burn`. -/
def burnApplied (rt : Runtime) (e : Token.ConfidentialMintBurn) :
    Result Token.ConfidentialMintBurn := do
  let confidentialSupply ← arithmetic (subtract rt e.confidentialSupply e.pendingBurn)
  return { e with confidentialSupply := confidentialSupply, pendingBurn := default }

/-- `process_apply_pending_burn`. -/
def processApplyPendingBurn (rt : Runtime) (accounts : List AccountInfo) :
    Ledger → Result Ledger :=
  authorityUpdate accounts (burnApplied rt)

/-- An auditor key, when the mint has one, is the key of the proof. -/
def checkAuditor (confidentialTransferMint : ConfidentialTransferMint)
    (auditor : PodElGamalPubkey) : Result Unit :=
  failIf (confidentialTransferMint.auditorElgamalPubkey.toOption.any (· != auditor))
    .invalidInstructionData

/-- The data of `ConfidentialMint` and `ConfidentialBurn`. -/
structure InstructionData where
  newDecryptableBalance : PodAeCiphertext
  auditorCiphertextLo : PodElGamalCiphertext
  auditorCiphertextHi : PodElGamalCiphertext
  equalityProofInstructionOffset : Int
  ciphertextValidityProofInstructionOffset : Int
  rangeProofInstructionOffset : Int

/-! ## Mint -/

/-- The credit of minted tokens to the pending balance. -/
def mintedTo (rt : Runtime) (confidentialTransferMint : ConfidentialTransferMint)
    (proofContext : MintProofContext) (data : InstructionData)
    (state : ConfidentialTransferAccount) : Result ConfidentialTransferAccount := do
  state.validAsDestination
  failIf (proofContext.destination != state.elgamalPubkey) .invalidInstructionData
  checkAuditor confidentialTransferMint proofContext.auditor
  checkAuditorCiphertext data.auditorCiphertextLo data.auditorCiphertextHi
    proofContext.mintAmountCiphertextLo proofContext.mintAmountCiphertextHi
  let amountLo ← proofContext.mintAmountCiphertextLo.tryExtractCiphertext 0
  let pendingBalanceLo ← arithmetic (add rt state.pendingBalanceLo amountLo)
  let amountHi ← proofContext.mintAmountCiphertextHi.tryExtractCiphertext 0
  let pendingBalanceHi ← arithmetic (add rt state.pendingBalanceHi amountHi)
  { state with
    pendingBalanceLo := pendingBalanceLo
    pendingBalanceHi := pendingBalanceHi }.incrementPendingBalanceCreditCounter

/-- The growth of the supply, compared with the supply that was proved. -/
def supplyMinted (rt : Runtime) (proofContext : MintProofContext) (data : InstructionData)
    (e : Token.ConfidentialMintBurn) : Result Token.ConfidentialMintBurn := do
  failIf (e.supplyElgamalPubkey != proofContext.supply) .invalidInstructionData
  let amountLo ← mapErr .invalidAccountData
    (proofContext.mintAmountCiphertextLo.tryExtractCiphertext 1)
  let amountHi ← mapErr .invalidAccountData
    (proofContext.mintAmountCiphertextHi.tryExtractCiphertext 1)
  let confidentialSupply ← arithmetic (addWithLoHi rt e.confidentialSupply amountLo amountHi)
  failIf (confidentialSupply != proofContext.newSupplyCiphertext)
    TokenError.confidentialTransferBalanceMismatch
  return { e with
    confidentialSupply := confidentialSupply
    decryptableSupply := data.newDecryptableBalance }

/-- `process_confidential_mint`. -/
def processConfidentialMint (rt : Runtime) (ctx : Context) (accounts : List AccountInfo)
    (data : InstructionData) (σ : Ledger) : Result Ledger :=
  match accounts with
  | tokenAccountInfo :: mintInfo :: rest => do
    let mint ← loadChecked σ PodMint mintInfo.key
    let confidentialTransferMint ← mint.getExtension ConfidentialTransferMint
    failIf (isPaused mint) TokenError.mintPaused
    let extension ← mint.getExtension Token.ConfidentialMintBurn
    let (proofContext, rest) ← verifyMintProof ctx σ data.equalityProofInstructionOffset
      data.ciphertextValidityProofInstructionOffset data.rangeProofInstructionOffset rest
    let account ← loadCheckedBeside σ PodAccount mintInfo.key tokenAccountInfo.key
    match rest with
    | authorityInfo :: signers => do
      failIf (authorityInfo.key == tokenAccountInfo.key) RuntimeFault.accountBorrowFailed
      checkMintAuthority σ mintInfo.key mint authorityInfo signers
      failIf account.base.isFrozen TokenError.accountFrozen
      failIf (account.base.mint != mintInfo.key) TokenError.mintMismatch
      failIf account.base.isNative TokenError.nativeNotSupported
      let state ← account.getExtension ConfidentialTransferAccount
      let state ← mintedTo rt confidentialTransferMint proofContext data state
      let extension ← supplyMinted rt proofContext data extension
      let account ← account.setExtension state
      let mint ← mint.setExtension extension
      let σ ← store σ tokenAccountInfo.key account
      store σ mintInfo.key mint
    | [] => .error .notEnoughAccountKeys
  | _ => .error .notEnoughAccountKeys

/-! ## Burn -/

/-- The debit of burned tokens from the available balance. -/
def burnedFrom (rt : Runtime) (proofContext : BurnProofContext) (data : InstructionData)
    (state : ConfidentialTransferAccount) : Result ConfidentialTransferAccount := do
  state.validAsSource
  failIf (proofContext.source != state.elgamalPubkey)
    TokenError.confidentialTransferElGamalPubkeyMismatch
  checkAuditorCiphertext data.auditorCiphertextLo data.auditorCiphertextHi
    proofContext.burnAmountCiphertextLo proofContext.burnAmountCiphertextHi
  let amountLo ← proofContext.burnAmountCiphertextLo.tryExtractCiphertext 0
  let amountHi ← proofContext.burnAmountCiphertextHi.tryExtractCiphertext 0
  let newAvailableBalance ← arithmetic
    (subtractWithLoHi rt state.availableBalance amountLo amountHi)
  failIf (newAvailableBalance != proofContext.remainingBalanceCiphertext)
    TokenError.confidentialTransferBalanceMismatch
  return { state with
    availableBalance := newAvailableBalance
    decryptableAvailableBalance := data.newDecryptableBalance }

/-- The amount joins the pending burn. -/
def supplyBurned (rt : Runtime) (confidentialTransferMint : ConfidentialTransferMint)
    (proofContext : BurnProofContext) (e : Token.ConfidentialMintBurn) :
    Result Token.ConfidentialMintBurn := do
  checkAuditor confidentialTransferMint proofContext.auditor
  failIf (e.supplyElgamalPubkey != proofContext.supply) .invalidInstructionData
  let amountLo ← mapErr .invalidAccountData
    (proofContext.burnAmountCiphertextLo.tryExtractCiphertext 1)
  let amountHi ← mapErr .invalidAccountData
    (proofContext.burnAmountCiphertextHi.tryExtractCiphertext 1)
  let pendingBurn ← arithmetic (addWithLoHi rt e.pendingBurn amountLo amountHi)
  return { e with pendingBurn := pendingBurn }

/-- `process_confidential_burn`. -/
def processConfidentialBurn (rt : Runtime) (ctx : Context) (accounts : List AccountInfo)
    (data : InstructionData) (σ : Ledger) : Result Ledger :=
  match accounts with
  | tokenAccountInfo :: mintInfo :: rest => do
    let mint ← loadChecked σ PodMint mintInfo.key
    let confidentialTransferMint ← mint.getExtension ConfidentialTransferMint
    failIf (isPaused mint) TokenError.mintPaused
    let extension ← mint.getExtension Token.ConfidentialMintBurn
    let (proofContext, rest) ← verifyBurnProof ctx σ data.equalityProofInstructionOffset
      data.ciphertextValidityProofInstructionOffset data.rangeProofInstructionOffset rest
    let account ← loadCheckedBeside σ PodAccount mintInfo.key tokenAccountInfo.key
    match rest with
    | authorityInfo :: signers => do
      failIf (authorityInfo.key == tokenAccountInfo.key) RuntimeFault.accountBorrowFailed
      failIf (authorityInfo.key == mintInfo.key) RuntimeFault.accountBorrowFailed
      checkOwner σ authorityInfo signers account.base.owner
      failIf (cpiGuardLocked account && authorityInfo.key == account.base.owner && ctx.inCpi)
        TokenError.cpiGuardBurnBlocked
      failIf account.base.isFrozen TokenError.accountFrozen
      failIf (account.base.mint != mintInfo.key) TokenError.mintMismatch
      let state ← account.getExtension ConfidentialTransferAccount
      let state ← burnedFrom rt proofContext data state
      let extension ← supplyBurned rt confidentialTransferMint proofContext extension
      let account ← account.setExtension state
      let mint ← mint.setExtension extension
      let σ ← store σ tokenAccountInfo.key account
      store σ mintInfo.key mint
    | [] => .error .notEnoughAccountKeys
  | _ => .error .notEnoughAccountKeys

end SolanaEasy.Token.Processor.ConfidentialMintBurn
