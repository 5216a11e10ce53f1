import SolanaEasy.Token.Confidential.Proof
import SolanaEasy.Token.Processor.TransferFee

/-!
# Confidential transfers

`program/src/extension/confidential_transfer/processor.rs`: encrypted balances of
token accounts. The program only adds and subtracts ciphertexts; what they hold
is fixed by the proof contexts it insists on.
-/

namespace SolanaEasy.Token.Processor.ConfidentialTransfer

open CiphertextArithmetic

/-- `.ok_or(TokenError::CiphertextArithmeticFailed)`. -/
def arithmetic (o : Option PodElGamalCiphertext) : Result PodElGamalCiphertext :=
  okOr TokenError.ciphertextArithmeticFailed o

/-- `check_program_account` of an account, then its state. -/
def loadChecked (σ : Ledger) (S : Type) [BaseState S] (k : Pubkey) : Result (PodState S) := do
  checkProgramAccount (σ k).owner
  load σ S k

/-- `loadChecked` while `held` is mutably borrowed. -/
def loadCheckedBeside (σ : Ledger) (S : Type) [BaseState S] (held k : Pubkey) :
    Result (PodState S) := do
  checkProgramAccount (σ k).owner
  loadBeside σ S held k

/-! ## Mint -/

/-- `process_initialize_mint`. -/
def processInitializeMint (accounts : List AccountInfo) (authority : OptionalNonZeroPubkey)
    (autoApproveNewAccounts : PodBool) (auditorElgamalPubkey : OptionalNonZeroElGamalPubkey)
    (σ : Ledger) : Result Ledger :=
  match accounts with
  | mintInfo :: _ => do
    checkProgramAccount (σ mintInfo.key).owner
    initMintExtension accounts (.ok ())
      (.ok (⟨authority, autoApproveNewAccounts, auditorElgamalPubkey⟩ :
        ConfidentialTransferMint)) σ
  | [] => .error .notEnoughAccountKeys

/-- `process_update_mint`: the authority signs itself, a multisig cannot. -/
def processUpdateMint (accounts : List AccountInfo) (autoApproveNewAccounts : PodBool)
    (auditorElgamalPubkey : OptionalNonZeroElGamalPubkey) (σ : Ledger) : Result Ledger :=
  match accounts with
  | mintInfo :: authorityInfo :: _ => do
    let mint ← loadChecked σ PodMint mintInfo.key
    let extension ← mint.getExtension ConfidentialTransferMint
    let authority ← okOr TokenError.noAuthorityExists extension.authority.toOption
    failIf (!authorityInfo.isSigner) .missingRequiredSignature
    failIf (authority != authorityInfo.key) TokenError.ownerMismatch
    let mint ← mint.setExtension
      { extension with
        autoApproveNewAccounts := autoApproveNewAccounts
        auditorElgamalPubkey := auditorElgamalPubkey }
    store σ mintInfo.key mint
  | _ => .error .notEnoughAccountKeys

/-! ## Configuring an account -/

structure ElGamalRegistry where
  owner : Pubkey
  elgamalPubkey : PodElGamalPubkey

instance : Pod ElGamalRegistry :=
  Pod.ofEquiv ElGamalRegistry (fun r => (r.owner, r.elgamalPubkey)) (fun (a, b) => ⟨a, b⟩)
    (fun _ => rfl) (fun _ => rfl)

/-- The `ConfidentialTransferAccount` of a newly configured account. -/
def configuredAccount (approved : PodBool) (elgamalPubkey : PodElGamalPubkey)
    (decryptableZeroBalance : PodAeCiphertext)
    (maximumPendingBalanceCreditCounter : UInt64) : ConfidentialTransferAccount where
  approved := approved
  elgamalPubkey := elgamalPubkey
  pendingBalanceLo := .zeroed
  pendingBalanceHi := .zeroed
  availableBalance := .zeroed
  decryptableAvailableBalance := decryptableZeroBalance
  allowConfidentialCredits := .ofBool true
  allowNonConfidentialCredits := .ofBool true
  pendingBalanceCreditCounter := 0
  maximumPendingBalanceCreditCounter := maximumPendingBalanceCreditCounter
  expectedPendingBalanceCreditCounter := 0
  actualPendingBalanceCreditCounter := 0

/-- The end of `process_configure_account`, once the key and the owner are settled. -/
def configure (σ : Ledger) (tokenAccountKey mintKey : Pubkey) (account : PodState PodAccount)
    (elgamalPubkey : PodElGamalPubkey) (decryptableZeroBalance : PodAeCiphertext)
    (maximumPendingBalanceCreditCounter : UInt64) : Result Ledger := do
  let mint ← loadCheckedBeside σ PodMint tokenAccountKey mintKey
  let confidentialTransferMint ← mint.getExtension ConfidentialTransferMint
  let account ← account.initExtension
    (configuredAccount confidentialTransferMint.autoApproveNewAccounts elgamalPubkey
      decryptableZeroBalance maximumPendingBalanceCreditCounter) false
  let account ← if mint.hasExtension TransferFeeConfig then
      account.initExtension (⟨.zeroed⟩ : ConfidentialTransferFeeAmount) false
    else .ok account
  store σ tokenAccountKey account

/-- `process_configure_account` with a proof that the key is valid. -/
def processConfigureAccount (ctx : Context) (accounts : List AccountInfo)
    (decryptableZeroBalance : PodAeCiphertext) (maximumPendingBalanceCreditCounter : UInt64)
    (proofInstructionOffset : Int) (σ : Ledger) : Result Ledger :=
  match accounts with
  | tokenAccountInfo :: mintInfo :: rest => do
    let (proofContext, rest) ← verifyAndExtractContext PubkeyValidityProofContext
      .pubkeyValidity ctx σ proofInstructionOffset none rest
    let account ← loadChecked σ PodAccount tokenAccountInfo.key
    failIf (account.base.mint != mintInfo.key) TokenError.mintMismatch
    match rest with
    | authorityInfo :: signers => do
      -- the length of the authority's data is read while the token account is borrowed
      failIf (authorityInfo.key == tokenAccountInfo.key) RuntimeFault.accountBorrowFailed
      checkOwner σ authorityInfo signers account.base.owner
      configure σ tokenAccountInfo.key mintInfo.key account proofContext.pubkey
        decryptableZeroBalance maximumPendingBalanceCreditCounter
    | [] => .error .notEnoughAccountKeys
  | _ => .error .notEnoughAccountKeys

/-- `reallocate_for_configure_account_with_registry`. -/
def reallocateForConfigureAccountWithRegistry (rt : Runtime) (σ : Ledger) (k : Pubkey)
    (payerInfo : AccountInfo) : Result Ledger := do
  let account ← load σ PodAccount k
  let types ← account.getExtensionTypes
  let neededAccountLen ← tryCalculateAccountLen PodAccount
    (types ++ .confidentialTransferAccount ::
      if types.contains .transferFeeAmount then [.confidentialTransferFeeAmount] else [])
  if (σ k).data.length ≥ neededAccountLen then return σ
  else do
    let σ ← σ.resize k neededAccountLen
    let newRentExemptReserve := rt.minimumBalance neededAccountLen
    let lamportsDiff := saturatingSub newRentExemptReserve (σ k).lamports
    let σ ← if lamportsDiff > 0 then σ.systemTransfer payerInfo k lamportsDiff else .ok σ
    let data ← setAccountType PodAccount (σ k).data
    σ.writeData k data

/-- `process_configure_account_with_registry`: the owner of the registry stands for
the owner of the account, and nobody signs. -/
def processConfigureAccountWithRegistry (rt : Runtime) (accounts : List AccountInfo)
    (σ : Ledger) : Result Ledger :=
  match accounts with
  | tokenAccountInfo :: mintInfo :: registryInfo :: rest => do
    failIf ((σ registryInfo.key).owner != Keys.elgamalRegistryProgram) .incorrectProgramId
    let σ ← match rest with
      | payerInfo :: _ :: _ =>
        reallocateForConfigureAccountWithRegistry rt σ tokenAccountInfo.key payerInfo
      | [_] => .error .notEnoughAccountKeys
      | [] => .ok σ
    let registry ← okOr .invalidArgument
      (Pod.decode? ElGamalRegistry (σ registryInfo.key).data)
    let account ← loadChecked σ PodAccount tokenAccountInfo.key
    failIf (account.base.mint != mintInfo.key) TokenError.mintMismatch
    failIf (registry.owner != account.base.owner) TokenError.ownerMismatch
    configure σ tokenAccountInfo.key mintInfo.key account registry.elgamalPubkey 0
      defaultMaximumPendingBalanceCreditCounter
  | _ => .error .notEnoughAccountKeys

/-- `process_approve_account`. -/
def processApproveAccount (accounts : List AccountInfo) (σ : Ledger) : Result Ledger :=
  match accounts with
  | tokenAccountInfo :: mintInfo :: authorityInfo :: _ => do
    let account ← loadChecked σ PodAccount tokenAccountInfo.key
    failIf (mintInfo.key != account.base.mint) TokenError.mintMismatch
    let mint ← loadCheckedBeside σ PodMint tokenAccountInfo.key mintInfo.key
    let extension ← mint.getExtension ConfidentialTransferMint
    let authority ← okOr TokenError.noAuthorityExists extension.authority.toOption
    failIf (!(authorityInfo.isSigner && authorityInfo.key == authority))
      .missingRequiredSignature
    let state ← account.getExtension ConfidentialTransferAccount
    let account ← account.setExtension { state with approved := .ofBool true }
    store σ tokenAccountInfo.key account
  | _ => .error .notEnoughAccountKeys

/-! ## Changes an owner makes to its own balances -/

/-- `validate_owner`, then a change of the `ConfidentialTransferAccount`. -/
def ownerUpdate (tokenAccountInfo authorityInfo : AccountInfo) (signers : List AccountInfo)
    (update : ConfidentialTransferAccount → Result ConfidentialTransferAccount) (σ : Ledger) :
    Result Ledger := do
  let account ← loadChecked σ PodAccount tokenAccountInfo.key
  checkOwner σ authorityInfo signers account.base.owner
  let state ← account.getExtension ConfidentialTransferAccount
  let state ← update state
  let account ← account.setExtension state
  store σ tokenAccountInfo.key account

/-- The update of `process_empty_account`. -/
def emptied (proofContext : ZeroCiphertextProofContext) (state : ConfidentialTransferAccount) :
    Result ConfidentialTransferAccount := do
  failIf (state.elgamalPubkey != proofContext.pubkey)
    TokenError.confidentialTransferElGamalPubkeyMismatch
  failIf (state.availableBalance != proofContext.ciphertext)
    TokenError.confidentialTransferBalanceMismatch
  let state := { state with availableBalance := .zeroed }
  state.closable
  return state

/-- `process_empty_account`. -/
def processEmptyAccount (ctx : Context) (accounts : List AccountInfo)
    (proofInstructionOffset : Int) (σ : Ledger) : Result Ledger :=
  match accounts with
  | tokenAccountInfo :: rest => do
    let (proofContext, rest) ← verifyAndExtractContext ZeroCiphertextProofContext
      .zeroCiphertext ctx σ proofInstructionOffset none rest
    match rest with
    | authorityInfo :: signers =>
      ownerUpdate tokenAccountInfo authorityInfo signers (emptied proofContext) σ
    | [] => .error .notEnoughAccountKeys
  | [] => .error .notEnoughAccountKeys

/-- The update of `process_apply_pending_balance`. -/
def pendingApplied (rt : Runtime) (expectedPendingBalanceCreditCounter : UInt64)
    (newDecryptableAvailableBalance : PodAeCiphertext) (state : ConfidentialTransferAccount) :
    Result ConfidentialTransferAccount := do
  let availableBalance ← arithmetic
    (addWithLoHi rt state.availableBalance state.pendingBalanceLo state.pendingBalanceHi)
  return { state with
    availableBalance := availableBalance
    actualPendingBalanceCreditCounter := state.pendingBalanceCreditCounter
    expectedPendingBalanceCreditCounter := expectedPendingBalanceCreditCounter
    decryptableAvailableBalance := newDecryptableAvailableBalance
    pendingBalanceCreditCounter := 0
    pendingBalanceLo := .zeroed
    pendingBalanceHi := .zeroed }

/-- `process_apply_pending_balance`. -/
def processApplyPendingBalance (rt : Runtime) (accounts : List AccountInfo)
    (expectedPendingBalanceCreditCounter : UInt64)
    (newDecryptableAvailableBalance : PodAeCiphertext) (σ : Ledger) : Result Ledger :=
  match accounts with
  | tokenAccountInfo :: authorityInfo :: signers =>
    ownerUpdate tokenAccountInfo authorityInfo signers
      (pendingApplied rt expectedPendingBalanceCreditCounter newDecryptableAvailableBalance) σ
  | _ => .error .notEnoughAccountKeys

/-- `process_allow_confidential_credits`. -/
def processAllowConfidentialCredits (accounts : List AccountInfo) (allow : Bool) (σ : Ledger) :
    Result Ledger :=
  match accounts with
  | tokenAccountInfo :: authorityInfo :: signers =>
    ownerUpdate tokenAccountInfo authorityInfo signers
      (fun state => .ok { state with allowConfidentialCredits := .ofBool allow }) σ
  | _ => .error .notEnoughAccountKeys

/-- `process_allow_non_confidential_credits`. -/
def processAllowNonConfidentialCredits (accounts : List AccountInfo) (allow : Bool)
    (σ : Ledger) : Result Ledger :=
  match accounts with
  | tokenAccountInfo :: authorityInfo :: signers =>
    ownerUpdate tokenAccountInfo authorityInfo signers
      (fun state => .ok { state with allowNonConfidentialCredits := .ofBool allow }) σ
  | _ => .error .notEnoughAccountKeys

/-! ## Deposit and withdraw -/

/-- The checks that deposits and withdrawals share, from `validate_owner` on. -/
def checkConversionAccount (σ : Ledger) (account : PodState PodAccount) (mintKey : Pubkey)
    (authorityInfo : AccountInfo) (signers : List AccountInfo) : Result Unit := do
  failIf (account.hasExtension NonTransferableAccount) TokenError.nonTransferable
  checkOwner σ authorityInfo signers account.base.owner
  failIf account.base.isFrozen TokenError.accountFrozen
  failIf (account.base.mint != mintKey) TokenError.mintMismatch
  failIf account.base.isNative TokenError.nativeNotSupported

/-- `verify_and_split_deposit_amount`. -/
def verifyAndSplitDepositAmount (amount : UInt64) : Result (Nat × Nat) := do
  failIf (amount.toNat > maximumDepositTransferAmount) TokenError.maximumDepositAmountExceeded
  return (amount.toNat % 2 ^ 16, amount.toNat / 2 ^ 16)

/-- A zero part is not added, to spare the system call. -/
def addPart (rt : Runtime) (balance : PodElGamalCiphertext) (part : Nat) :
    Result PodElGamalCiphertext :=
  if part > 0 then arithmetic (addTo rt balance part) else .ok balance

/-- The credit of a deposit to the pending balance. -/
def deposited (rt : Runtime) (amount : UInt64) (state : ConfidentialTransferAccount) :
    Result ConfidentialTransferAccount := do
  state.validAsDestination
  let (amountLo, amountHi) ← verifyAndSplitDepositAmount amount
  let pendingBalanceLo ← addPart rt state.pendingBalanceLo amountLo
  let pendingBalanceHi ← addPart rt state.pendingBalanceHi amountHi
  { state with
    pendingBalanceLo := pendingBalanceLo
    pendingBalanceHi := pendingBalanceHi }.incrementPendingBalanceCreditCounter

/-- `process_deposit`. -/
def processDeposit (rt : Runtime) (accounts : List AccountInfo) (amount : UInt64)
    (expectedDecimals : UInt8) (σ : Ledger) : Result Ledger :=
  match accounts with
  | tokenAccountInfo :: mintInfo :: authorityInfo :: signers => do
    let mint ← loadChecked σ PodMint mintInfo.key
    failIf (isPaused mint) TokenError.mintPaused
    failIf (expectedDecimals != mint.base.decimals) TokenError.mintDecimalsMismatch
    failIf (mint.hasExtension ConfidentialMintBurn) TokenError.illegalMintBurnConversion
    let account ← loadCheckedBeside σ PodAccount mintInfo.key tokenAccountInfo.key
    checkConversionAccount σ account mintInfo.key authorityInfo signers
    let newAmount ← okOr TokenError.overflow (checkedSub account.base.amount amount)
    let account := { account with base := { account.base with amount := newAmount } }
    let state ← account.getExtension ConfidentialTransferAccount
    let state ← deposited rt amount state
    let account ← account.setExtension state
    store σ tokenAccountInfo.key account
  | _ => .error .notEnoughAccountKeys

/-- The debit of a withdrawal from the available balance. -/
def withdrawn (rt : Runtime) (amount : UInt64) (proofContext : WithdrawProofContext)
    (newDecryptableAvailableBalance : PodAeCiphertext) (state : ConfidentialTransferAccount) :
    Result ConfidentialTransferAccount := do
  state.validAsSource
  failIf (state.elgamalPubkey != proofContext.sourcePubkey)
    TokenError.confidentialTransferElGamalPubkeyMismatch
  let availableBalance ←
    if amount > 0 then arithmetic (subtractFrom rt state.availableBalance amount.toNat)
    else .ok state.availableBalance
  failIf (availableBalance != proofContext.remainingBalanceCiphertext)
    TokenError.confidentialTransferBalanceMismatch
  return { state with
    availableBalance := availableBalance
    decryptableAvailableBalance := newDecryptableAvailableBalance }

/-- `process_withdraw`. -/
def processWithdraw (rt : Runtime) (ctx : Context) (accounts : List AccountInfo)
    (amount : UInt64) (expectedDecimals : UInt8)
    (newDecryptableAvailableBalance : PodAeCiphertext) (equalityOffset rangeOffset : Int)
    (σ : Ledger) : Result Ledger :=
  match accounts with
  | tokenAccountInfo :: mintInfo :: rest => do
    let (proofContext, rest) ← verifyWithdrawProof ctx σ equalityOffset rangeOffset rest
    match rest with
    | authorityInfo :: signers => do
      let mint ← loadChecked σ PodMint mintInfo.key
      failIf (expectedDecimals != mint.base.decimals) TokenError.mintDecimalsMismatch
      failIf (mint.hasExtension ConfidentialMintBurn) TokenError.illegalMintBurnConversion
      failIf (isPaused mint) TokenError.mintPaused
      let account ← loadCheckedBeside σ PodAccount mintInfo.key tokenAccountInfo.key
      checkConversionAccount σ account mintInfo.key authorityInfo signers
      let state ← account.getExtension ConfidentialTransferAccount
      let state ← withdrawn rt amount proofContext newDecryptableAvailableBalance state
      let account ← account.setExtension state
      let newAmount ← okOr TokenError.overflow (checkedAdd account.base.amount amount)
      store σ tokenAccountInfo.key
        { account with base := { account.base with amount := newAmount } }
    | [] => .error .notEnoughAccountKeys
  | _ => .error .notEnoughAccountKeys

end SolanaEasy.Token.Processor.ConfidentialTransfer
