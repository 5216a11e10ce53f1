import SolanaEasy.Token.Processor.Initialize

/-!
# Processor — transfers, approvals, minting and burning

`program/src/processor.rs`, `process_transfer` to `process_burn`. The states of
the source keep their order: what the code reads, checks and writes in sequence
is one bind after the other, and a state goes back to the ledger where its borrow
ends.
-/

namespace SolanaEasy.Token.Processor

inductive TransferInstruction where
  | unchecked
  | checked (decimals : UInt8)
  | checkedWithFee (decimals : UInt8) (fee : UInt64)
deriving DecidableEq

namespace TransferInstruction

def decimals? : TransferInstruction → Option UInt8
  | unchecked => none
  | checked decimals => some decimals
  | checkedWithFee decimals _ => some decimals

def fee? : TransferInstruction → Option UInt64
  | checkedWithFee _ fee => some fee
  | _ => none

end TransferInstruction

inductive InstructionVariant where
  | unchecked
  | checked (decimals : UInt8)
deriving DecidableEq

def InstructionVariant.decimals? : InstructionVariant → Option UInt8
  | unchecked => none
  | checked decimals => some decimals

/-! ## What the extensions say -/

/-- `get_permanent_delegate`. -/
def getPermanentDelegate (mint : PodState PodMint) : Option Pubkey :=
  (toOption (mint.getExtension PermanentDelegate)).bind (·.delegate.toOption)

/-- `transfer_hook::get_program_id`. -/
def getProgramId (mint : PodState PodMint) : Option Pubkey :=
  (toOption (mint.getExtension TransferHook)).bind (·.programId.toOption)

/-- `extension.paused` of a mint that has `PausableConfig`. -/
def isPaused (mint : PodState PodMint) : Bool :=
  (toOption (mint.getExtension PausableConfig)).any (·.paused.toBool)

/-- `memo_required`. -/
def memoRequired (account : PodState PodAccount) : Bool :=
  (toOption (account.getExtension MemoTransfer)).any (·.requireIncomingTransferMemos.toBool)

/-- `cpi_guard.lock_cpi` of an account that has `CpiGuard`. -/
def cpiGuardLocked (account : PodState PodAccount) : Bool :=
  (toOption (account.getExtension CpiGuard)).any (·.lockCpi.toBool)

/-- `check_previous_sibling_instruction_is_memo`, for an account that asks for it. -/
def checkMemo (ctx : Context) (account : PodState PodAccount) : Result Unit :=
  failIf (memoRequired account && !ctx.previousSiblingIsMemo) TokenError.noMemo

/-- The fee a mint takes on `amount` in the current epoch. -/
def calculatedFee (ctx : Context) (mint : PodState PodMint) (amount : UInt64) : Result UInt64 :=
  match toOption (mint.getExtension TransferFeeConfig) with
  | some transferFeeConfig =>
    okOr TokenError.overflow (transferFeeConfig.calculateEpochFee ctx.epoch amount)
  | none => .ok 0

/-- `transfer_hook::set_transferring`, and its inverse. -/
def setTransferring (account : PodState PodAccount) (transferring : Bool) :
    Result (PodState PodAccount) := do
  let extension ← account.getExtension TransferHookAccount
  account.setExtension { extension with transferring := .ofBool transferring }

/-- `transfer_hook::unset_transferring`. -/
def unsetTransferring (σ : Ledger) (k : Pubkey) : Result Ledger := do
  let account ← load σ PodAccount k
  let account ← setTransferring account false
  store σ k account

/-! ## Transfer -/

/-- The mint account that follows when the decimals are to be checked. -/
def takeExpectedMint (decimals? : Option UInt8) (accounts : List AccountInfo) :
    Result (Option (AccountInfo × UInt8) × List AccountInfo) :=
  match decimals?, accounts with
  | none, accounts => .ok (none, accounts)
  | some decimals, mintInfo :: rest => .ok (some (mintInfo, decimals), rest)
  | some _, [] => .error .notEnoughAccountKeys

structure TransferAccounts where
  source : AccountInfo
  expectedMint : Option (AccountInfo × UInt8)
  destination : AccountInfo
  authority : AccountInfo
  signers : List AccountInfo

def transferAccounts (accounts : List AccountInfo) (t : TransferInstruction) :
    Result TransferAccounts :=
  match accounts with
  | [] => .error .notEnoughAccountKeys
  | source :: rest => do
    let (expectedMint, rest) ← takeExpectedMint t.decimals? rest
    match rest with
    | destination :: authority :: signers =>
      return ⟨source, expectedMint, destination, authority, signers⟩
    | _ => .error .notEnoughAccountKeys

/-- What the mint, or its absence, says about a transfer. -/
structure TransferTerms where
  calculatedFee : UInt64
  maybePermanentDelegate : Option Pubkey
  maybeTransferHookProgramId : Option Pubkey

/-- The `expected_mint_info` branch of `process_transfer`. -/
def transferTerms (ctx : Context) (σ : Ledger) (sourceKey : Pubkey)
    (source : PodState PodAccount) (amount : UInt64) :
    Option (AccountInfo × UInt8) → Result TransferTerms
  | some (mintInfo, expectedDecimals) => do
    failIf (source.base.mint != mintInfo.key) TokenError.mintMismatch
    let mint ← loadBeside σ PodMint sourceKey mintInfo.key
    failIf (expectedDecimals != mint.base.decimals) TokenError.mintDecimalsMismatch
    let fee ← calculatedFee ctx mint amount
    failIf (isPaused mint) TokenError.mintPaused
    return ⟨fee, getPermanentDelegate mint, getProgramId mint⟩
  | none => do
    -- the account's own extensions tell that its mint must be consulted
    failIf (source.hasExtension TransferHookAccount) TokenError.mintRequiredForTransfer
    failIf (source.hasExtension TransferFeeAmount) TokenError.mintRequiredForTransfer
    failIf (source.hasExtension PausableAccount) TokenError.mintRequiredForTransfer
    return ⟨0, none, none⟩

/-- The base of a source account whose delegate has spent `amount`. -/
def spendDelegated (base : PodAccount) (amount : UInt64) : Result PodAccount := do
  let delegatedAmount ← okOr TokenError.overflow (checkedSub base.delegatedAmount amount)
  if delegatedAmount == 0 then
    return { base with delegatedAmount := delegatedAmount, delegate := .none }
  else return { base with delegatedAmount := delegatedAmount }

/-- The authority match of `process_transfer`: permanent delegate first, then the
account's delegate, then its owner. -/
def transferAuthority (σ : Ledger) (base : PodAccount) (authorityInfo : AccountInfo)
    (signers : List AccountInfo) (maybePermanentDelegate : Option Pubkey) (amount : UInt64)
    (selfTransfer : Bool) : Result PodAccount :=
  if maybePermanentDelegate == some authorityInfo.key then do
    checkOwner σ authorityInfo signers authorityInfo.key
    return base
  else if base.delegate.toOption == some authorityInfo.key then do
    checkOwner σ authorityInfo signers base.delegate.value
    failIf (base.delegatedAmount < amount) TokenError.insufficientFunds
    if selfTransfer then return base else spendDelegated base amount
  else do
    checkOwner σ authorityInfo signers base.owner
    return base

/-- The credit of a destination and the fee it withholds. -/
def creditDestination (destination : PodState PodAccount) (creditedAmount fee : UInt64) :
    Result (PodState PodAccount) := do
  let amount ← okOr TokenError.overflow (checkedAdd destination.base.amount creditedAmount)
  let destination := { destination with base := { destination.base with amount := amount } }
  if fee > 0 then
    match toOption (destination.getExtension TransferFeeAmount) with
    | some extension => do
      let newWithheldAmount ← okOr TokenError.overflow (checkedAdd extension.withheldAmount fee)
      destination.setExtension { extension with withheldAmount := newWithheldAmount }
    | none => .error TokenError.invalidState
  else return destination

/-- The lamports that follow the tokens of a native account. -/
def moveLamports (σ : Ledger) (source destination : Pubkey) (amount : UInt64) :
    Result Ledger := do
  let sourceLamports ← okOr TokenError.overflow (checkedSub (σ source).lamports amount)
  let σ ← σ.writeLamports source sourceLamports
  let destinationLamports ← okOr TokenError.overflow (checkedAdd (σ destination).lamports amount)
  σ.writeLamports destination destinationLamports

/-- The end of `process_transfer`: both states are written back, with the
`transferring` flags raised around the call of the hook program. -/
def finishTransfer (ctx : Context) (σ : Ledger) (a : TransferAccounts)
    (source destination : PodState PodAccount) (maybeTransferHookProgramId : Option Pubkey) :
    Result Ledger :=
  match maybeTransferHookProgramId with
  | none => do
    let σ ← store σ a.source.key source
    store σ a.destination.key destination
  | some _ => do
    failIf a.expectedMint.isNone TokenError.mintRequiredForTransfer
    let source ← setTransferring source true
    let destination ← setTransferring destination true
    let σ ← store σ a.source.key source
    let σ ← store σ a.destination.key destination
    let σ ← ctx.executeHook σ
    let σ ← unsetTransferring σ a.source.key
    unsetTransferring σ a.destination.key

/-- The checks on the source account that come before the mint is read. -/
def checkTransferSource (source : PodState PodAccount) (amount : UInt64) : Result Unit := do
  failIf source.base.isFrozen TokenError.accountFrozen
  failIf (source.base.amount < amount) TokenError.insufficientFunds
  failIf (source.hasExtension NonTransferableAccount) TokenError.nonTransferable

/-- The checks on the destination account of a transfer between two accounts. -/
def checkTransferDestination (ctx : Context) (source destination : PodState PodAccount) :
    Result Unit := do
  failIf destination.base.isFrozen TokenError.accountFrozen
  failIf (source.base.mint != destination.base.mint) TokenError.mintMismatch
  checkMemo ctx destination
  match toOption (destination.getExtension ConfidentialTransferAccount) with
  | some confidentialTransferState => confidentialTransferState.nonConfidentialTransferAllowed
  | none => return ()

/-- The part of `process_transfer` after the early return of self-transfers. -/
def transferBetween (ctx : Context) (σ : Ledger) (a : TransferAccounts)
    (source : PodState PodAccount) (terms : TransferTerms) (amount : UInt64) :
    Result Ledger := do
  let destination ← load σ PodAccount a.destination.key
  checkTransferDestination ctx source destination
  let sourceAmount ← okOr TokenError.overflow (checkedSub source.base.amount amount)
  let source := { source with base := { source.base with amount := sourceAmount } }
  let creditedAmount ← okOr TokenError.overflow (checkedSub amount terms.calculatedFee)
  let destination ← creditDestination destination creditedAmount terms.calculatedFee
  let σ ← if source.base.isNative then moveLamports σ a.source.key a.destination.key amount
    else .ok σ
  finishTransfer ctx σ a source destination terms.maybeTransferHookProgramId

/-- `process_transfer`. -/
def processTransfer (ctx : Context) (accounts : List AccountInfo) (amount : UInt64)
    (transferInstruction : TransferInstruction) (σ : Ledger) : Result Ledger := do
  let a ← transferAccounts accounts transferInstruction
  let source ← load σ PodAccount a.source.key
  checkTransferSource source amount
  let terms ← transferTerms ctx σ a.source.key source amount a.expectedMint
  failIf (transferInstruction.fee?.any (terms.calculatedFee != ·)) TokenError.feeMismatch
  let selfTransfer := a.source.key == a.destination.key
  failIf (cpiGuardLocked source && a.authority.key == source.base.owner && ctx.inCpi)
    TokenError.cpiGuardTransferBlocked
  let base ← transferAuthority σ source.base a.authority a.signers
    terms.maybePermanentDelegate amount selfTransfer
  checkProgramAccount (σ a.source.key).owner
  checkProgramAccount (σ a.destination.key).owner
  if selfTransfer then do
    -- nothing was written: the delegate of a self-transfer keeps its allowance
    checkMemo ctx source
    return σ
  else transferBetween ctx σ a { source with base := base } terms amount

/-! ## Approve and revoke -/

/-- The decimals check of the `Checked` variants, on a mint that is only read. -/
def checkExpectedDecimals (σ : Ledger) (accountKey : Pubkey) (account : PodState PodAccount) :
    Option (AccountInfo × UInt8) → Result Unit
  | some (mintInfo, expectedDecimals) => do
    failIf (account.base.mint != mintInfo.key) TokenError.mintMismatch
    let mint ← loadBeside σ PodMint accountKey mintInfo.key
    failIf (expectedDecimals != mint.base.decimals) TokenError.mintDecimalsMismatch
  | none => .ok ()

/-- `process_approve`. -/
def processApprove (ctx : Context) (accounts : List AccountInfo) (amount : UInt64)
    (variant : InstructionVariant) (σ : Ledger) : Result Ledger :=
  match accounts with
  | [] => .error .notEnoughAccountKeys
  | sourceInfo :: rest => do
    let (expectedMint, rest) ← takeExpectedMint variant.decimals? rest
    match rest with
    | delegateInfo :: ownerInfo :: signers => do
      let source ← load σ PodAccount sourceInfo.key
      failIf source.base.isFrozen TokenError.accountFrozen
      checkExpectedDecimals σ sourceInfo.key source expectedMint
      checkOwner σ ownerInfo signers source.base.owner
      failIf (cpiGuardLocked source && ctx.inCpi) TokenError.cpiGuardApproveBlocked
      let base :=
        { source.base with delegate := .some delegateInfo.key, delegatedAmount := amount }
      store σ sourceInfo.key { source with base := base }
    | _ => .error .notEnoughAccountKeys

/-- `process_revoke`: the delegate may give up its own allowance. -/
def processRevoke (accounts : List AccountInfo) (σ : Ledger) : Result Ledger :=
  match accounts with
  | sourceInfo :: authorityInfo :: signers => do
    let source ← load σ PodAccount sourceInfo.key
    failIf source.base.isFrozen TokenError.accountFrozen
    checkOwner σ authorityInfo signers
      (if source.base.delegate.toOption == some authorityInfo.key then source.base.delegate.value
        else source.base.owner)
    let base := { source.base with delegate := .none, delegatedAmount := 0 }
    store σ sourceInfo.key { source with base := base }
  | _ => .error .notEnoughAccountKeys

/-! ## Mint and burn -/

/-- `process_mint_to`. -/
def processMintTo (accounts : List AccountInfo) (amount : UInt64) (variant : InstructionVariant)
    (σ : Ledger) : Result Ledger :=
  match accounts with
  | mintInfo :: destinationInfo :: ownerInfo :: signers => do
    let destination ← load σ PodAccount destinationInfo.key
    failIf destination.base.isFrozen TokenError.accountFrozen
    failIf destination.base.isNative TokenError.nativeNotSupported
    failIf (mintInfo.key != destination.base.mint) TokenError.mintMismatch
    let mint ← loadBeside σ PodMint destinationInfo.key mintInfo.key
    failIf (mint.hasExtension NonTransferable && !destination.hasExtension ImmutableOwner)
      TokenError.nonTransferableNeedsImmutableOwnership
    failIf (isPaused mint) TokenError.mintPaused
    failIf (mint.hasExtension ConfidentialMintBurn) TokenError.illegalMintBurnConversion
    failIf (variant.decimals?.any (· != mint.base.decimals)) TokenError.mintDecimalsMismatch
    let mintAuthority ← okOr TokenError.fixedSupply mint.base.mintAuthority.toOption
    checkOwner σ ownerInfo signers mintAuthority
    checkProgramAccount (σ mintInfo.key).owner
    checkProgramAccount (σ destinationInfo.key).owner
    let destinationAmount ← okOr TokenError.overflow (checkedAdd destination.base.amount amount)
    let supply ← okOr TokenError.overflow (checkedAdd mint.base.supply amount)
    let σ ← store σ destinationInfo.key
      { destination with base := { destination.base with amount := destinationAmount } }
    store σ mintInfo.key { mint with base := { mint.base with supply := supply } }
  | _ => .error .notEnoughAccountKeys

/-- The authority match of `process_burn`, skipped for accounts of the system
program and the incinerator. -/
def burnAuthority (σ : Ledger) (base : PodAccount) (authorityInfo : AccountInfo)
    (signers : List AccountInfo) (maybePermanentDelegate : Option Pubkey) (amount : UInt64) :
    Result PodAccount :=
  if base.isOwnedBySystemProgramOrIncinerator then .ok base
  else transferAuthority σ base authorityInfo signers maybePermanentDelegate amount false

/-- `process_burn`. -/
def processBurn (ctx : Context) (accounts : List AccountInfo) (amount : UInt64)
    (variant : InstructionVariant) (σ : Ledger) : Result Ledger :=
  match accounts with
  | sourceInfo :: mintInfo :: authorityInfo :: signers => do
    let source ← load σ PodAccount sourceInfo.key
    let mint ← loadBeside σ PodMint sourceInfo.key mintInfo.key
    failIf source.base.isFrozen TokenError.accountFrozen
    failIf source.base.isNative TokenError.nativeNotSupported
    failIf (source.base.amount < amount) TokenError.insufficientFunds
    failIf (mintInfo.key != source.base.mint) TokenError.mintMismatch
    failIf (variant.decimals?.any (· != mint.base.decimals)) TokenError.mintDecimalsMismatch
    failIf (isPaused mint) TokenError.mintPaused
    failIf (cpiGuardLocked source && authorityInfo.key == source.base.owner && ctx.inCpi)
      TokenError.cpiGuardBurnBlocked
    let base ← burnAuthority σ source.base authorityInfo signers (getPermanentDelegate mint) amount
    checkProgramAccount (σ sourceInfo.key).owner
    checkProgramAccount (σ mintInfo.key).owner
    let sourceAmount ← okOr TokenError.overflow (checkedSub base.amount amount)
    let supply ← okOr TokenError.overflow (checkedSub mint.base.supply amount)
    let σ ← store σ sourceInfo.key { source with base := { base with amount := sourceAmount } }
    store σ mintInfo.key { mint with base := { mint.base with supply := supply } }
  | _ => .error .notEnoughAccountKeys

end SolanaEasy.Token.Processor
