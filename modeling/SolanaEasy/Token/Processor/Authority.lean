import SolanaEasy.Token.Processor.Transfer

/-!
# Processor — authorities, freezing, closing and native balances

`program/src/processor.rs`, the handlers that change who may act on an account,
its state, or its lamports, and `extension/reallocate.rs`.
-/

namespace SolanaEasy.Token.Processor

/-! ## SetAuthority -/

inductive AuthorityType where
  | mintTokens
  | freezeAccount
  | accountOwner
  | closeAccount
  | transferFeeConfig
  | withheldWithdraw
  | closeMint
  | interestRate
  | permanentDelegate
  | confidentialTransferMint
  | transferHookProgramId
  | confidentialTransferFeeConfig
  | metadataPointer
  | groupPointer
  | groupMemberPointer
  | scaledUiAmount
  | pause
deriving DecidableEq

/-- The account branch of `process_set_authority`. -/
def setAccountAuthority (ctx : Context) (σ : Ledger) (account : PodState PodAccount)
    (authorityInfo : AccountInfo) (signers : List AccountInfo) (authorityType : AuthorityType)
    (newAuthority : PodCOption Pubkey) : Result (PodState PodAccount) := do
  failIf account.base.isFrozen TokenError.accountFrozen
  match authorityType with
  | .accountOwner => do
    checkOwner σ authorityInfo signers account.base.owner
    failIf (account.hasExtension ImmutableOwner) TokenError.immutableOwner
    failIf (cpiGuardLocked account && ctx.inCpi) TokenError.cpiGuardSetAuthorityBlocked
    failIf (cpiGuardLocked account) TokenError.cpiGuardOwnerChangeBlocked
    let owner ← okOr TokenError.invalidInstruction newAuthority.toOption
    let closeAuthority := if account.base.isNative then .none else account.base.closeAuthority
    let base :=
      { account.base with
        owner := owner
        delegate := .none
        delegatedAmount := 0
        closeAuthority := closeAuthority }
    return { account with base := base }
  | .closeAccount => do
    let authority := account.base.closeAuthority.unwrapOr account.base.owner
    checkOwner σ authorityInfo signers authority
    failIf (cpiGuardLocked account && ctx.inCpi && newAuthority.isSome)
      TokenError.cpiGuardSetAuthorityBlocked
    return { account with base := { account.base with closeAuthority := newAuthority } }
  | _ => .error TokenError.authorityTypeNotSupported

/-- A mint branch that replaces an optional authority of the base. -/
def setBaseAuthority (σ : Ledger) (mint : PodState PodMint) (authorityInfo : AccountInfo)
    (signers : List AccountInfo) (current : PodCOption Pubkey) (missing : TokenError)
    (base : PodMint) : Result (PodState PodMint) := do
  let authority ← okOr (.token missing) current.toOption
  checkOwner σ authorityInfo signers authority
  return { mint with base := base }

/-- A mint branch that replaces the authority an extension `V` keeps. -/
def setExtensionAuthority (V : Type) [Pod V] [Extension V] (σ : Ledger)
    (mint : PodState PodMint) (authorityInfo : AccountInfo) (signers : List AccountInfo)
    (authority : V → OptionalNonZeroPubkey) (withAuthority : V → OptionalNonZeroPubkey → V)
    (newAuthority : PodCOption Pubkey) : Result (PodState PodMint) := do
  let extension ← mint.getExtension V
  let current ← okOr TokenError.authorityTypeNotSupported (authority extension).toOption
  checkOwner σ authorityInfo signers current
  let new ← OptionalNonZeroPubkey.ofPodCOption newAuthority
  mint.setExtension (withAuthority extension new)

/-- The mint branch of `process_set_authority`. -/
def setMintAuthority (σ : Ledger) (mint : PodState PodMint) (authorityInfo : AccountInfo)
    (signers : List AccountInfo) (authorityType : AuthorityType)
    (newAuthority : PodCOption Pubkey) : Result (PodState PodMint) :=
  match authorityType with
  | .mintTokens => setBaseAuthority σ mint authorityInfo signers mint.base.mintAuthority
      .fixedSupply { mint.base with mintAuthority := newAuthority }
  | .freezeAccount => setBaseAuthority σ mint authorityInfo signers mint.base.freezeAuthority
      .mintCannotFreeze { mint.base with freezeAuthority := newAuthority }
  | .closeMint => setExtensionAuthority MintCloseAuthority σ mint authorityInfo signers
      (·.closeAuthority) (fun e k => { e with closeAuthority := k }) newAuthority
  | .transferFeeConfig => setExtensionAuthority TransferFeeConfig σ mint authorityInfo signers
      (·.transferFeeConfigAuthority) (fun e k => { e with transferFeeConfigAuthority := k })
      newAuthority
  | .withheldWithdraw => setExtensionAuthority TransferFeeConfig σ mint authorityInfo signers
      (·.withdrawWithheldAuthority) (fun e k => { e with withdrawWithheldAuthority := k })
      newAuthority
  | .interestRate => setExtensionAuthority InterestBearingConfig σ mint authorityInfo signers
      (·.rateAuthority) (fun e k => { e with rateAuthority := k }) newAuthority
  | .permanentDelegate => setExtensionAuthority PermanentDelegate σ mint authorityInfo signers
      (·.delegate) (fun e k => { e with delegate := k }) newAuthority
  | .confidentialTransferMint => setExtensionAuthority ConfidentialTransferMint σ mint
      authorityInfo signers (·.authority) (fun e k => { e with authority := k }) newAuthority
  | .transferHookProgramId => setExtensionAuthority TransferHook σ mint authorityInfo signers
      (·.authority) (fun e k => { e with authority := k }) newAuthority
  | .confidentialTransferFeeConfig => setExtensionAuthority ConfidentialTransferFeeConfig σ mint
      authorityInfo signers (·.authority) (fun e k => { e with authority := k }) newAuthority
  | .metadataPointer => setExtensionAuthority MetadataPointer σ mint authorityInfo signers
      (·.authority) (fun e k => { e with authority := k }) newAuthority
  | .groupPointer => setExtensionAuthority GroupPointer σ mint authorityInfo signers
      (·.authority) (fun e k => { e with authority := k }) newAuthority
  | .groupMemberPointer => setExtensionAuthority GroupMemberPointer σ mint authorityInfo signers
      (·.authority) (fun e k => { e with authority := k }) newAuthority
  | .scaledUiAmount => setExtensionAuthority ScaledUiAmountConfig σ mint authorityInfo signers
      (·.authority) (fun e k => { e with authority := k }) newAuthority
  | .pause => setExtensionAuthority PausableConfig σ mint authorityInfo signers
      (·.authority) (fun e k => { e with authority := k }) newAuthority
  | _ => .error TokenError.authorityTypeNotSupported

/-- `process_set_authority`. -/
def processSetAuthority (ctx : Context) (accounts : List AccountInfo)
    (authorityType : AuthorityType) (newAuthority : PodCOption Pubkey) (σ : Ledger) :
    Result Ledger :=
  match accounts with
  | accountInfo :: authorityInfo :: signers =>
    match toOption (load σ PodAccount accountInfo.key) with
    | some account => do
      let account ←
        setAccountAuthority ctx σ account authorityInfo signers authorityType newAuthority
      store σ accountInfo.key account
    | none =>
      match toOption (load σ PodMint accountInfo.key) with
      | some mint => do
        let mint ← setMintAuthority σ mint authorityInfo signers authorityType newAuthority
        store σ accountInfo.key mint
      | none => .error .invalidAccountData
  | _ => .error .notEnoughAccountKeys

/-! ## Close -/

/-- An extension that must be empty before its account can be closed. -/
def checkClosable (V : Type) [Pod V] [Extension V] (account : PodState PodAccount)
    (closable : V → Result Unit) : Result Unit :=
  match toOption (account.getExtension V) with
  | some state => closable state
  | none => .ok ()

/-- The account branch of `process_close_account`. -/
def checkCloseAccount (ctx : Context) (σ : Ledger) (source : PodState PodAccount)
    (destinationKey : Pubkey) (authorityInfo : AccountInfo) (signers : List AccountInfo) :
    Result Unit := do
  failIf (!source.base.isNative && source.base.amount != 0) TokenError.nonNativeHasBalance
  let authority := source.base.closeAuthority.unwrapOr source.base.owner
  if !source.base.isOwnedBySystemProgramOrIncinerator then do
    failIf (cpiGuardLocked source && ctx.inCpi && destinationKey != source.base.owner)
      TokenError.cpiGuardCloseAccountBlocked
    checkOwner σ authorityInfo signers authority
  else failIf (destinationKey != Keys.incinerator) .invalidAccountData
  checkClosable ConfidentialTransferAccount source (·.closable)
  checkClosable ConfidentialTransferFeeAmount source (·.closable)
  checkClosable TransferFeeAmount source (·.closable)

/-- The mint branch of `process_close_account`. -/
def checkCloseMint (σ : Ledger) (mint : PodState PodMint) (authorityInfo : AccountInfo)
    (signers : List AccountInfo) : Result Unit := do
  let extension ← mint.getExtension MintCloseAuthority
  let authority ← okOr TokenError.authorityTypeNotSupported extension.closeAuthority.toOption
  checkOwner σ authorityInfo signers authority
  failIf (mint.base.supply != 0) TokenError.mintHasSupply

/-- The checks of `process_close_account` on the account to close. -/
def checkClose (ctx : Context) (σ : Ledger) (sourceKey destinationKey : Pubkey)
    (authorityInfo : AccountInfo) (signers : List AccountInfo) : Result Unit :=
  match toOption (load σ PodAccount sourceKey) with
  | some source => checkCloseAccount ctx σ source destinationKey authorityInfo signers
  | none =>
    match toOption (load σ PodMint sourceKey) with
    | some mint => checkCloseMint σ mint authorityInfo signers
    | none => .error .uninitializedAccount

/-- `process_close_account`. -/
def processCloseAccount (ctx : Context) (accounts : List AccountInfo) (σ : Ledger) :
    Result Ledger :=
  match accounts with
  | sourceInfo :: destinationInfo :: authorityInfo :: signers => do
    failIf (sourceInfo.key == destinationInfo.key) .invalidAccountData
    checkClose ctx σ sourceInfo.key destinationInfo.key authorityInfo signers
    let destinationLamports ← okOr TokenError.overflow
      (checkedAdd (σ destinationInfo.key).lamports (σ sourceInfo.key).lamports)
    let σ ← σ.writeLamports destinationInfo.key destinationLamports
    let σ ← σ.writeLamports sourceInfo.key 0
    σ.deleteAccount sourceInfo.key
  | _ => .error .notEnoughAccountKeys

/-! ## Freeze and thaw -/

/-- `process_toggle_freeze_account`. -/
def processToggleFreezeAccount (accounts : List AccountInfo) (freeze : Bool) (σ : Ledger) :
    Result Ledger :=
  match accounts with
  | sourceInfo :: mintInfo :: authorityInfo :: signers => do
    let source ← load σ PodAccount sourceInfo.key
    failIf (freeze && source.base.isFrozen || !freeze && !source.base.isFrozen)
      TokenError.invalidState
    failIf source.base.isNative TokenError.nativeNotSupported
    failIf (mintInfo.key != source.base.mint) TokenError.mintMismatch
    let mint ← loadBeside σ PodMint sourceInfo.key mintInfo.key
    let authority ← okOr TokenError.mintCannotFreeze mint.base.freezeAuthority.toOption
    checkOwner σ authorityInfo signers authority
    let state : AccountState := if freeze then .frozen else .initialized
    store σ sourceInfo.key { source with base := { source.base with state := state.toU8 } }
  | _ => .error .notEnoughAccountKeys

/-! ## Native balances and lamports -/

/-- `process_sync_native`. -/
def processSyncNative (accounts : List AccountInfo) (σ : Ledger) : Result Ledger :=
  match accounts with
  | nativeAccountInfo :: _ => do
    checkProgramAccount (σ nativeAccountInfo.key).owner
    let nativeAccount ← load σ PodAccount nativeAccountInfo.key
    let reserve ← okOr TokenError.nonNativeNotSupported nativeAccount.base.isNativeOption.toOption
    let newAmount ← okOr TokenError.overflow
      (checkedSub (σ nativeAccountInfo.key).lamports reserve)
    failIf (newAmount < nativeAccount.base.amount) TokenError.invalidState
    store σ nativeAccountInfo.key
      { nativeAccount with base := { nativeAccount.base with amount := newAmount } }
  | [] => .error .notEnoughAccountKeys

/-- `native_mint::DECIMALS`. -/
def nativeMintDecimals : UInt8 := 9

/-- `process_create_native_mint`. The system program's `allocate` and `assign`
are signed with the seeds of the native mint's address. -/
def processCreateNativeMint (rt : Runtime) (accounts : List AccountInfo) (σ : Ledger) :
    Result Ledger :=
  match accounts with
  | payerInfo :: nativeMintInfo :: _ :: _ => do
    failIf (nativeMintInfo.key != Keys.nativeMint) TokenError.invalidMint
    let newMinimumBalance := rt.minimumBalance mintLen
    let lamportsDiff := saturatingSub newMinimumBalance (σ nativeMintInfo.key).lamports
    let σ ← σ.systemTransfer payerInfo nativeMintInfo.key lamportsDiff
    failIf ((σ nativeMintInfo.key).owner != Keys.systemProgram
      || !(σ nativeMintInfo.key).data.isEmpty) RuntimeFault.systemTransfer
    let mint : PodMint := ⟨.none, 0, nativeMintDecimals, .ofBool true, .none⟩
    return σ.set nativeMintInfo.key
      ⟨(σ nativeMintInfo.key).lamports, Keys.tokenProgram, Pod.toBytes mint⟩
  | _ => .error .notEnoughAccountKeys

/-- The mint branch of `process_withdraw_excess_lamports`: without a mint authority
the mint's own key must sign. -/
def checkExcessMint (σ : Ledger) (sourceKey : Pubkey) (mint : PodState PodMint)
    (authorityInfo : AccountInfo) (signers : List AccountInfo) : Result Unit :=
  match mint.base.mintAuthority.toOption with
  | some mintAuthority => checkOwner σ authorityInfo signers mintAuthority
  | none =>
    if mint.base.mintAuthority.isNone && sourceKey == authorityInfo.key then
      failIf (!authorityInfo.isSigner) .missingRequiredSignature
    else .error TokenError.authorityTypeNotSupported

/-- The authority of `process_withdraw_excess_lamports`, by the kind of the source. -/
def checkExcessAuthority (σ : Ledger) (sourceKey : Pubkey) (authorityInfo : AccountInfo)
    (signers : List AccountInfo) : Result Unit :=
  match toOption (load σ PodAccount sourceKey) with
  | some account => do
    failIf account.base.isNative TokenError.nativeNotSupported
    checkOwner σ authorityInfo signers account.base.owner
  | none =>
    match toOption (load σ PodMint sourceKey) with
    | some mint => checkExcessMint σ sourceKey mint authorityInfo signers
    | none =>
      if (σ sourceKey).data.length == multisigLen then
        checkOwner σ authorityInfo signers sourceKey
      else .error TokenError.invalidState

/-- `process_withdraw_excess_lamports`. -/
def processWithdrawExcessLamports (rt : Runtime) (accounts : List AccountInfo) (σ : Ledger) :
    Result Ledger :=
  match accounts with
  | sourceInfo :: destinationInfo :: authorityInfo :: signers => do
    checkExcessAuthority σ sourceInfo.key authorityInfo signers
    let sourceRentExemptReserve := rt.minimumBalance (σ sourceInfo.key).data.length
    let transferAmount ← okOr TokenError.notRentExempt
      (checkedSub (σ sourceInfo.key).lamports sourceRentExemptReserve)
    moveLamports σ sourceInfo.key destinationInfo.key transferAmount
  | _ => .error .notEnoughAccountKeys

/-! ## Reads -/

/-- `process_get_account_data_size`: the length returned to the caller. -/
def processGetAccountDataSize (accounts : List AccountInfo)
    (newExtensionTypes : List ExtensionType) (σ : Ledger) : Result Nat :=
  match accounts with
  | mintInfo :: _ => do
    failIf (newExtensionTypes.any (·.getAccountType != .account)) TokenError.extensionTypeMismatch
    let accountExtensions ← getRequiredAccountExtensions σ mintInfo.key
    tryCalculateAccountLen PodAccount (accountExtensions ++ newExtensionTypes)
  | [] => .error .notEnoughAccountKeys

/-! ## Reallocate -/

/-- The native reserve after a reallocation, written through the strict view. -/
def syncReserve (σ : Ledger) (k : Pubkey) (data : Bytes) (newRentExemptReserve : UInt64) :
    Option UInt64 → Result Bytes
  | none => .ok data
  | some nativeTokenAmount => do
    let (base, account) ← unpackAccount data
    let minimumLamports ← okOr TokenError.overflow
      (checkedAdd newRentExemptReserve nativeTokenAmount)
    failIf ((σ k).lamports < minimumLamports) TokenError.invalidState
    let base := { base with isNative := some newRentExemptReserve }
    return PodState.bytes { account with base := base.packIntoSlice account.base }

/-- `process_reallocate`. -/
def processReallocate (rt : Runtime) (accounts : List AccountInfo)
    (newExtensionTypes : List ExtensionType) (σ : Ledger) : Result Ledger :=
  match accounts with
  | tokenAccountInfo :: payerInfo :: _ :: authorityInfo :: signers => do
    let k := tokenAccountInfo.key
    let (base, account) ← unpackAccount (σ k).data
    checkOwner σ authorityInfo signers base.owner
    let nativeTokenAmount := if base.isNative.isSome then some base.amount else none
    let currentExtensionTypes ← account.getExtensionTypes
    failIf (newExtensionTypes.any (·.getAccountType != .account)) TokenError.invalidState
    let neededAccountLen ←
      tryCalculateAccountLen PodAccount (currentExtensionTypes ++ newExtensionTypes)
    if (σ k).data.length ≥ neededAccountLen then return σ
    else do
      let σ ← σ.resize k neededAccountLen
      let newRentExemptReserve := rt.minimumBalance neededAccountLen
      let currentLamportReserve ← okOr TokenError.overflow
        (checkedSub (σ k).lamports (nativeTokenAmount.getD 0))
      let lamportsDiff := saturatingSub newRentExemptReserve currentLamportReserve
      let σ ← if lamportsDiff > 0 then σ.systemTransfer payerInfo k lamportsDiff else .ok σ
      let data ← setAccountType PodAccount (σ k).data
      let data ← syncReserve σ k data newRentExemptReserve nativeTokenAmount
      σ.writeData k data
  | _ => .error .notEnoughAccountKeys

end SolanaEasy.Token.Processor
