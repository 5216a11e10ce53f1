import SolanaEasy.Token.Processor.Authority

/-!
# Extension processors — settings of mints and accounts

The initialisers and updates of the extensions under `program/src/extension`
that hold an authority and a setting. Three shapes cover them: an extension
written into a mint before it is initialised, an extension of a mint changed by
the authority it names, and a switch that an owner turns on an account.
-/

namespace SolanaEasy.Token.Processor

/-! ## The shapes -/

/-- `unpack_uninitialized`, `init_extension::<V>(true)`, then the assignments. -/
def initMintExtension {V : Type} [Pod V] [Extension V] [Inhabited V]
    (accounts : List AccountInfo) (before : Result Unit) (value : Result V) (σ : Ledger) :
    Result Ledger :=
  match accounts with
  | mintInfo :: _ => do
    let mint ← unpackUninitialized PodMint (σ mintInfo.key).data
    before
    let mint ← mint.initExtension (default : V) true
    let extension ← value
    let mint ← mint.setExtension extension
    store σ mintInfo.key mint
  | [] => .error .notEnoughAccountKeys

/-- `get_extension_mut::<V>`, `validate_owner` on the authority it names, then the
assignments. -/
def updateMintExtension {V : Type} [Pod V] [Extension V] (accounts : List AccountInfo)
    (authority : V → Option Pubkey) (missing : TokenError) (update : V → Result V)
    (σ : Ledger) : Result Ledger :=
  match accounts with
  | mintInfo :: authorityInfo :: signers => do
    let mint ← load σ PodMint mintInfo.key
    let extension ← mint.getExtension V
    let expected ← okOr (.token missing) (authority extension)
    checkOwner σ authorityInfo signers expected
    let extension ← update extension
    let mint ← mint.setExtension extension
    store σ mintInfo.key mint
  | _ => .error .notEnoughAccountKeys

/-- An account extension that its owner switches, and that is added when missing. -/
def toggleAccountExtension {V : Type} [Pod V] [Extension V] (accounts : List AccountInfo)
    (guard : Result Unit) (value : V) (σ : Ledger) : Result Ledger :=
  match accounts with
  | accountInfo :: ownerInfo :: signers => do
    let account ← load σ PodAccount accountInfo.key
    checkOwner σ ownerInfo signers account.base.owner
    guard
    let account ← if account.hasExtension V then account.setExtension value
      else account.initExtension value true
    store σ accountInfo.key account
  | _ => .error .notEnoughAccountKeys

/-! ## Authorities and markers -/

/-- `process_initialize_mint_close_authority`. -/
def processInitializeMintCloseAuthority (accounts : List AccountInfo)
    (closeAuthority : PodCOption Pubkey) : Ledger → Result Ledger :=
  initMintExtension accounts (.ok ()) do
    let key ← OptionalNonZeroPubkey.ofPodCOption closeAuthority
    return (⟨key⟩ : MintCloseAuthority)

/-- `process_initialize_non_transferable_mint`. -/
def processInitializeNonTransferableMint (accounts : List AccountInfo) :
    Ledger → Result Ledger :=
  initMintExtension accounts (.ok ()) (.ok (⟨⟩ : NonTransferable))

/-- `process_initialize_permanent_delegate`. -/
def processInitializePermanentDelegate (accounts : List AccountInfo) (delegate : Pubkey) :
    Ledger → Result Ledger :=
  initMintExtension accounts (.ok ()) do
    let key ← OptionalNonZeroPubkey.ofOption (some delegate)
    return (⟨key⟩ : PermanentDelegate)

/-- `process_initialize_immutable_owner`: the one initialiser for accounts. -/
def processInitializeImmutableOwner (accounts : List AccountInfo) (σ : Ledger) :
    Result Ledger :=
  match accounts with
  | tokenAccountInfo :: _ => do
    let account ← unpackUninitialized PodAccount (σ tokenAccountInfo.key).data
    let account ← account.initExtension (default : ImmutableOwner) true
    store σ tokenAccountInfo.key account
  | [] => .error .notEnoughAccountKeys

/-! ## Default account state -/

/-- `check_valid_default_state`. -/
def checkValidDefaultState (state : AccountState) : Result Unit :=
  failIf (state == .uninitialized) TokenError.invalidState

/-- `process_initialize_default_account_state`. -/
def processInitializeDefaultAccountState (accounts : List AccountInfo) (state : AccountState)
    (σ : Ledger) : Result Ledger := do
  checkValidDefaultState state
  initMintExtension accounts (.ok ()) (.ok (⟨state.toU8⟩ : DefaultAccountState)) σ

/-- `process_update_default_account_state`: the freeze authority decides. -/
def processUpdateDefaultAccountState (accounts : List AccountInfo) (state : AccountState)
    (σ : Ledger) : Result Ledger := do
  checkValidDefaultState state
  match accounts with
  | mintInfo :: freezeAuthorityInfo :: signers => do
    let mint ← load σ PodMint mintInfo.key
    let freezeAuthority ← okOr TokenError.noAuthorityExists mint.base.freezeAuthority.toOption
    checkOwner σ freezeAuthorityInfo signers freezeAuthority
    let mint ← mint.setExtension (⟨state.toU8⟩ : DefaultAccountState)
    store σ mintInfo.key mint
  | _ => .error .notEnoughAccountKeys

/-! ## Interest-bearing mints -/

namespace InterestBearingMint

/-- `interest_bearing_mint::processor::process_initialize`. -/
def processInitialize (ctx : Context) (accounts : List AccountInfo)
    (rateAuthority : OptionalNonZeroPubkey) (rate : Int16) : Ledger → Result Ledger :=
  initMintExtension accounts (.ok ()) (.ok
    { rateAuthority := rateAuthority
      initializationTimestamp := ctx.unixTimestamp
      preUpdateAverageRate := rate
      lastUpdateTimestamp := ctx.unixTimestamp
      currentRate := rate : InterestBearingConfig })

/-- `process_update_rate`. -/
def processUpdateRate (ctx : Context) (accounts : List AccountInfo) (newRate : Int16) :
    Ledger → Result Ledger :=
  updateMintExtension accounts (fun e : InterestBearingConfig => e.rateAuthority.toOption)
    .noAuthorityExists fun e => do
      let newAverageRate ← okOr TokenError.overflow (e.timeWeightedAverageRate ctx.unixTimestamp)
      return { e with
        preUpdateAverageRate := newAverageRate
        lastUpdateTimestamp := ctx.unixTimestamp
        currentRate := newRate }

end InterestBearingMint

/-! ## Transfer hooks -/

namespace TransferHook

/-- `transfer_hook::processor::process_initialize`. -/
def processInitialize (accounts : List AccountInfo)
    (authority transferHookProgramId : OptionalNonZeroPubkey) : Ledger → Result Ledger :=
  initMintExtension accounts (.ok ()) do
    match transferHookProgramId.toOption with
    | some programId => failIf (programId == Keys.tokenProgram) .incorrectProgramId
    | none => failIf authority.toOption.isNone TokenError.invalidInstruction
    return (⟨authority, transferHookProgramId⟩ : TransferHook)

/-- `process_update`. -/
def processUpdate (accounts : List AccountInfo) (newProgramId : OptionalNonZeroPubkey) :
    Ledger → Result Ledger :=
  updateMintExtension accounts (fun e : TransferHook => e.authority.toOption)
    .noAuthorityExists fun e => do
      failIf (newProgramId.toOption == some Keys.tokenProgram) .incorrectProgramId
      return { e with programId := newProgramId }

end TransferHook

/-! ## Pointers -/

/-- A pointer extension needs an authority or an address. -/
def checkPointer (authority address : OptionalNonZeroPubkey) : Result Unit :=
  failIf (authority.toOption.isNone && address.toOption.isNone) TokenError.invalidInstruction

namespace MetadataPointer

/-- `metadata_pointer::processor::process_initialize`. -/
def processInitialize (accounts : List AccountInfo)
    (authority metadataAddress : OptionalNonZeroPubkey) : Ledger → Result Ledger :=
  initMintExtension accounts (.ok ()) do
    checkPointer authority metadataAddress
    return (⟨authority, metadataAddress⟩ : MetadataPointer)

/-- `process_update`. -/
def processUpdate (accounts : List AccountInfo) (newMetadataAddress : OptionalNonZeroPubkey) :
    Ledger → Result Ledger :=
  updateMintExtension accounts (fun e : MetadataPointer => e.authority.toOption)
    .noAuthorityExists fun e => .ok { e with metadataAddress := newMetadataAddress }

end MetadataPointer

namespace GroupPointer

/-- `group_pointer::processor::process_initialize`: the check comes first. -/
def processInitialize (accounts : List AccountInfo)
    (authority groupAddress : OptionalNonZeroPubkey) : Ledger → Result Ledger :=
  initMintExtension accounts (checkPointer authority groupAddress)
    (.ok (⟨authority, groupAddress⟩ : GroupPointer))

/-- `process_update`. -/
def processUpdate (accounts : List AccountInfo) (newGroupAddress : OptionalNonZeroPubkey) :
    Ledger → Result Ledger :=
  updateMintExtension accounts (fun e : GroupPointer => e.authority.toOption)
    .noAuthorityExists fun e => .ok { e with groupAddress := newGroupAddress }

end GroupPointer

namespace GroupMemberPointer

/-- `group_member_pointer::processor::process_initialize`. -/
def processInitialize (accounts : List AccountInfo)
    (authority memberAddress : OptionalNonZeroPubkey) : Ledger → Result Ledger :=
  initMintExtension accounts (checkPointer authority memberAddress)
    (.ok (⟨authority, memberAddress⟩ : GroupMemberPointer))

/-- `process_update`. -/
def processUpdate (accounts : List AccountInfo) (newMemberAddress : OptionalNonZeroPubkey) :
    Ledger → Result Ledger :=
  updateMintExtension accounts (fun e : GroupMemberPointer => e.authority.toOption)
    .noAuthorityExists fun e => .ok { e with memberAddress := newMemberAddress }

end GroupMemberPointer

/-! ## Scaled amounts -/

namespace ScaledUiAmount

/-- `try_validate_multiplier`. -/
def tryValidateMultiplier (multiplier : UInt64) : Result Unit :=
  failIf (!isPositiveNormal multiplier) TokenError.invalidScale

/-- `scaled_ui_amount::processor::process_initialize`. -/
def processInitialize (accounts : List AccountInfo) (authority : OptionalNonZeroPubkey)
    (multiplier : UInt64) : Ledger → Result Ledger :=
  initMintExtension accounts (.ok ()) do
    tryValidateMultiplier multiplier
    return (⟨authority, multiplier, 0, multiplier⟩ : ScaledUiAmountConfig)

/-- The assignments of `process_update_multiplier`. -/
def updated (e : ScaledUiAmountConfig) (unixTimestamp : Int64) (newMultiplier : UInt64)
    (effectiveTimestamp : Int64) : ScaledUiAmountConfig :=
  let multiplier :=
    if unixTimestamp ≥ e.newMultiplierEffectiveTimestamp then e.newMultiplier else e.multiplier
  { e with
    multiplier := if unixTimestamp ≥ effectiveTimestamp then newMultiplier else multiplier
    newMultiplier := newMultiplier
    newMultiplierEffectiveTimestamp := if effectiveTimestamp < 0 then 0 else effectiveTimestamp }

/-- `process_update_multiplier`. -/
def processUpdateMultiplier (ctx : Context) (accounts : List AccountInfo)
    (newMultiplier : UInt64) (effectiveTimestamp : Int64) : Ledger → Result Ledger :=
  updateMintExtension accounts (fun e : ScaledUiAmountConfig => e.authority.toOption)
    .noAuthorityExists fun e => do
      tryValidateMultiplier newMultiplier
      return updated e ctx.unixTimestamp newMultiplier effectiveTimestamp

end ScaledUiAmount

/-! ## Pausing -/

namespace Pausable

/-- `pausable::processor::process_initialize`. -/
def processInitialize (accounts : List AccountInfo) (authority : Pubkey) :
    Ledger → Result Ledger :=
  initMintExtension accounts (.ok ()) do
    let key ← OptionalNonZeroPubkey.ofOption (some authority)
    return (⟨key, .ofBool false⟩ : PausableConfig)

/-- `process_toggle_pause`. -/
def processTogglePause (accounts : List AccountInfo) (pause : Bool) : Ledger → Result Ledger :=
  updateMintExtension accounts (fun e : PausableConfig => e.authority.toOption)
    .authorityTypeNotSupported fun e => .ok { e with paused := .ofBool pause }

end Pausable

/-! ## Account switches -/

/-- `process_toggle_required_memo_transfers`. -/
def processToggleRequiredMemoTransfers (accounts : List AccountInfo) (enable : Bool) :
    Ledger → Result Ledger :=
  toggleAccountExtension accounts (.ok ()) (⟨.ofBool enable⟩ : MemoTransfer)

/-- `process_toggle_cpi_guard`. -/
def processToggleCpiGuard (ctx : Context) (accounts : List AccountInfo) (enable : Bool) :
    Ledger → Result Ledger :=
  toggleAccountExtension accounts (failIf ctx.inCpi TokenError.cpiGuardSettingsLocked)
    (⟨.ofBool enable⟩ : CpiGuard)

end SolanaEasy.Token.Processor
