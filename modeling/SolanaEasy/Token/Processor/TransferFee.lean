import SolanaEasy.Token.Processor.MintExtension

/-!
# Transfer fees — setting, withholding, harvesting, withdrawing

`program/src/extension/transfer_fee/processor.rs`.
-/

namespace SolanaEasy.Token.Processor.TransferFee

/-- `transfer_fee_basis_points > MAX_FEE_BASIS_POINTS`. -/
def checkBasisPoints (basisPoints : UInt16) : Result Unit :=
  failIf (basisPoints.toNat > Token.TransferFee.maxFeeBasisPoints)
    TokenError.transferFeeExceedsMaximum

/-- `process_initialize_transfer_fee_config`. -/
def processInitializeTransferFeeConfig (ctx : Context) (accounts : List AccountInfo)
    (transferFeeConfigAuthority withdrawWithheldAuthority : Option Pubkey)
    (transferFeeBasisPoints : UInt16) (maximumFee : UInt64) : Ledger → Result Ledger :=
  initMintExtension accounts (.ok ()) do
    let configAuthority ← OptionalNonZeroPubkey.ofOption transferFeeConfigAuthority
    let withheldAuthority ← OptionalNonZeroPubkey.ofOption withdrawWithheldAuthority
    checkBasisPoints transferFeeBasisPoints
    let transferFee : Token.TransferFee := ⟨ctx.epoch, maximumFee, transferFeeBasisPoints⟩
    return (⟨configAuthority, withheldAuthority, 0, transferFee, transferFee⟩ :
      TransferFeeConfig)

/-- `u64::saturating_add(2)`. -/
def twoEpochsAhead (epoch : UInt64) : UInt64 :=
  (checkedAdd epoch 2).getD 0xffffffffffffffff

/-- `process_set_transfer_fee`: a fee that is in force becomes the older one. -/
def processSetTransferFee (ctx : Context) (accounts : List AccountInfo)
    (transferFeeBasisPoints : UInt16) (maximumFee : UInt64) : Ledger → Result Ledger :=
  updateMintExtension accounts
    (fun e : TransferFeeConfig => e.transferFeeConfigAuthority.toOption) .noAuthorityExists
    fun e => do
      checkBasisPoints transferFeeBasisPoints
      let older :=
        if e.newerTransferFee.epoch ≤ ctx.epoch then e.newerTransferFee else e.olderTransferFee
      return { e with
        olderTransferFee := older
        newerTransferFee :=
          ⟨twoEpochsAhead ctx.epoch, maximumFee, transferFeeBasisPoints⟩ }

/-- `process_withdraw_withheld_tokens_from_mint`. -/
def processWithdrawWithheldTokensFromMint (accounts : List AccountInfo) (σ : Ledger) :
    Result Ledger :=
  match accounts with
  | mintInfo :: destinationInfo :: authorityInfo :: signers => do
    checkProgramAccount (σ mintInfo.key).owner
    let mint ← load σ PodMint mintInfo.key
    let extension ← mint.getExtension TransferFeeConfig
    let withdrawWithheldAuthority ←
      okOr TokenError.noAuthorityExists extension.withdrawWithheldAuthority.toOption
    checkOwner σ authorityInfo signers withdrawWithheldAuthority
    let destination ← loadBeside σ PodAccount mintInfo.key destinationInfo.key
    failIf (destination.base.mint != mintInfo.key) TokenError.mintMismatch
    failIf destination.base.isFrozen TokenError.accountFrozen
    let mint ← mint.setExtension { extension with withheldAmount := 0 }
    let amount ← okOr TokenError.overflow
      (checkedAdd destination.base.amount extension.withheldAmount)
    let σ ← store σ mintInfo.key mint
    store σ destinationInfo.key
      { destination with base := { destination.base with amount := amount } }
  | _ => .error .notEnoughAccountKeys

/-- `harvest_from_account`. -/
def harvestFromAccount (σ : Ledger) (mintKey accountKey : Pubkey) : Result (Ledger × UInt64) := do
  let account ← mapErr (.token .invalidState) (load σ PodAccount accountKey)
  failIf (account.base.mint != mintKey) TokenError.mintMismatch
  mapErr (.token .invalidState) (checkProgramAccount (σ accountKey).owner)
  let extension ← mapErr (.token .invalidState) (account.getExtension TransferFeeAmount)
  let account ← account.setExtension { extension with withheldAmount := 0 }
  let σ ← store σ accountKey account
  return (σ, extension.withheldAmount)

/-- The loop of `process_harvest_withheld_tokens_to_mint`. An account that cannot
be harvested is skipped; the mint itself is still borrowed. -/
def harvestAll (mintKey : Pubkey) : List AccountInfo → Ledger → TransferFeeConfig →
    Result (Ledger × TransferFeeConfig)
  | [], σ, mintExtension => .ok (σ, mintExtension)
  | accountInfo :: rest, σ, mintExtension => do
    failIf (accountInfo.key == mintKey) RuntimeFault.accountBorrowFailed
    match toOption (harvestFromAccount σ mintKey accountInfo.key) with
    | some (σ, amount) => do
      let withheldAmount ← okOr TokenError.overflow
        (checkedAdd mintExtension.withheldAmount amount)
      harvestAll mintKey rest σ { mintExtension with withheldAmount := withheldAmount }
    | none => harvestAll mintKey rest σ mintExtension

/-- `process_harvest_withheld_tokens_to_mint`. -/
def processHarvestWithheldTokensToMint (accounts : List AccountInfo) (σ : Ledger) :
    Result Ledger :=
  match accounts with
  | mintInfo :: tokenAccountInfos => do
    let mint ← load σ PodMint mintInfo.key
    let mintExtension ← mint.getExtension TransferFeeConfig
    let (σ, mintExtension) ← harvestAll mintInfo.key tokenAccountInfos σ mintExtension
    let mint ← mint.setExtension mintExtension
    store σ mintInfo.key mint
  | [] => .error .notEnoughAccountKeys

/-- The destination when it is one of the harvested accounts itself. -/
def harvestSelf (destination : PodState PodAccount) : Result (PodState PodAccount) := do
  let extension ← mapErr (.token .invalidState) (destination.getExtension TransferFeeAmount)
  let destination ← destination.setExtension { extension with withheldAmount := 0 }
  let amount ← okOr TokenError.overflow
    (checkedAdd destination.base.amount extension.withheldAmount)
  return { destination with base := { destination.base with amount := amount } }

/-- The loop of `process_withdraw_withheld_tokens_from_accounts`: the destination
stays borrowed while the others are harvested. -/
def withdrawAll (mintKey destinationKey : Pubkey) : List AccountInfo → Ledger →
    PodState PodAccount → Result (Ledger × PodState PodAccount)
  | [], σ, destination => .ok (σ, destination)
  | accountInfo :: rest, σ, destination =>
    if accountInfo.key == destinationKey then do
      let destination ← harvestSelf destination
      withdrawAll mintKey destinationKey rest σ destination
    else do
      failIf (accountInfo.key == mintKey) RuntimeFault.accountBorrowFailed
      match toOption (harvestFromAccount σ mintKey accountInfo.key) with
      | some (σ, harvested) => do
        let amount ← okOr TokenError.overflow (checkedAdd destination.base.amount harvested)
        withdrawAll mintKey destinationKey rest σ
          { destination with base := { destination.base with amount := amount } }
      | none => withdrawAll mintKey destinationKey rest σ destination

/-- `process_withdraw_withheld_tokens_from_accounts`: the accounts after the
authority are the signers, then `num_token_accounts` sources. -/
def processWithdrawWithheldTokensFromAccounts (accounts : List AccountInfo)
    (numTokenAccounts : UInt8) (σ : Ledger) : Result Ledger :=
  match accounts with
  | mintInfo :: destinationInfo :: authorityInfo :: accountInfos => do
    let numSigners := accountInfos.length - numTokenAccounts.toNat
    checkProgramAccount (σ mintInfo.key).owner
    let mint ← load σ PodMint mintInfo.key
    let extension ← mint.getExtension TransferFeeConfig
    let withdrawWithheldAuthority ←
      okOr TokenError.noAuthorityExists extension.withdrawWithheldAuthority.toOption
    checkOwner σ authorityInfo (accountInfos.take numSigners) withdrawWithheldAuthority
    let destination ← loadBeside σ PodAccount mintInfo.key destinationInfo.key
    failIf (destination.base.mint != mintInfo.key) TokenError.mintMismatch
    failIf destination.base.isFrozen TokenError.accountFrozen
    let (σ, destination) ← withdrawAll mintInfo.key destinationInfo.key
      (accountInfos.drop numSigners) σ destination
    store σ destinationInfo.key destination
  | _ => .error .notEnoughAccountKeys

end SolanaEasy.Token.Processor.TransferFee
