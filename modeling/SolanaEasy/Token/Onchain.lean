import SolanaEasy.Token.Law.Signers
import SolanaEasy.Token.Pack
import SolanaEasy.Token.PodInstruction

/-!
# On-chain transfers — the helper that other programs call

`program/src/onchain.rs`: a program that transfers tokens hands over every account it was
given, and the helper picks those the instruction needs. For a multisig it keeps the accounts
whose keys are members, by the same filter in `extract_multisig_accounts` and, written out,
in `transfer_instruction_and_account_infos`; the accounts of a transfer hook are found by the
interface crate of transfer hooks.
-/

namespace SolanaEasy.Token

open Processor

/-- `inline_spl_token::id()`. -/
def Keys.inlineSplToken : Pubkey :=
  0xa900ff7e85f58c3a91375b5fed85b41cac79ebce46e1cbd993a165d7e1f6dd06

/-! ## Instructions for other programs -/

structure AccountMeta where
  pubkey : Pubkey
  isSigner : Bool
  isWritable : Bool
deriving DecidableEq

/-- `AccountMeta::new`. -/
def AccountMeta.new (pubkey : Pubkey) (isSigner : Bool) : AccountMeta := ⟨pubkey, isSigner, true⟩

/-- `AccountMeta::new_readonly`. -/
def AccountMeta.newReadonly (pubkey : Pubkey) (isSigner : Bool) : AccountMeta :=
  ⟨pubkey, isSigner, false⟩

structure CpiInstruction where
  programId : Pubkey
  accounts : List AccountMeta
  data : Bytes

/-- `check_spl_token_program_account`. -/
def checkSplTokenProgramAccount (splTokenProgramId : Pubkey) : Result Unit :=
  failIf (splTokenProgramId != Keys.tokenProgram && splTokenProgramId != Keys.inlineSplToken)
    .incorrectProgramId

section Builders

variable (source mint destination authority : Pubkey) (signers : List Pubkey)

/-- The accounts of both instructions below. -/
def transferMetas : List AccountMeta :=
  [.new source false, .newReadonly mint false, .new destination false,
    .newReadonly authority signers.isEmpty] ++ signers.map (.newReadonly · true)

/-- `instruction::transfer_checked`. -/
def transferChecked (tokenProgramId : Pubkey) (amount : UInt64) (decimals : UInt8) :
    Result CpiInstruction := do
  checkSplTokenProgramAccount tokenProgramId
  return ⟨tokenProgramId, transferMetas source mint destination authority signers,
    (TokenInstruction.transferChecked amount decimals).pack⟩

/-- `transfer_fee::instruction::transfer_checked_with_fee`. -/
def transferCheckedWithFee (tokenProgramId : Pubkey) (amount : UInt64) (decimals : UInt8)
    (fee : UInt64) : Result CpiInstruction := do
  checkProgramAccount tokenProgramId
  return ⟨tokenProgramId, transferMetas source mint destination authority signers,
    TokenInstruction.transferFeeExtension.pack ++
      (TransferFeeInstruction.transferCheckedWithFee amount decimals fee).pack⟩

end Builders

/-! ## The members of a multisig -/

/-- `is_multisig_account`. -/
def isMultisigAccount (σ : Ledger) (account : AccountInfo) : Bool :=
  let ownedByTokenProgram := (σ account.key).owner == Keys.tokenProgram ||
    (σ account.key).owner == Keys.inlineSplToken
  ownedByTokenProgram && (σ account.key).data.length == multisigLen

/-- `&multisig.signers[..multisig.n as usize]`, which panics past the eleven slots. -/
def PodMultisig.signersUpToN (multisig : PodMultisig) : Result (List Pubkey) := do
  failIf (multisig.n.toNat > maxSigners) RuntimeFault.panic
  return multisig.slots

/-- The loop of `extract_multisig_accounts`: the slots are taken for every account anew. -/
def pushMultisigAccounts (multisig : PodMultisig) : List AccountInfo → Result (List AccountInfo)
  | [] => .ok []
  | account :: accounts => do
    let signers ← multisig.signersUpToN
    let multisigAccounts ← pushMultisigAccounts multisig accounts
    if signers.contains account.key then return account :: multisigAccounts
    else return multisigAccounts

/-- `extract_multisig_accounts`. -/
def extractMultisigAccounts (σ : Ledger) (multisigAccount : AccountInfo)
    (accounts : List AccountInfo) : Result (List AccountInfo) :=
  if !isMultisigAccount σ multisigAccount then .ok []
  else do
    let multisig ← okOr .invalidArgument (Pod.decode? PodMultisig (σ multisigAccount.key).data)
    pushMultisigAccounts multisig accounts

/-! ## The transfer -/

/-- `add_extra_accounts_for_execute_cpi` of the transfer-hook interface crate: the metas and
the accounts it appends for the hook program, which it looks up among those it is given. -/
structure TransferHookInterface where
  addExtraAccounts : Ledger → Pubkey → AccountInfo → AccountInfo → AccountInfo → AccountInfo →
    UInt64 → List AccountInfo → Result (List AccountMeta × List AccountInfo)
  found : ∀ {σ programId source mint destination authority amount additional metas infos},
    addExtraAccounts σ programId source mint destination authority amount additional =
      .ok (metas, infos) →
    infos.map (·.key) = metas.map (·.pubkey) ∧ ∀ info ∈ infos, info ∈ additional

/-- The arguments of the helpers. -/
structure TransferArgs where
  tokenProgramId : Pubkey
  sourceInfo : AccountInfo
  mintInfo : AccountInfo
  destinationInfo : AccountInfo
  authorityInfo : AccountInfo
  additionalAccounts : List AccountInfo
  amount : UInt64
  decimals : UInt8
  fee : Option UInt64

section Transfer

variable (hook : TransferHookInterface) (σ : Ledger) (a : TransferArgs)

/-- The instruction as built without signers. -/
def TransferArgs.instruction : Result CpiInstruction :=
  match a.fee with
  | none => Token.transferChecked a.sourceInfo.key a.mintInfo.key a.destinationInfo.key
      a.authorityInfo.key [] a.tokenProgramId a.amount a.decimals
  | some fee => Token.transferCheckedWithFee a.sourceInfo.key a.mintInfo.key
      a.destinationInfo.key a.authorityInfo.key [] a.tokenProgramId a.amount a.decimals fee

/-- `cpi_instruction.accounts[3].is_signer = false`. -/
def CpiInstruction.clearAuthority (cpiInstruction : CpiInstruction) : CpiInstruction :=
  { cpiInstruction with
    accounts := cpiInstruction.accounts.modify 3 fun m => { m with isSigner := false } }

/-- The members among the additional accounts, as the transfer finds them. -/
def TransferArgs.signerInfos : Result (List AccountInfo) := do
  let multisig ← okOr .invalidArgument (Pod.decode? PodMultisig (σ a.authorityInfo.key).data)
  let signers ← multisig.signersUpToN
  return a.additionalAccounts.filter fun account => signers.contains account.key

/-- `transfer_hook::get_program_id`, of a mint read strictly. -/
def StateWithExtensions.hookProgramId (mint : StateWithExtensions Mint) : Option Pubkey := do
  let bytes ← toOption (getExtensionBytes PodMint .transferHook mint.tlvData)
  let extension ← Pod.decode? TransferHook bytes
  extension.programId.toOption

/-- The accounts of the hook that the mint names. -/
def TransferArgs.hookAccounts : Result (List AccountMeta × List AccountInfo) := do
  let mint ← StateWithExtensions.unpack Mint PodMint (σ a.mintInfo.key).data
  match mint.hookProgramId with
  | some programId =>
    hook.addExtraAccounts σ programId a.sourceInfo a.mintInfo a.destinationInfo a.authorityInfo
      a.amount a.additionalAccounts
  | none => return ([], [])

/-- The correction for a multisig authority: its members sign in its place. -/
def TransferArgs.addSigners (cpiInstruction : CpiInstruction) :
    Result (CpiInstruction × List AccountInfo) :=
  let cpiAccountInfos := [a.sourceInfo, a.mintInfo, a.destinationInfo, a.authorityInfo]
  if isMultisigAccount σ a.authorityInfo then do
    let cpiInstruction := cpiInstruction.clearAuthority
    let infos ← a.signerInfos σ
    return ({ cpiInstruction with
      accounts := cpiInstruction.accounts ++ infos.map (.newReadonly ·.key true) },
      cpiAccountInfos ++ infos)
  else .ok (cpiInstruction, cpiAccountInfos)

/-- `transfer_instruction_and_account_infos`. -/
def transferInstructionAndAccountInfos : Result (CpiInstruction × List AccountInfo) := do
  let cpiInstruction ← a.instruction
  let (cpiInstruction, cpiAccountInfos) ← a.addSigners σ cpiInstruction
  let (extraMetas, extraInfos) ← a.hookAccounts hook σ
  return ({ cpiInstruction with accounts := cpiInstruction.accounts ++ extraMetas },
    cpiAccountInfos ++ extraInfos)

/-! ## The call -/

/-- `invoke_signed`, as far as signatures go: a key that is to sign must have signed for the
caller or be one it signs for with its seeds (`signed`), and the callee sees the key signed
at every place where it is passed. -/
structure Cpi where
  enter : (Pubkey → Bool) → List AccountMeta → List AccountInfo → Result (List AccountInfo)
  refuses : ∀ {signed metas infos},
    (∃ m ∈ metas, m.isSigner = true ∧ signed m.pubkey = false) →
      ∃ e, enter signed metas infos = .error e
  admits : ∀ {signed metas infos}, (∀ m ∈ metas, m.isSigner = true → signed m.pubkey = true) →
    (∀ m ∈ metas, m.pubkey ∈ infos.map (·.key)) →
      enter signed metas infos = .ok (metas.map fun m =>
        ⟨m.pubkey, metas.any fun m' => m'.isSigner && m'.pubkey == m.pubkey⟩)

/-- The instruction that the data name. -/
def TransferArgs.transfer : Instruction :=
  match a.fee with
  | none => .transferChecked a.amount a.decimals
  | some fee => .transferCheckedWithFee a.amount a.decimals fee

variable (rt : Runtime) (ctx : Context) (cpi : Cpi) (signed : Pubkey → Bool)

/-- `invoke_transfer_internal`, with the program that is called. -/
def invokeTransferInternal : Result Ledger := do
  let (cpiInstruction, cpiAccountInfos) ← transferInstructionAndAccountInfos hook σ a
  let accounts ← cpi.enter signed cpiInstruction.accounts cpiAccountInfos
  process rt ctx accounts a.transfer σ

end Transfer

end SolanaEasy.Token
