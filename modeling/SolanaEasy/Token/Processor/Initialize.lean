import SolanaEasy.Token.Runtime

/-!
# Processor — initialising mints, accounts and multisigs

`program/src/processor.rs`, the `_process_initialize_*` functions. Each comes in
two or three variants that differ in where the rent schedule and the owner are
taken from; the rent sysvar account holds the schedule of the runtime.
-/

namespace SolanaEasy.Token.Processor

/-- A second borrow of the data of `k` while `held` is mutably borrowed. -/
def loadBeside (σ : Ledger) (S : Type) [BaseState S] (held k : Pubkey) : Result (PodState S) := do
  failIf (k == held) RuntimeFault.accountBorrowFailed
  load σ S k

/-- `Rent::from_account_info(next_account_info(..)?)?` or `Rent::get()?`: the
accounts that follow. -/
def takeRent (rentSysvarAccount : Bool) (accounts : List AccountInfo) :
    Result (List AccountInfo) :=
  if rentSysvarAccount then
    match accounts with
    | rent :: rest => do
      failIf (rent.key != Keys.rentSysvar) .invalidArgument
      return rest
    | [] => .error .notEnoughAccountKeys
  else .ok accounts

/-- The default account state of a mint under initialisation. -/
def checkDefaultAccountState (mint : PodState PodMint) (freezeAuthority : PodCOption Pubkey) :
    Result Unit :=
  match toOption (mint.getExtension DefaultAccountState) with
  | none => .ok ()
  | some defaultAccountState => do
    let state ← okOr .invalidAccountData (AccountState.ofU8 defaultAccountState.state)
    failIf (state == .frozen && freezeAuthority.isNone) TokenError.mintCannotFreeze

/-- `_process_initialize_mint`. -/
def initializeMint (rt : Runtime) (accounts : List AccountInfo) (decimals : UInt8)
    (mintAuthority : Pubkey) (freezeAuthority : PodCOption Pubkey) (rentSysvarAccount : Bool)
    (σ : Ledger) : Result Ledger :=
  match accounts with
  | mintInfo :: rest => do
    let mintDataLen := (σ mintInfo.key).data.length
    let _ ← takeRent rentSysvarAccount rest
    failIf (!rt.isExempt (σ mintInfo.key).lamports mintDataLen) TokenError.notRentExempt
    let mint ← unpackUninitialized PodMint (σ mintInfo.key).data
    let extensionTypes ← mint.getExtensionTypes
    let len ← tryCalculateAccountLen PodMint extensionTypes
    failIf (len != mintDataLen) .invalidAccountData
    ExtensionType.checkForInvalidMintExtensionCombinations extensionTypes
    checkDefaultAccountState mint freezeAuthority
    let base : PodMint :=
      { mint.base with
        mintAuthority := .some mintAuthority
        decimals := decimals
        isInitialized := .ofBool true
        freezeAuthority := freezeAuthority }
    let mint ← PodState.initAccountType { mint with base := base }
    store σ mintInfo.key mint
  | [] => .error .notEnoughAccountKeys

/-- `process_initialize_mint`. -/
def processInitializeMint (rt : Runtime) (accounts : List AccountInfo) (decimals : UInt8)
    (mintAuthority : Pubkey) (freezeAuthority : PodCOption Pubkey) : Ledger → Result Ledger :=
  initializeMint rt accounts decimals mintAuthority freezeAuthority true

/-- `process_initialize_mint2`. -/
def processInitializeMint2 (rt : Runtime) (accounts : List AccountInfo) (decimals : UInt8)
    (mintAuthority : Pubkey) (freezeAuthority : PodCOption Pubkey) : Ledger → Result Ledger :=
  initializeMint rt accounts decimals mintAuthority freezeAuthority false

/-- `get_required_account_extensions_from_unpacked_mint`. -/
def getRequiredAccountExtensionsFromUnpackedMint (tokenProgramId : Pubkey)
    (state : PodState PodMint) : Result (List ExtensionType) := do
  checkProgramAccount tokenProgramId
  let mintExtensions ← state.getExtensionTypes
  return ExtensionType.getRequiredInitAccountExtensions mintExtensions

/-- `get_required_account_extensions`. -/
def getRequiredAccountExtensions (σ : Ledger) (mint : Pubkey) : Result (List ExtensionType) := do
  let state ← mapErr (.token .invalidMint) (load σ PodMint mint)
  getRequiredAccountExtensionsFromUnpackedMint (σ mint).owner state

/-- The state a new account starts in. -/
def startingState (mint : PodState PodMint) : Result AccountState :=
  match toOption (mint.getExtension DefaultAccountState) with
  | some defaultAccountState =>
    okOr .invalidAccountData (AccountState.ofU8 defaultAccountState.state)
  | none => .ok .initialized

/-- The loop that initialises the required extensions. -/
def initRequiredExtensions (account : PodState PodAccount) :
    List ExtensionType → Result (PodState PodAccount)
  | [] => .ok account
  | t :: ts => do
    let account ← account.initAccountExtensionFromType t
    initRequiredExtensions account ts

/-- `is_native` and `amount` of a new account. -/
def startingBalance (rt : Runtime) (mint : Pubkey) (lamports : UInt64) (dataLen : Nat) :
    Result (PodCOption UInt64 × UInt64) :=
  if mint == Keys.nativeMint then do
    let rentExemptReserve := rt.minimumBalance dataLen
    let amount ← okOr TokenError.overflow (checkedSub lamports rentExemptReserve)
    return (.some rentExemptReserve, amount)
  else .ok (.none, 0)

/-- `_process_initialize_account`, once the owner is known. -/
def initializeAccount (rt : Runtime) (newAccountInfo mintInfo : AccountInfo) (owner : Pubkey)
    (σ : Ledger) : Result Ledger := do
  let newAccountInfoDataLen := (σ newAccountInfo.key).data.length
  let account ← unpackUninitialized PodAccount (σ newAccountInfo.key).data
  failIf (!rt.isExempt (σ newAccountInfo.key).lamports newAccountInfoDataLen)
    TokenError.notRentExempt
  let mint ← mapErr (.token .invalidMint) (loadBeside σ PodMint newAccountInfo.key mintInfo.key)
  let requiredExtensions ←
    getRequiredAccountExtensionsFromUnpackedMint (σ mintInfo.key).owner mint
  let len ← tryCalculateAccountLen PodAccount requiredExtensions
  failIf (len > newAccountInfoDataLen) .invalidAccountData
  let account ← initRequiredExtensions account requiredExtensions
  let state ← startingState mint
  let (isNative, amount) ←
    startingBalance rt mintInfo.key (σ newAccountInfo.key).lamports newAccountInfoDataLen
  let base : PodAccount :=
    { mint := mintInfo.key
      owner := owner
      amount := amount
      delegate := .none
      state := state.toU8
      isNativeOption := isNative
      delegatedAmount := 0
      closeAuthority := .none }
  let account ← PodState.initAccountType { account with base := base }
  store σ newAccountInfo.key account

/-- `process_initialize_account`: the owner is the third account. -/
def processInitializeAccount (rt : Runtime) (accounts : List AccountInfo) (σ : Ledger) :
    Result Ledger :=
  match accounts with
  | newAccountInfo :: mintInfo :: owner :: rest => do
    let _ ← takeRent true rest
    initializeAccount rt newAccountInfo mintInfo owner.key σ
  | _ => .error .notEnoughAccountKeys

/-- `process_initialize_account2`. -/
def processInitializeAccount2 (rt : Runtime) (accounts : List AccountInfo) (owner : Pubkey)
    (σ : Ledger) : Result Ledger :=
  match accounts with
  | newAccountInfo :: mintInfo :: rest => do
    let _ ← takeRent true rest
    initializeAccount rt newAccountInfo mintInfo owner σ
  | _ => .error .notEnoughAccountKeys

/-- `process_initialize_account3`. -/
def processInitializeAccount3 (rt : Runtime) (accounts : List AccountInfo) (owner : Pubkey)
    (σ : Ledger) : Result Ledger :=
  match accounts with
  | newAccountInfo :: mintInfo :: _ => initializeAccount rt newAccountInfo mintInfo owner σ
  | _ => .error .notEnoughAccountKeys

/-- `is_valid_signer_index`. -/
def isValidSignerIndex (index : Nat) : Bool := 1 ≤ index && index ≤ maxSigners

/-- `_process_initialize_multisig`. The count of signers is truncated to a byte
before it is checked; the loop over the signers then indexes the eleven slots. -/
def initializeMultisig (rt : Runtime) (accounts : List AccountInfo) (m : UInt8)
    (rentSysvarAccount : Bool) (σ : Ledger) : Result Ledger :=
  match accounts with
  | multisigInfo :: rest => do
    let signerInfos ← takeRent rentSysvarAccount rest
    let data := (σ multisigInfo.key).data
    let multisig ← okOr .invalidArgument (Pod.decode? PodMultisig data)
    failIf multisig.isInitialized.toBool TokenError.alreadyInUse
    failIf (!rt.isExempt (σ multisigInfo.key).lamports data.length) TokenError.notRentExempt
    let n := UInt8.ofNat signerInfos.length
    failIf (!isValidSignerIndex n.toNat) TokenError.invalidNumberOfProvidedSigners
    failIf (!isValidSignerIndex m.toNat) TokenError.invalidNumberOfRequiredSigners
    failIf (signerInfos.length > maxSigners) RuntimeFault.panic
    let multisig : PodMultisig :=
      { m := m
        n := n
        isInitialized := .ofBool true
        signers := multisig.signers.setPrefix (signerInfos.map (·.key)) }
    σ.writeData multisigInfo.key (Pod.toBytes multisig)
  | [] => .error .notEnoughAccountKeys

/-- `process_initialize_multisig`. -/
def processInitializeMultisig (rt : Runtime) (accounts : List AccountInfo) (m : UInt8) :
    Ledger → Result Ledger :=
  initializeMultisig rt accounts m true

/-- `process_initialize_multisig2`. -/
def processInitializeMultisig2 (rt : Runtime) (accounts : List AccountInfo) (m : UInt8) :
    Ledger → Result Ledger :=
  initializeMultisig rt accounts m false

end SolanaEasy.Token.Processor
