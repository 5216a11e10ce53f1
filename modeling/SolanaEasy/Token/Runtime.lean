import SolanaEasy.Token.StateWithExtensions

/-!
# Runtime — the ledger and what an instruction may do to it

The accounts of the chain as one function from keys to cells, with the rules the
Solana runtime enforces on the token program: only accounts the program owns may
have their data changed or their lamports lowered, data grows by at most ten
kibibytes, and a system transfer needs a signing, system-owned payer with empty
data. Writability flags are not modelled: every account counts as writable.
-/

namespace SolanaEasy.Token

/-- One account of the ledger. -/
structure Cell where
  lamports : UInt64
  owner : Pubkey
  data : Bytes
deriving DecidableEq

abbrev Ledger := Pubkey → Cell

/-- The cell of a key that holds nothing. -/
def Cell.empty : Cell := ⟨0, Keys.systemProgram, []⟩

/-- An account passed to an instruction. Its lamports, owner and data are those
of its key in the ledger. -/
structure AccountInfo where
  key : Pubkey
  isSigner : Bool
deriving DecidableEq

/-- `TokenMetadata` of the token-metadata interface crate. -/
structure TokenMetadata where
  updateAuthority : OptionalNonZeroPubkey
  mint : Pubkey
  name : String
  symbol : String
  uri : String
  additionalMetadata : List (String × String)
deriving DecidableEq, Inhabited

/-- What the program takes from outside its own code: the rent schedule, the
Ristretto system calls (`None` on a malformed point) and the serialisation of
the metadata interface crate. -/
structure Runtime where
  minimumBalance : Nat → UInt64
  addRistretto : PodRistrettoPoint → PodRistrettoPoint → Option PodRistrettoPoint
  subtractRistretto : PodRistrettoPoint → PodRistrettoPoint → Option PodRistrettoPoint
  multiplyRistretto : PodScalar → PodRistrettoPoint → Option PodRistrettoPoint
  packTokenMetadata : TokenMetadata → Bytes
  unpackTokenMetadata : Bytes → Option TokenMetadata

/-- `rent.is_exempt(lamports, data_len)`. -/
def Runtime.isExempt (rt : Runtime) (lamports : UInt64) (dataLen : Nat) : Bool :=
  lamports ≥ rt.minimumBalance dataLen

/-! ## The rest of the chain -/

/-- What everyone else can do to one cell: accounts of the token program keep
their owner and data and can only receive lamports; other accounts are arbitrary,
except that an account handed over to the token program has zeroed data, and that
the address of the native mint is one only the token program can sign for. -/
structure EnvCell (k : Pubkey) (c c' : Cell) : Prop where
  owned : c.owner = Keys.tokenProgram →
    c'.owner = Keys.tokenProgram ∧ c'.data = c.data ∧ c.lamports ≤ c'.lamports
  fresh : c.owner ≠ Keys.tokenProgram → c'.owner = Keys.tokenProgram →
    c'.data = zeros c'.data.length ∧ k ≠ Keys.nativeMint

/-- A step of any other program. -/
def EnvStep (σ σ' : Ledger) : Prop := ∀ k, EnvCell k (σ k) (σ' k)

theorem EnvCell.refl (k : Pubkey) (c : Cell) : EnvCell k c c where
  owned h := ⟨h, rfl, UInt64.le_refl _⟩
  fresh h h' := absurd h' h

theorem EnvStep.refl (σ : Ledger) : EnvStep σ σ := fun k => EnvCell.refl k (σ k)

/-- An instruction of the transaction, as the proof crate decodes it. -/
structure ProofInstruction where
  programId : Pubkey
  instructionType : UInt8
  contextData : Bytes
deriving DecidableEq

/-- The circumstances of one instruction: the clock, whether it runs inside
another program's call, the previous sibling instruction, the transaction as the
instructions sysvar shows it, and the program a transfer hook calls. -/
structure Context where
  epoch : UInt64
  unixTimestamp : Int64
  inCpi : Bool
  previousSiblingIsMemo : Bool
  getInstructionRelative : Int → Option ProofInstruction
  executeHook : Ledger → Result Ledger
  executeHook_envStep : ∀ {σ σ'}, executeHook σ = .ok σ' → EnvStep σ σ'

/-- A top-level instruction of the first epoch, with no other instruction around it
and a hook program that does nothing. -/
def Context.plain : Context where
  epoch := 0
  unixTimestamp := 0
  inCpi := false
  previousSiblingIsMemo := false
  getInstructionRelative _ := none
  executeHook := .ok
  executeHook_envStep h := by cases h; exact .refl _

/-! ## Changes to the ledger -/

namespace Ledger

def set (σ : Ledger) (k : Pubkey) (c : Cell) : Ledger := Function.update σ k c

@[simp] theorem set_same (σ : Ledger) (k : Pubkey) (c : Cell) : (σ.set k c) k = c := by
  simp [set]

theorem set_of_ne (σ : Ledger) {k j : Pubkey} (c : Cell) (h : j ≠ k) : (σ.set k c) j = σ j := by
  simp [set, h]

theorem set_apply (σ : Ledger) (k j : Pubkey) (c : Cell) :
    (σ.set k c) j = if j = k then c else σ j := by
  simp [set, Function.update_apply]

/-- Write back the data of an account. -/
def writeData (σ : Ledger) (k : Pubkey) (data : Bytes) : Result Ledger := do
  failIf ((σ k).owner != Keys.tokenProgram && data != (σ k).data)
    RuntimeFault.externalAccountDataModified
  return σ.set k { σ k with data := data }

/-- `**info.lamports.borrow_mut() = lamports`. -/
def writeLamports (σ : Ledger) (k : Pubkey) (lamports : UInt64) : Result Ledger := do
  failIf ((σ k).owner != Keys.tokenProgram && lamports < (σ k).lamports)
    RuntimeFault.externalAccountLamportSpend
  return σ.set k { σ k with lamports := lamports }

/-- `MAX_PERMITTED_DATA_INCREASE`. -/
def maxPermittedDataIncrease : Nat := 10240

/-- `info.resize(len)`: shortened data is cut, new bytes are zero. -/
def resize (σ : Ledger) (k : Pubkey) (len : Nat) : Result Ledger := do
  failIf ((σ k).data.length + maxPermittedDataIncrease < len) RuntimeFault.invalidRealloc
  σ.writeData k ((σ k).data.take len ++ zeros (len - (σ k).data.length))

/-- `info.assign(owner)`: only an account of the program, and only with zeroed data. -/
def assign (σ : Ledger) (k : Pubkey) (owner : Pubkey) : Result Ledger := do
  failIf ((σ k).owner != Keys.tokenProgram || (σ k).data != zeros (σ k).data.length)
    RuntimeFault.externalAccountDataModified
  return σ.set k { σ k with owner := owner }

/-- `delete_account`, as compiled on chain. -/
def deleteAccount (σ : Ledger) (k : Pubkey) : Result Ledger := do
  let σ ← σ.resize k 0
  σ.assign k Keys.systemProgram

/-- `invoke(system_instruction::transfer(from, to, lamports))`. -/
def systemTransfer (σ : Ledger) (source : AccountInfo) (destination : Pubkey)
    (lamports : UInt64) : Result Ledger := do
  failIf (!source.isSigner) RuntimeFault.systemTransfer
  failIf ((σ source.key).owner != Keys.systemProgram || !(σ source.key).data.isEmpty)
    RuntimeFault.systemTransfer
  let rest ← okOr RuntimeFault.systemTransfer (checkedSub (σ source.key).lamports lamports)
  let σ := σ.set source.key { σ source.key with lamports := rest }
  let total ← okOr RuntimeFault.arithmeticOverflow (checkedAdd (σ destination).lamports lamports)
  return σ.set destination { σ destination with lamports := total }

end Ledger

/-! ## Checks shared by the processors -/

/-- `check_program_account`. -/
def checkProgramAccount (owner : Pubkey) : Result Unit :=
  failIf (owner != Keys.tokenProgram) .incorrectProgramId

/-- The data of an account as a state. -/
def load (σ : Ledger) (S : Type) [BaseState S] (k : Pubkey) : Result (PodState S) :=
  unpack S (σ k).data

/-- Write a state back to the account it was borrowed from. -/
def store {S : Type} [BaseState S] (σ : Ledger) (k : Pubkey) (s : PodState S) :
    Result Ledger := σ.writeData k s.bytes

/-- The inner loop of `validate_owner`: one signer against the slots `0..n`. -/
def matchSigner (signer : AccountInfo) : List Pubkey → List Bool → Nat →
    Result (List Bool × Nat)
  | key :: keys, matched :: rest, numSigners => do
    if key == signer.key && !matched then
      failIf (!signer.isSigner) .missingRequiredSignature
      let (tail, numSigners) ← matchSigner signer keys rest (numSigners + 1)
      return (true :: tail, numSigners)
    else
      let (tail, numSigners) ← matchSigner signer keys rest numSigners
      return (matched :: tail, numSigners)
  | _, matched, numSigners => .ok (matched, numSigners)

/-- The outer loop of `validate_owner`. Slicing `signers[0..n]` panics when `n`
exceeds the eleven slots. -/
def matchSigners (multisig : PodMultisig) : List AccountInfo → List Bool → Nat → Result Nat
  | [], _, numSigners => .ok numSigners
  | signer :: signers, matched, numSigners => do
    failIf (multisig.n.toNat > maxSigners) RuntimeFault.panic
    let (matched, numSigners) ←
      matchSigner signer (multisig.signers.toList.take multisig.n.toNat) matched numSigners
    matchSigners multisig signers matched numSigners

/-- `Processor::validate_owner`. -/
def validateOwner (σ : Ledger) (programId expectedOwner : Pubkey) (ownerAccountInfo : AccountInfo)
    (ownerAccountDataLen : Nat) (signers : List AccountInfo) : Result Unit := do
  failIf (expectedOwner != ownerAccountInfo.key) TokenError.ownerMismatch
  if programId == (σ ownerAccountInfo.key).owner && ownerAccountDataLen == multisigLen then
    let multisig ← okOr .invalidArgument (Pod.decode? PodMultisig (σ ownerAccountInfo.key).data)
    let numSigners ← matchSigners multisig signers (List.replicate maxSigners false) 0
    failIf (numSigners < multisig.m.toNat) .missingRequiredSignature
  else failIf (!ownerAccountInfo.isSigner) .missingRequiredSignature

/-- `validate_owner` for the executing program, with the length of the authority's
data as it was before any account was borrowed. -/
def checkOwner (σ : Ledger) (authorityInfo : AccountInfo) (signers : List AccountInfo)
    (expectedOwner : Pubkey) : Result Unit :=
  validateOwner σ Keys.tokenProgram expectedOwner authorityInfo
    (σ authorityInfo.key).data.length signers

/-! ## Writing an extension behind an account's back -/

/-- `alloc_and_serialize::<S, V>`. -/
def allocAndSerialize (S : Type) [BaseState S] {V : Type} [Pod V] [Extension V] (σ : Ledger)
    (k : Pubkey) (newExtension : V) (overwrite : Bool) : Result Ledger := do
  let previousAccountLen := (σ k).data.length
  let state ← load σ S k
  let newAccountLen ←
    tryGetNewAccountLenForExtensionLen S (Extension.type V) state.tlvData (Pod.size V)
  let σ ← if newAccountLen > previousAccountLen then σ.resize k newAccountLen else .ok σ
  let data ← if previousAccountLen ≤ accountLen then setAccountType S (σ k).data
    else .ok (σ k).data
  let state ← unpack S data
  let state ← state.initExtension newExtension overwrite
  store σ k state

/-- `init_variable_len_extension` and `realloc_variable_len_extension`, on packed
metadata: the bytes go to the range that was allocated. -/
def writeRange {S : Type} (s : PodState S) (r : Result (Nat × Nat) × Bytes) (packed : Bytes) :
    Result (PodState S) := do
  let (valueStart, valueEnd) ← r.1
  failIf (valueEnd - valueStart < packed.length) .invalidAccountData
  return { s with tlvData := splice r.2 valueStart packed }

/-- `alloc_and_serialize_variable_len_extension::<S, TokenMetadata>`, on the packed
new value. -/
def allocAndSerializeVariableLenExtension (S : Type) [BaseState S] (σ : Ledger) (k : Pubkey)
    (t : ExtensionType) (packed : Bytes) (overwrite : Bool) : Result Ledger := do
  let previousAccountLen := (σ k).data.length
  let state ← load σ S k
  let newAccountLen ← tryGetNewAccountLenForExtensionLen S t state.tlvData packed.length
  let extensionAlreadyExists := (toOption (getExtensionBytes S t state.tlvData)).isSome
  failIf (extensionAlreadyExists && !overwrite) TokenError.extensionAlreadyInitialized
  if previousAccountLen < newAccountLen then
    let σ ← σ.resize k newAccountLen
    let data ← if !extensionAlreadyExists && previousAccountLen ≤ accountLen then
        setAccountType S (σ k).data
      else .ok (σ k).data
    let state ← unpack S data
    let state ← writeRange state
      (if extensionAlreadyExists then realloc t packed.length state.tlvData
        else alloc S t packed.length false state.tlvData) packed
    store σ k state
  else
    let state ← writeRange state
      (if extensionAlreadyExists then realloc t packed.length state.tlvData
        else alloc S t packed.length false state.tlvData) packed
    let σ ← store σ k state
    let removedBytes := previousAccountLen - newAccountLen
    if removedBytes > 0 then σ.resize k newAccountLen else return σ

end SolanaEasy.Token
