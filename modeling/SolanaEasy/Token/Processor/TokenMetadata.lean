import SolanaEasy.Token.Processor.MintExtension

/-!
# Metadata and groups — records kept in the mint itself

`program/src/extension/token_metadata/processor.rs` and
`program/src/extension/token_group/processor.rs`. These records are added after
the mint is initialised, so the account grows with them.
-/

namespace SolanaEasy.Token.Processor

/-- `mint.base.mint_authority` is exactly this signing account. -/
def checkRecordMint (V : Type) [Pod V] [Extension V] (σ : Ledger) (mintKey : Pubkey)
    (mintAuthorityInfo : AccountInfo) (wrongAuthority : ProgramError) : Result Unit := do
  checkProgramAccount (σ mintKey).owner
  let mint ← load σ PodMint mintKey
  failIf (!mintAuthorityInfo.isSigner) .missingRequiredSignature
  failIf (mint.base.mintAuthority != .some mintAuthorityInfo.key) wrongAuthority
  failIf (!mint.hasExtension V) TokenError.invalidExtensionCombination

/-- `check_update_authority`, in both modules. -/
def checkUpdateAuthority (updateAuthorityInfo : AccountInfo)
    (expectedUpdateAuthority : OptionalNonZeroPubkey) (immutable incorrect : ProgramError) :
    Result Unit := do
  failIf (!updateAuthorityInfo.isSigner) .missingRequiredSignature
  let updateAuthority ← okOr immutable expectedUpdateAuthority.toOption
  failIf (updateAuthority != updateAuthorityInfo.key) incorrect

namespace TokenMetadata

/-- `Field`. -/
inductive Field where
  | name
  | symbol
  | uri
  | key (key : String)

/-- `set_key_value`. -/
def setKeyValue (newKey newValue : String) : List (String × String) → List (String × String)
  | [] => [(newKey, newValue)]
  | (key, value) :: rest =>
    if key == newKey then (key, newValue) :: rest
    else (key, value) :: setKeyValue newKey newValue rest

/-- `TokenMetadata::update`. -/
def update (m : Token.TokenMetadata) (field : Field) (value : String) : Token.TokenMetadata :=
  match field with
  | .name => { m with name := value }
  | .symbol => { m with symbol := value }
  | .uri => { m with uri := value }
  | .key key => { m with additionalMetadata := setKeyValue key value m.additionalMetadata }

/-- `token_metadata::processor::process_initialize`. -/
def processInitialize (rt : Runtime) (accounts : List AccountInfo) (name symbol uri : String)
    (σ : Ledger) : Result Ledger :=
  match accounts with
  | metadataInfo :: updateAuthorityInfo :: mintInfo :: mintAuthorityInfo :: _ => do
    failIf (metadataInfo.key != mintInfo.key) TokenError.mintMismatch
    checkRecordMint MetadataPointer σ mintInfo.key mintAuthorityInfo
      TokenMetadataError.incorrectMintAuthority
    let updateAuthority ← OptionalNonZeroPubkey.ofOption (some updateAuthorityInfo.key)
    let tokenMetadata : Token.TokenMetadata :=
      { updateAuthority, mint := mintInfo.key, name, symbol, uri, additionalMetadata := [] }
    allocAndSerializeVariableLenExtension PodMint σ metadataInfo.key .tokenMetadata
      (rt.packTokenMetadata tokenMetadata) false
  | _ => .error .notEnoughAccountKeys

/-- The three handlers that rewrite stored metadata. -/
def rewrite (rt : Runtime) (accounts : List AccountInfo)
    (change : Token.TokenMetadata → Result Token.TokenMetadata) (σ : Ledger) : Result Ledger :=
  match accounts with
  | metadataInfo :: updateAuthorityInfo :: _ => do
    let mint ← load σ PodMint metadataInfo.key
    let bytes ← getExtensionBytes PodMint .tokenMetadata mint.tlvData
    let tokenMetadata ← okOr .invalidAccountData (rt.unpackTokenMetadata bytes)
    checkUpdateAuthority updateAuthorityInfo tokenMetadata.updateAuthority
      TokenMetadataError.immutableMetadata TokenMetadataError.incorrectUpdateAuthority
    let tokenMetadata ← change tokenMetadata
    allocAndSerializeVariableLenExtension PodMint σ metadataInfo.key .tokenMetadata
      (rt.packTokenMetadata tokenMetadata) true
  | _ => .error .notEnoughAccountKeys

/-- `process_update_field`. -/
def processUpdateField (rt : Runtime) (accounts : List AccountInfo) (field : Field)
    (value : String) : Ledger → Result Ledger :=
  rewrite rt accounts fun m => .ok (update m field value)

/-- `process_remove_key`. -/
def processRemoveKey (rt : Runtime) (accounts : List AccountInfo) (key : String)
    (idempotent : Bool) : Ledger → Result Ledger :=
  rewrite rt accounts fun m => do
    failIf (!m.additionalMetadata.any (·.1 == key) && !idempotent) TokenMetadataError.keyNotFound
    return { m with additionalMetadata := m.additionalMetadata.filter (·.1 != key) }

/-- `process_update_authority`. -/
def processUpdateAuthority (rt : Runtime) (accounts : List AccountInfo)
    (newAuthority : OptionalNonZeroPubkey) : Ledger → Result Ledger :=
  rewrite rt accounts fun m => .ok { m with updateAuthority := newAuthority }

end TokenMetadata

namespace TokenGroup

/-- `process_initialize_group`. -/
def processInitializeGroup (accounts : List AccountInfo)
    (updateAuthority : OptionalNonZeroPubkey) (maxSize : UInt64) (σ : Ledger) : Result Ledger :=
  match accounts with
  | groupInfo :: mintInfo :: mintAuthorityInfo :: _ => do
    failIf (groupInfo.key != mintInfo.key) TokenError.mintMismatch
    checkRecordMint GroupPointer σ mintInfo.key mintAuthorityInfo
      TokenGroupError.incorrectMintAuthority
    allocAndSerialize PodMint σ groupInfo.key
      (⟨updateAuthority, mintInfo.key, 0, maxSize⟩ : Token.TokenGroup) false
  | _ => .error .notEnoughAccountKeys

/-- A change of the group that its update authority makes. -/
def updateGroup (groupKey : Pubkey) (updateAuthorityInfo : AccountInfo)
    (change : Token.TokenGroup → Result Token.TokenGroup) (σ : Ledger) :
    Result (Ledger × Token.TokenGroup) := do
  let state ← load σ PodMint groupKey
  let group ← state.getExtension Token.TokenGroup
  checkUpdateAuthority updateAuthorityInfo group.updateAuthority
    TokenGroupError.immutableGroup TokenGroupError.incorrectUpdateAuthority
  let group ← change group
  let state ← state.setExtension group
  let σ ← store σ groupKey state
  return (σ, group)

/-- `process_update_group_max_size`. -/
def processUpdateGroupMaxSize (accounts : List AccountInfo) (maxSize : UInt64) (σ : Ledger) :
    Result Ledger :=
  match accounts with
  | groupInfo :: updateAuthorityInfo :: _ => do
    let (σ, _) ← updateGroup groupInfo.key updateAuthorityInfo (fun g => do
      failIf (maxSize < g.size) TokenGroupError.sizeExceedsNewMaxSize
      return { g with maxSize := maxSize }) σ
    return σ
  | _ => .error .notEnoughAccountKeys

/-- `process_update_group_authority`. -/
def processUpdateGroupAuthority (accounts : List AccountInfo)
    (newAuthority : OptionalNonZeroPubkey) (σ : Ledger) : Result Ledger :=
  match accounts with
  | groupInfo :: updateAuthorityInfo :: _ => do
    let (σ, _) ← updateGroup groupInfo.key updateAuthorityInfo
      (fun g => .ok { g with updateAuthority := newAuthority }) σ
    return σ
  | _ => .error .notEnoughAccountKeys

/-- `TokenGroup::increment_size`. -/
def incrementSize (g : Token.TokenGroup) : Result Token.TokenGroup := do
  let newSize ← okOr TokenGroupError.sizeExceedsMaxSize (checkedAdd g.size 1)
  failIf (newSize > g.maxSize) TokenGroupError.sizeExceedsMaxSize
  return { g with size := newSize }

/-- `process_initialize_member`. -/
def processInitializeMember (accounts : List AccountInfo) (σ : Ledger) : Result Ledger :=
  match accounts with
  | memberInfo :: memberMintInfo :: memberMintAuthorityInfo :: groupInfo ::
      groupUpdateAuthorityInfo :: _ => do
    failIf (memberInfo.key != memberMintInfo.key) TokenError.mintMismatch
    checkRecordMint GroupMemberPointer σ memberMintInfo.key memberMintAuthorityInfo
      TokenGroupError.incorrectMintAuthority
    failIf (memberInfo.key == groupInfo.key) TokenGroupError.memberAccountIsGroupAccount
    let (σ, group) ← updateGroup groupInfo.key groupUpdateAuthorityInfo incrementSize σ
    allocAndSerialize PodMint σ memberInfo.key
      (⟨memberMintInfo.key, groupInfo.key, group.size⟩ : TokenGroupMember) false
  | _ => .error .notEnoughAccountKeys

end TokenGroup

end SolanaEasy.Token.Processor
