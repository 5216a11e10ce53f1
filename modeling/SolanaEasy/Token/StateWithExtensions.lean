import SolanaEasy.Token.Tlv

/-!
# State with extensions — account data as a base and a TLV buffer

`PodState` is `PodStateWithExtensionsMut`: the base, the account-type byte and
the TLV buffer that a successful unpack borrows from the account data. The
source writes through these borrows; here a handler returns the changed parts
and `bytes` puts them back together. The read-only `PodStateWithExtensions`
performs the same checks and is the same value.
-/

namespace SolanaEasy.Token

/-- `PodStateWithExtensionsMut<S>`. Data that ends with the base has an empty
account-type slice and an empty buffer. -/
structure PodState (S : Type) where
  base : S
  accountType : Bytes
  tlvData : Bytes

variable {S : Type} [BaseState S]

/-- The data a `PodState` was borrowed from. -/
def PodState.bytes (s : PodState S) : Bytes :=
  Pod.toBytes s.base ++
    if s.accountType.isEmpty then []
    else zeros (accountLen - Pod.size S) ++ s.accountType ++ s.tlvData

/-! ## Unpacking -/

/-- `check_min_len_and_not_multisig`. -/
def checkMinLenAndNotMultisig (input : Bytes) (minimumLen : Nat) : Result Unit :=
  if input.length == multisigLen || input.length < minimumLen then .error .invalidAccountData
  else .ok ()

/-- `check_account_type::<S>`. -/
def checkAccountType (S : Type) [BaseState S] (t : AccountType) : Result Unit :=
  if t != BaseState.accountType S then .error .invalidAccountData else .ok ()

/-- `type_and_tlv_indices::<S>`. -/
def typeAndTlvIndices (S : Type) [BaseState S] (rest : Bytes) : Result (Option (Nat × Nat)) :=
  if rest.isEmpty then .ok none
  else
    let accountTypeIndex := accountLen - Pod.size S
    let tlvStartIndex := accountTypeIndex + 1
    if rest.length < tlvStartIndex then .error .invalidAccountData
    else if rest.take accountTypeIndex != zeros accountTypeIndex then .error .invalidAccountData
    else .ok (some (accountTypeIndex, tlvStartIndex))

/-- `unpack_type_and_tlv_data_with_check_mut::<S, _>`. -/
def unpackTypeAndTlvDataWithCheck (S : Type) [BaseState S] (rest : Bytes)
    (checkFn : AccountType → Result Unit) : Result (Bytes × Bytes) := do
  match ← typeAndTlvIndices S rest with
  | none => return ([], [])
  | some (accountTypeIndex, tlvStartIndex) =>
    let accountType ← okOr .invalidAccountData (rest[accountTypeIndex]?.bind AccountType.ofU8)
    checkFn accountType
    return (slice rest accountTypeIndex tlvStartIndex, rest.drop tlvStartIndex)

/-- `PodStateWithExtensions::<S>::unpack` and its mutable twin. -/
def unpack (S : Type) [BaseState S] (input : Bytes) : Result (PodState S) := do
  checkMinLenAndNotMultisig input (Pod.size S)
  let base : S := Pod.ofBytes (input.take (Pod.size S))
  failIf (!BaseState.isInitialized base) .uninitializedAccount
  let (accountType, tlvData) ←
    unpackTypeAndTlvDataWithCheck S (input.drop (Pod.size S)) (checkAccountType S)
  return ⟨base, accountType, tlvData⟩

/-- `check_account_type_matches_extension_type`. -/
def PodState.checkAccountTypeMatchesExtensionType (s : PodState S) : Result Unit := do
  match ← getFirstExtensionType s.tlvData with
  | some extensionType =>
    failIf (extensionType.getAccountType != BaseState.accountType S)
      TokenError.extensionBaseMismatch
  | none => return ()

/-- `PodStateWithExtensionsMut::<S>::unpack_uninitialized`. -/
def unpackUninitialized (S : Type) [BaseState S] (input : Bytes) : Result (PodState S) := do
  checkMinLenAndNotMultisig input (Pod.size S)
  let base : S := Pod.ofBytes (input.take (Pod.size S))
  failIf (BaseState.isInitialized base) TokenError.alreadyInUse
  let (accountType, tlvData) ←
    unpackTypeAndTlvDataWithCheck S (input.drop (Pod.size S)) fun t =>
      failIf (t != .uninitialized) .invalidAccountData
  let state : PodState S := ⟨base, accountType, tlvData⟩
  state.checkAccountTypeMatchesExtensionType
  return state

namespace PodState

/-! ## Extensions of a state -/

/-- `get_extension_types`. -/
def getExtensionTypes (s : PodState S) : Result (List ExtensionType) := do
  let info ← getTlvDataInfo s.tlvData
  return info.extensionTypes

/-- `get_extension::<V>`. -/
def getExtension (s : PodState S) (V : Type) [Pod V] [Extension V] : Result V := do
  let bytes ← getExtensionBytes S (Extension.type V) s.tlvData
  okOr .invalidArgument (Pod.decode? V bytes)

/-- `get_extension::<V>().is_ok()`. -/
def hasExtension (s : PodState S) (V : Type) [Pod V] [Extension V] : Bool :=
  (toOption (s.getExtension V)).isSome

/-- `*get_extension_mut::<V>()? = v`. -/
def setExtension {V : Type} [Pod V] [Extension V] (s : PodState S) (v : V) :
    Result (PodState S) := do
  let (valueStart, valueEnd) ← getExtensionRange S (Extension.type V) s.tlvData
  failIf (valueEnd - valueStart != Pod.size V) .invalidArgument
  return { s with tlvData := splice s.tlvData valueStart (Pod.toBytes v) }

/-- `*init_extension::<V>(overwrite)? = v`. -/
def initExtension {V : Type} [Pod V] [Extension V] (s : PodState S) (v : V)
    (overwrite : Bool) : Result (PodState S) := do
  let (result, tlvData) := alloc S (Extension.type V) (Pod.size V) overwrite s.tlvData
  let (valueStart, _) ← result
  return { s with tlvData := splice tlvData valueStart (Pod.toBytes v) }

/-- `init_account_extension_from_type`: only the types that `InitializeAccount`
can require have a branch; any other account type is unreachable there. -/
def initAccountExtensionFromType (s : PodState S) (t : ExtensionType) : Result (PodState S) :=
  if t.getAccountType != .account then .ok s
  else
    match t with
    | .transferFeeAmount => s.initExtension (default : TransferFeeAmount) true
    | .immutableOwner => s.initExtension (default : ImmutableOwner) true
    | .nonTransferableAccount => s.initExtension (default : NonTransferableAccount) true
    | .transferHookAccount => s.initExtension (default : TransferHookAccount) true
    | .confidentialTransferAccount => .ok s
    | .pausableAccount => s.initExtension (default : PausableAccount) true
    | _ => .error RuntimeFault.panic

/-- `init_account_type`. -/
def initAccountType (s : PodState S) : Result (PodState S) := do
  let firstExtensionType ← getFirstExtensionType s.tlvData
  if s.accountType.isEmpty then return s
  else
    match firstExtensionType with
    | some extensionType =>
      failIf (extensionType.getAccountType != BaseState.accountType S)
        TokenError.extensionBaseMismatch
      return { s with accountType := [(BaseState.accountType S).toU8] }
    | none => return { s with accountType := [(BaseState.accountType S).toU8] }

/-- `try_get_account_len`. -/
def tryGetAccountLen (s : PodState S) : Result Nat := do
  let info ← getTlvDataInfo s.tlvData
  if info.extensionTypes.isEmpty then return Pod.size S
  else return adjustLenForMultisig (info.usedLen + (accountLen + 1))

end PodState

/-- `is_initialized_account`. -/
def isInitializedAccount (input : Bytes) : Result Bool :=
  if input.length != accountLen then .error .invalidAccountData
  else .ok (input[108]? != some 0)

/-- `set_account_type::<S>`, on the whole data. -/
def setAccountType (S : Type) [BaseState S] (input : Bytes) : Result Bytes := do
  checkMinLenAndNotMultisig input (Pod.size S)
  let rest := input.drop (Pod.size S)
  if BaseState.accountType S == .account then
    let initialized ← isInitializedAccount (input.take (Pod.size S))
    failIf (!initialized) .invalidAccountData
  match ← typeAndTlvIndices S rest with
  | none => .error .invalidAccountData
  | some (accountTypeIndex, _) =>
    let accountType ← okOr .invalidAccountData (rest[accountTypeIndex]?.bind AccountType.ofU8)
    if accountType == .uninitialized then
      return splice input (Pod.size S + accountTypeIndex) [(BaseState.accountType S).toU8]
    else
      checkAccountType S accountType
      return input

/-- `ExtensionType::try_get_total_tlv_len`. -/
def tryGetTotalTlvLen (extensionTypes : List ExtensionType) : Result Nat := do
  let lens ← extensionTypes.dedup.mapM fun t => t.tryGetTypeLen
  return (lens.map addTypeAndLengthToLen).sum

/-- `ExtensionType::try_calculate_account_len::<S>`. -/
def tryCalculateAccountLen (S : Type) [BaseState S] (extensionTypes : List ExtensionType) :
    Result Nat :=
  if extensionTypes.isEmpty then .ok (Pod.size S)
  else do
    let extensionSize ← tryGetTotalTlvLen extensionTypes
    return adjustLenForMultisig (extensionSize + (accountLen + 1))

/-! ## The Pack view -/

/-- `Account`: the base state as `Pack` reads it, with strict tags. -/
structure Account where
  mint : Pubkey
  owner : Pubkey
  amount : UInt64
  delegate : Option Pubkey
  state : AccountState
  isNative : Option UInt64
  delegatedAmount : UInt64
  closeAuthority : Option Pubkey
deriving DecidableEq

/-- `unpack_coption_key`, `unpack_coption_u64`. -/
def unpackCOption {α : Type} (o : PodCOption α) : Result (Option α) :=
  if o.option == PodCOption.NONE then .ok none
  else if o.option == PodCOption.SOME then .ok (some o.value)
  else .error .invalidAccountData

/-- `pack_coption_key`, `pack_coption_u64`: `None` leaves the body as it is. -/
def packCOption {α : Type} : Option α → PodCOption α → PodCOption α
  | none, dst => { dst with option := PodCOption.NONE }
  | some a, _ => PodCOption.some a

/-- `Account::unpack_from_slice`, field by field. -/
def Account.unpackFromSlice (src : PodAccount) : Result Account := do
  let delegate ← unpackCOption src.delegate
  let state ← okOr .invalidAccountData (AccountState.ofU8 src.state)
  let isNative ← unpackCOption src.isNativeOption
  let closeAuthority ← unpackCOption src.closeAuthority
  return ⟨src.mint, src.owner, src.amount, delegate, state, isNative, src.delegatedAmount,
    closeAuthority⟩

/-- `Account::pack_into_slice`. -/
def Account.packIntoSlice (a : Account) (dst : PodAccount) : PodAccount :=
  ⟨a.mint, a.owner, a.amount, packCOption a.delegate dst.delegate, a.state.toU8,
    packCOption a.isNative dst.isNativeOption, a.delegatedAmount,
    packCOption a.closeAuthority dst.closeAuthority⟩

/-- `StateWithExtensionsMut::<Account>::unpack`: the base as read, and the borrowed
parts of the data. -/
def unpackAccount (input : Bytes) : Result (Account × PodState PodAccount) := do
  checkMinLenAndNotMultisig input accountLen
  let baseData : PodAccount := Pod.ofBytes (input.take accountLen)
  let base ← Account.unpackFromSlice baseData
  failIf (base.state == .uninitialized) .uninitializedAccount
  let (accountType, tlvData) ←
    unpackTypeAndTlvDataWithCheck PodAccount (input.drop accountLen) (checkAccountType PodAccount)
  return (base, ⟨baseData, accountType, tlvData⟩)

end SolanaEasy.Token
