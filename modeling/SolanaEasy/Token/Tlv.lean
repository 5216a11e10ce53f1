import SolanaEasy.Token.Extension

/-!
# TLV data — type, length, value entries in one buffer

The byte functions of `interface/src/extension/mod.rs`. A buffer is scanned from
its start: two bytes of type, two of length, then the value. The scan stops at
an entry of type zero. Loops carry the length of the buffer as fuel, which no
scan can use up, since every step moves at least four bytes forward.
-/

namespace SolanaEasy.Token

/-! ## Slices -/

/-- `&b[i..j]`. -/
def slice (b : Bytes) (i j : Nat) : Bytes := (b.drop i).take (j - i)

/-- `b[i..i + v.len()].copy_from_slice(v)`. -/
def splice (b : Bytes) (i : Nat) (v : Bytes) : Bytes := b.take i ++ v ++ b.drop (i + v.length)

/-- `u16::from_le_bytes`. -/
def readU16 (b : Bytes) (i j : Nat) : Nat := leNat (slice b i j)

/-! ## Scanning -/

structure TlvIndices where
  typeStart : Nat
  lengthStart : Nat
  valueStart : Nat
deriving DecidableEq

/-- `get_tlv_indices`. -/
def getTlvIndices (typeStart : Nat) : TlvIndices := ⟨typeStart, typeStart + 2, typeStart + 4⟩

/-- `add_type_and_length_to_len`. -/
def addTypeAndLengthToLen (valueLen : Nat) : Nat := valueLen + 4

/-- `adjust_len_for_multisig`. -/
def adjustLenForMultisig (accountLen : Nat) : Nat :=
  if accountLen == multisigLen then accountLen + 2 else accountLen

/-- `Length::try_from`. -/
def lengthBytes (n : Nat) : Result Bytes :=
  if n < 2 ^ 16 then .ok (leBytes 2 n) else .error .accountDataTooSmall

/-- The loop of `get_extension_indices::<V>`, with `V::TYPE = t`. -/
def extensionIndicesFrom (t : ExtensionType) (tlvData : Bytes) (init : Bool) :
    Nat → Nat → Result TlvIndices
  | 0, _ => .error .invalidAccountData
  | fuel + 1, startIndex =>
    if startIndex < tlvData.length then
      let tlvIndices := getTlvIndices startIndex
      if tlvData.length < tlvIndices.valueStart then .error .invalidAccountData
      else
        let extensionType := readU16 tlvData tlvIndices.typeStart tlvIndices.lengthStart
        if extensionType == t.toNat then .ok tlvIndices
        else if extensionType == ExtensionType.uninitialized.toNat then
          -- nothing is written after an uninitialized spot
          if init then .ok tlvIndices else .error TokenError.extensionNotFound
        else
          let length := readU16 tlvData tlvIndices.lengthStart tlvIndices.valueStart
          extensionIndicesFrom t tlvData init fuel (tlvIndices.valueStart + length)
    else .error .invalidAccountData

/-- `get_extension_indices::<V>`. -/
def getExtensionIndices (t : ExtensionType) (tlvData : Bytes) (init : Bool) :
    Result TlvIndices :=
  extensionIndicesFrom t tlvData init (tlvData.length + 1) 0

structure TlvDataInfo where
  extensionTypes : List ExtensionType
  usedLen : Nat
deriving DecidableEq

/-- The loop of `get_tlv_data_info`; `extensionTypes` holds the types in order. -/
def tlvDataInfoFrom (tlvData : Bytes) : Nat → Nat → List ExtensionType → Result TlvDataInfo
  | 0, startIndex, extensionTypes => .ok ⟨extensionTypes, startIndex⟩
  | fuel + 1, startIndex, extensionTypes =>
    if startIndex < tlvData.length then
      let tlvIndices := getTlvIndices startIndex
      if tlvData.length < tlvIndices.lengthStart then
        -- not enough bytes for a type: the last byte could be used by a realloc
        .ok ⟨extensionTypes, tlvIndices.typeStart⟩
      else
        match ExtensionType.ofNat?
            (readU16 tlvData tlvIndices.typeStart tlvIndices.lengthStart) with
        | none => .error .invalidAccountData
        | some .uninitialized => .ok ⟨extensionTypes, tlvIndices.typeStart⟩
        | some extensionType =>
          if tlvData.length < tlvIndices.valueStart then .error .invalidAccountData
          else
            let length := readU16 tlvData tlvIndices.lengthStart tlvIndices.valueStart
            let valueEndIndex := tlvIndices.valueStart + length
            if valueEndIndex > tlvData.length then .error .invalidAccountData
            else tlvDataInfoFrom tlvData fuel valueEndIndex (extensionTypes ++ [extensionType])
    else .ok ⟨extensionTypes, startIndex⟩

/-- `get_tlv_data_info`. -/
def getTlvDataInfo (tlvData : Bytes) : Result TlvDataInfo :=
  tlvDataInfoFrom tlvData (tlvData.length + 1) 0 []

/-- `get_first_extension_type`. -/
def getFirstExtensionType (tlvData : Bytes) : Result (Option ExtensionType) :=
  if tlvData.isEmpty then .ok none
  else
    let tlvIndices := getTlvIndices 0
    if tlvData.length ≤ tlvIndices.lengthStart then .ok none
    else
      match ExtensionType.ofNat? (readU16 tlvData tlvIndices.typeStart tlvIndices.lengthStart) with
      | none => .error .invalidAccountData
      | some .uninitialized => .ok none
      | some extensionType => .ok (some extensionType)

/-! ## Base states -/

/-- `BaseState`: a base that a TLV buffer may follow. -/
class BaseState (S : Type) extends Pod S where
  accountType : AccountType
  isInitialized : S → Bool
  accountType_ne : accountType ≠ .uninitialized := by decide
  size_le : size ≤ accountLen := by decide

instance : BaseState PodAccount where
  accountType := .account
  isInitialized := PodAccount.isInitialized

instance : BaseState PodMint where
  accountType := .mint
  isInitialized m := m.isInitialized.toBool

section Typed

variable (S : Type) [BaseState S]

/-- The value range of `get_extension_bytes::<S, V>` and its mutable twin. -/
def getExtensionRange (t : ExtensionType) (tlvData : Bytes) : Result (Nat × Nat) := do
  failIf (t.getAccountType != BaseState.accountType S) .invalidAccountData
  let ix ← getExtensionIndices t tlvData false
  let length := readU16 tlvData ix.lengthStart ix.valueStart
  let valueEnd := ix.valueStart + length
  failIf (tlvData.length < valueEnd) .invalidAccountData
  return (ix.valueStart, valueEnd)

/-- `get_extension_bytes::<S, V>`. -/
def getExtensionBytes (t : ExtensionType) (tlvData : Bytes) : Result Bytes := do
  let (valueStart, valueEnd) ← getExtensionRange S t tlvData
  return slice tlvData valueStart valueEnd

/-- `try_get_new_account_len_for_extension_len::<S, V>`. -/
def tryGetNewAccountLenForExtensionLen (t : ExtensionType) (tlvData : Bytes)
    (newExtensionLen : Nat) : Result Nat := do
  let newExtensionTlvLen := addTypeAndLengthToLen newExtensionLen
  let tlvInfo ← getTlvDataInfo tlvData
  let currentLen := tlvInfo.usedLen + (accountLen + 1)
  let currentExtensionLen :=
    ((toOption (getExtensionBytes S t tlvData)).map (addTypeAndLengthToLen ·.length)).getD 0
  return adjustLenForMultisig (currentLen - currentExtensionLen + newExtensionTlvLen)

/-! ## Writing -/

/-- `alloc::<V>`: the range of the value, and the buffer afterwards (also when
the call fails). -/
def alloc (t : ExtensionType) (length : Nat) (overwrite : Bool) (tlvData : Bytes) :
    Result (Nat × Nat) × Bytes :=
  if t.getAccountType != BaseState.accountType S then (.error .invalidAccountData, tlvData)
  else
    match getExtensionIndices t tlvData true with
    | .error e => (.error e, tlvData)
    | .ok ix =>
      if tlvData.length - ix.typeStart < addTypeAndLengthToLen length then
        (.error .invalidAccountData, tlvData)
      else
        match ExtensionType.ofNat? (readU16 tlvData ix.typeStart ix.lengthStart) with
        | none => (.error .invalidAccountData, tlvData)
        | some extensionType =>
          if extensionType == .uninitialized || overwrite then
            let typed := splice tlvData ix.typeStart (leBytes 2 t.toNat)
            if overwrite && extensionType == t
                && readU16 typed ix.lengthStart ix.valueStart != length then
              (.error TokenError.invalidLengthForAlloc, typed)
            else
              match lengthBytes length with
              | .error e => (.error e, typed)
              | .ok len => (.ok (ix.valueStart, ix.valueStart + length),
                  splice typed ix.lengthStart len)
          else (.error TokenError.extensionAlreadyInitialized, tlvData)

/-- `realloc::<V>`: the range of the value, and the buffer afterwards. -/
def realloc (t : ExtensionType) (length : Nat) (tlvData : Bytes) :
    Result (Nat × Nat) × Bytes :=
  match getExtensionIndices t tlvData false with
  | .error e => (.error e, tlvData)
  | .ok ix =>
    match getTlvDataInfo tlvData with
    | .error e => (.error e, tlvData)
    | .ok info =>
      let tlvLen := info.usedLen
      let oldLength := readU16 tlvData ix.lengthStart ix.valueStart
      if oldLength < length && tlvLen + (length - oldLength) > tlvData.length then
        (.error .invalidAccountData, tlvData)
      else
        match lengthBytes length with
        | .error e => (.error e, tlvData)
        | .ok len =>
          let sized := splice tlvData ix.lengthStart len
          let oldValueEnd := ix.valueStart + oldLength
          let newValueEnd := ix.valueStart + length
          if tlvLen < oldValueEnd then (.error RuntimeFault.panic, sized)
          else
            let moved := splice sized newValueEnd (slice sized oldValueEnd tlvLen)
            let filled :=
              if length < oldLength then
                let newTlvLen := tlvLen - (oldLength - length)
                splice moved newTlvLen (zeros (tlvLen - newTlvLen))
              else splice moved oldValueEnd (zeros (newValueEnd - oldValueEnd))
            (.ok (ix.valueStart, newValueEnd), filled)

end Typed

end SolanaEasy.Token
