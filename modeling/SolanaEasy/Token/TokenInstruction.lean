import SolanaEasy.Lib.Wire
import SolanaEasy.Token.Instruction

/-!
# Token instructions — the encoder and the documented decoder

`TokenInstruction` and `TransferFeeInstruction` of the interface crate, with `pack` and
`unpack`. `unpack` undoes `pack`; where the message ends with a value of fixed length it
does so whatever follows.
-/

namespace SolanaEasy.Token

open Processor

inductive TokenInstruction where
  | initializeMint (decimals : UInt8) (mintAuthority : Pubkey) (freezeAuthority : Option Pubkey)
  | initializeAccount
  | initializeMultisig (m : UInt8)
  | transfer (amount : UInt64)
  | approve (amount : UInt64)
  | revoke
  | setAuthority (authorityType : AuthorityType) (newAuthority : Option Pubkey)
  | mintTo (amount : UInt64)
  | burn (amount : UInt64)
  | closeAccount
  | freezeAccount
  | thawAccount
  | transferChecked (amount : UInt64) (decimals : UInt8)
  | approveChecked (amount : UInt64) (decimals : UInt8)
  | mintToChecked (amount : UInt64) (decimals : UInt8)
  | burnChecked (amount : UInt64) (decimals : UInt8)
  | initializeAccount2 (owner : Pubkey)
  | syncNative
  | initializeAccount3 (owner : Pubkey)
  | initializeMultisig2 (m : UInt8)
  | initializeMint2 (decimals : UInt8) (mintAuthority : Pubkey) (freezeAuthority : Option Pubkey)
  | getAccountDataSize (extensionTypes : List ExtensionType)
  | initializeImmutableOwner
  | amountToUiAmount (amount : UInt64)
  | uiAmountToAmount (uiAmount : String)
  | initializeMintCloseAuthority (closeAuthority : Option Pubkey)
  | transferFeeExtension
  | confidentialTransferExtension
  | defaultAccountStateExtension
  | reallocate (extensionTypes : List ExtensionType)
  | memoTransferExtension
  | createNativeMint
  | initializeNonTransferableMint
  | interestBearingMintExtension
  | cpiGuardExtension
  | initializePermanentDelegate (delegate : Pubkey)
  | transferHookExtension
  | confidentialTransferFeeExtension
  | withdrawExcessLamports
  | metadataPointerExtension
  | groupPointerExtension
  | groupMemberPointerExtension
  | confidentialMintBurnExtension
  | scaledUiAmountExtension
  | pausableExtension
deriving DecidableEq

namespace Processor.AuthorityType

/-- `AuthorityType::into`. -/
def into : AuthorityType → UInt8
  | mintTokens => 0
  | freezeAccount => 1
  | accountOwner => 2
  | closeAccount => 3
  | transferFeeConfig => 4
  | withheldWithdraw => 5
  | closeMint => 6
  | interestRate => 7
  | permanentDelegate => 8
  | confidentialTransferMint => 9
  | transferHookProgramId => 10
  | confidentialTransferFeeConfig => 11
  | metadataPointer => 12
  | groupPointer => 13
  | groupMemberPointer => 14
  | scaledUiAmount => 15
  | pause => 16

/-- `AuthorityType::from`. -/
def ofU8 : UInt8 → Result AuthorityType
  | 0 => .ok mintTokens
  | 1 => .ok freezeAccount
  | 2 => .ok accountOwner
  | 3 => .ok closeAccount
  | 4 => .ok transferFeeConfig
  | 5 => .ok withheldWithdraw
  | 6 => .ok closeMint
  | 7 => .ok interestRate
  | 8 => .ok permanentDelegate
  | 9 => .ok confidentialTransferMint
  | 10 => .ok transferHookProgramId
  | 11 => .ok confidentialTransferFeeConfig
  | 12 => .ok metadataPointer
  | 13 => .ok groupPointer
  | 14 => .ok groupMemberPointer
  | 15 => .ok scaledUiAmount
  | 16 => .ok pause
  | _ => .error TokenError.invalidInstruction

@[simp] theorem ofU8_into (t : AuthorityType) : ofU8 t.into = .ok t := by cases t <;> rfl

theorem ofU8_eq_ok {b : UInt8} {t : AuthorityType} (h : ofU8 b = .ok t) : b = t.into := by
  unfold ofU8 at h
  split at h <;> cases h <;> rfl

end Processor.AuthorityType

namespace ExtensionType

/-- `TryFrom<&[u8]>`. -/
def tryFrom (a : Bytes) : Result ExtensionType :=
  if a.length = 2 then okOr .invalidAccountData (ofNat? (leNat a)) else .error .invalidAccountData

/-- `<[u8; 2]>::from`. -/
def toBytes (t : ExtensionType) : Bytes := leBytes 2 t.toNat

@[simp] theorem length_toBytes (t : ExtensionType) : t.toBytes.length = 2 := length_leBytes 2 _

@[simp] theorem tryFrom_toBytes (t : ExtensionType) : tryFrom t.toBytes = .ok t := by
  have hlt := t.toNat_lt
  rw [tryFrom, if_pos t.length_toBytes, toBytes, leNat_leBytes (by omega), ofNat?_toNat]
  rfl

/-- The loop over `rest.chunks(size_of::<ExtensionType>())`. -/
def unpackList (rest : Bytes) : Result (List ExtensionType) := (chunks 2 rest).mapM tryFrom

@[simp] theorem unpackList_flatMap (l : List ExtensionType) :
    unpackList (l.flatMap toBytes) = .ok l := by
  rw [unpackList, chunks_flatMap (by decide) length_toBytes, mapM_map_eq_ok tryFrom_toBytes]

end ExtensionType

/-! ## TokenInstruction -/

namespace TokenInstruction

/-- `slice.split_first().ok_or(InvalidInstruction)`. -/
def splitFirst : Bytes → Result (UInt8 × Bytes)
  | [] => .error TokenError.invalidInstruction
  | b :: rest => .ok (b, rest)

def unpackPubkey (input : Bytes) : Result (Pubkey × Bytes) :=
  okOr TokenError.invalidInstruction (splitPod Pubkey input)

def unpackU16 (input : Bytes) : Result (UInt16 × Bytes) :=
  okOr TokenError.invalidInstruction (splitPod UInt16 input)

def unpackU64 (input : Bytes) : Result (UInt64 × Bytes) :=
  okOr TokenError.invalidInstruction (splitPod UInt64 input)

def unpackPubkeyOption : Bytes → Result (Option Pubkey × Bytes)
  | 0 :: rest => .ok (none, rest)
  | 1 :: rest => do
    let (pk, rest) ← unpackPubkey rest
    return (some pk, rest)
  | _ => .error TokenError.invalidInstruction

def packPubkeyOption : Option Pubkey → Bytes
  | some key => 1 :: Pod.toBytes key
  | none => [0]

def unpackAmountDecimals (input : Bytes) : Result (UInt64 × UInt8 × Bytes) := do
  let (amount, rest) ← unpackU64 input
  let (decimals, rest) ← splitFirst rest
  return (amount, decimals, rest)

/-- The `match tag` of `unpack`. -/
def unpackTag : ℕ → Bytes → Result TokenInstruction
  | 0, rest => do
    let (decimals, rest) ← splitFirst rest
    let (mintAuthority, rest) ← unpackPubkey rest
    let (freezeAuthority, _) ← unpackPubkeyOption rest
    return .initializeMint decimals mintAuthority freezeAuthority
  | 1, _ => .ok .initializeAccount
  | 2, rest => do
    let (m, _) ← splitFirst rest
    return .initializeMultisig m
  | 3, rest => do
    let (amount, _) ← unpackU64 rest
    return .transfer amount
  | 4, rest => do
    let (amount, _) ← unpackU64 rest
    return .approve amount
  | 5, _ => .ok .revoke
  | 6, rest => do
    let (t, rest) ← splitFirst rest
    let authorityType ← AuthorityType.ofU8 t
    let (newAuthority, _) ← unpackPubkeyOption rest
    return .setAuthority authorityType newAuthority
  | 7, rest => do
    let (amount, _) ← unpackU64 rest
    return .mintTo amount
  | 8, rest => do
    let (amount, _) ← unpackU64 rest
    return .burn amount
  | 9, _ => .ok .closeAccount
  | 10, _ => .ok .freezeAccount
  | 11, _ => .ok .thawAccount
  | 12, rest => do
    let (amount, decimals, _) ← unpackAmountDecimals rest
    return .transferChecked amount decimals
  | 13, rest => do
    let (amount, decimals, _) ← unpackAmountDecimals rest
    return .approveChecked amount decimals
  | 14, rest => do
    let (amount, decimals, _) ← unpackAmountDecimals rest
    return .mintToChecked amount decimals
  | 15, rest => do
    let (amount, decimals, _) ← unpackAmountDecimals rest
    return .burnChecked amount decimals
  | 16, rest => do
    let (owner, _) ← unpackPubkey rest
    return .initializeAccount2 owner
  | 17, _ => .ok .syncNative
  | 18, rest => do
    let (owner, _) ← unpackPubkey rest
    return .initializeAccount3 owner
  | 19, rest => do
    let (m, _) ← splitFirst rest
    return .initializeMultisig2 m
  | 20, rest => do
    let (decimals, rest) ← splitFirst rest
    let (mintAuthority, rest) ← unpackPubkey rest
    let (freezeAuthority, _) ← unpackPubkeyOption rest
    return .initializeMint2 decimals mintAuthority freezeAuthority
  | 21, rest => do
    let extensionTypes ← ExtensionType.unpackList rest
    return .getAccountDataSize extensionTypes
  | 22, _ => .ok .initializeImmutableOwner
  | 23, rest => do
    let (amount, _) ← unpackU64 rest
    return .amountToUiAmount amount
  | 24, rest => do
    let uiAmount ← okOr TokenError.invalidInstruction (strFromUtf8 rest)
    return .uiAmountToAmount uiAmount
  | 25, rest => do
    let (closeAuthority, _) ← unpackPubkeyOption rest
    return .initializeMintCloseAuthority closeAuthority
  | 26, _ => .ok .transferFeeExtension
  | 27, _ => .ok .confidentialTransferExtension
  | 28, _ => .ok .defaultAccountStateExtension
  | 29, rest => do
    let extensionTypes ← ExtensionType.unpackList rest
    return .reallocate extensionTypes
  | 30, _ => .ok .memoTransferExtension
  | 31, _ => .ok .createNativeMint
  | 32, _ => .ok .initializeNonTransferableMint
  | 33, _ => .ok .interestBearingMintExtension
  | 34, _ => .ok .cpiGuardExtension
  | 35, rest => do
    let (delegate, _) ← unpackPubkey rest
    return .initializePermanentDelegate delegate
  | 36, _ => .ok .transferHookExtension
  | 37, _ => .ok .confidentialTransferFeeExtension
  | 38, _ => .ok .withdrawExcessLamports
  | 39, _ => .ok .metadataPointerExtension
  | 40, _ => .ok .groupPointerExtension
  | 41, _ => .ok .groupMemberPointerExtension
  | 42, _ => .ok .confidentialMintBurnExtension
  | 43, _ => .ok .scaledUiAmountExtension
  | 44, _ => .ok .pausableExtension
  | _, _ => .error TokenError.invalidInstruction

def unpack (input : Bytes) : Result TokenInstruction := do
  let (tag, rest) ← splitFirst input
  unpackTag tag.toNat rest

def pack : TokenInstruction → Bytes
  | initializeMint decimals mintAuthority freezeAuthority =>
    0 :: decimals :: (Pod.toBytes mintAuthority ++ packPubkeyOption freezeAuthority)
  | initializeAccount => [1]
  | initializeMultisig m => [2, m]
  | transfer amount => 3 :: Pod.toBytes amount
  | approve amount => 4 :: Pod.toBytes amount
  | mintTo amount => 7 :: Pod.toBytes amount
  | burn amount => 8 :: Pod.toBytes amount
  | revoke => [5]
  | setAuthority authorityType newAuthority =>
    6 :: authorityType.into :: packPubkeyOption newAuthority
  | closeAccount => [9]
  | freezeAccount => [10]
  | thawAccount => [11]
  | transferChecked amount decimals => 12 :: (Pod.toBytes amount ++ [decimals])
  | approveChecked amount decimals => 13 :: (Pod.toBytes amount ++ [decimals])
  | mintToChecked amount decimals => 14 :: (Pod.toBytes amount ++ [decimals])
  | burnChecked amount decimals => 15 :: (Pod.toBytes amount ++ [decimals])
  | initializeAccount2 owner => 16 :: Pod.toBytes owner
  | syncNative => [17]
  | initializeAccount3 owner => 18 :: Pod.toBytes owner
  | initializeMultisig2 m => [19, m]
  | initializeMint2 decimals mintAuthority freezeAuthority =>
    20 :: decimals :: (Pod.toBytes mintAuthority ++ packPubkeyOption freezeAuthority)
  | getAccountDataSize extensionTypes => 21 :: extensionTypes.flatMap ExtensionType.toBytes
  | initializeImmutableOwner => [22]
  | amountToUiAmount amount => 23 :: Pod.toBytes amount
  | uiAmountToAmount uiAmount => 24 :: strBytes uiAmount
  | initializeMintCloseAuthority closeAuthority => 25 :: packPubkeyOption closeAuthority
  | transferFeeExtension => [26]
  | confidentialTransferExtension => [27]
  | defaultAccountStateExtension => [28]
  | reallocate extensionTypes => 29 :: extensionTypes.flatMap ExtensionType.toBytes
  | memoTransferExtension => [30]
  | createNativeMint => [31]
  | initializeNonTransferableMint => [32]
  | interestBearingMintExtension => [33]
  | cpiGuardExtension => [34]
  | initializePermanentDelegate delegate => 35 :: Pod.toBytes delegate
  | transferHookExtension => [36]
  | confidentialTransferFeeExtension => [37]
  | withdrawExcessLamports => [38]
  | metadataPointerExtension => [39]
  | groupPointerExtension => [40]
  | groupMemberPointerExtension => [41]
  | confidentialMintBurnExtension => [42]
  | scaledUiAmountExtension => [43]
  | pausableExtension => [44]

/-! ### Reading back -/

theorem splitFirst_cons (b : UInt8) (r : Bytes) : splitFirst (b :: r) = .ok (b, r) := rfl

theorem unpackPubkey_append (k : Pubkey) (r : Bytes) :
    unpackPubkey (Pod.toBytes k ++ r) = .ok (k, r) := by
  rw [unpackPubkey, splitPod_append, okOr]

theorem unpackU16_append (n : UInt16) (r : Bytes) :
    unpackU16 (Pod.toBytes n ++ r) = .ok (n, r) := by
  rw [unpackU16, splitPod_append, okOr]

theorem unpackU64_append (n : UInt64) (r : Bytes) :
    unpackU64 (Pod.toBytes n ++ r) = .ok (n, r) := by
  rw [unpackU64, splitPod_append, okOr]

theorem unpackPubkeyOption_append (k : Option Pubkey) (r : Bytes) :
    unpackPubkeyOption (packPubkeyOption k ++ r) = .ok (k, r) := by
  cases k with
  | none => rfl
  | some k =>
    rw [packPubkeyOption, List.cons_append, unpackPubkeyOption, unpackPubkey_append]
    rfl

theorem unpackAmountDecimals_append (n : UInt64) (d : UInt8) (r : Bytes) :
    unpackAmountDecimals (Pod.toBytes n ++ d :: r) = .ok (n, d, r) := by
  rw [unpackAmountDecimals, unpackU64_append]
  rfl

section Inverse

variable {input rest : Bytes}

theorem splitFirst_eq_ok {x : UInt8} : splitFirst input = .ok (x, rest) ↔ input = x :: rest := by
  cases input with
  | nil => simp [splitFirst]
  | cons y r => simp [splitFirst]

theorem unpackPubkeyOption_eq_ok {k : Option Pubkey} :
    unpackPubkeyOption input = .ok (k, rest) ↔ input = packPubkeyOption k ++ rest := by
  constructor
  · intro h
    rw [unpackPubkeyOption.eq_def] at h
    split at h
    · obtain ⟨rfl, rfl⟩ := Prod.mk.inj (Except.ok.inj h)
      rfl
    · simp only [bind_eq_ok, unpackPubkey, okOr_eq_ok, Prod.exists, pure_eq_ok, Prod.mk.injEq,
        splitPod_eq_some] at h
      obtain ⟨k, r, rfl, rfl, rfl⟩ := h
      rfl
    · cases h
  · rintro rfl
    exact unpackPubkeyOption_append k rest

theorem unpackAmountDecimals_eq_ok {n : UInt64} {d : UInt8} :
    unpackAmountDecimals input = .ok (n, d, rest) ↔ input = Pod.toBytes n ++ d :: rest := by
  constructor
  · intro h
    simp only [unpackAmountDecimals, bind_eq_ok, unpackU64, okOr_eq_ok, Prod.exists, pure_eq_ok,
      Prod.mk.injEq, splitPod_eq_some, splitFirst_eq_ok] at h
    obtain ⟨n, r, rfl, d, r, rfl, rfl, rfl, rfl⟩ := h
    rfl
  · rintro rfl
    exact unpackAmountDecimals_append n d rest

end Inverse

/-- The end of a message. -/
theorem unpackPubkey_toBytes (k : Pubkey) : unpackPubkey (Pod.toBytes k) = .ok (k, []) := by
  rw [unpackPubkey, splitPod_toBytes, okOr]

theorem unpackU64_toBytes (n : UInt64) : unpackU64 (Pod.toBytes n) = .ok (n, []) := by
  rw [unpackU64, splitPod_toBytes, okOr]

theorem unpackPubkeyOption_pack (k : Option Pubkey) :
    unpackPubkeyOption (packPubkeyOption k) = .ok (k, []) := by
  have h := unpackPubkeyOption_append k []
  rwa [List.append_nil] at h

theorem unpack_cons (tag : UInt8) (rest : Bytes) :
    unpack (tag :: rest) = unpackTag tag.toNat rest := rfl

/-- The decoder undoes the encoder. -/
theorem unpack_pack (i : TokenInstruction) : unpack i.pack = .ok i := by
  cases i with
  | initializeMint | initializeMint2 =>
    simp only [pack, unpack_cons, UInt8.reduceToNat, unpackTag, splitFirst_cons, ok_bind,
      unpackPubkey_append, unpackPubkeyOption_pack]
    rfl
  | transfer | approve | mintTo | burn | amountToUiAmount =>
    simp only [pack, unpack_cons, UInt8.reduceToNat, unpackTag, unpackU64_toBytes]
    rfl
  | transferChecked | approveChecked | mintToChecked | burnChecked =>
    simp only [pack, unpack_cons, UInt8.reduceToNat, unpackTag, unpackAmountDecimals_append]
    rfl
  | initializeAccount2 | initializeAccount3 | initializePermanentDelegate =>
    simp only [pack, unpack_cons, UInt8.reduceToNat, unpackTag, unpackPubkey_toBytes]
    rfl
  | setAuthority =>
    simp only [pack, unpack_cons, UInt8.reduceToNat, unpackTag, splitFirst_cons, ok_bind,
      AuthorityType.ofU8_into, unpackPubkeyOption_pack]
    rfl
  | initializeMintCloseAuthority =>
    simp only [pack, unpack_cons, UInt8.reduceToNat, unpackTag, unpackPubkeyOption_pack]
    rfl
  | getAccountDataSize | reallocate =>
    simp only [pack, unpack_cons, UInt8.reduceToNat, unpackTag, ExtensionType.unpackList_flatMap]
    rfl
  | uiAmountToAmount =>
    simp only [pack, unpack_cons, UInt8.reduceToNat, unpackTag, strFromUtf8_strBytes]
    rfl
  | _ => rfl

end TokenInstruction

/-! ## TransferFeeInstruction -/

inductive TransferFeeInstruction where
  | initializeTransferFeeConfig (transferFeeConfigAuthority : Option Pubkey)
      (withdrawWithheldAuthority : Option Pubkey) (transferFeeBasisPoints : UInt16)
      (maximumFee : UInt64)
  | transferCheckedWithFee (amount : UInt64) (decimals : UInt8) (fee : UInt64)
  | withdrawWithheldTokensFromMint
  | withdrawWithheldTokensFromAccounts (numTokenAccounts : UInt8)
  | harvestWithheldTokensToMint
  | setTransferFee (transferFeeBasisPoints : UInt16) (maximumFee : UInt64)
deriving DecidableEq

namespace TransferFeeInstruction

open TokenInstruction

def unpack (input : Bytes) : Result TransferFeeInstruction := do
  let (tag, rest) ← splitFirst input
  match tag.toNat with
  | 0 =>
    let (transferFeeConfigAuthority, rest) ← unpackPubkeyOption rest
    let (withdrawWithheldAuthority, rest) ← unpackPubkeyOption rest
    let (transferFeeBasisPoints, rest) ← unpackU16 rest
    let (maximumFee, _) ← unpackU64 rest
    return initializeTransferFeeConfig transferFeeConfigAuthority withdrawWithheldAuthority
      transferFeeBasisPoints maximumFee
  | 1 =>
    let (amount, decimals, rest) ← unpackAmountDecimals rest
    let (fee, _) ← unpackU64 rest
    return transferCheckedWithFee amount decimals fee
  | 2 => return withdrawWithheldTokensFromMint
  | 3 =>
    let (numTokenAccounts, _) ← splitFirst rest
    return withdrawWithheldTokensFromAccounts numTokenAccounts
  | 4 => return harvestWithheldTokensToMint
  | 5 =>
    let (transferFeeBasisPoints, rest) ← unpackU16 rest
    let (maximumFee, _) ← unpackU64 rest
    return setTransferFee transferFeeBasisPoints maximumFee
  | _ => .error TokenError.invalidInstruction

def pack : TransferFeeInstruction → Bytes
  | initializeTransferFeeConfig transferFeeConfigAuthority withdrawWithheldAuthority
      transferFeeBasisPoints maximumFee =>
    0 :: (packPubkeyOption transferFeeConfigAuthority ++
      (packPubkeyOption withdrawWithheldAuthority ++
        (Pod.toBytes transferFeeBasisPoints ++ Pod.toBytes maximumFee)))
  | transferCheckedWithFee amount decimals fee =>
    1 :: (Pod.toBytes amount ++ decimals :: Pod.toBytes fee)
  | withdrawWithheldTokensFromMint => [2]
  | withdrawWithheldTokensFromAccounts numTokenAccounts => [3, numTokenAccounts]
  | harvestWithheldTokensToMint => [4]
  | setTransferFee transferFeeBasisPoints maximumFee =>
    5 :: (Pod.toBytes transferFeeBasisPoints ++ Pod.toBytes maximumFee)

/-- The decoder undoes the encoder. -/
theorem unpack_pack (i : TransferFeeInstruction) : unpack i.pack = .ok i := by
  cases i with
  | initializeTransferFeeConfig =>
    simp only [pack, unpack, splitFirst_cons, ok_bind, UInt8.reduceToNat,
      unpackPubkeyOption_append, unpackU16_append, unpackU64_toBytes]
    rfl
  | transferCheckedWithFee =>
    simp only [pack, unpack, splitFirst_cons, ok_bind, UInt8.reduceToNat,
      unpackAmountDecimals_append, unpackU64_toBytes]
    rfl
  | setTransferFee =>
    simp only [pack, unpack, splitFirst_cons, ok_bind, UInt8.reduceToNat, unpackU16_append,
      unpackU64_toBytes]
    rfl
  | _ => rfl

end TransferFeeInstruction

end SolanaEasy.Token
