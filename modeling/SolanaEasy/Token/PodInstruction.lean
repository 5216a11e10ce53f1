import SolanaEasy.Token.TokenInstruction

/-!
# Pod instructions — the dispatcher's own decoder

What `Processor::process` makes of its input: the one-byte tag, then the data in Pod form,
and the handler it calls. It is compared with the documented decoder of the interface crate.
-/

namespace SolanaEasy.Token

open Processor

inductive PodTokenInstruction where
  | initializeMint
  | initializeAccount
  | initializeMultisig
  | transfer
  | approve
  | revoke
  | setAuthority
  | mintTo
  | burn
  | closeAccount
  | freezeAccount
  | thawAccount
  | transferChecked
  | approveChecked
  | mintToChecked
  | burnChecked
  | initializeAccount2
  | syncNative
  | initializeAccount3
  | initializeMultisig2
  | initializeMint2
  | getAccountDataSize
  | initializeImmutableOwner
  | amountToUiAmount
  | uiAmountToAmount
  | initializeMintCloseAuthority
  | transferFeeExtension
  | confidentialTransferExtension
  | defaultAccountStateExtension
  | reallocate
  | memoTransferExtension
  | createNativeMint
  | initializeNonTransferableMint
  | interestBearingMintExtension
  | cpiGuardExtension
  | initializePermanentDelegate
  | transferHookExtension
  | confidentialTransferFeeExtension
  | withdrawExcessLamports
  | metadataPointerExtension
  | groupPointerExtension
  | groupMemberPointerExtension
  | confidentialMintBurnExtension
  | scaledUiAmountExtension
  | pausableExtension
deriving DecidableEq

namespace PodTokenInstruction

/-- Every tag, in the order of its number. -/
def all : List PodTokenInstruction :=
  [initializeMint, initializeAccount, initializeMultisig, transfer, approve, revoke, setAuthority,
    mintTo, burn, closeAccount, freezeAccount, thawAccount, transferChecked, approveChecked,
    mintToChecked, burnChecked, initializeAccount2, syncNative, initializeAccount3,
    initializeMultisig2, initializeMint2, getAccountDataSize, initializeImmutableOwner,
    amountToUiAmount, uiAmountToAmount, initializeMintCloseAuthority, transferFeeExtension,
    confidentialTransferExtension, defaultAccountStateExtension, reallocate,
    memoTransferExtension, createNativeMint, initializeNonTransferableMint,
    interestBearingMintExtension, cpiGuardExtension, initializePermanentDelegate,
    transferHookExtension, confidentialTransferFeeExtension, withdrawExcessLamports,
    metadataPointerExtension, groupPointerExtension, groupMemberPointerExtension,
    confidentialMintBurnExtension, scaledUiAmountExtension, pausableExtension]

/-- `PodTokenInstruction::try_from`. -/
def ofU8 (tag : UInt8) : Option PodTokenInstruction := all[tag.toNat]?

theorem ofU8_eq_some {tag : UInt8} {t : PodTokenInstruction} (h : ofU8 tag = some t) :
    tag.toNat = t.ctorIdx := by
  obtain ⟨hlt, h⟩ := List.getElem?_eq_some_iff.mp h
  have hall : ∀ i : Fin all.length, (i : ℕ) = (all.get i).ctorIdx := by decide
  rw [← h]
  exact hall ⟨_, hlt⟩

end PodTokenInstruction

/-! ## The data behind the tag -/

structure InitializeMintData where
  decimals : UInt8
  mintAuthority : Pubkey

instance : Pod InitializeMintData :=
  Pod.ofEquiv InitializeMintData (fun d => (d.decimals, d.mintAuthority))
    (fun p => ⟨p.1, p.2⟩) (fun _ => rfl) (fun _ => rfl)

structure InitializeMultisigData where
  m : UInt8

instance : Pod InitializeMultisigData :=
  Pod.ofEquiv InitializeMultisigData InitializeMultisigData.m InitializeMultisigData.mk
    (fun _ => rfl) (fun _ => rfl)

structure AmountData where
  amount : UInt64

instance : Pod AmountData :=
  Pod.ofEquiv AmountData AmountData.amount AmountData.mk (fun _ => rfl) (fun _ => rfl)

structure AmountCheckedData where
  amount : UInt64
  decimals : UInt8

instance : Pod AmountCheckedData :=
  Pod.ofEquiv AmountCheckedData (fun d => (d.amount, d.decimals)) (fun p => ⟨p.1, p.2⟩)
    (fun _ => rfl) (fun _ => rfl)

structure SetAuthorityData where
  authorityType : UInt8

instance : Pod SetAuthorityData :=
  Pod.ofEquiv SetAuthorityData SetAuthorityData.authorityType SetAuthorityData.mk
    (fun _ => rfl) (fun _ => rfl)

namespace Processor

/-- `decode_instruction_type`. -/
def decodeInstructionType : Bytes → Result PodTokenInstruction
  | [] => .error .invalidInstructionData
  | tag :: _ => okOr TokenError.invalidInstruction (PodTokenInstruction.ofU8 tag)

/-- `decode_instruction_data::<T>`: the data must end with the value. -/
def decodeInstructionData (T : Type) [Pod T] (inputWithType : Bytes) : Result T :=
  if inputWithType.length != Pod.size T + 1 then .error .invalidInstructionData
  else .ok (Pod.ofBytes (inputWithType.drop 1))

/-- `unpack_pubkey_option` of the dispatcher. -/
def unpackPubkeyOption : Bytes → Result (PodCOption Pubkey)
  | 0 :: _ => .ok .none
  | 1 :: rest => do
    let (pk, _) ← okOr .invalidInstructionData (splitPod Pubkey rest)
    return .some pk
  | _ => .error .invalidInstructionData

/-- `decode_instruction_data_with_coption_pubkey::<T>`. -/
def decodeInstructionDataWithCOptionPubkey (T : Type) [Pod T] (inputWithType : Bytes) :
    Result (T × PodCOption Pubkey) := do
  let endOfT := Pod.size T + 1
  failIf (inputWithType.length < endOfT) .invalidInstructionData
  let value : T := Pod.ofBytes (slice inputWithType 1 endOfT)
  let pubkey ← unpackPubkeyOption (inputWithType.drop endOfT)
  return (value, pubkey)

/-- The handler that the input selects, with its arguments: one of the instructions of the
step function, a conversion that answers through the return data, or the processor of an
extension with the rest of the input. -/
inductive Selected where
  | instruction (i : Instruction)
  | amountToUiAmount (amount : UInt64)
  | uiAmountToAmount (uiAmount : String)
  | extension (t : PodTokenInstruction) (input : Bytes)

/-- The `match instruction_type` of `Processor::process`. -/
def select (input : Bytes) : PodTokenInstruction → Result Selected
  | .initializeMint => do
    let (data, freezeAuthority) ←
      decodeInstructionDataWithCOptionPubkey InitializeMintData input
    return .instruction
      (.initializeMint data.decimals data.mintAuthority freezeAuthority.toOption)
  | .initializeMint2 => do
    let (data, freezeAuthority) ←
      decodeInstructionDataWithCOptionPubkey InitializeMintData input
    return .instruction
      (.initializeMint2 data.decimals data.mintAuthority freezeAuthority.toOption)
  | .initializeAccount => .ok (.instruction .initializeAccount)
  | .initializeAccount2 => do
    let owner ← decodeInstructionData Pubkey input
    return .instruction (.initializeAccount2 owner)
  | .initializeAccount3 => do
    let owner ← decodeInstructionData Pubkey input
    return .instruction (.initializeAccount3 owner)
  | .initializeMultisig => do
    let data ← decodeInstructionData InitializeMultisigData input
    return .instruction (.initializeMultisig data.m)
  | .initializeMultisig2 => do
    let data ← decodeInstructionData InitializeMultisigData input
    return .instruction (.initializeMultisig2 data.m)
  | .transfer => do
    let data ← decodeInstructionData AmountData input
    return .instruction (.transfer data.amount)
  | .approve => do
    let data ← decodeInstructionData AmountData input
    return .instruction (.approve data.amount)
  | .revoke => .ok (.instruction .revoke)
  | .setAuthority => do
    let (data, newAuthority) ← decodeInstructionDataWithCOptionPubkey SetAuthorityData input
    let authorityType ← AuthorityType.ofU8 data.authorityType
    return .instruction (.setAuthority authorityType newAuthority.toOption)
  | .mintTo => do
    let data ← decodeInstructionData AmountData input
    return .instruction (.mintTo data.amount)
  | .burn => do
    let data ← decodeInstructionData AmountData input
    return .instruction (.burn data.amount)
  | .closeAccount => .ok (.instruction .closeAccount)
  | .freezeAccount => .ok (.instruction .freezeAccount)
  | .thawAccount => .ok (.instruction .thawAccount)
  | .transferChecked => do
    let data ← decodeInstructionData AmountCheckedData input
    return .instruction (.transferChecked data.amount data.decimals)
  | .approveChecked => do
    let data ← decodeInstructionData AmountCheckedData input
    return .instruction (.approveChecked data.amount data.decimals)
  | .mintToChecked => do
    let data ← decodeInstructionData AmountCheckedData input
    return .instruction (.mintToChecked data.amount data.decimals)
  | .burnChecked => do
    let data ← decodeInstructionData AmountCheckedData input
    return .instruction (.burnChecked data.amount data.decimals)
  | .syncNative => .ok (.instruction .syncNative)
  | .getAccountDataSize => do
    let extensionTypes ← (chunks 2 (input.drop 1)).mapM ExtensionType.tryFrom
    return .instruction (.getAccountDataSize extensionTypes)
  | .initializeMintCloseAuthority => do
    let (_, closeAuthority) ← decodeInstructionDataWithCOptionPubkey Unit input
    return .instruction (.initializeMintCloseAuthority closeAuthority.toOption)
  | .transferFeeExtension => .ok (.extension .transferFeeExtension (input.drop 1))
  | .confidentialTransferExtension =>
    .ok (.extension .confidentialTransferExtension (input.drop 1))
  | .defaultAccountStateExtension =>
    .ok (.extension .defaultAccountStateExtension (input.drop 1))
  | .initializeImmutableOwner => .ok (.instruction .initializeImmutableOwner)
  | .amountToUiAmount => do
    let data ← decodeInstructionData AmountData input
    return .amountToUiAmount data.amount
  | .uiAmountToAmount => do
    let uiAmount ← okOr TokenError.invalidInstruction (strFromUtf8 (input.drop 1))
    return .uiAmountToAmount uiAmount
  | .reallocate => do
    let extensionTypes ← (chunks 2 (input.drop 1)).mapM ExtensionType.tryFrom
    return .instruction (.reallocate extensionTypes)
  | .memoTransferExtension => .ok (.extension .memoTransferExtension (input.drop 1))
  | .createNativeMint => .ok (.instruction .createNativeMint)
  | .initializeNonTransferableMint => .ok (.instruction .initializeNonTransferableMint)
  | .interestBearingMintExtension =>
    .ok (.extension .interestBearingMintExtension (input.drop 1))
  | .cpiGuardExtension => .ok (.extension .cpiGuardExtension (input.drop 1))
  | .initializePermanentDelegate => do
    let delegate ← decodeInstructionData Pubkey input
    return .instruction (.initializePermanentDelegate delegate)
  | .transferHookExtension => .ok (.extension .transferHookExtension (input.drop 1))
  | .confidentialTransferFeeExtension =>
    .ok (.extension .confidentialTransferFeeExtension (input.drop 1))
  | .withdrawExcessLamports => .ok (.instruction .withdrawExcessLamports)
  | .metadataPointerExtension => .ok (.extension .metadataPointerExtension (input.drop 1))
  | .groupPointerExtension => .ok (.extension .groupPointerExtension (input.drop 1))
  | .groupMemberPointerExtension =>
    .ok (.extension .groupMemberPointerExtension (input.drop 1))
  | .confidentialMintBurnExtension =>
    .ok (.extension .confidentialMintBurnExtension (input.drop 1))
  | .scaledUiAmountExtension => .ok (.extension .scaledUiAmountExtension (input.drop 1))
  | .pausableExtension => .ok (.extension .pausableExtension (input.drop 1))

/-- The decoding in `Processor::process`. -/
def decode (input : Bytes) : Result Selected := do
  let instructionType ← decodeInstructionType input
  select input instructionType

end Processor

/-! ## The handler an instruction names -/

/-- The handler that the documented instruction names. An extension prefix hands `rest`, the
bytes behind the tag, to the processor of the extension. -/
def TokenInstruction.selected (rest : Bytes) : TokenInstruction → Selected
  | initializeMint decimals mintAuthority freezeAuthority =>
    .instruction (.initializeMint decimals mintAuthority freezeAuthority)
  | initializeAccount => .instruction .initializeAccount
  | initializeMultisig m => .instruction (.initializeMultisig m)
  | transfer amount => .instruction (.transfer amount)
  | approve amount => .instruction (.approve amount)
  | revoke => .instruction .revoke
  | setAuthority authorityType newAuthority =>
    .instruction (.setAuthority authorityType newAuthority)
  | mintTo amount => .instruction (.mintTo amount)
  | burn amount => .instruction (.burn amount)
  | closeAccount => .instruction .closeAccount
  | freezeAccount => .instruction .freezeAccount
  | thawAccount => .instruction .thawAccount
  | transferChecked amount decimals => .instruction (.transferChecked amount decimals)
  | approveChecked amount decimals => .instruction (.approveChecked amount decimals)
  | mintToChecked amount decimals => .instruction (.mintToChecked amount decimals)
  | burnChecked amount decimals => .instruction (.burnChecked amount decimals)
  | initializeAccount2 owner => .instruction (.initializeAccount2 owner)
  | syncNative => .instruction .syncNative
  | initializeAccount3 owner => .instruction (.initializeAccount3 owner)
  | initializeMultisig2 m => .instruction (.initializeMultisig2 m)
  | initializeMint2 decimals mintAuthority freezeAuthority =>
    .instruction (.initializeMint2 decimals mintAuthority freezeAuthority)
  | getAccountDataSize extensionTypes => .instruction (.getAccountDataSize extensionTypes)
  | initializeImmutableOwner => .instruction .initializeImmutableOwner
  | amountToUiAmount amount => .amountToUiAmount amount
  | uiAmountToAmount uiAmount => .uiAmountToAmount uiAmount
  | initializeMintCloseAuthority closeAuthority =>
    .instruction (.initializeMintCloseAuthority closeAuthority)
  | transferFeeExtension => .extension .transferFeeExtension rest
  | confidentialTransferExtension => .extension .confidentialTransferExtension rest
  | defaultAccountStateExtension => .extension .defaultAccountStateExtension rest
  | reallocate extensionTypes => .instruction (.reallocate extensionTypes)
  | memoTransferExtension => .extension .memoTransferExtension rest
  | createNativeMint => .instruction .createNativeMint
  | initializeNonTransferableMint => .instruction .initializeNonTransferableMint
  | interestBearingMintExtension => .extension .interestBearingMintExtension rest
  | cpiGuardExtension => .extension .cpiGuardExtension rest
  | initializePermanentDelegate delegate => .instruction (.initializePermanentDelegate delegate)
  | transferHookExtension => .extension .transferHookExtension rest
  | confidentialTransferFeeExtension => .extension .confidentialTransferFeeExtension rest
  | withdrawExcessLamports => .instruction .withdrawExcessLamports
  | metadataPointerExtension => .extension .metadataPointerExtension rest
  | groupPointerExtension => .extension .groupPointerExtension rest
  | groupMemberPointerExtension => .extension .groupMemberPointerExtension rest
  | confidentialMintBurnExtension => .extension .confidentialMintBurnExtension rest
  | scaledUiAmountExtension => .extension .scaledUiAmountExtension rest
  | pausableExtension => .extension .pausableExtension rest

/-- The `match instruction` of the transfer-fee processor. -/
def TransferFeeInstruction.selected : TransferFeeInstruction → Instruction
  | initializeTransferFeeConfig configAuthority withdrawWithheldAuthority basisPoints fee =>
    .initializeTransferFeeConfig configAuthority withdrawWithheldAuthority basisPoints fee
  | transferCheckedWithFee amount decimals fee => .transferCheckedWithFee amount decimals fee
  | withdrawWithheldTokensFromMint => .withdrawWithheldTokensFromMint
  | withdrawWithheldTokensFromAccounts numTokenAccounts =>
    .withdrawWithheldTokensFromAccounts numTokenAccounts
  | harvestWithheldTokensToMint => .harvestWithheldTokensToMint
  | setTransferFee basisPoints fee => .setTransferFee basisPoints fee

namespace Processor

/-- The decoding in `transfer_fee::processor::process_instruction`, which uses the documented
decoder. -/
def decodeTransferFee (input : Bytes) : Result Instruction := do
  let instruction ← TransferFeeInstruction.unpack input
  return instruction.selected

/-! ## Inverting the readers -/

section Readers

variable {T : Type} [Pod T]

theorem decodeInstructionData_eq_ok {tag : UInt8} {rest : Bytes} {v : T} :
    decodeInstructionData T (tag :: rest) = .ok v ↔ rest = Pod.toBytes v := by
  rw [decodeInstructionData, List.length_cons, List.drop_succ_cons, List.drop_zero]
  constructor
  · intro h
    split at h
    · cases h
    · rename_i hlen
      rw [bne_iff_ne, not_not, Nat.add_right_cancel_iff] at hlen
      rw [← Except.ok.inj h, Pod.toBytes_ofBytes rest hlen]
  · rintro rfl
    rw [Pod.length_toBytes, bne_self_eq_false, if_neg Bool.false_ne_true, Pod.ofBytes_toBytes]

/-- The option that was read is one that the handlers give back to the Pod form. -/
theorem unpackPubkeyOption_eq_ok {b : Bytes} {o : PodCOption Pubkey} :
    unpackPubkeyOption b = .ok o ↔
      ∃ k r, o = .ofOption k ∧ b = TokenInstruction.packPubkeyOption k ++ r := by
  constructor
  · intro h
    rw [unpackPubkeyOption.eq_def] at h
    split at h
    · rename_i r
      exact ⟨none, r, (Except.ok.inj h).symm, rfl⟩
    · rename_i rest
      simp only [bind_eq_ok, okOr_eq_ok, Prod.exists, pure_eq_ok, splitPod_eq_some] at h
      obtain ⟨k, r, rfl, rfl⟩ := h
      exact ⟨some k, r, rfl, rfl⟩
    · cases h
  · rintro ⟨k, r, rfl, rfl⟩
    cases k with
    | none => rfl
    | some k =>
      rw [TokenInstruction.packPubkeyOption, List.cons_append, unpackPubkeyOption,
        splitPod_append]
      rfl

theorem decodeWithCOption_eq_ok {tag : UInt8} {rest : Bytes} {v : T} {o : PodCOption Pubkey} :
    decodeInstructionDataWithCOptionPubkey T (tag :: rest) = .ok (v, o) ↔
      ∃ k r, o = .ofOption k ∧
        rest = Pod.toBytes v ++ (TokenInstruction.packPubkeyOption k ++ r) := by
  simp only [decodeInstructionDataWithCOptionPubkey, bind_eq_ok, exists_unit, failIf_eq_ok,
    decide_eq_false_iff_not, not_lt, List.length_cons, Nat.add_le_add_iff_right, pure_eq_ok,
    Prod.mk.injEq, List.drop_succ_cons, slice, List.drop_zero, Nat.add_sub_cancel,
    unpackPubkeyOption_eq_ok]
  constructor
  · rintro ⟨hlen, _, ⟨k, r, rfl, hrest⟩, rfl, rfl⟩
    refine ⟨k, r, rfl, ?_⟩
    rw [← hrest, Pod.toBytes_ofBytes, List.take_append_drop]
    rw [List.length_take, Nat.min_eq_left hlen]
  · rintro ⟨k, r, rfl, rfl⟩
    have hv : (Pod.toBytes v).length = Pod.size T := Pod.length_toBytes v
    refine ⟨?_, _, ⟨k, r, rfl, List.drop_left' hv⟩, ?_, rfl⟩
    · rw [List.length_append, hv]
      omega
    · rw [List.take_left' hv, Pod.ofBytes_toBytes]

end Readers

@[simp] theorem toOption_ofOption (k : Option Pubkey) : (PodCOption.ofOption k).toOption = k := by
  cases k with
  | none => rfl
  | some k => rfl

theorem toBytes_initializeMintData (d : InitializeMintData) :
    Pod.toBytes d = d.decimals :: Pod.toBytes d.mintAuthority := by
  show Pod.toBytes d.decimals ++ Pod.toBytes d.mintAuthority = _
  rw [Pod.toBytes_uint8, List.singleton_append]

theorem toBytes_initializeMultisigData (d : InitializeMultisigData) : Pod.toBytes d = [d.m] :=
  Pod.toBytes_uint8 d.m

theorem toBytes_amountData (d : AmountData) : Pod.toBytes d = Pod.toBytes d.amount := rfl

theorem toBytes_amountCheckedData (d : AmountCheckedData) :
    Pod.toBytes d = Pod.toBytes d.amount ++ [d.decimals] := by
  show Pod.toBytes d.amount ++ Pod.toBytes d.decimals = _
  rw [Pod.toBytes_uint8]

theorem toBytes_setAuthorityData (d : SetAuthorityData) : Pod.toBytes d = [d.authorityType] :=
  Pod.toBytes_uint8 d.authorityType

open TokenInstruction (unpackTag unpackPubkey_append unpackPubkeyOption_append
  unpackAmountDecimals_append unpackPubkey_toBytes unpackU64_toBytes splitFirst_cons unpack_cons)

/-- Whatever the dispatcher decodes, the documented decoder describes. -/
theorem unpack_of_decode {input : Bytes} {s : Selected} (h : decode input = .ok s) :
    ∃ i, TokenInstruction.unpack input = .ok i ∧ s = i.selected (input.drop 1) := by
  cases input with
  | nil => cases h
  | cons tag rest =>
    simp only [decode, decodeInstructionType, bind_eq_ok, okOr_eq_ok] at h
    obtain ⟨t, ht, h⟩ := h
    rw [unpack_cons, PodTokenInstruction.ofU8_eq_some ht, List.drop_succ_cons, List.drop_zero]
    cases t with
    | initializeMint | initializeMint2 =>
      simp only [select, bind_eq_ok, Prod.exists, pure_eq_ok, decodeWithCOption_eq_ok] at h
      obtain ⟨data, _, ⟨k, r, rfl, rfl⟩, rfl⟩ := h
      rw [toBytes_initializeMintData]
      simp only [PodTokenInstruction.ctorIdx, unpackTag, List.cons_append, splitFirst_cons, ok_bind,
        unpackPubkey_append, unpackPubkeyOption_append]
      exact ⟨_, rfl, by rw [toOption_ofOption]; rfl⟩
    | transfer | approve | mintTo | burn | amountToUiAmount =>
      simp only [select, bind_eq_ok, pure_eq_ok, decodeInstructionData_eq_ok] at h
      obtain ⟨data, rfl, rfl⟩ := h
      rw [toBytes_amountData]
      simp only [PodTokenInstruction.ctorIdx, unpackTag, unpackU64_toBytes]
      exact ⟨_, rfl, rfl⟩
    | transferChecked | approveChecked | mintToChecked | burnChecked =>
      simp only [select, bind_eq_ok, pure_eq_ok, decodeInstructionData_eq_ok] at h
      obtain ⟨data, rfl, rfl⟩ := h
      rw [toBytes_amountCheckedData]
      simp only [PodTokenInstruction.ctorIdx, unpackTag, unpackAmountDecimals_append]
      exact ⟨_, rfl, rfl⟩
    | initializeAccount2 | initializeAccount3 | initializePermanentDelegate =>
      simp only [select, bind_eq_ok, pure_eq_ok, decodeInstructionData_eq_ok] at h
      obtain ⟨key, rfl, rfl⟩ := h
      simp only [PodTokenInstruction.ctorIdx, unpackTag, unpackPubkey_toBytes]
      exact ⟨_, rfl, rfl⟩
    | initializeMultisig | initializeMultisig2 =>
      simp only [select, bind_eq_ok, pure_eq_ok, decodeInstructionData_eq_ok] at h
      obtain ⟨data, rfl, rfl⟩ := h
      rw [toBytes_initializeMultisigData]
      exact ⟨_, rfl, rfl⟩
    | setAuthority =>
      simp only [select, bind_eq_ok, Prod.exists, pure_eq_ok, decodeWithCOption_eq_ok] at h
      obtain ⟨data, _, ⟨k, r, rfl, rfl⟩, authorityType, htype, rfl⟩ := h
      rw [toBytes_setAuthorityData]
      simp only [PodTokenInstruction.ctorIdx, unpackTag, List.singleton_append, splitFirst_cons,
        ok_bind, htype, unpackPubkeyOption_append]
      exact ⟨_, rfl, by rw [toOption_ofOption]; rfl⟩
    | initializeMintCloseAuthority =>
      simp only [select, bind_eq_ok, Prod.exists, pure_eq_ok, decodeWithCOption_eq_ok] at h
      obtain ⟨_, _, ⟨k, r, rfl, rfl⟩, rfl⟩ := h
      have hunit : Pod.toBytes () = [] := rfl
      simp only [PodTokenInstruction.ctorIdx, unpackTag, hunit, List.nil_append,
        unpackPubkeyOption_append]
      exact ⟨_, rfl, by rw [toOption_ofOption]; rfl⟩
    | getAccountDataSize | reallocate =>
      simp only [select, bind_eq_ok, pure_eq_ok, List.drop_succ_cons, List.drop_zero] at h
      obtain ⟨types, htypes, rfl⟩ := h
      simp only [PodTokenInstruction.ctorIdx, unpackTag, ExtensionType.unpackList, htypes]
      exact ⟨_, rfl, rfl⟩
    | uiAmountToAmount =>
      simp only [select, bind_eq_ok, pure_eq_ok, okOr_eq_ok, List.drop_succ_cons,
        List.drop_zero] at h
      obtain ⟨uiAmount, hstr, rfl⟩ := h
      simp only [PodTokenInstruction.ctorIdx, unpackTag, hstr]
      exact ⟨_, rfl, rfl⟩
    | _ => exact ⟨_, rfl, (Except.ok.inj h).symm⟩

theorem decode_cons {tag : UInt8} {rest : Bytes} {t : PodTokenInstruction}
    (h : PodTokenInstruction.ofU8 tag = some t) :
    decode (tag :: rest) = select (tag :: rest) t := by
  rw [decode, decodeInstructionType, h]
  rfl

/-- What the encoder writes, the dispatcher decodes to the same handler. -/
theorem decode_pack (i : TokenInstruction) : decode i.pack = .ok (i.selected []) := by
  cases i with
  | initializeMint d m f | initializeMint2 d m f =>
    refine (decode_cons rfl).trans ?_
    simp only [select, bind_eq_ok, Prod.exists, pure_eq_ok, decodeWithCOption_eq_ok]
    refine ⟨⟨d, m⟩, _, ⟨f, [], rfl, ?_⟩, by rw [toOption_ofOption]; rfl⟩
    rw [toBytes_initializeMintData, List.append_nil, List.cons_append]
  | transfer n | approve n | mintTo n | burn n | amountToUiAmount n =>
    refine (decode_cons rfl).trans ?_
    simp only [select, bind_eq_ok, pure_eq_ok, decodeInstructionData_eq_ok]
    exact ⟨⟨n⟩, (toBytes_amountData _).symm, rfl⟩
  | transferChecked n d | approveChecked n d | mintToChecked n d | burnChecked n d =>
    refine (decode_cons rfl).trans ?_
    simp only [select, bind_eq_ok, pure_eq_ok, decodeInstructionData_eq_ok]
    exact ⟨⟨n, d⟩, (toBytes_amountCheckedData ⟨n, d⟩).symm, rfl⟩
  | initializeAccount2 k | initializeAccount3 k | initializePermanentDelegate k =>
    refine (decode_cons rfl).trans ?_
    simp only [select, bind_eq_ok, pure_eq_ok, decodeInstructionData_eq_ok]
    exact ⟨k, rfl, rfl⟩
  | initializeMultisig m | initializeMultisig2 m =>
    refine (decode_cons rfl).trans ?_
    simp only [select, bind_eq_ok, pure_eq_ok, decodeInstructionData_eq_ok]
    exact ⟨⟨m⟩, (toBytes_initializeMultisigData _).symm, rfl⟩
  | setAuthority t f =>
    refine (decode_cons rfl).trans ?_
    simp only [select, bind_eq_ok, Prod.exists, pure_eq_ok, decodeWithCOption_eq_ok]
    refine ⟨⟨t.into⟩, _, ⟨f, [], rfl, ?_⟩, t, AuthorityType.ofU8_into t, ?_⟩
    · rw [toBytes_setAuthorityData, List.append_nil, List.singleton_append]
    · rw [toOption_ofOption]
      rfl
  | initializeMintCloseAuthority f =>
    refine (decode_cons rfl).trans ?_
    simp only [select, bind_eq_ok, Prod.exists, pure_eq_ok, decodeWithCOption_eq_ok]
    refine ⟨(), _, ⟨f, [], rfl, ?_⟩, by rw [toOption_ofOption]; rfl⟩
    rw [List.append_nil]
    rfl
  | getAccountDataSize types | reallocate types =>
    refine (decode_cons rfl).trans ?_
    have htypes := ExtensionType.unpackList_flatMap types
    rw [ExtensionType.unpackList] at htypes
    simp only [select, List.drop_succ_cons, List.drop_zero, htypes]
    rfl
  | uiAmountToAmount s =>
    refine (decode_cons rfl).trans ?_
    simp only [select, List.drop_succ_cons, List.drop_zero, strFromUtf8_strBytes]
    rfl
  | _ => rfl

/-- The transfer-fee processor reads back what the encoder of its instructions writes. -/
theorem decodeTransferFee_pack (f : TransferFeeInstruction) :
    decodeTransferFee f.pack = .ok f.selected := by
  rw [decodeTransferFee, TransferFeeInstruction.unpack_pack]
  rfl

theorem decode_transferFee (f : TransferFeeInstruction) :
    decode (TokenInstruction.transferFeeExtension.pack ++ f.pack) =
      .ok (.extension .transferFeeExtension f.pack) := rfl

/-- The encoder, the documented decoder and the dispatcher agree. -/
theorem decoders_agree :
    (∀ i : TokenInstruction, TokenInstruction.unpack i.pack = .ok i) ∧
    (∀ f : TransferFeeInstruction, TransferFeeInstruction.unpack f.pack = .ok f) ∧
    (∀ i : TokenInstruction, decode i.pack = .ok (i.selected [])) ∧
    (∀ f : TransferFeeInstruction,
      decode (TokenInstruction.transferFeeExtension.pack ++ f.pack) =
          .ok (.extension .transferFeeExtension f.pack) ∧
        decodeTransferFee f.pack = .ok f.selected) ∧
    ∀ input s, decode input = .ok s →
      ∃ i, TokenInstruction.unpack input = .ok i ∧ s = i.selected (input.drop 1) :=
  ⟨TokenInstruction.unpack_pack, TransferFeeInstruction.unpack_pack, decode_pack,
    fun f => ⟨decode_transferFee f, decodeTransferFee_pack f⟩, fun _ _ => unpack_of_decode⟩

end Processor

end SolanaEasy.Token
