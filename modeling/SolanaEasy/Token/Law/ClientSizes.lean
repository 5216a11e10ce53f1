import SolanaEasy.Token.Law.AccountSize
import SolanaEasy.Token.Law.ClientReader

/-!
# The client's sizes — how long an account or a mint is made

`extensionType.ts` keeps its own table of sizes, its own map from the extensions of a mint to
those of an account and its own step over the length of a multisig. Beside them stand
`get_required_init_account_extensions` and `try_get_new_account_len_for_extension_len`.
-/

namespace SolanaEasy.Token

namespace Client

/-! ## Types and their sizes -/

/-- The enumeration of the client, which has no number 16, 17 or 24. -/
inductive ExtensionType where
  | uninitialized
  | transferFeeConfig
  | transferFeeAmount
  | mintCloseAuthority
  | confidentialTransferMint
  | confidentialTransferAccount
  | defaultAccountState
  | immutableOwner
  | memoTransfer
  | nonTransferable
  | interestBearingConfig
  | cpiGuard
  | permanentDelegate
  | nonTransferableAccount
  | transferHook
  | transferHookAccount
  | metadataPointer
  | tokenMetadata
  | groupPointer
  | tokenGroup
  | groupMemberPointer
  | tokenGroupMember
  | scaledUiAmountConfig
  | pausableConfig
  | pausableAccount
deriving DecidableEq

/-- The members with their numbers. -/
def ExtensionType.numbers : List (ℕ × ExtensionType) :=
  [(0, uninitialized), (1, transferFeeConfig), (2, transferFeeAmount), (3, mintCloseAuthority),
    (4, confidentialTransferMint), (5, confidentialTransferAccount), (6, defaultAccountState),
    (7, immutableOwner), (8, memoTransfer), (9, nonTransferable), (10, interestBearingConfig),
    (11, cpiGuard), (12, permanentDelegate), (13, nonTransferableAccount), (14, transferHook),
    (15, transferHookAccount), (18, metadataPointer), (19, tokenMetadata), (20, groupPointer),
    (21, tokenGroup), (22, groupMemberPointer), (23, tokenGroupMember),
    (25, scaledUiAmountConfig), (26, pausableConfig), (27, pausableAccount)]

/-- The member that a number is compared equal to in a `switch`. -/
def ExtensionType.ofNumber? (e : ℕ) : Option ExtensionType := numbers.lookup e

/-- What a template string makes of a number or of `undefined`. -/
def shown : Option ℕ → String
  | some e => toString e
  | none => "undefined"

/-- The constants of `@solana/spl-token-group`. -/
structure SplTokenGroup where
  tokenGroupSize : ℕ
  tokenGroupMemberSize : ℕ

def accountTypeSize : ℕ := 1

def typeSize : ℕ := 2

/-- The span of `MintLayout`. -/
def mintSize : ℕ := 4 + 32 + 8 + 1 + 1 + 4 + 32

/-- The span of `AccountLayout`. -/
def accountSize : ℕ := 32 + 32 + 8 + 4 + 32 + 1 + 4 + 8 + 8 + 4 + 32

/-- The span of `MultisigLayout`. -/
def multisigSize : ℕ := 1 + 1 + 1 + 11 * 32

def isVariableLengthExtension (e : ℕ) : Bool :=
  match ExtensionType.ofNumber? e with
  | some .tokenMetadata => true
  | _ => false

section Sizes

variable (pkg : SplTokenGroup)

/-- `getTypeLen`: the spans of the layouts, field by field. -/
def getTypeLen (e : Option ℕ) : Except Thrown ℕ :=
  match e.bind ExtensionType.ofNumber? with
  | some .uninitialized => .ok 0
  | some .transferFeeConfig => .ok (32 + 32 + 8 + (8 + 8 + 2) + (8 + 8 + 2))
  | some .transferFeeAmount => .ok 8
  | some .mintCloseAuthority => .ok 32
  | some .confidentialTransferMint => .ok 65
  | some .confidentialTransferAccount => .ok 295
  | some .cpiGuard => .ok 1
  | some .defaultAccountState => .ok 1
  | some .immutableOwner => .ok 0
  | some .memoTransfer => .ok 1
  | some .metadataPointer => .ok (32 + 32)
  | some .nonTransferable => .ok 0
  | some .interestBearingConfig => .ok (32 + 8 + 2 + 8 + 2)
  | some .permanentDelegate => .ok 32
  | some .nonTransferableAccount => .ok 0
  | some .transferHook => .ok (32 + 32)
  | some .transferHookAccount => .ok 1
  | some .groupPointer => .ok (32 + 32)
  | some .groupMemberPointer => .ok (32 + 32)
  | some .tokenGroup => .ok pkg.tokenGroupSize
  | some .tokenGroupMember => .ok pkg.tokenGroupMemberSize
  | some .scaledUiAmountConfig => .ok (32 + 8 + 8 + 8)
  | some .pausableConfig => .ok (32 + 1)
  | some .pausableAccount => .ok 0
  | some .tokenMetadata =>
    .error (.error ("Cannot get type length for variable extension type: " ++ shown e))
  | none => .error (.error ("Unknown extension type: " ++ shown e))

/-- `none` is the `undefined` of a number that no case names. -/
def getAccountTypeOfMintType (e : ℕ) : Option ℕ :=
  (ExtensionType.ofNumber? e).map fun t =>
    match t with
    | .transferFeeConfig => 2
    | .confidentialTransferMint => 5
    | .nonTransferable => 13
    | .transferHook => 15
    | .pausableConfig => 27
    | _ => 0

/-- `filter((element, i) => i === extensionTypes.indexOf(element))`. -/
def distinct (extensionTypes : List (Option ℕ)) : List (Option ℕ) :=
  (extensionTypes.zipIdx.filter fun p => p.2 == extensionTypes.idxOf p.1).map (·.1)

def getLen (extensionTypes : List (Option ℕ)) (baseSize : ℕ)
    (variableLengthExtensions : List (ℕ × ℕ)) : Except Thrown ℕ :=
  if extensionTypes.isEmpty && variableLengthExtensions.isEmpty then .ok baseSize
  else do
    let lens ← (distinct extensionTypes).mapM fun element => do
      return addTypeAndLengthToLen (← getTypeLen pkg element)
    let variableLens ← variableLengthExtensions.mapM fun (extension, len) =>
      if isVariableLengthExtension extension then .ok (addTypeAndLengthToLen len)
      else .error (.error ("Extension " ++ toString extension ++ " is not variable length"))
    let accountLength := accountSize + accountTypeSize + lens.sum + variableLens.sum
    if accountLength == multisigSize then return accountLength + typeSize
    else return accountLength

def getMintLen (extensionTypes : List (Option ℕ)) (variableLengthExtensions : List (ℕ × ℕ)) :
    Except Thrown ℕ :=
  getLen pkg extensionTypes mintSize variableLengthExtensions

def getAccountLen (extensionTypes : List (Option ℕ)) : Except Thrown ℕ :=
  getLen pkg extensionTypes accountSize []

end Sizes

/-! ## The mint -/

structure Mint where
  address : Pubkey
  mintAuthority : Option Pubkey
  supply : UInt64
  decimals : UInt8
  isInitialized : Bool
  freezeAuthority : Option Pubkey
  tlvData : Bytes

/-- `option ? value : null`. -/
def orNull (o : PodCOption Pubkey) : Option Pubkey := if o.option != 0 then some o.value else none

/-- The extension data that `unpackMint` cuts out. -/
def mintTlvData (data : Bytes) : Except Thrown Bytes :=
  if data.length > mintSize then do
    failIf (decide (data.length ≤ accountSize)) .tokenInvalidAccountSizeError
    failIf (data.length == multisigSize) .tokenInvalidAccountSizeError
    failIf (data[accountSize]? != some AccountType.mint.toU8) .tokenInvalidMintError
    return data.drop (accountSize + accountTypeSize)
  else .ok []

def unpackMint (address : Pubkey) (info : Option Cell) (programId : Pubkey) :
    Except Thrown Mint := do
  let info ← okOr .tokenAccountNotFoundError info
  failIf (info.owner != programId) .tokenInvalidAccountOwnerError
  failIf (decide (info.data.length < mintSize)) .tokenInvalidAccountSizeError
  let rawMint : PodMint := Pod.ofBytes (slice info.data 0 mintSize)
  let tlvData ← mintTlvData info.data
  return ⟨address, orNull rawMint.mintAuthority, rawMint.supply, rawMint.decimals,
    rawMint.isInitialized, orNull rawMint.freezeAuthority, tlvData⟩

/-- The `accountExtensions` of `getAccountLenForMint`. -/
def accountExtensions (mint : Mint) : Except Thrown (List (Option ℕ)) := do
  let extensionTypes ← getExtensionTypes mint.tlvData
  return extensionTypes.map getAccountTypeOfMintType

def getAccountLenForMint (pkg : SplTokenGroup) (mint : Mint) : Except Thrown ℕ := do
  let accountExtensions ← accountExtensions mint
  getAccountLen pkg accountExtensions

/-- What is found lies within the data, so that the difference is no negative number. -/
def getNewAccountLenForExtensionLen (info : Cell) (address : Pubkey)
    (extensionType : Token.ExtensionType) (extensionLen : ℕ) (programId : Pubkey) :
    Except Thrown ℕ := do
  let mint ← unpackMint address (some info) programId
  let extensionData ← getExtensionData extensionType mint.tlvData
  let currentExtensionLen :=
    (extensionData.map (addTypeAndLengthToLen ·.length)).getD 0
  let newExtensionLen := addTypeAndLengthToLen extensionLen
  return info.data.length + newExtensionLen - currentExtensionLen

/-! ## The table and the map -/

/-- The client has the type. -/
def Supports (t : Token.ExtensionType) : Prop := (ExtensionType.ofNumber? t.toNat).isSome = true

/-- The types whose size is a constant of this package. -/
def Tabled (t : Token.ExtensionType) : Prop :=
  Supports t ∧ t ≠ .tokenMetadata ∧ t ≠ .tokenGroup ∧ t ≠ .tokenGroupMember

theorem Tabled.sized {t : Token.ExtensionType} (ht : Tabled t) : t.sized = true := by
  have hne := ht.2.1
  cases t <;> first | rfl | exact absurd rfl hne

/-- What `getAccountTypeOfMintType` makes of a type. -/
def accountTypeOf : Token.ExtensionType → Token.ExtensionType
  | .transferFeeConfig => .transferFeeAmount
  | .confidentialTransferMint => .confidentialTransferAccount
  | .nonTransferable => .nonTransferableAccount
  | .transferHook => .transferHookAccount
  | .pausable => .pausableAccount
  | _ => .uninitialized

/-- A type as a number of the client. -/
def code (t : Token.ExtensionType) : Option ℕ := some t.toNat

theorem code_injective : Function.Injective code := fun _ _ h =>
  ExtensionType.toNat_injective (Option.some.inj h)

/-- The table has the sizes of the program. -/
theorem getTypeLen_eq (pkg : SplTokenGroup) {t : Token.ExtensionType} (ht : Tabled t) :
    getTypeLen pkg (code t) = .ok t.typeLen := by
  obtain ⟨hsupports, hmetadata, hgroup, hmember⟩ := ht
  cases t with
  | tokenMetadata => exact absurd rfl hmetadata
  | tokenGroup => exact absurd rfl hgroup
  | tokenGroupMember => exact absurd rfl hmember
  | _ => first | rfl | cases hsupports

theorem getAccountTypeOfMintType_eq {t : Token.ExtensionType} (ht : Supports t) :
    getAccountTypeOfMintType t.toNat = code (accountTypeOf t) := by
  cases t <;> first | rfl | cases ht

theorem tabled_accountTypeOf (t : Token.ExtensionType) : Tabled (accountTypeOf t) := by
  cases t <;> exact ⟨rfl, by decide, by decide, by decide⟩

/-- The map has every extension that an account needs, but for one of `NonTransferable`. -/
theorem required_subset {t u : Token.ExtensionType} (ht : t ≠ .nonTransferable)
    (hu : u ∈ t.requiredInitAccountExtensions) : u = accountTypeOf t := by
  cases t with
  | nonTransferable => exact absurd rfl ht
  | transferFeeConfig => exact List.mem_singleton.mp hu
  | transferHook => exact List.mem_singleton.mp hu
  | pausable => exact List.mem_singleton.mp hu
  | _ => cases hu

theorem accountTypeOf_ne_immutableOwner (t : Token.ExtensionType) :
    accountTypeOf t ≠ .immutableOwner := by
  cases t <;> decide

/-! ## Lengths -/

section Len

variable {l : List (Option ℕ)}

theorem mem_distinct {e : Option ℕ} : e ∈ distinct l ↔ e ∈ l := by
  rw [distinct, List.mem_map]
  constructor
  · rintro ⟨p, hp, rfl⟩
    have hget := List.mem_zipIdx_iff_getElem?.mp (List.mem_filter.mp hp).1
    exact List.mem_of_getElem? hget
  · intro he
    have hget : l[l.idxOf e]? = some e := List.getElem?_idxOf he
    exact ⟨(e, l.idxOf e), List.mem_filter.mpr ⟨List.mk_mem_zipIdx_iff_getElem?.mpr hget,
      beq_self_eq_true _⟩, rfl⟩

theorem nodup_distinct : (distinct l).Nodup := by
  have hplaces : (l.zipIdx.map Prod.snd).Nodup := by
    rw [List.zipIdx_map_snd]
    exact List.nodup_range'
  have hall : l.zipIdx.Nodup := hplaces.of_map
  refine (hall.filter _).map_on ?_
  -- two places of one element are both the first place
  rintro ⟨x, i⟩ hx ⟨y, j⟩ hy hxy
  have hi := eq_of_beq (List.mem_filter.mp hx).2
  have hj := eq_of_beq (List.mem_filter.mp hy).2
  obtain rfl : x = y := hxy
  rw [show i = j from hi.trans hj.symm]

theorem distinct_perm (ts : List Token.ExtensionType) :
    (distinct (ts.map code)).Perm (ts.dedup.map code) := by
  rw [List.perm_ext_iff_of_nodup nodup_distinct
    ((List.nodup_dedup ts).map code_injective)]
  intro e
  simp only [mem_distinct, List.mem_map, List.mem_dedup]

/-- For types of its table the client calculates what the program calculates. -/
theorem getLen_eq (pkg : SplTokenGroup) {S : Type} [BaseState S] {ts : List Token.ExtensionType}
    (h : ∀ t ∈ ts, Tabled t) :
    ∃ n, getLen pkg (ts.map code) (Pod.size S) [] = .ok n ∧
      tryCalculateAccountLen S ts = .ok n := by
  by_cases hnil : ts = []
  · subst hnil
    exact ⟨Pod.size S, rfl, rfl⟩
  have hsized : ∀ t ∈ ts, t.sized = true := fun t ht => (h t ht).sized
  let lenOf : Option ℕ → ℕ := fun e =>
    addTypeAndLengthToLen (((e.bind Token.ExtensionType.ofNat?).map (·.typeLen)).getD 0)
  have hlenOf : ∀ t, lenOf (code t) = addTypeAndLengthToLen t.typeLen := by
    intro t
    simp only [lenOf, code, Option.bind_some, ExtensionType.ofNat?_toNat, Option.map_some,
      Option.getD_some]
  have hlens : (distinct (ts.map code)).mapM (fun element => do
      return addTypeAndLengthToLen (← getTypeLen pkg element)) =
        .ok ((distinct (ts.map code)).map lenOf) := by
    refine mapM_eq_ok_map fun e he => ?_
    obtain ⟨t, ht, rfl⟩ := List.mem_map.mp (mem_distinct.mp he)
    rw [getTypeLen_eq pkg (h t ht), hlenOf]
    rfl
  have hsum : ((distinct (ts.map code)).map lenOf).sum = tlvLen ts.dedup := by
    rw [((distinct_perm ts).map lenOf).sum_eq, List.map_map, tlvLen]
    exact congrArg List.sum (List.map_congr_left fun t _ => hlenOf t)
  refine ⟨_, ?_, tryCalculateAccountLen_eq hsized hnil⟩
  have hempty : (ts.map code).isEmpty = false := by
    rw [List.isEmpty_eq_false_iff, ne_eq, List.map_eq_nil_iff]
    exact hnil
  rw [getLen, hempty, hlens]
  simp only [Bool.false_and, Bool.false_eq_true, if_false, ok_bind, List.mapM_nil, pure_bind,
    hsum, List.sum_nil, Nat.add_zero]
  have hlen : accountSize + accountTypeSize + tlvLen ts.dedup =
      tlvLen ts.dedup + (accountLen + 1) := Nat.add_comm _ _
  rw [hlen, adjustLenForMultisig]
  exact (apply_ite Except.ok _ _ _).symm

theorem getMintLen_eq (pkg : SplTokenGroup) {ts : List Token.ExtensionType}
    (h : ∀ t ∈ ts, Tabled t) :
    ∃ n, getMintLen pkg (ts.map code) [] = .ok n ∧ tryCalculateAccountLen PodMint ts = .ok n :=
  getLen_eq pkg (S := PodMint) h

end Len

/-! ## The mint on the ledger -/

section OnLedger

variable {σ : Ledger} {k : Pubkey} {s : PodState PodMint} {d : TlvData}

/-- The data behind the base and the type byte are those that the program reads. -/
theorem mintTlvData_bytes (hp : s.Packed) : mintTlvData s.bytes = .ok s.tlvData := by
  have hbase : (Pod.toBytes s.base).length = mintSize := Pod.length_toBytes s.base
  rcases hp.layout with ⟨hat, htlv⟩ | hat
  · have hlen : ¬ s.bytes.length > mintSize := by
      rw [PodState.bytes_of_isEmpty hat, hbase]
      exact Nat.lt_irrefl mintSize
    rw [mintTlvData, if_neg hlen, htlv]
  · have hbytes := PodState.bytes_of_accountType hat
    have hhead : (Pod.toBytes s.base ++ zeros (accountLen - Pod.size PodMint)).length =
        accountSize := by
      rw [List.length_append, List.length_replicate, hbase]
      rfl
    rw [← List.append_assoc] at hbytes
    have hlong : accountSize < s.bytes.length := by
      rw [hbytes, List.length_append, hhead, List.length_append, List.length_singleton]
      omega
    have hsmall : mintSize < accountSize := by decide
    have htype : s.bytes[accountSize]? = some AccountType.mint.toU8 := by
      rw [hbytes, List.getElem?_append_right (Nat.le_of_eq hhead), hhead, Nat.sub_self,
        List.singleton_append, List.getElem?_cons_zero]
      rfl
    have hdrop : s.bytes.drop (accountSize + accountTypeSize) = s.tlvData := by
      rw [hbytes, ← List.drop_drop, ← hhead, List.drop_left]
      rfl
    have hmultisig : (s.bytes.length == multisigSize) = false :=
      beq_eq_false_iff_ne.mpr hp.length_ne
    rw [mintTlvData, if_pos (hsmall.trans hlong), decide_eq_false (Nat.not_le.mpr hlong),
      hmultisig, htype, hdrop]
    rfl

theorem unpackMint_ok (howner : (σ k).owner = Keys.tokenProgram)
    (hload : load σ PodMint k = .ok s) :
    ∃ mint, unpackMint k (some (σ k)) Keys.tokenProgram = .ok mint ∧ mint.tlvData = s.tlvData := by
  have hp := packed_of_load hload
  have hdata := data_of_load hload
  have hlen : ¬ (σ k).data.length < mintSize := by
    have hcases := s.length_bytes
    rw [hdata, hcases]
    have hsmall : mintSize ≤ accountLen := by decide
    split
    · exact Nat.lt_irrefl mintSize
    · omega
  have htlv : mintTlvData (σ k).data = .ok s.tlvData := hdata ▸ mintTlvData_bytes hp
  simp only [unpackMint, okOr, ok_bind, howner, bne_self_eq_false, decide_eq_false hlen, htlv,
    failIf, Bool.false_eq_true, if_false]
  exact ⟨_, rfl, rfl⟩

/-- The mint is sized as the program asks for: the account is long enough for what
`InitializeAccount` puts in, and the client has counted each of these extensions. -/
def CoversRequired (pkg : SplTokenGroup) (σ : Ledger) (k : Pubkey) : Prop :=
  ∃ (mint : Mint) (added : List (Option ℕ)) (len : ℕ) (required : List Token.ExtensionType)
    (requiredLen : ℕ),
    unpackMint k (some (σ k)) Keys.tokenProgram = .ok mint ∧ accountExtensions mint = .ok added ∧
      getAccountLenForMint pkg mint = .ok len ∧
        Processor.getRequiredAccountExtensions σ k = .ok required ∧
          tryCalculateAccountLen PodAccount required = .ok requiredLen ∧
            requiredLen ≤ len ∧ ∀ t ∈ required, code t ∈ added

/-- Both expect the same length of a mint with `n` bytes for the type. -/
def NewLenAgrees (σ : Ledger) (k : Pubkey) (t : Token.ExtensionType) (n : ℕ) : Prop :=
  ∃ (s : PodState PodMint) (len : ℕ), load σ PodMint k = .ok s ∧
    tryGetNewAccountLenForExtensionLen PodMint t s.tlvData n = .ok len ∧
      getNewAccountLenForExtensionLen (σ k) k t n Keys.tokenProgram = .ok len

/-- What the client adds: one type for each entry, and one for each four bytes behind them. -/
theorem accountExtensions_eq {mint : Mint} (hmint : mint.tlvData = d.bytes)
    (hsupports : ∀ t ∈ d.types, Supports t) :
    accountExtensions mint = if d.padding % 4 = 0 then
      .ok ((d.types.map accountTypeOf ++
        List.replicate (d.padding / 4) Token.ExtensionType.uninitialized).map code)
      else .error .rangeError := by
  rw [accountExtensions, hmint, getExtensionTypes_bytes]
  by_cases hmod : d.padding % 4 = 0
  · have htypes : (d.types.map Token.ExtensionType.toNat).map getAccountTypeOfMintType =
        (d.types.map accountTypeOf).map code := by
      rw [List.map_map, List.map_map]
      exact List.map_congr_left fun t ht => getAccountTypeOfMintType_eq (hsupports t ht)
    rw [if_pos hmod, if_pos hmod, ok_bind, List.map_append, htypes, List.map_replicate,
      List.map_append, List.map_replicate]
    rfl
  · rw [if_neg hmod, if_neg hmod]
    rfl

theorem required_ok (howner : (σ k).owner = Keys.tokenProgram)
    (hload : load σ PodMint k = .ok s) (hs : s.tlvData = d.bytes) :
    Processor.getRequiredAccountExtensions σ k =
      .ok (Token.ExtensionType.getRequiredInitAccountExtensions d.types) := by
  rw [Processor.getRequiredAccountExtensions, hload, mapErr, ok_bind,
    Processor.getRequiredAccountExtensionsFromUnpackedMint, howner, PodState.getExtensionTypes, hs,
    d.getTlvDataInfo_bytes]
  rfl

/-- Without `NonTransferable` nothing is left out, and with it `ImmutableOwner` is. -/
theorem coversRequired_iff (pkg : SplTokenGroup) (howner : (σ k).owner = Keys.tokenProgram)
    (hload : load σ PodMint k = .ok s) (hs : s.tlvData = d.bytes)
    (hsupports : ∀ t ∈ d.types, Supports t) :
    CoversRequired pkg σ k ↔ d.padding % 4 = 0 ∧ .nonTransferable ∉ d.types := by
  obtain ⟨mint, hmint, htlv⟩ := unpackMint_ok howner hload
  have hrequired := required_ok howner hload hs
  have hadded := accountExtensions_eq (htlv.trans hs) hsupports
  constructor
  · rintro ⟨mint', added, len, required, requiredLen, hmint', hadded', _, hrequired', _, _, hall⟩
    obtain rfl := Except.ok.inj (hmint.symm.trans hmint')
    obtain rfl := Except.ok.inj (hrequired.symm.trans hrequired')
    by_cases hmod : d.padding % 4 = 0
    · refine ⟨hmod, fun hmem => ?_⟩
      rw [if_pos hmod, hadded', Except.ok.injEq] at hadded
      have hsome : .immutableOwner ∈ Token.ExtensionType.getRequiredInitAccountExtensions d.types :=
        List.mem_flatMap.mpr ⟨.nonTransferable, hmem, by decide⟩
      have hin := hall _ hsome
      rw [hadded, List.mem_map_of_injective code_injective, List.mem_append, List.mem_map] at hin
      rcases hin with ⟨t, _, ht⟩ | hin
      · exact absurd ht (accountTypeOf_ne_immutableOwner t)
      · cases List.eq_of_mem_replicate hin
    · rw [if_neg hmod, hadded'] at hadded
      cases hadded
  · rintro ⟨hmod, hnone⟩
    rw [if_pos hmod] at hadded
    obtain ⟨us, hus⟩ : ∃ us, us = d.types.map accountTypeOf ++
        List.replicate (d.padding / 4) Token.ExtensionType.uninitialized := ⟨_, rfl⟩
    rw [← hus] at hadded
    have htabled : ∀ t ∈ us, Tabled t := by
      intro t ht
      rw [hus, List.mem_append, List.mem_map] at ht
      rcases ht with ⟨u, _, rfl⟩ | ht
      · exact tabled_accountTypeOf u
      · rw [List.eq_of_mem_replicate ht]
        exact ⟨rfl, by decide, by decide, by decide⟩
    have hsub : Token.ExtensionType.getRequiredInitAccountExtensions d.types ⊆ us := by
      intro u hu
      obtain ⟨t, ht, hmem⟩ := List.mem_flatMap.mp hu
      have hne : t ≠ .nonTransferable := fun he => hnone (he ▸ ht)
      rw [hus, required_subset hne hmem]
      exact List.mem_append_left _ (List.mem_map_of_mem ht)
    obtain ⟨len, hlen, hcalc⟩ := getLen_eq pkg (S := PodAccount) htabled
    obtain ⟨requiredLen, hrequiredLen, hle⟩ :=
      requiredLen_le hsub (fun t ht => (htabled t ht).sized) hcalc
    have hsize : getAccountLenForMint pkg mint = .ok len := by
      rw [getAccountLenForMint, hadded]
      exact hlen
    exact ⟨mint, us.map code, len, _, requiredLen, hmint, hadded, hsize, hrequired, hrequiredLen,
      hle, fun t ht => List.mem_map_of_mem (hsub ht)⟩

/-- The length of a mint with `n` bytes for the type, before that of a multisig is avoided. -/
def lenWith (d : TlvData) (t : Token.ExtensionType) (n : ℕ) : ℕ :=
  accountLen + 1 + (entriesBytes (d.others t)).length + addTypeAndLengthToLen n

/-- The program counts from the end of the entries, the client from the end of the data. -/
theorem newLenAgrees_iff {t : Token.ExtensionType} (n : ℕ) (ht : t ≠ .uninitialized)
    (howner : (σ k).owner = Keys.tokenProgram) (hload : load σ PodMint k = .ok s)
    (hs : s.tlvData = d.bytes) (hget : toOption (getExtensionBytes PodMint t d.bytes) = d.get t) :
    NewLenAgrees σ k t n ↔ (σ k).data.length ≠ Pod.size PodMint ∧
      d.padding = if lenWith d t n = multisigLen then 2 else 0 := by
  obtain ⟨mint, hmint, htlv⟩ := unpackMint_ok howner hload
  obtain ⟨current, hcurrent⟩ : ∃ c, c = ((d.get t).map (addTypeAndLengthToLen ·.length)).getD 0 :=
    ⟨_, rfl⟩
  have hused : d.usedLen = (entriesBytes (d.others t)).length + current := by
    rw [hcurrent]
    exact d.usedLen_eq t
  have hclient : getNewAccountLenForExtensionLen (σ k) k t n Keys.tokenProgram =
      .ok ((σ k).data.length + addTypeAndLengthToLen n - current) := by
    rw [getNewAccountLenForExtensionLen, hmint, ok_bind, htlv, hs,
      getExtensionData_bytes d fun h => absurd h ht, hcurrent]
    rfl
  have hprogram : tryGetNewAccountLenForExtensionLen PodMint t s.tlvData n =
      .ok (adjustLenForMultisig (lenWith d t n)) := by
    have hlen : d.usedLen + (accountLen + 1) - current + addTypeAndLengthToLen n =
        lenWith d t n := by
      rw [lenWith]
      omega
    rw [tryGetNewAccountLenForExtensionLen, hs, d.getTlvDataInfo_bytes, ok_bind, hget, ← hcurrent]
    exact congrArg (fun m => Except.ok (adjustLenForMultisig m)) hlen
  have hagrees : NewLenAgrees σ k t n ↔ adjustLenForMultisig (lenWith d t n) =
      (σ k).data.length + addTypeAndLengthToLen n - current := by
    constructor
    · rintro ⟨s', len, hload', hlen, hlen'⟩
      obtain rfl := Except.ok.inj (hload.symm.trans hload')
      rw [hprogram, Except.ok.injEq] at hlen
      rw [hclient, Except.ok.injEq] at hlen'
      rw [hlen, hlen']
    · exact fun h => ⟨s, _, hload, h ▸ hprogram, hclient⟩
  have hlength := s.length_bytes
  have hd := d.length_bytes
  rw [hs, hd] at hlength
  rw [hagrees, data_of_load hload]
  rcases (packed_of_load hload).layout with ⟨hat, htlv⟩ | hat
  · -- the program adds the room up to the base of an account
    rw [hat] at hlength
    have hbase : s.bytes.length = Pod.size PodMint := hlength
    have hnone : d.bytes.length = 0 := by rw [← hs, htlv]; rfl
    have hsmall : Pod.size PodMint < accountLen := by decide
    obtain ⟨hle, _⟩ := le_adjustLenForMultisig (lenWith d t n)
    rw [lenWith] at hle ⊢
    rw [hbase]
    exact iff_of_false (by omega) fun h => h.1 rfl
  · rw [hat] at hlength
    have hlong : s.bytes.length = accountLen + 1 + (d.usedLen + d.padding) := hlength
    have hsmall : Pod.size PodMint < accountLen := by decide
    have hdata : s.bytes.length + addTypeAndLengthToLen n - current =
        lenWith d t n + d.padding := by
      rw [lenWith]
      omega
    rw [hdata, adjustLenForMultisig]
    by_cases hmultisig : lenWith d t n = multisigLen
    · rw [hmultisig, beq_self_eq_true, if_pos rfl, if_pos rfl]
      omega
    · rw [beq_eq_false_iff_ne.mpr hmultisig, if_neg Bool.false_ne_true, if_neg hmultisig]
      omega

/-! ### Values -/

variable {pkg : SplTokenGroup} {t : Token.ExtensionType} {m n : ℕ}

theorem not_coversRequired_of_lt
    (hclient : (unpackMint k (some (σ k)) Keys.tokenProgram >>= getAccountLenForMint pkg) = .ok m)
    (hprogram : (Processor.getRequiredAccountExtensions σ k >>=
      tryCalculateAccountLen PodAccount) = .ok n) (hlt : m < n) : ¬ CoversRequired pkg σ k := by
  rintro ⟨mint, _, len, required, requiredLen, hmint, _, hlen, hrequired, hneeded, hle, _⟩
  rw [hmint, ok_bind, hlen, Except.ok.injEq] at hclient
  rw [hrequired, ok_bind, hneeded, Except.ok.injEq] at hprogram
  omega

theorem not_coversRequired_of_error {e : Thrown}
    (hclient : (unpackMint k (some (σ k)) Keys.tokenProgram >>= getAccountLenForMint pkg) =
      .error e) : ¬ CoversRequired pkg σ k := by
  rintro ⟨mint, _, len, _, _, hmint, _, hlen, _⟩
  rw [hmint, ok_bind, hlen] at hclient
  cases hclient

theorem not_newLenAgrees_of_ne {len : ℕ}
    (hclient : getNewAccountLenForExtensionLen (σ k) k t n Keys.tokenProgram = .ok m)
    (hprogram : (load σ PodMint k >>= fun s =>
      tryGetNewAccountLenForExtensionLen PodMint t s.tlvData n) = .ok len) (hne : m ≠ len) :
    ¬ NewLenAgrees σ k t n := by
  rintro ⟨s, both, hload, hlen, hlen'⟩
  rw [hclient, Except.ok.injEq] at hlen'
  rw [hload, ok_bind, hlen, Except.ok.injEq] at hprogram
  exact hne (hlen'.trans hprogram)

end OnLedger

end Client

/-- Where the sizes of the client are those of the program. An account for a mint is sized as
`InitializeAccount` asks for where the mint is transferable and nothing but whole headers of
zeros lie behind its entries; a new length is the program's where the mint has extensions and
its data end with the last of them, or two bytes behind it if the new length would be that of a
multisig. -/
theorem client_sizes_iff (rt : Runtime) (allow : Call → Prop) (σ : Ledger)
    (hreach : Reachable rt allow σ) (k : Pubkey) (howner : (σ k).owner = Keys.tokenProgram)
    (s : PodState PodMint) (hload : load σ PodMint k = .ok s) :
    ∃ d : TlvData, s.tlvData = d.bytes ∧
      (∀ pkg : Client.SplTokenGroup, (∀ t ∈ d.types, Client.Supports t) →
        (Client.CoversRequired pkg σ k ↔ d.padding % 4 = 0 ∧ .nonTransferable ∉ d.types)) ∧
      ∀ t : ExtensionType, t ≠ .uninitialized → ∀ n,
        (Client.NewLenAgrees σ k t n ↔ (σ k).data.length ≠ Pod.size PodMint ∧
          d.padding = if Client.lenWith d t n = multisigLen then 2 else 0) := by
  obtain ⟨b, hb⟩ := (hreach.wf.load howner hload).1
  have hs : s.tlvData = b.data.bytes := hb.symm
  refine ⟨b.data, hs, fun pkg hsupports => ?_, fun t ht n => ?_⟩
  · exact Client.coversRequired_iff pkg howner hload hs hsupports
  · exact Client.newLenAgrees_iff n ht howner hload hs (toOption_getExtensionBytes t)

/-- A mint that cannot be transferred, one without extensions and one with a fee; and an account
of the length that the client takes for the first. -/
def sizesLedger : Ledger :=
  scripted (.modular 2)
    [(.plain, [⟨1, false⟩], .initializeNonTransferableMint),
      (.plain, [⟨1, false⟩], .initializeMint2 6 5 none),
      (.plain, [⟨2, false⟩], .initializeMint2 6 5 none),
      (.plain, [⟨4, false⟩], .initializeTransferFeeConfig (some 5) none 100 50),
      (.plain, [⟨4, false⟩], .initializeMint2 6 5 none)]
    (blank [(1, 170), (2, 82), (3, 170), (4, 278)])

theorem sizesLedger_reachable : Reachable (.modular 2) (fun _ => True) sizesLedger :=
  .scripted (by decide) (fun _ _ _ => trivial) (by decide +kernel)

/-- Too short for an account that cannot be transferred, which the program then refuses; no
length at all behind two zeros; and new lengths that differ for a mint without extensions, at
the length of a multisig and for a mint with zeros behind its entries. -/
theorem client_sizes_otherwise :
    Reachable (.modular 2) (fun _ => True) sizesLedger ∧
      Reachable (.modular 2) (fun _ => True) bumpedLedger ∧
      (Client.unpackMint 1 (some (sizesLedger 1)) Keys.tokenProgram >>=
        Client.getAccountLenForMint ⟨80, 72⟩) = .ok 170 ∧
      (∀ σ', process (.modular 2) .plain [⟨3, false⟩, ⟨1, false⟩] (.initializeAccount3 7)
        sizesLedger ≠ .ok σ') ∧
      ¬ Client.CoversRequired ⟨80, 72⟩ sizesLedger 1 ∧
      ¬ Client.CoversRequired ⟨80, 72⟩ bumpedLedger 1 ∧
      ¬ Client.NewLenAgrees sizesLedger 2 .tokenMetadata 100 ∧
      ¬ Client.NewLenAgrees sizesLedger 1 .tokenMetadata 181 ∧
      ¬ Client.NewLenAgrees bumpedLedger 1 .tokenMetadata 100 := by
  have hshort : (Client.unpackMint 1 (some (sizesLedger 1)) Keys.tokenProgram >>=
      Client.getAccountLenForMint ⟨80, 72⟩) = .ok 170 := by decide +kernel
  have hneeded : (Processor.getRequiredAccountExtensions sizesLedger 1 >>=
      tryCalculateAccountLen PodAccount) = .ok 174 := by decide +kernel
  have hthrows : (Client.unpackMint 1 (some (bumpedLedger 1)) Keys.tokenProgram >>=
      Client.getAccountLenForMint ⟨80, 72⟩) = .error .rangeError := by decide +kernel
  have hbase : Client.getNewAccountLenForExtensionLen (sizesLedger 2) 2 .tokenMetadata 100
      Keys.tokenProgram = .ok 186 := by decide +kernel
  have hbase' : (load sizesLedger PodMint 2 >>= fun s =>
      tryGetNewAccountLenForExtensionLen PodMint .tokenMetadata s.tlvData 100) = .ok 270 := by
    decide +kernel
  have hmultisig : Client.getNewAccountLenForExtensionLen (sizesLedger 1) 1 .tokenMetadata 181
      Keys.tokenProgram = .ok 355 := by decide +kernel
  have hmultisig' : (load sizesLedger PodMint 1 >>= fun s =>
      tryGetNewAccountLenForExtensionLen PodMint .tokenMetadata s.tlvData 181) = .ok 357 := by
    decide +kernel
  have hroom : Client.getNewAccountLenForExtensionLen (bumpedLedger 1) 1 .tokenMetadata 100
      Keys.tokenProgram = .ok 461 := by decide +kernel
  have hroom' : (load bumpedLedger PodMint 1 >>= fun s =>
      tryGetNewAccountLenForExtensionLen PodMint .tokenMetadata s.tlvData 100) = .ok 459 := by
    decide +kernel
  have hrefused : (toOption (process (.modular 2) .plain [⟨3, false⟩, ⟨1, false⟩]
      (.initializeAccount3 7) sizesLedger)).isNone = true := by decide +kernel
  refine ⟨sizesLedger_reachable, bumpedLedger_reachable, hshort, ?_, ?_, ?_, ?_, ?_, ?_⟩
  · exact toOption_eq_none.mp (Option.isNone_iff_eq_none.mp hrefused)
  · exact Client.not_coversRequired_of_lt hshort hneeded (by decide)
  · exact Client.not_coversRequired_of_error hthrows
  · exact Client.not_newLenAgrees_of_ne hbase hbase' (by decide)
  · exact Client.not_newLenAgrees_of_ne hmultisig hmultisig' (by decide)
  · exact Client.not_newLenAgrees_of_ne hroom hroom' (by decide)

theorem client_sizes_iff_fee :
    Client.CoversRequired ⟨80, 72⟩ sizesLedger 4 ∧
      Client.NewLenAgrees sizesLedger 4 .tokenMetadata 100 := by
  have hentries : (toOption (load sizesLedger PodMint 4)).any (fun s =>
      (toOption (getTlvDataInfo s.tlvData)).any fun info =>
        decide (info.extensionTypes = [.transferFeeConfig] ∧ info.usedLen = 112 ∧
          s.tlvData.length = 112)) = true := by decide +kernel
  obtain ⟨s, hs, hp⟩ := (Option.any_eq_true _ _).mp hentries
  obtain ⟨info, hinfo, hp⟩ := (Option.any_eq_true _ _).mp hp
  obtain ⟨htypes, hused, hlen⟩ := of_decide_eq_true hp
  have howner : (sizesLedger 4).owner = Keys.tokenProgram := by decide +kernel
  have hlong : (sizesLedger 4).data.length ≠ Pod.size PodMint := by decide +kernel
  have hreach := sizesLedger_reachable
  generalize sizesLedger = σ at *
  obtain ⟨d, hd, hcovers, hagrees⟩ := client_sizes_iff _ _ _ hreach 4 howner s
    (toOption_eq_some.mp hs)
  rw [hd, toOption_eq_some, d.getTlvDataInfo_bytes] at hinfo
  obtain rfl := Except.ok.inj hinfo
  rw [hd, d.length_bytes] at hlen
  have hlen : d.usedLen + d.padding = 112 := hlen
  have hused : d.usedLen = 112 := hused
  have htypes : d.types = [.transferFeeConfig] := htypes
  have hpadding : d.padding = 0 := by omega
  refine ⟨(hcovers ⟨80, 72⟩ ?_).mpr ?_, (hagrees .tokenMetadata (by decide) 100).mpr ⟨hlong, ?_⟩⟩
  · rw [htypes]
    intro t ht
    rw [List.mem_singleton.mp ht]
    rfl
  · rw [hpadding, htypes]
    exact ⟨rfl, by decide⟩
  · have hnone : d.get .tokenMetadata = none := by
      rw [TlvData.get_eq_none, htypes]
      decide
    have hothers := d.usedLen_eq .tokenMetadata
    rw [hnone, Option.map_none, Option.getD_none, hused, Nat.add_zero] at hothers
    rw [hpadding, Client.lenWith, ← hothers]
    rfl

end SolanaEasy.Token
