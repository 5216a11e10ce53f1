import SolanaEasy.Token.State

/-!
# Extensions — the values kept behind a base state

`ExtensionType` and one structure for every extension of
`interface/src/extension`. Each fixed-size extension is `Pod`: its stored bytes
and its value determine each other. Floating-point multipliers are kept as their
64-bit patterns; the group and member records are those of the token-group
interface crate.
-/

namespace SolanaEasy.Token

inductive AccountType where
  | uninitialized
  | mint
  | account
deriving DecidableEq, Repr

namespace AccountType

def toU8 : AccountType → UInt8
  | uninitialized => 0
  | mint => 1
  | account => 2

/-- `AccountType::try_from_primitive`. -/
def ofU8 (b : UInt8) : Option AccountType :=
  if b == 0 then some uninitialized
  else if b == 1 then some mint
  else if b == 2 then some account
  else none

@[simp] theorem ofU8_toU8 (t : AccountType) : ofU8 t.toU8 = some t := by cases t <;> rfl

theorem ofU8_eq_some {b : UInt8} {t : AccountType} (h : ofU8 b = some t) : b = t.toU8 := by
  unfold ofU8 at h
  split_ifs at h with h₀ h₁ h₂ <;> cases h
  · exact eq_of_beq h₀
  · exact eq_of_beq h₁
  · exact eq_of_beq h₂

end AccountType

inductive ExtensionType where
  | uninitialized
  | transferFeeConfig
  | transferFeeAmount
  | mintCloseAuthority
  | confidentialTransferMint
  | confidentialTransferAccount
  | defaultAccountState
  | immutableOwner
  | memoTransfer
  | nonTransferable
  | interestBearingConfig
  | cpiGuard
  | permanentDelegate
  | nonTransferableAccount
  | transferHook
  | transferHookAccount
  | confidentialTransferFeeConfig
  | confidentialTransferFeeAmount
  | metadataPointer
  | tokenMetadata
  | groupPointer
  | tokenGroup
  | groupMemberPointer
  | tokenGroupMember
  | confidentialMintBurn
  | scaledUiAmount
  | pausable
  | pausableAccount
deriving DecidableEq, Repr

namespace ExtensionType

/-- Every type, in the order of its number. -/
def all : List ExtensionType :=
  [uninitialized, transferFeeConfig, transferFeeAmount, mintCloseAuthority,
    confidentialTransferMint, confidentialTransferAccount, defaultAccountState, immutableOwner,
    memoTransfer, nonTransferable, interestBearingConfig, cpiGuard, permanentDelegate,
    nonTransferableAccount, transferHook, transferHookAccount, confidentialTransferFeeConfig,
    confidentialTransferFeeAmount, metadataPointer, tokenMetadata, groupPointer, tokenGroup,
    groupMemberPointer, tokenGroupMember, confidentialMintBurn, scaledUiAmount, pausable,
    pausableAccount]

/-- `u16::from`. -/
def toNat (t : ExtensionType) : Nat := t.ctorIdx

/-- `ExtensionType::try_from`, on the number. -/
def ofNat? (n : Nat) : Option ExtensionType := all[n]?

@[simp] theorem ofNat?_toNat (t : ExtensionType) : ofNat? t.toNat = some t := by cases t <;> rfl

theorem toNat_lt (t : ExtensionType) : t.toNat < 28 := by cases t <;> decide

theorem ofNat?_eq_some {n : Nat} {t : ExtensionType} (h : ofNat? n = some t) : n = t.toNat := by
  obtain ⟨hn, h⟩ := List.getElem?_eq_some_iff.mp h
  have hall : ∀ i : Fin all.length, (i : Nat) = (all.get i).toNat := by decide
  rw [← h]
  exact hall ⟨n, hn⟩

theorem toNat_injective {s t : ExtensionType} (h : s.toNat = t.toNat) : s = t := by
  have := congrArg ofNat? h
  simpa using this

theorem toNat_eq_zero {t : ExtensionType} : t.toNat = 0 ↔ t = uninitialized := by
  constructor
  · exact fun h => toNat_injective h
  · rintro rfl
    rfl

/-- `get_account_type`. -/
def getAccountType : ExtensionType → AccountType
  | uninitialized => .uninitialized
  | transferFeeConfig | mintCloseAuthority | confidentialTransferMint | defaultAccountState
  | nonTransferable | interestBearingConfig | permanentDelegate | transferHook
  | confidentialTransferFeeConfig | metadataPointer | tokenMetadata | groupPointer | tokenGroup
  | groupMemberPointer | confidentialMintBurn | tokenGroupMember | scaledUiAmount
  | pausable => .mint
  | immutableOwner | transferFeeAmount | confidentialTransferAccount | memoTransfer
  | nonTransferableAccount | transferHookAccount | cpiGuard | confidentialTransferFeeAmount
  | pausableAccount => .account

end ExtensionType

/-- `Extension::TYPE`. -/
class Extension (V : Type) where
  type : ExtensionType

/-! ## Transfer fees -/

structure TransferFee where
  epoch : UInt64
  maximumFee : UInt64
  transferFeeBasisPoints : UInt16
deriving DecidableEq, Inhabited

namespace TransferFee

instance : Pod TransferFee :=
  Pod.ofEquiv TransferFee (fun f => (f.epoch, f.maximumFee, f.transferFeeBasisPoints))
    (fun p => ⟨p.1, p.2.1, p.2.2⟩) (fun _ => rfl) (fun _ => rfl)

/-- `MAX_FEE_BASIS_POINTS`. -/
def maxFeeBasisPoints : Nat := 10000

/-- `ceil_div`, on operands whose sum stays below 2¹²⁸. -/
def ceilDiv (numerator denominator : Nat) : Nat := (numerator + denominator - 1) / denominator

theorem le_ceilDiv_mul (n : Nat) {d : Nat} (hd : 0 < d) : n ≤ ceilDiv n d * d := by
  have hlt := Nat.lt_div_mul_add (a := n + d - 1) hd
  rw [ceilDiv]
  omega

theorem ceilDiv_le {n d k : Nat} (hd : 0 < d) (h : n ≤ k * d) : ceilDiv n d ≤ k := by
  rw [ceilDiv, Nat.div_le_iff_le_mul_add_pred hd, Nat.mul_comm]
  omega

theorem ceilDiv_eq {n d k r : Nat} (hr : r < d) (h : k * d = n + r) : ceilDiv n d = k := by
  rw [ceilDiv, show n + d - 1 = k * d + (d - 1 - r) by omega, Nat.mul_comm,
    Nat.mul_add_div (by omega), Nat.div_eq_of_lt (by omega), Nat.add_zero]

/-- `calculate_fee`. The products fit in 128 bits; only the conversion of the
rounded-up fee back to 64 bits can fail. -/
def calculateFee (f : TransferFee) (preFeeAmount : UInt64) : Option UInt64 :=
  if f.transferFeeBasisPoints == 0 || preFeeAmount == 0 then some 0
  else
    let numerator := preFeeAmount.toNat * f.transferFeeBasisPoints.toNat
    let rawFee := ceilDiv numerator maxFeeBasisPoints
    if rawFee < 2 ^ 64 then some (min (UInt64.ofNat rawFee) f.maximumFee) else none

end TransferFee

structure TransferFeeConfig where
  transferFeeConfigAuthority : OptionalNonZeroPubkey
  withdrawWithheldAuthority : OptionalNonZeroPubkey
  withheldAmount : UInt64
  olderTransferFee : TransferFee
  newerTransferFee : TransferFee
deriving DecidableEq, Inhabited

namespace TransferFeeConfig

instance : Pod TransferFeeConfig :=
  Pod.ofEquiv TransferFeeConfig
    (fun c => (c.transferFeeConfigAuthority, c.withdrawWithheldAuthority, c.withheldAmount,
      c.olderTransferFee, c.newerTransferFee))
    (fun p => ⟨p.1, p.2.1, p.2.2.1, p.2.2.2.1, p.2.2.2.2⟩) (fun _ => rfl) (fun _ => rfl)

instance : Extension TransferFeeConfig := ⟨.transferFeeConfig⟩

def getEpochFee (c : TransferFeeConfig) (epoch : UInt64) : TransferFee :=
  if epoch ≥ c.newerTransferFee.epoch then c.newerTransferFee else c.olderTransferFee

def calculateEpochFee (c : TransferFeeConfig) (epoch preFeeAmount : UInt64) : Option UInt64 :=
  (c.getEpochFee epoch).calculateFee preFeeAmount

end TransferFeeConfig

structure TransferFeeAmount where
  withheldAmount : UInt64
deriving DecidableEq, Inhabited

namespace TransferFeeAmount

instance : Pod TransferFeeAmount :=
  Pod.ofEquiv TransferFeeAmount withheldAmount mk (fun _ => rfl) (fun _ => rfl)

instance : Extension TransferFeeAmount := ⟨.transferFeeAmount⟩

def closable (a : TransferFeeAmount) : Result Unit :=
  if a.withheldAmount == 0 then .ok ()
  else .error TokenError.accountHasWithheldTransferFees

end TransferFeeAmount

/-! ## Confidential balances -/

abbrev PodElGamalPubkey := BitVec 256
/-- A compressed Ristretto point. -/
abbrev PodRistrettoPoint := BitVec 256
/-- A scalar, in canonical bytes. -/
abbrev PodScalar := BitVec 256
abbrev PodAeCiphertext := BitVec 288

/-- `OptionalNonZeroElGamalPubkey`. -/
structure OptionalNonZeroElGamalPubkey where
  key : PodElGamalPubkey
deriving DecidableEq, Inhabited

namespace OptionalNonZeroElGamalPubkey

/-- `Option::<PodElGamalPubkey>::from`. -/
def toOption (o : OptionalNonZeroElGamalPubkey) : Option PodElGamalPubkey :=
  if o.key == 0 then none else some o.key

/-- `equals`. -/
def equals (o : OptionalNonZeroElGamalPubkey) (k : PodElGamalPubkey) : Bool := o.key == k

instance : Pod OptionalNonZeroElGamalPubkey :=
  Pod.ofEquiv OptionalNonZeroElGamalPubkey key mk (fun _ => rfl) (fun _ => rfl)

end OptionalNonZeroElGamalPubkey

structure PodElGamalCiphertext where
  commitment : PodRistrettoPoint
  handle : PodRistrettoPoint
deriving DecidableEq, Inhabited

instance : Pod PodElGamalCiphertext :=
  Pod.ofEquiv PodElGamalCiphertext (fun c => (c.commitment, c.handle)) (fun p => ⟨p.1, p.2⟩)
    (fun _ => rfl) (fun _ => rfl)

/-- `PodElGamalCiphertext::zeroed()`. -/
def PodElGamalCiphertext.zeroed : PodElGamalCiphertext := ⟨0, 0⟩

structure ConfidentialTransferMint where
  authority : OptionalNonZeroPubkey
  autoApproveNewAccounts : PodBool
  auditorElgamalPubkey : OptionalNonZeroElGamalPubkey
deriving DecidableEq, Inhabited

instance : Pod ConfidentialTransferMint :=
  Pod.ofEquiv ConfidentialTransferMint
    (fun c => (c.authority, c.autoApproveNewAccounts, c.auditorElgamalPubkey))
    (fun p => ⟨p.1, p.2.1, p.2.2⟩) (fun _ => rfl) (fun _ => rfl)

instance : Extension ConfidentialTransferMint := ⟨.confidentialTransferMint⟩

/-- `MAXIMUM_DEPOSIT_TRANSFER_AMOUNT`: the largest 48-bit amount. -/
def maximumDepositTransferAmount : Nat := 0xffff + 2 ^ 16 * 0xffffffff

/-- `PENDING_BALANCE_LO_BIT_LENGTH`. -/
def pendingBalanceLoBitLength : Nat := 16

/-- `DEFAULT_MAXIMUM_PENDING_BALANCE_CREDIT_COUNTER`. -/
def defaultMaximumPendingBalanceCreditCounter : UInt64 := 65536

structure ConfidentialTransferAccount where
  approved : PodBool
  elgamalPubkey : PodElGamalPubkey
  pendingBalanceLo : PodElGamalCiphertext
  pendingBalanceHi : PodElGamalCiphertext
  availableBalance : PodElGamalCiphertext
  decryptableAvailableBalance : PodAeCiphertext
  allowConfidentialCredits : PodBool
  allowNonConfidentialCredits : PodBool
  pendingBalanceCreditCounter : UInt64
  maximumPendingBalanceCreditCounter : UInt64
  expectedPendingBalanceCreditCounter : UInt64
  actualPendingBalanceCreditCounter : UInt64
deriving DecidableEq, Inhabited

namespace ConfidentialTransferAccount

instance : Pod ConfidentialTransferAccount :=
  Pod.ofEquiv ConfidentialTransferAccount
    (fun c => (c.approved, c.elgamalPubkey, c.pendingBalanceLo, c.pendingBalanceHi,
      c.availableBalance, c.decryptableAvailableBalance, c.allowConfidentialCredits,
      c.allowNonConfidentialCredits, c.pendingBalanceCreditCounter,
      c.maximumPendingBalanceCreditCounter, c.expectedPendingBalanceCreditCounter,
      c.actualPendingBalanceCreditCounter))
    (fun (a, b, c, d, e, f, g, h, i, j, k, l) => ⟨a, b, c, d, e, f, g, h, i, j, k, l⟩)
    (fun _ => rfl) (fun _ => rfl)

instance : Extension ConfidentialTransferAccount := ⟨.confidentialTransferAccount⟩

/-- `approved()`, named apart from the field. -/
def checkApproved (c : ConfidentialTransferAccount) : Result Unit :=
  if c.approved.toBool then .ok ()
  else .error TokenError.confidentialTransferAccountNotApproved

def closable (c : ConfidentialTransferAccount) : Result Unit :=
  if c.pendingBalanceLo == .zeroed && c.pendingBalanceHi == .zeroed
      && c.availableBalance == .zeroed then .ok ()
  else .error TokenError.confidentialTransferAccountHasBalance

def nonConfidentialTransferAllowed (c : ConfidentialTransferAccount) : Result Unit :=
  if c.allowNonConfidentialCredits.toBool then .ok ()
  else .error TokenError.nonConfidentialTransfersDisabled

def validAsSource (c : ConfidentialTransferAccount) : Result Unit := c.checkApproved

def validAsDestination (c : ConfidentialTransferAccount) : Result Unit := do
  c.checkApproved
  failIf (!c.allowConfidentialCredits.toBool)
    TokenError.confidentialTransferDepositsAndTransfersDisabled
  let counter ← okOr TokenError.overflow (checkedAdd c.pendingBalanceCreditCounter 1)
  failIf (counter > c.maximumPendingBalanceCreditCounter)
    TokenError.maximumPendingBalanceCreditCounterExceeded

def incrementPendingBalanceCreditCounter (c : ConfidentialTransferAccount) :
    Result ConfidentialTransferAccount := do
  let counter ← okOr TokenError.overflow (checkedAdd c.pendingBalanceCreditCounter 1)
  return { c with pendingBalanceCreditCounter := counter }

end ConfidentialTransferAccount

structure ConfidentialTransferFeeConfig where
  authority : OptionalNonZeroPubkey
  withdrawWithheldAuthorityElgamalPubkey : PodElGamalPubkey
  harvestToMintEnabled : PodBool
  withheldAmount : PodElGamalCiphertext
deriving DecidableEq, Inhabited

instance : Pod ConfidentialTransferFeeConfig :=
  Pod.ofEquiv ConfidentialTransferFeeConfig
    (fun c => (c.authority, c.withdrawWithheldAuthorityElgamalPubkey, c.harvestToMintEnabled,
      c.withheldAmount))
    (fun p => ⟨p.1, p.2.1, p.2.2.1, p.2.2.2⟩) (fun _ => rfl) (fun _ => rfl)

instance : Extension ConfidentialTransferFeeConfig := ⟨.confidentialTransferFeeConfig⟩

structure ConfidentialTransferFeeAmount where
  withheldAmount : PodElGamalCiphertext
deriving DecidableEq, Inhabited

namespace ConfidentialTransferFeeAmount

instance : Pod ConfidentialTransferFeeAmount :=
  Pod.ofEquiv ConfidentialTransferFeeAmount withheldAmount mk (fun _ => rfl) (fun _ => rfl)

instance : Extension ConfidentialTransferFeeAmount := ⟨.confidentialTransferFeeAmount⟩

def closable (a : ConfidentialTransferFeeAmount) : Result Unit :=
  if a.withheldAmount == .zeroed then .ok ()
  else .error TokenError.confidentialTransferFeeAccountHasWithheldFee

end ConfidentialTransferFeeAmount

structure ConfidentialMintBurn where
  confidentialSupply : PodElGamalCiphertext
  decryptableSupply : PodAeCiphertext
  supplyElgamalPubkey : PodElGamalPubkey
  pendingBurn : PodElGamalCiphertext
deriving DecidableEq, Inhabited

instance : Pod ConfidentialMintBurn :=
  Pod.ofEquiv ConfidentialMintBurn
    (fun c => (c.confidentialSupply, c.decryptableSupply, c.supplyElgamalPubkey, c.pendingBurn))
    (fun p => ⟨p.1, p.2.1, p.2.2.1, p.2.2.2⟩) (fun _ => rfl) (fun _ => rfl)

instance : Extension ConfidentialMintBurn := ⟨.confidentialMintBurn⟩

/-! ## Mint extensions with an authority or a setting -/

structure MintCloseAuthority where
  closeAuthority : OptionalNonZeroPubkey
deriving DecidableEq, Inhabited

instance : Pod MintCloseAuthority :=
  Pod.ofEquiv MintCloseAuthority MintCloseAuthority.closeAuthority MintCloseAuthority.mk
    (fun _ => rfl) (fun _ => rfl)

instance : Extension MintCloseAuthority := ⟨.mintCloseAuthority⟩

structure DefaultAccountState where
  state : UInt8
deriving DecidableEq, Inhabited

instance : Pod DefaultAccountState :=
  Pod.ofEquiv DefaultAccountState DefaultAccountState.state DefaultAccountState.mk
    (fun _ => rfl) (fun _ => rfl)

instance : Extension DefaultAccountState := ⟨.defaultAccountState⟩

structure PermanentDelegate where
  delegate : OptionalNonZeroPubkey
deriving DecidableEq, Inhabited

instance : Pod PermanentDelegate :=
  Pod.ofEquiv PermanentDelegate PermanentDelegate.delegate PermanentDelegate.mk
    (fun _ => rfl) (fun _ => rfl)

instance : Extension PermanentDelegate := ⟨.permanentDelegate⟩

structure InterestBearingConfig where
  rateAuthority : OptionalNonZeroPubkey
  initializationTimestamp : Int64
  preUpdateAverageRate : Int16
  lastUpdateTimestamp : Int64
  currentRate : Int16
deriving DecidableEq, Inhabited

namespace InterestBearingConfig

instance : Pod InterestBearingConfig :=
  Pod.ofEquiv InterestBearingConfig
    (fun c => (c.rateAuthority, c.initializationTimestamp, c.preUpdateAverageRate,
      c.lastUpdateTimestamp, c.currentRate))
    (fun p => ⟨p.1, p.2.1, p.2.2.1, p.2.2.2.1, p.2.2.2.2⟩) (fun _ => rfl) (fun _ => rfl)

instance : Extension InterestBearingConfig := ⟨.interestBearingConfig⟩

/-- `time_weighted_average_rate`. The 128-bit intermediate values cannot
overflow; the division truncates and the conversion to 16 bits can fail. -/
def timeWeightedAverageRate (c : InterestBearingConfig) (currentTimestamp : Int64) :
    Option Int16 :=
  let r₁ := c.preUpdateAverageRate.toInt
  let t₁ := c.lastUpdateTimestamp.toInt - c.initializationTimestamp.toInt
  let r₂ := c.currentRate.toInt
  let t₂ := currentTimestamp.toInt - c.lastUpdateTimestamp.toInt
  let totalTimespan := t₁ + t₂
  let averageRate := if totalTimespan = 0 then r₂ else (r₁ * t₁ + r₂ * t₂).tdiv totalTimespan
  if -2 ^ 15 ≤ averageRate ∧ averageRate < 2 ^ 15 then some (Int16.ofInt averageRate) else none

end InterestBearingConfig

structure TransferHook where
  authority : OptionalNonZeroPubkey
  programId : OptionalNonZeroPubkey
deriving DecidableEq, Inhabited

instance : Pod TransferHook :=
  Pod.ofEquiv TransferHook (fun h => (h.authority, h.programId)) (fun p => ⟨p.1, p.2⟩)
    (fun _ => rfl) (fun _ => rfl)

instance : Extension TransferHook := ⟨.transferHook⟩

structure MetadataPointer where
  authority : OptionalNonZeroPubkey
  metadataAddress : OptionalNonZeroPubkey
deriving DecidableEq, Inhabited

instance : Pod MetadataPointer :=
  Pod.ofEquiv MetadataPointer (fun h => (h.authority, h.metadataAddress)) (fun p => ⟨p.1, p.2⟩)
    (fun _ => rfl) (fun _ => rfl)

instance : Extension MetadataPointer := ⟨.metadataPointer⟩

structure GroupPointer where
  authority : OptionalNonZeroPubkey
  groupAddress : OptionalNonZeroPubkey
deriving DecidableEq, Inhabited

instance : Pod GroupPointer :=
  Pod.ofEquiv GroupPointer (fun h => (h.authority, h.groupAddress)) (fun p => ⟨p.1, p.2⟩)
    (fun _ => rfl) (fun _ => rfl)

instance : Extension GroupPointer := ⟨.groupPointer⟩

structure GroupMemberPointer where
  authority : OptionalNonZeroPubkey
  memberAddress : OptionalNonZeroPubkey
deriving DecidableEq, Inhabited

instance : Pod GroupMemberPointer :=
  Pod.ofEquiv GroupMemberPointer (fun h => (h.authority, h.memberAddress)) (fun p => ⟨p.1, p.2⟩)
    (fun _ => rfl) (fun _ => rfl)

instance : Extension GroupMemberPointer := ⟨.groupMemberPointer⟩

structure TokenGroup where
  updateAuthority : OptionalNonZeroPubkey
  mint : Pubkey
  size : UInt64
  maxSize : UInt64
deriving DecidableEq, Inhabited

instance : Pod TokenGroup :=
  Pod.ofEquiv TokenGroup (fun g => (g.updateAuthority, g.mint, g.size, g.maxSize))
    (fun p => ⟨p.1, p.2.1, p.2.2.1, p.2.2.2⟩) (fun _ => rfl) (fun _ => rfl)

instance : Extension TokenGroup := ⟨.tokenGroup⟩

structure TokenGroupMember where
  mint : Pubkey
  group : Pubkey
  memberNumber : UInt64
deriving DecidableEq, Inhabited

instance : Pod TokenGroupMember :=
  Pod.ofEquiv TokenGroupMember (fun g => (g.mint, g.group, g.memberNumber))
    (fun p => ⟨p.1, p.2.1, p.2.2⟩) (fun _ => rfl) (fun _ => rfl)

instance : Extension TokenGroupMember := ⟨.tokenGroupMember⟩

/-- `is_sign_positive() && is_normal()`, on the bits of an `f64`. -/
def isPositiveNormal (bits : UInt64) : Bool :=
  let exponent := bits.toNat / 2 ^ 52 % 2 ^ 11
  bits.toNat < 2 ^ 63 && exponent != 0 && exponent != 2 ^ 11 - 1

structure ScaledUiAmountConfig where
  authority : OptionalNonZeroPubkey
  multiplier : UInt64
  newMultiplierEffectiveTimestamp : Int64
  newMultiplier : UInt64
deriving DecidableEq, Inhabited

instance : Pod ScaledUiAmountConfig :=
  Pod.ofEquiv ScaledUiAmountConfig
    (fun c => (c.authority, c.multiplier, c.newMultiplierEffectiveTimestamp, c.newMultiplier))
    (fun p => ⟨p.1, p.2.1, p.2.2.1, p.2.2.2⟩) (fun _ => rfl) (fun _ => rfl)

instance : Extension ScaledUiAmountConfig := ⟨.scaledUiAmount⟩

/-- `ScaledUiAmountConfig::current_multiplier`. -/
def ScaledUiAmountConfig.currentMultiplier (c : ScaledUiAmountConfig) (unixTimestamp : Int64) :
    UInt64 :=
  if unixTimestamp ≥ c.newMultiplierEffectiveTimestamp then c.newMultiplier else c.multiplier

structure PausableConfig where
  authority : OptionalNonZeroPubkey
  paused : PodBool
deriving DecidableEq, Inhabited

instance : Pod PausableConfig :=
  Pod.ofEquiv PausableConfig (fun c => (c.authority, c.paused)) (fun p => ⟨p.1, p.2⟩)
    (fun _ => rfl) (fun _ => rfl)

instance : Extension PausableConfig := ⟨.pausable⟩

/-! ## Account switches and markers -/

structure MemoTransfer where
  requireIncomingTransferMemos : PodBool
deriving DecidableEq, Inhabited

instance : Pod MemoTransfer :=
  Pod.ofEquiv MemoTransfer MemoTransfer.requireIncomingTransferMemos MemoTransfer.mk
    (fun _ => rfl) (fun _ => rfl)

instance : Extension MemoTransfer := ⟨.memoTransfer⟩

structure CpiGuard where
  lockCpi : PodBool
deriving DecidableEq, Inhabited

instance : Pod CpiGuard := Pod.ofEquiv CpiGuard CpiGuard.lockCpi CpiGuard.mk
    (fun _ => rfl) (fun _ => rfl)

instance : Extension CpiGuard := ⟨.cpiGuard⟩

structure TransferHookAccount where
  transferring : PodBool
deriving DecidableEq, Inhabited

instance : Pod TransferHookAccount :=
  Pod.ofEquiv TransferHookAccount TransferHookAccount.transferring TransferHookAccount.mk
    (fun _ => rfl) (fun _ => rfl)

instance : Extension TransferHookAccount := ⟨.transferHookAccount⟩

structure NonTransferable where
deriving DecidableEq, Inhabited

instance : Pod NonTransferable :=
  Pod.ofEquiv NonTransferable (fun _ => ()) (fun _ => ⟨⟩) (fun _ => rfl) (fun _ => rfl)

instance : Extension NonTransferable := ⟨.nonTransferable⟩

structure NonTransferableAccount where
deriving DecidableEq, Inhabited

instance : Pod NonTransferableAccount :=
  Pod.ofEquiv NonTransferableAccount (fun _ => ()) (fun _ => ⟨⟩) (fun _ => rfl) (fun _ => rfl)

instance : Extension NonTransferableAccount := ⟨.nonTransferableAccount⟩

structure ImmutableOwner where
deriving DecidableEq, Inhabited

instance : Pod ImmutableOwner :=
  Pod.ofEquiv ImmutableOwner (fun _ => ()) (fun _ => ⟨⟩) (fun _ => rfl) (fun _ => rfl)

instance : Extension ImmutableOwner := ⟨.immutableOwner⟩

structure PausableAccount where
deriving DecidableEq, Inhabited

instance : Pod PausableAccount :=
  Pod.ofEquiv PausableAccount (fun _ => ()) (fun _ => ⟨⟩) (fun _ => rfl) (fun _ => rfl)

instance : Extension PausableAccount := ⟨.pausableAccount⟩

/-! ## Sizes and combinations -/

namespace ExtensionType

/-- `sized`. -/
def sized : ExtensionType → Bool
  | tokenMetadata => false
  | _ => true

/-- The length of a value of a fixed-size type. -/
def typeLen : ExtensionType → Nat
  | uninitialized => 0
  | transferFeeConfig => Pod.size TransferFeeConfig
  | transferFeeAmount => Pod.size TransferFeeAmount
  | mintCloseAuthority => Pod.size MintCloseAuthority
  | confidentialTransferMint => Pod.size ConfidentialTransferMint
  | confidentialTransferAccount => Pod.size ConfidentialTransferAccount
  | defaultAccountState => Pod.size DefaultAccountState
  | immutableOwner => Pod.size ImmutableOwner
  | memoTransfer => Pod.size MemoTransfer
  | nonTransferable => Pod.size NonTransferable
  | interestBearingConfig => Pod.size InterestBearingConfig
  | cpiGuard => Pod.size CpiGuard
  | permanentDelegate => Pod.size PermanentDelegate
  | nonTransferableAccount => Pod.size NonTransferableAccount
  | transferHook => Pod.size TransferHook
  | transferHookAccount => Pod.size TransferHookAccount
  | confidentialTransferFeeConfig => Pod.size ConfidentialTransferFeeConfig
  | confidentialTransferFeeAmount => Pod.size ConfidentialTransferFeeAmount
  | metadataPointer => Pod.size MetadataPointer
  | tokenMetadata => 0
  | groupPointer => Pod.size GroupPointer
  | tokenGroup => Pod.size TokenGroup
  | groupMemberPointer => Pod.size GroupMemberPointer
  | tokenGroupMember => Pod.size TokenGroupMember
  | confidentialMintBurn => Pod.size ConfidentialMintBurn
  | scaledUiAmount => Pod.size ScaledUiAmountConfig
  | pausable => Pod.size PausableConfig
  | pausableAccount => Pod.size PausableAccount

/-- `try_get_type_len`. -/
def tryGetTypeLen (t : ExtensionType) : Result Nat :=
  if t.sized then .ok t.typeLen else .error .invalidArgument

/-- `get_required_init_account_extensions`, for one mint extension. -/
def requiredInitAccountExtensions : ExtensionType → List ExtensionType
  | transferFeeConfig => [transferFeeAmount]
  | nonTransferable => [nonTransferableAccount, immutableOwner]
  | transferHook => [transferHookAccount]
  | pausable => [pausableAccount]
  | _ => []

/-- `get_required_init_account_extensions`. -/
def getRequiredInitAccountExtensions (mintExtensionTypes : List ExtensionType) :
    List ExtensionType :=
  mintExtensionTypes.flatMap requiredInitAccountExtensions

/-- `check_for_invalid_mint_extension_combinations`. -/
def checkForInvalidMintExtensionCombinations (ts : List ExtensionType) : Result Unit := do
  let hasTransferFeeConfig := ts.contains transferFeeConfig
  let hasConfidentialTransferMint := ts.contains confidentialTransferMint
  let hasConfidentialTransferFeeConfig := ts.contains confidentialTransferFeeConfig
  let hasConfidentialMintBurn := ts.contains confidentialMintBurn
  let hasInterestBearing := ts.contains interestBearingConfig
  let hasScaledUiAmount := ts.contains scaledUiAmount
  failIf (hasConfidentialTransferFeeConfig
    && !(hasTransferFeeConfig && hasConfidentialTransferMint))
    TokenError.invalidExtensionCombination
  failIf (hasTransferFeeConfig && hasConfidentialTransferMint
    && !hasConfidentialTransferFeeConfig)
    TokenError.invalidExtensionCombination
  failIf (hasConfidentialMintBurn && !hasConfidentialTransferMint)
    TokenError.invalidExtensionCombination
  failIf (hasScaledUiAmount && hasInterestBearing) TokenError.invalidExtensionCombination

end ExtensionType

end SolanaEasy.Token
