import SolanaEasy.Lib.Register
import SolanaEasy.Token.Confidential.Reading
import SolanaEasy.Token.Instruction
import SolanaEasy.Token.Storage

/-!
# Cores — the part of an account that tokens depend on

A view still lists every extension. Its core is what decides how many tokens an
account or a mint stands for and who may move them; markers and settings are left
out. Every write of a handler changes the core in one place or not at all, and the
lemmas here say where. Hidden amounts are read off the core, under a reading.
-/

namespace SolanaEasy.Token

open Processor

/-- The value side of a token account. -/
structure Core where
  base : PodAccount
  withheld : ℕ
  secret : Option ConfidentialTransferAccount
  fees : Option ConfidentialTransferFeeAmount
  locked : Bool
  transferring : Bool

/-- What a mint shows besides its tokens: its interest and its multiplier, each without the
authority over it, and its place in a group. -/
structure MintRecords where
  interest : Option (Int64 × Int16 × Int64 × Int16)
  multiplier : Option (UInt64 × Int64 × UInt64)
  group : Option Token.TokenGroup
  member : Option TokenGroupMember

/-- Records without a past: nothing is pending, and there is no group yet. -/
structure MintRecords.Fresh (r : MintRecords) : Prop where
  interest : ∀ x, r.interest = some x → x.2.2.1 = x.1 ∧ x.2.1 = x.2.2.2
  multiplier : ∀ x, r.multiplier = some x → x.2.2 = x.1 ∧ x.2.1 = 0 ∧ isPositiveNormal x.1 = true
  group : r.group = none
  member : r.member = none

/-- The value side of a mint. -/
structure MintCore where
  supply : UInt64
  withheld : ℕ
  fees : Option (Token.TransferFee × Token.TransferFee)
  secretFees : Option (PodElGamalPubkey × PodElGamalCiphertext)
  mintBurn : Option ConfidentialMintBurn
  paused : Bool
  records : MintRecords

/-! ## Hidden amounts -/

section Reading

variable {l : ℕ} {rt : Runtime} (R : Reading l rt)

/-- The pending balance, both halves. -/
def Reading.pending (a : ConfidentialTransferAccount) : ZMod l :=
  R.pt a.elgamalPubkey a.pendingBalanceLo + 2 ^ 16 * R.pt a.elgamalPubkey a.pendingBalanceHi

/-- The plaintext of an amount in two halves. -/
def Reading.halves (k : PodElGamalPubkey) (lo hi : PodElGamalCiphertext) : ZMod l :=
  R.pt k lo + 2 ^ 16 * R.pt k hi

def Reading.available (a : ConfidentialTransferAccount) : ZMod l :=
  R.pt a.elgamalPubkey a.availableBalance

/-- Pending and available together. -/
def Reading.balance (a : ConfidentialTransferAccount) : ZMod l := R.pending a + R.available a

variable (f : PodElGamalPubkey)

/-- The hidden balances, with withheld fees read under the key `f`. -/
def Core.secrets (c : Core) : Secrets (ZMod l) where
  pending := (c.secret.map R.pending).getD 0
  available := (c.secret.map R.available).getD 0
  withheld := (c.fees.map fun a => R.pt f a.withheldAmount).getD 0

def Core.holding (c : Core) : Holding (ZMod l) :=
  ⟨c.base.amount.toNat, c.withheld, c.secrets R f⟩

def MintCore.issueSecrets (m : MintCore) : IssueSecrets (ZMod l) where
  withheld := (m.secretFees.map fun c => R.pt f c.2).getD 0
  supply := (m.mintBurn.map fun c => R.pt c.supplyElgamalPubkey c.confidentialSupply).getD 0
  burned := (m.mintBurn.map fun c => R.pt c.supplyElgamalPubkey c.pendingBurn).getD 0

def MintCore.issue (m : MintCore) : Issue (ZMod l) :=
  ⟨m.mintBurn.isSome, m.supply.toNat, m.withheld, m.issueSecrets R f⟩

end Reading

namespace View

/-! ## The core of a view -/

section Account

variable (v : View PodAccount)

def withheld : ℕ := ((v.get TransferFeeAmount).map (·.withheldAmount.toNat)).getD 0

/-- `cpi_guard.lock_cpi`. -/
def locked : Bool := (v.get CpiGuard).any (·.lockCpi.toBool)

def transferring : Bool := (v.get TransferHookAccount).any (·.transferring.toBool)

def core : Core :=
  ⟨v.base, v.withheld, v.get ConfidentialTransferAccount, v.get ConfidentialTransferFeeAmount,
    v.locked, v.transferring⟩

/-- The `transferring` flag of an account that has one. -/
def flag (b : Bool) : View PodAccount := v.set (⟨.ofBool b⟩ : TransferHookAccount)

end Account

section Mint

variable (m : View PodMint)

def mintWithheld : ℕ := ((m.get TransferFeeConfig).map (·.withheldAmount.toNat)).getD 0

/-- `extension.paused`. -/
def paused : Bool := (m.get PausableConfig).any (·.paused.toBool)

/-- The program a transfer of this mint calls. -/
def hookProgram : Option Pubkey := (m.get TransferHook).bind (·.programId.toOption)

def records : MintRecords where
  interest := (m.get InterestBearingConfig).map fun c =>
    (c.initializationTimestamp, c.preUpdateAverageRate, c.lastUpdateTimestamp, c.currentRate)
  multiplier := (m.get ScaledUiAmountConfig).map fun c =>
    (c.multiplier, c.newMultiplierEffectiveTimestamp, c.newMultiplier)
  group := m.get Token.TokenGroup
  member := m.get TokenGroupMember

def mintCore : MintCore where
  supply := m.base.supply
  withheld := m.mintWithheld
  fees := (m.get TransferFeeConfig).map fun c => (c.olderTransferFee, c.newerTransferFee)
  secretFees := (m.get ConfidentialTransferFeeConfig).map fun c =>
    (c.withdrawWithheldAuthorityElgamalPubkey, c.withheldAmount)
  mintBurn := m.get ConfidentialMintBurn
  paused := m.paused
  records := m.records

/-- A mint that nobody can change: no authority to mint, no extension. -/
def Bare : Prop := m.base.mintAuthority.toOption = none ∧ ∀ t, m.ext t = none

end Mint

/-- No extension is lost. -/
def Grows {S : Type} (v v' : View S) : Prop :=
  ∀ t, (v.ext t).isSome = true → (v'.ext t).isSome = true

theorem Grows.refl {S : Type} (v : View S) : v.Grows v := fun _ h => h

theorem Grows.trans {S : Type} {u v w : View S} (h : u.Grows v) (h' : v.Grows w) : u.Grows w :=
  fun t ht => h' t (h t ht)

section Grows

variable {S V : Type} [Pod V] [Extension V]

theorem grows_set (v : View S) (x : V) : v.Grows (v.set x) :=
  fun t h => (ext_set_isSome v x t).mpr (.inr h)

theorem grows_withBase (v : View S) (base : S) : v.Grows (v.withBase base) := fun _ h => h

end Grows

end View

namespace View

/-! ## Writes to an account -/

section Account

variable {V : Type} [Pod V] [Extension V] (v : View PodAccount)

@[simp] theorem core_withBase (base : PodAccount) :
    (v.withBase base).core = { v.core with base := base } := rfl

@[simp] theorem base_core : v.core.base = v.base := rfl

@[simp] theorem secret_core : v.core.secret = v.get ConfidentialTransferAccount := rfl

@[simp] theorem fees_core : v.core.fees = v.get ConfidentialTransferFeeAmount := rfl

@[simp] theorem withheld_core : v.core.withheld = v.withheld := rfl

@[simp] theorem locked_core : v.core.locked = v.locked := rfl

@[simp] theorem transferring_core : v.core.transferring = v.transferring := rfl

/-- What the core of a view becomes when `x` is written under its type. -/
theorem core_set (x : V) :
    (v.set x).core =
      { base := v.base
        withheld := (((v.set x).get TransferFeeAmount).map (·.withheldAmount.toNat)).getD 0
        secret := (v.set x).get ConfidentialTransferAccount
        fees := (v.set x).get ConfidentialTransferFeeAmount
        locked := ((v.set x).get CpiGuard).any (·.lockCpi.toBool)
        transferring := ((v.set x).get TransferHookAccount).any (·.transferring.toBool) } := rfl

theorem core_set_of_ne (x : V) (h : (Extension.type V).isPurse = false) :
    (v.set x).core = v.core := by
  have hget : ∀ (W : Type) [Pod W] [Extension W], (Extension.type W).isPurse = true →
      (v.set x).get W = v.get W := by
    intro W _ _ hW
    apply get_set_of_ne
    intro he
    rw [he, h] at hW
    cases hW
  rw [core_set, hget TransferFeeAmount rfl, hget ConfidentialTransferAccount rfl,
    hget ConfidentialTransferFeeAmount rfl, hget CpiGuard rfl, hget TransferHookAccount rfl]
  rfl

theorem core_set_feeAmount (a : TransferFeeAmount) :
    (v.set a).core = { v.core with withheld := a.withheldAmount.toNat } := by
  rw [core_set, get_set_same, get_set_of_ne (W := ConfidentialTransferAccount) v a (by decide),
    get_set_of_ne (W := ConfidentialTransferFeeAmount) v a (by decide),
    get_set_of_ne (W := CpiGuard) v a (by decide),
    get_set_of_ne (W := TransferHookAccount) v a (by decide)]
  rfl

theorem core_set_secret (a : ConfidentialTransferAccount) :
    (v.set a).core = { v.core with secret := some a } := by
  rw [core_set, get_set_same, get_set_of_ne (W := TransferFeeAmount) v a (by decide),
    get_set_of_ne (W := ConfidentialTransferFeeAmount) v a (by decide),
    get_set_of_ne (W := CpiGuard) v a (by decide),
    get_set_of_ne (W := TransferHookAccount) v a (by decide)]
  rfl

theorem core_set_fees (a : ConfidentialTransferFeeAmount) :
    (v.set a).core = { v.core with fees := some a } := by
  rw [core_set, get_set_same, get_set_of_ne (W := TransferFeeAmount) v a (by decide),
    get_set_of_ne (W := ConfidentialTransferAccount) v a (by decide),
    get_set_of_ne (W := CpiGuard) v a (by decide),
    get_set_of_ne (W := TransferHookAccount) v a (by decide)]
  rfl

theorem core_set_guard (a : CpiGuard) :
    (v.set a).core = { v.core with locked := a.lockCpi.toBool } := by
  rw [core_set, get_set_same, get_set_of_ne (W := TransferFeeAmount) v a (by decide),
    get_set_of_ne (W := ConfidentialTransferAccount) v a (by decide),
    get_set_of_ne (W := ConfidentialTransferFeeAmount) v a (by decide),
    get_set_of_ne (W := TransferHookAccount) v a (by decide)]
  rfl

theorem core_flag (b : Bool) : (v.flag b).core = { v.core with transferring := b } := by
  have hb : (PodBool.ofBool b).toBool = b := by cases b <;> rfl
  rw [flag, core_set, get_set_same, get_set_of_ne (W := TransferFeeAmount) v _ (by decide),
    get_set_of_ne (W := ConfidentialTransferAccount) v _ (by decide),
    get_set_of_ne (W := ConfidentialTransferFeeAmount) v _ (by decide),
    get_set_of_ne (W := CpiGuard) v _ (by decide), Option.any_some, hb]
  rfl

variable {v}

theorem withheld_of_feeAmount {a : TransferFeeAmount} (h : v.get TransferFeeAmount = some a) :
    v.withheld = a.withheldAmount.toNat := by
  rw [withheld, h]
  rfl

end Account

/-! ## Writes to a mint -/

section Mint

variable {V : Type} [Pod V] [Extension V] (m : View PodMint)

@[simp] theorem mintCore_withBase (base : PodMint) :
    (m.withBase base).mintCore = { m.mintCore with supply := base.supply } := rfl

theorem records_set_of_ne (x : V) (h : (Extension.type V).isShown = false) :
    (m.set x).records = m.records := by
  have hget : ∀ (W : Type) [Pod W] [Extension W], (Extension.type W).isShown = true →
      (m.set x).get W = m.get W := by
    intro W _ _ hW
    apply get_set_of_ne
    intro he
    rw [he, h] at hW
    cases hW
  rw [records, hget InterestBearingConfig rfl, hget ScaledUiAmountConfig rfl,
    hget Token.TokenGroup rfl, hget TokenGroupMember rfl]
  rfl

theorem mintCore_set (x : V) :
    (m.set x).mintCore =
      { supply := m.base.supply
        withheld := (((m.set x).get TransferFeeConfig).map (·.withheldAmount.toNat)).getD 0
        fees := ((m.set x).get TransferFeeConfig).map fun c =>
          (c.olderTransferFee, c.newerTransferFee)
        secretFees := ((m.set x).get ConfidentialTransferFeeConfig).map fun c =>
          (c.withdrawWithheldAuthorityElgamalPubkey, c.withheldAmount)
        mintBurn := (m.set x).get ConfidentialMintBurn
        paused := ((m.set x).get PausableConfig).any (·.paused.toBool)
        records := (m.set x).records } := rfl

/-- What a mint shows is apart from its tokens. -/
theorem mintCore_set_shown (x : V) (h : (Extension.type V).isShown = true) :
    (m.set x).mintCore = { m.mintCore with records := (m.set x).records } := by
  have hget : ∀ (W : Type) [Pod W] [Extension W], (Extension.type W).isShown = false →
      (m.set x).get W = m.get W := by
    intro W _ _ hW
    apply get_set_of_ne
    intro he
    rw [he, h] at hW
    cases hW
  rw [mintCore_set, hget TransferFeeConfig rfl, hget ConfidentialTransferFeeConfig rfl,
    hget ConfidentialMintBurn rfl, hget PausableConfig rfl]
  rfl

theorem mintCore_set_of_ne (x : V)
    (h : (Extension.type V).isTreasury = false ∨ Extension.type V = .defaultAccountState) :
    (m.set x).mintCore = m.mintCore := by
  have hget : ∀ (W : Type) [Pod W] [Extension W], (Extension.type W).isTreasury = true →
      Extension.type W ≠ .defaultAccountState → (m.set x).get W = m.get W := by
    intro W _ _ hW hne
    apply get_set_of_ne
    intro he
    rcases h with h | h
    · rw [he, h] at hW
      cases hW
    · exact hne (he.trans h)
  have hshown : (Extension.type V).isShown = false := by
    rcases h with h | h
    · cases ht : Extension.type V <;> rw [ht] at h <;> first | rfl | cases h
    · rw [h]
      rfl
  rw [mintCore_set, m.records_set_of_ne x hshown, hget TransferFeeConfig rfl (by decide),
    hget ConfidentialTransferFeeConfig rfl (by decide), hget ConfidentialMintBurn rfl (by decide),
    hget PausableConfig rfl (by decide)]
  rfl

theorem mintCore_set_feeConfig (a : TransferFeeConfig) :
    (m.set a).mintCore = { m.mintCore with
      withheld := a.withheldAmount.toNat
      fees := some (a.olderTransferFee, a.newerTransferFee) } := by
  rw [mintCore_set, m.records_set_of_ne a rfl, get_set_same,
    get_set_of_ne (W := ConfidentialTransferFeeConfig) m a (by decide),
    get_set_of_ne (W := ConfidentialMintBurn) m a (by decide),
    get_set_of_ne (W := PausableConfig) m a (by decide)]
  rfl

theorem mintCore_set_secretFeeConfig (a : ConfidentialTransferFeeConfig) :
    (m.set a).mintCore = { m.mintCore with
      secretFees := some (a.withdrawWithheldAuthorityElgamalPubkey, a.withheldAmount) } := by
  rw [mintCore_set, m.records_set_of_ne a rfl, get_set_same,
    get_set_of_ne (W := TransferFeeConfig) m a (by decide),
    get_set_of_ne (W := ConfidentialMintBurn) m a (by decide),
    get_set_of_ne (W := PausableConfig) m a (by decide)]
  rfl

theorem mintCore_set_mintBurn (a : Token.ConfidentialMintBurn) :
    (m.set a).mintCore = { m.mintCore with mintBurn := some a } := by
  rw [mintCore_set, m.records_set_of_ne a rfl, get_set_same,
    get_set_of_ne (W := TransferFeeConfig) m a (by decide),
    get_set_of_ne (W := ConfidentialTransferFeeConfig) m a (by decide),
    get_set_of_ne (W := PausableConfig) m a (by decide)]
  rfl

theorem mintCore_set_pausable (a : PausableConfig) :
    (m.set a).mintCore = { m.mintCore with paused := a.paused.toBool } := by
  rw [mintCore_set, m.records_set_of_ne a rfl, get_set_same,
    get_set_of_ne (W := TransferFeeConfig) m a (by decide),
    get_set_of_ne (W := ConfidentialTransferFeeConfig) m a (by decide),
    get_set_of_ne (W := ConfidentialMintBurn) m a (by decide)]
  rfl

variable {m}

theorem records_of_fresh (h : m.Fresh) : m.records.Fresh where
  interest x hx := by
    obtain ⟨e, he, rfl⟩ := Option.map_eq_some_iff.mp hx
    exact h.interest e he
  multiplier x hx := by
    obtain ⟨e, he, rfl⟩ := Option.map_eq_some_iff.mp hx
    exact h.multiplier e he
  group := get_eq_none_of_ext (V := Token.TokenGroup) (h.absent _ rfl)
  member := get_eq_none_of_ext (V := TokenGroupMember) (h.absent _ rfl)

theorem records_of_bare (h : m.Bare) : m.records.Fresh :=
  records_of_fresh (fresh_of_ext_none h.2)

theorem mintCore_withheld_of_get {a : TransferFeeConfig} (h : m.get TransferFeeConfig = some a) :
    m.mintCore.withheld = a.withheldAmount.toNat ∧
      m.mintCore.fees = some (a.olderTransferFee, a.newerTransferFee) := by
  simp only [mintCore, mintWithheld, h]
  exact ⟨rfl, rfl⟩

theorem mintCore_secretFees_of_get {a : ConfidentialTransferFeeConfig}
    (h : m.get ConfidentialTransferFeeConfig = some a) :
    m.mintCore.secretFees = some (a.withdrawWithheldAuthorityElgamalPubkey, a.withheldAmount) := by
  simp only [mintCore, h]
  rfl

theorem mintCore_paused_of_get {a : PausableConfig} (h : m.get PausableConfig = some a) :
    m.mintCore.paused = a.paused.toBool := by
  simp only [mintCore, paused, h]
  rfl

end Mint

end View

/-! ## The checks of the processors, on views -/

section Checks

variable {s : PodState PodAccount} {m : PodState PodMint}

@[simp] theorem cpiGuardLocked_eq : cpiGuardLocked s = s.view.locked := by
  rw [cpiGuardLocked, PodState.toOption_getExtension]
  rfl

@[simp] theorem isPaused_eq : isPaused m = m.view.paused := by
  rw [isPaused, PodState.toOption_getExtension]
  rfl

@[simp] theorem getProgramId_eq : getProgramId m = m.view.hookProgram := by
  rw [getProgramId, PodState.toOption_getExtension]
  rfl

end Checks

end SolanaEasy.Token
