import SolanaEasy.Token.Core

/-!
# Governance — the authorities of a mint and what they decide

Every optional authority of a mint, in either of its two encodings, with the
settings it governs. `Settled` is what a change to a mint must respect: an
authority that is gone stays gone, and nothing it decided changes any more.
-/

namespace SolanaEasy.Token

open Processor

/-- The extension that names the authority. -/
def Processor.AuthorityType.home : AuthorityType → Option ExtensionType
  | .mintTokens | .freezeAccount | .accountOwner | .closeAccount => none
  | .transferFeeConfig | .withheldWithdraw => some .transferFeeConfig
  | .closeMint => some .mintCloseAuthority
  | .interestRate => some .interestBearingConfig
  | .permanentDelegate => some .permanentDelegate
  | .confidentialTransferMint => some .confidentialTransferMint
  | .transferHookProgramId => some .transferHook
  | .confidentialTransferFeeConfig => some .confidentialTransferFeeConfig
  | .metadataPointer => some .metadataPointer
  | .groupPointer => some .groupPointer
  | .groupMemberPointer => some .groupMemberPointer
  | .scaledUiAmount => some .scaledUiAmount
  | .pause => some .pausable

/-- The extension that holds what the authority decides. -/
def Processor.AuthorityType.domain : AuthorityType → Option ExtensionType
  | .mintTokens => some .confidentialMintBurn
  | .freezeAccount => some .defaultAccountState
  | a => a.home

namespace View

/-- The authority of a mint, as every handler reads it. -/
def authority (m : View PodMint) : AuthorityType → Option Pubkey
  | .mintTokens => m.base.mintAuthority.toOption
  | .freezeAccount => m.base.freezeAuthority.toOption
  | .accountOwner | .closeAccount => none
  | .transferFeeConfig =>
    (m.get TransferFeeConfig).bind (·.transferFeeConfigAuthority.toOption)
  | .withheldWithdraw => (m.get TransferFeeConfig).bind (·.withdrawWithheldAuthority.toOption)
  | .closeMint => (m.get MintCloseAuthority).bind (·.closeAuthority.toOption)
  | .interestRate => (m.get InterestBearingConfig).bind (·.rateAuthority.toOption)
  | .permanentDelegate => (m.get PermanentDelegate).bind (·.delegate.toOption)
  | .confidentialTransferMint => (m.get ConfidentialTransferMint).bind (·.authority.toOption)
  | .transferHookProgramId => (m.get TransferHook).bind (·.authority.toOption)
  | .confidentialTransferFeeConfig =>
    (m.get ConfidentialTransferFeeConfig).bind (·.authority.toOption)
  | .metadataPointer => (m.get MetadataPointer).bind (·.authority.toOption)
  | .groupPointer => (m.get GroupPointer).bind (·.authority.toOption)
  | .groupMemberPointer => (m.get GroupMemberPointer).bind (·.authority.toOption)
  | .scaledUiAmount => (m.get ScaledUiAmountConfig).bind (·.authority.toOption)
  | .pause => (m.get PausableConfig).bind (·.authority.toOption)

/-- What an authority decides is the same in both mints. The mint authority decides
over the supplies, which may still fall. -/
def SameSetting (m m' : View PodMint) : AuthorityType → Prop
  | .mintTokens => m'.base.supply ≤ m.base.supply ∧
      (m'.get ConfidentialMintBurn).map
          (fun e => (e.supplyElgamalPubkey, e.confidentialSupply, e.decryptableSupply)) =
        (m.get ConfidentialMintBurn).map
          (fun e => (e.supplyElgamalPubkey, e.confidentialSupply, e.decryptableSupply))
  | .freezeAccount => m'.get DefaultAccountState = m.get DefaultAccountState
  | .accountOwner | .closeAccount => True
  | .transferFeeConfig => m'.mintCore.fees = m.mintCore.fees
  | .withheldWithdraw => m.mintWithheld ≤ m'.mintWithheld
  | .closeMint => m'.get MintCloseAuthority = m.get MintCloseAuthority
  | .interestRate => m'.get InterestBearingConfig = m.get InterestBearingConfig
  | .permanentDelegate => m'.get PermanentDelegate = m.get PermanentDelegate
  | .confidentialTransferMint => m'.get ConfidentialTransferMint = m.get ConfidentialTransferMint
  | .transferHookProgramId => m'.get TransferHook = m.get TransferHook
  | .confidentialTransferFeeConfig =>
      (m'.get ConfidentialTransferFeeConfig).map
          (fun e => (e.withdrawWithheldAuthorityElgamalPubkey, e.harvestToMintEnabled)) =
        (m.get ConfidentialTransferFeeConfig).map
          (fun e => (e.withdrawWithheldAuthorityElgamalPubkey, e.harvestToMintEnabled))
  | .metadataPointer => m'.get MetadataPointer = m.get MetadataPointer
  | .groupPointer => m'.get GroupPointer = m.get GroupPointer
  | .groupMemberPointer => m'.get GroupMemberPointer = m.get GroupMemberPointer
  | .scaledUiAmount => m'.get ScaledUiAmountConfig = m.get ScaledUiAmountConfig
  | .pause => m'.get PausableConfig = m.get PausableConfig

theorem SameSetting.refl (m : View PodMint) (a : AuthorityType) : m.SameSetting m a := by
  cases a with
  | mintTokens => exact ⟨UInt64.le_refl _, rfl⟩
  | accountOwner => trivial
  | closeAccount => trivial
  | withheldWithdraw => exact Nat.le_refl _
  | _ => rfl

theorem SameSetting.trans {m n o : View PodMint} {a : AuthorityType} (h : m.SameSetting n a)
    (h' : n.SameSetting o a) : m.SameSetting o a := by
  cases a with
  | mintTokens => exact ⟨UInt64.le_trans h'.1 h.1, h'.2.trans h.2⟩
  | accountOwner => trivial
  | closeAccount => trivial
  | withheldWithdraw => exact Nat.le_trans h h'
  | _ => exact Eq.trans h' h

/-- An authority that is gone stays gone, and what it decided stays as it is. -/
def Settled (m m' : View PodMint) : Prop :=
  ∀ a, m.authority a = none → m'.authority a = none ∧ m.SameSetting m' a

theorem Settled.refl (m : View PodMint) : m.Settled m := fun a h => ⟨h, .refl m a⟩

theorem Settled.trans {m n o : View PodMint} (h : m.Settled n) (h' : n.Settled o) :
    m.Settled o := by
  intro a ha
  obtain ⟨hn, hmn⟩ := h a ha
  obtain ⟨ho, hno⟩ := h' a hn
  exact ⟨ho, hmn.trans hno⟩

section Set

variable {V : Type} [Pod V] [Extension V] {m : View PodMint} {x : V} {a : AuthorityType}

theorem authority_set_of_ne (h : a.home ≠ some (Extension.type V)) :
    (m.set x).authority a = m.authority a := by
  cases a with
  | mintTokens | freezeAccount | accountOwner | closeAccount => rfl
  | _ => rw [authority, authority, get_set_of_ne m x fun he => h (congrArg some he)]

theorem sameSetting_set_of_ne (h : a.domain ≠ some (Extension.type V)) :
    m.SameSetting (m.set x) a := by
  cases a with
  | mintTokens =>
    refine ⟨UInt64.le_refl _, ?_⟩
    rw [get_set_of_ne m x fun he => h (congrArg some he)]
  | accountOwner | closeAccount => trivial
  | transferFeeConfig =>
    rw [SameSetting, mintCore, mintCore, get_set_of_ne m x fun he => h (congrArg some he)]
  | withheldWithdraw =>
    rw [SameSetting, mintWithheld, mintWithheld, get_set_of_ne m x fun he => h (congrArg some he)]
  | _ => rw [SameSetting, get_set_of_ne m x fun he => h (congrArg some he)]

/-- A write under `V` is settled if it is for the authorities whose business `V` is. -/
theorem settled_set (h : ∀ a, a.home = some (Extension.type V) ∨
      a.domain = some (Extension.type V) → m.authority a = none →
      (m.set x).authority a = none ∧ m.SameSetting (m.set x) a) : m.Settled (m.set x) := by
  intro a ha
  by_cases hhome : a.home = some (Extension.type V)
  · exact h a (.inl hhome) ha
  · by_cases hdomain : a.domain = some (Extension.type V)
    · exact h a (.inr hdomain) ha
    · exact ⟨(authority_set_of_ne hhome).trans ha, sameSetting_set_of_ne hdomain⟩

/-- A write of the one authority whose extension this is. -/
theorem settled_set_of_some {b : AuthorityType} {k : Pubkey} (hb : m.authority b = some k)
    (honly : ∀ a, a.home = some (Extension.type V) ∨ a.domain = some (Extension.type V) → a = b) :
    m.Settled (m.set x) := by
  refine settled_set fun a ha hnone => ?_
  rw [honly a ha, hb] at hnone
  cases hnone

end Set

theorem settled_withBase {m : View PodMint} {base : PodMint}
    (hmint : m.base.mintAuthority.toOption = none →
      base.mintAuthority.toOption = none ∧ base.supply ≤ m.base.supply)
    (hfreeze : m.base.freezeAuthority.toOption = none → base.freezeAuthority.toOption = none) :
    m.Settled (m.withBase base) := by
  intro a ha
  cases a with
  | mintTokens => exact ⟨(hmint ha).1, (hmint ha).2, rfl⟩
  | freezeAccount => exact ⟨hfreeze ha, rfl⟩
  | accountOwner | closeAccount => exact ⟨rfl, trivial⟩
  | withheldWithdraw => exact ⟨ha, Nat.le_refl _⟩
  | _ => exact ⟨ha, rfl⟩

/-! ## What an initialised mint keeps -/

structure Keeps (m m' : View PodMint) : Prop where
  grows : m.Grows m'
  adds : ∀ t, (m'.ext t).isSome = true → (m.ext t).isSome = true ∨ t.isRecord = true
  bare : m.Bare → m'.Bare
  settled : m.Settled m'

theorem Keeps.refl (m : View PodMint) : m.Keeps m :=
  ⟨.refl m, fun _ h => .inl h, id, .refl m⟩

theorem Keeps.trans {m n o : View PodMint} (h : m.Keeps n) (h' : n.Keeps o) : m.Keeps o where
  grows := h.grows.trans h'.grows
  adds t ht := by
    rcases h'.adds t ht with ht | ht
    · exact h.adds t ht
    · exact .inr ht
  bare hb := h'.bare (h.bare hb)
  settled := h.settled.trans h'.settled

section Keeps

variable {V : Type} [Pod V] [Extension V] {m : View PodMint}

/-- An extension that is there can be changed. -/
theorem keeps_set {x y : V} (h : m.get V = some y) (hs : m.Settled (m.set x)) :
    m.Keeps (m.set x) where
  grows := grows_set m x
  adds t ht := by
    rcases (ext_set_isSome m x t).mp ht with rfl | ht
    · exact .inl (ext_isSome_of_get h)
    · exact .inl ht
  bare hb := by
    have hsome := ext_isSome_of_get h
    rw [hb.2] at hsome
    cases hsome
  settled := hs

theorem keeps_withBase {base : PodMint}
    (hmint : m.base.mintAuthority.toOption = none →
      base.mintAuthority.toOption = none ∧ base.supply ≤ m.base.supply)
    (hfreeze : m.base.freezeAuthority.toOption = none → base.freezeAuthority.toOption = none) :
    m.Keeps (m.withBase base) where
  grows := .refl m
  adds _ ht := .inl ht
  bare hb := ⟨(hmint hb.1).1, hb.2⟩
  settled := settled_withBase hmint hfreeze

end Keeps

end View

end SolanaEasy.Token
