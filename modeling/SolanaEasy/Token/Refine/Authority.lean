import SolanaEasy.Token.Refine.Settings

/-!
# Refinement — authorities, freezing and native balances

The handlers of `Processor.Authority` that change one account, and `Approve` and
`Revoke`, which set the allowance of an account anew.
-/

namespace SolanaEasy.Token

open Processor

section Handlers

variable {rt : Runtime} {c : Call} {σ σ' : Ledger} {accounts : List AccountInfo}

/-! ## Allowances -/

/-- A handler that changes the base of one account. -/
theorem refines_base {k : Pubkey} {s : PodState PodAccount} {base : PodAccount}
    (hwf : σ.Wf) (hload : load σ PodAccount k = .ok s)
    (h : store σ k { s with base := base } = .ok σ')
    (hinit : base.isInitialized = true)
    (hmove : σ.book.Account k s.view →
      Move rt c σ.book (σ.book.put k (.account (s.view.withBase base)))) : Refines rt c σ σ' :=
  refines_store_account hwf hload h fun hswf held =>
    ⟨_, (PodState.Stored.refl hswf).withBase base, hinit, hmove held⟩

theorem processApprove_refines {amount : UInt64} {variant : InstructionVariant}
    (hwf : σ.Wf) (hresets : ∀ info rest, accounts = info :: rest → c.Resets info.key)
    (h : processApprove c.ctx accounts amount variant σ = .ok σ') : Refines rt c σ σ' := by
  obtain _ | ⟨sourceInfo, rest⟩ := accounts
  · cases h
  simp only [processApprove, bind_eq_ok, Prod.exists] at h
  obtain ⟨expectedMint, rest', _, h⟩ := h
  obtain _ | ⟨delegateInfo, _ | ⟨ownerInfo, signers⟩⟩ := rest'
  · cases h
  · cases h
  simp only [bind_eq_ok, exists_unit, failIf_eq_ok, cpiGuardLocked_eq] at h
  obtain ⟨s, hload, hthawed, _, _, hguard, h⟩ := h
  refine refines_base hwf hload h (packed_of_load hload).initialized fun held => ?_
  refine .allowance (hresets _ _ rfl) held hthawed (by simp) ?_ rfl (.refl _)
  intro hlocked hcpi
  rw [hlocked, hcpi] at hguard
  cases hguard

theorem processRevoke_refines (hwf : σ.Wf)
    (hresets : ∀ info rest, accounts = info :: rest → c.Resets info.key)
    (h : processRevoke accounts σ = .ok σ') : Refines rt c σ σ' := by
  obtain _ | ⟨sourceInfo, _ | ⟨authorityInfo, signers⟩⟩ := accounts
  · cases h
  · cases h
  simp only [processRevoke, bind_eq_ok, exists_unit, failIf_eq_ok] at h
  obtain ⟨s, hload, hthawed, _, h⟩ := h
  refine refines_base hwf hload h (packed_of_load hload).initialized fun held => ?_
  exact .allowance (hresets _ _ rfl) held hthawed (fun _ => rfl) (fun _ _ => rfl) rfl (.refl _)

/-! ## SetAuthority -/

theorem setAccountAuthority_refines {k : Pubkey} {s s' : PodState PodAccount}
    {authorityInfo : AccountInfo} {signers : List AccountInfo} {authorityType : AuthorityType}
    {newAuthority : PodCOption Pubkey} (hwf : σ.Wf)
    (hresets : authorityType = .accountOwner → c.Resets k)
    (hload : load σ PodAccount k = .ok s)
    (hset : setAccountAuthority c.ctx σ s authorityInfo signers authorityType newAuthority =
      .ok s')
    (h : store σ k s' = .ok σ') : Refines rt c σ σ' := by
  have hinit := (packed_of_load hload).initialized
  simp only [setAccountAuthority, bind_eq_ok, exists_unit, failIf_eq_ok] at hset
  obtain ⟨hthawed, hset⟩ := hset
  split at hset
  · simp only [bind_eq_ok, exists_unit, pure_eq_ok, failIf_eq_ok, PodState.hasExtension_eq,
      Option.isSome_eq_false_iff, Option.isNone_iff_eq_none, cpiGuardLocked_eq] at hset
    obtain ⟨_, hmutable, _, hunlocked, owner, _, rfl⟩ := hset
    refine refines_store_account hwf hload h fun hswf held =>
      ⟨_, (PodState.Stored.refl hswf).withBase _, hinit, ?_⟩
    exact .owner (hresets rfl) held hthawed hunlocked
      (PodState.ext_eq_none_of_get hswf rfl hmutable) rfl (.refl _)
  · simp only [bind_eq_ok, exists_unit, pure_eq_ok, failIf_eq_ok, cpiGuardLocked_eq] at hset
    obtain ⟨_, hguard, rfl⟩ := hset
    refine refines_base hwf hload h hinit fun held => .closer held hthawed ?_ rfl (.refl _)
    intro hlocked hcpi
    simpa [hlocked, hcpi] using hguard
  · cases hset

/-- The mint that the authority `b` of an extension was replaced in. -/
theorem setExtensionAuthority_quiet {V : Type} [Pod V] [Extension V] {s s' : PodState PodMint}
    {authorityInfo : AccountInfo} {signers : List AccountInfo}
    {authority : V → OptionalNonZeroPubkey}
    {withAuthority : V → OptionalNonZeroPubkey → V} {newAuthority : PodCOption Pubkey}
    (hset : setExtensionAuthority V σ s authorityInfo signers authority withAuthority newAuthority =
      .ok s') (hswf : s.Wf)
    (hquiet : ∀ m e k new, m.get V = some e → (authority e).toOption = some k →
      QuietMint m (m.set (withAuthority e new))) :
    ∃ m, s.Stored s' m ∧ QuietMint s.view m := by
  simp only [setExtensionAuthority, bind_eq_ok, exists_unit, okOr_eq_ok] at hset
  obtain ⟨e, hget, k, hk, _, new, _, hset⟩ := hset
  obtain ⟨hst, _⟩ := PodState.setExtension_ok hswf hset
  exact ⟨_, hst, hquiet _ e k new (PodState.getExtension_eq_ok.mp hget) hk⟩

/-- An extension with one authority, of which no value depends. -/
theorem setExtensionAuthority_plain {V : Type} [Pod V] [Extension V] {s s' : PodState PodMint}
    {authorityInfo : AccountInfo} {signers : List AccountInfo}
    {authority : V → OptionalNonZeroPubkey}
    {withAuthority : V → OptionalNonZeroPubkey → V} {newAuthority : PodCOption Pubkey}
    (hset : setExtensionAuthority V σ s authorityInfo signers authority withAuthority newAuthority =
      .ok s') (hswf : s.Wf) (b : AuthorityType) (ht : (Extension.type V).isTreasury = false)
    (hb : ∀ (m : View PodMint) e, m.get V = some e → m.authority b = (authority e).toOption)
    (honly : ∀ a : AuthorityType, a.home = some (Extension.type V) ∨
      a.domain = some (Extension.type V) → a = b) :
    ∃ m, s.Stored s' m ∧ QuietMint s.view m :=
  setExtensionAuthority_quiet hset hswf fun m e _ _ hget hk =>
    .set hget ht (View.settled_set_of_some ((hb m e hget).trans hk) honly)

/-- The mint that an authority of the base was replaced in: there was one before. -/
theorem setBaseAuthority_quiet {s s' : PodState PodMint} {authorityInfo : AccountInfo}
    {signers : List AccountInfo} {current : PodCOption Pubkey} {missing : TokenError}
    {base : PodMint}
    (hset : setBaseAuthority σ s authorityInfo signers current missing base = .ok s')
    (hswf : s.Wf)
    (hquiet : current.toOption ≠ none → QuietMint s.view (s.view.withBase base)) :
    ∃ m, s.Stored s' m ∧ QuietMint s.view m := by
  simp only [setBaseAuthority, bind_eq_ok, exists_unit, okOr_eq_ok, pure_eq_ok] at hset
  obtain ⟨_, hsome, _, rfl⟩ := hset
  exact ⟨_, (PodState.Stored.refl hswf).withBase base, hquiet (by rw [hsome]; simp)⟩

/-- The two authorities of a transfer fee share an extension. -/
theorem QuietMint.setFeeAuthority {m : View PodMint} {x y : TransferFeeConfig}
    (hget : m.get TransferFeeConfig = some y) (hwithheld : x.withheldAmount = y.withheldAmount)
    (holder : x.olderTransferFee = y.olderTransferFee)
    (hnewer : x.newerTransferFee = y.newerTransferFee)
    (hgone : ∀ a : AuthorityType, a.home = some .transferFeeConfig → m.authority a = none →
      (m.set x).authority a = none) : QuietMint m (m.set x) where
  initialized := rfl
  valid := validDefault_set_of_ne (by decide)
  core := by
    obtain ⟨hw, hf⟩ := View.mintCore_withheld_of_get hget
    rw [m.mintCore_set_feeConfig, hwithheld, holder, hnewer, ← hw, ← hf]
  keeps := by
    obtain ⟨hw, hf⟩ := View.mintCore_withheld_of_get hget
    refine View.keeps_set hget (View.settled_set fun a ha hnone => ?_)
    have hhome : a.home = some .transferFeeConfig := by
      cases a <;> first | rfl | (rcases ha with h | h <;> cases h)
    refine ⟨hgone a hhome hnone, ?_⟩
    cases a with
    | transferFeeConfig =>
      rw [View.SameSetting, m.mintCore_set_feeConfig, holder, hnewer, ← hf]
    | withheldWithdraw =>
      rw [View.SameSetting, View.mintWithheld, View.mintWithheld, View.get_set_same, hget,
        Option.map_some, Option.map_some, hwithheld]
    | _ => cases hhome

/-- A new authority over what the mint shows. -/
theorem QuietMint.setShown {V : Type} [Pod V] [Extension V] {m : View PodMint} {x y : V}
    (hget : m.get V = some y) (ht : (Extension.type V).isShown = true)
    (hrecords : (m.set x).records = m.records) (hs : m.Settled (m.set x)) :
    QuietMint m (m.set x) where
  initialized := rfl
  valid := validDefault_set_of_ne (by rintro he; rw [← he] at ht; cases ht)
  core := by
    rw [m.mintCore_set_shown x ht, hrecords]
    rfl
  keeps := View.keeps_set hget hs

theorem setMintAuthority_quiet {s s' : PodState PodMint} {authorityInfo : AccountInfo}
    {signers : List AccountInfo} {authorityType : AuthorityType}
    {newAuthority : PodCOption Pubkey}
    (hset : setMintAuthority σ s authorityInfo signers authorityType newAuthority = .ok s')
    (hswf : s.Wf) : ∃ m, s.Stored s' m ∧ QuietMint s.view m := by
  cases authorityType with
  | mintTokens =>
    refine setBaseAuthority_quiet hset hswf fun hsome => ⟨rfl, id, rfl, ?_⟩
    exact View.keeps_withBase (fun hnone => absurd hnone hsome) id
  | freezeAccount =>
    refine setBaseAuthority_quiet hset hswf fun hsome => ⟨rfl, id, rfl, ?_⟩
    exact View.keeps_withBase (fun hnone => ⟨hnone, UInt64.le_refl _⟩)
      fun hnone => absurd hnone hsome
  | accountOwner => cases hset
  | closeAccount => cases hset
  | transferFeeConfig =>
    refine setExtensionAuthority_quiet hset hswf fun m e k new hget hk => ?_
    refine .setFeeAuthority hget rfl rfl rfl fun a ha hnone => ?_
    cases a with
    | transferFeeConfig =>
      rw [View.authority, hget, Option.bind_some, hk] at hnone
      cases hnone
    | withheldWithdraw =>
      rw [View.authority, hget] at hnone
      rw [View.authority, View.get_set_same]
      exact hnone
    | _ => cases ha
  | withheldWithdraw =>
    refine setExtensionAuthority_quiet hset hswf fun m e k new hget hk => ?_
    refine .setFeeAuthority hget rfl rfl rfl fun a ha hnone => ?_
    cases a with
    | transferFeeConfig =>
      rw [View.authority, hget] at hnone
      rw [View.authority, View.get_set_same]
      exact hnone
    | withheldWithdraw =>
      rw [View.authority, hget, Option.bind_some, hk] at hnone
      cases hnone
    | _ => cases ha
  | confidentialTransferFeeConfig =>
    refine setExtensionAuthority_quiet hset hswf fun m e k new hget hk => ?_
    have hb : m.authority .confidentialTransferFeeConfig = some k := by
      rw [View.authority, hget]
      exact hk
    refine ⟨rfl, validDefault_set_of_ne (by decide), ?_, View.keeps_set hget
      (View.settled_set_of_some hb fun a ha => ?_)⟩
    · rw [m.mintCore_set_secretFeeConfig, ← View.mintCore_secretFees_of_get hget]
    · cases a <;> first | rfl | (rcases ha with h | h <;> cases h)
  | pause =>
    refine setExtensionAuthority_quiet hset hswf fun m e k new hget hk => ?_
    have hb : m.authority .pause = some k := by
      rw [View.authority, hget]
      exact hk
    refine ⟨rfl, validDefault_set_of_ne (by decide), ?_, View.keeps_set hget
      (View.settled_set_of_some hb fun a ha => ?_)⟩
    · rw [m.mintCore_set_pausable, ← View.mintCore_paused_of_get hget]
    · cases a <;> first | rfl | (rcases ha with h | h <;> cases h)
  | closeMint =>
    refine setExtensionAuthority_plain hset hswf .closeMint rfl (fun m e hget => ?_) fun a ha => ?_
    · rw [View.authority, hget]
      rfl
    · cases a <;> first | rfl | (rcases ha with h | h <;> cases h)
  | interestRate =>
    refine setExtensionAuthority_quiet hset hswf fun m e k new hget hk => ?_
    have hb : m.authority .interestRate = some k := by
      rw [View.authority, hget]
      exact hk
    refine .setShown hget rfl ?_ (View.settled_set_of_some hb fun a ha => ?_)
    · simp only [View.records, hget, View.get_set_same]
      rfl
    · cases a <;> first | rfl | (rcases ha with h | h <;> cases h)
  | permanentDelegate =>
    refine setExtensionAuthority_plain hset hswf .permanentDelegate rfl
        (fun m e hget => ?_) fun a ha => ?_
    · rw [View.authority, hget]
      rfl
    · cases a <;> first | rfl | (rcases ha with h | h <;> cases h)
  | confidentialTransferMint =>
    refine setExtensionAuthority_plain hset hswf .confidentialTransferMint rfl
        (fun m e hget => ?_) fun a ha => ?_
    · rw [View.authority, hget]
      rfl
    · cases a <;> first | rfl | (rcases ha with h | h <;> cases h)
  | transferHookProgramId =>
    refine setExtensionAuthority_plain hset hswf .transferHookProgramId rfl
        (fun m e hget => ?_) fun a ha => ?_
    · rw [View.authority, hget]
      rfl
    · cases a <;> first | rfl | (rcases ha with h | h <;> cases h)
  | metadataPointer =>
    refine setExtensionAuthority_plain hset hswf .metadataPointer rfl
        (fun m e hget => ?_) fun a ha => ?_
    · rw [View.authority, hget]
      rfl
    · cases a <;> first | rfl | (rcases ha with h | h <;> cases h)
  | groupPointer =>
    refine setExtensionAuthority_plain hset hswf .groupPointer rfl
        (fun m e hget => ?_) fun a ha => ?_
    · rw [View.authority, hget]
      rfl
    · cases a <;> first | rfl | (rcases ha with h | h <;> cases h)
  | groupMemberPointer =>
    refine setExtensionAuthority_plain hset hswf .groupMemberPointer rfl
        (fun m e hget => ?_) fun a ha => ?_
    · rw [View.authority, hget]
      rfl
    · cases a <;> first | rfl | (rcases ha with h | h <;> cases h)
  | scaledUiAmount =>
    refine setExtensionAuthority_quiet hset hswf fun m e k new hget hk => ?_
    have hb : m.authority .scaledUiAmount = some k := by
      rw [View.authority, hget]
      exact hk
    refine .setShown hget rfl ?_ (View.settled_set_of_some hb fun a ha => ?_)
    · simp only [View.records, hget, View.get_set_same]
      rfl
    · cases a <;> first | rfl | (rcases ha with h | h <;> cases h)

theorem processSetAuthority_refines {authorityType : AuthorityType}
    {newAuthority : PodCOption Pubkey} (hwf : σ.Wf)
    (hresets : ∀ info rest, accounts = info :: rest → authorityType = .accountOwner →
      c.Resets info.key)
    (h : processSetAuthority c.ctx accounts authorityType newAuthority σ = .ok σ') :
    Refines rt c σ σ' := by
  obtain _ | ⟨accountInfo, _ | ⟨authorityInfo, signers⟩⟩ := accounts
  · cases h
  · cases h
  simp only [processSetAuthority] at h
  split at h
  · rename_i s hload
    simp only [bind_eq_ok] at h
    obtain ⟨s', hset, h⟩ := h
    exact setAccountAuthority_refines hwf (hresets _ _ rfl) (toOption_eq_some.mp hload) hset h
  · split at h
    · rename_i s hload
      simp only [bind_eq_ok] at h
      obtain ⟨s', hset, h⟩ := h
      exact refines_quiet_mint hwf (toOption_eq_some.mp hload) h
        fun hswf => setMintAuthority_quiet hset hswf
    · cases h

/-! ## Freezing -/

theorem processToggleFreezeAccount_refines {freeze : Bool} (hwf : σ.Wf)
    (hthaw : freeze = false → c.instruction = .thawAccount)
    (h : processToggleFreezeAccount accounts freeze σ = .ok σ') : Refines rt c σ σ' := by
  obtain _ | ⟨sourceInfo, _ | ⟨mintInfo, _ | ⟨authorityInfo, signers⟩⟩⟩ := accounts
  · cases h
  · cases h
  · cases h
  simp only [processToggleFreezeAccount, bind_eq_ok, exists_unit, failIf_eq_ok] at h
  obtain ⟨s, hload, hstate, hnative, _, m, _, _, _, _, h⟩ := h
  refine refines_base hwf hload h (by cases freeze <;> rfl) fun held => ?_
  refine .state held hnative (by cases freeze <;> simp) (fun hfrozen => ?_) rfl (.refl _)
  cases freeze with
  | false => exact hthaw rfl
  | true =>
    have hfrozen : s.base.isFrozen = true := hfrozen
    simp [hfrozen] at hstate

/-! ## Native balances -/

theorem processSyncNative_refines (hwf : σ.Wf) (h : processSyncNative accounts σ = .ok σ') :
    Refines rt c σ σ' := by
  obtain _ | ⟨nativeAccountInfo, rest⟩ := accounts
  · cases h
  simp only [processSyncNative, bind_eq_ok, exists_unit, okOr_eq_ok, failIf_eq_ok,
    decide_eq_false_iff_not, UInt64.not_lt] at h
  obtain ⟨_, s, hload, reserve, hreserve, amount, hamount, hle, h⟩ := h
  refine refines_base hwf hload h (packed_of_load hload).initialized fun held => ?_
  exact .syncNative held hreserve (checkedSub_eq_some.mp hamount) hle rfl (.refl _)

end Handlers

end SolanaEasy.Token
