import SolanaEasy.Token.Refine.ConfidentialMintBurn

/-!
# Refinement — extension processors

The three shapes of `Refine.Settings`, applied: every initialiser, every update and
every switch, with what is particular to transfer fees, pausing and default states.
-/

namespace SolanaEasy.Token.Processor

variable {rt : Runtime} {c : Call} {σ σ' : Ledger} {accounts : List AccountInfo}

/-! ## Markers and authorities -/

/-- An initialiser of a setting. -/
theorem initSetting_refines {V : Type} [Pod V] [Extension V] [Inhabited V] [SizedExtension V]
    {before : Result Unit} {value : Result V} (ht : (Extension.type V).isTreasury = false)
    (hp : ((Extension.type V).isPurse || (Extension.type V).isRecord) = false) (hwf : σ.Wf)
    (h : initMintExtension accounts before value σ = .ok σ') : Refines rt c σ σ' :=
  initMintExtension_refines hwf (fun x _ => View.fresh_only x ht hp) h

theorem processInitializeMintCloseAuthority_refines {k : PodCOption Pubkey} (hwf : σ.Wf)
    (h : processInitializeMintCloseAuthority accounts k σ = .ok σ') : Refines rt c σ σ' :=
  initSetting_refines rfl rfl hwf h

theorem processInitializeNonTransferableMint_refines (hwf : σ.Wf)
    (h : processInitializeNonTransferableMint accounts σ = .ok σ') : Refines rt c σ σ' :=
  initSetting_refines rfl rfl hwf h

theorem processInitializePermanentDelegate_refines {k : Pubkey} (hwf : σ.Wf)
    (h : processInitializePermanentDelegate accounts k σ = .ok σ') : Refines rt c σ σ' :=
  initSetting_refines rfl rfl hwf h

/-! ## Default account state -/

theorem checkValidDefaultState_ok {state : AccountState}
    (h : checkValidDefaultState state = .ok ()) :
    state.toU8 = 1 ∨ state.toU8 = 2 := by
  cases state with
  | uninitialized => cases h
  | initialized => exact .inl rfl
  | frozen => exact .inr rfl

theorem processInitializeDefaultAccountState_refines {state : AccountState} (hwf : σ.Wf)
    (h : processInitializeDefaultAccountState accounts state σ = .ok σ') : Refines rt c σ σ' := by
  simp only [processInitializeDefaultAccountState, bind_eq_ok, exists_unit] at h
  refine initMintExtension_refines hwf (fun x hx => ?_) h.2
  obtain rfl := Except.ok.inj hx
  exact View.fresh_only_defaultState (checkValidDefaultState_ok h.1)

theorem processUpdateDefaultAccountState_refines {state : AccountState} (hwf : σ.Wf)
    (h : processUpdateDefaultAccountState accounts state σ = .ok σ') : Refines rt c σ σ' := by
  simp only [processUpdateDefaultAccountState, bind_eq_ok, exists_unit] at h
  obtain ⟨hstate, h⟩ := h
  obtain _ | ⟨mintInfo, _ | ⟨authorityInfo, signers⟩⟩ := accounts
  · cases h
  · cases h
  simp only [bind_eq_ok, exists_unit, okOr_eq_ok] at h
  obtain ⟨m, hload, k, hk, _, m', hset, h⟩ := h
  refine refines_store_mint hwf hload h fun hmwf held => ?_
  obtain ⟨hst, hsome⟩ := PodState.setExtension_ok hmwf hset
  obtain ⟨old, hget⟩ := Option.isSome_iff_exists.mp
    ((PodState.get_isSome_iff (V := DefaultAccountState) hmwf rfl).mpr hsome)
  refine ⟨_, hst, (packed_of_load hload).initialized, fun _ x hx => ?_, .mint _ held
    (m.view.mintCore_set_of_ne _ (.inr rfl)) (View.keeps_set hget
      (View.settled_set_of_some (b := .freezeAccount) hk fun a ha => ?_))⟩
  · rw [View.get_set_same, Option.some.injEq] at hx
    rw [← hx]
    exact checkValidDefaultState_ok hstate
  · cases a <;> first | rfl | (rcases ha with h | h <;> cases h)

/-! ## Settings -/

theorem InterestBearingMint.processInitialize_refines {k : OptionalNonZeroPubkey} {rate : Int16}
    (hwf : σ.Wf) (h : InterestBearingMint.processInitialize c.ctx accounts k rate σ = .ok σ') :
    Refines rt c σ σ' := by
  refine initMintExtension_refines hwf (fun x hx => ?_) h
  obtain rfl := Except.ok.inj hx
  exact View.fresh_only_interest rfl rfl

/-- An update of what the mint shows, by the one authority over it. -/
theorem updateShown_refines {V : Type} [Pod V] [Extension V] {authority : V → Option Pubkey}
    {missing : TokenError} {update : V → Result V} (b : AuthorityType)
    (ht : (Extension.type V).isShown = true)
    (hrewrites : c.instruction.rewrites (Extension.type V) = true)
    (hb : ∀ (m : View PodMint) e, m.get V = some e → m.authority b = authority e)
    (honly : ∀ a : AuthorityType, a.home = some (Extension.type V) ∨
      a.domain = some (Extension.type V) → a = b) (hwf : σ.Wf)
    (h : updateMintExtension accounts authority missing update σ = .ok σ') :
    Refines rt c σ σ' := by
  refine updateMintExtension_refines (by rintro he; rw [← he] at ht; cases ht) hwf ?_ h
  rintro M rest s e e' - - hget ⟨k, hk⟩ - held
  exact .rewrite _ (View.rewrites_setExt (.inr hrewrites)) held (s.view.mintCore_set_shown e' ht)
    (View.keeps_set hget (View.settled_set_of_some ((hb _ e hget).trans hk) honly))

theorem InterestBearingMint.processUpdateRate_refines {rate : Int16} (hwf : σ.Wf)
    (hrewrites : c.instruction.rewrites .interestBearingConfig = true)
    (h : InterestBearingMint.processUpdateRate c.ctx accounts rate σ = .ok σ') :
    Refines rt c σ σ' := by
  refine updateShown_refines .interestRate rfl hrewrites (fun m e hget => ?_) (fun a ha => ?_) hwf h
  · rw [View.authority, hget, Option.bind_some]
  · cases a <;> first | rfl | (rcases ha with h | h <;> cases h)

theorem TransferHook.processInitialize_refines {k program : OptionalNonZeroPubkey} (hwf : σ.Wf)
    (h : TransferHook.processInitialize accounts k program σ = .ok σ') : Refines rt c σ σ' :=
  initSetting_refines rfl rfl hwf h

theorem TransferHook.processUpdate_refines {program : OptionalNonZeroPubkey} (hwf : σ.Wf)
    (h : TransferHook.processUpdate accounts program σ = .ok σ') : Refines rt c σ σ' := by
  refine updateMintExtension_plain .transferHookProgramId rfl (fun m e hget => ?_)
    (fun a ha => ?_) hwf h
  · rw [View.authority, hget, Option.bind_some]
  · cases a <;> first | rfl | (rcases ha with h | h <;> cases h)

theorem MetadataPointer.processInitialize_refines {k address : OptionalNonZeroPubkey} (hwf : σ.Wf)
    (h : MetadataPointer.processInitialize accounts k address σ = .ok σ') : Refines rt c σ σ' :=
  initSetting_refines rfl rfl hwf h

theorem MetadataPointer.processUpdate_refines {address : OptionalNonZeroPubkey} (hwf : σ.Wf)
    (h : MetadataPointer.processUpdate accounts address σ = .ok σ') : Refines rt c σ σ' := by
  refine updateMintExtension_plain .metadataPointer rfl (fun m e hget => ?_) (fun a ha => ?_) hwf h
  · rw [View.authority, hget, Option.bind_some]
  · cases a <;> first | rfl | (rcases ha with h | h <;> cases h)

theorem GroupPointer.processInitialize_refines {k address : OptionalNonZeroPubkey} (hwf : σ.Wf)
    (h : GroupPointer.processInitialize accounts k address σ = .ok σ') : Refines rt c σ σ' :=
  initSetting_refines rfl rfl hwf h

theorem GroupPointer.processUpdate_refines {address : OptionalNonZeroPubkey} (hwf : σ.Wf)
    (h : GroupPointer.processUpdate accounts address σ = .ok σ') : Refines rt c σ σ' := by
  refine updateMintExtension_plain .groupPointer rfl (fun m e hget => ?_) (fun a ha => ?_) hwf h
  · rw [View.authority, hget, Option.bind_some]
  · cases a <;> first | rfl | (rcases ha with h | h <;> cases h)

theorem GroupMemberPointer.processInitialize_refines {k address : OptionalNonZeroPubkey}
    (hwf : σ.Wf) (h : GroupMemberPointer.processInitialize accounts k address σ = .ok σ') :
    Refines rt c σ σ' := initSetting_refines rfl rfl hwf h

theorem GroupMemberPointer.processUpdate_refines {address : OptionalNonZeroPubkey} (hwf : σ.Wf)
    (h : GroupMemberPointer.processUpdate accounts address σ = .ok σ') : Refines rt c σ σ' := by
  refine updateMintExtension_plain .groupMemberPointer rfl (fun m e hget => ?_) (fun a ha => ?_)
    hwf h
  · rw [View.authority, hget, Option.bind_some]
  · cases a <;> first | rfl | (rcases ha with h | h <;> cases h)

theorem ScaledUiAmount.processInitialize_refines {k : OptionalNonZeroPubkey} {x : UInt64}
    (hwf : σ.Wf) (h : ScaledUiAmount.processInitialize accounts k x σ = .ok σ') :
    Refines rt c σ σ' := by
  refine initMintExtension_refines hwf (fun e he => ?_) h
  simp only [bind_eq_ok, exists_unit, pure_eq_ok, ScaledUiAmount.tryValidateMultiplier,
    failIf_eq_ok, Bool.not_eq_false'] at he
  obtain ⟨hvalid, rfl⟩ := he
  exact View.fresh_only_multiplier rfl rfl hvalid

theorem ScaledUiAmount.processUpdateMultiplier_refines {x : UInt64} {t : Int64} (hwf : σ.Wf)
    (hrewrites : c.instruction.rewrites .scaledUiAmount = true)
    (h : ScaledUiAmount.processUpdateMultiplier c.ctx accounts x t σ = .ok σ') :
    Refines rt c σ σ' := by
  refine updateShown_refines .scaledUiAmount rfl hrewrites (fun m e hget => ?_) (fun a ha => ?_)
    hwf h
  · rw [View.authority, hget, Option.bind_some]
  · cases a <;> first | rfl | (rcases ha with h | h <;> cases h)

/-! ## Pausing -/

theorem Pausable.processInitialize_refines {k : Pubkey} (hwf : σ.Wf)
    (h : Pausable.processInitialize accounts k σ = .ok σ') : Refines rt c σ σ' :=
  initMintExtension_refines hwf (fun x _ => View.fresh_only_pausable x) h

theorem Pausable.processTogglePause_refines {b : Bool} (hwf : σ.Wf)
    (htoggles : c.instruction = if b then .pause else .resume)
    (h : Pausable.processTogglePause c.accounts b σ = .ok σ') : Refines rt c σ σ' := by
  refine updateMintExtension_refines (by decide) hwf ?_ h
  rintro M rest s e e' haccounts - hget ⟨k, hk⟩ hupdate held
  obtain rfl := Except.ok.inj hupdate
  have hhead : c.key? 0 = some M.key := by rw [Call.key?, haccounts]; rfl
  have hb : s.view.authority .pause = some k := by
    rw [View.authority, hget]
    exact hk
  refine .pause hhead htoggles held ?_ (View.keeps_set hget
    (View.settled_set_of_some hb fun a ha => ?_))
  · rw [View.mintCore_set_pausable]
    cases b <;> rfl
  · cases a <;> first | rfl | (rcases ha with h | h <;> cases h)

/-! ## Transfer fees -/

theorem TransferFee.checkBasisPoints_ok {bps : UInt16}
    (h : TransferFee.checkBasisPoints bps = .ok ()) :
    bps.toNat ≤ Token.TransferFee.maxFeeBasisPoints := by
  simpa only [TransferFee.checkBasisPoints, failIf_eq_ok, decide_eq_false_iff_not, gt_iff_lt,
    not_lt] using h

theorem TransferFee.processInitializeTransferFeeConfig_refines {k k' : Option Pubkey}
    {bps : UInt16} {max : UInt64} (hwf : σ.Wf)
    (h : TransferFee.processInitializeTransferFeeConfig c.ctx accounts k k' bps max σ = .ok σ') :
    Refines rt c σ σ' := by
  refine initMintExtension_refines hwf (fun x hx => ?_) h
  simp only [bind_eq_ok, exists_unit, pure_eq_ok] at hx
  obtain ⟨_, _, _, _, hvalid, rfl⟩ := hx
  exact View.fresh_only_feeConfig rfl rfl (TransferFee.checkBasisPoints_ok hvalid)

theorem TransferFee.processSetTransferFee_refines {bps : UInt16} {max : UInt64} (hwf : σ.Wf)
    (hsets : c.instruction = .setTransferFee bps max)
    (h : TransferFee.processSetTransferFee c.ctx c.accounts bps max σ = .ok σ') :
    Refines rt c σ σ' := by
  refine updateMintExtension_refines (by decide) hwf ?_ h
  rintro M rest s e e' haccounts - hget ⟨k, hk⟩ hupdate held
  simp only [bind_eq_ok, exists_unit, pure_eq_ok] at hupdate
  obtain ⟨hvalid, rfl⟩ := hupdate
  have hhead : c.key? 0 = some M.key := by rw [Call.key?, haccounts]; rfl
  obtain ⟨hwithheld, hfees⟩ := View.mintCore_withheld_of_get hget
  refine .setFee hhead hsets held hfees (TransferFee.checkBasisPoints_ok hvalid) ?_
    (View.keeps_set hget (View.settled_set fun a ha hnone => ?_))
  · rw [View.mintCore_set_feeConfig, ← hwithheld]
  · cases a with
    | transferFeeConfig =>
      rw [View.authority, hget, Option.bind_some, hk] at hnone
      cases hnone
    | withheldWithdraw =>
      rw [View.authority, hget] at hnone
      refine ⟨by rw [View.authority, View.get_set_same]; exact hnone, ?_⟩
      rw [View.SameSetting, View.mintWithheld, View.mintWithheld, View.get_set_same, hget]
      exact Nat.le_refl _
    | _ => rcases ha with ha | ha <;> cases ha

/-! ## Account switches -/

theorem processToggleRequiredMemoTransfers_refines {enable : Bool} (hwf : σ.Wf)
    (h : processToggleRequiredMemoTransfers accounts enable σ = .ok σ') : Refines rt c σ σ' :=
  toggleAccountExtension_refines hwf (fun _ s _ held =>
    .account held (s.view.core_set_of_ne _ rfl) (s.view.grows_set _)) h

theorem processToggleCpiGuard_refines {enable : Bool} (hwf : σ.Wf)
    (htoggles : c.instruction = .cpiGuard enable)
    (h : processToggleCpiGuard c.ctx accounts enable σ = .ok σ') : Refines rt c σ σ' :=
  toggleAccountExtension_refines hwf (fun _ s hguard held =>
    .lock held (failIf_eq_ok.mp hguard) ⟨_, htoggles⟩ (s.view.core_set_guard _)
      (s.view.grows_set _)) h

end SolanaEasy.Token.Processor
