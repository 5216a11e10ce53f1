import SolanaEasy.Token.Refine.TransferFee

/-!
# Refinement — confidential balances of one account

Configuring an account, the changes an owner makes to its own hidden balances, and
the conversions between open and hidden amounts.
-/

namespace SolanaEasy.Token

open Processor

/-! ## The accounts behind the proofs -/

section Suffix

variable {ctx : Context} {σ : Ledger} {accounts rest : List AccountInfo}

theorem verifyAndExtractContext_suffix {U : Type} [Pod U] {t : ProofType} {offset : Int}
    {sysvar : Option AccountInfo} {p : U}
    (h : verifyAndExtractContext U t ctx σ offset sysvar accounts = .ok (p, rest)) :
    rest <:+ accounts := by
  unfold verifyAndExtractContext at h
  split at h
  · obtain _ | ⟨info, infos⟩ := accounts
    · cases h
    simp only [bind_eq_ok, pure_eq_ok, Prod.mk.injEq] at h
    obtain ⟨_, _, _, _, _, _, _, rfl⟩ := h
    exact List.suffix_cons ..
  · cases sysvar with
    | some info =>
      simp only [ok_bind, bind_eq_ok, pure_eq_ok, Prod.mk.injEq] at h
      obtain ⟨_, _, _, _, _, _, _, _, _, rfl⟩ := h
      exact List.suffix_rfl
    | none =>
      obtain _ | ⟨info, infos⟩ := accounts
      · cases h
      simp only [ok_bind, bind_eq_ok, pure_eq_ok, Prod.mk.injEq] at h
      obtain ⟨_, _, _, _, _, _, _, _, _, rfl⟩ := h
      exact List.suffix_cons ..

theorem takeSysvar_suffix {wanted : Bool} {sysvar : Option AccountInfo}
    (h : takeSysvar wanted accounts = .ok (sysvar, rest)) : rest <:+ accounts := by
  cases wanted with
  | false =>
    obtain ⟨rfl, rfl⟩ := Prod.mk.inj (Except.ok.inj h)
    exact List.suffix_rfl
  | true =>
    obtain _ | ⟨info, infos⟩ := accounts
    · cases h
    · obtain ⟨rfl, rfl⟩ := Prod.mk.inj (Except.ok.inj h)
      exact List.suffix_cons ..

theorem takeAmountProof_suffix {first : Bool} {eo vo ro : Int} {p : AmountProof}
    (h : takeAmountProof ctx σ first eo vo ro accounts = .ok (p, rest)) : rest <:+ accounts := by
  simp only [takeAmountProof, bind_eq_ok, Prod.exists, pure_eq_ok, Prod.mk.injEq] at h
  obtain ⟨_, _, h₀, _, _, h₁, _, _, h₂, _, _, h₃, _, rfl⟩ := h
  exact (verifyAndExtractContext_suffix h₃).trans ((verifyAndExtractContext_suffix h₂).trans
    ((verifyAndExtractContext_suffix h₁).trans (takeSysvar_suffix h₀)))

theorem verifyWithdrawProof_suffix {eo ro : Int} {p : WithdrawProofContext}
    (h : verifyWithdrawProof ctx σ eo ro accounts = .ok (p, rest)) : rest <:+ accounts := by
  simp only [verifyWithdrawProof, bind_eq_ok, Prod.exists, pure_eq_ok, Prod.mk.injEq] at h
  obtain ⟨_, _, h₀, _, _, h₁, _, _, h₂, _, _, _, rfl⟩ := h
  exact (verifyAndExtractContext_suffix h₂).trans ((verifyAndExtractContext_suffix h₁).trans
    (takeSysvar_suffix h₀))

theorem verifyTransferProof_suffix {eo vo ro : Int} {p : TransferProofContext}
    (h : verifyTransferProof ctx σ eo vo ro accounts = .ok (p, rest)) : rest <:+ accounts := by
  simp only [verifyTransferProof, bind_eq_ok, Prod.exists, pure_eq_ok, Prod.mk.injEq] at h
  obtain ⟨_, _, h₁, _, _, _, rfl⟩ := h
  exact takeAmountProof_suffix h₁

theorem verifyBurnProof_suffix {eo vo ro : Int} {p : BurnProofContext}
    (h : verifyBurnProof ctx σ eo vo ro accounts = .ok (p, rest)) : rest <:+ accounts := by
  simp only [verifyBurnProof, bind_eq_ok, Prod.exists, pure_eq_ok, Prod.mk.injEq] at h
  obtain ⟨_, _, h₁, _, _, _, rfl⟩ := h
  exact takeAmountProof_suffix h₁

theorem verifyTransferWithFeeProof_suffix {rt : Runtime} {o : FeeProofOffsets}
    {f : TransferFee} {p : TransferWithFeeProofContext}
    (h : verifyTransferWithFeeProof rt ctx σ o f accounts = .ok (p, rest)) : rest <:+ accounts := by
  simp only [verifyTransferWithFeeProof, bind_eq_ok, Prod.exists, pure_eq_ok, Prod.mk.injEq] at h
  obtain ⟨_, _, h₀, _, _, h₁, _, _, h₂, _, _, h₃, _, _, h₄, _, _, h₅, _, _, _, rfl⟩ := h
  exact (verifyAndExtractContext_suffix h₅).trans ((verifyAndExtractContext_suffix h₄).trans
    ((verifyAndExtractContext_suffix h₃).trans ((verifyAndExtractContext_suffix h₂).trans
      ((verifyAndExtractContext_suffix h₁).trans (takeSysvar_suffix h₀)))))

end Suffix

/-- An authority and its signers, at the end of the accounts. -/
theorem Call.Endorsed.of_suffix {c : Call} {authorityInfo : AccountInfo}
    {signers : List AccountInfo} {key : Pubkey} (hs : (authorityInfo :: signers) <:+ c.accounts)
    (h : checkOwner c.σ authorityInfo signers key = .ok ()) : c.Endorsed key :=
  .of_checkOwner (hs.subset (by simp)) ((List.sublist_cons_self ..).trans hs.sublist) h

namespace Processor.ConfidentialTransfer

variable {rt : Runtime} {c : Call} {σ σ' : Ledger} {accounts : List AccountInfo}

/-! ## Settings of the mint -/

theorem processInitializeMint_refines {authority : OptionalNonZeroPubkey} {approve : PodBool}
    {auditor : OptionalNonZeroElGamalPubkey} (hwf : σ.Wf)
    (h : processInitializeMint accounts authority approve auditor σ = .ok σ') :
    Refines rt c σ σ' := by
  obtain _ | ⟨mintInfo, rest⟩ := accounts
  · cases h
  simp only [processInitializeMint, bind_eq_ok, exists_unit] at h
  exact initMintExtension_refines hwf (fun x _ => View.fresh_only x rfl rfl) h.2

theorem processUpdateMint_refines {approve : PodBool} {auditor : OptionalNonZeroElGamalPubkey}
    (hwf : σ.Wf) (h : processUpdateMint accounts approve auditor σ = .ok σ') :
    Refines rt c σ σ' := by
  obtain _ | ⟨mintInfo, _ | ⟨authorityInfo, rest⟩⟩ := accounts
  · cases h
  · cases h
  simp only [processUpdateMint, loadChecked, bind_eq_ok, exists_unit, okOr_eq_ok,
    PodState.getExtension_eq_ok] at h
  obtain ⟨m, ⟨_, hload⟩, e, hget, k, hk, _, _, m', hset, h⟩ := h
  have hb : m.view.authority .confidentialTransferMint = some k := by
    rw [View.authority, hget]
    exact hk
  refine refines_quiet_mint hwf hload h fun hmwf => ⟨_, (PodState.setExtension_ok hmwf hset).1, ?_⟩
  refine .set hget rfl (View.settled_set_of_some hb fun a ha => ?_)
  cases a <;> first | rfl | (rcases ha with h | h <;> cases h)

/-! ## Configuring an account -/

theorem configure_refines {k M : Pubkey} {s : PodState PodAccount} {key : PodElGamalPubkey}
    {b : PodAeCiphertext} {n : UInt64} (hwf : σ.Wf) (howner : (σ k).owner = Keys.tokenProgram)
    (hload : load σ PodAccount k = .ok s) (hmint : s.base.mint = M)
    (hconfigures : c.instruction.configures = true) (hchosen : c.Chosen s.base.owner key)
    (h : configure σ k M s key b n = .ok σ') :
    Refines rt c σ σ' := by
  simp only [configure, loadCheckedBeside, loadBeside, checkProgramAccount, bind_eq_ok,
    exists_unit, failIf_eq_ok, bne_eq_false_iff_eq, PodState.getExtension_eq_ok] at h
  obtain ⟨m, ⟨howner', _, hm⟩, e, hget, s₁, hs₁, h⟩ := h
  obtain ⟨hswf, _⟩ := hwf.load howner hload
  obtain ⟨hst₁, hnew⟩ := PodState.initExtension_ok hswf hs₁
  obtain ⟨s₂, v, y, hst₂, hcore, hfees, hgrows, h⟩ : ∃ (s₂ : PodState PodAccount)
      (v : View PodAccount) (y : Option ConfidentialTransferFeeAmount), s.Stored s₂ v ∧
      v.core = { s.view.core with
        secret := some (configuredAccount e.autoApproveNewAccounts key b n), fees := y } ∧
      (y = s.view.core.fees ∨ s.view.core.fees = none ∧ y = some ⟨.zeroed⟩) ∧ s.view.Grows v ∧
      store σ k s₂ = .ok σ' := by
    split at h
    · simp only [bind_eq_ok] at h
      obtain ⟨s₂, hs₂, h⟩ := h
      obtain ⟨hst₂, hnone⟩ := PodState.initExtension_ok hst₁.wf hs₂
      rw [hst₁.view] at hst₂ hnone
      refine ⟨s₂, _, some ⟨.zeroed⟩, hst₁.trans hst₂, ?_, .inr ⟨?_, rfl⟩,
        (View.grows_set _ _).trans (View.grows_set _ _), h⟩
      · rw [View.core_set_fees, View.core_set_secret]
      · have hext := hnone rfl
        rw [View.set, View.ext_setExt, if_neg (by decide)] at hext
        exact View.get_eq_none_of_ext hext
    · simp only [ok_bind] at h
      refine ⟨s₁, _, s.view.core.fees, hst₁, ?_, .inl rfl, View.grows_set _ _, h⟩
      rw [View.core_set_secret]
  have hbase : v.base = s.base := congrArg Core.base hcore
  have hinit : v.base.isInitialized = true := by
    rw [hbase]
    exact (packed_of_load hload).initialized
  have hw := store_held hwf howner hload hst₂ hinit trivial h
  refine ⟨hw.wf, hw.book ▸ .single (.configure hconfigures (contents_of_load howner hload) hmint
    (contents_of_load howner' hm) (by rw [hget]; rfl) hchosen ?_ hfees hcore hgrows)⟩
  exact View.get_eq_none_of_ext (hnew rfl)

theorem processConfigureAccount_refines {b : PodAeCiphertext} {n : UInt64} {offset : Int}
    (hwf : c.σ.Wf) (hconfigures : c.instruction.configures = true)
    (h : processConfigureAccount c.ctx c.accounts b n offset c.σ = .ok σ') :
    Refines rt c c.σ σ' := by
  unfold processConfigureAccount at h
  split at h
  · rename_i tokenAccountInfo mintInfo rest haccounts
    simp only [bind_eq_ok, Prod.exists, loadChecked, checkProgramAccount, exists_unit,
      failIf_eq_ok, bne_eq_false_iff_eq] at h
    obtain ⟨p, rest', hproof, s, ⟨howner, hload⟩, hmint, h⟩ := h
    obtain _ | ⟨authorityInfo, signers⟩ := rest'
    · cases h
    simp only [bind_eq_ok, exists_unit] at h
    obtain ⟨_, hok, h⟩ := h
    refine configure_refines hwf howner hload hmint hconfigures
      (.proved ⟨_, _, _, _, hproof⟩ rfl ?_) h
    refine .of_suffix ?_ hok
    rw [haccounts]
    exact (verifyAndExtractContext_suffix hproof).trans (List.suffix_append [_, _] _)
  · cases h

/-- The account with more room, after the payment for it. -/
structure Reallocated (rt : Runtime) (c : Call) (σ σ' : Ledger) (k : Pubkey) (τ : Ledger)
    (s : PodState PodAccount) (n : ℕ) : Prop where
  owner : (σ k).owner = Keys.tokenProgram
  paid : Refines rt c σ τ
  owners : ∀ j, (τ j).owner = (σ j).owner
  data : ∀ j, (τ j).data = (σ j).data
  load : load σ PodAccount k = .ok s
  unpack : unpack PodAccount (s.grown n).bytes = .ok (s.grown n)
  eq : σ' = τ.set k { τ k with data := (s.grown n).bytes }

theorem reallocate_ok {k : Pubkey} {payerInfo : AccountInfo} (hwf : σ.Wf)
    (hpayer : c.Given payerInfo.key) (hk : c.Given k)
    (h : reallocateForConfigureAccountWithRegistry rt σ k payerInfo = .ok σ') :
    ∃ s types needed, Token.load σ PodAccount k = .ok s ∧ s.getExtensionTypes = .ok types ∧
      tryCalculateAccountLen PodAccount (types ++ .confidentialTransferAccount ::
        if types.contains .transferFeeAmount then [.confidentialTransferFeeAmount] else []) =
          .ok needed ∧
      ((needed ≤ (σ k).data.length ∧ σ' = σ) ∨ (σ k).data.length < needed ∧
        ∃ τ n, (s.grown n).bytes.length = needed ∧ Reallocated rt c σ σ' k τ s n) := by
  simp only [reallocateForConfigureAccountWithRegistry, bind_eq_ok] at h
  obtain ⟨s, hload, types, htypes, needed, hneeded, h⟩ := h
  obtain ⟨hbytes, hp⟩ := unpack_eq_ok.mp hload
  refine ⟨s, types, needed, hload, htypes, hneeded, ?_⟩
  split at h
  · rename_i hle
    exact .inl ⟨hle, (pure_eq_ok.mp h).symm⟩
  rename_i hlt
  rw [ge_iff_le, not_le] at hlt
  simp only [bind_eq_ok] at h
  obtain ⟨σ₁, hresize, h⟩ := h
  obtain ⟨σ₂, hpay, data, htype, h⟩ : ∃ σ₂,
      (σ₁.systemTransfer payerInfo k
          (saturatingSub (rt.minimumBalance needed) (σ₁ k).lamports) = .ok σ₂ ∨ σ₂ = σ₁) ∧
        ∃ data, setAccountType PodAccount (σ₂ k).data = .ok data ∧
          σ₂.writeData k data = .ok σ' := by
    split at h
    · simp only [bind_eq_ok] at h
      obtain ⟨σ₂, hpay, h⟩ := h
      exact ⟨σ₂, .inl hpay, h⟩
    · simp only [ok_bind, bind_eq_ok] at h
      exact ⟨σ₁, .inr rfl, h⟩
  obtain ⟨howner, τ, (hτ : Refines rt c σ τ), howners, hdata, rfl⟩ :=
    resize_then_pay hwf hpayer hk hlt hresize hpay
  rw [Ledger.set_same, hbytes] at htype
  obtain ⟨rfl, hroom, hlen⟩ := setAccountType_ok hp htype
  have hlength : (s.grown (needed - s.bytes.length)).bytes.length = needed := by
    rw [PodState.length_bytes_grown hp hroom]
    rw [hbytes] at hlt
    omega
  obtain ⟨_, rfl⟩ := writeData_eq_ok.mp h
  rw [Ledger.set_same, Ledger.set_set]
  exact .inr ⟨hlt, τ, _, hlength, howner, hτ, howners, hdata, hload,
    unpack_eq_ok.mpr ⟨rfl, PodState.packed_grown hp hroom hlen⟩, by rw [hbytes]⟩

/-- The mint that `configure` insists on. -/
theorem configure_mint {k M : Pubkey} {s : PodState PodAccount} {key : PodElGamalPubkey}
    {b : PodAeCiphertext} {n : UInt64} (h : configure σ k M s key b n = .ok σ') :
    M ≠ k ∧ (σ M).owner = Keys.tokenProgram ∧ ∃ m e, load σ PodMint M = .ok m ∧
      m.view.get ConfidentialTransferMint = some e := by
  simp only [configure, loadCheckedBeside, loadBeside, checkProgramAccount, bind_eq_ok,
    exists_unit, failIf_eq_ok, bne_eq_false_iff_eq, beq_eq_false_iff_ne,
    PodState.getExtension_eq_ok] at h
  obtain ⟨m, ⟨howner, hne, hm⟩, e, hget, _⟩ := h
  exact ⟨hne, howner, m, e, hm, hget⟩

/-- More room for a confidential account: its mint has an extension, so that it is not native. -/
theorem Reallocated.refines {k : Pubkey} {τ : Ledger} {s : PodState PodAccount} {n : ℕ}
    {m : PodState PodMint} {e : ConfidentialTransferMint}
    (hr : Reallocated rt c σ σ' k τ s n) (hne : s.base.mint ≠ k)
    (howner : (σ' s.base.mint).owner = Keys.tokenProgram)
    (hmint : Token.load σ' PodMint s.base.mint = .ok m)
    (hget : m.view.get ConfidentialTransferMint = some e) : Refines rt c σ σ' := by
  have hload : Token.load τ PodAccount k = .ok s := by
    rw [Token.load, hr.data]
    exact hr.load
  have howner' : (τ k).owner = Keys.tokenProgram := (hr.owners k).trans hr.owner
  obtain ⟨hswf, _⟩ := hr.paid.wf.load howner' hload
  obtain ⟨hgwf, hview⟩ := PodState.wf_grown hswf n
  obtain ⟨hwf', hbook⟩ := set_resized hr.paid.wf howner' hload hr.unpack hgwf trivial
  rw [hr.eq, Ledger.set_of_ne _ _ hne] at howner
  rw [hr.eq, load_set_of_ne _ hne] at hmint
  rw [hview] at hbook
  rw [hr.eq]
  exact hr.paid.trans ⟨hwf', hbook ▸ .single (.growSecret _ (contents_of_load howner' hload)
    (contents_of_load howner hmint) ⟨_, View.ext_isSome_of_get hget⟩ rfl (.refl _))⟩

theorem processConfigureAccountWithRegistry_refines (hwf : c.σ.Wf)
    (hconfigures : c.instruction.configures = true)
    (h : processConfigureAccountWithRegistry rt c.accounts c.σ = .ok σ') :
    Refines rt c c.σ σ' := by
  unfold processConfigureAccountWithRegistry at h
  split at h
  · rename_i tokenAccountInfo mintInfo registryInfo rest haccounts
    simp only [bind_eq_ok, exists_unit, failIf_eq_ok, bne_eq_false_iff_eq] at h
    obtain ⟨hregistry, h⟩ := h
    have hmem : ∀ info, info ∈ tokenAccountInfo :: mintInfo :: registryInfo :: rest →
        c.Given info.key := fun info hinfo => .of_mem (by rw [haccounts]; exact hinfo)
    obtain ⟨σ₁, hσ₁, registry, hentry, s, ⟨howner, hload⟩, hmint, hsame, h⟩ : ∃ σ₁,
        (σ₁ = c.σ ∨ ∃ τ s n, Reallocated rt c c.σ σ₁ tokenAccountInfo.key τ s n) ∧
        ∃ registry, Pod.decode? ElGamalRegistry (σ₁ registryInfo.key).data = some registry ∧
        ∃ s : PodState PodAccount, ((σ₁ tokenAccountInfo.key).owner = Keys.tokenProgram ∧
            load σ₁ PodAccount tokenAccountInfo.key = .ok s) ∧ s.base.mint = mintInfo.key ∧
          registry.owner = s.base.owner ∧
          configure σ₁ tokenAccountInfo.key mintInfo.key s registry.elgamalPubkey 0
            defaultMaximumPendingBalanceCreditCounter = .ok σ' := by
      split at h
      · simp only [bind_eq_ok, okOr_eq_ok, loadChecked, checkProgramAccount, exists_unit,
          failIf_eq_ok, bne_eq_false_iff_eq] at h
        obtain ⟨σ₁, hrealloc, h⟩ := h
        obtain ⟨s, _, _, _, _, _, hdone⟩ :=
          reallocate_ok hwf (hmem _ (by simp)) (hmem _ (by simp)) hrealloc
        refine ⟨σ₁, ?_, h⟩
        rcases hdone with ⟨_, hsame⟩ | ⟨_, τ, n, _, hr⟩
        · exact .inl hsame
        · exact .inr ⟨τ, s, n, hr⟩
      · cases h
      · simp only [ok_bind, bind_eq_ok, okOr_eq_ok, loadChecked, checkProgramAccount, exists_unit,
          failIf_eq_ok, bne_eq_false_iff_eq] at h
        exact ⟨c.σ, .inl rfl, h⟩
    obtain ⟨owner, key⟩ := registry
    obtain rfl : owner = s.base.owner := hsame
    rcases hσ₁ with rfl | ⟨τ, s₀, n, hr⟩
    · exact configure_refines hwf howner hload hmint hconfigures
        (.registered hregistry hentry) h
    · obtain ⟨hne, hmintOwner, m, e, hm, hget⟩ := configure_mint h
      have hgrown : s = s₀.grown n := by
        have hread := hload
        rw [load, hr.eq, Ledger.set_same] at hread
        exact Except.ok.inj (hread.symm.trans hr.unpack)
      have hbase : s.base = s₀.base := by rw [hgrown]; rfl
      rw [← hmint, hbase] at hne hmintOwner hm
      have href := hr.refines hne hmintOwner hm hget
      refine href.trans (configure_refines href.wf howner hload hmint hconfigures ?_ h)
      have hother : registryInfo.key ≠ tokenAccountInfo.key := by
        intro he
        rw [he, hr.owner] at hregistry
        exact absurd hregistry (by decide)
      rw [hr.eq, Ledger.set_of_ne _ _ hother, hr.data] at hentry
      exact .registered hregistry hentry
  · cases h

theorem processApproveAccount_refines (hwf : σ.Wf)
    (h : processApproveAccount accounts σ = .ok σ') : Refines rt c σ σ' := by
  obtain _ | ⟨tokenAccountInfo, _ | ⟨mintInfo, _ | ⟨authorityInfo, rest⟩⟩⟩ := accounts
  · cases h
  · cases h
  · cases h
  simp only [processApproveAccount, loadChecked, bind_eq_ok, exists_unit,
    PodState.getExtension_eq_ok] at h
  obtain ⟨s, ⟨_, hload⟩, _, _, _, _, _, _, _, _, e, hget, s', hset, h⟩ := h
  refine refines_store_account hwf hload h fun hswf held => ?_
  exact ⟨_, (PodState.setExtension_ok hswf hset).1, (packed_of_load hload).initialized,
    .setting held hget (s.view.core_set_secret _) (s.view.grows_set _)⟩

/-! ## Changes an owner makes to its own balances -/

/-- An account of another program is not written. -/
theorem ownerUpdate_ok {tokenAccountInfo authorityInfo : AccountInfo}
    {signers : List AccountInfo}
    {update : ConfidentialTransferAccount → Result ConfidentialTransferAccount} (hwf : c.σ.Wf)
    (hs : (authorityInfo :: signers) <:+ c.accounts)
    (h : ownerUpdate tokenAccountInfo authorityInfo signers update c.σ = .ok σ') :
    σ' = c.σ ∨ ∃ v e e', c.σ.book.Account tokenAccountInfo.key v ∧
      v.get ConfidentialTransferAccount = some e ∧ c.Endorsed v.base.owner ∧ update e = .ok e' ∧
      σ'.Wf ∧ σ'.book = c.σ.book.put tokenAccountInfo.key (.account (v.set e')) := by
  simp only [ownerUpdate, loadChecked, bind_eq_ok, exists_unit, PodState.getExtension_eq_ok] at h
  obtain ⟨s, ⟨_, hload⟩, hok, e, hget, e', hupdate, s', hset, h⟩ := h
  by_cases howner : (c.σ tokenAccountInfo.key).owner = Keys.tokenProgram
  · obtain ⟨hswf, _⟩ := hwf.load howner hload
    have hw := store_held hwf howner hload (PodState.setExtension_ok hswf hset).1
      (packed_of_load hload).initialized trivial h
    exact .inr ⟨_, e, e', contents_of_load howner hload, hget, .of_suffix hs hok, hupdate, hw.wf,
      hw.book⟩
  · exact .inl (store_foreign howner h)

theorem ownerUpdate_refines {tokenAccountInfo authorityInfo : AccountInfo}
    {signers : List AccountInfo}
    {update : ConfidentialTransferAccount → Result ConfidentialTransferAccount} (hwf : c.σ.Wf)
    (hs : (authorityInfo :: signers) <:+ c.accounts)
    (hmove : ∀ (v : View PodAccount) e e', c.σ.book.Account tokenAccountInfo.key v →
      v.get ConfidentialTransferAccount = some e → c.Endorsed v.base.owner → update e = .ok e' →
      Move rt c c.σ.book (c.σ.book.put tokenAccountInfo.key (.account (v.set e'))))
    (h : ownerUpdate tokenAccountInfo authorityInfo signers update c.σ = .ok σ') :
    Refines rt c c.σ σ' := by
  obtain rfl | ⟨v, e, e', held, hget, hendorsed, hupdate, hwf', hbook⟩ := ownerUpdate_ok hwf hs h
  · exact .refl hwf
  · exact ⟨hwf', hbook ▸ .single (hmove v e e' held hget hendorsed hupdate)⟩

theorem processEmptyAccount_refines {offset : Int} (hwf : c.σ.Wf)
    (h : processEmptyAccount c.ctx c.accounts offset c.σ = .ok σ') : Refines rt c c.σ σ' := by
  unfold processEmptyAccount at h
  split at h
  · rename_i tokenAccountInfo rest haccounts
    simp only [bind_eq_ok, Prod.exists] at h
    obtain ⟨p, rest', hproof, h⟩ := h
    obtain _ | ⟨authorityInfo, signers⟩ := rest'
    · cases h
    refine ownerUpdate_refines hwf ?_ (fun v e e' held hget _ hupdate => ?_) h
    · rw [haccounts]
      exact (verifyAndExtractContext_suffix hproof).trans (List.suffix_cons ..)
    · exact .emptied held hget ⟨_, _, _, _, hproof⟩ hupdate (v.core_set_secret _) (v.grows_set _)
  · cases h

theorem processApplyPendingBalance_refines {n : UInt64} {b : PodAeCiphertext} (hwf : c.σ.Wf)
    (happlies : c.instruction = .applyPendingBalance n b)
    (h : processApplyPendingBalance rt c.accounts n b c.σ = .ok σ') : Refines rt c c.σ σ' := by
  unfold processApplyPendingBalance at h
  split at h
  · rename_i tokenAccountInfo authorityInfo signers haccounts
    refine ownerUpdate_refines hwf (haccounts ▸ List.suffix_cons ..)
        (fun v e e' held hget hok hupdate => ?_) h
    exact .apply ⟨by rw [Call.key?, haccounts]; rfl, happlies⟩ held hget hok hupdate
      (v.core_set_secret _) (v.grows_set _)
  · cases h

theorem processAllowConfidentialCredits_refines {allow : Bool} (hwf : c.σ.Wf)
    (h : processAllowConfidentialCredits c.accounts allow c.σ = .ok σ') : Refines rt c c.σ σ' := by
  unfold processAllowConfidentialCredits at h
  split at h
  · rename_i tokenAccountInfo authorityInfo signers haccounts
    refine ownerUpdate_refines hwf (haccounts ▸ List.suffix_cons ..)
        (fun v e e' held hget _ hupdate => ?_) h
    obtain rfl := Except.ok.inj hupdate
    exact .setting held hget (v.core_set_secret _) (v.grows_set _)
  · cases h

theorem processAllowNonConfidentialCredits_refines {allow : Bool} (hwf : c.σ.Wf)
    (h : processAllowNonConfidentialCredits c.accounts allow c.σ = .ok σ') :
    Refines rt c c.σ σ' := by
  unfold processAllowNonConfidentialCredits at h
  split at h
  · rename_i tokenAccountInfo authorityInfo signers haccounts
    refine ownerUpdate_refines hwf (haccounts ▸ List.suffix_cons ..)
        (fun v e e' held hget _ hupdate => ?_) h
    obtain rfl := Except.ok.inj hupdate
    exact .setting held hget (v.core_set_secret _) (v.grows_set _)
  · cases h

/-! ## Deposit and withdraw -/

/-- A trade that is a shift within one account. -/
def Converts (rt : Runtime) (c : Call) (σ' : Ledger) : Prop :=
  σ'.Wf ∧ ∃ k v v', c.σ.book.Account k v ∧ σ'.book = c.σ.book.put k (.account v') ∧
    Trade rt c k k none c.σ.book (c.σ.book.put k (.account v')) ∧ Shift rt c v v'

theorem Converts.course (h : Converts rt c σ') (htrades : c.instruction.trades = true) :
    σ'.Wf ∧ Course rt c c.σ.book σ'.book := by
  obtain ⟨hwf, k, v, v', held, hbook, htrade, hshift⟩ := h
  exact ⟨hwf, hbook ▸ .of_trade htrades htrade⟩

theorem processDeposit_converts {x : UInt64} {decimals : UInt8} (hwf : c.σ.Wf)
    (hspends : Call.spendLayout c.instruction = none) (hstill : c.instruction.transfers = false)
    (h : processDeposit rt c.accounts x decimals c.σ = .ok σ') : Converts rt c σ' := by
  unfold processDeposit at h
  split at h
  · rename_i tokenAccountInfo mintInfo authorityInfo signers haccounts
    simp only [loadChecked, loadCheckedBeside, loadBeside, checkProgramAccount,
      checkConversionAccount, bind_eq_ok, exists_unit, failIf_eq_ok, bne_eq_false_iff_eq,
      isPaused_eq, PodState.hasExtension_eq, Option.isSome_eq_false_iff,
      Option.isNone_iff_eq_none, okOr_eq_ok, checkedSub_eq_some] at h
    obtain ⟨m, ⟨howner', hmint⟩, hrunning, _, hopenly, s, ⟨howner, _, hload⟩,
      ⟨hmovable, hok, hthawed, hkey, hnative⟩, a, ha, e, hget, e', hcredit, s', hset, h⟩ := h
    obtain ⟨hswf, _⟩ := hwf.load howner hload
    have hst := (PodState.Stored.refl hswf).withBase { s.base with amount := a }
    have hst' := (PodState.setExtension_ok hst.wf hset).1
    have hw := store_held hwf howner hload (hst.trans hst') (packed_of_load hload).initialized
      trivial h
    have held := contents_of_load howner hload
    have hsecret : s.view.core.secret = some e := PodState.getExtension_eq_ok.mp hget
    have hcore : ((s.view.withBase { s.base with amount := a }).set e').core =
        { s.view.core with base := { s.base with amount := a }, secret := some e' } := by
      rw [View.core_set_secret]
      rfl
    exact ⟨hw.wf, _, _, _, held, hw.book, .deposit (by rw [Call.key?, haccounts]; rfl)
      hspends hstill held hkey (contents_of_load howner' hmint) hopenly hrunning hnative hmovable
      hthawed (.of_suffix (haccounts ▸ List.suffix_append [_, _] _) hok) ha hsecret hcredit hcore
      (View.grows_set _ _), .deposited ha hsecret hcredit hcore⟩
  · cases h

theorem processWithdraw_converts {x : UInt64} {decimals : UInt8} {b : PodAeCiphertext}
    {eo ro : Int} (hwf : c.σ.Wf) (hspends : Call.spendLayout c.instruction = none)
    (hstill : c.instruction.transfers = false)
    (h : processWithdraw rt c.ctx c.accounts x decimals b eo ro c.σ = .ok σ') :
    Converts rt c σ' := by
  unfold processWithdraw at h
  split at h
  · rename_i tokenAccountInfo mintInfo rest haccounts
    simp only [bind_eq_ok, Prod.exists] at h
    obtain ⟨p, rest', hproof, h⟩ := h
    obtain _ | ⟨authorityInfo, signers⟩ := rest'
    · cases h
    simp only [loadChecked, loadCheckedBeside, loadBeside, checkProgramAccount,
      checkConversionAccount, bind_eq_ok, exists_unit, failIf_eq_ok, bne_eq_false_iff_eq,
      isPaused_eq, PodState.hasExtension_eq, Option.isSome_eq_false_iff,
      Option.isNone_iff_eq_none, okOr_eq_ok, checkedAdd_eq_some] at h
    obtain ⟨m, ⟨howner', hmint⟩, _, hopenly, hrunning, s, ⟨howner, _, hload⟩,
      ⟨hmovable, hok, hthawed, hkey, hnative⟩, e, hget, e', hdebit, s', hset, a, ha, h⟩ := h
    obtain ⟨hswf, _⟩ := hwf.load howner hload
    have hst := (PodState.setExtension_ok hswf hset).1
    have hbase : s'.base = s.base := hst.base_eq
    have hsuffix : (authorityInfo :: signers) <:+ c.accounts := by
      rw [haccounts]
      exact (verifyWithdrawProof_suffix hproof).trans (List.suffix_append [_, _] _)
    have hst' := hst.withBase { s'.base with amount := a }
    have hw := store_held hwf howner hload hst'
        (by rw [hbase]; exact (packed_of_load hload).initialized)
      trivial h
    have held := contents_of_load howner hload
    have hsecret : s.view.core.secret = some e := PodState.getExtension_eq_ok.mp hget
    have hcore : ((s.view.set e').withBase { s'.base with amount := a }).core =
        { s.view.core with base := { s.base with amount := a }, secret := some e' } := by
      rw [View.core_withBase, View.core_set_secret, hbase]
    rw [hbase] at ha
    exact ⟨hw.wf, _, _, _, held, hw.book, .withdraw (by rw [Call.key?, haccounts]; rfl)
      hspends hstill held hkey (contents_of_load howner' hmint) hopenly hrunning hnative hmovable
      hthawed (.of_suffix hsuffix hok) ha hsecret hproof hdebit hcore
      (View.grows_set _ _), .withdrawn ha hsecret hproof hdebit hcore⟩
  · cases h

end Processor.ConfidentialTransfer

end SolanaEasy.Token
