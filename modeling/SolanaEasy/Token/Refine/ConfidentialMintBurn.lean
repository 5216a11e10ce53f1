import SolanaEasy.Token.Refine.ConfidentialTransferFee

/-!
# Refinement — confidential minting and burning

The mint authority decides over the hidden supply; a burn only adds to what is
pending, whoever the mint belongs to.
-/

namespace SolanaEasy.Token.Processor.ConfidentialMintBurn

open ConfidentialTransfer

variable {rt : Runtime} {c : Call} {σ σ' : Ledger} {accounts : List AccountInfo}

/-! ## The authority of the supply -/

theorem processInitializeMint_refines {key : PodElGamalPubkey} {supply : PodAeCiphertext}
    (hwf : σ.Wf) (h : processInitializeMint accounts key supply σ = .ok σ') :
    Refines rt c σ σ' := by
  obtain _ | ⟨mintInfo, rest⟩ := accounts
  · cases h
  simp only [processInitializeMint, bind_eq_ok, exists_unit] at h
  refine initMintExtension_refines hwf (fun x hx => ?_) h.2
  obtain rfl := Except.ok.inj hx
  exact View.fresh_only_mintBurn rfl rfl

theorem checkMintAuthority_ok {M : Pubkey} {m : PodState PodMint} {authorityInfo : AccountInfo}
    {signers : List AccountInfo} (h : checkMintAuthority σ M m authorityInfo signers = .ok ()) :
    ∃ k, m.view.authority .mintTokens = some k := by
  simp only [checkMintAuthority, bind_eq_ok, exists_unit, okOr_eq_ok] at h
  obtain ⟨_, k, hk, _⟩ := h
  exact ⟨k, hk⟩

/-- The mint authority may change all of the extension. -/
theorem keeps_setMintBurn {m : View PodMint} {e e' : Token.ConfidentialMintBurn} {k : Pubkey}
    (hget : m.get Token.ConfidentialMintBurn = some e) (hk : m.authority .mintTokens = some k) :
    m.Keeps (m.set e') := by
  refine View.keeps_set hget (View.settled_set_of_some hk fun a ha => ?_)
  cases a <;> first | rfl | (rcases ha with h | h <;> cases h)

/-- Without a mint authority only the pending burn can change. -/
theorem keeps_setPendingBurn {m : View PodMint} {e : Token.ConfidentialMintBurn}
    {x : PodElGamalCiphertext} (hget : m.get Token.ConfidentialMintBurn = some e) :
    m.Keeps (m.set { e with pendingBurn := x }) := by
  refine View.keeps_set hget (View.settled_set fun a ha hnone => ?_)
  cases a with
  | mintTokens =>
    refine ⟨hnone, UInt64.le_refl _, ?_⟩
    rw [View.get_set_same, hget]
    rfl
  | _ => rcases ha with ha | ha <;> cases ha

theorem processRotateSupplyElGamalPubkey_refines {offset : Int} (hwf : c.σ.Wf)
    (h : processRotateSupplyElGamalPubkey c.ctx accounts offset c.σ = .ok σ') :
    Refines rt c c.σ σ' := by
  obtain _ | ⟨mintInfo, rest⟩ := accounts
  · cases h
  simp only [processRotateSupplyElGamalPubkey, loadChecked, bind_eq_ok, exists_unit,
    PodState.getExtension_eq_ok, Prod.exists] at h
  obtain ⟨m, ⟨_, hload⟩, e, hget, p, rest', hproof, hchecked, h⟩ := h
  obtain _ | ⟨authorityInfo, signers⟩ := rest'
  · cases h
  simp only [bind_eq_ok, exists_unit] at h
  obtain ⟨hauthority, m', hset, h⟩ := h
  obtain ⟨k, hk⟩ := checkMintAuthority_ok hauthority
  exact refines_set_mint (by decide) hwf hload hset h fun held =>
    .rotate held hget ⟨_, _, _, _, hproof⟩ hchecked (m.view.mintCore_set_mintBurn _)
      (keeps_setMintBurn hget hk)

theorem authorityUpdate_refines
    {update : Token.ConfidentialMintBurn → Result Token.ConfidentialMintBurn} (hwf : σ.Wf)
    (hmove : ∀ M (m : View PodMint) e e', σ.book.Mint M m → m.mintCore.mintBurn = some e →
      update e = .ok e' → m.Keeps (m.set e') → Move rt c σ.book (σ.book.put M (.mint (m.set e'))))
    (h : authorityUpdate accounts update σ = .ok σ') : Refines rt c σ σ' := by
  obtain _ | ⟨mintInfo, rest⟩ := accounts
  · cases h
  simp only [authorityUpdate, loadChecked, bind_eq_ok, exists_unit,
    PodState.getExtension_eq_ok] at h
  obtain ⟨m, ⟨_, hload⟩, e, hget, h⟩ := h
  obtain _ | ⟨authorityInfo, signers⟩ := rest
  · cases h
  simp only [bind_eq_ok, exists_unit] at h
  obtain ⟨hauthority, e', hupdate, m', hset, h⟩ := h
  obtain ⟨k, hk⟩ := checkMintAuthority_ok hauthority
  exact refines_set_mint (by decide) hwf hload hset h fun held =>
    hmove _ _ e e' held hget hupdate (keeps_setMintBurn hget hk)

theorem processUpdateDecryptableSupply_refines {x : PodAeCiphertext} (hwf : σ.Wf)
    (h : processUpdateDecryptableSupply accounts x σ = .ok σ') : Refines rt c σ σ' := by
  refine authorityUpdate_refines hwf (fun M m e e' held hget hupdate hkeeps => ?_) h
  obtain rfl := Except.ok.inj hupdate
  exact .restate held hget (m.mintCore_set_mintBurn _) hkeeps

theorem processApplyPendingBurn_refines (hwf : σ.Wf)
    (h : processApplyPendingBurn rt accounts σ = .ok σ') : Refines rt c σ σ' :=
  authorityUpdate_refines hwf (fun _ m _ _ held hget hupdate hkeeps =>
    .applyBurn held hget hupdate (m.mintCore_set_mintBurn _) hkeeps) h

/-! ## Minting and burning -/

theorem processConfidentialMint_course {data : InstructionData} (hwf : c.σ.Wf)
    (htrades : c.instruction.trades = true) (hspends : Call.spendLayout c.instruction = none)
    (hstill : c.instruction.transfers = false)
    (h : processConfidentialMint rt c.ctx c.accounts data c.σ = .ok σ') :
    σ'.Wf ∧ Course rt c c.σ.book σ'.book := by
  unfold processConfidentialMint at h
  split at h
  · rename_i tokenAccountInfo mintInfo rest haccounts
    simp only [loadChecked, loadCheckedBeside, loadBeside, checkProgramAccount, bind_eq_ok,
      exists_unit, failIf_eq_ok, bne_eq_false_iff_eq, beq_eq_false_iff_ne, isPaused_eq,
      PodState.getExtension_eq_ok, Prod.exists] at h
    obtain ⟨m, ⟨howner', hmint⟩, t, _, running, u, hgetu, p, rest', hproof, s, ⟨howner, hne, hload⟩,
      h⟩ := h
    obtain _ | ⟨authorityInfo, signers⟩ := rest'
    · cases h
    simp only [bind_eq_ok, exists_unit, failIf_eq_ok, bne_eq_false_iff_eq] at h
    obtain ⟨_, hauthority, hthawed, hkey, _, e, hget, e', hcredit, u', hsupply, s', hset, m', hset',
      σ₁, h₁, h⟩ := h
    obtain ⟨k, hk⟩ := checkMintAuthority_ok hauthority
    obtain ⟨hmwf, hvalid⟩ := hwf.load howner' hmint
    obtain ⟨hswf, _⟩ := hwf.load howner hload
    obtain ⟨hwf', hbook⟩ := store_two hwf (Ne.symm hne) howner howner' hload hmint h₁ h
      (PodState.setExtension_ok hswf hset).1 (PodState.setExtension_ok hmwf hset').1
      (packed_of_load hload).initialized (packed_of_load hmint).initialized trivial
      (validDefault_set_of_ne (by decide) hvalid)
    have hsome : m.view.authority .mintTokens ≠ none := by
      rw [hk]
      exact Option.some_ne_none _
    exact ⟨hwf', hbook ▸ .of_trade htrades
        (.secretMint (by rw [Call.key?, haccounts]; rfl) hspends hstill
      (contents_of_load howner hload) hkey (contents_of_load howner' hmint) hsome running hthawed
      (PodState.getExtension_eq_ok.mp hget)
      hgetu hproof hcredit hsupply (s.view.core_set_secret _) (m.view.mintCore_set_mintBurn _)
      (s.view.grows_set _) (keeps_setMintBurn hgetu hk))⟩
  · cases h

theorem supplyBurned_eq {t : ConfidentialTransferMint} {p : BurnProofContext}
    {u u' : Token.ConfidentialMintBurn} (h : supplyBurned rt t p u = .ok u') :
    u' = { u with pendingBurn := u'.pendingBurn } := by
  simp only [supplyBurned, bind_eq_ok, pure_eq_ok] at h
  obtain ⟨_, _, _, _, _, _, _, _, _, _, rfl⟩ := h
  rfl

theorem processConfidentialBurn_course {data : InstructionData} (hwf : c.σ.Wf)
    (htrades : c.instruction.trades = true) (hspends : Call.spendLayout c.instruction = none)
    (hstill : c.instruction.transfers = false)
    (h : processConfidentialBurn rt c.ctx c.accounts data c.σ = .ok σ') :
    σ'.Wf ∧ Course rt c c.σ.book σ'.book := by
  unfold processConfidentialBurn at h
  split at h
  · rename_i tokenAccountInfo mintInfo rest haccounts
    simp only [loadChecked, loadCheckedBeside, loadBeside, checkProgramAccount, bind_eq_ok,
      exists_unit, failIf_eq_ok, bne_eq_false_iff_eq, beq_eq_false_iff_ne, isPaused_eq,
      PodState.getExtension_eq_ok, Prod.exists] at h
    obtain ⟨m, ⟨howner', hmint⟩, t, _, running, u, hgetu, p, rest', hproof, s, ⟨howner, hne, hload⟩,
      h⟩ := h
    obtain _ | ⟨authorityInfo, signers⟩ := rest'
    · cases h
    simp only [bind_eq_ok, exists_unit, failIf_eq_ok, bne_eq_false_iff_eq, cpiGuardLocked_eq] at h
    obtain ⟨_, _, hok, hguard, hthawed, hkey, e, hget, e', hdebit, u', hsupply, s', hset, m', hset',
      σ₁, h₁, h⟩ := h
    obtain ⟨hmwf, hvalid⟩ := hwf.load howner' hmint
    obtain ⟨hswf, _⟩ := hwf.load howner hload
    obtain ⟨hwf', hbook⟩ := store_two hwf (Ne.symm hne) howner howner' hload hmint h₁ h
      (PodState.setExtension_ok hswf hset).1 (PodState.setExtension_ok hmwf hset').1
      (packed_of_load hload).initialized (packed_of_load hmint).initialized trivial
      (validDefault_set_of_ne (by decide) hvalid)
    have hsuffix : (authorityInfo :: signers) <:+ c.accounts := by
      rw [haccounts]
      exact (verifyBurnProof_suffix hproof).trans (List.suffix_append [_, _] _)
    have hunguarded : c.Unguarded s.view := by
      intro hlocked
      simpa [hlocked, checkOwner_key hok] using hguard
    have hkeeps : m.view.Keeps (m.view.set u') := by
      rw [supplyBurned_eq hsupply]
      exact keeps_setPendingBurn hgetu
    exact ⟨hwf', hbook ▸ .of_trade htrades
        (.secretBurn (by rw [Call.key?, haccounts]; rfl) hspends hstill
      (contents_of_load howner hload) hkey (contents_of_load howner' hmint) running hthawed
      (.of_suffix hsuffix hok) hunguarded
      (PodState.getExtension_eq_ok.mp hget) hgetu hproof hdebit hsupply
      (s.view.core_set_secret _) (m.view.mintCore_set_mintBurn _) (s.view.grows_set _) hkeeps)⟩
  · cases h

end SolanaEasy.Token.Processor.ConfidentialMintBurn
