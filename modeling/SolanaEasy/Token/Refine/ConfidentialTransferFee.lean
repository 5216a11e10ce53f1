import SolanaEasy.Token.Refine.ConfidentialTransferTokens

/-!
# Refinement — confidential transfer fees

The loops again keep one account borrowed, the mint or the destination. What a
withdrawal gathers is summed under encryption before anything is credited.
-/

namespace SolanaEasy.Token

open Processor

namespace View

/-- A confidential fee configuration in which only the withheld amount differs. -/
theorem keeps_setSecretWithheld {m : View PodMint} {e : ConfidentialTransferFeeConfig}
    {x : PodElGamalCiphertext} (hget : m.get ConfidentialTransferFeeConfig = some e) :
    m.Keeps (m.set { e with withheldAmount := x }) := by
  refine keeps_set hget (settled_set fun a ha hnone => ?_)
  cases a with
  | confidentialTransferFeeConfig =>
    rw [authority, hget] at hnone
    refine ⟨by rw [authority, get_set_same]; exact hnone, ?_⟩
    rw [SameSetting, get_set_same, hget]
    rfl
  | _ => rcases ha with ha | ha <;> cases ha

end View

namespace Processor.ConfidentialTransferFee

open ConfidentialTransfer

variable {rt : Runtime} {c : Call} {σ σ' : Ledger} {accounts : List AccountInfo} {M a d : Pubkey}

/-! ## Settings of the mint -/

theorem processInitializeConfidentialTransferFeeConfig_refines
    {authority : OptionalNonZeroPubkey} {key : PodElGamalPubkey} (hwf : σ.Wf)
    (h : processInitializeConfidentialTransferFeeConfig accounts authority key σ = .ok σ') :
    Refines rt c σ σ' := by
  refine initMintExtension_refines hwf (fun x hx => ?_) h
  obtain rfl := Except.ok.inj hx
  exact View.fresh_only_secretFeeConfig rfl

theorem toggleHarvestToMint_refines {enabled : Bool} (hwf : σ.Wf)
    (h : toggleHarvestToMint accounts enabled σ = .ok σ') : Refines rt c σ σ' := by
  unfold toggleHarvestToMint at h
  split at h
  · simp only [bind_eq_ok, exists_unit] at h
    refine updateMintExtension_refines (by decide) hwf ?_ h.2
    rintro M rest s e e' - - hget ⟨k, hk⟩ hupdate held
    obtain rfl := Except.ok.inj hupdate
    have hb : s.view.authority .confidentialTransferFeeConfig = some k := by
      rw [View.authority, hget]
      exact hk
    refine .mint _ held ?_ (View.keeps_set hget (View.settled_set_of_some hb fun a ha => ?_))
    · rw [View.mintCore_set_secretFeeConfig]
      exact congrArg (fun x => { s.view.mintCore with secretFees := x })
        (View.mintCore_secretFees_of_get hget).symm
    · cases a <;> first | rfl | (rcases ha with h | h <;> cases h)
  · cases h

/-! ## One account -/

/-- The withheld ciphertext `y` was taken out of the account at `a`. -/
structure Harvested (σ σ' : Ledger) (M a : Pubkey) (y : ConfidentialTransferFeeAmount)
    (v v' : View PodAccount) : Prop where
  wf : σ'.Wf
  held : σ.book.Account a v
  mint : v.base.mint = M
  fees : v.core.fees = some y
  core : v'.core = { v.core with fees := some ⟨.zeroed⟩ }
  grows : v.Grows v'
  book : σ'.book = σ.book.put a (.account v')
  frame : ∀ k, k ≠ a → σ' k = σ k

theorem harvestFromAccount_ok {x : PodElGamalCiphertext} (hwf : σ.Wf)
    (h : harvestFromAccount σ M a = .ok (σ', x)) :
    ∃ v v' y, Harvested σ σ' M a y v v' ∧ y.withheldAmount = x := by
  simp only [harvestFromAccount, checkProgramAccount, bind_eq_ok, exists_unit, mapErr_eq_ok,
    failIf_eq_ok, bne_eq_false_iff_eq, PodState.getExtension_eq_ok, pure_eq_ok, Prod.mk.injEq] at h
  obtain ⟨s, hload, hmint, howner, y, hget, s', hset, σ₁, hstore, rfl, rfl⟩ := h
  obtain ⟨hswf, _⟩ := hwf.load howner hload
  have hw := store_held hwf howner hload (PodState.setExtension_ok hswf hset).1
    (packed_of_load hload).initialized trivial hstore
  refine ⟨s.view, _, y, ⟨hw.wf, contents_of_load howner hload, hmint, hget,
    s.view.core_set_fees _, s.view.grows_set _, hw.book, fun k hk => ?_⟩, rfl⟩
  rw [hw.eq, Ledger.set_of_ne _ _ hk]

/-! ## Harvesting to the mint -/

/-- The loop, on the book in which the mint has its sum already. -/
theorem harvestAll_moves {m : View PodMint} {infos : List AccountInfo} :
    ∀ {σ : Ledger} {e e' : ConfidentialTransferFeeConfig}, σ.Wf →
      m.get ConfidentialTransferFeeConfig = some e → harvestAll rt M infos σ e = .ok (σ', e') →
      σ'.Wf ∧ σ' M = σ M ∧
        Moves rt c (σ.book.put M (.mint m)) (σ'.book.put M (.mint (m.set e'))) := by
  induction infos generalizing m with
  | nil =>
    intro σ e e' hwf hget h
    obtain ⟨rfl, rfl⟩ := Prod.mk.inj (Except.ok.inj h)
    rw [View.set_get hget]
    exact ⟨hwf, rfl, .refl⟩
  | cons info infos ih =>
    intro σ e e' hwf hget h
    simp only [harvestAll, bind_eq_ok, exists_unit, failIf_eq_ok, beq_eq_false_iff_ne] at h
    obtain ⟨hne, h⟩ := h
    cases hharvest : toOption (harvestFromAccount σ M info.key) with
    | none =>
      rw [hharvest] at h
      exact ih hwf hget h
    | some p =>
      obtain ⟨σ₁, x⟩ := p
      rw [hharvest] at h
      simp only [arithmetic, bind_eq_ok, okOr_eq_ok] at h
      obtain ⟨sum, hsum, h⟩ := h
      obtain ⟨v, v', y, hv, rfl⟩ := harvestFromAccount_ok hwf (toOption_eq_some.mp hharvest)
      obtain ⟨hwf', hM, hmoves⟩ := ih (m := m.set { e with withheldAmount := sum }) hv.wf
        (View.get_set_same _ _) h
      refine ⟨hwf', hM.trans (hv.frame _ (Ne.symm hne)), ?_⟩
      have hharvested : Move rt c (σ.book.put M (.mint m))
          (σ₁.book.put M (.mint (m.set { e with withheldAmount := sum }))) := by
        have hbook : σ₁.book.put M (.mint (m.set { e with withheldAmount := sum })) =
            ((σ.book.put M (.mint m)).put info.key (.account v')).put M
              (.mint (m.set { e with withheldAmount := sum })) := by
          rw [hv.book, Book.put_comm _ (.mint m) _ hne, Book.put_put]
        rw [hbook]
        exact .secretHarvest (hv.held.put_of_ne _ hne) hv.mint (Book.mint_put ..) hv.fees
          (View.mintCore_secretFees_of_get hget) hsum hv.core
          (m.mintCore_set_secretFeeConfig _) hv.grows (View.keeps_setSecretWithheld hget)
      rw [View.set_set] at hmoves
      exact .head hharvested hmoves

theorem processHarvestWithheldTokensToMint_refines (hwf : σ.Wf)
    (h : processHarvestWithheldTokensToMint rt accounts σ = .ok σ') : Refines rt c σ σ' := by
  obtain _ | ⟨mintInfo, infos⟩ := accounts
  · cases h
  simp only [processHarvestWithheldTokensToMint, loadChecked, checkProgramAccount, bind_eq_ok,
    exists_unit, failIf_eq_ok, bne_eq_false_iff_eq, PodState.getExtension_eq_ok, Prod.exists] at h
  obtain ⟨m, ⟨howner, hload⟩, _, _, e, hget, _, σ₁, e', hall, m', hset, h⟩ := h
  obtain ⟨hwf₁, hM, hmoves⟩ := harvestAll_moves hwf hget hall
  obtain ⟨hmwf, hvalid⟩ := hwf.load howner hload
  have hw := store_held hwf₁ (by rw [hM]; exact howner)
    (show load σ₁ PodMint mintInfo.key = .ok m by rw [load, hM]; exact hload)
    (PodState.setExtension_ok hmwf hset).1 (packed_of_load hload).initialized
    (validDefault_set_of_ne (by decide) hvalid) h
  have held : σ.book.Mint mintInfo.key m.view := contents_of_load howner hload
  rw [Book.put_self held] at hmoves
  exact ⟨hw.wf, hw.book ▸ hmoves⟩

/-! ## Withdrawing -/

theorem checkFeeKeys_ok {p : CiphertextCiphertextEqualityProofContext}
    {f : ConfidentialTransferFeeConfig} {e : ConfidentialTransferAccount}
    (h : checkFeeKeys p f e = .ok ()) :
    p.firstPubkey = f.withdrawWithheldAuthorityElgamalPubkey ∧
        p.secondPubkey = e.elgamalPubkey := by
  simpa only [checkFeeKeys, bind_eq_ok, exists_unit, failIf_eq_ok, bne_eq_false_iff_eq] using h

/-- The destination, as it was loaded. -/
structure Destination (σ : Ledger) (M d : Pubkey) (s : PodState PodAccount) : Prop where
  owner : (σ d).owner = Keys.tokenProgram
  ne : d ≠ M
  load : load σ PodAccount d = .ok s
  mint : s.base.mint = M
  thawed : s.base.isFrozen = false

theorem loadFeeDestination_ok {s : PodState PodAccount}
    (h : loadFeeDestination σ M d = .ok s) : Destination σ M d s := by
  simp only [loadFeeDestination, loadCheckedBeside, loadBeside, checkProgramAccount, bind_eq_ok,
    exists_unit, failIf_eq_ok, bne_eq_false_iff_eq, beq_eq_false_iff_ne, pure_eq_ok] at h
  obtain ⟨_, ⟨howner, hne, hload⟩, hmint, hthawed, rfl⟩ := h
  exact ⟨howner, hne, hload, hmint, hthawed⟩

theorem processWithdrawWithheldTokensFromMint_refines {b : PodAeCiphertext} {offset : Int}
    (hwf : c.σ.Wf) (hcollects : c.instruction.collects = true)
    (h : processWithdrawWithheldTokensFromMint rt c.ctx accounts b offset c.σ = .ok σ') :
    Refines rt c c.σ σ' := by
  obtain _ | ⟨mintInfo, _ | ⟨destinationInfo, rest⟩⟩ := accounts
  · cases h
  · cases h
  simp only [processWithdrawWithheldTokensFromMint, bind_eq_ok, Prod.exists] at h
  obtain ⟨p, rest', hproof, h⟩ := h
  obtain _ | ⟨authorityInfo, signers⟩ := rest'
  · cases h
  simp only [loadChecked, checkProgramAccount, bind_eq_ok, exists_unit, failIf_eq_ok,
    bne_eq_false_iff_eq, PodState.getExtension_eq_ok] at h
  obtain ⟨m, ⟨howner, hload⟩, _, f, hf, s, hs, e, hget, _, hkeys, hsum, e', hcredit, s', hset, m',
    hset', σ₁, h₁, h⟩ := h
  obtain ⟨hfirst, hsecond⟩ := checkFeeKeys_ok hkeys
  have hd := loadFeeDestination_ok hs
  obtain ⟨hmwf, hvalid⟩ := hwf.load howner hload
  obtain ⟨hswf, _⟩ := hwf.load hd.owner hd.load
  obtain ⟨hwf', hbook⟩ := store_two hwf (Ne.symm hd.ne) hd.owner howner hd.load hload h₁ h
    (PodState.setExtension_ok hswf hset).1 (PodState.setExtension_ok hmwf hset').1
    (packed_of_load hd.load).initialized (packed_of_load hload).initialized trivial
    (validDefault_set_of_ne (by decide) hvalid)
  refine ⟨hwf', hbook ▸ .single
      (.secretCollectMint hcollects (contents_of_load hd.owner hd.load) hd.mint
    (contents_of_load howner hload) hd.thawed hget (View.mintCore_secretFees_of_get hf)
    ⟨⟨_, _, _, _, hproof⟩, hfirst, hsecond, hsum⟩ hcredit (s.view.core_set_secret _)
    (m.view.mintCore_set_secretFeeConfig _) (s.view.grows_set _)
    (View.keeps_setSecretWithheld hf))⟩

/-- The loop, on the book in which the destination is without its own fees already. -/
theorem withdrawAll_gather {t₀ : PodState PodAccount} {infos : List AccountInfo} :
    ∀ {σ : Ledger} {t t' : PodState PodAccount} {w : View PodAccount}
      {x x' : PodElGamalCiphertext}, σ.Wf → t₀.Stored t w → w.base.mint = M →
      withdrawAll rt M d infos σ t x = .ok (σ', t', x') →
      ∃ w', σ'.Wf ∧ t₀.Stored t' w' ∧ σ' d = σ d ∧
        w'.core = { w.core with fees := w'.core.fees } ∧
        Gather rt M x (σ.book.put d (.account w)) x' (σ'.book.put d (.account w')) := by
  induction infos with
  | nil =>
    intro σ t t' w x x' hwf hst _ h
    obtain ⟨rfl, hpair⟩ := Prod.mk.inj (Except.ok.inj h)
    obtain ⟨rfl, rfl⟩ := Prod.mk.inj hpair
    exact ⟨w, hwf, hst, rfl, rfl, .nil⟩
  | cons info infos ih =>
    intro σ t t' w x x' hwf hst hw h
    rw [withdrawAll] at h
    split at h
    · simp only [arithmetic, bind_eq_ok, mapErr_eq_ok, okOr_eq_ok, PodState.getExtension_eq_ok] at h
      obtain ⟨y, hget, x₁, hsum, t₁, hset, h⟩ := h
      have hst₁ := (PodState.setExtension_ok hst.wf hset).1
      rw [hst.view] at hst₁ hget
      obtain ⟨w', hwf', hst', hcell, hcore, hgather⟩ := ih hwf (hst.trans hst₁) hw h
      rw [View.core_set_fees] at hcore
      refine ⟨w', hwf', hst', hcell, hcore, .cons (Book.account_put ..) hw hget hsum
        (w.core_set_fees _) (w.grows_set _) ?_⟩
      rw [Book.put_put]
      exact hgather
    · rename_i hself
      rw [beq_iff_eq] at hself
      simp only [bind_eq_ok, exists_unit, failIf_eq_ok, beq_eq_false_iff_ne] at h
      obtain ⟨_, h⟩ := h
      cases hharvest : toOption (harvestFromAccount σ M info.key) with
      | none =>
        rw [hharvest] at h
        exact ih hwf hst hw h
      | some p =>
        obtain ⟨σ₁, y⟩ := p
        rw [hharvest] at h
        simp only [arithmetic, bind_eq_ok, okOr_eq_ok] at h
        obtain ⟨x₁, hsum, h⟩ := h
        obtain ⟨v, v', y, hv, rfl⟩ := harvestFromAccount_ok hwf (toOption_eq_some.mp hharvest)
        obtain ⟨w', hwf', hst', hcell, hcore, hgather⟩ := ih hv.wf hst hw h
        refine ⟨w', hwf', hst', hcell.trans (hv.frame _ (Ne.symm hself)), hcore,
          .cons (hv.held.put_of_ne _ hself) hv.mint hv.fees hsum hv.core hv.grows ?_⟩
        rw [Book.put_comm _ _ _ hself, ← hv.book]
        exact hgather

theorem processWithdrawWithheldTokensFromAccounts_refines {n : UInt8} {b : PodAeCiphertext}
    {offset : Int} (hwf : c.σ.Wf) (hcollects : c.instruction.collects = true)
    (h : processWithdrawWithheldTokensFromAccounts rt c.ctx accounts n b offset c.σ = .ok σ') :
    Refines rt c c.σ σ' := by
  obtain _ | ⟨mintInfo, _ | ⟨destinationInfo, rest⟩⟩ := accounts
  · cases h
  · cases h
  simp only [processWithdrawWithheldTokensFromAccounts, bind_eq_ok, Prod.exists] at h
  obtain ⟨p, rest', hproof, h⟩ := h
  obtain _ | ⟨authorityInfo, infos⟩ := rest'
  · cases h
  simp only [loadChecked, checkProgramAccount, bind_eq_ok, exists_unit, failIf_eq_ok,
    bne_eq_false_iff_eq, PodState.getExtension_eq_ok, Prod.exists] at h
  obtain ⟨m, ⟨howner, hload⟩, _, s, hs, e, hget, _, f, hf, hkeys, σ₁, t, x, hall, hsum, e₁, hget₁,
    e', hcredit, s', hset, h⟩ := h
  obtain ⟨hfirst, hsecond⟩ := checkFeeKeys_ok hkeys
  have hd := loadFeeDestination_ok hs
  obtain ⟨hswf, _⟩ := hwf.load hd.owner hd.load
  have held : c.σ.book.Account destinationInfo.key s.view := contents_of_load hd.owner hd.load
  obtain ⟨w, hwf₁, hst, hcell, hcore, hgather⟩ :=
    withdrawAll_gather hwf (.refl hswf) hd.mint hall
  rw [Book.put_self held] at hgather
  rw [hst.view] at hget₁
  -- only the fees of the destination can have changed in the loop
  have hbase : w.base = s.base := congrArg Core.base hcore
  have hsecret : w.get ConfidentialTransferAccount = s.view.get ConfidentialTransferAccount :=
    congrArg Core.secret hcore
  obtain rfl : e₁ = e := Option.some.inj (hget₁.symm.trans (hsecret.trans hget))
  have hset' := (PodState.setExtension_ok hst.wf hset).1
  rw [hst.view] at hset'
  have hw := store_held hwf₁ (by rw [hcell]; exact hd.owner)
    (show load σ₁ PodAccount destinationInfo.key = .ok s by rw [load, hcell]; exact hd.load)
    (hst.trans hset') (by rw [View.base_set, hbase]; exact (packed_of_load hd.load).initialized)
    trivial h
  have hbook : σ'.book = (σ₁.book.put destinationInfo.key (.account w)).put destinationInfo.key
      (.account (w.set e')) := by
    rw [hw.book, Book.put_put]
    rfl
  refine ⟨hw.wf, hbook ▸ .single
      (.secretCollect hcollects hgather (contents_of_load howner hload) ?_
    (Book.account_put ..) (by rw [hbase]; exact hd.mint) (by rw [hbase]; exact hd.thawed) hget₁
    ⟨⟨_, _, _, _, hproof⟩, hfirst, hsecond, hsum⟩ hcredit (w.core_set_secret _)
    (w.grows_set _))⟩
  rw [View.mintCore_secretFees_of_get hf]
  rfl

end Processor.ConfidentialTransferFee

end SolanaEasy.Token
