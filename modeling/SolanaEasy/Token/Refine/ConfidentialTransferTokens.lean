import SolanaEasy.Token.Refine.ConfidentialTransfer

/-!
# Refinement — confidential transfers

The source is written back before the destination is read, so that the two halves
are composed on the book between them.
-/

namespace SolanaEasy.Token

open Processor

/-- `validate_owner` is about the key it was given. -/
theorem checkOwner_key {σ : Ledger} {authorityInfo : AccountInfo} {signers : List AccountInfo}
    {key : Pubkey} (h : checkOwner σ authorityInfo signers key = .ok ()) :
    authorityInfo.key = key := by
  simp only [checkOwner, validateOwner, bind_eq_ok, exists_unit, failIf_eq_ok,
    bne_eq_false_iff_eq] at h
  exact h.1.symm

namespace Processor.ConfidentialTransfer

variable {rt : Runtime} {c : Call} {σ σ' : Ledger}

/-! ## Source -/

/-- The source after the debit `update` of its hidden balance. -/
structure Debited (c : Call) (σ' : Ledger) (s M : Pubkey)
    (update : ConfidentialTransferAccount → Result ConfidentialTransferAccount)
    (v v' : View PodAccount) (e e' : ConfidentialTransferAccount) : Prop where
  ne : s ≠ M
  held : c.σ.book.Account s v
  movable : v.get NonTransferableAccount = none
  endorsed : c.Endorsed v.base.owner
  unguarded : c.Unguarded v
  thawed : v.base.isFrozen = false
  mint : v.base.mint = M
  secret : v.core.secret = some e
  debit : update e = .ok e'
  core : v'.core = { v.core with secret := some e' }
  grows : v.Grows v'
  wf : σ'.Wf
  book : σ'.book = c.σ.book.put s (.account v')

theorem debitSource_ok {sourceInfo mintInfo authorityInfo : AccountInfo}
    {signers : List AccountInfo}
    {update : ConfidentialTransferAccount → Result ConfidentialTransferAccount} (hwf : c.σ.Wf)
    (hs : (authorityInfo :: signers) <:+ c.accounts)
    (h : debitSource c.ctx c.σ sourceInfo mintInfo authorityInfo signers update = .ok σ') :
    ∃ v v' e e', Debited c σ' sourceInfo.key mintInfo.key update v v' e e' := by
  simp only [debitSource, checkSource, loadBeside, checkProgramAccount, bind_eq_ok, exists_unit,
    failIf_eq_ok, bne_eq_false_iff_eq, beq_eq_false_iff_ne, PodState.hasExtension_eq,
    Option.isSome_eq_false_iff, Option.isNone_iff_eq_none, cpiGuardLocked_eq,
    PodState.getExtension_eq_ok] at h
  obtain ⟨howner, _, s, ⟨hne, hload⟩, ⟨hmovable, hok, hguard, hthawed, hmint⟩, e, hget, e',
    hupdate, s', hset, h⟩ := h
  obtain ⟨hswf, _⟩ := hwf.load howner hload
  have hw := store_held hwf howner hload (PodState.setExtension_ok hswf hset).1
    (packed_of_load hload).initialized trivial h
  refine ⟨s.view, _, e, e', hne, contents_of_load howner hload, hmovable, .of_suffix hs hok,
    fun hlocked => ?_, hthawed, hmint, hget, hupdate, s.view.core_set_secret _,
    s.view.grows_set _, hw.wf, hw.book⟩
  simpa [hlocked, checkOwner_key hok] using hguard

/-! ## Destination -/

/-- The destination after the credit. -/
structure Credited (σ σ' : Ledger) (d M : Pubkey) (w w' : View PodAccount)
    (g g' : ConfidentialTransferAccount) (y' : Option ConfidentialTransferFeeAmount) : Prop where
  held : σ.book.Account d w
  thawed : w.base.isFrozen = false
  mint : w.base.mint = M
  secret : w.core.secret = some g
  core : w'.core = { w.core with secret := some g', fees := y' }
  grows : w.Grows w'
  wf : σ'.Wf
  book : σ'.book = σ.book.put d (.account w')

theorem loadDestination_ok {ctx : Context} {destinationInfo mintInfo : AccountInfo}
    {s : PodState PodAccount} (h : loadDestination ctx σ destinationInfo mintInfo = .ok s) :
    (σ destinationInfo.key).owner = Keys.tokenProgram ∧
      load σ PodAccount destinationInfo.key = .ok s ∧ s.base.isFrozen = false ∧
      s.base.mint = mintInfo.key := by
  simp only [loadDestination, loadCheckedBeside, loadBeside, checkProgramAccount, bind_eq_ok,
    exists_unit, failIf_eq_ok, bne_eq_false_iff_eq, pure_eq_ok] at h
  obtain ⟨t, ⟨howner, _, hload⟩, hthawed, hmint, _, rfl⟩ := h
  exact ⟨howner, hload, hthawed, hmint⟩

/-- The destination is read, changed to `w'` and stored. -/
theorem credited_of_store {ctx : Context} {destinationInfo mintInfo : AccountInfo}
    {s s' : PodState PodAccount} {w' : View PodAccount} {g g' : ConfidentialTransferAccount}
    {y' : Option ConfidentialTransferFeeAmount} (hwf : σ.Wf)
    (hload : loadDestination ctx σ destinationInfo mintInfo = .ok s)
    (hget : s.view.get ConfidentialTransferAccount = some g)
    (h : store σ destinationInfo.key s' = .ok σ')
    (hst : s.Wf → s.Stored s' w')
    (hcore : w'.core = { s.view.core with secret := some g', fees := y' })
    (hgrows : s.view.Grows w') :
    Credited σ σ' destinationInfo.key mintInfo.key s.view w' g g' y' := by
  obtain ⟨howner, hload, hthawed, hmint⟩ := loadDestination_ok hload
  obtain ⟨hswf, _⟩ := hwf.load howner hload
  have hbase : w'.base = s.base := congrArg Core.base hcore
  have hw := store_held hwf howner hload (hst hswf)
    (by rw [hbase]; exact (packed_of_load hload).initialized) trivial h
  exact ⟨contents_of_load howner hload, hthawed, hmint, hget, hcore, hgrows, hw.wf, hw.book⟩

theorem processDestinationForTransfer_ok {ctx : Context} {destinationInfo mintInfo : AccountInfo}
    {p : TransferProofContext} (hwf : σ.Wf)
    (h : processDestinationForTransfer rt ctx σ destinationInfo mintInfo p = .ok σ') :
    ∃ w w' g g', Credited σ σ' destinationInfo.key mintInfo.key w w' g g' w.core.fees ∧
      credited rt p.destination p.ciphertextLo p.ciphertextHi g = .ok g' := by
  simp only [processDestinationForTransfer, bind_eq_ok, PodState.getExtension_eq_ok] at h
  obtain ⟨s, hload, g, hget, g', hcredit, s', hset, h⟩ := h
  exact ⟨s.view, _, g, g', credited_of_store hwf hload hget h
    (fun hswf => (PodState.setExtension_ok hswf hset).1) (s.view.core_set_secret _)
    (s.view.grows_set _), hcredit⟩

/-- The fee, moved from the pending balance to the withheld amount. -/
theorem withholdFee_ok {p : TransferWithFeeProofContext} {s s' : PodState PodAccount}
    {g : ConfidentialTransferAccount} (hswf : s.Wf) (h : withholdFee rt p s g = .ok s') :
    ∃ w' g' y y', s.Stored s' w' ∧ s.view.core.fees = some y ∧ FeeWithheld rt p g g' y y' ∧
      w'.core = { s.view.core with secret := some g', fees := some y' } ∧ s.view.Grows w' := by
  simp only [withholdFee, arithmetic, bind_eq_ok, okOr_eq_ok, PodState.getExtension_eq_ok] at h
  obtain ⟨lo, hlo, hi, hhi, pendingLo, hpendingLo, pendingHi, hpendingHi, s₁, hset, lo', hlo', hi',
    hhi', y, hget, withheld, hwithheld, hset'⟩ := h
  have hst := (PodState.setExtension_ok hswf hset).1
  have hst' := (PodState.setExtension_ok hst.wf hset').1
  rw [hst.view] at hst' hget
  rw [View.get_set_of_ne _ _ (by decide)] at hget
  refine ⟨_, _, y, ⟨withheld⟩, hst.trans hst', hget,
      ⟨lo, hi, lo', hi', pendingLo, pendingHi, withheld,
    hlo, hhi, hpendingLo, hpendingHi, hlo', hhi', hwithheld, rfl, rfl⟩, ?_,
    (View.grows_set _ _).trans (View.grows_set _ _)⟩
  rw [View.core_set_fees, View.core_set_secret]

theorem processDestinationForTransferWithFee_ok {ctx : Context}
    {destinationInfo mintInfo : AccountInfo} {p : TransferWithFeeProofContext} {self : Bool}
    (hwf : σ.Wf)
    (h : processDestinationForTransferWithFee rt ctx σ destinationInfo mintInfo p self = .ok σ') :
    ∃ w w' g g₁ g' y', Credited σ σ' destinationInfo.key mintInfo.key w w' g g' y' ∧
      credited rt p.destination p.ciphertextLo p.ciphertextHi g = .ok g₁ ∧
      ((self = true ∧ g' = g₁ ∧ y' = w.core.fees) ∨ (self = false ∧ ∃ y y₁, w.core.fees = some y ∧
        y' = some y₁ ∧ FeeWithheld rt p g₁ g' y y₁)) := by
  simp only [processDestinationForTransferWithFee, bind_eq_ok, PodState.getExtension_eq_ok] at h
  obtain ⟨s, hload, g, hget, g₁, hcredit, h⟩ := h
  cases self with
  | true =>
    simp only [if_true, bind_eq_ok] at h
    obtain ⟨s', hset, h⟩ := h
    exact ⟨s.view, _, g, g₁, g₁, _, credited_of_store hwf hload hget h
      (fun hswf => (PodState.setExtension_ok hswf hset).1) (s.view.core_set_secret _)
      (s.view.grows_set _), hcredit, .inl ⟨rfl, rfl, rfl⟩⟩
  | false =>
    simp only [Bool.false_eq_true, if_false, bind_eq_ok] at h
    obtain ⟨s', hfee, h⟩ := h
    obtain ⟨howner, hloaded, _⟩ := loadDestination_ok hload
    have hswf : s.Wf := (hwf.load howner hloaded).1
    obtain ⟨w', g', y, y', hst, hy, hwithheld, hcore, hgrows⟩ := withholdFee_ok hswf hfee
    exact ⟨s.view, w', g, g₁, g', some y', credited_of_store hwf hload hget h (fun _ => hst) hcore
      hgrows, hcredit, .inr ⟨rfl, y, y', hy, rfl, hwithheld⟩⟩

/-! ## Transfer -/

/-- A debit and a credit, composed. -/
theorem trade_of_debited {s d M : Pubkey} {m : View PodMint} {σ₁ : Ledger}
    {update : ConfidentialTransferAccount → Result ConfidentialTransferAccount}
    {v v' w w' : View PodAccount} {e e' g g' : ConfidentialTransferAccount}
    {y' : Option ConfidentialTransferFeeAmount} (head : c.key? 0 = some s)
    (last : c.key? c.instruction.destinationIndex = some d)
    (hspends : Call.spendLayout c.instruction = none) (hm : c.σ.book.Mint M m)
    (running : m.paused = false) (hd : Debited c σ₁ s M update v v' e e')
    (hc : Credited σ₁ σ' d M w w' g g' y')
    (moved : SecretlyMoved rt c m (s == d) e e' g g' w.core.fees y') :
    Trade rt c s d m.hookProgram c.σ.book σ'.book := by
  have target := hc.held
  rw [hd.book] at target
  rw [hc.book, hd.book]
  exact .secretTransfer head last hspends hd.held hd.mint hm running hd.movable hd.thawed
      hd.endorsed
    hd.unguarded hd.secret hd.core target hc.mint hc.thawed hc.secret moved hc.core
        hd.grows hc.grows

/-- Both accounts are still there. -/
theorem accounts_of_credited {s d M : Pubkey} {σ₁ : Ledger}
    {update : ConfidentialTransferAccount → Result ConfidentialTransferAccount}
    {v v' w w' : View PodAccount} {e e' g g' : ConfidentialTransferAccount}
    {y' : Option ConfidentialTransferFeeAmount} (hd : Debited c σ₁ s M update v v' e e')
    (hc : Credited σ₁ σ' d M w w' g g' y') :
    (∃ v, σ'.book.Account s v) ∧ ∃ w, σ'.book.Account d w := by
  rw [hc.book, hd.book]
  refine ⟨?_, w', Book.account_put ..⟩
  by_cases hsd : s = d
  · subst hsd
    exact ⟨w', Book.account_put ..⟩
  · exact ⟨v', (Book.account_put ..).put_of_ne _ hsd⟩

/-- What either branch leaves behind for the hook. -/
structure Transferred (rt : Runtime) (c : Call) (σ' : Ledger) (s d : Pubkey)
    (hook : Option Pubkey) : Prop where
  wf : σ'.Wf
  trade : Trade rt c s d hook c.σ.book σ'.book
  source : ∃ v, σ'.book.Account s v
  target : ∃ w, σ'.book.Account d w

theorem transferWithoutFee_ok {m : PodState PodMint}
    {sourceInfo mintInfo destinationInfo : AccountInfo} {data : TransferData}
    {accounts : List AccountInfo} (hwf : c.σ.Wf)
    (head : c.key? 0 = some sourceInfo.key)
    (last : c.key? c.instruction.destinationIndex = some destinationInfo.key)
    (hspends : Call.spendLayout c.instruction = none) (hs : accounts <:+ c.accounts)
    (hm : c.σ.book.Mint mintInfo.key m.view) (running : m.view.paused = false)
    (free : m.view.get TransferFeeConfig = none)
    (h : transferWithoutFee rt c.ctx c.σ m sourceInfo mintInfo destinationInfo data accounts =
      .ok σ') :
    Transferred rt c σ' sourceInfo.key destinationInfo.key m.view.hookProgram := by
  simp only [transferWithoutFee, bind_eq_ok, Prod.exists] at h
  obtain ⟨_, _, p, rest, hproof, h⟩ := h
  obtain _ | ⟨authorityInfo, signers⟩ := rest
  · cases h
  simp only [processSourceForTransfer, bind_eq_ok, exists_unit] at h
  obtain ⟨_, _, σ₁, hdebit, h⟩ := h
  obtain ⟨v, v', e, e', hd⟩ :=
      debitSource_ok hwf ((verifyTransferProof_suffix hproof).trans hs) hdebit
  obtain ⟨w, w', g, g', hc, hcredit⟩ := processDestinationForTransfer_ok hd.wf h
  obtain ⟨hs', hd'⟩ := accounts_of_credited hd hc
  exact ⟨hc.wf, trade_of_debited head last hspends hm running hd hc
      (.plain free hproof hd.debit hcredit),
    hs', hd'⟩

theorem transferWithFee_ok {m : PodState PodMint} {t : TransferFeeConfig}
    {sourceInfo mintInfo destinationInfo : AccountInfo} {data : TransferData}
    {accounts : List AccountInfo} (hwf : c.σ.Wf)
    (head : c.key? 0 = some sourceInfo.key)
    (last : c.key? c.instruction.destinationIndex = some destinationInfo.key)
    (hspends : Call.spendLayout c.instruction = none) (hs : accounts <:+ c.accounts)
    (hm : c.σ.book.Mint mintInfo.key m.view) (running : m.view.paused = false)
    (config : m.view.get TransferFeeConfig = some t)
    (h : transferWithFee rt c.ctx c.σ m t sourceInfo mintInfo destinationInfo data accounts =
      .ok σ') :
    Transferred rt c σ' sourceInfo.key destinationInfo.key m.view.hookProgram := by
  simp only [transferWithFee, bind_eq_ok, okOr_eq_ok, Prod.exists] at h
  obtain ⟨_, _, _, _, _, _, p, rest, hproof, h⟩ := h
  obtain _ | ⟨authorityInfo, signers⟩ := rest
  · cases h
  simp only [processSourceForTransferWithFee, bind_eq_ok, exists_unit, failIf_eq_ok,
    bne_eq_false_iff_eq, PodState.getExtension_eq_ok] at h
  obtain ⟨_, f, hf, hkey, _, σ₁, hdebit, h⟩ := h
  obtain ⟨v, v', e, e', hd⟩ := debitSource_ok hwf
    ((verifyTransferWithFeeProof_suffix hproof).trans hs) hdebit
  obtain ⟨w, w', g, g₁, g', y', hc, hcredit, hfee⟩ :=
      processDestinationForTransferWithFee_ok hd.wf h
  obtain ⟨hs', hd'⟩ := accounts_of_credited hd hc
  refine ⟨hc.wf, trade_of_debited head last hspends hm running hd hc ?_, hs', hd'⟩
  rcases hfee with ⟨hself, rfl, rfl⟩ | ⟨hself, y, y₁, hy, rfl, hwithheld⟩
  · exact .selfWithFee config hproof hd.debit hcredit hself
  · rw [hy]
    exact .withFee config hf hproof hkey hd.debit hcredit hself hwithheld

theorem callHook_ok {m : PodState PodMint} {s d : Pubkey} {v w : View PodAccount}
    (hwf : σ.Wf) (hv : σ.book.Account s v) (hw : σ.book.Account d w)
    (h : callHook c.ctx m s d σ = .ok σ') :
    σ'.Wf ∧ Hooked c s d m.view.hookProgram σ.book σ'.book := by
  rw [callHook, getProgramId_eq] at h
  cases hprogram : m.view.hookProgram with
  | none =>
    rw [hprogram] at h
    obtain rfl := Except.ok.inj h
    exact ⟨hwf, .quiet⟩
  | some program =>
    rw [hprogram] at h
    simp only [bind_eq_ok] at h
    obtain ⟨σ₁, h₁, σ₂, h₂, σ₃, hrun, σ₄, h₄, h⟩ := h
    obtain ⟨hwf₂, hraised⟩ := setFlag_two hwf hv hw h₁ h₂
    exact hooked_of_raised hwf₂ hv hw hraised hrun h₄ h

theorem processTransfer_course {data : TransferData} (hwf : c.σ.Wf)
    (htrades : c.instruction.trades = true) (hspends : Call.spendLayout c.instruction = none)
    (hindex : c.instruction.destinationIndex = 2)
    (h : processTransfer rt c.ctx c.accounts data c.σ = .ok σ') :
    σ'.Wf ∧ Course rt c c.σ.book σ'.book := by
  unfold processTransfer at h
  split at h
  · rename_i sourceInfo mintInfo destinationInfo rest haccounts
    simp only [loadChecked, checkProgramAccount, bind_eq_ok, exists_unit, failIf_eq_ok,
      bne_eq_false_iff_eq, isPaused_eq, PodState.toOption_getExtension] at h
    obtain ⟨m, ⟨howner, hload⟩, running, h⟩ := h
    have hm : c.σ.book.Mint mintInfo.key m.view := contents_of_load howner hload
    have hs : rest <:+ c.accounts := haccounts ▸ List.suffix_append [_, _, _] _
    have hhead : c.key? 0 = some sourceInfo.key := by rw [Call.key?, haccounts]; rfl
    have hlast : c.key? c.instruction.destinationIndex = some destinationInfo.key := by
      rw [hindex, Call.key?, haccounts]
      rfl
    obtain ⟨σ₁, hdone, hhook⟩ : ∃ σ₁ : Ledger,
        Transferred rt c σ₁ sourceInfo.key destinationInfo.key m.view.hookProgram ∧
        callHook c.ctx m sourceInfo.key destinationInfo.key σ₁ = .ok σ' := by
      split at h
      · rename_i hfree
        simp only [bind_eq_ok] at h
        obtain ⟨σ₁, h₁, h⟩ := h
        exact ⟨σ₁, transferWithoutFee_ok hwf hhead hlast hspends hs hm running hfree h₁, h⟩
      · rename_i t hconfig
        simp only [bind_eq_ok] at h
        obtain ⟨σ₁, h₁, h⟩ := h
        exact ⟨σ₁, transferWithFee_ok hwf hhead hlast hspends hs hm running hconfig h₁, h⟩
    obtain ⟨_, hv⟩ := hdone.source
    obtain ⟨_, hw⟩ := hdone.target
    obtain ⟨hwf', hhooked⟩ := callHook_ok hdone.wf hv hw hhook
    exact ⟨hwf', .trade htrades hdone.trade hhooked⟩
  · cases h

end Processor.ConfidentialTransfer

end SolanaEasy.Token
