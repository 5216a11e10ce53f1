import SolanaEasy.Token.Refine.Transfer

/-!
# Refinement — transfer fees

The loops that harvest and withdraw keep one account borrowed, the mint or the
destination, and write it back at the end. The book in which it is written back
already is what the moves of the loop are about.
-/

namespace SolanaEasy.Token

open Processor

namespace View

/-- A fee configuration in which only the withheld amount differs. -/
theorem keeps_setWithheld {m : View PodMint} {e : TransferFeeConfig} {x : UInt64}
    (hget : m.get TransferFeeConfig = some e)
    (h : e.withheldAmount.toNat ≤ x.toNat ∨ m.authority .withheldWithdraw ≠ none) :
    m.Keeps (m.set { e with withheldAmount := x }) := by
  obtain ⟨hw, hf⟩ := mintCore_withheld_of_get hget
  refine keeps_set hget (settled_set fun a ha hnone => ?_)
  cases a with
  | transferFeeConfig =>
    rw [authority, hget] at hnone
    refine ⟨by rw [authority, get_set_same]; exact hnone, ?_⟩
    rw [SameSetting, m.mintCore_set_feeConfig, ← hf]
  | withheldWithdraw =>
    have hle := h.resolve_right (not_not_intro hnone)
    rw [authority, hget] at hnone
    refine ⟨by rw [authority, get_set_same]; exact hnone, ?_⟩
    rw [SameSetting, mintWithheld, mintWithheld, get_set_same, hget]
    exact hle
  | _ => rcases ha with ha | ha <;> cases ha

theorem set_get {S V : Type} [Pod V] [Extension V] {v : View S} {x : V} (h : v.get V = some x) :
    v.set x = v := by
  have hext : Function.update v.ext (Extension.type V) (some (Pod.toBytes x)) = v.ext := by
    rw [← ext_eq_of_get h, Function.update_eq_self]
  rw [set, setExt, hext]

end View

namespace Processor.TransferFee

variable {rt : Runtime} {c : Call} {σ σ' : Ledger} {accounts : List AccountInfo} {M a d : Pubkey}

/-! ## One account -/

/-- The withheld amount `x` was taken out of the account at `a`. -/
structure Harvested (σ σ' : Ledger) (M a : Pubkey) (x : UInt64) (v v' : View PodAccount) :
    Prop where
  wf : σ'.Wf
  held : σ.book.Account a v
  mint : v.base.mint = M
  amount : v.withheld = x.toNat
  core : v'.core = { v.core with withheld := 0 }
  grows : v.Grows v'
  book : σ'.book = σ.book.put a (.account v')
  frame : ∀ k, k ≠ a → σ' k = σ k

/-- Nothing was withheld. -/
theorem Harvested.quiet {x : UInt64} {v v' : View PodAccount} (h : Harvested σ σ' M a x v v')
    (hx : x.toNat = 0) : Move rt c σ.book σ'.book := by
  rw [h.book]
  refine .account h.held (h.core.trans ?_) h.grows
  rw [← hx, ← h.amount]
  rfl

theorem harvestFromAccount_ok {x : UInt64} (hwf : σ.Wf)
    (h : harvestFromAccount σ M a = .ok (σ', x)) : ∃ v v', Harvested σ σ' M a x v v' := by
  simp only [harvestFromAccount, checkProgramAccount, bind_eq_ok, exists_unit, mapErr_eq_ok,
    failIf_eq_ok, bne_eq_false_iff_eq, PodState.getExtension_eq_ok, pure_eq_ok, Prod.mk.injEq] at h
  obtain ⟨s, hload, hmint, howner, e, hget, s', hset, σ₁, hstore, rfl, rfl⟩ := h
  obtain ⟨hswf, _⟩ := hwf.load howner hload
  have hw := store_held hwf howner hload (PodState.setExtension_ok hswf hset).1
    (packed_of_load hload).initialized trivial hstore
  refine ⟨s.view, _, hw.wf, contents_of_load howner hload, hmint, View.withheld_of_feeAmount hget,
    s.view.core_set_feeAmount _, s.view.grows_set _, hw.book, fun k hk => ?_⟩
  rw [hw.eq, Ledger.set_of_ne _ _ hk]

/-! ## Harvesting to the mint -/

/-- The loop, on the book in which the mint has its sum already. -/
theorem harvestAll_moves {m : View PodMint} {infos : List AccountInfo} :
    ∀ {σ : Ledger} {e e' : TransferFeeConfig}, σ.Wf → m.get TransferFeeConfig = some e →
      harvestAll M infos σ e = .ok (σ', e') →
      σ'.Wf ∧ σ' M = σ M ∧ e.withheldAmount.toNat ≤ e'.withheldAmount.toNat ∧
        (∃ x, e' = { e with withheldAmount := x }) ∧
        Moves rt c (σ.book.put M (.mint m)) (σ'.book.put M (.mint (m.set e'))) ∧
        (e' = e → Moves rt c σ.book σ'.book) := by
  induction infos generalizing m with
  | nil =>
    intro σ e e' hwf hget h
    obtain ⟨rfl, rfl⟩ := Prod.mk.inj (Except.ok.inj h)
    rw [View.set_get hget]
    exact ⟨hwf, rfl, le_rfl, ⟨_, rfl⟩, .refl, fun _ => .refl⟩
  | cons info infos ih =>
    intro σ e e' hwf hget h
    simp only [harvestAll, bind_eq_ok, exists_unit, failIf_eq_ok, beq_eq_false_iff_ne] at h
    obtain ⟨hne, h⟩ := h
    cases hharvest : toOption (harvestFromAccount σ M info.key) with
    | none =>
      rw [hharvest] at h
      exact ih hwf hget h
    | some p =>
      obtain ⟨σ₁, x⟩ := p
      rw [hharvest] at h
      simp only [bind_eq_ok, okOr_eq_ok, checkedAdd_eq_some] at h
      obtain ⟨sum, hsum, h⟩ := h
      obtain ⟨v, v', hv⟩ := harvestFromAccount_ok hwf (toOption_eq_some.mp hharvest)
      obtain ⟨hwf', hM, hle, ⟨y, rfl⟩, hmoves, hsame⟩ :=
          ih (m := m.set { e with withheldAmount := sum })
        hv.wf (View.get_set_same _ _) h
      have hle' : e.withheldAmount.toNat ≤ sum.toNat := by omega
      refine ⟨hwf', hM.trans (hv.frame _ (Ne.symm hne)), hle'.trans hle, ⟨y, rfl⟩, ?_, fun he => ?_⟩
      · have hharvested : Move rt c (σ.book.put M (.mint m))
            (σ₁.book.put M (.mint (m.set { e with withheldAmount := sum }))) := by
          have hbook : σ₁.book.put M (.mint (m.set { e with withheldAmount := sum })) =
              ((σ.book.put M (.mint m)).put info.key (.account v')).put M
                (.mint (m.set { e with withheldAmount := sum })) := by
            rw [hv.book, Book.put_comm _ (.mint m) _ hne, Book.put_put]
          rw [hbook]
          obtain ⟨hw, hf⟩ := View.mintCore_withheld_of_get hget
          refine .harvest (hv.held.put_of_ne _ hne) hv.mint (Book.mint_put ..)
            ⟨_, View.ext_isSome_of_get hget⟩ hv.core ?_ hv.grows
            (View.keeps_setWithheld hget (.inl hle'))
          rw [m.mintCore_set_feeConfig, ← hf, hsum, ← hw, hv.amount]
          rfl
        rw [View.set_set] at hmoves
        exact .head hharvested hmoves
      · -- nothing was added, so nothing was withheld
        have hy : y = e.withheldAmount := congrArg TransferFeeConfig.withheldAmount he
        subst hy
        have hx : x.toNat = 0 := by
          have hback : sum.toNat ≤ e.withheldAmount.toNat := hle
          omega
        have hzero : sum = e.withheldAmount := UInt64.toNat_inj.mp (by omega)
        subst hzero
        exact .head (hv.quiet hx) (hsame rfl)

/-- A value that can be written without changing a byte is the one that is there. -/
theorem get_of_setExtension_bytes {S V : Type} [BaseState S] [Pod V] [Extension V]
    {s s' : PodState S} {x y : V} (hp : s.Packed) (hget : s.getExtension V = .ok y)
    (hset : s.setExtension x = .ok s') (hbytes : s'.bytes = s.bytes) : x = y := by
  simp only [PodState.setExtension, bind_eq_ok, exists_unit, failIf_eq_ok, bne_eq_false_iff_eq,
    Prod.exists, pure_eq_ok] at hset
  obtain ⟨i, j, hrange, hsize, rfl⟩ := hset
  have hslice : slice s.tlvData i j = Pod.toBytes y := by
    simp only [PodState.getExtension, getExtensionBytes, hrange, ok_bind, bind_eq_ok, okOr_eq_ok,
      Pod.decode?_eq_some, pure_eq_ok] at hget
    obtain ⟨b, rfl, hb⟩ := hget
    exact hb
  obtain ⟨hij, hj⟩ : i ≤ j ∧ j ≤ s.tlvData.length := by
    simp only [getExtensionRange, bind_eq_ok, exists_unit, failIf_eq_ok, decide_eq_false_iff_not,
      Nat.not_lt, pure_eq_ok, Prod.mk.injEq] at hrange
    obtain ⟨_, ix, _, hle, rfl, rfl⟩ := hrange
    exact ⟨Nat.le_add_right .., hle⟩
  have hlen : i + (Pod.toBytes x).length = j := by
    rw [Pod.length_toBytes]
    omega
  have htlv : splice s.tlvData i (Pod.toBytes x) = s.tlvData := by
    rcases hp.layout with ⟨_, hnil⟩ | hat
    · have hempty := length_splice (b := s.tlvData) (i := i) (v := Pod.toBytes x) (by omega)
      rw [hnil] at hempty ⊢
      exact List.length_eq_zero_iff.mp hempty
    · have hnew := PodState.bytes_of_accountType (S := S)
        (s := { s with tlvData := splice s.tlvData i (Pod.toBytes x) }) hat
      rw [hnew, PodState.bytes_of_accountType hat] at hbytes
      exact List.append_cancel_left (List.append_cancel_left (List.append_cancel_left hbytes))
  have hdrop : s.tlvData.drop i = Pod.toBytes x ++ s.tlvData.drop j := by
    conv_lhs => rw [← htlv]
    rw [splice, hlen, List.append_assoc, List.drop_left' (by rw [List.length_take]; omega)]
  have hread := slice_of_drop_eq hdrop
  rw [hlen, hslice] at hread
  exact (Pod.toBytes_injective hread).symm

theorem processHarvestWithheldTokensToMint_refines (hwf : σ.Wf)
    (h : processHarvestWithheldTokensToMint accounts σ = .ok σ') : Refines rt c σ σ' := by
  obtain _ | ⟨mintInfo, infos⟩ := accounts
  · cases h
  simp only [processHarvestWithheldTokensToMint, bind_eq_ok, Prod.exists] at h
  obtain ⟨m, hload, e, hget, σ₁, e', hall, m', hset, h⟩ := h
  have hview := PodState.getExtension_eq_ok.mp hget
  obtain ⟨hwf₁, hM, hle, ⟨x, rfl⟩, hmoves, hsame⟩ := harvestAll_moves hwf hview hall
  by_cases howner : (σ mintInfo.key).owner = Keys.tokenProgram
  · obtain ⟨hmwf, hvalid⟩ := hwf.load howner hload
    have hw := store_held hwf₁ (by rw [hM]; exact howner)
      (show load σ₁ PodMint mintInfo.key = .ok m by rw [load, hM]; exact hload)
      (PodState.setExtension_ok hmwf hset).1 (packed_of_load hload).initialized
      (validDefault_set_of_ne (by decide) hvalid) h
    have held : σ.book.Mint mintInfo.key m.view := contents_of_load howner hload
    rw [Book.put_self held] at hmoves
    exact ⟨hw.wf, hw.book ▸ hmoves⟩
  · obtain ⟨hok, _⟩ := store_eq_ok.mp h
    have hbytes : m'.bytes = m.bytes := by
      have hdata := hok.resolve_left (by rw [hM]; exact howner)
      rw [hdata, hM, data_of_load hload]
    have he := get_of_setExtension_bytes (packed_of_load hload) hget hset hbytes
    obtain rfl := store_foreign (by rw [hM]; exact howner) h
    exact ⟨hwf₁, hsame he⟩

/-! ## Withdrawing -/

theorem processWithdrawWithheldTokensFromMint_refines (hwf : σ.Wf)
    (hcollects : c.instruction.collects = true)
    (h : processWithdrawWithheldTokensFromMint accounts σ = .ok σ') : Refines rt c σ σ' := by
  obtain _ | ⟨mintInfo, _ | ⟨destinationInfo, _ | ⟨authorityInfo, signers⟩⟩⟩ := accounts
  · cases h
  · cases h
  · cases h
  simp only [processWithdrawWithheldTokensFromMint, checkProgramAccount, loadBeside, bind_eq_ok,
    exists_unit, failIf_eq_ok, bne_eq_false_iff_eq, beq_eq_false_iff_ne, okOr_eq_ok,
    PodState.getExtension_eq_ok, checkedAdd_eq_some] at h
  obtain ⟨howner, m, hmint, e, hget, _, hauthority, _, s, ⟨hne, hload⟩, hkey, hthawed, m', hset,
    amount, hamount, σ₁, h₁, h⟩ := h
  obtain ⟨hmwf, hvalid⟩ := hwf.load howner hmint
  have hw := store_held hwf howner hmint (PodState.setExtension_ok hmwf hset).1
    (packed_of_load hmint).initialized (validDefault_set_of_ne (by decide) hvalid) h₁
  have held : σ.book.Mint mintInfo.key m.view := contents_of_load howner hmint
  have hsome : m.view.authority .withheldWithdraw ≠ none := by
    rw [View.authority, hget, Option.bind_some, hauthority]
    exact Option.some_ne_none _
  obtain ⟨hwithheld, hfees⟩ := View.mintCore_withheld_of_get hget
  by_cases howner' : (σ destinationInfo.key).owner = Keys.tokenProgram
  · obtain ⟨hswf, _⟩ := hwf.load howner' hload
    have hst := (PodState.Stored.refl hswf).withBase { s.base with amount := amount }
    have hw' := store_held (S := PodAccount) hw.wf
      (by rw [hw.eq, Ledger.set_of_ne _ _ hne]; exact howner')
      (by rw [hw.eq, load_set_of_ne _ hne]; exact hload) hst (packed_of_load hload).initialized
      trivial h
    refine ⟨hw'.wf, ?_⟩
    have hbook : σ'.book = (σ.book.put destinationInfo.key (.account (s.view.withBase
        { s.base with amount := amount }))).put mintInfo.key (.mint (m.view.set
          { e with withheldAmount := 0 })) := by
      rw [hw'.book, hw.book, Book.put_comm _ _ _ hne]
      rfl
    rw [hbook]
    refine .single (.collectMint hcollects (contents_of_load howner' hload) hkey held
      ⟨_, View.ext_isSome_of_get hget⟩ hthawed ?_ rfl ?_ (.refl _)
      (View.keeps_setWithheld hget (.inr hsome)))
    · rw [hamount, ← hwithheld]
      rfl
    · rw [View.mintCore_set_feeConfig, ← hfees]
      rfl
  · -- a destination of another program keeps its bytes, so that nothing was withheld
    have howner₁ : (σ₁ destinationInfo.key).owner ≠ Keys.tokenProgram := by
      rw [hw.eq, Ledger.set_of_ne _ _ hne]
      exact howner'
    obtain ⟨hok, _⟩ := store_eq_ok.mp h
    have hbytes := hok.resolve_left howner₁
    rw [hw.eq, Ledger.set_of_ne _ _ hne, data_of_load hload] at hbytes
    have hsame : amount = s.base.amount := congrArg PodAccount.amount (base_of_bytes hbytes)
    have hzero : e.withheldAmount = 0 := by
      rw [hsame] at hamount
      exact UInt64.toNat_inj.mp (by rw [UInt64.toNat_zero]; omega)
    obtain rfl := store_foreign howner₁ h
    have he : ({ e with withheldAmount := 0 } : TransferFeeConfig) = e := by rw [← hzero]
    refine .of_book ⟨hw.wf, ?_⟩
    rw [hw.book, he, View.set_get hget]
    exact Book.put_self held

/-- The destination, when it is one of the accounts: what it withholds goes to itself. -/
theorem harvestSelf_ok {t₀ t t' : PodState PodAccount} {w : View PodAccount}
    (hst : t₀.Stored t w) (h : harvestSelf t = .ok t') :
    ∃ (w₁ : View PodAccount) (b : UInt64), t₀.Stored t' (w₁.withBase { w₁.base with amount := b }) ∧
      w₁.core = { w.core with withheld := 0 } ∧ w.Grows w₁ ∧
      b.toNat = w.base.amount.toNat + w.withheld := by
  simp only [harvestSelf, bind_eq_ok, mapErr_eq_ok, okOr_eq_ok, checkedAdd_eq_some, pure_eq_ok,
    PodState.getExtension_eq_ok] at h
  obtain ⟨e, hget, t₁, hset, b, hb, rfl⟩ := h
  have hst₁ := (PodState.setExtension_ok hst.wf hset).1
  rw [hst.view] at hst₁ hget
  have hbase : t₁.base = w.base := hst₁.base_eq
  refine ⟨w.set { e with withheldAmount := 0 }, b, ?_, w.core_set_feeAmount _, w.grows_set _, ?_⟩
  · have hnew := (hst.trans hst₁).withBase { t₁.base with amount := b }
    rw [View.base_set, ← hbase]
    exact hnew
  · rw [hb, View.withheld_of_feeAmount hget, hbase]

/-- The loop, on the book in which the destination has its credits already. -/
theorem withdrawAll_moves {m : View PodMint} {t₀ : PodState PodAccount}
    (hcollects : c.instruction.collects = true) (hext : ∃ t, (m.ext t).isSome = true) (hd : d ≠ M)
    {infos : List AccountInfo} :
    ∀ {σ : Ledger} {t t' : PodState PodAccount} {w : View PodAccount}, σ.Wf → t₀.Stored t w →
      σ.book.Mint M m → w.base.mint = M → w.base.isFrozen = false →
      withdrawAll M d infos σ t = .ok (σ', t') →
      ∃ w', σ'.Wf ∧ t₀.Stored t' w' ∧ σ' d = σ d ∧ w'.base.state = w.base.state ∧
        Moves rt c (σ.book.put d (.account w)) (σ'.book.put d (.account w')) := by
  induction infos with
  | nil =>
    intro σ t t' w hwf hst _ _ _ h
    obtain ⟨rfl, rfl⟩ := Prod.mk.inj (Except.ok.inj h)
    exact ⟨w, hwf, hst, rfl, rfl, .refl⟩
  | cons info infos ih =>
    intro σ t t' w hwf hst hmint hw hthawed h
    rw [withdrawAll] at h
    split at h
    · rename_i hself
      rw [beq_iff_eq] at hself
      simp only [bind_eq_ok] at h
      obtain ⟨t₁, hharvest, h⟩ := h
      obtain ⟨w₁, b, hst₁, hcore, hgrows, hb⟩ := harvestSelf_ok hst hharvest
      have hbase : w₁.base = w.base := congrArg Core.base hcore
      obtain ⟨w', hwf', hst', hcell, hstate, hmoves⟩ := ih hwf hst₁ hmint (by rw [hbase]; exact hw)
        (by rw [hbase]; exact hthawed) h
      refine ⟨w', hwf', hst', hcell, hstate.trans (by rw [hbase]; rfl), .head ?_ hmoves⟩
      have hbook : σ.book.put d (.account (w₁.withBase { w₁.base with amount := b })) =
          ((σ.book.put d (.account w)).put d (.account w₁)).put d
            (.account (w₁.withBase { w₁.base with amount := b })) := by
        rw [Book.put_put, Book.put_put]
      rw [hbook]
      exact .collect hcollects (Book.account_put ..) hw (hmint.put_of_ne _ (Ne.symm hd)) hext hcore
        (Book.account_put ..) (by rw [hbase]; exact hw) (by rw [hbase]; exact hthawed)
        (by rw [hbase]; exact hb) rfl hgrows (.refl _)
    · rename_i hself
      rw [beq_iff_eq] at hself
      simp only [bind_eq_ok, exists_unit, failIf_eq_ok, beq_eq_false_iff_ne] at h
      obtain ⟨hne, h⟩ := h
      cases hharvest : toOption (harvestFromAccount σ M info.key) with
      | none =>
        rw [hharvest] at h
        exact ih hwf hst hmint hw hthawed h
      | some p =>
        obtain ⟨σ₁, x⟩ := p
        rw [hharvest] at h
        simp only [bind_eq_ok, okOr_eq_ok, checkedAdd_eq_some] at h
        obtain ⟨b, hb, h⟩ := h
        obtain ⟨v, v', hv⟩ := harvestFromAccount_ok hwf (toOption_eq_some.mp hharvest)
        have hst₁ := hst.withBase { t.base with amount := b }
        have hmint₁ : σ₁.book.Mint M m := by
          rw [hv.book]
          exact hmint.put_of_ne _ (Ne.symm hne)
        have hbase : t.base = w.base := hst.base_eq
        obtain ⟨w', hwf', hst', hcell, hstate, hmoves⟩ := ih hv.wf hst₁ hmint₁
          (by rw [hbase]; exact hw) (by rw [hbase]; exact hthawed) h
        refine ⟨w', hwf', hst', hcell.trans (hv.frame _ (Ne.symm hself)),
          hstate.trans (by rw [hbase]; rfl), .head ?_ hmoves⟩
        have hbook : σ₁.book.put d (.account (w.withBase { t.base with amount := b })) =
            ((σ.book.put d (.account w)).put info.key (.account v')).put d
              (.account (w.withBase { t.base with amount := b })) := by
          rw [hv.book, Book.put_comm _ (.account w) _ hself, Book.put_put]
        rw [hbook]
        refine .collect (b := b) hcollects (hv.held.put_of_ne _ hself) hv.mint
          (hmint.put_of_ne _ (Ne.symm hd)) hext hv.core
          ((Book.account_put ..).put_of_ne _ (Ne.symm hself)) hw hthawed ?_ ?_ hv.grows
          (.refl _)
        · rw [hb, hbase, hv.amount]
        · rw [hbase]
          rfl

/-- The loop with a destination of another program, whose amount must not change. -/
theorem withdrawAll_foreign {infos : List AccountInfo} :
    ∀ {σ : Ledger} {t t' : PodState PodAccount}, σ.Wf →
      withdrawAll M d infos σ t = .ok (σ', t') →
      σ'.Wf ∧ σ' d = σ d ∧ t.base.amount.toNat ≤ t'.base.amount.toNat ∧
        (t'.base.amount = t.base.amount → Moves rt c σ.book σ'.book) := by
  induction infos with
  | nil =>
    intro σ t t' hwf h
    obtain ⟨rfl, rfl⟩ := Prod.mk.inj (Except.ok.inj h)
    exact ⟨hwf, rfl, le_rfl, fun _ => .refl⟩
  | cons info infos ih =>
    intro σ t t' hwf h
    rw [withdrawAll] at h
    split at h
    · simp only [harvestSelf, bind_eq_ok, mapErr_eq_ok, okOr_eq_ok, checkedAdd_eq_some,
        pure_eq_ok] at h
      obtain ⟨_, ⟨e, _, t₁, hset, b, hb, rfl⟩, h⟩ := h
      have hbase : t₁.base = t.base := by
        simp only [PodState.setExtension, bind_eq_ok, Prod.exists, pure_eq_ok] at hset
        obtain ⟨_, _, _, _, _, rfl⟩ := hset
        rfl
      rw [hbase] at hb
      obtain ⟨hwf', hcell, hle, hmoves⟩ := ih hwf h
      have hle' : t.base.amount.toNat ≤ b.toNat := by omega
      refine ⟨hwf', hcell, hle'.trans hle, fun he => hmoves ?_⟩
      have hback : b.toNat ≤ t.base.amount.toNat := he ▸ hle
      rw [he]
      exact UInt64.toNat_inj.mp (Nat.le_antisymm hle' hback)
    · rename_i hself
      rw [beq_iff_eq] at hself
      simp only [bind_eq_ok, exists_unit, failIf_eq_ok, beq_eq_false_iff_ne] at h
      obtain ⟨hne, h⟩ := h
      cases hharvest : toOption (harvestFromAccount σ M info.key) with
      | none =>
        rw [hharvest] at h
        exact ih hwf h
      | some p =>
        obtain ⟨σ₁, x⟩ := p
        rw [hharvest] at h
        simp only [bind_eq_ok, okOr_eq_ok, checkedAdd_eq_some] at h
        obtain ⟨b, hb, h⟩ := h
        obtain ⟨v, v', hv⟩ := harvestFromAccount_ok hwf (toOption_eq_some.mp hharvest)
        obtain ⟨hwf', hcell, hle, hmoves⟩ := ih hv.wf h
        have hle' : t.base.amount.toNat ≤ b.toNat := by omega
        refine ⟨hwf', hcell.trans (hv.frame _ (Ne.symm hself)), hle'.trans hle, fun he => ?_⟩
        have hback : b.toNat ≤ t.base.amount.toNat := he ▸ hle
        have hb' : b = t.base.amount := UInt64.toNat_inj.mp (Nat.le_antisymm hback hle')
        refine .head (hv.quiet (by omega)) (hmoves (he.trans hb'.symm))

theorem processWithdrawWithheldTokensFromAccounts_refines {n : UInt8} (hwf : σ.Wf)
    (hcollects : c.instruction.collects = true)
    (h : processWithdrawWithheldTokensFromAccounts accounts n σ = .ok σ') : Refines rt c σ σ' := by
  obtain _ | ⟨mintInfo, _ | ⟨destinationInfo, _ | ⟨authorityInfo, infos⟩⟩⟩ := accounts
  · cases h
  · cases h
  · cases h
  simp only [processWithdrawWithheldTokensFromAccounts, checkProgramAccount, loadBeside,
    bind_eq_ok, exists_unit, failIf_eq_ok, bne_eq_false_iff_eq, beq_eq_false_iff_ne, okOr_eq_ok,
    PodState.getExtension_eq_ok, Prod.exists] at h
  obtain ⟨howner, m, hmint, e, hget, _, _, _, s, ⟨hne, hload⟩, hkey, hthawed, σ₁, t, hall, h⟩ := h
  by_cases howner' : (σ destinationInfo.key).owner = Keys.tokenProgram
  · obtain ⟨hswf, _⟩ := hwf.load howner' hload
    have held : σ.book.Account destinationInfo.key s.view := contents_of_load howner' hload
    obtain ⟨w, hwf₁, hst, hcell, hstate, hmoves⟩ := withdrawAll_moves hcollects
      ⟨_, View.ext_isSome_of_get hget⟩ hne hwf (.refl hswf) (contents_of_load howner hmint) hkey
      hthawed hall
    have hinit : w.base.isInitialized = true := by
      rw [PodAccount.isInitialized, hstate]
      exact (packed_of_load hload).initialized
    have hw := store_held (S := PodAccount) hwf₁ (by rw [hcell]; exact howner')
      (by rw [load, hcell]; exact hload) hst hinit trivial h
    rw [Book.put_self held] at hmoves
    exact ⟨hw.wf, hw.book ▸ hmoves⟩
  · obtain ⟨hwf₁, hcell, _, hmoves⟩ := withdrawAll_foreign hwf hall
    rw [← hcell] at howner'
    obtain ⟨hok, _⟩ := store_eq_ok.mp h
    have hbytes := hok.resolve_left howner'
    rw [hcell, data_of_load hload] at hbytes
    obtain rfl := store_foreign howner' h
    exact ⟨hwf₁, hmoves (congrArg PodAccount.amount (base_of_bytes hbytes))⟩

end Processor.TransferFee

end SolanaEasy.Token
