import SolanaEasy.Token.Refine.Authority

/-!
# Refinement — payments, closing and the native mint

The handlers that move lamports. A payment keeps the owner and the data of every
cell, so that what was loaded before it is still there after it.
-/

namespace SolanaEasy.Token

open Processor

/-! ## Payments -/

theorem checkedSub_sub {a b c : UInt64} (h : checkedSub a b = some c) : b ≤ a ∧ c = a - b := by
  unfold checkedSub at h
  split at h
  · rename_i hle
    exact ⟨UInt64.le_iff_toNat_le.mpr hle, (Option.some.inj h).symm⟩
  · cases h

theorem checkedAdd_add {a b c : UInt64} (h : checkedAdd a b = some c) :
    a.toNat + b.toNat < 2 ^ 64 ∧ c = a + b := by
  unfold checkedAdd at h
  split at h
  · rename_i hlt
    exact ⟨hlt, (Option.some.inj h).symm⟩
  · cases h

/-- `x` lamports went from `a` to `b`, and nothing else happened. -/
structure Pays (σ σ' : Ledger) (a b : Pubkey) (x : UInt64) : Prop where
  wf : σ'.Wf
  book : σ'.book = σ.book.pay a b x
  can : σ.book.CanPay a b x
  owner : ∀ k, (σ' k).owner = (σ k).owner
  data : ∀ k, (σ' k).data = (σ k).data

section Pays

variable {σ σ' : Ledger} {a b : Pubkey} {x rest total : UInt64}

theorem pays_of_set (hwf : σ.Wf) (hrest : checkedSub (σ a).lamports x = some rest)
    (htotal : checkedAdd (σ.set a { σ a with lamports := rest } b).lamports x = some total) :
    Pays σ ((σ.set a { σ a with lamports := rest }).set b
      { σ.set a { σ a with lamports := rest } b with lamports := total }) a b x := by
  obtain ⟨hle, rfl⟩ := checkedSub_sub hrest
  obtain ⟨hfits, rfl⟩ := checkedAdd_add htotal
  have howner : ∀ (τ : Ledger) j y k, (τ.set j { τ j with lamports := y } k).owner =
      (τ k).owner := by
    intro τ j y k
    rw [Ledger.set_apply]
    split_ifs with hk
    · rw [hk]
    · rfl
  have hdata : ∀ (τ : Ledger) j y k, (τ.set j { τ j with lamports := y } k).data = (τ k).data := by
    intro τ j y k
    rw [Ledger.set_apply]
    split_ifs with hk
    · rw [hk]
    · rfl
  have hbook : (σ.set a { σ a with lamports := (σ a).lamports - x }).book =
      σ.book.set a { σ.book a with lamports := (σ.book a).lamports - x } :=
    Ledger.book_setLamports ..
  refine ⟨(hwf.setLamports _).setLamports _, ?_, ⟨hle, fun hne => ?_⟩, fun k => ?_, fun k => ?_⟩
  · rw [Ledger.book_setLamports]
    simp only [Book.pay, ← hbook]
    rfl
  · rwa [Ledger.set_of_ne _ _ (Ne.symm hne)] at hfits
  · rw [howner, howner]
  · rw [hdata, hdata]

theorem moveLamports_pays (hwf : σ.Wf) (h : moveLamports σ a b x = .ok σ') : Pays σ σ' a b x := by
  simp only [moveLamports, bind_eq_ok, okOr_eq_ok] at h
  obtain ⟨rest, hrest, σ₁, hσ₁, total, htotal, h⟩ := h
  obtain ⟨_, rfl⟩ := writeLamports_eq_ok.mp hσ₁
  obtain ⟨_, rfl⟩ := writeLamports_eq_ok.mp h
  exact pays_of_set hwf hrest htotal

theorem systemTransfer_pays {payer : AccountInfo} (hwf : σ.Wf)
    (h : σ.systemTransfer payer b x = .ok σ') :
    Pays σ σ' payer.key b x ∧ (σ payer.key).owner = Keys.systemProgram := by
  simp only [Ledger.systemTransfer, bind_eq_ok, exists_unit, okOr_eq_ok, failIf_eq_ok,
    Bool.or_eq_false_iff, bne_eq_false_iff_eq, pure_eq_ok] at h
  obtain ⟨_, ⟨howner, _⟩, rest, hrest, total, htotal, rfl⟩ := h
  exact ⟨pays_of_set hwf hrest htotal, howner⟩

theorem Pays.load {S : Type} [BaseState S] (h : Pays σ σ' a b x) (k : Pubkey) :
    load σ' S k = load σ S k := by
  rw [Token.load, Token.load, h.data]

theorem systemProgram_ne : Keys.systemProgram ≠ Keys.tokenProgram := by decide

/-- A payment out of anything but a native account. -/
theorem Pays.refines {rt : Runtime} {c : Call} (h : Pays σ σ' a b x) (ha : c.Given a)
    (hb : c.Given b) (hnative : ∀ v, σ.book.Account a v → v.base.isNative = false) :
    Refines rt c σ σ' := ⟨h.wf, h.book ▸ .single (.pay ha hb h.can hnative)⟩

theorem book_other {k : Pubkey} (h : (σ k).owner ≠ Keys.tokenProgram) :
    (σ.book k).contents = .other := Cell.contents_of_foreign h

theorem not_account {k : Pubkey} (h : (σ k).owner ≠ Keys.tokenProgram) (v : View PodAccount) :
    ¬ σ.book.Account k v := by
  intro hv
  rw [Book.Account, book_other h] at hv
  cases hv

/-- What the book shows as an account was loaded as one. -/
theorem load_of_account {k : Pubkey} {v : View PodAccount} (h : σ.book.Account k v) :
    (σ k).owner = Keys.tokenProgram ∧ ∃ s, load σ PodAccount k = .ok s ∧ s.view = v :=
  Cell.contents_eq_account.mp h

theorem load_of_mint {k : Pubkey} {m : View PodMint} (h : σ.book.Mint k m) :
    (σ k).owner = Keys.tokenProgram ∧ ∃ s, load σ PodMint k = .ok s ∧ s.view = m :=
  Cell.contents_eq_mint.mp h

end Pays

section Handlers

variable {rt : Runtime} {c : Call} {σ σ' : Ledger} {accounts : List AccountInfo}

theorem processWithdrawExcessLamports_refines (hwf : σ.Wf)
    (hgiven : ∀ info ∈ accounts, c.Given info.key)
    (h : processWithdrawExcessLamports rt accounts σ = .ok σ') : Refines rt c σ σ' := by
  obtain _ | ⟨sourceInfo, _ | ⟨destinationInfo, _ | ⟨authorityInfo, signers⟩⟩⟩ := accounts
  · cases h
  · cases h
  · cases h
  simp only [processWithdrawExcessLamports, bind_eq_ok, exists_unit] at h
  obtain ⟨hauthority, x, _, h⟩ := h
  refine (moveLamports_pays hwf h).refines (hgiven _ (by simp)) (hgiven _ (by simp)) fun v hv => ?_
  obtain ⟨_, s, hload, rfl⟩ := load_of_account hv
  rw [checkExcessAuthority, hload] at hauthority
  simp only [toOption_ok, bind_eq_ok, exists_unit, failIf_eq_ok] at hauthority
  exact hauthority.1

/-! ## Closing -/

theorem resize_eq_ok {k : Pubkey} {n : Nat} :
    σ.resize k n = .ok σ' ↔ n ≤ (σ k).data.length + Ledger.maxPermittedDataIncrease ∧
      σ.writeData k ((σ k).data.take n ++ zeros (n - (σ k).data.length)) = .ok σ' := by
  simp only [Ledger.resize, bind_eq_ok, exists_unit, failIf_eq_ok, decide_eq_false_iff_not,
    Nat.not_lt]

/-- Only an account of the program can be deleted. -/
theorem deleteAccount_ok {k : Pubkey} (h : σ.deleteAccount k = .ok σ') :
    (σ k).owner = Keys.tokenProgram ∧ σ' = σ.set k ⟨(σ k).lamports, Keys.systemProgram, []⟩ := by
  simp only [Ledger.deleteAccount, Ledger.assign, bind_eq_ok, exists_unit, resize_eq_ok,
    writeData_eq_ok, failIf_eq_ok, Bool.or_eq_false_iff, bne_eq_false_iff_eq, pure_eq_ok] at h
  obtain ⟨_, ⟨_, _, rfl⟩, ⟨howner, _⟩, rfl⟩ := h
  simp only [Ledger.set_same] at howner ⊢
  refine ⟨howner, funext fun j => ?_⟩
  by_cases hj : j = k
  · subst hj
    simp
  · rw [Ledger.set_of_ne _ _ hj, Ledger.set_of_ne _ _ hj, Ledger.set_of_ne _ _ hj]

/-- The lamports of `k` go to `d`, and `k` is gone. -/
theorem close_ok {k d : Pubkey} {σ₁ σ₂ : Ledger} {total : UInt64} (hwf : σ.Wf) (hne : k ≠ d)
    (htotal : checkedAdd (σ d).lamports (σ k).lamports = some total)
    (h₁ : σ.writeLamports d total = .ok σ₁) (h₂ : σ₁.writeLamports k 0 = .ok σ₂)
    (h₃ : σ₂.deleteAccount k = .ok σ') :
    (σ k).owner = Keys.tokenProgram ∧ σ'.Wf ∧ σ.book.CanPay k d (σ k).lamports ∧
      σ'.book = (σ.book.pay k d (σ k).lamports).set k ⟨0, 0, .other⟩ := by
  obtain ⟨_, rfl⟩ := writeLamports_eq_ok.mp h₁
  obtain ⟨_, rfl⟩ := writeLamports_eq_ok.mp h₂
  obtain ⟨howner, rfl⟩ := deleteAccount_ok h₃
  obtain ⟨hfits, rfl⟩ := checkedAdd_add htotal
  simp only [Ledger.set_same, Ledger.set_of_ne _ _ hne] at howner ⊢
  have hgone : (⟨0, Keys.systemProgram, []⟩ : Cell).entry = ⟨0, 0, .other⟩ := by
    rw [Cell.entry, Cell.contents_of_foreign systemProgram_ne]
    rfl
  refine ⟨howner, ?_, ⟨UInt64.le_refl _, fun _ => hfits⟩, ?_⟩
  · refine ((hwf.setLamports _).set ?_ ?_).set ?_ ?_
    · exact fun _ => hwf.data k howner
    · rintro rfl _
      exact hwf.native howner
    · exact fun h => absurd h systemProgram_ne
    · exact fun _ h => absurd h systemProgram_ne
  · rw [Ledger.book_set, Ledger.book_set, Ledger.book_setLamports, hgone]
    funext j
    by_cases hj : j = k
    · subst hj
      rw [Book.set_same, Book.set_same]
    · rw [Book.set_of_ne _ _ hj, Book.set_of_ne _ _ hj, Book.set_of_ne _ _ hj, Book.pay]
      by_cases hd : j = d
      · subst hd
        rw [Book.set_same, Book.set_same, Book.set_of_ne _ _ hj]
        rfl
      · rw [Book.set_of_ne _ _ hd, Book.set_of_ne _ _ hd, Book.set_of_ne _ _ hj]

theorem checkClosable_ok {V : Type} [Pod V] [Extension V] {s : PodState PodAccount}
    {closable : V → Result Unit} {x : V} (h : checkClosable V s closable = .ok ())
    (hget : s.view.get V = some x) : closable x = .ok () := by
  rw [checkClosable, PodState.toOption_getExtension, hget] at h
  exact h

/-- An account that may be closed withholds nothing. -/
theorem withheld_of_closable {s : PodState PodAccount}
    (h : checkClosable TransferFeeAmount s (·.closable) = .ok ()) : s.view.withheld = 0 := by
  rw [View.withheld]
  cases hget : s.view.get TransferFeeAmount with
  | none => rfl
  | some x =>
    have hx := checkClosable_ok h hget
    rw [TransferFeeAmount.closable] at hx
    split at hx
    · rename_i hzero
      rw [Option.map_some, Option.getD_some, beq_iff_eq.mp hzero]
      rfl
    · cases hx

theorem zeroed_of_closable {y : ConfidentialTransferFeeAmount} (h : y.closable = .ok ()) :
    y.withheldAmount = .zeroed := by
  rw [ConfidentialTransferFeeAmount.closable] at h
  split at h
  · rename_i hzero
    exact beq_iff_eq.mp hzero
  · cases h

theorem processCloseAccount_refines (hwf : σ.Wf)
    (hgiven : ∀ info ∈ accounts, c.Given info.key)
    (hcloses : ∀ info rest, accounts = info :: rest → c.Closes info.key)
    (hto : ∀ info info' rest, accounts = info :: info' :: rest → c.key? 1 = some info'.key)
    (h : processCloseAccount c.ctx accounts σ = .ok σ') : Refines rt c σ σ' := by
  obtain _ | ⟨sourceInfo, _ | ⟨destinationInfo, _ | ⟨authorityInfo, signers⟩⟩⟩ := accounts
  · cases h
  · cases h
  · cases h
  simp only [processCloseAccount, bind_eq_ok, exists_unit, failIf_eq_ok, beq_eq_false_iff_ne,
    okOr_eq_ok] at h
  obtain ⟨hne, hcheck, total, htotal, σ₁, h₁, σ₂, h₂, h⟩ := h
  obtain ⟨howner, hwf', hcan, hbook⟩ := close_ok hwf hne htotal h₁ h₂ h
  have hk := hgiven sourceInfo (by simp)
  have hd := hgiven destinationInfo (by simp)
  refine ⟨hwf', hbook ▸ .single ?_⟩
  rw [checkClose] at hcheck
  split at hcheck
  · rename_i s hload
    have hload := toOption_eq_some.mp hload
    simp only [checkCloseAccount, bind_eq_ok, exists_unit, failIf_eq_ok] at hcheck
    obtain ⟨hempty, hcheck⟩ := hcheck
    have hboth : (s.view.locked = true → c.ctx.inCpi = true →
          destinationInfo.key = s.base.owner ∨
            s.base.isOwnedBySystemProgramOrIncinerator = true ∧
              destinationInfo.key = Keys.incinerator) ∧
        checkClosable ConfidentialTransferAccount s (·.closable) = .ok () ∧
        checkClosable ConfidentialTransferFeeAmount s (·.closable) = .ok () ∧
        checkClosable TransferFeeAmount s (·.closable) = .ok () := by
      split at hcheck
      · simp only [bind_eq_ok, exists_unit, failIf_eq_ok, cpiGuardLocked_eq] at hcheck
        refine ⟨fun hlocked hcpi => .inl ?_, hcheck.2.2⟩
        simpa [hlocked, hcpi] using hcheck.1
      · rename_i hown
        simp only [bind_eq_ok, exists_unit, failIf_eq_ok, bne_eq_false_iff_eq] at hcheck
        refine ⟨fun _ _ => .inr ⟨?_, hcheck.1⟩, hcheck.2⟩
        simpa using hown
    obtain ⟨hguarded, hsecret, hfees, hopen⟩ := hboth
    refine .closeAccount (hcloses _ _ rfl) hk hd hne (contents_of_load howner hload)
      ⟨hto _ _ _ rfl, fun hnative => ?_, withheld_of_closable hopen,
        fun e he => checkClosable_ok hsecret he,
        fun y hy => zeroed_of_closable (checkClosable_ok hfees hy), hguarded⟩ hcan
    simpa [show s.base.isNative = false from hnative] using hempty
  · split at hcheck
    · rename_i m hload
      have hload := toOption_eq_some.mp hload
      simp only [checkCloseMint, bind_eq_ok, exists_unit, failIf_eq_ok, bne_eq_false_iff_eq]
        at hcheck
      obtain ⟨e, hget, _, _, _, hsupply⟩ := hcheck
      exact .closeMint (hcloses _ _ rfl) hk hd hne (contents_of_load howner hload)
        (View.ext_isSome_of_get (PodState.getExtension_eq_ok.mp hget)) hsupply hcan
    · cases hcheck

/-! ## The native mint -/

/-- A mint without extensions. -/
theorem unpack_base {mint : PodMint} (hinit : BaseState.isInitialized mint = true) :
    unpack PodMint (Pod.toBytes mint) = .ok ⟨mint, [], []⟩ ∧
      (∀ t, (⟨mint, [], []⟩ : PodState PodMint).view.ext t = none) ∧
      (⟨mint, [], []⟩ : PodState PodMint).Wf := by
  have hbytes : (⟨mint, [], []⟩ : PodState PodMint).bytes = Pod.toBytes mint :=
    PodState.bytes_of_isEmpty rfl
  refine ⟨unpack_eq_ok.mpr ⟨hbytes.symm, .inl ⟨rfl, rfl⟩, hinit, ?_⟩, ext_view_blank (n := 0) rfl,
    .blank _ 0, rfl⟩
  rw [hbytes, Pod.length_toBytes]
  decide

theorem processCreateNativeMint_refines (hwf : σ.Wf)
    (hopens : c.instruction = .createNativeMint)
    (hgiven : ∀ info ∈ accounts, c.Given info.key)
    (h : processCreateNativeMint rt accounts σ = .ok σ') : Refines rt c σ σ' := by
  obtain _ | ⟨payerInfo, _ | ⟨nativeMintInfo, _ | ⟨_, _⟩⟩⟩ := accounts
  · cases h
  · cases h
  · cases h
  simp only [processCreateNativeMint, bind_eq_ok, exists_unit, failIf_eq_ok, bne_eq_false_iff_eq,
    Bool.or_eq_false_iff, pure_eq_ok] at h
  obtain ⟨hkey, σ₁, htransfer, ⟨howner, _⟩, rfl⟩ := h
  obtain ⟨hpays, hpayer⟩ := systemTransfer_pays hwf htransfer
  have hpayer' : (σ payerInfo.key).owner ≠ Keys.tokenProgram := hpayer ▸ systemProgram_ne
  refine (hpays.refines (hgiven _ (by simp)) (hgiven _ (by simp)) fun v hv =>
    absurd hv (not_account hpayer' v)).trans ?_
  let mint : PodMint := ⟨.none, 0, nativeMintDecimals, .ofBool true, .none⟩
  obtain ⟨hunpack, hbare, hswf⟩ := unpack_base (show BaseState.isInitialized mint = true from rfl)
  have hvalid : View.ValidDefault (⟨mint, [], []⟩ : PodState PodMint).view := by
    intro x hx
    rw [View.get_eq_none_of_ext (hbare _)] at hx
    cases hx
  have hown : (σ₁ nativeMintInfo.key).owner ≠ Keys.tokenProgram := howner ▸ systemProgram_ne
  refine ⟨hpays.wf.set (fun _ => .mint hunpack hswf hvalid) fun _ _ => ⟨_, hunpack⟩, ?_⟩
  rw [Ledger.book_set, Cell.entry, Held.contents_eq rfl hunpack, hkey]
  exact .single (.openNativeMint _ hopens (book_other (hkey ▸ hown)) ⟨rfl, hbare⟩ rfl)

end Handlers

end SolanaEasy.Token
