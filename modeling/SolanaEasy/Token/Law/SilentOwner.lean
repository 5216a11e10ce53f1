import SolanaEasy.Token.Law.Authorities
import SolanaEasy.Token.Law.Spending
import SolanaEasy.Token.Law.ApplyPending

/-!
# Silent owners — an account that nobody acts for

An owner who signs nothing stays the owner. Others may send to the account, its delegate may
take what it was allowed, or give that up, and hidden balances grow; nobody else becomes its
delegate, and no more than the allowance goes away.
-/

namespace SolanaEasy.Token

open Processor

/-- Neither the owner of the account, which was `v` when they were last heard of, nor the
permanent delegate of its mint is endorsed, and the account is not closed. -/
structure Call.Silent (c : Call) (k : Pubkey) (v : View PodAccount) : Prop where
  owner : ¬ c.Endorsed v.base.owner
  permanent : ∀ m d, load c.σ PodMint v.base.mint = .ok m → getPermanentDelegate m = some d →
    ¬ c.Endorsed d
  keeps : ¬ c.Closes k

/-- What is left of an account in the open: its owner, its delegate unless that is gone, and all
but what the delegate had been allowed and is allowed no more. -/
structure Undisturbed (v v' : View PodAccount) : Prop where
  owner : v'.base.owner = v.base.owner
  mint : v'.base.mint = v.base.mint
  delegate : v'.base.delegate.toOption = v.base.delegate.toOption ∨
    v'.base.delegate.toOption = none
  allowance : v'.base.delegatedAmount ≤ v.base.delegatedAmount
  amount : v.base.amount.toNat + v'.base.delegatedAmount.toNat ≤
    v'.base.amount.toNat + v.base.delegatedAmount.toNat

theorem Undisturbed.refl (v : View PodAccount) : Undisturbed v v :=
  ⟨rfl, rfl, .inl rfl, UInt64.le_refl _, Nat.le_refl _⟩

theorem Undisturbed.trans {u v w : View PodAccount} (h : Undisturbed u v)
    (h' : Undisturbed v w) : Undisturbed u w where
  owner := h'.owner.trans h.owner
  mint := h'.mint.trans h.mint
  delegate := by
    rcases h'.delegate with hsame | hnone
    · rw [hsame]
      exact h.delegate
    · exact .inr hnone
  allowance := UInt64.le_trans h'.allowance h.allowance
  amount := by
    have hfirst := h.amount
    have hsecond := h'.amount
    omega

/-! ## Instructions that set the allowance anew -/

section Resets

variable {rt : Runtime} {c : Call} {σ' : Ledger} {v : View PodAccount}
  {sourceInfo : AccountInfo} {rest : List AccountInfo}

theorem processApprove_endorsed {amount : UInt64} {variant : InstructionVariant}
    (haccounts : c.accounts = sourceInfo :: rest) (held : c.σ.book.Account sourceInfo.key v)
    (h : processApprove c.ctx c.accounts amount variant c.σ = .ok σ') :
    c.Endorsed v.base.owner := by
  obtain ⟨_, s, hload, rfl⟩ := load_of_account held
  simp only [processApprove, haccounts, bind_eq_ok, Prod.exists] at h
  obtain ⟨expectedMint, rest', htake, h⟩ := h
  have hsuffix : rest' <:+ rest := by
    unfold takeExpectedMint at htake
    split at htake
    · cases htake
      exact List.suffix_rfl
    · cases htake
      exact List.suffix_cons _ _
    · cases htake
  split at h
  · rename_i delegateInfo ownerInfo signers
    simp only [hload, ok_bind, bind_eq_ok, exists_unit] at h
    obtain ⟨_, _, hchecked, _⟩ := h
    have hend : ownerInfo :: signers <:+ c.accounts := by
      rw [haccounts]
      exact ((List.suffix_cons delegateInfo _).trans hsuffix).trans (List.suffix_cons _ _)
    exact .of_suffix hend hchecked
  · cases h

theorem processSetAuthority_endorsed {new : PodCOption Pubkey}
    (haccounts : c.accounts = sourceInfo :: rest) (held : c.σ.book.Account sourceInfo.key v)
    (h : processSetAuthority c.ctx c.accounts .accountOwner new c.σ = .ok σ') :
    c.Endorsed v.base.owner := by
  obtain ⟨_, s, hload, rfl⟩ := load_of_account held
  rcases hrest : rest with _ | ⟨authorityInfo, signers⟩
  · rw [haccounts, hrest] at h
    cases h
  · have hend : authorityInfo :: signers <:+ c.accounts := by
      rw [haccounts, hrest]
      exact List.suffix_cons _ _
    rw [haccounts, hrest] at h
    simp only [processSetAuthority, toOption_eq_some.mpr hload, setAccountAuthority, bind_eq_ok,
      exists_unit] at h
    obtain ⟨_, ⟨_, hchecked, _⟩, _⟩ := h
    exact .of_suffix hend hchecked

/-- Giving up an allowance takes nothing else away. -/
theorem processRevoke_undisturbed (hwf : c.σ.Wf) (haccounts : c.accounts = sourceInfo :: rest)
    (held : c.σ.book.Account sourceInfo.key v) (h : processRevoke c.accounts c.σ = .ok σ') :
    ∃ v', σ'.book.Account sourceInfo.key v' ∧ Undisturbed v v' ∧
      v'.core.secret = v.core.secret := by
  obtain ⟨howner, s, hload, rfl⟩ := load_of_account held
  rcases hrest : rest with _ | ⟨authorityInfo, signers⟩
  · rw [haccounts, hrest] at h
    cases h
  · rw [haccounts, hrest] at h
    simp only [processRevoke, hload, ok_bind, bind_eq_ok, exists_unit] at h
    obtain ⟨_, _, hstore⟩ := h
    have hw := store_held hwf howner hload
      ((PodState.Stored.refl (hwf.load howner hload).1).withBase
        { s.base with delegate := .none, delegatedAmount := 0 })
      (packed_of_load hload).initialized trivial hstore
    rw [hw.book]
    refine ⟨_, Book.account_put .., ⟨rfl, rfl, .inr rfl, UInt64.zero_le, ?_⟩, rfl⟩
    exact Nat.add_le_add_left (Nat.zero_le _) _

/-- The owner asks for it, or it is the delegate that gives up its allowance. -/
theorem Call.Resets.undisturbed {k : Pubkey} (hwf : c.σ.Wf) (held : c.σ.book.Account k v)
    (h : c.Resets k) (run : c.run rt = .ok σ') : c.Endorsed v.base.owner ∨
      ∃ v', σ'.book.Account k v' ∧ Undisturbed v v' ∧ v'.core.secret = v.core.secret := by
  obtain ⟨hk, hi⟩ := h
  obtain ⟨sourceInfo, rest, haccounts, rfl⟩ := c.accounts_of_key?_zero hk
  rw [Call.run] at run
  split at hi
  · rename_i heq
    rw [heq] at run
    exact .inl (processApprove_endorsed haccounts held run)
  · rename_i heq
    rw [heq] at run
    exact .inl (processApprove_endorsed haccounts held run)
  · rename_i heq
    rw [heq] at run
    exact .inr (processRevoke_undisturbed hwf haccounts held run)
  · rename_i heq
    rw [heq] at run
    exact .inl (processSetAuthority_endorsed haccounts held run)
  · exact hi.elim

end Resets

/-! ## Everything else -/

section Others

variable {rt : Runtime} {c : Call} {β β' : Book} {k : Pubkey} {v v' : View PodAccount}

theorem Effect.owner_eq (h : Effect rt c β k v v') (hresets : ¬ c.Resets k) :
    v'.base.owner = v.base.owner := by
  cases h with
  | owner resets => exact absurd resets hresets
  | quiet core | allowance _ _ _ _ core | closer _ _ core | state _ _ _ core | lock _ _ core
  | native _ _ _ core | configure _ _ _ _ _ _ core | setting _ core | emptied _ _ _ core
  | apply _ _ _ _ core | harvest core | collect _ _ _ core | secretHarvest _ core
  | secretCollect _ _ _ _ _ core =>
    exact (congrArg (fun a : Core => a.base.owner) core :)

theorem respects_owner (hresets : ¬ c.Resets k) : Respects rt c k fun v v' =>
    v'.base.owner = v.base.owner ∧ v'.base.mint = v.base.mint where
  refl _ := ⟨rfl, rfl⟩
  trans h h' := ⟨h'.1.trans h.1, h'.2.trans h.2⟩
  effect h _ := ⟨h.owner_eq hresets, h.mint_eq⟩
  exchange h _ := ⟨h.owner_eq, h.mint_eq⟩
  flag v := ⟨(congrArg (fun a : Core => a.base.owner) (v.core_flag false) :),
    (congrArg (fun a : Core => a.base.mint) (v.core_flag false) :)⟩

/-- What is taken is the delegate's to take. -/
theorem Call.AllowanceLeft.undisturbed (hc : c.Silent k v)
    (owned : v.base.isOwnedBySystemProgramOrIncinerator = false)
    (howner : v'.base.owner = v.base.owner) (hmint : v'.base.mint = v.base.mint)
    (hauthorised : v'.base.amount < v.base.amount → c.Authorised v v'.base)
    (h : c.AllowanceLeft v v'.base) : Undisturbed v v' := by
  obtain ⟨hdelegate, hallowance⟩ : (v'.base.delegate.toOption = v.base.delegate.toOption ∨
      v'.base.delegate.toOption = none) ∧ v'.base.delegatedAmount ≤ v.base.delegatedAmount := by
    cases h with
    | same hsame =>
      obtain ⟨hd, ha⟩ := Prod.mk.inj hsame
      rw [hd, ha]
      exact ⟨.inl rfl, UInt64.le_refl _⟩
    | taken by' taken lowered left =>
      rw [left, UInt64.le_iff_toNat_le]
      refine ⟨?_, by omega⟩
      split
      · exact .inr rfl
      · exact .inl rfl
  refine ⟨howner, hmint, hdelegate, hallowance, ?_⟩
  rw [UInt64.le_iff_toNat_le] at hallowance
  by_cases hlt : v'.base.amount < v.base.amount
  · cases hauthorised hlt with
    | owner endorsed => exact absurd endorsed hc.owner
    | delegate _ _ taken lowered => omega
    | permanent read of endorsed => exact absurd endorsed (hc.permanent _ _ read of)
    | ownerless _ own =>
      rw [owned] at own
      cases own
  · have hle := UInt64.le_iff_toNat_le.mp (UInt64.not_lt.mp hlt)
    omega

theorem Course.undisturbed (h : Course rt c β β') (held : β.Account k v)
    (hc : c.Silent k v) (owned : v.base.isOwnedBySystemProgramOrIncinerator = false)
    (hresets : ¬ c.Resets k) : ∃ v', β'.Account k v' ∧ Undisturbed v v' := by
  obtain ⟨v', held', hleft⟩ := h.allowanceLeft held hresets hc.keeps
  obtain ⟨howner, hmint⟩ : v'.base.owner = v.base.owner ∧ v'.base.mint = v.base.mint := by
    rcases h.account (respects_owner hresets) held with ⟨w, hw, hsame⟩ | ⟨_, hcloses, _⟩
    · exact hw.unique held' ▸ hsame
    · exact absurd hcloses hc.keeps
  exact ⟨v', held', hleft.undisturbed hc owned howner hmint fun hlt =>
    h.authorised held held' hlt⟩

end Others

/-! ## What is hidden -/

section Hidden

variable {l : ℕ} {rt : Runtime} {P : Type} [AddCommGroup P] [Module (ZMod l) P]
  {C : Curve rt (ZMod l) P} {R : Reading l rt} {c : Call} {β : Book} {k o : Pubkey}
  {v v' : View PodAccount} {e e' : ConfidentialTransferAccount} {paid : Prop}

/-- The available balance is what it was, unless withheld fees may have been paid out to it. -/
def AvailableKept (R : Reading l rt) (paid : Prop) (v v' : View PodAccount) : Prop :=
  ∀ e, v.core.secret = some e →
    ∃ e', v'.core.secret = some e' ∧ (¬ paid → R.available e' = R.available e)

theorem AvailableKept.of_secret (same : v'.core.secret = v.core.secret) :
    AvailableKept R paid v v' := fun e he => ⟨e, same.trans he, fun _ => rfl⟩

theorem AvailableKept.update (secret : v.core.secret = some e)
    (secret' : v'.core.secret = some e') (h : ¬ paid → R.available e' = R.available e) :
    AvailableKept R paid v v' := by
  intro g hg
  obtain rfl := Option.some.inj (secret.symm.trans hg)
  exact ⟨e', secret', h⟩

theorem AvailableKept.trans {v'' : View PodAccount} (h : AvailableKept R paid v v')
    (h' : AvailableKept R paid v' v'') : AvailableKept R paid v v'' := by
  intro e he
  obtain ⟨e₁, he₁, hsame⟩ := h e he
  obtain ⟨e₂, he₂, hsame'⟩ := h' e₁ he₁
  exact ⟨e₂, he₂, fun hnot => (hsame' hnot).trans (hsame hnot)⟩

theorem Effect.availableKept (hR : R.Sound c.ctx c.σ)
    (hpaid : c.instruction.collects = true → paid) (hc : ¬ c.Endorsed v.base.owner)
    (h : Effect rt c β k v v') : AvailableKept R paid v v' := by
  cases h with
  | quiet core | allowance _ _ _ _ core | owner _ _ _ _ core | closer _ _ core | state _ _ _ core
  | lock _ _ core | native _ _ _ core | harvest core | collect _ _ _ core | secretHarvest _ core =>
    exact .of_secret (congrArg Core.secret core :)
  | configure _ _ _ _ new _ core =>
    intro e he
    rw [new] at he
    cases he
  | setting secret core => exact .update secret (congrArg Core.secret core :) fun _ => rfl
  | emptied secret proved update core =>
    obtain ⟨_, hbefore, hafter⟩ := emptied_reads hR proved update
    exact .update secret (congrArg Core.secret core :) fun _ => hafter.trans hbefore.symm
  | apply _ _ endorsed => exact absurd endorsed hc
  | secretCollect collects _ secret _ _ core =>
    exact .update secret (congrArg Core.secret core :) fun hnot => absurd (hpaid collects) hnot

/-- A trade takes from the available balance only what the owner is endorsed for. -/
theorem Exchange.availableKept (hR : R.Sound c.ctx c.σ) (hc : ¬ c.Endorsed v.base.owner)
    (h : Exchange rt c v v') : AvailableKept R paid v v' := by
  cases h with
  | sent _ _ _ _ _ core | received _ _ _ core | burned _ _ _ _ _ _ core | minted _ _ _ core =>
    exact .of_secret (congrArg Core.secret core :)
  | deposited _ _ _ endorsed => exact absurd endorsed hc
  | withdrawn _ _ _ endorsed => exact absurd endorsed hc
  | secretSent _ _ endorsed => exact absurd endorsed hc
  | secretReturned _ _ endorsed => exact absurd endorsed hc
  | secretBurned _ endorsed => exact absurd endorsed hc
  | secretReceived _ secret moved core =>
    obtain ⟨_, _, _, hmoved⟩ := moved.reads hR
    exact .update secret (congrArg Core.secret core :) fun _ => hmoved.still'
  | secretMinted _ secret proved credit core =>
    obtain ⟨x, hx⟩ := verifyMintProof_shows hR proved
    exact .update secret (congrArg Core.secret core :) fun _ => (mintedTo_reads hx credit).2

/-- What is hidden in an account of `o` grows by credits that can be read off. -/
theorem respects_silent (hC : C.Encodes) (hR : R.Sound c.ctx c.σ)
    (hpaid : c.instruction.collects = true → paid) (hc : ¬ c.Endorsed o)
    (hresets : ¬ c.Resets k) : Respects rt c k fun v v' => v.base.owner = o →
      v'.base.owner = o ∧ PendingTracked R v v' ∧ AvailableKept R paid v v' where
  refl _ howner := ⟨howner, .of_secret rfl, .of_secret rfl⟩
  trans h h' howner := by
    obtain ⟨howner', hpending, havailable⟩ := h howner
    obtain ⟨howner'', hpending', havailable'⟩ := h' howner'
    exact ⟨howner'', hpending.trans hpending', havailable.trans havailable'⟩
  effect h _ howner := by
    have hsilent := howner.symm ▸ hc
    exact ⟨(h.owner_eq hresets).trans howner,
      h.pendingTracked.resolve_right fun happlied => hsilent happlied.2,
      h.availableKept hR hpaid hsilent⟩
  exchange h _ howner :=
    ⟨h.owner_eq.trans howner, h.pendingTracked hC hR, h.availableKept hR (howner.symm ▸ hc)⟩
  flag v howner :=
    ⟨(congrArg (fun a : Core => a.base.owner) (v.core_flag false) :).trans howner,
      .of_secret (congrArg Core.secret (v.core_flag false) :),
      .of_secret (congrArg Core.secret (v.core_flag false) :)⟩

/-- A run in which nobody acts for the account. -/
theorem Run.undisturbed {σ σ' : Ledger} (hC : C.Encodes) (hwf : σ.Wf)
    (held : σ.book.Account k v) (owned : v.base.isOwnedBySystemProgramOrIncinerator = false)
    (h : Run rt (fun c => R.Sound c.ctx c.σ ∧ c.Silent k v ∧ (c.instruction.collects = true → paid))
      σ σ') :
    ∃ v', σ'.book.Account k v' ∧ Undisturbed v v' ∧ PendingTracked R v v' ∧
      AvailableKept R paid v v' := by
  induction h with
  | refl => exact ⟨v, held, .refl v, .of_secret rfl, .of_secret rfl⟩
  | tail hbefore hstep ih =>
    obtain ⟨v₁, held₁, hopen, hpending, havailable⟩ := ih
    cases hstep with
    | outside henv => exact ⟨v₁, henv.book.account held₁, hopen, hpending, havailable⟩
    | @call c _ may run =>
      obtain ⟨hR, hsilent, hpaid⟩ := may
      have hwf₁ := Run.wf hbefore hwf
      have hsilent₁ : c.Silent k v₁ := by
        refine ⟨?_, ?_, hsilent.keeps⟩
        · rw [hopen.owner]
          exact hsilent.owner
        · rw [hopen.mint]
          exact hsilent.permanent
      suffices hone : ∃ v₂, _ ∧ Undisturbed v₁ v₂ ∧ PendingTracked R v₁ v₂ ∧
          AvailableKept R paid v₁ v₂ by
        obtain ⟨v₂, held₂, hopen', hpending', havailable'⟩ := hone
        exact ⟨v₂, held₂, hopen.trans hopen', hpending.trans hpending',
          havailable.trans havailable'⟩
      by_cases hresets : c.Resets k
      · rcases hresets.undisturbed hwf₁ held₁ run with hendorsed | ⟨v₂, held₂, hopen', hsame⟩
        · exact absurd hendorsed hsilent₁.owner
        · exact ⟨v₂, held₂, hopen', .of_secret hsame, .of_secret hsame⟩
      · have hcourse := (run_course hwf₁ run).2
        have howned : v₁.base.isOwnedBySystemProgramOrIncinerator = false := by
          rw [PodAccount.isOwnedBySystemProgramOrIncinerator, hopen.owner]
          exact owned
        obtain ⟨v₂, held₂, hopen'⟩ := hcourse.undisturbed held₁ hsilent₁ howned hresets
        rcases hcourse.account (respects_silent hC hR hpaid hsilent₁.owner hresets) held₁ with
          ⟨w, hw, hsecret⟩ | ⟨_, hcloses, _⟩
        · obtain rfl := hw.unique held₂
          exact ⟨w, held₂, hopen', (hsecret rfl).2⟩
        · exact absurd hcloses hsilent.keeps

end Hidden

/-! ## A delegate that helps itself

The owner `7` of the account at `2` has approved 100 tokens for `9`, who takes 40 of them and
gives up the rest. -/

section Helped

def helpedSteps : List (List ProofInstruction × List AccountInfo × Instruction) :=
  pendingSteps ++
    [([], [⟨3, false⟩, ⟨1, false⟩], .initializeAccount3 8),
     smallDeposit 5,
     ([], [⟨2, false⟩, ⟨9, false⟩, ⟨7, true⟩], .approve 100)]

def helpingCall (σ : Ledger) : Call :=
  ⟨.showing [], [⟨2, false⟩, ⟨1, false⟩, ⟨3, false⟩, ⟨9, true⟩], .transferChecked 40 6, σ⟩

def leavingCall (σ : Ledger) : Call :=
  ⟨.showing [], [⟨2, false⟩, ⟨9, true⟩], .revoke, σ⟩

/-- The mint at `M` has no permanent delegate. -/
def Ledger.unruled (σ : Ledger) (M : Pubkey) : Bool :=
  (toOption (load σ PodMint M)).all fun m => (getPermanentDelegate m).isNone

theorem honest_helpedSteps : ∀ p ∈ helpedSteps, openReading.HonestStep p := by
  intro p hp
  simp only [helpedSteps, List.mem_append, List.mem_cons, List.not_mem_nil, or_false] at hp
  rcases hp with hp | rfl | rfl | rfl
  · exact honest_pendingSteps (n := 0) p (by simp [hp])
  · exact ⟨Instruction.noConfusion, by simp⟩
  · exact honest_smallDeposit
  · exact ⟨Instruction.noConfusion, by simp⟩

theorem helped_runs : (honestScript (.modular ristrettoOrder) helpedSteps
    (blank [(1, 235), (2, 465), (3, 165)])).any (fun σ => σ.unruled 1 &&
      σ.checksAccount 2 (fun v => decide (v.base.owner = 7 ∧ v.base.mint = 1 ∧
        v.base.delegatedAmount = 100)) &&
      (toOption ((helpingCall σ).run (.modular ristrettoOrder))).any fun σ₁ =>
        σ₁.cleared.unruled 1 &&
        (toOption ((leavingCall σ₁.cleared).run (.modular ristrettoOrder))).isSome) = true := by
  decide +kernel

/-- Somebody else is endorsed. -/
theorem Call.silent_of_absent {c : Call} {k : Pubkey} {v : View PodAccount}
    (howner : ∀ info ∈ c.accounts, info.key ≠ v.base.owner)
    (hunruled : c.σ.unruled v.base.mint = true) (hcloses : ¬ c.Closes k) : c.Silent k v := by
  refine ⟨?_, ?_, hcloses⟩
  · rintro ⟨info, hinfo, signers, _, hchecked⟩
    simp only [checkOwner, validateOwner, bind_eq_ok, exists_unit, failIf_eq_ok,
      bne_eq_false_iff_eq] at hchecked
    exact howner info hinfo hchecked.1.symm
  · intro m d hread hof
    rw [Ledger.unruled, toOption_eq_some.mpr hread, Option.all_some, hof] at hunruled
    cases hunruled

end Helped

/-- As long as neither the owner of an account nor a permanent delegate of its mint is endorsed and
the account stays open, the owner stays the owner, nobody else becomes the delegate, and what went
away is no more than what the delegate was allowed and is allowed no longer; what is pending has
grown by credits that the counter counts, and the available balance is what it was unless withheld
fees were paid out. -/
theorem silent_owner_undisturbed {l : ℕ} {rt : Runtime} {P : Type} [AddCommGroup P]
    [Module (ZMod l) P] {C : Curve rt (ZMod l) P} {R : Reading l rt} {σ σ' : Ledger} {k : Pubkey}
    {v : View PodAccount} {paid : Prop} (hC : C.Encodes) (h : Reachable rt (fun _ => True) σ)
    (held : σ.book.Account k v) (owned : v.base.isOwnedBySystemProgramOrIncinerator = false)
    (run : Run rt
      (fun c => R.Sound c.ctx c.σ ∧ c.Silent k v ∧ (c.instruction.collects = true → paid)) σ σ') :
    ∃ v', σ'.book.Account k v' ∧ Undisturbed v v' ∧
      (v.base.amount.toNat ≤ v'.base.amount.toNat + v.base.delegatedAmount.toNat) ∧
      ∀ e, v.core.secret = some e → ∃ e' cs, v'.core.secret = some e' ∧ PendingSince R e e' cs ∧
        (¬ paid → R.available e' = R.available e) := by
  obtain ⟨v', held', hopen, hpending, havailable⟩ := run.undisturbed hC h.wf held owned
  refine ⟨v', held', hopen, ?_, ?_⟩
  · exact (Nat.le_add_right _ _).trans hopen.amount
  · intro e secret
    obtain ⟨e', cs, secret', hsince⟩ := hpending e secret
    obtain ⟨g, hg, hsame⟩ := havailable e secret
    obtain rfl := Option.some.inj (hg.symm.trans secret')
    exact ⟨g, cs, secret', hsince, hsame⟩

theorem silent_owner_undisturbed_helped : ∃ (σ σ' : Ledger) (v v' : View PodAccount),
    σ.book.Account 2 v ∧ v.base.delegatedAmount = 100 ∧ σ'.book.Account 2 v' ∧
    v'.base.owner = 7 ∧ v.base.amount.toNat ≤ v'.base.amount.toNat + 100 ∧
    ∀ e, v.core.secret = some e → ∃ e', v'.core.secret = some e' ∧
      openReading.available e' = openReading.available e := by
  obtain ⟨hreach, hend, hchecks⟩ :=
    Reachable.honest_sound (M := 1) (by decide) honest_helpedSteps helped_runs
  generalize honestLedger (.modular ristrettoOrder) helpedSteps _ = σ at hreach hend hchecks
  simp only [Bool.and_eq_true, Option.any_eq_true, toOption_eq_some] at hchecks
  obtain ⟨⟨hunruled, hchecked⟩, σ₁, hrun, hunruled₁, hlast⟩ := hchecks
  obtain ⟨σ₂, hlast⟩ := Option.isSome_iff_exists.mp hlast
  rw [toOption_eq_some] at hlast
  obtain ⟨v, held, hv⟩ := exists_of_checksAccount hchecked
  obtain ⟨howner, hmint, hallowance⟩ := of_decide_eq_true hv
  have hsound : ∀ {τ : Ledger}, τ.Unproved → openReading.Sound (.showing []) τ :=
    fun hτ => Reading.sound_of_honest (by simp) hτ
  have hfirst : (helpingCall σ).Silent 2 v := by
    refine Call.silent_of_absent ?_ (hmint ▸ hunruled) fun hc => Instruction.noConfusion hc.2
    rw [howner]
    simp only [helpingCall]
    decide
  have hsecond : (leavingCall σ₁.cleared).Silent 2 v := by
    refine Call.silent_of_absent ?_ (hmint ▸ hunruled₁) fun hc => Instruction.noConfusion hc.2
    rw [howner]
    simp only [leavingCall]
    decide
  have hsteps : Run (.modular ristrettoOrder) (fun c => openReading.Sound c.ctx c.σ ∧
      c.Silent 2 v ∧ (c.instruction.collects = true → False)) σ σ₂ :=
    .head (.call (c := helpingCall σ) ⟨hsound hend, hfirst, Bool.noConfusion⟩ hrun)
      (.head (.outside σ₁.cleared_envStep) (.single (.call (c := leavingCall σ₁.cleared)
        ⟨hsound σ₁.unproved_cleared, hsecond, Bool.noConfusion⟩ hlast)))
  have howned : v.base.isOwnedBySystemProgramOrIncinerator = false := by
    rw [PodAccount.isOwnedBySystemProgramOrIncinerator, howner]
    decide
  obtain ⟨v', held', hopen, hamount, hhidden⟩ := silent_owner_undisturbed openCurve_encodes
    (hreach.mono fun _ _ => trivial) held howned hsteps
  refine ⟨σ, σ₂, v, v', held, hallowance, held', hopen.owner.trans howner, ?_, ?_⟩
  · rw [hallowance] at hamount
    exact hamount
  · intro e secret
    obtain ⟨e', _, secret', _, hsame⟩ := hhidden e secret
    exact ⟨e', secret', hsame id⟩

end SolanaEasy.Token
