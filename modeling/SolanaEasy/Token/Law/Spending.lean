import SolanaEasy.Token.Run

/-!
# Spending — who takes tokens from an account

The amount of an account goes down only by a transfer, a burn or a deposit, and someone
stands behind each. The delegate of an account takes what the owner has approved and no
more, whatever happens in between.
-/

namespace SolanaEasy.Token

open Processor

/-! ## Authority -/

/-- Who stood behind taking tokens from the account, which leaves it with the base `a`. -/
inductive Call.Authorised (c : Call) (v : View PodAccount) (a : PodAccount) : Prop
  | owner (endorsed : c.Endorsed v.base.owner)
  | delegate {d x} (delegate : v.base.delegate.toOption = some d) (endorsed : c.Endorsed d)
      (taken : a.amount.toNat + x = v.base.amount.toNat)
      (lowered : a.delegatedAmount.toNat + x = v.base.delegatedAmount.toNat)
  | permanent {d m} (read : load c.σ PodMint v.base.mint = .ok m)
      (of : getPermanentDelegate m = some d) (endorsed : c.Endorsed d)
  | ownerless (burn : c.isBurn = true) (own : v.base.isOwnedBySystemProgramOrIncinerator = true)

/-- A transfer or a burn that the delegate `D` of the account asks for, and not as the permanent
delegate of its mint. -/
structure Call.ByDelegate (c : Call) (D : Pubkey) (v : View PodAccount) : Prop where
  spends : (Call.spendLayout c.instruction).isSome = true
  acts : c.authority = some D
  delegate : v.base.delegate.toOption = some D
  other : c.permanentDelegate ≠ some D
  asked : c.isBurn = true → v.base.isOwnedBySystemProgramOrIncinerator = false

/-- The delegate of an account and what it may still take. -/
def PodAccount.allowance (a : PodAccount) : PodCOption Pubkey × UInt64 :=
  (a.delegate, a.delegatedAmount)

/-- A run that neither closes the account at `k` nor sets its allowance anew, and what the
delegate `D` has taken from it on the way. -/
inductive Spending (rt : Runtime) (k D : Pubkey) : Ledger → ℕ → Ledger → Prop
  | refl {σ} : Spending rt k D σ 0 σ
  | spend {σ n σ' v v'} {c : Call} (before : Spending rt k D σ n c.σ)
      (held : c.σ.book.Account k v) (by' : c.ByDelegate D v) (run : c.run rt = .ok σ')
      (held' : σ'.book.Account k v') :
      Spending rt k D σ (n + (v.base.amount.toNat - v'.base.amount.toNat)) σ'
  | other {σ n σ'} {c : Call} (before : Spending rt k D σ n c.σ) (resets : ¬ c.Resets k)
      (closes : ¬ c.Closes k) (other : ∀ v, c.σ.book.Account k v → ¬ c.ByDelegate D v)
      (run : c.run rt = .ok σ') : Spending rt k D σ n σ'
  | outside {σ n σ₁ σ'} (before : Spending rt k D σ n σ₁) (h : EnvStep σ₁ σ') :
      Spending rt k D σ n σ'

section Spending

variable {rt : Runtime} {c : Call} {β β' : Book} {σ σ' : Ledger} {k : Pubkey}
  {v v' : View PodAccount}

theorem Lowered.base (h : Lowered (.account v) (.account v')) : v'.base = v.base := by
  cases h with
  | same => rfl
  | account => exact (congrArg Core.base (v.core_flag false) :)

theorem Call.SpentBy.authorised {x q : UInt64} {p : PodCOption Pubkey} {a : PodAccount}
    (h : c.SpentBy v x p q) (taken : a.amount.toNat + x.toNat = v.base.amount.toNat)
    (hq : a.delegatedAmount = q) : c.Authorised v a := by
  cases h with
  | permanent _ _ read of endorsed => exact .permanent read of endorsed
  | delegate _ _ delegate _ endorsed rest =>
    rw [← hq] at rest
    exact .delegate delegate endorsed taken rest
  | owner _ _ endorsed => exact .owner endorsed
  | ownerless burn own => exact .ownerless burn own

/-- No instruction but a trade takes tokens from an account. -/
theorem Effect.amount_le (h : Effect rt c β k v v') : v.base.amount ≤ v'.base.amount := by
  cases h with
  | native _ _ more core =>
    rw [show v'.base = _ from congrArg Core.base core]
    exact more
  | collect _ _ credit core =>
    rw [show v'.base = _ from congrArg Core.base core, UInt64.le_iff_toNat_le, credit]
    exact Nat.le_add_right _ _
  | quiet core | allowance _ _ _ _ core | owner _ _ _ _ core | closer _ _ core | state _ _ _ core
  | lock _ _ core | configure _ _ _ _ _ _ core | setting _ core | emptied _ _ _ core
  | apply _ _ _ _ core | harvest core | secretHarvest _ core | secretCollect _ _ _ _ _ core =>
    exact UInt64.le_of_eq (congrArg (fun a : Core => a.base.amount) core).symm

theorem tracks_amount : Tracks rt c k fun v v' => v.base.amount ≤ v'.base.amount where
  refl _ := UInt64.le_refl _
  trans := UInt64.le_trans
  effect h _ := h.amount_le

theorem Exchange.authorised (h : Exchange rt c v v') (hlt : v'.base.amount < v.base.amount) :
    c.Authorised v v'.base := by
  rw [UInt64.lt_iff_toNat_lt] at hlt
  cases h with
  | sent _ _ _ by' debit core | burned _ _ _ _ by' debit core =>
    rw [show v'.base = _ from congrArg Core.base core]
    exact by'.authorised debit rfl
  | deposited _ _ _ endorsed => exact .owner endorsed
  | withdrawn _ _ _ endorsed => exact .owner endorsed
  | @received x fee a _ part credit core =>
    have hamount : v'.base.amount = a := congrArg (fun a : Core => a.base.amount) core
    rw [hamount] at hlt
    rw [UInt64.le_iff_toNat_le] at part
    omega
  | @minted x a _ _ credit core =>
    have hamount : v'.base.amount = a := congrArg (fun a : Core => a.base.amount) core
    rw [hamount] at hlt
    omega
  | secretSent _ _ _ _ _ _ core | secretReceived _ _ _ core | secretReturned _ _ _ _ _ _ core
  | secretMinted _ _ _ _ core | secretBurned _ _ _ _ _ _ core =>
    have hamount : v'.base.amount = v.base.amount := congrArg (fun a : Core => a.base.amount) core
    rw [hamount] at hlt
    exact absurd hlt (Nat.lt_irrefl _)

theorem Course.authorised (h : Course rt c β β') (held : β.Account k v) (held' : β'.Account k v')
    (hlt : v'.base.amount < v.base.amount) : c.Authorised v v'.base := by
  cases h with
  | moves _ h =>
    rcases h.account tracks_amount held with ⟨w, hw, hle⟩ | ⟨hother, _⟩
    · obtain rfl := hw.unique held'
      exact absurd hlt (UInt64.not_lt.mpr hle)
    · exact Contents.noConfusion (hother.symm.trans held')
  | trade _ h rest =>
    have hdeal := h.deal k
    have hlowered := rest.lowered k
    rw [show _ = Contents.account v from held] at hdeal
    rw [show _ = Contents.account v' from held'] at hlowered
    rcases hdeal.of_account with hsame | ⟨w, hw, hexchange, _⟩
    · rw [hsame] at hlowered
      rw [hlowered.base] at hlt
      exact absurd hlt (UInt64.lt_irrefl _)
    · rw [hw] at hlowered
      rw [hlowered.base] at hlt ⊢
      exact hexchange.authorised hlt

/-! ## Allowances -/

/-- Without a delegate there is no allowance. -/
theorem link_allowance {allow : Call → Prop} : Link rt allow fun v _ =>
    v.base.delegate.toOption = none → v.base.delegatedAmount = 0 := by
  have hkept : ∀ {v v' : View PodAccount}, v'.base.allowance = v.base.allowance →
      (v.base.delegate.toOption = none → v.base.delegatedAmount = 0) →
      v'.base.delegate.toOption = none → v'.base.delegatedAmount = 0 := by
    intro v v' hsame hv hnone
    obtain ⟨hdelegate, hamount⟩ := Prod.mk.inj hsame
    rw [hamount]
    exact hv (hdelegate ▸ hnone)
  have hspent : ∀ {c : Call} {v v' : View PodAccount} {x q : UInt64} {p : PodCOption Pubkey},
      c.SpentBy v x p q → v'.base.delegate = p → v'.base.delegatedAmount = q →
      (v.base.delegate.toOption = none → v.base.delegatedAmount = 0) →
      v'.base.delegate.toOption = none → v'.base.delegatedAmount = 0 := by
    intro c v v' x q p h hp hq hv hnone
    cases h with
    | delegate _ _ delegate =>
      rw [hq]
      by_contra hne
      rw [hp, if_neg hne, delegate] at hnone
      cases hnone
    | permanent | owner | ownerless =>
      exact hkept (Prod.ext hp hq) hv hnone
  refine .of_account ?_ ?_ ?_ ?_
  · intro c β k v _ hopen _
    cases hopen with
    | openAccount _ _ _ _ core =>
      rw [show v.base = _ from congrArg Core.base core]
  · intro c β k v v' _ heffect hv
    cases heffect with
    | allowance _ _ none _ core =>
      intro hnone
      rw [show v'.base = _ from congrArg Core.base core] at hnone ⊢
      exact none hnone
    | owner _ _ _ _ core =>
      intro _
      rw [show v'.base = _ from congrArg Core.base core]
    | quiet core | closer _ _ core | state _ _ _ core | lock _ _ core | native _ _ _ core
    | configure _ _ _ _ _ _ core | setting _ core | emptied _ _ _ core | apply _ _ _ _ core
    | harvest core | collect _ _ _ core | secretHarvest _ core | secretCollect _ _ _ _ _ core =>
      exact hkept (congrArg (fun a : Core => a.base.allowance) core :) hv
  · intro c v v' _ hexchange hv
    cases hexchange with
    | sent _ _ _ by' _ core | burned _ _ _ _ by' _ core =>
      exact hspent by' (congrArg (fun a : Core => a.base.delegate) core :)
        (congrArg (fun a : Core => a.base.delegatedAmount) core :) hv
    | received _ _ _ core | deposited _ _ _ _ _ _ _ core | withdrawn _ _ _ _ _ _ _ _ core
    | minted _ _ _ core | secretSent _ _ _ _ _ _ core | secretReceived _ _ _ core
    | secretReturned _ _ _ _ _ _ core | secretMinted _ _ _ _ core
    | secretBurned _ _ _ _ _ _ core =>
      exact hkept (congrArg (fun a : Core => a.base.allowance) core :) hv
  · intro v hv
    exact hkept (congrArg (fun a : Core => a.base.allowance) (v.core_flag false) :) hv

theorem Effect.allowance_eq (h : Effect rt c β k v v') (hresets : ¬ c.Resets k) :
    v'.base.allowance = v.base.allowance := by
  cases h with
  | allowance resets => exact absurd resets hresets
  | owner resets => exact absurd resets hresets
  | quiet core | closer _ _ core | state _ _ _ core | lock _ _ core | native _ _ _ core
  | configure _ _ _ _ _ _ core | setting _ core | emptied _ _ _ core | apply _ _ _ _ core
  | harvest core | collect _ _ _ core | secretHarvest _ core | secretCollect _ _ _ _ _ core =>
    exact (congrArg (fun a : Core => a.base.allowance) core :)

/-- What an instruction does to the allowance of an account: nothing, or its delegate takes as
much of it as of the account, and is gone with the last of it. -/
inductive Call.AllowanceLeft (c : Call) (v : View PodAccount) (a : PodAccount) : Prop
  | same (same : a.allowance = v.base.allowance)
      (untouched : ∀ D, c.ByDelegate D v → v.base.amount ≤ a.amount)
  | taken {D x} (by' : c.ByDelegate D v) (taken : a.amount.toNat + x = v.base.amount.toNat)
      (lowered : a.delegatedAmount.toNat + x = v.base.delegatedAmount.toNat)
      (left : a.delegate = if a.delegatedAmount = 0 then .none else v.base.delegate)

theorem Call.AllowanceLeft.refl (c : Call) (v : View PodAccount) : c.AllowanceLeft v v.base :=
  .same rfl fun _ _ => UInt64.le_refl _

theorem Call.SpentBy.allowanceLeft {x q : UInt64} {p : PodCOption Pubkey} {a : PodAccount}
    (spends : (Call.spendLayout c.instruction).isSome = true) (h : c.SpentBy v x p q)
    (taken : a.amount.toNat + x.toNat = v.base.amount.toNat) (hp : a.delegate = p)
    (hq : a.delegatedAmount = q) : c.AllowanceLeft v a := by
  cases h with
  | permanent acts delegate =>
    refine .same (Prod.ext hp hq) fun D hD => absurd ?_ hD.other
    rw [delegate, ← acts, hD.acts]
  | delegate acts other delegate owned _ rest =>
    rw [← hq] at rest hp
    exact .taken ⟨spends, acts, delegate, other, owned⟩ taken rest hp
  | owner _ other' =>
    refine .same (Prod.ext hp hq) fun D hD => absurd ?_ other'
    rw [hD.acts, hD.delegate]
  | ownerless burn own =>
    refine .same (Prod.ext hp hq) fun D hD => ?_
    rw [hD.asked burn] at own
    cases own

/-- A transfer or a burn, seen from one account. -/
theorem Trade.allowanceLeft {s d : Pubkey} {hook : Option Pubkey} (h : Trade rt c s d hook β β')
    (spends : (Call.spendLayout c.instruction).isSome = true) (held : β.Account k v) :
    ∃ v', β'.Account k v' ∧ c.AllowanceLeft v v'.base := by
  have hstays : ∀ {β' : Book}, (β' k).contents = (β k).contents →
      ∃ v', β'.Account k v' ∧ c.AllowanceLeft v v'.base :=
    fun hsame => ⟨v, hsame.trans held, .refl c v⟩
  have hnot : Call.spendLayout c.instruction = none → False := fun hnone => by
    rw [hnone] at spends
    cases spends
  cases h with
  | @transfer _ _ _ _ w w' u u' x fee a b q p _ _ _ _ _ source target _ _ _ _ _ _ by' part debit
      credit _ core core' =>
    simp only [Book.Account, Book.contents_put, Book.contents_payIf]
    split
    · rename_i hk
      subst hk
      obtain rfl := held.unique target
      have hbase : u'.base = _ := congrArg Core.base core'
      refine ⟨u', rfl, .same (by rw [hbase]; rfl) fun _ _ => ?_⟩
      rw [hbase, UInt64.le_iff_toNat_le]
      rw [UInt64.le_iff_toNat_le] at part
      show v.base.amount.toNat ≤ b.toNat
      omega
    · split
      · rename_i hk
        subst hk
        obtain rfl := held.unique source
        have hbase : w'.base = _ := congrArg Core.base core
        refine ⟨w', rfl, ?_⟩
        rw [hbase]
        exact by'.allowanceLeft spends debit rfl rfl
      · exact ⟨v, held, .refl c v⟩
  | selfTransfer => exact hstays rfl
  | @burn _ _ _ w w' _ _ _ _ _ _ _ _ _ source _ mint _ _ _ _ by' debit _ core =>
    simp only [Book.Account, Book.contents_put]
    split
    · rename_i hk
      subst hk
      exact absurd mint held.not_mint
    · split
      · rename_i hk
        subst hk
        obtain rfl := held.unique source
        have hbase : w'.base = _ := congrArg Core.base core
        refine ⟨w', rfl, ?_⟩
        rw [hbase]
        exact by'.allowanceLeft spends debit rfl rfl
      · exact ⟨v, held, .refl c v⟩
  | deposit _ spendsNot => exact (hnot spendsNot).elim
  | withdraw _ spendsNot => exact (hnot spendsNot).elim
  | mintTo _ spendsNot => exact (hnot spendsNot).elim
  | secretTransfer _ _ spendsNot => exact (hnot spendsNot).elim
  | secretMint _ spendsNot => exact (hnot spendsNot).elim
  | secretBurn _ spendsNot => exact (hnot spendsNot).elim

theorem Call.authority_eq_none (htrades : c.instruction.trades = true)
    (h : Call.spendLayout c.instruction = none) : c.authority = none := by
  rw [authority]
  split
  · rename_i hi
    rw [hi] at htrades
    cases htrades
  · rw [h]
    rfl

theorem Call.spends_of_isBurn (h : c.isBurn = true) :
    (Call.spendLayout c.instruction).isSome = true := by
  unfold isBurn at h
  split at h
  · rename_i hi
    rw [hi]
    rfl
  · rename_i hi
    rw [hi]
    rfl
  · cases h

theorem Call.SpentBy.spends {x q : UInt64} {p : PodCOption Pubkey}
    (htrades : c.instruction.trades = true) (h : c.SpentBy v x p q) :
    (Call.spendLayout c.instruction).isSome = true := by
  cases hlayout : Call.spendLayout c.instruction with
  | some _ => rfl
  | none =>
    have hauthority := Call.authority_eq_none htrades hlayout
    have hpermanent : c.permanentDelegate = none := by
      rw [Call.permanentDelegate, hlayout]
      rfl
    cases h with
    | permanent acts | delegate acts =>
      rw [hauthority] at acts
      cases acts
    | owner other => exact absurd (hpermanent.trans hauthority.symm) other
    | ownerless burn =>
      have hburn := Call.spends_of_isBurn burn
      rw [hlayout] at hburn
      cases hburn

theorem Exchange.allowance_eq (htrades : c.instruction.trades = true)
    (hnone : Call.spendLayout c.instruction = none) (h : Exchange rt c v v') :
    v'.base.allowance = v.base.allowance := by
  cases h with
  | sent _ _ _ by' | burned _ _ _ _ by' =>
    have hspends := by'.spends htrades
    rw [hnone] at hspends
    cases hspends
  | received _ _ _ core | deposited _ _ _ _ _ _ _ core | withdrawn _ _ _ _ _ _ _ _ core
  | minted _ _ _ core | secretSent _ _ _ _ _ _ core | secretReceived _ _ _ core
  | secretReturned _ _ _ _ _ _ core | secretMinted _ _ _ _ core | secretBurned _ _ _ _ _ _ core =>
    exact (congrArg (fun a : Core => a.base.allowance) core :)

theorem tracks_allowance (hresets : ¬ c.Resets k) : Tracks rt c k fun v v' =>
    v'.base.allowance = v.base.allowance ∧ v.base.amount ≤ v'.base.amount where
  refl _ := ⟨rfl, UInt64.le_refl _⟩
  trans huv hvw := ⟨hvw.1.trans huv.1, UInt64.le_trans huv.2 hvw.2⟩
  effect h _ := ⟨h.allowance_eq hresets, h.amount_le⟩

theorem Course.allowanceLeft (h : Course rt c β β') (held : β.Account k v)
    (hresets : ¬ c.Resets k) (hcloses : ¬ c.Closes k) :
    ∃ v', β'.Account k v' ∧ c.AllowanceLeft v v'.base := by
  cases h with
  | moves _ h =>
    rcases h.account (tracks_allowance hresets) held with ⟨v', held', hsame, hle⟩ | ⟨_, hc, _⟩
    · exact ⟨v', held', .same hsame fun _ _ => hle⟩
    · exact absurd hc hcloses
  | trade htrades h rest =>
    have hlower : ∀ {β₁ : Book} {w : View PodAccount}, β₁.Account k w →
        Lowered (β₁ k).contents (β' k).contents → ∃ v', β'.Account k v' ∧ v'.base = w.base := by
      intro β₁ w hw hlowered
      rw [show _ = Contents.account w from hw] at hlowered
      generalize hx : (β' k).contents = x at hlowered
      cases hlowered with
      | same => exact ⟨w, hx, rfl⟩
      | account => exact ⟨_, hx, (congrArg Core.base (w.core_flag false) :)⟩
    cases hlayout : Call.spendLayout c.instruction with
    | some p =>
      obtain ⟨w, hw, hleft⟩ := h.allowanceLeft (by rw [hlayout]; rfl) held
      obtain ⟨v', held', hbase⟩ := hlower hw (rest.lowered k)
      exact ⟨v', held', hbase ▸ hleft⟩
    | none =>
      have hdeal := h.deal k
      rw [show _ = Contents.account v from held] at hdeal
      have hnot : ∀ D, ¬ c.ByDelegate D v := fun D hD => by
        have hspends := hD.spends
        rw [hlayout] at hspends
        cases hspends
      rcases hdeal.of_account with hsame | ⟨w, hw, hexchange, _⟩
      · obtain ⟨v', held', hbase⟩ := hlower hsame (rest.lowered k)
        exact ⟨v', held', hbase ▸ .refl c v⟩
      · obtain ⟨v', held', hbase⟩ := hlower hw (rest.lowered k)
        exact ⟨v', held', .same (hbase ▸ hexchange.allowance_eq htrades hlayout) fun D hD =>
          absurd hD (hnot D)⟩

/-! ## Approval -/

/-- The instruction approves `A` for the delegate `D` of the account at `k`. -/
def Call.Approves (c : Call) (k D : Pubkey) (A : UInt64) : Prop :=
  c.key? 0 = some k ∧ (c.instruction = .approve A ∧ c.key? 1 = some D ∨
    ∃ decimals, c.instruction = .approveChecked A decimals ∧ c.key? 2 = some D)

theorem processApprove_approved {ctx : Context} {sourceInfo : AccountInfo}
    {rest rest' : List AccountInfo} {amount : UInt64} {variant : InstructionVariant}
    {expected : Option (AccountInfo × UInt8)} {D : Pubkey} (hwf : σ.Wf)
    (held : σ.book.Account sourceInfo.key v)
    (hmint : takeExpectedMint variant.decimals? rest = .ok (expected, rest'))
    (hdelegate : rest'.head?.map (·.key) = some D)
    (h : processApprove ctx (sourceInfo :: rest) amount variant σ = .ok σ') :
    ∃ v', σ'.book.Account sourceInfo.key v' ∧ v'.base.delegate = .some D ∧
      v'.base.delegatedAmount = amount := by
  simp only [processApprove, hmint, ok_bind] at h
  obtain _ | ⟨delegateInfo, _ | ⟨ownerInfo, signers⟩⟩ := rest'
  · cases h
  · cases h
  simp only [bind_eq_ok, exists_unit, failIf_eq_ok] at h
  obtain ⟨s, hload, _, _, _, _, h⟩ := h
  obtain ⟨howner, _⟩ := Cell.contents_eq_account.mp held
  have hw := store_held hwf howner hload ((PodState.Stored.refl (hwf.load howner hload).1).withBase
    { s.base with delegate := .some delegateInfo.key, delegatedAmount := amount })
    (packed_of_load hload).initialized trivial h
  rw [hw.book]
  obtain rfl : delegateInfo.key = D := Option.some.inj hdelegate
  exact ⟨_, Book.account_put .., rfl, rfl⟩

theorem Call.Approves.approved {D : Pubkey} {A : UInt64} (hwf : c.σ.Wf)
    (held : c.σ.book.Account k v) (h : c.Approves k D A) (hrun : c.run rt = .ok σ') :
    ∃ v', σ'.book.Account k v' ∧ v'.base.delegate = .some D ∧ v'.base.delegatedAmount = A := by
  obtain ⟨hsource, hinstruction⟩ := h
  rw [Call.run] at hrun
  simp only [key?] at hsource hinstruction
  rcases haccounts : c.accounts with _ | ⟨sourceInfo, rest⟩
  · rw [haccounts] at hsource
    cases hsource
  · rw [haccounts] at hsource hinstruction hrun
    obtain rfl : sourceInfo.key = k := Option.some.inj hsource
    rcases hinstruction with ⟨hi, hdelegate⟩ | ⟨decimals, hi, hdelegate⟩
    · rw [hi] at hrun
      refine processApprove_approved hwf held rfl ?_ hrun
      rw [← hdelegate]
      cases rest <;> rfl
    · rw [hi] at hrun
      cases rest with
      | nil => cases hdelegate
      | cons mintInfo rest =>
        refine processApprove_approved hwf held rfl ?_ hrun
        rw [← hdelegate]
        cases rest <;> rfl

/-! ## Runs -/

theorem Call.not_resets_of_spends (h : (Call.spendLayout c.instruction).isSome = true) :
    ¬ c.Resets k := by
  rintro ⟨_, hi⟩
  split at hi
  · rename_i heq
    rw [heq] at h
    cases h
  · rename_i heq
    rw [heq] at h
    cases h
  · rename_i heq
    rw [heq] at h
    cases h
  · rename_i heq
    rw [heq] at h
    cases h
  · exact hi

theorem Call.not_closes_of_spends (h : (Call.spendLayout c.instruction).isSome = true) :
    ¬ c.Closes k := by
  rintro ⟨_, hi⟩
  rw [hi] at h
  cases h

/-- What is left of the allowance `A` of `D`, of which `n` was taken. -/
structure Remains (D : Pubkey) (A : ℕ) (n : ℕ) (a : PodAccount) : Prop where
  sum : n + a.delegatedAmount.toNat = A
  delegate : a.delegate.toOption = some D ∨ a.delegate.toOption = none

theorem Remains.same {D : Pubkey} {A n : ℕ} {a b : PodAccount} (h : Remains D A n a)
    (hsame : b.allowance = a.allowance) : Remains D A n b := by
  obtain ⟨hdelegate, hamount⟩ := Prod.mk.inj hsame
  constructor
  · rw [hamount]
    exact h.sum
  · rw [hdelegate]
    exact h.delegate

/-- The delegate that is told of in a `ByDelegate` is the one of the account. -/
theorem Call.ByDelegate.unique {D D' : Pubkey} (h : c.ByDelegate D v) (h' : c.ByDelegate D' v) :
    D = D' := Option.some.inj (h.acts.symm.trans h'.acts)

theorem Spending.remains {D : Pubkey} {n : ℕ} (hwf : σ.Wf) (held : σ.book.Account k v)
    (delegate : v.base.delegate = .some D) (h : Spending rt k D σ n σ') :
    σ'.Wf ∧ ∃ v', σ'.book.Account k v' ∧ Remains D v.base.delegatedAmount.toNat n v'.base := by
  induction h with
  | refl =>
    refine ⟨hwf, v, held, Nat.zero_add _, .inl ?_⟩
    rw [delegate]
    rfl
  | @spend n σ' w w' c _ heldw by' run held' ih =>
    obtain ⟨hwf', u, hu, hremains⟩ := ih
    obtain rfl := hu.unique heldw
    obtain ⟨hwf'', hcourse⟩ := run_course hwf' run
    obtain ⟨u', hu', hleft⟩ := hcourse.allowanceLeft heldw (Call.not_resets_of_spends by'.spends)
      (Call.not_closes_of_spends by'.spends)
    obtain rfl := hu'.unique held'
    refine ⟨hwf'', u', held', ?_⟩
    have hsum := hremains.sum
    cases hleft with
    | same hsame untouched =>
      have hle := untouched D by'
      rw [UInt64.le_iff_toNat_le] at hle
      have hkept := hremains.same hsame
      refine ⟨?_, hkept.delegate⟩
      have := hkept.sum
      omega
    | taken by'' taken lowered left =>
      refine ⟨by omega, ?_⟩
      rw [left]
      split
      · exact .inr rfl
      · exact .inl by'.delegate
  | @other n σ' c _ resets closes other run ih =>
    obtain ⟨hwf', u, hu, hremains⟩ := ih
    obtain ⟨hwf'', hcourse⟩ := run_course hwf' run
    obtain ⟨u', hu', hleft⟩ := hcourse.allowanceLeft hu resets closes
    refine ⟨hwf'', u', hu', ?_⟩
    cases hleft with
    | same hsame => exact hremains.same hsame
    | taken by' =>
      -- another delegate there is not
      rcases hremains.delegate with hD | hnone
      · obtain rfl := Option.some.inj (by'.delegate.symm.trans hD)
        exact absurd by' (other u hu)
      · cases hnone.symm.trans by'.delegate
  | outside _ henv ih =>
    obtain ⟨hwf', u, hu, hremains⟩ := ih
    exact ⟨henv.wf hwf', u, henv.book.account hu, hremains⟩

end Spending

/-! ## A delegate

The account at `2` belongs to `7`, who approves 100 of its 500 tokens for `9`. -/

section Approved

def approvedLedger : Ledger :=
  scripted (.modular 2)
    [(.plain, [⟨1, false⟩], .initializeMint2 6 5 none),
     (.plain, [⟨2, false⟩, ⟨1, false⟩], .initializeAccount3 7),
     (.plain, [⟨3, false⟩, ⟨1, false⟩], .initializeAccount3 8),
     (.plain, [⟨1, false⟩, ⟨2, false⟩, ⟨5, true⟩], .mintTo 500)]
    (blank [(1, 82), (2, 165), (3, 165)])

theorem approvedLedger_reachable : Reachable (.modular 2) (fun _ => True) approvedLedger :=
  .scripted (by decide) (fun _ _ _ => trivial) (by decide +kernel)

def approveCall (σ : Ledger) : Call :=
  ⟨.plain, [⟨2, false⟩, ⟨9, false⟩, ⟨7, true⟩], .approve 100, σ⟩

def delegateCall (σ : Ledger) : Call :=
  ⟨.plain, [⟨2, false⟩, ⟨3, false⟩, ⟨9, true⟩], .transfer 40, σ⟩

theorem approved_runs :
    (approvedLedger.checksAccount 2 (fun _ => true) &&
      (toOption ((approveCall approvedLedger).run (.modular 2))).any fun σ₁ =>
        σ₁.checksAccount 2 (fun v => decide (v.base.amount = 500 ∧
          v.base.delegate.toOption = some 9)) &&
      (toOption ((delegateCall σ₁).run (.modular 2))).any fun σ₂ =>
        σ₂.checksAccount 2 (fun v => decide (v.base.amount = 460))) = true := by
  decide +kernel

/-- The approval, and a transfer by the delegate. -/
theorem approved_then_sent : ∃ (σ σ₁ σ₂ : Ledger) (v v₁ v₂ : View PodAccount),
    Reachable (.modular 2) (fun _ => True) σ ∧ σ.book.Account 2 v ∧
    (approveCall σ).run (.modular 2) = .ok σ₁ ∧
    Reachable (.modular 2) (fun _ => True) σ₁ ∧ σ₁.book.Account 2 v₁ ∧ v₁.base.amount = 500 ∧
    v₁.base.delegate.toOption = some 9 ∧
    (delegateCall σ₁).run (.modular 2) = .ok σ₂ ∧ σ₂.book.Account 2 v₂ ∧ v₂.base.amount = 460 := by
  have hruns := approved_runs
  have hreach := approvedLedger_reachable
  generalize approvedLedger = σ at hruns hreach
  simp only [Bool.and_eq_true, Option.any_eq_true, toOption_eq_some] at hruns
  obtain ⟨h, σ₁, hrun, h₁, σ₂, hrun', h₂⟩ := hruns
  obtain ⟨v, held, _⟩ := exists_of_checksAccount h
  obtain ⟨v₁, held₁, hv₁⟩ := exists_of_checksAccount h₁
  obtain ⟨v₂, held₂, hv₂⟩ := exists_of_checksAccount h₂
  obtain ⟨hamount, hdelegate⟩ := of_decide_eq_true hv₁
  have hstep : Step (.modular 2) (fun _ => True) σ σ₁ := .call (c := approveCall σ) trivial hrun
  exact ⟨σ, σ₁, σ₂, v, v₁, v₂, hreach, held, hrun, hreach.run (.single hstep), held₁, hamount,
    hdelegate, hrun', held₂, of_decide_eq_true hv₂⟩

end Approved

/-- Whatever takes tokens from an account is authorised by its owner, by its delegate, who has as
much less to take, or by the permanent delegate of its mint; or it burns what nobody owns. -/
theorem decrease_authorised {rt : Runtime} {c : Call} {σ' : Ledger} {k : Pubkey}
    {v v' : View PodAccount} (h : Reachable rt (fun _ => True) c.σ) (held : c.σ.book.Account k v)
    (hrun : c.run rt = .ok σ') (held' : σ'.book.Account k v')
    (hlt : v'.base.amount < v.base.amount) : c.Authorised v v'.base :=
  (run_course h.wf hrun).2.authorised held held' hlt

theorem decrease_authorised_delegate : ∃ (σ : Ledger) (v v' : View PodAccount),
    v.base.amount = 500 ∧ v'.base.amount = 460 ∧ (delegateCall σ).Authorised v v'.base := by
  obtain ⟨_, σ, σ', _, v, v', _, _, _, hreach, held, hv, _, hrun, held', hv'⟩ := approved_then_sent
  have hlt : v'.base.amount < v.base.amount := by
    rw [hv, hv']
    decide
  exact ⟨σ, v, v', hv, hv', decrease_authorised (c := delegateCall σ) hreach held hrun held' hlt⟩

/-- Without a delegate there is no allowance; and in a run that neither closes the account nor sets
its allowance anew, what the delegate has taken and what is left add up to what was approved, and
the delegate is gone with the last of it. -/
theorem delegate_spending_capped {rt : Runtime} {σ : Ledger}
    (h : Reachable rt (fun _ => True) σ) :
    (∀ k v, σ.book.Account k v → v.base.delegate.toOption = none → v.base.delegatedAmount = 0) ∧
    ∀ (c : Call) (k D : Pubkey) (A : UInt64) (v₀ : View PodAccount) (σ₁ σ₂ : Ledger) (n : ℕ),
      c.σ = σ → σ.book.Account k v₀ → c.Approves k D A → c.run rt = .ok σ₁ →
      Spending rt k D σ₁ n σ₂ → ∃ v, σ₂.book.Account k v ∧ n ≤ A.toNat ∧
        n + v.base.delegatedAmount.toNat = A.toNat ∧
        ∀ (c' : Call) (σ₃ : Ledger) (v' : View PodAccount), c'.σ = σ₂ → c'.ByDelegate D v →
          c'.run rt = .ok σ₃ → σ₃.book.Account k v' → v'.base.amount < v.base.amount →
          v'.base.delegatedAmount = 0 → v'.base.delegate.toOption = none := by
  refine ⟨fun k v held => link_allowance.reachable h k v held, ?_⟩
  rintro c k D A v₀ σ₁ σ₂ n rfl held happroves hrun hspending
  obtain ⟨v₁, held₁, hdelegate, hamount⟩ := happroves.approved h.wf held hrun
  obtain ⟨hwf, v, heldv, hremains⟩ :=
    hspending.remains (run_course h.wf hrun).1 held₁ hdelegate
  have hsum := hremains.sum
  rw [hamount] at hsum
  refine ⟨v, heldv, by omega, hsum, ?_⟩
  rintro c' σ₃ v' rfl by' hrun' held' hlt hzero
  obtain ⟨w, hw, hleft⟩ := (run_course hwf hrun').2.allowanceLeft heldv
    (Call.not_resets_of_spends by'.spends) (Call.not_closes_of_spends by'.spends)
  obtain rfl := hw.unique held'
  cases hleft with
  | same _ untouched => exact absurd hlt (UInt64.not_lt.mpr (untouched D by'))
  | taken _ _ _ left =>
    rw [left, if_pos hzero]
    rfl

theorem delegate_spending_capped_sent : ∃ (σ : Ledger) (v : View PodAccount),
    σ.book.Account 2 v ∧ 40 + v.base.delegatedAmount.toNat = 100 := by
  obtain ⟨σ, σ₁, σ₂, v, v₁, v₂, hreach, held, hrun, _, held₁, h₁, hdelegate, hrun', held₂, h₂⟩ :=
    approved_then_sent
  have by' : (delegateCall σ₁).ByDelegate 9 v₁ := by
    have hpermanent : (delegateCall σ₁).permanentDelegate = none := rfl
    refine ⟨rfl, rfl, hdelegate, ?_, fun hburn => ?_⟩
    · rw [hpermanent]
      exact (Option.some_ne_none _).symm
    · cases hburn
  have hspending : Spending (.modular 2) 2 9 σ₁
      (0 + (v₁.base.amount.toNat - v₂.base.amount.toNat)) σ₂ :=
    .spend (c := delegateCall σ₁) .refl held₁ by' hrun' held₂
  rw [h₁, h₂] at hspending
  obtain ⟨w, hw, _, hsum, _⟩ := (delegate_spending_capped hreach).2 (approveCall σ) 2 9 100 v σ₁ σ₂
    _ rfl held ⟨rfl, .inl ⟨rfl, rfl⟩⟩ hrun hspending
  exact ⟨σ₂, w, hw, hsum⟩

end SolanaEasy.Token
