import SolanaEasy.Token.Holdings
import SolanaEasy.Token.Law.Native

/-!
# Bookkeeping — every move is a run of the register

Everything an instruction does to the book is a run of the register of a mint: most
moves leave it as it is, and the others are its steps, one by one. What holds in every
run of a register therefore holds of every mint that is not closed.
-/

namespace SolanaEasy.Token

open Processor

section Bookkeeping

variable {l : ℕ} {rt : Runtime} {R : Reading l rt} {f : PodElGamalPubkey} {M : Pubkey}
  {β β' : Book} {k : Pubkey} {v v' : View PodAccount} {m m' : View PodMint} {P : Prop} {c : Call}
  {S : Register Pubkey (ZMod l) → Register Pubkey (ZMod l) → Prop}

/-! ## Moves -/

/-- What a mint and its accounts are known to be: the mint keeps its hidden fees under `f`, its
tokens are not wrapped lamports, and `P` holds where an account has hidden balances. -/
structure Book.Serves (f : PodElGamalPubkey) (M : Pubkey) (P : Prop) (β : Book) : Prop where
  feeKey : β.FeeKey f M
  ne : M ≠ Keys.nativeMint
  native : ∀ k v, β.Account k v → (v.base.isNative = true ↔ v.base.mint = Keys.nativeMint)
  converts : ∀ k v e, β.Account k v → v.base.mint = M → v.core.secret = some e → P

theorem Book.Serves.notNative (h : β.Serves f M P) (held : β.Account k v)
    (hM : v.base.mint = M) : v.base.isNative = false := by
  by_contra hnot
  have hnative := (h.native k v held).mp (by simpa using hnot)
  exact h.ne (hM.symm.trans hnative)

/-- An account that holds what it held. -/
theorem Book.register_quiet (held : β.Account k v) (hmint : v'.base.mint = v.base.mint)
    (hh : v.base.mint = M → v'.core.holding R f = v.core.holding R f) :
    (β.put k (.account v')).register R f M = β.register R f M := by
  rw [register_put_account held hmint]
  split
  · rename_i hM
    rw [hh hM]
    exact Register.setHolding_self _ (holding_register held hM)
  · rfl

/-- A mint that records what it recorded. -/
theorem Book.register_quiet_mint {K : Pubkey} (held : β.Mint K m)
    (hi : m'.mintCore.issue R f = m.mintCore.issue R f) :
    (β.put K (.mint m')).register R f M = β.register R f M := by
  rw [register_put_mint held]
  split
  · rename_i hK
    subst hK
    rw [hi]
    exact Register.setIssue_self _ (issue_register held)
  · rfl

theorem Book.steps_account (held : β.Account k v) (hmint : v'.base.mint = v.base.mint)
    (h : v.base.mint = M → S (β.register R f M)
      ((β.register R f M).setHolding k (some (v'.core.holding R f)))) :
    Relation.ReflTransGen S (β.register R f M) ((β.put k (.account v')).register R f M) := by
  rw [register_put_account held hmint]
  split
  · exact .single (h ‹_›)
  · exact .refl

theorem Book.steps_mint {K : Pubkey} (held : β.Mint K m)
    (h : K = M → S (β.register R f M)
      ((β.register R f M).setIssue (some (m'.mintCore.issue R f)))) :
    Relation.ReflTransGen S (β.register R f M) ((β.put K (.mint m')).register R f M) := by
  rw [register_put_mint held]
  split
  · exact .single (h ‹_›)
  · exact .refl

/-- A mint that is new. -/
theorem Book.steps_found {K : Pubkey} (other : (β K).contents = .other)
    (hi : m.mintCore.issue R f = ⟨m.mintCore.mintBurn.isSome, 0, 0, ⟨0, 0, 0⟩⟩) :
    Register.Idles (β.register R f M) ((β.put K (.mint m)).register R f M) := by
  have hholding : (Contents.mint m).holding R f M = (β K).contents.holding R f M := by
    rw [other]
    rfl
  rw [register_put_of_holding hholding, Contents.issue_mint, hi]
  split
  · rename_i hK
    subst hK
    have hnew : (β.register R f K).issue = none := by
      show (β K).contents.issue R f = none
      rw [other]
      rfl
    exact .single (.found _ hnew)
  · exact .refl

theorem Book.steps_both {K : Pubkey} (held : β.Account k v)
    (hmint : v'.base.mint = v.base.mint) (at' : v.base.mint = K) (mint : β.Mint K m)
    (h : K = M → S (β.register R f M)
      (((β.register R f M).setHolding k (some (v'.core.holding R f))).setIssue
        (some (m'.mintCore.issue R f)))) :
    Relation.ReflTransGen S (β.register R f M)
      (((β.put k (.account v')).put K (.mint m')).register R f M) := by
  rw [register_put_both held hmint at' mint]
  split
  · exact .single (h ‹_›)
  · exact .refl

theorem Book.steps_two {a d : Pubkey} {w w' : View PodAccount} (source : β.Account a v)
    (hmint : v'.base.mint = v.base.mint) (target : (β.put a (.account v')).Account d w)
    (hmint' : w'.base.mint = w.base.mint) (same : w.base.mint = v.base.mint)
    (h : v.base.mint = M → ((β.register R f M).setHolding a
        (some (v'.core.holding R f))).holding d = some (w.core.holding R f) →
      S (β.register R f M) (((β.register R f M).setHolding a
        (some (v'.core.holding R f))).setHolding d (some (w'.core.holding R f)))) :
    Relation.ReflTransGen S (β.register R f M)
      (((β.put a (.account v')).put d (.account w')).register R f M) := by
  rw [register_put_two source hmint target hmint' same]
  split
  · rename_i hM
    refine .single (h hM ?_)
    have hat := holding_register (R := R) (f := f) target (same.trans hM)
    rwa [register_put_account source hmint, if_pos hM] at hat
  · exact .refl

/-- Hidden fees of another mint. -/
theorem Gather.register_of_ne {K : Pubkey} {x x' : PodElGamalCiphertext}
    (h : Gather rt K x β x' β') (hK : K ≠ M) : β'.register R f M = β.register R f M := by
  induction h with
  | nil => rfl
  | cons held at' fees sum core grows rest ih =>
    rw [ih, Book.register_put_account held (congrArg (fun a : Core => a.base.mint) core),
      if_neg (at' ▸ hK)]

theorem Gather.to_account {K : Pubkey} {x x' : PodElGamalCiphertext} (h : Gather rt K x β x' β')
    (held : β'.Account k v') : ∃ v, β.Account k v ∧ v'.base.mint = v.base.mint := by
  induction h with
  | nil => exact ⟨v', held, rfl⟩
  | @cons _ _ _ β β' a w w' y hw _ _ _ core _ _ ih =>
    obtain ⟨v, hv, hmint⟩ := ih held
    by_cases hk : k = a
    · subst hk
      obtain rfl := hv.unique (Book.account_put ..)
      exact ⟨w, hw, hmint.trans (congrArg (fun a : Core => a.base.mint) core)⟩
    · rw [Book.Account, Book.contents_put, if_neg hk] at hv
      exact ⟨v, hv, hmint⟩

/-- Hidden fees that are gathered for `d`, and what `d` gets for them. -/
theorem Gather.idles {x x' : PodElGamalCiphertext} {d : Pubkey} {w : View PodAccount}
    (h : Gather rt M x β x' β') (mint : β.Mint M m) (target : β.Account d w)
    (same : w.base.mint = M) (z : ZMod l) :
    Register.Idles ((β.register R f M).credit d z)
      ((β'.register R f M).credit d (z + (R.pt f x' - R.pt f x))) := by
  induction h generalizing z w with
  | nil =>
    rw [sub_self, add_zero]
  | @cons x x₁ x' β β' a v v' y held at' fees sum core _ rest ih =>
    have hmint : v'.base.mint = v.base.mint := congrArg (fun a : Core => a.base.mint) core
    have hput : (β.put a (.account v')).register R f M = (β.register R f M).setHolding a
        (some { v.core.holding R f with secret :=
          { (v.core.holding R f).secret with withheld := 0 } }) := by
      rw [Book.register_put_account held hmint, if_pos at', core, Core.holding_fees]
      simp [Reading.fees, R.pt_zeroed]
    have hstep : Register.Idle _ _ := .secretCollect_credit z
      (Book.holding_register (R := R) (f := f) held at') (Book.holding_register target same)
      (Book.issue_register mint)
    rw [← hput, Core.withheld_secret_holding, fees] at hstep
    have hmint' : (β.put a (.account v')).Mint M m := mint.put_of_ne _ (by
      rintro rfl
      exact held.not_mint mint)
    have htarget : ∃ w', (β.put a (.account v')).Account d w' ∧ w'.base.mint = M := by
      by_cases hd : d = a
      · subst hd
        exact ⟨v', Book.account_put .., hmint.trans at'⟩
      · exact ⟨w, target.put_of_ne _ hd, same⟩
    obtain ⟨w', hw', hsame⟩ := htarget
    have hrest := ih hmint' hw' hsame (z + R.fees f (some y))
    have hsum : z + R.fees f (some y) + (R.pt f x' - R.pt f x₁) = z + (R.pt f x' - R.pt f x) := by
      rw [R.pt_add f sum, Reading.fees, Option.map_some, Option.getD_some]
      ring
    rw [hsum] at hrest
    exact .head hstep hrest

/-- What a move does to the register of `M`, unless it closes the mint. -/
theorem Move.idles (hR : R.Sound c.ctx c.σ) (hs : β.Serves f M P) (h : Move rt c β β') :
    Register.Idles (β.register R f M) (β'.register R f M) ∨
      (c.Closes M ∧ β'.register R f M = (β.register R f M).setIssue none ∧
        ∃ m, β.Mint M m ∧ m.base.supply = 0) := by
  -- what leaves the register as it is
  have hquiet : ∀ {β'' : Book}, β''.register R f M = β.register R f M →
      Register.Idles (β.register R f M) (β''.register R f M) ∨
        (c.Closes M ∧ β''.register R f M = (β.register R f M).setIssue none ∧
          ∃ m, β.Mint M m ∧ m.base.supply = 0) := fun heq => .inl (heq ▸ .refl)
  cases h with
  | account held core | allowance _ held _ _ _ core | owner _ held _ _ _ core
  | closer held _ _ core | state held _ _ _ core | lock held _ _ core =>
    exact hquiet (Book.register_quiet held (congrArg (fun a : Core => a.base.mint) core)
      fun _ => (congrArg (fun a : Core => a.holding R f) core :))
  | @syncNative k v v' r a held native covered more core grows =>
    -- wrapped lamports belong to another mint
    refine hquiet (Book.register_quiet held (congrArg (fun a : Core => a.base.mint) core)
      fun hM => ?_)
    have hnot := hs.notNative held hM
    rw [PodAccount.isNative, ← PodCOption.isSome_toOption, native] at hnot
    cases hnot
  | grow n held _ core | growNative n held _ _ _ core | growSecret n held _ _ core =>
    refine hquiet ?_
    rw [Book.register_set]
    exact Book.register_quiet held (congrArg (fun a : Core => a.base.mint) core)
      fun _ => (congrArg (fun a : Core => a.holding R f) core :)
  | pay => exact hquiet (Book.register_of_contents fun k => Book.contents_pay ..)
  | @openAccount k v m opens other mint required native empty backed core =>
    have hissue : (Contents.account v).issue R f = (β k).contents.issue R f := by rw [other]; rfl
    rw [Book.register_put_of_issue hissue, Contents.holding_account]
    split
    · rename_i hM
      have hnative : v.base.isNative = false := by
        by_contra hnot
        exact hs.ne (hM.symm.trans (native.mp (by simpa using hnot)))
      have hzero : v.core.holding R f = 0 := by
        have hamount : v.base.amount = 0 := empty hnative
        rw [core]
        exact Holding.ext (by rw [Core.amount_holding, hamount]; rfl) rfl rfl
      rw [hzero]
      exact .inl (.single (.openHolding (Book.holding_register_of_other other)
        (Book.issue_register (hM ▸ mint))))
    · rw [Register.setHolding_self _ (Book.holding_register_of_other other)]
      exact .inl .refl
  | @closeAccount k d v closes given given' ne held closable can =>
    have hpay : (β.pay k d (β k).lamports).register R f M = β.register R f M :=
      Book.register_of_contents fun j => Book.contents_pay ..
    have hissue : Contents.other.issue R f =
        ((β.pay k d (β k).lamports) k).contents.issue R f := by
      rw [Book.contents_pay, show (β k).contents = _ from held]
      rfl
    rw [Book.register_set, Book.register_put_of_issue hissue, hpay, Contents.holding_other]
    by_cases hM : v.base.mint = M
    · have hzero := Book.holding_register (R := R) (f := f) held hM
      rw [closable.holding_eq_zero (hs.notNative held hM)] at hzero
      exact .inl (.single (.closeHolding hzero))
    · rw [Register.setHolding_self _ (Book.holding_register_of_ne held hM)]
      exact .inl .refl
  | configure _ held at' mint confidential chosen new fees core grows =>
    refine hquiet (Book.register_quiet held (congrArg (fun a : Core => a.base.mint) core)
      fun _ => ?_)
    rw [core]
    exact Core.holding_configured new fees
  | setting held secret core grows =>
    refine hquiet (Book.register_quiet held (congrArg (fun a : Core => a.base.mint) core)
      fun _ => ?_)
    rw [core]
    exact Core.holding_update secret rfl rfl
  | emptied held secret proved update core grows =>
    obtain ⟨hpending, hbefore, hafter⟩ := emptied_reads hR proved update
    refine hquiet (Book.register_quiet held (congrArg (fun a : Core => a.base.mint) core)
      fun _ => ?_)
    rw [core]
    exact Core.holding_update secret hpending (hafter.trans hbefore.symm)
  | apply _ held secret endorsed update core grows =>
    obtain ⟨hpending, havailable⟩ := pendingApplied_reads (R := R) update
    refine .inl (Book.steps_account held (congrArg (fun a : Core => a.base.mint) core)
      fun hM => ?_)
    rw [core, Core.holding_secret, hpending, havailable, ← Core.pending_holding f secret,
      ← Core.available_holding f secret]
    exact .apply (Book.holding_register held hM)
  | harvest held at' mint extended core core' grows keeps =>
    refine .inl (Book.steps_both held (congrArg (fun a : Core => a.base.mint) core) at' mint
      fun hM => ?_)
    subst hM
    rw [core, core', Core.holding_withheld]
    exact .harvest (Book.holding_register held at') (Book.issue_register mint)
  | collectMint collects held at' mint extended thawed credit core core' grows keeps =>
    refine .inl (Book.steps_both held (congrArg (fun a : Core => a.base.mint) core) at' mint
      fun hM => ?_)
    subst hM
    rw [core, core', Core.holding_base, credit]
    exact .collectIssue (Book.holding_register held at') (Book.issue_register mint)
  | @collect a d M' v v' w w' m b collects source at' mint extended core target same thawed credit
      core' grows grows' =>
    refine .inl (Book.steps_two source (congrArg (fun a : Core => a.base.mint) core) target
      (congrArg (fun a : Core => a.base.mint) core') (same.trans at'.symm) fun hM htarget => ?_)
    obtain rfl := at'.symm.trans hM
    rw [core, Core.holding_withheld] at htarget
    rw [core, core', Core.holding_withheld, Core.holding_base w.core, credit]
    exact .collect (Book.holding_register source at') (Book.issue_register mint) htarget
  | secretHarvest held at' mint fees config sum core core' grows keeps =>
    refine .inl (Book.steps_both held (congrArg (fun a : Core => a.base.mint) core) at' mint
      fun hM => ?_)
    subst hM
    have hstep : Register.Idle (β.register R f _) _ :=
      .secretHarvest (Book.holding_register held at') (Book.issue_register mint)
    rw [Core.withheld_secret_holding, fees, MintCore.withheld_issue config] at hstep
    rw [core, core', Core.holding_fees, MintCore.issue_secretFees, R.pt_add f sum]
    simpa only [Reading.fees, Option.map_some, Option.getD_some, R.pt_zeroed] using hstep
  | @secretCollectMint d M' v v' m m' e e' k x p err b collects held at' mint thawed
      secret config proved credit core core' grows keeps =>
    refine .inl (Book.steps_both held (congrArg (fun a : Core => a.base.mint) core) at' mint
      fun hM => ?_)
    subst hM
    obtain rfl := hs.feeKey _ mint _ _ config
    obtain ⟨hpending, havailable⟩ := feeCredited_reads (R := R) credit
    have hsame := hR.ciphertexts p proved.proved
    rw [proved.first, proved.second, proved.sum] at hsame
    have hstep : Register.Idle (β.register R k _) _ :=
      .secretCollectIssue (Book.holding_register held at') (Book.issue_register mint)
    rw [Core.available_holding k secret, MintCore.withheld_issue config, hsame,
      ← havailable] at hstep
    rw [core, core', Core.holding_secret, MintCore.issue_secretFees, R.pt_zeroed, hpending,
      ← Core.pending_holding k secret]
    exact hstep
  | @secretCollect β₁ d M' v v' m e e' k x p err b collects gathered mint config held at' thawed
      secret proved credit core grows =>
    have hmint : v'.base.mint = v.base.mint := congrArg (fun a : Core => a.base.mint) core
    left
    rw [Book.register_put_account held hmint, at']
    split
    · rename_i hM
      subst hM
      obtain ⟨⟨q, y⟩, hy, hk⟩ := Option.map_eq_some_iff.mp config
      obtain rfl : q = k := hk
      obtain rfl := hs.feeKey _ mint _ _ hy
      obtain ⟨hpending, havailable⟩ := feeCredited_reads (R := R) credit
      have hsame := hR.ciphertexts p proved.proved
      rw [proved.first, proved.second, proved.sum] at hsame
      obtain ⟨w, hw, hwmint⟩ := gathered.to_account held
      have hsteps := gathered.idles (R := R) (f := q) mint hw (hwmint.symm.trans at') 0
      rw [Register.credit_zero, R.pt_zeroed, sub_zero, zero_add,
        Register.credit_of_holding (Book.holding_register held at'),
        Core.available_holding q secret, hsame, ← havailable] at hsteps
      rw [core, Core.holding_secret, hpending, ← Core.pending_holding q secret]
      exact hsteps
    · rename_i hM
      rw [gathered.register_of_ne hM]
  | mint n held core keeps =>
    refine hquiet ?_
    rw [Book.register_set]
    exact Book.register_quiet_mint held (by rw [core])
  | rewrite n rewrites held core keeps =>
    refine hquiet ?_
    rw [Book.register_set]
    exact Book.register_quiet_mint held (by rw [core]; rfl)
  | setFee head sets held config valid core keeps =>
    exact hquiet (Book.register_quiet_mint held (by rw [core]; rfl))
  | pause head toggles held core keeps =>
    exact hquiet (Book.register_quiet_mint held (by rw [core]; rfl))
  | @rotate M' m m' e p held config proved checked core keeps =>
    obtain ⟨hsupply, hzero, hburned⟩ := checkRotation_reads hR proved checked
    refine hquiet (Book.register_quiet_mint held ?_)
    rw [core]
    exact MintCore.issue_update config hsupply (hburned.trans hzero.symm)
  | restate held config core keeps =>
    refine hquiet (Book.register_quiet_mint held ?_)
    rw [core]
    exact MintCore.issue_update config rfl rfl
  | applyBurn held config update core keeps =>
    obtain ⟨hsupply, hburned⟩ := burnApplied_reads (R := R) update
    refine .inl (Book.steps_mint held fun hM => ?_)
    subst hM
    obtain ⟨hsupply', hburned'⟩ := MintCore.supply_issue (R := R) (f := f) config
    rw [core, MintCore.issue_mintBurn config, hsupply, hburned, ← hsupply', ← hburned']
    exact .applyBurn (Book.issue_register held)
  | @openMint M' m opens other ne supply withheld fees secretFees mintBurn _ =>
    exact .inl (Book.steps_found other (MintCore.issue_new supply withheld secretFees mintBurn))
  | @openNativeMint m n opens other bare supply =>
    rw [Book.register_set]
    have hget : ∀ (V : Type) [Pod V] [Extension V], m.get V = none :=
      fun V _ _ => View.get_eq_none_of_ext (bare.2 _)
    refine .inl (Book.steps_found other (MintCore.issue_new supply ?_ ?_ ?_))
    · rw [View.mintCore, View.mintWithheld, hget]
      rfl
    · intro q x hx
      rw [View.mintCore, hget ConfidentialTransferFeeConfig] at hx
      cases hx
    · intro u hu
      rw [View.mintCore, hget Token.ConfidentialMintBurn] at hu
      cases hu
  | @closeMint M' d m closes given given' ne held closable supply can =>
    have hpay : (β.pay M' d (β M').lamports).register R f M = β.register R f M :=
      Book.register_of_contents fun j => Book.contents_pay ..
    have hholding : Contents.other.holding R f M =
        ((β.pay M' d (β M').lamports) M').contents.holding R f M := by
      rw [Book.contents_pay, show (β M').contents = _ from held]
      rfl
    rw [Book.register_set, Book.register_put_of_holding hholding, hpay]
    split
    · rename_i hM
      subst hM
      exact .inr ⟨closes, rfl, m, held, supply⟩
    · exact .inl .refl

/-- The same, step by step. -/
theorem Move.steps (hR : R.Sound c.ctx c.σ) (hs : β.Serves f M P) (h : Move rt c β β') :
    Register.Steps P (β.register R f M) (β'.register R f M) ∨
      (c.Closes M ∧ β'.register R f M = (β.register R f M).setIssue none ∧
        ∃ m, β.Mint M m ∧ m.base.supply = 0) :=
  (h.idles hR hs).imp_left Register.Idles.steps

/-- What a trade does to the register of `M`. -/
theorem Trade.steps (hR : R.Sound c.ctx c.σ) (hs : β.Serves f M P) {s d : Pubkey}
    {hook : Option Pubkey} (h : Trade rt c s d hook β β') :
    Register.Steps P (β.register R f M) (β'.register R f M) := by
  cases h with
  | @transfer _ _ _ _ v v' w w' x fee a b q p head last ne spends notBurn source target mint
      consults movable thawed thawed' guarded by' part debit credit pays core core' =>
    generalize hβ : (if v.base.isNative = true then β.pay s d x else β) = β₁
    have hcontents : ∀ k, (β₁ k).contents = (β k).contents := fun k => by
      rw [← hβ, Book.contents_payIf]
    have hregister : β₁.register R f M = β.register R f M := Book.register_of_contents hcontents
    have hsource : β₁.Account s v := (hcontents s).trans source
    have htarget : β₁.Account d w := (hcontents d).trans target
    have hpart := UInt64.le_iff_toNat_le.mp part
    rw [← hregister]
    refine Book.steps_two hsource (congrArg (fun a : Core => a.base.mint) core)
      (htarget.put_of_ne _ ne) (congrArg (fun a : Core => a.base.mint) core') mint
      fun hM _ => ?_
    have hstep : Register.Step P (β₁.register R f M) _ :=
      .transfer x.toNat fee.toNat ne (Book.holding_register hsource hM)
        (Book.holding_register htarget (mint.trans hM)) (by simp; omega) hpart
    have hpaid : v'.core.holding R f =
        { v.core.holding R f with amount := (v.core.holding R f).amount - x.toNat } := by
      rw [core]
      exact Core.holding_debit debit
    have hgot : w'.core.holding R f = { w.core.holding R f with
        amount := (w.core.holding R f).amount + (x.toNat - fee.toNat)
        withheld := (w.core.holding R f).withheld + fee.toNat } := by
      have hamount : b.toNat = w.base.amount.toNat + (x.toNat - fee.toNat) := by omega
      rw [core']
      exact Holding.ext hamount rfl rfl
    rw [hpaid, hgot]
    exact hstep
  | selfTransfer => exact .refl
  | @burn _ _ M' v v' m m' x a q n p head isBurn source at' mint running notNative thawed guarded
      by' debit supply core core' =>
    refine Book.steps_both source (congrArg (fun a : Core => a.base.mint) core) at' mint
      fun hM => ?_
    subst hM
    have hstep : Register.Step P (β.register R f M') _ :=
      .burn x.toNat (Book.holding_register source at') (Book.issue_register mint)
        (by simp; omega) (show x.toNat ≤ m.base.supply.toNat by omega)
    have hpaid : v'.core.holding R f =
        { v.core.holding R f with amount := (v.core.holding R f).amount - x.toNat } := by
      rw [core]
      exact Core.holding_debit debit
    have hless : m'.mintCore.issue R f =
        { m.mintCore.issue R f with supply := (m.mintCore.issue R f).supply - x.toNat } := by
      have hn : n.toNat = m.base.supply.toNat - x.toNat := by omega
      rw [core', MintCore.issue, hn]
      rfl
    rw [hpaid, hless]
    exact hstep
  | @deposit _ k M' v v' m e e' x a head spends still held at' mint openly running notNative movable
      thawed endorsed debit secret credit core grows =>
    refine Book.steps_account held (congrArg (fun a : Core => a.base.mint) core) fun hM => ?_
    obtain rfl := at'.symm.trans hM
    obtain ⟨hpending, havailable⟩ := deposited_reads (R := R) credit
    have hstep : Register.Step P (β.register R f M') _ :=
      .deposit x.toNat (hs.converts _ v e held at' secret) (Book.holding_register held at')
        (Book.issue_register mint) (MintCore.not_secretly_issue openly) (by simp; omega)
    have hnew : v'.core.holding R f = { v.core.holding R f with
        amount := (v.core.holding R f).amount - x.toNat
        secret := { (v.core.holding R f).secret with
          pending := (v.core.holding R f).secret.pending + x.toNat } } := by
      rw [core, Core.pending_holding f secret, ← hpending]
      have hamount : a.toNat = v.base.amount.toNat - x.toNat := by omega
      refine Holding.ext hamount rfl (Secrets.ext rfl ?_ rfl)
      exact havailable.trans (Core.available_holding f secret).symm
    rw [hnew]
    exact hstep
  | @withdraw _ k M' v v' m e e' p eo ro as as' b x a head spends still held at' mint openly running
      notNative movable thawed endorsed credit secret proved debit core grows =>
    refine Book.steps_account held (congrArg (fun a : Core => a.base.mint) core) fun hM => ?_
    obtain rfl := at'.symm.trans hM
    obtain ⟨hpending, havailable, hsmall⟩ := withdrawn_reads hR proved debit
    have hstep : Register.Step P (β.register R f M') _ :=
      .withdraw x.toNat (R.available e') (hs.converts _ v e held at' secret)
        (Book.holding_register held at') (Book.issue_register mint)
        (MintCore.not_secretly_issue openly) x.toNat_lt hsmall
        ((Core.available_holding f secret).trans havailable)
    have hnew : v'.core.holding R f = { v.core.holding R f with
        amount := (v.core.holding R f).amount + x.toNat
        secret := { (v.core.holding R f).secret with available := R.available e' } } := by
      rw [core]
      refine Holding.ext credit rfl (Secrets.ext ?_ rfl rfl)
      exact hpending.trans (Core.pending_holding f secret).symm
    rw [hnew]
    exact hstep
  | @mintTo _ d M' v v' m m' x a n head spends still held at' mint authority openly running
      notNative thawed credit supply core core' =>
    refine Book.steps_both held (congrArg (fun a : Core => a.base.mint) core) at' mint
      fun hM => ?_
    subst hM
    have hlt := n.toNat_lt
    have hstep : Register.Step P (β.register R f M') _ :=
      .mint x.toNat (Book.holding_register held at') (Book.issue_register mint)
        (MintCore.not_secretly_issue openly) (show m.base.supply.toNat + x.toNat < 2 ^ 64 by omega)
    have hmore : m'.mintCore.issue R f =
        { m.mintCore.issue R f with supply := (m.mintCore.issue R f).supply + x.toNat } := by
      rw [core', MintCore.issue, supply]
      rfl
    rw [core, Core.holding_base, credit, hmore]
    exact hstep
  | @secretTransfer _ s d M' v v' w w' m e e' g g' y' head last spends source at' mint running
      movable thawed endorsed unguarded secret core target same thawed' secret' moved core' =>
    refine Book.steps_two source (congrArg (fun a : Core => a.base.mint) core) target
      (congrArg (fun a : Core => a.base.mint) core') (same.trans at'.symm) fun hM htarget => ?_
    obtain rfl := at'.symm.trans hM
    obtain ⟨x, fee, net, hmoved⟩ := moved.reads hR
    have hpaid : v'.core.holding R f = { v.core.holding R f with
        secret := { (v.core.holding R f).secret with available := R.available e' } } := by
      rw [core, Core.holding_secret, hmoved.still, ← Core.pending_holding f secret]
    have hgot : w'.core.holding R f = { w.core.holding R f with
        secret := { (w.core.holding R f).secret with
          pending := (w.core.holding R f).secret.pending + net
          withheld := (w.core.holding R f).secret.withheld + fee } } := by
      rw [core', Core.pending_holding f secret', Core.withheld_secret_holding, ← hmoved.credit,
        ← hmoved.withheld f (hs.feeKey m mint)]
      refine Holding.ext rfl rfl (Secrets.ext rfl ?_ rfl)
      exact hmoved.still'.trans (Core.available_holding f secret').symm
    rw [hpaid] at htarget
    rw [hpaid, hgot]
    exact .secretTransfer x fee net (R.available e') (Book.holding_register source at')
      (Book.issue_register mint) hmoved.small ((Core.available_holding f secret).trans hmoved.debit)
      hmoved.short hmoved.shortFee hmoved.word hmoved.split htarget
  | @secretMint _ d M' v v' m m' e e' u u' p t i eo vo ro as as' head spends still held at' mint
      authority running thawed secret secret' proved credit supply core core' =>
    refine Book.steps_both held (congrArg (fun a : Core => a.base.mint) core) at' mint
      fun hM => ?_
    subst hM
    obtain ⟨x, hx⟩ := verifyMintProof_shows hR proved
    obtain ⟨hpending, havailable⟩ := mintedTo_reads hx credit
    obtain ⟨hsupply, hsmall, hburned⟩ := supplyMinted_reads hx supply
    obtain ⟨hsupply₀, hburned₀⟩ := MintCore.supply_issue (R := R) (f := f) secret'
    have hstep : Register.Step P (β.register R f M') _ :=
      .secretMint x (Book.holding_register held at') (Book.issue_register mint)
        (MintCore.secretly_issue secret') hx.short (by rw [hsupply₀, ← hsupply]; exact hsmall)
    rw [core, core', Core.holding_secret, MintCore.issue_mintBurn secret', hpending, havailable,
      hsupply, hburned, ← Core.pending_holding f secret,
      ← Core.available_holding f secret, ← hsupply₀, ← hburned₀]
    exact hstep
  | @secretBurn _ s M' v v' m m' e e' u u' p t i eo vo ro as as' head spends still held at' mint
      running thawed endorsed unguarded secret secret' proved debit supply core core' =>
    refine Book.steps_both held (congrArg (fun a : Core => a.base.mint) core) at' mint
      fun hM => ?_
    subst hM
    obtain ⟨x, hx⟩ := verifyBurnProof_shows hR proved
    obtain ⟨hpending, havailable, hsmall⟩ := burnedFrom_reads hx debit
    obtain ⟨hburned, hsupply⟩ := supplyBurned_reads hx supply
    obtain ⟨hsupply₀, hburned₀⟩ := MintCore.supply_issue (R := R) (f := f) secret'
    have hstep : Register.Step P (β.register R f M') _ :=
      .secretBurn x (R.available e') (Book.holding_register held at') (Book.issue_register mint)
        (MintCore.secretly_issue secret') hx.short hsmall
        ((Core.available_holding f secret).trans havailable)
    rw [core, core', Core.holding_secret, MintCore.issue_mintBurn secret', hpending, hsupply,
      hburned, ← Core.pending_holding f secret, ← hsupply₀, ← hburned₀]
    exact hstep

/-! ## What the mint was before -/

/-- The mint, if there is one, keeps its hidden fees under `f`, and `P` holds if it has
confidential transfers. -/
structure Book.Fits (f : PodElGamalPubkey) (M : Pubkey) (P : Prop) (β : Book) : Prop where
  feeKey : β.FeeKey f M
  converts : ∀ m, β.Mint M m → (m.ext .confidentialTransferMint).isSome = true → P

/-- No instruction changes the key of the hidden fees. -/
theorem MintEffect.secretFees_key (h : MintEffect rt c M m m') :
    m'.mintCore.secretFees.map (·.1) = m.mintCore.secretFees.map (·.1) := by
  cases h with
  | secretFees config core =>
    rw [core, config]
    rfl
  | quiet core | rewrite _ core | withheld core | setFee _ _ _ _ core | pause _ _ core
  | rotate _ _ _ core | restate _ core | applyBurn _ _ core =>
    exact congrArg (fun a : MintCore => a.secretFees.map (·.1)) core

theorem MintExchange.secretFees_key (h : MintExchange rt c m m') :
    m'.mintCore.secretFees.map (·.1) = m.mintCore.secretFees.map (·.1) := by
  cases h <;> rename_i core <;>
    exact congrArg (fun a : MintCore => a.secretFees.map (·.1)) core

theorem MintCore.feeKey_congr {a a' : MintCore}
    (h : a'.secretFees.map (·.1) = a.secretFees.map (·.1)) : a'.FeeKey f ↔ a.FeeKey f := by
  have hiff : ∀ b : MintCore, b.FeeKey f ↔ ∀ q, b.secretFees.map (·.1) = some q → q = f := by
    intro b
    constructor
    · intro hb q hq
      obtain ⟨⟨q', x⟩, hx, hq'⟩ := Option.map_eq_some_iff.mp hq
      exact hq'.symm.trans (hb q' x hx)
    · exact fun hb q x hx => hb q (by rw [hx]; rfl)
  rw [hiff, hiff, h]

/-- A mint that is there before an instruction and is not closed, is there after it, under the
same key and with all that it had. -/
theorem Move.mint_stays (hc : ¬ c.Closes M) (h : Move rt c β β') (held : β.Mint M m) :
    ∃ m', β'.Mint M m' ∧ m.Grows m' ∧
      m'.mintCore.secretFees.map (·.1) = m.mintCore.secretFees.map (·.1) := by
  have hchange := h.change M
  rw [show _ = Contents.mint m from held] at hchange
  rcases hchange.of_mint with hsame | ⟨m', hm', heffect, hkeeps⟩ | ⟨_, hcloses, _⟩
  · exact ⟨m, hsame, .refl m, rfl⟩
  · exact ⟨m', hm', hkeeps.grows, heffect.secretFees_key⟩
  · exact absurd hcloses hc

theorem Trade.mint_stays {s d : Pubkey} {hook : Option Pubkey} (h : Trade rt c s d hook β β')
    (held : β.Mint M m) :
    ∃ m', β'.Mint M m' ∧ m.Grows m' ∧
      m'.mintCore.secretFees.map (·.1) = m.mintCore.secretFees.map (·.1) := by
  have hdeal := h.deal M
  rw [show _ = Contents.mint m from held] at hdeal
  rcases hdeal.of_mint with hsame | ⟨m', hm', hexchange, hkeeps⟩
  · exact ⟨m, hsame, .refl m, rfl⟩
  · exact ⟨m', hm', hkeeps.grows, hexchange.secretFees_key⟩

theorem Book.Fits.before (hf : β'.Fits f M P)
    (h : ∀ m, β.Mint M m → ∃ m', β'.Mint M m' ∧ m.Grows m' ∧
      m'.mintCore.secretFees.map (·.1) = m.mintCore.secretFees.map (·.1)) : β.Fits f M P where
  feeKey m held := by
    obtain ⟨m', hm', _, hkey⟩ := h m held
    exact (MintCore.feeKey_congr hkey).mp (hf.feeKey m' hm')
  converts m held hsome := by
    obtain ⟨m', hm', hgrows, _⟩ := h m held
    exact hf.converts m' hm' (hgrows _ hsome)

/-! ## Accounts with hidden balances -/

/-- An account of `M` has hidden balances only if its mint has confidential transfers. -/
def Veiled (M : Pubkey) (v : View PodAccount) (x : Contents) : Prop :=
  v.base.mint = M → v.core.secret ≠ none →
    ∃ m, x = .mint m ∧ (m.ext .confidentialTransferMint).isSome = true

theorem Effect.secret_cases (h : Effect rt c β k v v') :
    (v.core.secret ≠ none ∨ v'.core.secret = none) ∨
      ∃ m, β.Mint v.base.mint m ∧ (m.get ConfidentialTransferMint).isSome = true := by
  cases h with
  | configure _ mint confidential => exact .inr ⟨_, mint, confidential⟩
  | setting secret | emptied secret | apply _ secret | secretCollect _ _ secret =>
    left
    rw [secret]
    exact .inl nofun
  | quiet core | allowance _ _ _ _ core | owner _ _ _ _ core | closer _ _ core | state _ _ _ core
  | lock _ _ core | native _ _ _ core | harvest core | collect _ _ _ core | secretHarvest _ core =>
    left
    have hsame : v'.core.secret = v.core.secret := (congrArg Core.secret core :)
    rw [hsame]
    exact (em (v.core.secret = none)).symm

theorem Exchange.secret_eq_none (h : Exchange rt c v v') (hnone : v.core.secret = none) :
    v'.core.secret = none := by
  cases h with
  | deposited _ _ _ _ _ secret | withdrawn _ _ _ _ _ secret | secretSent _ _ _ _ secret
  | secretReceived _ secret | secretReturned _ _ _ _ secret | secretMinted _ secret
  | secretBurned _ _ _ secret =>
    rw [hnone] at secret
    cases secret
  | sent _ _ _ _ _ core | received _ _ _ core | burned _ _ _ _ _ _ core | minted _ _ _ core =>
    exact (congrArg Core.secret core).trans hnone

theorem link_veiled {allow : Call → Prop} (hopen : ∀ c, allow c → ¬ c.Closes M) :
    Link rt allow (Veiled M) where
  opened _ h _ := by
    cases h with
    | openAccount _ _ _ _ core =>
      intro _ hsome
      exact absurd (congrArg Core.secret core) hsome
  effect _ h _ hq hM hsome := by
    rcases h.secret_cases with (hbefore | hnone) | ⟨m, hm, hsome⟩
    · exact hq (h.mint_eq.symm.trans hM) hbefore
    · exact absurd hnone hsome
    · obtain ⟨x, hx⟩ := Option.isSome_iff_exists.mp hsome
      exact ⟨m, hm, View.ext_isSome_of_get hx⟩
  exchange _ h _ hq hM hsome :=
    hq (h.mint_eq.symm.trans hM) fun hnone => hsome (h.secret_eq_none hnone)
  flag hq hM hsome := by
    refine hq hM fun hnone => hsome ?_
    exact (congrArg Core.secret (View.core_flag _ false)).trans hnone
  change may h hq hM hsome := by
    obtain ⟨m, rfl, hd⟩ := hq hM hsome
    rcases h.of_mint with rfl | ⟨m', rfl, _, keeps⟩ | ⟨_, hcloses, _⟩
    · exact ⟨m, rfl, hd⟩
    · exact ⟨m', rfl, keeps.grows _ hd⟩
    · exact absurd (hM ▸ hcloses) (hopen _ may)
  deal may h hq hM hsome := by
    obtain ⟨m, rfl, hd⟩ := hq hM hsome
    rcases h.of_mint with rfl | ⟨m', rfl, _, keeps⟩
    · exact ⟨m, rfl, hd⟩
    · exact ⟨m', rfl, keeps.grows _ hd⟩
  lowered h hq hM hsome := by
    obtain ⟨m, rfl, hd⟩ := hq hM hsome
    exact ⟨m, h.of_mint, hd⟩

/-! ## Runs -/

variable {allow : Call → Prop} {σ σ' : Ledger}

theorem Lowered.holding {x y : Contents} (h : Lowered x y) :
    y.holding R f M = x.holding R f M := by
  cases h with
  | same => rfl
  | @account v =>
    have hcore := v.core_flag false
    have hholding : (v.flag false).core.holding R f = v.core.holding R f :=
      (congrArg (fun a : Core => a.holding R f) hcore :)
    rw [Contents.holding_account, Contents.holding_account, hholding]
    rfl

theorem Lowered.issue {x y : Contents} (h : Lowered x y) : y.issue R f = x.issue R f := by
  cases h <;> rfl

/-- Neither a hook nor anyone else changes a register. -/
theorem Book.register_lowered (h : ∀ k, Lowered (β k).contents (β' k).contents) :
    β'.register R f M = β.register R f M :=
  register_congr (fun k => (h k).holding) (h M).issue

theorem Book.Fits.before_lowered (hf : β'.Fits f M P)
    (h : ∀ k, Lowered (β k).contents (β' k).contents) : β.Fits f M P := by
  refine hf.before fun m held => ⟨m, ?_, .refl m, rfl⟩
  exact (held ▸ h M : Lowered (.mint m) _).of_mint

/-- Accounts are marked as native if they are, and veiled only for a mint that asks for it. -/
def Tagged (M : Pubkey) (v : View PodAccount) (x : Contents) : Prop :=
  (v.base.isNative = true ↔ v.base.mint = Keys.nativeMint) ∧ Veiled M v x

theorem Book.Fits.serves (hf : β.Fits f M P) (hne : M ≠ Keys.nativeMint)
    (hl : β.Linked (Tagged M)) : β.Serves f M P where
  feeKey := hf.feeKey
  ne := hne
  native k v held := (hl k v held).1
  converts k v e held hM hsecret := by
    obtain ⟨m, hm, hsome⟩ := (hl k v held).2 hM (by rw [hsecret]; exact nofun)
    exact hf.converts m (hM ▸ hm) hsome

/-- The register of `M` has come about in steps. -/
def Book.Registered (R : Reading l rt) (M : Pubkey) (β : Book) : Prop :=
  ∀ f P, β.Fits f M P → Register.Steps P .empty (β.register R f M)

theorem preserved_registered (hne : M ≠ Keys.nativeMint)
    (hallow : ∀ c, allow c → ¬ c.Closes M ∧ R.Sound c.ctx c.σ) :
    Preserved rt allow fun β => β.Linked (Tagged M) ∧ β.Registered R M := by
  have hlink : Preserved rt allow (Book.Linked (Tagged M)) :=
    ((link_native allow).and (link_veiled fun c hc => (hallow c hc).1)).preserved
  refine hlink.and ?_ ?_ ?_ ?_
  · intro c β β' may hl hr hmove f P hf
    obtain ⟨hcloses, hR⟩ := hallow c may
    have hbefore := hf.before fun m => hmove.mint_stays hcloses
    rcases hmove.steps hR (hbefore.serves hne hl) with hsteps | ⟨hclosed, _⟩
    · exact (hr f P hbefore).trans hsteps
    · exact absurd hclosed hcloses
  · intro c s d hook β' may hl hr htrade f P hf
    have hbefore := hf.before fun m => htrade.mint_stays
    exact (hr f P hbefore).trans (htrade.steps (hallow c may).2 (hbefore.serves hne hl))
  · intro c s d hook β β' hr hhooked f P hf
    rw [Book.register_lowered hhooked.lowered]
    exact hr f P (hf.before_lowered hhooked.lowered)
  · intro β β' hr henv f P hf
    rw [Book.register_lowered henv.lowered]
    exact hr f P (hf.before_lowered henv.lowered)

/-- Moves that do not close `M` are idle steps of its register. -/
theorem Moves.idles (hne : M ≠ Keys.nativeMint) (hc : ¬ c.Closes M) (hR : R.Sound c.ctx c.σ)
    (hwf : c.σ.Wf) (hl : c.σ.book.Linked (Tagged M)) (h : Moves rt c c.σ.book β')
    (hf : β'.Fits f M P) :
    c.σ.book.Fits f M P ∧ Register.Idles (c.σ.book.register R f M) (β'.register R f M) := by
  have hlink : Preserved rt (fun c => ¬ c.Closes M) (Book.Linked (Tagged M)) :=
    ((link_native _).and (link_veiled fun _ hc => hc)).preserved
  suffices hboth : β'.Linked (Tagged M) ∧ (β'.Fits f M P → c.σ.book.Fits f M P ∧
      Register.Idles (c.σ.book.register R f M) (β'.register R f M)) from hboth.2 hf
  clear hf
  induction h with
  | refl => exact ⟨hl, fun hf => ⟨hf, .refl⟩⟩
  | tail _ hmove ih =>
    obtain ⟨hlinked, hidles⟩ := ih
    refine ⟨hlink.move hc hwf hl hlinked hmove, fun hf => ?_⟩
    have hbefore := hf.before fun m => hmove.mint_stays hc
    obtain ⟨hfirst, hrest⟩ := hidles hbefore
    rcases hmove.idles hR (hbefore.serves hne hlinked) with hidle | ⟨hclosed, _⟩
    · exact ⟨hfirst, hrest.trans hidle⟩
    · exact absurd hclosed hc

/-- In every run that does not close `M`, its register comes about in steps. -/
theorem Reachable.registered (hne : M ≠ Keys.nativeMint)
    (h : Reachable rt (fun c => ¬ c.Closes M ∧ R.Sound c.ctx c.σ) σ) :
    σ.book.Registered R M := by
  refine ((preserved_registered hne fun _ hc => hc).reachable (fun β hempty => ⟨?_, ?_⟩) h).2
  · intro k v held
    rw [Book.Account, hempty k] at held
    cases held
  · intro f P _
    have hregister : β.register R f M = .empty := by
      simp only [Book.register, hempty]
      rfl
    rw [hregister]

end Bookkeeping

end SolanaEasy.Token
