import SolanaEasy.Token.Move

/-!
# Effects — what an instruction does to one account or one mint

A move or a trade names several accounts. Here it is seen from one key: what it
does to the account or the mint that is there, and when something appears or
disappears. Claims about one account need no more than this.
-/

namespace SolanaEasy.Token

open Processor

section Effects

variable (rt : Runtime) (c : Call)

/-! ## Effects of a move -/

/-- What a move does to the token account at `k`. -/
inductive Effect (β : Book) (k : Pubkey) (v v' : View PodAccount) : Prop
  | quiet (core : v'.core = v.core)
  | allowance {p q} (resets : c.Resets k) (thawed : v.base.isFrozen = false)
      (none : p.toOption = none → q = 0)
      (guarded : v.locked = true → c.ctx.inCpi = true → p.toOption = .none)
      (core : v'.core = { v.core with
        base := { v.base with delegate := p, delegatedAmount := q } })
  | owner {o p} (resets : c.Resets k) (thawed : v.base.isFrozen = false)
      (unlocked : v.locked = false) (mutable : v.ext .immutableOwner = none)
      (core : v'.core = { v.core with base := { v.base with
        owner := o, delegate := .none, delegatedAmount := 0, closeAuthority := p } })
  | closer {p} (thawed : v.base.isFrozen = false)
      (guarded : v.locked = true → c.ctx.inCpi = true → p.isSome = false)
      (core : v'.core = { v.core with base := { v.base with closeAuthority := p } })
  | state {b} (notNative : v.base.isNative = false)
      (valid : b = AccountState.initialized.toU8 ∨ b = AccountState.frozen.toU8)
      (thaws : v.base.isFrozen = true → c.instruction = .thawAccount)
      (core : v'.core = { v.core with base := { v.base with state := b } })
  | lock {b} (outside : c.ctx.inCpi = false) (toggles : ∃ enable, c.instruction = .cpiGuard enable)
      (core : v'.core = { v.core with locked := b })
  | native {a : UInt64} {r : PodCOption UInt64} (native : v.base.isNative = true)
      (still : r.isSome = true) (more : v.base.amount ≤ a)
      (core : v'.core = { v.core with
        base := { v.base with amount := a, isNativeOption := r } })
  | configure {m a key b n y} (configures : c.instruction.configures = true)
      (mint : β.Mint v.base.mint m)
      (confidential : (m.get ConfidentialTransferMint).isSome = true)
      (chosen : c.Chosen v.base.owner key) (new : v.core.secret = none)
      (fees : y = v.core.fees ∨ v.core.fees = none ∧ y = some ⟨.zeroed⟩)
      (core : v'.core = { v.core with
        secret := some (ConfidentialTransfer.configuredAccount a key b n), fees := y })
  | setting {e} {a b d : PodBool} (secret : v.core.secret = some e)
      (core : v'.core = { v.core with secret := some { e with
        approved := a, allowConfidentialCredits := b, allowNonConfidentialCredits := d } })
  | emptied {e e' p} (secret : v.core.secret = some e)
      (proved : Attested .zeroCiphertext c.ctx c.σ p)
      (update : ConfidentialTransfer.emptied p e = .ok e')
      (core : v'.core = { v.core with secret := some e' })
  | apply {e e' n b} (applies : c.Applies k n b) (secret : v.core.secret = some e)
      (endorsed : c.Endorsed v.base.owner)
      (update : ConfidentialTransfer.pendingApplied rt n b e = .ok e')
      (core : v'.core = { v.core with secret := some e' })
  | harvest (core : v'.core = { v.core with withheld := 0 })
  | collect {a : UInt64} {x : ℕ} (collects : c.instruction.collects = true)
      (thawed : v.base.isFrozen = false)
      (credit : a.toNat = v.base.amount.toNat + x)
      (core : v'.core = { v.core with base := { v.base with amount := a } })
  | secretHarvest {y} (fees : v.core.fees = some y)
      (core : v'.core = { v.core with fees := some ⟨.zeroed⟩ })
  | secretCollect {e e' f x p err b} (collects : c.instruction.collects = true)
      (thawed : v.base.isFrozen = false)
      (secret : v.core.secret = some e) (proved : FeeProved c f x e p)
      (credit : ConfidentialTransferFee.feeCredited rt err p.secondCiphertext b e = .ok e')
      (core : v'.core = { v.core with secret := some e' })

/-- Some effects, one after the other. -/
abbrev Effects (β : Book) (k : Pubkey) : View PodAccount → View PodAccount → Prop :=
  Relation.ReflTransGen fun v v' => Effect rt c β k v v' ∧ v.Grows v'

/-- What a move does to the mint at `M`. -/
inductive MintEffect (M : Pubkey) (m m' : View PodMint) : Prop
  | quiet (core : m'.mintCore = m.mintCore)
  | rewrite {r} (rewrites : c.instruction.Rewrites m.records r)
      (core : m'.mintCore = { m.mintCore with records := r })
  | withheld {n : ℕ} (core : m'.mintCore = { m.mintCore with withheld := n })
  | secretFees {k x x'} (config : m.mintCore.secretFees = some (k, x))
      (core : m'.mintCore = { m.mintCore with secretFees := some (k, x') })
  | setFee {older newer} {bps : UInt16} {max : UInt64} (head : c.key? 0 = some M)
      (sets : c.instruction = .setTransferFee bps max)
      (config : m.mintCore.fees = some (older, newer))
      (valid : bps.toNat ≤ Token.TransferFee.maxFeeBasisPoints)
      (core : m'.mintCore = { m.mintCore with
        fees := some (if newer.epoch ≤ c.ctx.epoch then newer else older,
          ⟨TransferFee.twoEpochsAhead c.ctx.epoch, max, bps⟩) })
  | pause {b} (head : c.key? 0 = some M) (toggles : c.instruction = if b then .pause else .resume)
      (core : m'.mintCore = { m.mintCore with paused := b })
  | rotate {e p} (config : m.mintCore.mintBurn = some e)
      (proved : Attested .ciphertextCiphertextEquality c.ctx c.σ p)
      (checked : ConfidentialMintBurn.checkRotation p e = .ok ())
      (core : m'.mintCore = { m.mintCore with mintBurn := some { e with
        supplyElgamalPubkey := p.secondPubkey, confidentialSupply := p.secondCiphertext } })
  | restate {e x} (config : m.mintCore.mintBurn = some e)
      (core : m'.mintCore = { m.mintCore with mintBurn := some { e with decryptableSupply := x } })
  | applyBurn {e e'} (config : m.mintCore.mintBurn = some e)
      (update : ConfidentialMintBurn.burnApplied rt e = .ok e')
      (core : m'.mintCore = { m.mintCore with mintBurn := some e' })

/-- What a move does at the key `k`. -/
inductive Change (β : Book) (k : Pubkey) : Contents → Contents → Prop
  | same {x} : Change β k x x
  | account {v v'} (h : Effects rt c β k v v') : Change β k (.account v) (.account v')
  | mint {m m'} (h : MintEffect rt c k m m') (keeps : m.Keeps m') : Change β k (.mint m) (.mint m')
  | openAccount {v m} (opens : c.isInitializeAccount = true) (mint : β.Mint v.base.mint m)
      (required : ∀ t u, (m.ext t).isSome = true → u ∈ t.requiredInitAccountExtensions →
        (v.ext u).isSome = true)
      (native : v.base.isNative = true ↔ v.base.mint = Keys.nativeMint)
      (core : v.core = ⟨{ v.base with
        delegate := .none, delegatedAmount := 0, closeAuthority := .none },
        0, none, none, false, false⟩) : Change β k .other (.account v)
  | closeAccount {v d} (closes : c.Closes k) (closable : c.Closable v d) :
      Change β k (.account v) .other
  | openMint {m} (opens : c.Initializes k m) (ne : k ≠ Keys.nativeMint)
      (fees : ∀ o n, m.mintCore.fees = some (o, n) → o = n ∧
        n.transferFeeBasisPoints.toNat ≤ Token.TransferFee.maxFeeBasisPoints)
      (records : m.mintCore.records.Fresh) : Change β k .other (.mint m)
  | openNativeMint {m} (opens : c.instruction = .createNativeMint) (native : k = Keys.nativeMint)
      (bare : m.Bare) : Change β k .other (.mint m)
  | closeMint {m} (closes : c.Closes k) (closable : (m.ext .mintCloseAuthority).isSome = true)
      (supply : m.base.supply = 0) : Change β k (.mint m) .other

/-! ## Effects of a trade -/

/-- What a trade does to a token account. -/
inductive Exchange (v v' : View PodAccount) : Prop
  | sent {x a q : UInt64} {p} (movable : v.get NonTransferableAccount = none)
      (thawed : v.base.isFrozen = false) (guarded : c.Guarded v) (by' : c.SpentBy v x p q)
      (debit : a.toNat + x.toNat = v.base.amount.toNat)
      (core : v'.core = { v.core with
        base := { v.base with amount := a, delegate := p, delegatedAmount := q } })
  | received {x fee a : UInt64} (thawed : v.base.isFrozen = false) (part : fee ≤ x)
      (credit : a.toNat + fee.toNat = v.base.amount.toNat + x.toNat)
      (core : v'.core = { v.core with
        base := { v.base with amount := a }, withheld := v.withheld + fee.toNat })
  | burned {x a q : UInt64} {p} (isBurn : c.isBurn = true) (notNative : v.base.isNative = false)
      (thawed : v.base.isFrozen = false) (guarded : c.Guarded v) (by' : c.SpentBy v x p q)
      (debit : a.toNat + x.toNat = v.base.amount.toNat)
      (core : v'.core = { v.core with
        base := { v.base with amount := a, delegate := p, delegatedAmount := q } })
  | deposited {x a : UInt64} {e e'} (notNative : v.base.isNative = false)
      (movable : v.get NonTransferableAccount = none) (thawed : v.base.isFrozen = false)
      (endorsed : c.Endorsed v.base.owner) (debit : a.toNat + x.toNat = v.base.amount.toNat)
      (secret : v.core.secret = some e) (credit : ConfidentialTransfer.deposited rt x e = .ok e')
      (core : v'.core = { v.core with base := { v.base with amount := a }, secret := some e' })
  | withdrawn {x a : UInt64} {e e' p eo ro as as' b} (notNative : v.base.isNative = false)
      (movable : v.get NonTransferableAccount = none) (thawed : v.base.isFrozen = false)
      (endorsed : c.Endorsed v.base.owner) (credit : a.toNat = v.base.amount.toNat + x.toNat)
      (secret : v.core.secret = some e)
      (proved : verifyWithdrawProof c.ctx c.σ eo ro as = .ok (p, as'))
      (debit : ConfidentialTransfer.withdrawn rt x p b e = .ok e')
      (core : v'.core = { v.core with base := { v.base with amount := a }, secret := some e' })
  | minted {x a : UInt64} (notNative : v.base.isNative = false)
      (thawed : v.base.isFrozen = false) (credit : a.toNat = v.base.amount.toNat + x.toNat)
      (core : v'.core = { v.core with base := { v.base with amount := a } })
  | secretSent {m e e' g g' y y'} (movable : v.get NonTransferableAccount = none)
      (thawed : v.base.isFrozen = false) (endorsed : c.Endorsed v.base.owner)
      (unguarded : c.Unguarded v) (secret : v.core.secret = some e)
      (moved : SecretlyMoved rt c m false e e' g g' y y')
      (core : v'.core = { v.core with secret := some e' })
  | secretReceived {m e e' g g' y'} (thawed : v.base.isFrozen = false)
      (secret : v.core.secret = some g)
      (moved : SecretlyMoved rt c m false e e' g g' v.core.fees y')
      (core : v'.core = { v.core with secret := some g', fees := y' })
  | secretReturned {m e g g' y'} (movable : v.get NonTransferableAccount = none)
      (thawed : v.base.isFrozen = false) (endorsed : c.Endorsed v.base.owner)
      (unguarded : c.Unguarded v) (secret : v.core.secret = some e)
      (moved : SecretlyMoved rt c m true e g g g' v.core.fees y')
      (core : v'.core = { v.core with secret := some g', fees := y' })
  | secretMinted {e e' p t i eo vo ro as as'} (thawed : v.base.isFrozen = false)
      (secret : v.core.secret = some e)
      (proved : verifyMintProof c.ctx c.σ eo vo ro as = .ok (p, as'))
      (credit : ConfidentialMintBurn.mintedTo rt t p i e = .ok e')
      (core : v'.core = { v.core with secret := some e' })
  | secretBurned {e e' p i eo vo ro as as'} (thawed : v.base.isFrozen = false)
      (endorsed : c.Endorsed v.base.owner) (unguarded : c.Unguarded v)
      (secret : v.core.secret = some e)
      (proved : verifyBurnProof c.ctx c.σ eo vo ro as = .ok (p, as'))
      (debit : ConfidentialMintBurn.burnedFrom rt p i e = .ok e')
      (core : v'.core = { v.core with secret := some e' })

/-- What a trade does to a mint that makes or destroys tokens. -/
inductive MintExchange (m m' : View PodMint) : Prop
  | burned {x n : UInt64} (running : m.paused = false)
      (supply : n.toNat + x.toNat = m.base.supply.toNat)
      (core : m'.mintCore = { m.mintCore with supply := n })
  | minted {x n : UInt64} (authority : m.authority .mintTokens ≠ none)
      (openly : m.mintCore.mintBurn = none) (running : m.paused = false)
      (supply : n.toNat = m.base.supply.toNat + x.toNat)
      (core : m'.mintCore = { m.mintCore with supply := n })
  | secretMinted {u u' p i eo vo ro as as'} (authority : m.authority .mintTokens ≠ none)
      (running : m.paused = false) (secret : m.mintCore.mintBurn = some u)
      (proved : verifyMintProof c.ctx c.σ eo vo ro as = .ok (p, as'))
      (supply : ConfidentialMintBurn.supplyMinted rt p i u = .ok u')
      (core : m'.mintCore = { m.mintCore with mintBurn := some u' })
  | secretBurned {u u' p t eo vo ro as as'} (running : m.paused = false)
      (secret : m.mintCore.mintBurn = some u)
      (proved : verifyBurnProof c.ctx c.σ eo vo ro as = .ok (p, as'))
      (supply : ConfidentialMintBurn.supplyBurned rt t p u = .ok u')
      (core : m'.mintCore = { m.mintCore with mintBurn := some u' })

/-- What a trade between the accounts `s` and `d` does at the key `k`. -/
inductive Deal (s d k : Pubkey) : Contents → Contents → Prop
  | same {x} : Deal s d k x x
  | account {v v'} (party : k = s ∨ k = d) (h : Exchange rt c v v') (grows : v.Grows v') :
      Deal s d k (.account v) (.account v')
  | mint {m m'} (h : MintExchange rt c m m') (keeps : m.Keeps m') : Deal s d k (.mint m) (.mint m')

variable {rt c} {β β' : Book} {k : Pubkey}

theorem Book.contents_put (β : Book) (a k : Pubkey) (x : Contents) :
    ((β.put a x) k).contents = if k = a then x else (β k).contents := by
  by_cases h : k = a
  · subst h
    simp
  · rw [Book.put_of_ne _ _ h, if_neg h]

theorem Book.contents_set (β : Book) (a k : Pubkey) (e : Entry) :
    ((β.set a e) k).contents = if k = a then e.contents else (β k).contents := by
  by_cases h : k = a
  · subst h
    simp
  · rw [Book.set_of_ne _ _ h, if_neg h]

/-- One effect on the account at `a`, seen from `k`. -/
theorem Change.of_effect {a : Pubkey} {v v' : View PodAccount} (held : β.Account a v)
    (h : Effect rt c β a v v') (grows : v.Grows v') :
    Change rt c β k (β k).contents (if k = a then .account v' else (β k).contents) := by
  split
  · rename_i hk
    rw [hk, show (β a).contents = _ from held]
    exact .account (.single ⟨h, grows⟩)
  · exact .same

/-- One effect on the mint at `M`, seen from `k`. -/
theorem Change.of_mintEffect {M : Pubkey} {m m' : View PodMint} (held : β.Mint M m)
    (h : MintEffect rt c M m m') (keeps : m.Keeps m') :
    Change rt c β k (β k).contents (if k = M then .mint m' else (β k).contents) := by
  split
  · rename_i hk
    rw [hk, show (β M).contents = _ from held]
    exact .mint h keeps
  · exact .same

/-- An effect on an account and one on a mint. -/
theorem Change.of_effects {a M : Pubkey} {v v' : View PodAccount} {m m' : View PodMint}
    (held : β.Account a v) (h : Effect rt c β a v v') (grows : v.Grows v') (mint : β.Mint M m)
    (h' : MintEffect rt c M m m') (keeps : m.Keeps m') :
    Change rt c β k (β k).contents
      (if k = M then .mint m' else if k = a then .account v' else (β k).contents) := by
  split
  · rename_i hk
    rw [hk, show (β M).contents = _ from mint]
    exact .mint h' keeps
  · exact of_effect held h grows

/-- Effects on two accounts, which may be the same. -/
theorem Change.of_two {a d : Pubkey} {v v' w w' : View PodAccount} (held : β.Account a v)
    (h : Effect rt c β a v v') (grows : v.Grows v') (target : (β.put a (.account v')).Account d w)
    (h' : Effect rt c β d w w') (grows' : w.Grows w') :
    Change rt c β k (β k).contents
      (if k = d then .account w' else if k = a then .account v' else (β k).contents) := by
  split
  · rename_i hk
    subst hk
    by_cases hka : k = a
    · subst hka
      obtain rfl := target.unique (Book.account_put ..)
      rw [show (β k).contents = _ from held]
      exact .account ((Relation.ReflTransGen.single ⟨h, grows⟩).tail ⟨h', grows'⟩)
    · have hw : (β k).contents = .account w := by
        rw [Book.Account, Book.contents_put, if_neg hka] at target
        exact target
      rw [hw]
      exact .account (.single ⟨h', grows'⟩)
  · exact of_effect held h grows

/-- Accounts whose hidden fees are gathered. -/
theorem Gather.effects {M : Pubkey} {x x' : PodElGamalCiphertext} (h : Gather rt M x β x' β')
    (β₀ : Book) :
    (β' k).contents = (β k).contents ∨ ∃ v v', (β k).contents = .account v ∧
      (β' k).contents = .account v' ∧ Effects rt c β₀ k v v' := by
  induction h with
  | nil => exact .inl rfl
  | @cons _ _ _ β β' a v v' y held _ fees _ core grows _ ih =>
    rw [Book.contents_put] at ih
    split at ih
    · rename_i hk
      subst hk
      have hstep : Effects rt c β₀ k v v' := .single ⟨.secretHarvest fees core, grows⟩
      rcases ih with ih | ⟨w, w', hw, hw', hrest⟩
      · exact .inr ⟨v, v', held, ih, hstep⟩
      · obtain rfl := Contents.account.inj hw
        exact .inr ⟨v, w', held, hw', hstep.trans hrest⟩
    · exact ih

/-- Every move, seen from one key. -/
theorem Move.change (h : Move rt c β β') (k : Pubkey) :
    Change rt c β k (β k).contents (β' k).contents := by
  cases h with
  | account held core grows =>
    rw [Book.contents_put]
    exact .of_effect held (.quiet core) grows
  | allowance resets held thawed none guarded core grows =>
    rw [Book.contents_put]
    exact .of_effect held (.allowance resets thawed none guarded core) grows
  | owner resets held thawed unlocked mutable core grows =>
    rw [Book.contents_put]
    exact .of_effect held (.owner resets thawed unlocked mutable core) grows
  | closer held thawed guarded core grows =>
    rw [Book.contents_put]
    exact .of_effect held (.closer thawed guarded core) grows
  | state held notNative valid thaws core grows =>
    rw [Book.contents_put]
    exact .of_effect held (.state notNative valid thaws core) grows
  | lock held outside toggles core grows =>
    rw [Book.contents_put]
    exact .of_effect held (.lock outside toggles core) grows
  | @syncNative _ v _ r _ held native _ more core grows =>
    rw [Book.contents_put]
    have hnative : v.base.isNative = true := by
      rw [PodAccount.isNative, ← PodCOption.isSome_toOption, native, Option.isSome_some]
    exact .of_effect held (.native hnative hnative more core) grows
  | grow n held _ core grows =>
    rw [Book.contents_set]
    exact .of_effect held (.quiet core) grows
  | growNative n held native _ _ core grows =>
    rw [Book.contents_set]
    exact .of_effect held (.native native rfl (UInt64.le_refl _) core) grows
  | growSecret n held _ _ core grows =>
    rw [Book.contents_set]
    exact .of_effect held (.quiet core) grows
  | pay =>
    rw [Book.contents_pay]
    exact .same
  | @openAccount a v m opens other mint required native empty _ core =>
    rw [Book.contents_put]
    split
    · rename_i hk
      subst hk
      rw [other]
      exact .openAccount opens mint required native core
    · exact .same
  | closeAccount closes given given' ne held closable can =>
    rw [Book.contents_set, Book.contents_pay]
    split
    · rename_i hk
      subst hk
      rw [show (β k).contents = _ from held]
      exact .closeAccount closes closable
    · exact .same
  | configure configures held at' mint confidential chosen new fees core grows =>
    rw [Book.contents_put]
    exact .of_effect held
      (.configure configures (at' ▸ mint) confidential chosen new fees core) grows
  | setting held secret core grows =>
    rw [Book.contents_put]
    exact .of_effect held (.setting secret core) grows
  | emptied held secret proved update core grows =>
    rw [Book.contents_put]
    exact .of_effect held (.emptied secret proved update core) grows
  | apply applies held secret endorsed update core grows =>
    rw [Book.contents_put]
    exact .of_effect held (.apply applies secret endorsed update core) grows
  | harvest held at' mint extended core core' grows keeps =>
    rw [Book.contents_put, Book.contents_put]
    exact .of_effects held (.harvest core) grows mint (.withheld core') keeps
  | collectMint collects held at' mint extended thawed credit core core' grows keeps =>
    rw [Book.contents_put, Book.contents_put]
    exact .of_effects held (.collect collects thawed credit core) grows mint (.withheld core') keeps
  | collect collects source at' mint extended core target same thawed credit core' grows grows' =>
    rw [Book.contents_put, Book.contents_put]
    exact .of_two source (.harvest core) grows target (.collect collects thawed credit core') grows'
  | secretHarvest held at' mint fees config sum core core' grows keeps =>
    rw [Book.contents_put, Book.contents_put]
    exact .of_effects held (.secretHarvest fees core) grows mint (.secretFees config core') keeps
  | secretCollectMint collects held at' mint thawed secret config proved credit core core' grows
      keeps =>
    rw [Book.contents_put, Book.contents_put]
    exact .of_effects held (.secretCollect collects thawed secret proved credit core) grows mint
      (.secretFees config core') keeps
  | @secretCollect β₁ d M v v' m e e' f x p err b collects gathered mint config held at' thawed
      secret proved credit core grows =>
    have hlast : Effect rt c β d v v' := .secretCollect collects thawed secret proved credit core
    rw [Book.contents_put]
    rcases gathered.effects (c := c) (k := k) β with hsame | ⟨w, w', hw, hw', hgather⟩
    · split
      · rename_i hk
        subst hk
        rw [← hsame, show (β₁ k).contents = _ from held]
        exact .account (.single ⟨hlast, grows⟩)
      · rw [hsame]
        exact .same
    · rw [hw]
      split
      · rename_i hk
        subst hk
        obtain rfl := Contents.account.inj (hw'.symm.trans held)
        exact .account (hgather.tail ⟨hlast, grows⟩)
      · rw [hw']
        exact .account hgather
  | mint n held core keeps =>
    rw [Book.contents_set]
    exact .of_mintEffect held (.quiet core) keeps
  | rewrite n rewrites held core keeps =>
    rw [Book.contents_set]
    exact .of_mintEffect held (.rewrite rewrites core) keeps
  | setFee head sets held config valid core keeps =>
    rw [Book.contents_put]
    exact .of_mintEffect held (.setFee head sets config valid core) keeps
  | pause head toggles held core keeps =>
    rw [Book.contents_put]
    exact .of_mintEffect held (.pause head toggles core) keeps
  | rotate held config proved checked core keeps =>
    rw [Book.contents_put]
    exact .of_mintEffect held (.rotate config proved checked core) keeps
  | restate held config core keeps =>
    rw [Book.contents_put]
    exact .of_mintEffect held (.restate config core) keeps
  | applyBurn held config update core keeps =>
    rw [Book.contents_put]
    exact .of_mintEffect held (.applyBurn config update core) keeps
  | @openMint M m opens other ne supply withheld fees secretFees mintBurn records =>
    rw [Book.contents_put]
    split
    · rename_i hk
      subst hk
      rw [other]
      exact .openMint opens ne fees records
    · exact .same
  | openNativeMint n opens other bare supply =>
    rw [Book.contents_set]
    split
    · rename_i hk
      rw [hk, other]
      exact .openNativeMint opens rfl bare
    · exact .same
  | closeMint closes given given' ne held closable supply can =>
    rw [Book.contents_set, Book.contents_pay]
    split
    · rename_i hk
      subst hk
      rw [show (β k).contents = _ from held]
      exact .closeMint closes closable supply
    · exact .same

/-! ## Trades, seen from one key -/

theorem Book.contents_payIf (β : Book) (b : Bool) (s d : Pubkey) (x : UInt64) (k : Pubkey) :
    ((if b then β.pay s d x else β) k).contents = (β k).contents := by
  split
  · exact Book.contents_pay ..
  · rfl

/-- One account and a mint. -/
theorem Deal.of_two {a M : Pubkey} {v v' : View PodAccount} {m m' : View PodMint}
    (held : β.Account a v) (h : Exchange rt c v v') (grows : v.Grows v') (mint : β.Mint M m)
    (h' : MintExchange rt c m m') (keeps : m.Keeps m') :
    Deal rt c a a k (β k).contents
      (if k = M then .mint m' else if k = a then .account v' else (β k).contents) := by
  split
  · rename_i hk
    rw [hk, show (β M).contents = _ from mint]
    exact .mint h' keeps
  · split
    · rename_i hk
      rw [hk, show (β a).contents = _ from held]
      exact .account (.inl rfl) h grows
    · exact .same

/-- One account. -/
theorem Deal.of_one {a : Pubkey} {v v' : View PodAccount} (held : β.Account a v)
    (h : Exchange rt c v v') (grows : v.Grows v') :
    Deal rt c a a k (β k).contents (if k = a then .account v' else (β k).contents) := by
  split
  · rename_i hk
    rw [hk, show (β a).contents = _ from held]
    exact .account (.inl rfl) h grows
  · exact .same

/-- Every trade, seen from one key. -/
theorem Trade.deal {s d : Pubkey} {hook : Option Pubkey} (h : Trade rt c s d hook β β')
    (k : Pubkey) : Deal rt c s d k (β k).contents (β' k).contents := by
  cases h with
  | transfer head last ne spends notBurn source target mint consults movable thawed thawed'
      guarded by'
      part debit credit pays core core' grows grows' =>
    rw [Book.contents_put, Book.contents_put, Book.contents_payIf]
    split
    · rename_i hk
      rw [hk, show (β d).contents = _ from target]
      exact .account (.inr rfl) (.received thawed' part credit core') grows'
    · split
      · rename_i hk
        rw [hk, show (β s).contents = _ from source]
        exact .account (.inl rfl) (.sent movable thawed guarded by' debit core) grows
      · exact .same
  | selfTransfer => exact .same
  | burn head isBurn source at' mint running notNative thawed guarded by' debit supply core core'
      grows keeps =>
    rw [Book.contents_put, Book.contents_put]
    exact .of_two source (.burned isBurn notNative thawed guarded by' debit core) grows mint
      (.burned running supply core') keeps
  | deposit head spends still held at' mint openly running notNative movable thawed endorsed
      debit secret
      credit core grows =>
    rw [Book.contents_put]
    exact .of_one held (.deposited notNative movable thawed endorsed debit secret credit core) grows
  | withdraw head spends still held at' mint openly running notNative movable thawed endorsed credit
      secret proved debit core grows =>
    rw [Book.contents_put]
    exact .of_one held
      (.withdrawn notNative movable thawed endorsed credit secret proved debit core) grows
  | mintTo head spends still held at' mint authority openly running notNative thawed credit
      supply core
      core' grows keeps =>
    rw [Book.contents_put, Book.contents_put]
    exact .of_two held (.minted notNative thawed credit core) grows mint
      (.minted authority openly running supply core') keeps
  | @secretTransfer _ _ _ M v v' w w' m e e' g g' y' head last spends source at' mint
      running movable
      thawed endorsed unguarded secret core target same thawed' secret' moved core' grows grows' =>
    rw [Book.contents_put, Book.contents_put]
    by_cases hsd : s = d
    · -- debit and credit of one account
      subst hsd
      obtain rfl := target.unique (Book.account_put ..)
      rw [core] at secret' moved core'
      obtain rfl := Option.some.inj secret'
      rw [beq_self_eq_true] at moved
      have hcore : w'.core = { v.core with secret := some g', fees := y' } := core'
      split
      · rename_i hk
        rw [hk, show (β s).contents = _ from source]
        exact .account (.inl rfl)
          (.secretReturned movable thawed endorsed unguarded secret moved hcore)
          (grows.trans grows')
      · exact .same
    · have hd : (β d).contents = .account w := by
        rw [Book.Account, Book.contents_put, if_neg (Ne.symm hsd)] at target
        exact target
      rw [beq_eq_false_iff_ne.mpr hsd] at moved
      split
      · rename_i hk
        rw [hk, hd]
        exact .account (.inr rfl) (.secretReceived thawed' secret' moved core') grows'
      · split
        · rename_i hk
          rw [hk, show (β s).contents = _ from source]
          exact .account (.inl rfl)
            (.secretSent movable thawed endorsed unguarded secret moved core) grows
        · exact .same
  | secretMint head spends still held at' mint authority running thawed secret secret' proved
      credit supply
      core core' grows keeps =>
    rw [Book.contents_put, Book.contents_put]
    exact .of_two held (.secretMinted thawed secret proved credit core) grows mint
      (.secretMinted authority running secret' proved supply core') keeps
  | secretBurn head spends still held at' mint running thawed endorsed unguarded secret
      secret' proved
      debit supply core core' grows keeps =>
    rw [Book.contents_put, Book.contents_put]
    exact .of_two held (.secretBurned thawed endorsed unguarded secret proved debit core) grows mint
      (.secretBurned running secret' proved supply core') keeps

end Effects

end SolanaEasy.Token
