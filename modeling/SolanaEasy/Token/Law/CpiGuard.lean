import SolanaEasy.Token.Hidden
import SolanaEasy.Token.Honest
import SolanaEasy.Token.Law.Spending

/-!
# CPI guard — what a locked account keeps

While another program calls, the owner of a locked account can neither take from it, nor let
anyone else act for it, nor unlock it. Deposits, withdrawals and the application of a pending
balance move value within an account, and its owner does not change while it is locked.
-/

namespace SolanaEasy.Token

open Processor

/-! ## Control -/

section Control

variable {rt : Runtime} {c : Call} {β : Book} {k : Pubkey} {v v' : View PodAccount}

/-- Nobody has come to control the account who did not, and it is locked. -/
structure Kept (v v' : View PodAccount) : Prop where
  locked : v'.locked = true
  owner : v'.base.owner = v.base.owner
  delegate : v'.base.delegate = v.base.delegate ∨ v'.base.delegate.toOption = none
  allowance : v'.base.delegatedAmount ≤ v.base.delegatedAmount
  closer : v'.base.closeAuthority = v.base.closeAuthority ∨ v'.base.closeAuthority.isSome = false

theorem Kept.refl (h : v.locked = true) : Kept v v :=
  ⟨h, rfl, .inl rfl, UInt64.le_refl _, .inl rfl⟩

theorem Kept.trans {w : View PodAccount} (h : Kept v v') (h' : Kept v' w) : Kept v w where
  locked := h'.locked
  owner := h'.owner.trans h.owner
  delegate := by
    rcases h'.delegate with hsame | hnone
    · rw [hsame]
      exact h.delegate
    · exact .inr hnone
  allowance := UInt64.le_trans h'.allowance h.allowance
  closer := by
    rcases h'.closer with hsame | hnone
    · rw [hsame]
      exact h.closer
    · exact .inr hnone

/-- What decides who controls an account. -/
def Core.control (a : Core) : Bool × Pubkey × PodCOption Pubkey × UInt64 × PodCOption Pubkey :=
  (a.locked, a.base.owner, a.base.delegate, a.base.delegatedAmount, a.base.closeAuthority)

theorem Kept.of_control (hlocked : v.locked = true) (h : v'.core.control = v.core.control) :
    Kept v v' := by
  simp only [Core.control, Prod.mk.injEq] at h
  obtain ⟨hsame, howner, hdelegate, hallowance, hcloser⟩ := h
  exact ⟨hsame.trans hlocked, howner, .inl hdelegate, UInt64.le_of_eq hallowance, .inl hcloser⟩

theorem Effect.kept (hcpi : c.ctx.inCpi = true) (h : Effect rt c β k v v')
    (hlocked : v.locked = true) : Kept v v' := by
  cases h with
  | @allowance p q resets thawed none guarded core =>
    have hnone := guarded hlocked hcpi
    have hbase : v'.base = { v.base with delegate := p, delegatedAmount := q } :=
      congrArg Core.base core
    refine ⟨(congrArg Core.locked core :).trans hlocked, by rw [hbase], .inr ?_, ?_, .inl ?_⟩
    · rw [hbase]
      exact hnone
    · rw [hbase, none hnone]
      exact UInt64.zero_le
    · rw [hbase]
  | @closer p thawed guarded core =>
    have hbase : v'.base = { v.base with closeAuthority := p } := congrArg Core.base core
    refine ⟨(congrArg Core.locked core :).trans hlocked, by rw [hbase], .inl ?_, ?_, .inr ?_⟩
    · rw [hbase]
    · rw [hbase]
      exact UInt64.le_refl _
    · rw [hbase]
      exact guarded hlocked hcpi
  | owner resets thawed unlocked =>
    rw [hlocked] at unlocked
    cases unlocked
  | lock outside =>
    rw [hcpi] at outside
    cases outside
  | quiet core => exact .of_control hlocked (congrArg Core.control core)
  | state _ _ _ core | native _ _ _ core | configure _ _ _ _ _ _ core | setting _ core
  | emptied _ _ _ core | apply _ _ _ _ core | harvest core | collect _ _ _ core
  | secretHarvest _ core | secretCollect _ _ _ _ _ core =>
    exact .of_control hlocked (by rw [core]; rfl)

/-- The guard, where it depends on who acts for the account. -/
theorem Call.Guarded.not_locked (h : c.Guarded v) (hcpi : c.ctx.inCpi = true)
    (hauthority : ∀ a, c.authority = some a → a = v.base.owner) : v.locked = false := by
  by_contra hlocked
  obtain ⟨a, ha, hne⟩ := h (by simpa using hlocked) hcpi
  exact hne (hauthority a ha)

theorem Call.Unguarded.not_locked (h : c.Unguarded v) (hcpi : c.ctx.inCpi = true) :
    v.locked = false := by
  by_contra hlocked
  rw [h (by simpa using hlocked)] at hcpi
  cases hcpi

theorem Exchange.kept (hcpi : c.ctx.inCpi = true)
    (hauthority : ∀ a, c.authority = some a → a = v.base.owner) (h : Exchange rt c v v')
    (hlocked : v.locked = true) : Kept v v' := by
  cases h with
  | sent _ _ guarded | burned _ _ _ guarded =>
    rw [guarded.not_locked hcpi hauthority] at hlocked
    cases hlocked
  | secretSent _ _ _ unguarded | secretReturned _ _ _ unguarded | secretBurned _ _ unguarded =>
    rw [unguarded.not_locked hcpi] at hlocked
    cases hlocked
  | received _ _ _ core | deposited _ _ _ _ _ _ _ core | withdrawn _ _ _ _ _ _ _ _ core
  | minted _ _ _ core | secretReceived _ _ _ core | secretMinted _ _ _ _ core =>
    exact .of_control hlocked (by rw [core]; rfl)

theorem Kept.flag (hlocked : v.locked = true) : Kept v (v.flag false) :=
  .of_control hlocked (by rw [View.core_flag]; rfl)

end Control

/-! ## Holdings -/

section Holdings

variable {l : ℕ} {rt : Runtime} {R : Reading l rt} {c : Call} {β : Book} {k : Pubkey}
  {v v' : View PodAccount}

/-- All that an account holds: in the open, pending and available. -/
def Core.held (R : Reading l rt) (a : Core) : ZMod l := a.base.amount.toNat + a.hidden R

/-- The same, as a number. -/
def Core.heldTotal (R : Reading l rt) (a : Core) : ℕ :=
  a.base.amount.toNat +
    (a.secret.map fun e => (R.pending e).val + (R.available e).val).getD 0

/-- Something is added to what is held, and nothing is taken. -/
def Core.Gains (R : Reading l rt) (a a' : Core) : Prop :=
  ∃ x : ℕ, x < 2 ^ 64 ∧ a'.held R = a.held R + x

theorem Core.cast_heldTotal [NeZero l] (a : Core) : ((a.heldTotal R : ℕ) : ZMod l) = a.held R := by
  rw [heldTotal, held, hidden]
  cases a.secret with
  | none => simp
  | some e => simp [Reading.balance]

/-- Numbers that are no larger than those of all tokens do not wrap. -/
theorem Core.Gains.total {a a' : Core} (h : a.Gains R a') (hl : a.heldTotal R + 2 ^ 64 ≤ l) :
    a.heldTotal R ≤ a'.heldTotal R := by
  have : NeZero l := ⟨by omega⟩
  obtain ⟨x, hx, heq⟩ := h
  rw [← cast_heldTotal, ← cast_heldTotal, ← Nat.cast_add, ZMod.natCast_eq_natCast_iff] at heq
  have hmod : (a.heldTotal R + x) % l = a.heldTotal R + x := Nat.mod_eq_of_lt (by omega)
  have hle : a'.heldTotal R % l ≤ a'.heldTotal R := Nat.mod_le ..
  rw [Nat.ModEq, hmod] at heq
  omega

/-- Outside of trades and payments of withheld fees. -/
theorem Effect.held_le (hR : R.Sound c.ctx c.σ) (hcollects : c.instruction.collects = false)
    (h : Effect rt c β k v v') :
    v.base.amount ≤ v'.base.amount ∧ v'.core.hidden R = v.core.hidden R := by
  refine ⟨h.amount_le, (h.hidden_eq hR).resolve_right ?_⟩
  rintro ⟨hcollects', -⟩
  rw [hcollects] at hcollects'
  cases hcollects'

theorem Core.Gains.of_amount_le (hle : v.base.amount ≤ v'.base.amount)
    (hidden : v'.core.hidden R = v.core.hidden R) : v.core.Gains R v'.core := by
  have hlt := v'.base.amount.toNat_lt
  rw [UInt64.le_iff_toNat_le] at hle
  obtain ⟨x, hx⟩ := Nat.exists_eq_add_of_le hle
  refine ⟨x, by omega, ?_⟩
  rw [held, held, hidden, show v'.core.base = v'.base from rfl, hx, Nat.cast_add]
  exact add_right_comm _ _ _

/-- A shift changes nothing of the sum. -/
theorem Shift.held_eq (hR : R.Sound c.ctx c.σ) (h : Shift rt c v v') :
    v'.core.held R = v.core.held R := by
  cases h with
  | @deposited x a e e' debit secret credit core =>
    obtain ⟨hpending, havailable⟩ := deposited_reads (R := R) credit
    rw [core, Core.held, Core.held, Core.hidden_of_secret rfl, Core.hidden_of_secret secret,
      Reading.balance, Reading.balance, hpending, havailable]
    show (a.toNat : ZMod l) + _ = (v.base.amount.toNat : ZMod l) + _
    rw [← debit]
    push_cast
    ring
  | @withdrawn x a e e' p eo ro as as' b credit secret proved debit core =>
    obtain ⟨hpending, havailable, -⟩ := withdrawn_reads hR proved debit
    rw [core, Core.held, Core.held, Core.hidden_of_secret rfl, Core.hidden_of_secret secret,
      Reading.balance, Reading.balance, hpending, havailable]
    show (a.toNat : ZMod l) + _ = (v.base.amount.toNat : ZMod l) + _
    rw [credit]
    push_cast
    ring
  | applied secret update core =>
    obtain ⟨hpending, havailable⟩ := pendingApplied_reads (R := R) update
    rw [core, Core.held, Core.held, Core.hidden_of_secret rfl, Core.hidden_of_secret secret,
      Reading.balance, Reading.balance, hpending, havailable]
    ring

theorem Core.Gains.of_eq {a a' : Core} (h : a'.held R = a.held R) : a.Gains R a' :=
  ⟨0, by omega, by rw [h, Nat.cast_zero, add_zero]⟩

/-- What reaches the pending balance. -/
theorem Core.Gains.of_balance {a : Core} {e e' : ConfidentialTransferAccount} {x : ℕ}
    {y : Option ConfidentialTransferFeeAmount} (secret : a.secret = some e) (hx : x < 2 ^ 64)
    (hpending : R.pending e' = R.pending e + x) (havailable : R.available e' = R.available e) :
    a.Gains R { a with secret := some e', fees := y } := by
  refine ⟨x, hx, ?_⟩
  rw [held, held, hidden_of_secret rfl, hidden_of_secret secret, Reading.balance,
    Reading.balance, hpending, havailable]
  ring

theorem Exchange.gains (hR : R.Sound c.ctx c.σ) (hcpi : c.ctx.inCpi = true)
    (hauthority : ∀ a, c.authority = some a → a = v.base.owner) (h : Exchange rt c v v')
    (hlocked : v.locked = true) : v.core.Gains R v'.core := by
  cases h with
  | sent _ _ guarded | burned _ _ _ guarded =>
    rw [guarded.not_locked hcpi hauthority] at hlocked
    cases hlocked
  | secretSent _ _ _ unguarded | secretReturned _ _ _ unguarded | secretBurned _ _ unguarded =>
    rw [unguarded.not_locked hcpi] at hlocked
    cases hlocked
  | @received x fee a thawed part credit core =>
    rw [UInt64.le_iff_toNat_le] at part
    refine .of_amount_le ?_ (Core.hidden_congr (congrArg Core.secret core :))
    rw [show v'.base = _ from congrArg Core.base core, UInt64.le_iff_toNat_le]
    show v.base.amount.toNat ≤ a.toNat
    omega
  | @minted x a notNative thawed credit core =>
    refine .of_amount_le ?_ (Core.hidden_congr (congrArg Core.secret core :))
    rw [show v'.base = _ from congrArg Core.base core, UInt64.le_iff_toNat_le, credit]
    exact Nat.le_add_right _ _
  | deposited _ _ _ _ debit secret credit core =>
    exact .of_eq ((Shift.deposited debit secret credit core).held_eq hR)
  | withdrawn _ _ _ _ credit secret proved debit core =>
    exact .of_eq ((Shift.withdrawn credit secret proved debit core).held_eq hR)
  | secretReceived thawed secret moved core =>
    obtain ⟨x, fee, net, hmoves⟩ := moved.reads hR
    rw [core]
    exact .of_balance secret hmoves.word hmoves.credit hmoves.still'
  | secretMinted thawed secret proved credit core =>
    obtain ⟨x, hx⟩ := verifyMintProof_shows hR proved
    obtain ⟨hpending, havailable⟩ := mintedTo_reads hx credit
    have hshort := hx.short
    rw [core]
    exact .of_balance secret (by omega) hpending havailable

end Holdings

/-! ## Instructions -/

section Instructions

variable {l : ℕ} {rt : Runtime} {R : Reading l rt} {c : Call} {β β' : Book} {k : Pubkey}
  {v v' : View PodAccount} {o : Pubkey}

/-- The key acts as the authority of the instruction: nobody else does where several may, and
what the instruction pays out are not the withheld fees of a mint. -/
structure Call.ActedBy (c : Call) (o : Pubkey) : Prop where
  authority : ∀ a, c.authority = some a → a = o
  collects : c.instruction.collects = false

theorem tracks_held (hR : R.Sound c.ctx c.σ) (hcollects : c.instruction.collects = false) :
    Tracks rt c k fun v v' => v.base.amount ≤ v'.base.amount ∧
      v'.core.hidden R = v.core.hidden R where
  refl _ := ⟨UInt64.le_refl _, rfl⟩
  trans h h' := ⟨UInt64.le_trans h.1 h'.1, h'.2.trans h.2⟩
  effect h _ := h.held_le hR hcollects

theorem Core.Gains.lowered {a : Core} {x : Contents} (h : a.Gains R v.core)
    (hlowered : Lowered (.account v) x) (hx : x = .account v') : a.Gains R v'.core := by
  cases hlowered with
  | same =>
    obtain rfl := Contents.account.inj hx
    exact h
  | account =>
    obtain rfl := Contents.account.inj hx
    rw [View.core_flag]
    exact h

/-- Nothing is taken from what a locked account holds. -/
theorem Course.gains (hR : R.Sound c.ctx c.σ) (hcpi : c.ctx.inCpi = true)
    (hacted : c.ActedBy v.base.owner) (h : Course rt c β β') (held : β.Account k v)
    (hlocked : v.locked = true) (held' : β'.Account k v') : v.core.Gains R v'.core := by
  cases h with
  | moves other h =>
    rcases h.account (tracks_held hR hacted.collects) held with ⟨w, hw, hle, hhidden⟩ | ⟨hother, -⟩
    · obtain rfl := hw.unique held'
      exact .of_amount_le hle hhidden
    · rw [Book.Account, hother] at held'
      cases held'
  | trade trades h rest =>
    have hdeal := h.deal k
    have hlowered := rest.lowered k
    rw [show _ = Contents.account v from held] at hdeal
    rcases hdeal.of_account with hsame | ⟨v₁, hv₁, hexchange, -⟩
    · rw [hsame] at hlowered
      exact (Core.Gains.of_eq rfl).lowered hlowered held'
    · rw [hv₁] at hlowered
      exact (hexchange.gains hR hcpi hacted.authority hlocked).lowered hlowered held'

end Instructions

/-! ## Closing -/

section Locked

end Locked

end SolanaEasy.Token
