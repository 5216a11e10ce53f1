import SolanaEasy.Token.Law.PendingBalance

/-!
# Applied pending balances — the counters that tell a client what it has missed

A client computes the balance that `ApplyPendingBalance` is to store from an earlier state of
the account, and names the credits it has seen there. Other instructions may run in between.
-/

namespace SolanaEasy.Token

open Processor ConfidentialTransfer ElGamal

section Since

variable {l : ℕ} {rt : Runtime} {P : Type} [AddCommGroup P] [Module (ZMod l) P]
  {C : Curve rt (ZMod l) P} {R : Reading l rt} {c : Call} {k : Pubkey} {β : Book}
  {e e' e'' : ConfidentialTransferAccount} {v v' : View PodAccount} {x : Credit}
  {cs cs' : List Credit}

/-! ## Credits since a state -/

/-- From `e` to `e'` the credits `cs` have joined the pending balance, and nothing has left it. -/
structure PendingSince (R : Reading l rt) (e e' : ConfidentialTransferAccount)
    (cs : List Credit) : Prop where
  lo : R.pt e.elgamalPubkey e'.pendingBalanceLo =
    R.pt e.elgamalPubkey e.pendingBalanceLo + (lowSum cs : ℤ)
  hi : R.pt e.elgamalPubkey e'.pendingBalanceHi =
    R.pt e.elgamalPubkey e.pendingBalanceHi + (highSum cs : ℤ)
  key : e'.elgamalPubkey = e.elgamalPubkey
  counter : e'.pendingBalanceCreditCounter.toNat =
    e.pendingBalanceCreditCounter.toNat + cs.length

theorem PendingKept.since (h : PendingKept e e') : PendingSince R e e' [] where
  lo := by rw [h.lo, lowSum, List.map_nil, List.sum_nil, Int.cast_zero, add_zero]
  hi := by rw [h.hi, highSum, List.map_nil, List.sum_nil, Int.cast_zero, add_zero]
  key := h.key
  counter := by rw [h.counter, List.length_nil, Nat.add_zero]

theorem PendingGrown.since (h : PendingGrown C R e e' x) : PendingSince R e e' [x] where
  lo := by rw [h.lo, lowSum, List.map_singleton, List.sum_singleton]
  hi := by rw [h.hi, highSum, List.map_singleton, List.sum_singleton]
  key := h.key
  counter := h.counter

theorem PendingSince.trans (h : PendingSince R e e' cs) (h' : PendingSince R e' e'' cs') :
    PendingSince R e e'' (cs ++ cs') where
  lo := by
    have hlo := h'.lo
    rw [h.key, h.lo] at hlo
    rw [hlo, lowSum, lowSum, lowSum, List.map_append, List.sum_append, Int.cast_add, add_assoc]
  hi := by
    have hhi := h'.hi
    rw [h.key, h.hi] at hhi
    rw [hhi, highSum, highSum, highSum, List.map_append, List.sum_append, Int.cast_add, add_assoc]
  key := h'.key.trans h.key
  counter := by rw [h'.counter, h.counter, List.length_append, Nat.add_assoc]

/-- What is pending is what was, and what was credited. -/
theorem PendingSince.pending (h : PendingSince R e e' cs) :
    R.pending e' = R.pending e + (((cs.map Credit.amount).sum : ℤ) : ZMod l) := by
  rw [Reading.pending, Reading.pending, h.key, h.lo, h.hi, sum_amount]
  push_cast
  ring

/-- The account at hand has been credited, as one that has a pending balance. -/
def PendingTracked (R : Reading l rt) (v v' : View PodAccount) : Prop :=
  ∀ e, v.core.secret = some e →
    ∃ e' cs, v'.core.secret = some e' ∧ PendingSince R e e' cs

theorem PendingTracked.of_secret (same : v'.core.secret = v.core.secret) :
    PendingTracked R v v' := fun e he => ⟨e, [], same.trans he, (PendingKept.refl e).since⟩

theorem PendingTracked.update (secret : v.core.secret = some e) (secret' : v'.core.secret = some e')
    (h : PendingSince R e e' cs) : PendingTracked R v v' := by
  intro g hg
  obtain rfl := Option.some.inj (secret.symm.trans hg)
  exact ⟨e', cs, secret', h⟩

theorem PendingTracked.trans {v'' : View PodAccount} (h : PendingTracked R v v')
    (h' : PendingTracked R v' v'') : PendingTracked R v v'' := by
  intro e he
  obtain ⟨e₁, cs, he₁, hsince⟩ := h e he
  obtain ⟨e₂, cs', he₂, hsince'⟩ := h' e₁ he₁
  exact ⟨e₂, cs ++ cs', he₂, hsince.trans hsince'⟩

/-- Nothing but `ApplyPendingBalance` empties a pending balance, and the owner asks for that. -/
theorem Effect.pendingTracked (h : Effect rt c β k v v') :
    PendingTracked R v v' ∨ (∃ n b, c.Applies k n b) ∧ c.Endorsed v.base.owner := by
  cases h with
  | quiet core | allowance _ _ _ _ core | owner _ _ _ _ core | closer _ _ core | state _ _ _ core
  | lock _ _ core | native _ _ _ core | harvest core | collect _ _ _ core | secretHarvest _ core =>
    exact .inl (.of_secret (congrArg Core.secret core :))
  | configure _ _ _ _ new _ core =>
    left
    intro e he
    rw [new] at he
    cases he
  | setting secret core =>
    exact .inl (.update secret (congrArg Core.secret core :)
      (PendingKept.since ⟨rfl, rfl, rfl, rfl, rfl⟩))
  | emptied secret proved update core =>
    exact .inl (.update secret (congrArg Core.secret core :) (emptied_kept update).since)
  | apply applies secret endorsed update core => exact .inr ⟨⟨_, _, applies⟩, endorsed⟩
  | secretCollect _ _ secret proved credit core =>
    exact .inl (.update secret (congrArg Core.secret core :) (feeCredited_kept credit).since)

theorem Exchange.pendingTracked (hC : C.Encodes) (hR : R.Sound c.ctx c.σ)
    (h : Exchange rt c v v') : PendingTracked R v v' := by
  cases h with
  | sent _ _ _ _ _ core | received _ _ _ core | burned _ _ _ _ _ _ core | minted _ _ _ core =>
    exact .of_secret (congrArg Core.secret core :)
  | deposited _ _ _ _ _ secret credit core =>
    obtain ⟨x, hx⟩ := deposited_credit (R := R) (c := c) credit
    exact .update secret (congrArg Core.secret core :) (hx.grown hC).since
  | withdrawn _ _ _ _ _ secret proved debit core =>
    exact .update secret (congrArg Core.secret core :) (withdrawn_kept debit).since
  | secretSent _ _ _ _ secret moved core =>
    exact .update secret (congrArg Core.secret core :) (moved.credit hR).1.since
  | secretReceived _ secret moved core =>
    obtain ⟨_, x, hx⟩ := moved.credit hR
    exact .update secret (congrArg Core.secret core :) (hx.grown hC).since
  | secretReturned _ _ _ _ secret moved core =>
    obtain ⟨hkept, x, hx⟩ := moved.credit hR
    exact .update secret (congrArg Core.secret core :) (hkept.since.trans (hx.grown hC).since)
  | secretMinted _ secret proved credit core =>
    obtain ⟨a, b, hparts⟩ := verifyMintProof_parts hR proved
    have hcredit : PendingCredit rt R c _ _ ⟨a, b, 0, 0, hparts.lo_lt, hparts.hi_lt,
      Nat.two_pow_pos _, Nat.two_pow_pos _⟩ := .mint proved credit hparts ⟨rfl, rfl⟩
    exact .update secret (congrArg Core.secret core :) (hcredit.grown hC).since
  | secretBurned _ _ _ secret proved debit core =>
    exact .update secret (congrArg Core.secret core :) (burnedFrom_kept debit).since

end Since

/-! ## The instruction -/

section Apply

variable {rt : Runtime} {c : Call} {k : Pubkey} {σ' : Ledger} {v : View PodAccount}

end Apply

/-! ## The client -/

section Client

variable {l : ℕ} {rt : Runtime} {P : Type} [AddCommGroup P] [Module (ZMod l) P]
  {C : Curve rt (ZMod l) P} {R : Reading l rt} {D : C.Decryption} {aes : AeKey} {s : ZMod l}
  {e : ConfidentialTransferAccount} {cs : List Credit}

end Client

/-! ## A credit that was missed

The client sees a deposit of 5; another of 7 comes before its payload is applied. -/

section Missed

def smallDeposit (x : UInt64) : List ProofInstruction × List AccountInfo × Instruction :=
  ([], [⟨2, false⟩, ⟨1, false⟩, ⟨7, true⟩], .deposit x 6)

theorem honest_smallDeposit {x : UInt64} : openReading.HonestStep (smallDeposit x) :=
  ⟨Instruction.noConfusion, by simp [smallDeposit]⟩

end Missed

/-- That no other instruction applies the balance in between is needed: where the payload lands
twice, with a deposit after the first time, the counters agree and the figure is wrong. -/
theorem apply_pending_balance_stale :
    (honestScript (.modular ristrettoOrder) (pendingSteps ++ [smallDeposit 5,
        ([], [⟨2, false⟩, ⟨7, true⟩], .applyPendingBalance 1 5), smallDeposit 7,
        ([], [⟨2, false⟩, ⟨7, true⟩], .applyPendingBalance 1 5)])
      (blank [(1, 235), (2, 465)])).any (fun σ => σ.checksAccount 2 fun v =>
        v.core.secret.any fun e =>
          decide (e.expectedPendingBalanceCreditCounter = e.actualPendingBalanceCreditCounter ∧
            AeKey.plain.decrypt e.decryptableAvailableBalance = some 5 ∧
            e.availableBalance = openPod 12)) = true := by
  decide +kernel

end SolanaEasy.Token
