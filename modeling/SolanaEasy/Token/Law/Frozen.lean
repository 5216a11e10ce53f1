import SolanaEasy.Token.Run
import SolanaEasy.Token.Hidden

/-!
# Frozen accounts — nothing moves before the thaw

While an account is frozen no instruction but `ThawAccount` changes its base or what
its hidden balances add up to, whoever signs and wherever the account is passed. It
may still be closed, when it is empty.
-/

namespace SolanaEasy.Token

open Processor

section Frozen

variable {l : ℕ} {rt : Runtime} {R : Reading l rt} {c : Call} {k : Pubkey}

/-- A frozen account that is not native keeps its base and its hidden total. -/
def StaysFrozen (R : Reading l rt) (v v' : View PodAccount) : Prop :=
  v.base.isNative = false → v.base.isFrozen = true →
    v'.base = v.base ∧ v'.core.hidden R = v.core.hidden R

/-- Handlers that ask for an account that is not frozen. -/
theorem StaysFrozen.of_thawed {v v' : View PodAccount} (h : v.base.isFrozen = false) :
    StaysFrozen R v v' := by
  intro _ hfrozen
  rw [h] at hfrozen
  cases hfrozen

theorem Effect.staysFrozen {β : Book} {v v' : View PodAccount} (hR : R.Sound c.ctx c.σ)
    (hthaw : c.instruction ≠ .thawAccount) (h : Effect rt c β k v v') : StaysFrozen R v v' := by
  rcases h.hidden_eq hR with hhidden | ⟨_, hthawed⟩
  · cases h with
    | allowance _ thawed => exact .of_thawed thawed
    | owner _ thawed => exact .of_thawed thawed
    | closer thawed => exact .of_thawed thawed
    | state _ _ thaws => exact fun _ hfrozen => absurd (thaws hfrozen) hthaw
    | native native =>
      intro hnot
      rw [native] at hnot
      cases hnot
    | collect _ thawed => exact .of_thawed thawed
    | quiet core | lock _ _ core | configure _ _ _ _ _ _ core | setting _ core | emptied _ _ _ core
    | apply _ _ _ _ core | harvest core | secretHarvest _ core | secretCollect _ _ _ _ _ core =>
      exact fun _ _ => ⟨(congrArg Core.base core :), hhidden⟩
  · exact .of_thawed hthawed

theorem Exchange.thawed {v v' : View PodAccount} (h : Exchange rt c v v') :
    v.base.isFrozen = false := by
  cases h <;> assumption

theorem respects_staysFrozen (hR : R.Sound c.ctx c.σ) (hthaw : c.instruction ≠ .thawAccount) :
    Respects rt c k (StaysFrozen R) where
  refl _ _ _ := ⟨rfl, rfl⟩
  trans := by
    intro u v w huv hvw hnative hfrozen
    obtain ⟨hbase, hhidden⟩ := huv hnative hfrozen
    obtain ⟨hbase', hhidden'⟩ := hvw (by rwa [hbase]) (by rwa [hbase])
    exact ⟨hbase'.trans hbase, hhidden'.trans hhidden⟩
  effect h _ := h.staysFrozen hR hthaw
  exchange h _ := .of_thawed h.thawed
  flag v _ _ := ⟨(congrArg Core.base (v.core_flag false) :),
    Core.hidden_congr (congrArg Core.secret (v.core_flag false) :)⟩

end Frozen

/-- A frozen account keeps all that it holds and all that decides over it, or is closed
when it is empty. -/
theorem frozen_unchanged {l : ℕ} {rt : Runtime} (R : Reading l rt) {c : Call} {σ' : Ledger}
    (h : Reachable rt (fun _ => True) c.σ) (hR : R.Sound c.ctx c.σ)
    (hthaw : c.instruction ≠ .thawAccount) (hrun : c.run rt = .ok σ') {k : Pubkey}
    {v : View PodAccount} (held : c.σ.book.Account k v) (hnative : v.base.isNative = false)
    (hfrozen : v.base.isFrozen = true) :
    (∃ v', σ'.book.Account k v' ∧ v'.base = v.base ∧ v'.core.hidden R = v.core.hidden R) ∨
      (c.Closes k ∧ (σ'.book k).contents = .other ∧ v.base.amount = 0) := by
  have hcourse := (run_course h.wf hrun).2
  rcases hcourse.account (respects_staysFrozen hR hthaw) held with
    ⟨v', held', hstays⟩ | ⟨hother, hcloses, v₁, d, hstays, hclosable⟩
  · exact .inl ⟨v', held', hstays hnative hfrozen⟩
  · have hbase := (hstays hnative hfrozen).1
    refine .inr ⟨hcloses, hother, ?_⟩
    rw [← hbase]
    exact hclosable.empty (by rwa [hbase])

/-- A frozen account that has received 100 tokens, of which one is withheld. -/
def frozenLedger : Ledger :=
  scripted (.modular 2)
    [(.plain, [⟨1, false⟩], .initializeTransferFeeConfig none none 100 50),
     (.plain, [⟨1, false⟩], .initializeMint2 6 5 (some 5)),
     (.plain, [⟨2, false⟩, ⟨1, false⟩], .initializeAccount3 7),
     (.plain, [⟨3, false⟩, ⟨1, false⟩], .initializeAccount3 8),
     (.plain, [⟨1, false⟩, ⟨3, false⟩, ⟨5, true⟩], .mintTo 500),
     (.plain, [⟨3, false⟩, ⟨1, false⟩, ⟨2, false⟩, ⟨8, true⟩], .transferChecked 100 6),
     (.plain, [⟨2, false⟩, ⟨1, false⟩, ⟨5, true⟩], .freezeAccount)]
    (blank [(1, 278), (2, 178), (3, 178)])

def harvestCall : Call :=
  ⟨.plain, [⟨1, false⟩, ⟨2, false⟩], .harvestWithheldTokensToMint, frozenLedger⟩

/-- The fee is harvested, the amount stays. -/
theorem frozen_unchanged_scripted :
    ∃ v', (harvestCall.after (.modular 2)).book.Account 2 v' ∧ v'.base.amount = 99 := by
  have hreach : Reachable (.modular 2) (fun _ => True) frozenLedger :=
    .scripted (by decide) (fun _ _ _ => trivial) (by decide +kernel)
  obtain ⟨v, hv, hp⟩ := exists_account frozenLedger 2
    (fun v => decide (v.base.isNative = false ∧ v.base.isFrozen = true ∧ v.base.amount = 99))
    (by decide +kernel) (by decide +kernel)
  obtain ⟨hnative, hfrozen, hamount⟩ := of_decide_eq_true hp
  have hstart : harvestCall.σ = frozenLedger := by rw [harvestCall]
  have hrun : harvestCall.run (.modular 2) = .ok (harvestCall.after (.modular 2)) :=
    harvestCall.run_after (by decide +kernel)
  have hthaw : harvestCall.instruction ≠ .thawAccount := by rw [harvestCall]; exact nofun
  rcases frozen_unchanged (.trivial (.modular 2)) (c := harvestCall) (hstart ▸ hreach)
      (Reading.trivial_sound _ _ _) hthaw hrun (hstart ▸ hv) hnative hfrozen with
    ⟨v', hv', hbase, _⟩ | ⟨hcloses, _⟩
  · exact ⟨v', hv', by rw [hbase, hamount]⟩
  · exact absurd hcloses.2 (by rw [harvestCall]; exact nofun)

end SolanaEasy.Token
