import SolanaEasy.Lib.Whole
import SolanaEasy.Token.Law.Conservation

/-!
# No wraparound — hidden amounts are numbers

Conservation modulo `l` leaves room for hidden amounts that wrapped. Where `l` is
large enough they never do: what is hidden in an account or a mint stands for a
number of 64 bits, and these numbers, too, add up to the supply.
-/

namespace SolanaEasy.Token

section NoWrap

variable {l : ℕ} {rt : Runtime} {R : Reading l rt} {f : PodElGamalPubkey} {M : Pubkey}
  {σ : Ledger} {m : View PodMint} {k : Pubkey} {v : View PodAccount}

theorem Reachable.whole [NeZero l] (hl : 2 ^ 65 - 1 ≤ l)
    (h : Reachable rt (fun c => ¬ c.Closes M ∧ R.Sound c.ctx c.σ) σ) (held : σ.book.Mint M m)
    (hsome : (m.get ConfidentialTransferMint).isSome = true) (hkey : m.mintCore.FeeKey f) :
    (σ.book.register R f M).Whole := by
  have hfits : σ.book.Fits f M True :=
    ⟨fun n hn => held.unique hn ▸ hkey, fun _ _ _ => trivial⟩
  exact (h.registered (h.ne_nativeMint held hsome) f True hfits).whole hl Register.empty_whole

/-- The numbers that are hidden there, of the mint `M`. -/
def Contents.hiddenNumber (R : Reading l rt) (f : PodElGamalPubkey) (M : Pubkey) (x : Contents) :
    ℕ :=
  match x with
  | .account v =>
    if v.base.mint = M then
      ((v.core.secret.map fun e => (R.pending e).val + (R.available e).val).getD 0) +
        (R.fees f v.core.fees).val
    else 0
  | _ => 0

theorem Core.whole_eq (a : Core) :
    (a.holding R f).whole = a.base.amount.toNat + a.withheld +
      ((a.secret.map fun e => (R.pending e).val + (R.available e).val).getD 0 : ℕ) +
      (R.fees f a.fees).val := by
  cases hs : a.secret with
  | none => simp [Holding.whole, Core.holding, Core.secrets, Reading.fees, hs]
  | some e =>
    rw [Holding.whole, Core.pending_holding f hs, Core.available_holding f hs]
    simp only [Core.amount_holding, Core.withheld_holding, Core.withheld_secret_holding,
      Option.map_some, Option.getD_some, Nat.cast_add]
    ring

theorem Contents.whole_eq (x : Contents) :
    ((x.holding R f M).map Holding.whole).getD 0 =
      ((x.openly M + x.hiddenNumber R f M : ℕ) : ℤ) := by
  cases x with
  | other => rfl
  | mint m => rfl
  | account v =>
    rw [holding_account, openly, hiddenNumber]
    split
    · rw [Option.map_some, Option.getD_some, Core.whole_eq]
      simp only [View.base_core, View.withheld_core, Nat.cast_add]
      ring
    · rfl

/-- A number that is taken from a balance, where what is left is small. -/
theorem val_le_of_debit [NeZero l] (hl : 2 ^ 65 - 1 ≤ l) {a b : ZMod l} {x : ℕ} (hx : x < 2 ^ 64)
    (hb : Small b) (h : a = b + x) : b.val ≤ a.val := by
  have hsmall := hb.val_lt (by omega)
  rw [h, val_add_natCast (by omega)]
  exact Nat.le_add_right _ _

/-- A trade takes from an available balance no more than there is. -/
theorem Exchange.available_le [NeZero l] (hl : 2 ^ 65 - 1 ≤ l) {c : Call}
    (hR : R.Sound c.ctx c.σ) {v' : View PodAccount} {e e' : ConfidentialTransferAccount}
    (h : Exchange rt c v v') (hs : v.core.secret = some e) (hs' : v'.core.secret = some e') :
    (R.available e').val ≤ (R.available e).val := by
  have hkept : ∀ {g}, v.core.secret = some g → v'.core.secret = some g →
      (R.available e').val ≤ (R.available e).val := by
    intro g hg hg'
    obtain rfl := Option.some.inj (hs.symm.trans hg)
    obtain rfl := Option.some.inj (hs'.symm.trans hg')
    exact le_rfl
  have hnew : ∀ {g g'}, v.core.secret = some g → v'.core.secret = some g' →
      (R.available g').val ≤ (R.available g).val →
      (R.available e').val ≤ (R.available e).val := by
    intro g g' hg hg' hle
    obtain rfl := Option.some.inj (hs.symm.trans hg)
    obtain rfl := Option.some.inj (hs'.symm.trans hg')
    exact hle
  cases h with
  | sent _ _ _ _ _ core | received _ _ _ core | burned _ _ _ _ _ _ core | minted _ _ _ core =>
    exact hkept hs ((congrArg Core.secret core :).trans hs)
  | deposited _ _ _ _ _ secret credit core =>
    obtain ⟨_, havailable⟩ := deposited_reads (R := R) credit
    exact hnew secret (congrArg Core.secret core :) (by rw [havailable])
  | @withdrawn x a e₁ e₂ p eo ro as as' b _ _ _ _ _ secret proved debit core =>
    obtain ⟨_, havailable, hsmall⟩ := withdrawn_reads hR proved debit
    exact hnew secret (congrArg Core.secret core :)
      (val_le_of_debit hl x.toNat_lt hsmall havailable)
  | secretSent _ _ _ _ secret moved core =>
    obtain ⟨x, fee, net, hmoved⟩ := moved.reads hR
    have hshort := hmoved.short
    exact hnew secret (congrArg Core.secret core :)
      (val_le_of_debit hl (by omega) hmoved.small hmoved.debit)
  | secretReceived _ secret moved core =>
    obtain ⟨x, fee, net, hmoved⟩ := moved.reads hR
    exact hnew secret (congrArg Core.secret core :) (by rw [hmoved.still'])
  | secretReturned _ _ _ _ secret moved core =>
    obtain ⟨x, fee, net, hmoved⟩ := moved.reads hR
    have hshort := hmoved.short
    refine hnew secret (congrArg Core.secret core :) ?_
    rw [hmoved.still']
    exact val_le_of_debit hl (by omega) hmoved.small hmoved.debit
  | secretMinted _ secret proved credit core =>
    obtain ⟨x, hx⟩ := verifyMintProof_shows hR proved
    obtain ⟨_, havailable⟩ := mintedTo_reads hx credit
    exact hnew secret (congrArg Core.secret core :) (by rw [havailable])
  | secretBurned _ _ _ secret proved debit core =>
    obtain ⟨x, hx⟩ := verifyBurnProof_shows hR proved
    obtain ⟨_, havailable, hsmall⟩ := burnedFrom_reads hx debit
    have hshort := hx.short
    exact hnew secret (congrArg Core.secret core :)
      (val_le_of_debit hl (by omega) hsmall havailable)

/-- The same of a whole instruction, with the hook that it calls. -/
theorem Course.available_le [NeZero l] (hl : 2 ^ 65 - 1 ≤ l) {c : Call}
    (hR : R.Sound c.ctx c.σ) (htrades : c.instruction.trades = true) {β' : Book}
    (h : Course rt c c.σ.book β') {v' : View PodAccount} {e e' : ConfidentialTransferAccount}
    (held : c.σ.book.Account k v) (held' : β'.Account k v') (hs : v.core.secret = some e)
    (hs' : v'.core.secret = some e') : (R.available e').val ≤ (R.available e).val := by
  cases h with
  | moves other =>
    rw [htrades] at other
    cases other
  | @trade s d hook _ β₁ _ trades h rest =>
    have hdeal := h.deal k
    have hlowered := rest.lowered k
    rw [show (c.σ.book k).contents = _ from held] at hdeal
    rw [show (β' k).contents = _ from held'] at hlowered
    have hsecret : ∀ {w}, Lowered (.account w) (.account v') → w.core.secret = some e' := by
      intro w hw
      cases hw with
      | same => exact hs'
      | account =>
        rw [← hs']
        exact (congrArg Core.secret (w.core_flag false)).symm
    generalize hx : (β₁ k).contents = x at hdeal hlowered
    cases hdeal with
    | same => rw [Option.some.inj ((hsecret hlowered).symm.trans hs)]
    | account _ hexchange => exact hexchange.available_le hl hR hs (hsecret hlowered)

end NoWrap

/-- No hidden amount wraps: what a mint and its accounts hide are numbers of 64 bits, and
together with what is held in the open they add up to the supply; and a trade takes from an
available balance no more than there is. -/
theorem hidden_amounts_whole {l : ℕ} [NeZero l] {rt : Runtime} {R : Reading l rt}
    {f : PodElGamalPubkey} {M : Pubkey} {σ : Ledger} {m : View PodMint}
    (hl : 2 ^ 65 - 1 ≤ l)
    (h : Reachable rt (fun c => ¬ c.Closes M ∧ R.Sound c.ctx c.σ) σ) (held : σ.book.Mint M m)
    (hsome : (m.get ConfidentialTransferMint).isSome = true) (hkey : m.mintCore.FeeKey f) :
    (∀ k v e, σ.book.Account k v → v.base.mint = M → v.core.secret = some e →
      (R.available e).val < 2 ^ 64 ∧ (R.pending e).val < 2 ^ 64) ∧
    (∀ k v, σ.book.Account k v → v.base.mint = M → (R.fees f v.core.fees).val < 2 ^ 64) ∧
    (m.hiddenWithheld R).val < 2 ^ 64 ∧
    ∑ k, ((σ.book k).contents.openly M + (σ.book k).contents.hiddenNumber R f M) +
        m.mintWithheld + (m.hiddenWithheld R).val + (m.mintCore.issue R f).secret.burned.val =
      m.base.supply.toNat + (m.mintCore.issue R f).secret.supply.val ∧
    ∀ (c : Call) (σ' : Ledger), c.σ = σ → R.Sound c.ctx c.σ → c.instruction.trades = true →
      c.run rt = .ok σ' → ∀ k v v' e e', σ.book.Account k v → σ'.book.Account k v' →
      v.core.secret = some e → v'.core.secret = some e' →
      (R.available e').val ≤ (R.available e).val := by
  have hwhole := h.whole hl held hsome hkey
  have hissue := Book.issue_register (R := R) (f := f) held
  have hlt : ∀ k v, σ.book.Account k v → v.base.mint = M → (v.core.holding R f).whole < 2 ^ 64 :=
    fun k v hv hM => hwhole.holding_lt (Book.holding_register hv hM)
  refine ⟨fun k v e hv hM hs => ?_, fun k v hv hM => ?_, ?_, ?_, ?_⟩
  · have hle := hlt k v hv hM
    rw [Core.whole_eq, hs] at hle
    simp only [Option.map_some, Option.getD_some] at hle
    omega
  · have hle := hlt k v hv hM
    rw [Core.whole_eq] at hle
    omega
  · have hle := hwhole.issue_le hissue
    have hsupply := hwhole.supply_lt hissue
    rw [View.withheld_issue hkey] at hle
    omega
  · have hsum := hwhole.sum_eq hissue
    have hcast : ((∑ k, ((σ.book k).contents.openly M +
        (σ.book k).contents.hiddenNumber R f M) : ℕ) : ℤ) = (m.mintCore.issue R f).whole := by
      rw [Nat.cast_sum, ← hsum]
      exact Finset.sum_congr rfl fun k _ => (Contents.whole_eq _).symm
    rw [Issue.whole, View.withheld_issue hkey] at hcast
    have hsupply : (m.mintCore.issue R f).supply = m.base.supply.toNat := rfl
    have hwithheld : (m.mintCore.issue R f).withheld = m.mintWithheld := rfl
    rw [hsupply, hwithheld] at hcast
    omega
  · rintro c σ' rfl hR htrades hrun k v v' e e' hv hv' hs hs'
    exact (run_course h.wf hrun).2.available_le hl hR htrades hv hv' hs hs'

theorem hidden_amounts_whole_sent : ∃ m, sentLedger.book.Mint 1 m ∧
    (∀ k v e, sentLedger.book.Account k v → v.base.mint = 1 → v.core.secret = some e →
      (openReading.available e).val < 2 ^ 64 ∧ (openReading.pending e).val < 2 ^ 64) ∧
    ∑ k, ((sentLedger.book k).contents.openly 1 +
        (sentLedger.book k).contents.hiddenNumber openReading 0 1) + m.mintWithheld +
      (m.hiddenWithheld openReading).val + (m.mintCore.issue openReading 0).secret.burned.val =
        900 + (m.mintCore.issue openReading 0).secret.supply.val := by
  obtain ⟨hreach, m, held, _, hsome, hfees, hsupply⟩ := sentLedger_reachable
  obtain ⟨hbalances, _, _, hsum, _⟩ := hidden_amounts_whole le_ristrettoOrder hreach held hsome
    (MintCore.feeKey_of_none hfees 0)
  rw [hsupply] at hsum
  exact ⟨m, held, hbalances, hsum⟩

/-! ## A smaller order

Below `2 ^ 65 - 1` what is left of nothing can again be a number of 64 bits. -/

section Small

def wrapOrder : ℕ := 2 ^ 65 - 2

theorem wrapOrder_pos : 0 < wrapOrder := by decide

theorem wrapOrder_le : wrapOrder ≤ 2 ^ 256 := by decide

def wrapKey : PodElGamalPubkey := pointOf wrapOrder 4

/-- An account at `2` of the mint at `1` that withdraws `2 ^ 64 - 1` of nothing, which leaves it as
much, and deposits one of them again. -/
def wrapSteps : List (List ProofInstruction × List AccountInfo × Instruction) :=
  [([], [⟨1, false⟩], .initializeConfidentialTransferMint ⟨0⟩ (.ofBool true) ⟨0⟩),
   ([], [⟨1, false⟩], .initializeMint2 6 5 none),
   ([], [⟨2, false⟩, ⟨1, false⟩], .initializeAccount3 7),
   ([.verifying .pubkeyValidity (⟨wrapKey⟩ : PubkeyValidityProofContext)],
    [⟨2, false⟩, ⟨1, false⟩, ⟨Keys.instructionsSysvar, false⟩, ⟨7, true⟩],
    .configureAccount 0 65536 1),
   (withdrawProofs wrapOrder wrapKey (2 ^ 64 - 1),
    [⟨2, false⟩, ⟨1, false⟩, ⟨Keys.instructionsSysvar, false⟩, ⟨7, true⟩],
    .withdraw 18446744073709551615 6 0 1 2),
   ([], [⟨2, false⟩, ⟨1, false⟩, ⟨7, true⟩], .deposit 1 6),
   ([], [⟨2, false⟩, ⟨7, true⟩], .applyPendingBalance 1 0)]

def wrapReading : Reading wrapOrder (.modular wrapOrder) :=
  .modular wrapOrder wrapOrder_pos wrapOrder_le

theorem honest_wrapSteps : ∀ p ∈ wrapSteps, wrapReading.HonestStep p := by
  intro p hp
  simp only [wrapSteps, List.mem_cons, List.not_mem_nil, or_false] at hp
  rcases hp with rfl | rfl | rfl | rfl | rfl | rfl | rfl
  · exact ⟨Instruction.noConfusion, by simp⟩
  · exact ⟨Instruction.noConfusion, by simp⟩
  · exact ⟨Instruction.noConfusion, by simp⟩
  · refine ⟨Instruction.noConfusion, fun i hi => ?_⟩
    obtain rfl := List.mem_singleton.mp hi
    exact Reading.honest_verifying trivial
  · exact ⟨Instruction.noConfusion, withdrawProofs_honest wrapOrder_pos wrapOrder_le (by decide)⟩
  · exact ⟨Instruction.noConfusion, by simp⟩
  · exact ⟨Instruction.noConfusion, by simp⟩

theorem wrap_runs : (honestScript (.modular wrapOrder) wrapSteps
    (blank [(1, 235), (2, 465)])).any (fun σ =>
      σ.checksMint 1 (fun m => decide ((m.get ConfidentialTransferMint).isSome = true ∧
        m.base.supply = 0)) &&
      σ.checksAccount 2 fun v => v.core.secret.any fun e => decide (v.base.mint = 1 ∧
        (wrapReading.available e).val = 18446744073709551616)) = true := by
  decide +kernel

end Small

/-- Where the order is `2 ^ 65 - 2`, an account that never held anything comes to hide `2 ^ 64`. -/
theorem hidden_amount_wrapped : 2 ^ 64 < wrapOrder ∧ ∃ σ m v e,
    Reachable (.modular wrapOrder) (fun c => ¬ c.Closes 1 ∧ wrapReading.Sound c.ctx c.σ) σ ∧
    σ.book.Mint 1 m ∧ (m.get ConfidentialTransferMint).isSome = true ∧ m.base.supply = 0 ∧
    σ.book.Account 2 v ∧ v.base.mint = 1 ∧ v.core.secret = some e ∧
    (wrapReading.available e).val = 2 ^ 64 := by
  obtain ⟨hreach, _, hchecks⟩ := Reachable.honest_sound (M := 1) (by decide) honest_wrapSteps
    wrap_runs
  rw [Bool.and_eq_true] at hchecks
  obtain ⟨m, hm, hboth⟩ := exists_of_checksMint hchecks.1
  obtain ⟨hsome, hsupply⟩ := of_decide_eq_true hboth
  obtain ⟨v, held, hv⟩ := exists_of_checksAccount hchecks.2
  obtain ⟨e, secret, he⟩ := (Option.any_eq_true _ _).mp hv
  obtain ⟨hmint, havailable⟩ := of_decide_eq_true he
  exact ⟨by decide, _, m, v, e, hreach, hm, hsome, hsupply, held, hmint, secret, havailable⟩

end SolanaEasy.Token
