import SolanaEasy.Token.Bookkeeping
import SolanaEasy.Token.Honest
import Mathlib.Algebra.BigOperators.Ring.Finset

/-!
# Conservation — holdings add up to the supply

What the accounts of a mint hold and what the mint has withheld is what the mint says
it has issued. Without confidential transfers this is an equation between numbers;
with them it is one between residues, under a reading.
-/

namespace SolanaEasy.Token

/-! ## In the open -/

/-- What is held in the open there, of the mint `M`: an amount and withheld fees. -/
def Contents.openly (M : Pubkey) (x : Contents) : ℕ :=
  match x with
  | .account v => if v.base.mint = M then v.base.amount.toNat + v.withheld else 0
  | _ => 0

section Conservation

variable {l : ℕ} {rt : Runtime} {R : Reading l rt} {f : PodElGamalPubkey} {M : Pubkey}
  {σ : Ledger} {m : View PodMint}

theorem Contents.openly_eq (x : Contents) :
    ((x.holding R f M).map Holding.openly).getD 0 = x.openly M := by
  cases x with
  | other => rfl
  | mint m => rfl
  | account v =>
    rw [holding_account, openly]
    split
    · rw [Option.map_some, Option.getD_some, Nat.cast_add]
      rfl
    · rfl

/-- An extension that a handler does not find on a mint is not there. -/
theorem Ledger.Wf.mint_ext_eq_none (hwf : σ.Wf) {K : Pubkey} (held : σ.book.Mint K m) {V : Type}
    [Pod V] [Extension V] [SizedExtension V] (hsized : (Extension.type V).sized = true)
    (h : m.get V = none) : m.ext (Extension.type V) = none := by
  obtain ⟨howner, s, hs, rfl⟩ := Cell.contents_eq_mint.mp held
  exact PodState.ext_eq_none_of_get (hwf.load howner hs).1 hsized h

theorem Ledger.Wf.mint_get_isSome (hwf : σ.Wf) {K : Pubkey} (held : σ.book.Mint K m) {V : Type}
    [Pod V] [Extension V] [SizedExtension V] (hsized : (Extension.type V).sized = true)
    (h : (m.ext (Extension.type V)).isSome = true) : (m.get V).isSome = true := by
  by_contra hnone
  rw [hwf.mint_ext_eq_none held hsized (by simpa using hnone)] at h
  cases h

/-- Some key serves for the hidden fees of a mint. -/
theorem Book.exists_feeKey (β : Book) (M : Pubkey) : ∃ f, β.FeeKey f M := by
  cases hx : (β M).contents with
  | mint m =>
    refine ⟨((m.mintCore.secretFees.map (·.1)).getD 0), fun n hn q x hq => ?_⟩
    obtain rfl := Contents.mint.inj (hx.symm.trans hn)
    rw [hq]
    rfl
  | other => exact ⟨0, fun n hn => Contents.noConfusion (hx.symm.trans hn)⟩
  | account v => exact ⟨0, fun n hn => Contents.noConfusion (hx.symm.trans hn)⟩

/-- Amounts and withheld fees of a mint without confidential transfers add up to its supply. -/
theorem supply_conserved (hne : M ≠ Keys.nativeMint)
    (h : Reachable rt (fun c => ¬ c.Closes M) σ) (held : σ.book.Mint M m)
    (hopenly : m.get ConfidentialTransferMint = none) :
    ∑ k, (σ.book k).contents.openly M + m.mintWithheld = m.base.supply.toNat := by
  obtain ⟨f, hf⟩ := σ.book.exists_feeKey M
  have hreach : Reachable rt
      (fun c => ¬ c.Closes M ∧ (Reading.trivial rt).Sound c.ctx c.σ) σ :=
    h.mono fun c hc => ⟨hc, Reading.trivial_sound rt c.ctx c.σ⟩
  have hfits : σ.book.Fits f M False := ⟨hf, fun n hn hsome => by
    obtain rfl := held.unique hn
    rw [show m.ext .confidentialTransferMint = none from
      h.wf.mint_ext_eq_none held rfl hopenly] at hsome
    cases hsome⟩
  have hnet := ((hreach.registered hne) f False hfits).openNet id
  rw [Register.openNet_empty, Register.openNet, Book.issue_register held] at hnet
  simp only [Book.register, Contents.openly_eq, Option.map_some, Option.getD_some] at hnet
  have hsum : ((∑ k, (σ.book k).contents.openly M : ℕ) : ℤ) -
      ((m.base.supply.toNat : ℤ) - m.mintWithheld) = 0 := by
    rw [Nat.cast_sum]
    exact hnet
  omega

/-! ## In secret -/

/-- What is hidden there, of the mint `M`: pending and available balances and withheld fees. -/
def Contents.hidden (R : Reading l rt) (f : PodElGamalPubkey) (M : Pubkey) (x : Contents) :
    ZMod l :=
  match x with
  | .account v => if v.base.mint = M then v.core.hidden R + R.fees f v.core.fees else 0
  | _ => 0

theorem Core.hidden_eq (a : Core) :
    a.hidden R = (a.holding R f).secret.pending + (a.holding R f).secret.available := by
  cases hs : a.secret with
  | none => simp [Core.hidden, Core.holding, Core.secrets, hs]
  | some e =>
    rw [Core.pending_holding f hs, Core.available_holding f hs, Core.hidden_of_secret hs,
      Reading.balance]

theorem Contents.worth_eq (x : Contents) :
    ((x.holding R f M).map Holding.worth).getD 0 = x.openly M + x.hidden R f M := by
  cases x with
  | other => simp [openly, hidden]
  | mint m => simp [openly, hidden]
  | account v =>
    rw [holding_account, openly, hidden]
    split
    · rw [Option.map_some, Option.getD_some, Holding.worth, Core.hidden_eq (f := f), Nat.cast_add,
        Core.withheld_secret_holding]
      simp only [Core.amount_holding, Core.withheld_holding, View.base_core, View.withheld_core]
      ring
    · simp

/-- The native mint has no extensions. -/
theorem Reachable.ne_nativeMint_of_ext {allow : Call → Prop} (h : Reachable rt allow σ)
    (held : σ.book.Mint M m) {t : ExtensionType} (hsome : (m.ext t).isSome = true) :
    M ≠ Keys.nativeMint := by
  rintro rfl
  rw [(h.nativeBare.bare m held).2 t] at hsome
  cases hsome

theorem Reachable.ne_nativeMint {allow : Call → Prop} (h : Reachable rt allow σ)
    (held : σ.book.Mint M m) (hsome : (m.get ConfidentialTransferMint).isSome = true) :
    M ≠ Keys.nativeMint := by
  obtain ⟨x, hx⟩ := Option.isSome_iff_exists.mp hsome
  exact h.ne_nativeMint_of_ext held (View.ext_isSome_of_get hx)

theorem net_eq_zero (h : Reachable rt (fun c => ¬ c.Closes M ∧ R.Sound c.ctx c.σ) σ)
    (held : σ.book.Mint M m) (hsome : (m.get ConfidentialTransferMint).isSome = true)
    (hkey : m.mintCore.FeeKey f) :
    ∑ k, ((σ.book k).contents.openly M + (σ.book k).contents.hidden R f M) =
      (m.mintCore.issue R f).owed := by
  have hfits : σ.book.Fits f M True :=
    ⟨fun n hn => held.unique hn ▸ hkey, fun _ _ _ => trivial⟩
  have hnet := (h.registered (h.ne_nativeMint held hsome) f True hfits).net
  rw [Register.net_empty, Register.net, Book.issue_register held] at hnet
  simp only [Book.register, Contents.worth_eq, Option.map_some, Option.getD_some] at hnet
  exact sub_eq_zero.mp hnet

/-- Hidden fees that a mint has withheld, under its own key. -/
def View.hiddenWithheld (R : Reading l rt) (m : View PodMint) : ZMod l :=
  (m.mintCore.secretFees.map fun x => R.pt x.1 x.2).getD 0

theorem View.withheld_issue (hkey : m.mintCore.FeeKey f) :
    (m.mintCore.issue R f).secret.withheld = m.hiddenWithheld R := by
  cases hx : m.mintCore.secretFees with
  | none => simp [MintCore.issue, MintCore.issueSecrets, hiddenWithheld, hx]
  | some x =>
    obtain rfl := hkey _ _ hx
    simp [MintCore.issue, MintCore.issueSecrets, hiddenWithheld, hx]

end Conservation

section Sent

def sentKey (x : ℕ) : PodElGamalPubkey := pointOf ristrettoOrder x

/-- A mint at `1`, and an account at `2` that deposits 500 of 900 and sends 300 of them to the
account at `3`. -/
def sentSteps : List (List ProofInstruction × List AccountInfo × Instruction) :=
  [([], [⟨1, false⟩], .initializeConfidentialTransferMint ⟨0⟩ (.ofBool true) ⟨0⟩),
   ([], [⟨1, false⟩], .initializeMint2 6 5 none),
   ([], [⟨2, false⟩, ⟨1, false⟩], .initializeAccount3 7),
   ([], [⟨3, false⟩, ⟨1, false⟩], .initializeAccount3 8),
   ([.verifying .pubkeyValidity (⟨sentKey 4⟩ : PubkeyValidityProofContext)],
    [⟨2, false⟩, ⟨1, false⟩, ⟨Keys.instructionsSysvar, false⟩, ⟨7, true⟩],
    .configureAccount 0 65536 1),
   ([.verifying .pubkeyValidity (⟨sentKey 5⟩ : PubkeyValidityProofContext)],
    [⟨3, false⟩, ⟨1, false⟩, ⟨Keys.instructionsSysvar, false⟩, ⟨8, true⟩],
    .configureAccount 0 65536 1),
   ([], [⟨1, false⟩, ⟨2, false⟩, ⟨5, true⟩], .mintTo 900),
   ([], [⟨2, false⟩, ⟨1, false⟩, ⟨7, true⟩], .deposit 500 6),
   ([], [⟨2, false⟩, ⟨7, true⟩], .applyPendingBalance 1 0),
   (amountProofs ristrettoOrder (sentKey 4) (sentKey 4) (sentKey 5) 200 300 0,
    [⟨2, false⟩, ⟨1, false⟩, ⟨3, false⟩, ⟨Keys.instructionsSysvar, false⟩, ⟨7, true⟩],
    .confidentialTransfer ⟨0, ⟨sentKey 300, 0⟩, ⟨sentKey 0, 0⟩, 1, 2, none, none, 3⟩)]

theorem sent_runs : (honestScript (.modular ristrettoOrder) sentSteps
    (blank [(1, 235), (2, 465), (3, 465)])).any (fun σ => σ.checksMint 1 fun m =>
      decide (m.get ConfidentialMintBurn = none ∧
        (m.get ConfidentialTransferMint).isSome = true ∧ m.mintCore.secretFees = none ∧
        m.base.supply = 900)) = true := by
  decide +kernel

def sentLedger : Ledger :=
  honestLedger (.modular ristrettoOrder) sentSteps (blank [(1, 235), (2, 465), (3, 465)])

theorem honest_sentSteps : ∀ p ∈ sentSteps, openReading.HonestStep p := by
  intro p hp
  have hkey : ∀ x, ∀ i ∈ [ProofInstruction.verifying .pubkeyValidity
      (⟨sentKey x⟩ : PubkeyValidityProofContext)], openReading.Honest i := by
    intro x i hi
    obtain rfl := List.mem_singleton.mp hi
    exact Reading.honest_verifying trivial
  simp only [sentSteps, List.mem_cons, List.not_mem_nil, or_false] at hp
  rcases hp with rfl | rfl | rfl | rfl | rfl | rfl | rfl | rfl | rfl | rfl
  · exact ⟨Instruction.noConfusion, by simp⟩
  · exact ⟨Instruction.noConfusion, by simp⟩
  · exact ⟨Instruction.noConfusion, by simp⟩
  · exact ⟨Instruction.noConfusion, by simp⟩
  · exact ⟨Instruction.noConfusion, hkey 4⟩
  · exact ⟨Instruction.noConfusion, hkey 5⟩
  · exact ⟨Instruction.noConfusion, by simp⟩
  · exact ⟨Instruction.noConfusion, by simp⟩
  · exact ⟨Instruction.noConfusion, by simp⟩
  · exact ⟨Instruction.noConfusion, amountProofs_honest ristrettoOrder_pos ristrettoOrder_le
      (by decide) (by decide) (by decide)⟩

theorem sentLedger_reachable : Reachable (.modular ristrettoOrder)
      (fun c => ¬ c.Closes 1 ∧ openReading.Sound c.ctx c.σ) sentLedger ∧
    ∃ m, sentLedger.book.Mint 1 m ∧ m.get ConfidentialMintBurn = none ∧
      (m.get ConfidentialTransferMint).isSome = true ∧ m.mintCore.secretFees = none ∧
      m.base.supply = 900 := by
  obtain ⟨hreach, _, hchecks⟩ := Reachable.honest_sound (M := 1) (by decide) honest_sentSteps
    sent_runs
  obtain ⟨m, held, hm⟩ := exists_of_checksMint hchecks
  exact ⟨hreach, m, held, of_decide_eq_true hm⟩

theorem MintCore.feeKey_of_none {m : MintCore} (h : m.secretFees = none) (f : PodElGamalPubkey) :
    m.FeeKey f := by
  intro k x hx
  rw [h] at hx
  cases hx

end Sent

/-- What the accounts of a mint with confidential transfers are worth, and what the mint has
withheld, is its supply, if it is issued in the open. -/
theorem worth_conserved {l : ℕ} {rt : Runtime} {R : Reading l rt} {f : PodElGamalPubkey}
    {M : Pubkey} {σ : Ledger} {m : View PodMint}
    (h : Reachable rt (fun c => ¬ c.Closes M ∧ R.Sound c.ctx c.σ) σ)
    (held : σ.book.Mint M m) (hsome : (m.get ConfidentialTransferMint).isSome = true)
    (hopenly : m.get ConfidentialMintBurn = none) (hkey : m.mintCore.FeeKey f) :
    ∑ k, ((σ.book k).contents.openly M + (σ.book k).contents.hidden R f M) + m.mintWithheld +
      m.hiddenWithheld R = (m.base.supply.toNat : ZMod l) := by
  have hburn : m.mintCore.mintBurn = none := hopenly
  rw [net_eq_zero h held hsome hkey, Issue.owed, View.withheld_issue hkey]
  have hsupply : (m.mintCore.issue R f).secret.supply = 0 ∧
      (m.mintCore.issue R f).secret.burned = 0 := by
    simp [MintCore.issue, MintCore.issueSecrets, hburn]
  rw [hsupply.1, hsupply.2]
  show ((m.base.supply.toNat : ℕ) : ZMod l) + 0 - 0 - (m.mintWithheld : ℕ) - _ + _ + _ = _
  ring

theorem worth_conserved_sent : ∃ m, sentLedger.book.Mint 1 m ∧
    ∑ k, ((sentLedger.book k).contents.openly 1 +
      (sentLedger.book k).contents.hidden openReading 0 1) + m.mintWithheld +
        m.hiddenWithheld openReading = ((900 : ℕ) : ZMod ristrettoOrder) := by
  obtain ⟨hreach, m, held, hopenly, hsome, hfees, hsupply⟩ := sentLedger_reachable
  have hsum := worth_conserved hreach held hsome hopenly
    (MintCore.feeKey_of_none hfees 0)
  rw [hsupply] at hsum
  exact ⟨m, held, hsum⟩

/-- A transfer with a fee, to oneself and to another, of which some is harvested. -/
def feeLedger : Ledger :=
  scripted (.modular 2)
    [(.plain, [⟨1, false⟩], .initializeTransferFeeConfig none none 100 50),
     (.plain, [⟨1, false⟩], .initializeMint2 6 5 none),
     (.plain, [⟨2, false⟩, ⟨1, false⟩], .initializeAccount3 7),
     (.plain, [⟨3, false⟩, ⟨1, false⟩], .initializeAccount3 8),
     (.plain, [⟨1, false⟩, ⟨3, false⟩, ⟨5, true⟩], .mintTo 900),
     (.plain, [⟨3, false⟩, ⟨1, false⟩, ⟨3, false⟩, ⟨8, true⟩], .transferChecked 100 6),
     (.plain, [⟨3, false⟩, ⟨1, false⟩, ⟨2, false⟩, ⟨8, true⟩], .transferChecked 300 6),
     (.plain, [⟨1, false⟩, ⟨2, false⟩, ⟨2, false⟩], .harvestWithheldTokensToMint),
     (.plain, [⟨3, false⟩, ⟨1, false⟩, ⟨2, false⟩, ⟨8, true⟩], .transferChecked 200 6),
     (.plain, [⟨3, false⟩, ⟨1, false⟩, ⟨8, true⟩], .burn 100)]
    (blank [(1, 278), (2, 178), (3, 178)])

theorem supply_conserved_scripted :
    ∃ m, feeLedger.book.Mint 1 m ∧ m.mintWithheld = 3 ∧
      ∑ k, (feeLedger.book k).contents.openly 1 + 3 = 800 := by
  have hreach : Reachable (.modular 2) (fun c => ¬ c.Closes 1) feeLedger := by
    refine .scripted (by decide) (fun p hp σ hc => ?_) (by decide +kernel)
    have hi := hc.2
    simp only [List.mem_cons, List.not_mem_nil, or_false] at hp
    rcases hp with rfl | rfl | rfl | rfl | rfl | rfl | rfl | rfl | rfl | rfl <;> cases hi
  obtain ⟨m, hm, hp⟩ := exists_mint feeLedger 1
    (fun m => decide (m.get ConfidentialTransferMint = none ∧ m.mintWithheld = 3 ∧
      m.base.supply = 800)) (by decide +kernel) (by decide +kernel)
  obtain ⟨hopenly, hwithheld, hsupply⟩ := of_decide_eq_true hp
  have hsum := supply_conserved (by decide) hreach hm hopenly
  rw [hwithheld, hsupply] at hsum
  exact ⟨m, hm, hwithheld, hsum⟩

end SolanaEasy.Token
