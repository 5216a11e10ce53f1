import SolanaEasy.Token.Law.Conservation

/-!
# Secret issue — mints whose supply is hidden

A mint with confidential minting and burning is issued in secret only: nothing of it
is ever held in the open, and no instruction takes it there. What is burned is set
apart until it is subtracted from the supply, and the two together are what the
accounts hold.
-/

namespace SolanaEasy.Token

open Processor

section SecretIssue

variable {l : ℕ} {rt : Runtime} {R : Reading l rt} {f : PodElGamalPubkey} {M : Pubkey}
  {σ σ' : Ledger} {m : View PodMint} {u : ConfidentialMintBurn}

/-- A mint that is issued in secret has no supply in the open, and no account of it holds
anything in the open; what the accounts are worth, and what the mint has withheld, is the
hidden supply less what is recorded as burned. -/
theorem apart_of_mintBurn {u : ConfidentialMintBurn}
    (h : Reachable rt (fun c => ¬ c.Closes M ∧ R.Sound c.ctx c.σ) σ) (held : σ.book.Mint M m)
    (hsome : (m.get ConfidentialTransferMint).isSome = true)
    (hburn : m.get ConfidentialMintBurn = some u) (hkey : m.mintCore.FeeKey f) :
    R.supply u - R.burned u =
        ∑ k, (σ.book k).contents.hidden R f M + m.hiddenWithheld R ∧
      m.base.supply = 0 ∧
      ∀ k v, σ.book.Account k v → v.base.mint = M → v.base.amount = 0 ∧ v.withheld = 0 := by
  have hmint : m.mintCore.mintBurn = some u := hburn
  have hissue := Book.issue_register (R := R) (f := f) held
  have hfits : σ.book.Fits f M True :=
    ⟨fun n hn => held.unique hn ▸ hkey, fun _ _ _ => trivial⟩
  have hsteps := h.registered (h.ne_nativeMint held hsome) f True hfits
  obtain ⟨hsupply, hwithheld, hamounts⟩ := (hsteps.apart Register.empty_apart).secretly _ hissue
    (MintCore.secretly_issue hmint)
  have hzero : ∀ k v, σ.book.Account k v → v.base.mint = M →
      v.base.amount = 0 ∧ v.withheld = 0 := fun k v hv hM => by
    obtain ⟨hamount, hwithheld⟩ := hamounts k _ (Book.holding_register hv hM)
    exact ⟨UInt64.toNat_inj.mp hamount, hwithheld⟩
  refine ⟨?_, UInt64.toNat_inj.mp hsupply, hzero⟩
  have hopenly : ∀ k, (σ.book k).contents.openly M = 0 := by
    intro k
    cases hx : (σ.book k).contents with
    | account v =>
      rw [Contents.openly]
      split
      · obtain ⟨hamount, hwithheld⟩ := hzero k v hx ‹_›
        rw [hamount, hwithheld]
        rfl
      · rfl
    | other => rfl
    | mint m => rfl
  have hnet := net_eq_zero h held hsome hkey
  obtain ⟨hs, hb⟩ := MintCore.supply_issue (R := R) (f := f) hmint
  simp only [hopenly, Nat.cast_zero, zero_add] at hnet
  rw [hnet, Issue.owed, hsupply, hwithheld, hs, hb, View.withheld_issue hkey]
  simp

/-! ## Refused conversions -/

/-- The mint that a handler has read, without confidential minting and burning. -/
structure ReadsOpen (σ : Ledger) (K : Pubkey) : Prop where
  owner : (σ K).owner = Keys.tokenProgram
  read : ∃ s, load σ PodMint K = .ok s ∧ s.view.get ConfidentialMintBurn = none

theorem ReadsOpen.not_secret {K : Pubkey} (h : ReadsOpen σ K) (held : σ.book.Mint K m) :
    m.get ConfidentialMintBurn = none := by
  obtain ⟨s, hs, hnone⟩ := h.read
  obtain rfl := held.unique (contents_of_load h.owner hs)
  exact hnone

theorem ReadsOpen.not_account {K : Pubkey} {v : View PodAccount} (h : ReadsOpen σ K) :
    ¬ σ.book.Account K v := by
  obtain ⟨s, hs, _⟩ := h.read
  exact fun hv => hv.not_mint (contents_of_load h.owner hs)

theorem processMintTo_open {accounts : List AccountInfo} {x : UInt64}
    {variant : InstructionVariant} (h : processMintTo accounts x variant σ = .ok σ') :
    ∃ info rest, accounts = info :: rest ∧ ReadsOpen σ info.key := by
  match accounts with
  | mintInfo :: destinationInfo :: ownerInfo :: signers =>
    simp only [processMintTo, loadBeside, checkProgramAccount, bind_eq_ok, exists_unit,
      failIf_eq_ok, bne_eq_false_iff_eq, PodState.hasExtension_eq, Option.isSome_eq_false_iff,
      Option.isNone_iff_eq_none] at h
    obtain ⟨_, _, _, _, _, s, ⟨_, hs⟩, _, _, hopen, _, _, _, _, howner, _⟩ := h
    exact ⟨mintInfo, _, rfl, howner, s, hs, hopen⟩

/-- An account and its mint, as deposits and withdrawals read them. -/
theorem readsOpen_of_conversion {tokenAccountInfo mintInfo authorityInfo : AccountInfo}
    {signers : List AccountInfo} {account : PodState PodAccount} {mint : PodState PodMint}
    (hmint : ConfidentialTransfer.loadChecked σ PodMint mintInfo.key = .ok mint)
    (hopen : mint.hasExtension ConfidentialMintBurn = false)
    (haccount : ConfidentialTransfer.loadCheckedBeside σ PodAccount mintInfo.key
      tokenAccountInfo.key = .ok account)
    (hchecked : ConfidentialTransfer.checkConversionAccount σ account mintInfo.key authorityInfo
      signers = .ok ()) :
    σ.book.Account tokenAccountInfo.key account.view ∧
      account.view.base.mint = mintInfo.key ∧ ReadsOpen σ mintInfo.key := by
  simp only [ConfidentialTransfer.loadChecked, ConfidentialTransfer.loadCheckedBeside, loadBeside,
    checkProgramAccount, ConfidentialTransfer.checkConversionAccount, bind_eq_ok, exists_unit,
    failIf_eq_ok, bne_eq_false_iff_eq, PodState.hasExtension_eq, Option.isSome_eq_false_iff,
    Option.isNone_iff_eq_none] at hmint hopen haccount hchecked
  exact ⟨contents_of_load haccount.1 haccount.2.2, hchecked.2.2.2.1, hmint.1, mint, hmint.2, hopen⟩

theorem processDeposit_open {accounts : List AccountInfo} {x : UInt64} {decimals : UInt8}
    (h : ConfidentialTransfer.processDeposit rt accounts x decimals σ = .ok σ') :
    ∃ info mintInfo rest v, accounts = info :: mintInfo :: rest ∧
      σ.book.Account info.key v ∧ v.base.mint = mintInfo.key ∧ ReadsOpen σ mintInfo.key := by
  match accounts with
  | tokenAccountInfo :: mintInfo :: authorityInfo :: signers =>
    simp only [ConfidentialTransfer.processDeposit, bind_eq_ok, exists_unit, failIf_eq_ok] at h
    obtain ⟨mint, hmint, _, _, hopen, account, haccount, hchecked, _⟩ := h
    exact ⟨_, mintInfo, _, _, rfl, readsOpen_of_conversion hmint hopen haccount hchecked⟩

theorem processWithdraw_open {ctx : Context} {accounts : List AccountInfo} {x : UInt64}
    {decimals : UInt8} {b : PodAeCiphertext} {eo ro : Int}
    (h : ConfidentialTransfer.processWithdraw rt ctx accounts x decimals b eo ro σ = .ok σ') :
    ∃ info mintInfo rest v, accounts = info :: mintInfo :: rest ∧
      σ.book.Account info.key v ∧ v.base.mint = mintInfo.key ∧ ReadsOpen σ mintInfo.key := by
  rcases accounts with _ | ⟨tokenAccountInfo, _ | ⟨mintInfo, rest⟩⟩
  · cases h
  · cases h
  · simp only [ConfidentialTransfer.processWithdraw, bind_eq_ok, Prod.exists] at h
    obtain ⟨_, rest', _, h⟩ := h
    cases rest' with
    | nil => cases h
    | cons authorityInfo signers =>
      simp only [bind_eq_ok, exists_unit, failIf_eq_ok] at h
      obtain ⟨mint, hmint, _, hopen, _, account, haccount, hchecked, _⟩ := h
      exact ⟨_, mintInfo, _, _, rfl, readsOpen_of_conversion hmint hopen haccount hchecked⟩

/-- No instruction that converts succeeds for a mint that is issued in secret. -/
theorem Call.not_concerns_of_converts {c : Call} (hi : c.instruction.converts = true)
    (hrun : c.run rt = .ok σ') (held : c.σ.book.Mint M m)
    (hburn : m.get ConfidentialMintBurn = some u) : ¬ c.Concerns M := by
  have hmintTo : ∀ info rest, c.accounts = info :: rest → ReadsOpen c.σ info.key →
      ¬ c.Concerns M := by
    intro info rest haccounts hopen
    rw [Concerns, key?, haccounts]
    rintro (hM | ⟨k, v, hk, hv, _⟩)
    · obtain rfl : info.key = M := Option.some.inj hM
      rw [hopen.not_secret held] at hburn
      cases hburn
    · obtain rfl : info.key = k := Option.some.inj hk
      exact hopen.not_account hv
  have hconvert : ∀ info mintInfo rest v, c.accounts = info :: mintInfo :: rest →
      c.σ.book.Account info.key v → v.base.mint = mintInfo.key → ReadsOpen c.σ mintInfo.key →
      ¬ c.Concerns M := by
    intro info mintInfo rest v haccounts hv hmint hopen
    rw [Concerns, key?, haccounts]
    rintro (hM | ⟨k, w, hk, hw, hM⟩)
    · obtain rfl : info.key = M := Option.some.inj hM
      exact hv.not_mint held
    · obtain rfl : info.key = k := Option.some.inj hk
      obtain rfl := hv.unique hw
      rw [hopen.not_secret (hmint ▸ hM ▸ held)] at hburn
      cases hburn
  obtain ⟨ctx, accounts, i, σ⟩ := c
  cases i <;> simp only [Instruction.converts, Bool.false_eq_true] at hi
  case mintTo x =>
    obtain ⟨info, rest, haccounts, hopen⟩ := processMintTo_open hrun
    exact hmintTo info rest haccounts hopen
  case mintToChecked x decimals =>
    obtain ⟨info, rest, haccounts, hopen⟩ := processMintTo_open hrun
    exact hmintTo info rest haccounts hopen
  case deposit x decimals =>
    obtain ⟨info, mintInfo, rest, v, haccounts, hv, hmint, hopen⟩ := processDeposit_open hrun
    exact hconvert info mintInfo rest v haccounts hv hmint hopen
  case withdraw x decimals b eo ro =>
    obtain ⟨info, mintInfo, rest, v, haccounts, hv, hmint, hopen⟩ := processWithdraw_open hrun
    exact hconvert info mintInfo rest v haccounts hv hmint hopen

end SecretIssue

/-! ## A mint that can be closed

At `1`, and an account of it at `2` to which 300 are minted in secret. -/

section Secret

def closableSteps : List (List ProofInstruction × List AccountInfo × Instruction) :=
  [([], [⟨1, false⟩], .initializeMintCloseAuthority (some 9)),
   ([], [⟨1, false⟩], .initializeConfidentialTransferMint ⟨0⟩ (.ofBool true) ⟨0⟩),
   ([], [⟨1, false⟩], .initializeConfidentialMintBurn (sentKey 6) 0)]

def closableMint : List ProofInstruction × List AccountInfo × Instruction :=
  ([], [⟨1, false⟩], .initializeMint2 6 5 none)

def configureSteps : List (List ProofInstruction × List AccountInfo × Instruction) :=
  [([], [⟨2, false⟩, ⟨1, false⟩], .initializeAccount3 7),
   ([.verifying .pubkeyValidity (⟨sentKey 4⟩ : PubkeyValidityProofContext)],
    [⟨2, false⟩, ⟨1, false⟩, ⟨Keys.instructionsSysvar, false⟩, ⟨7, true⟩],
    .configureAccount 0 65536 1)]

def secretMint : List ProofInstruction × List AccountInfo × Instruction :=
  (amountProofs ristrettoOrder (sentKey 6) (sentKey 4) (sentKey 6) 300 300 0,
    [⟨2, false⟩, ⟨1, false⟩, ⟨Keys.instructionsSysvar, false⟩, ⟨5, true⟩],
    .confidentialMint ⟨0, ⟨sentKey 300, 0⟩, ⟨sentKey 0, 0⟩, 1, 2, 3⟩)

theorem honest_closableSteps : ∀ p ∈ closableSteps, openReading.HonestStep p := by
  intro p hp
  simp only [closableSteps, List.mem_cons, List.not_mem_nil, or_false] at hp
  rcases hp with rfl | rfl | rfl
  · exact ⟨Instruction.noConfusion, by simp⟩
  · exact ⟨Instruction.noConfusion, by simp⟩
  · exact ⟨Instruction.noConfusion, by simp⟩

theorem honest_closableMint : openReading.HonestStep closableMint :=
  ⟨Instruction.noConfusion, by simp [closableMint]⟩

theorem honest_configureSteps : ∀ p ∈ configureSteps, openReading.HonestStep p := by
  intro p hp
  simp only [configureSteps, List.mem_cons, List.not_mem_nil, or_false] at hp
  rcases hp with rfl | rfl
  · exact ⟨Instruction.noConfusion, by simp⟩
  · refine ⟨Instruction.noConfusion, fun i hi => ?_⟩
    obtain rfl := List.mem_singleton.mp hi
    exact Reading.honest_verifying trivial

theorem honest_secretMint : openReading.HonestStep secretMint :=
  ⟨Instruction.noConfusion, amountProofs_honest ristrettoOrder_pos ristrettoOrder_le (by decide)
    (by decide) (by decide)⟩

theorem honest_secretSteps :
    ∀ p ∈ closableSteps ++ closableMint :: (configureSteps ++ [secretMint]),
      openReading.HonestStep p := by
  intro p hp
  rw [List.mem_append, List.mem_cons, List.mem_append, List.mem_singleton] at hp
  rcases hp with hp | rfl | hp | rfl
  · exact honest_closableSteps p hp
  · exact honest_closableMint
  · exact honest_configureSteps p hp
  · exact honest_secretMint

theorem secret_runs : (honestScript (.modular ristrettoOrder)
    (closableSteps ++ closableMint :: (configureSteps ++ [secretMint]))
    (blank [(1, 471), (2, 465)])).any (fun σ => σ.checksMint 1 fun m =>
      m.mintCore.mintBurn.any fun u => decide ((m.get ConfidentialTransferMint).isSome = true ∧
        m.mintCore.secretFees = none ∧ (openReading.supply u - openReading.burned u).val = 300)) =
      true := by
  decide +kernel

end Secret

/-- In every state of a run that does not close the mint: the hidden supply less what is recorded
as burned is what the accounts hold and the mint has withheld, nothing of it is held in the open,
and nothing can be converted. -/
theorem secret_issue_conserved {l : ℕ} {rt : Runtime} {R : Reading l rt} {f : PodElGamalPubkey}
    {M : Pubkey} {σ : Ledger} {m : View PodMint} {u : Token.ConfidentialMintBurn}
    (h : Reachable rt (fun c => ¬ c.Closes M ∧ R.Sound c.ctx c.σ) σ)
    (held : σ.book.Mint M m) (hsome : (m.get ConfidentialTransferMint).isSome = true)
    (hburn : m.get ConfidentialMintBurn = some u) (hkey : m.mintCore.FeeKey f) :
    R.supply u - R.burned u =
        ∑ k, (σ.book k).contents.hidden R f M + m.hiddenWithheld R ∧
      m.base.supply = 0 ∧
      (∀ k v, σ.book.Account k v → v.base.mint = M → v.base.amount = 0) ∧
      ∀ (c : Call) (σ' : Ledger), c.σ = σ → c.instruction.converts = true →
        c.run rt = .ok σ' → ¬ c.Concerns M := by
  obtain ⟨hsum, hsupply, hzero⟩ := apart_of_mintBurn h held hsome hburn hkey
  refine ⟨hsum, hsupply, fun k v hv hM => (hzero k v hv hM).1, ?_⟩
  rintro c σ' rfl hi hrun
  exact Call.not_concerns_of_converts hi hrun held hburn

theorem secret_issue_conserved_minted : ∃ (σ : Ledger) (m : View PodMint)
    (u : Token.ConfidentialMintBurn), σ.book.Mint 1 m ∧
    m.get ConfidentialMintBurn = some u ∧
    (openReading.supply u - openReading.burned u).val = 300 ∧
    openReading.supply u - openReading.burned u =
      ∑ k, (σ.book k).contents.hidden openReading 0 1 + m.hiddenWithheld openReading ∧
    m.base.supply = 0 := by
  obtain ⟨hreach, _, hchecks⟩ := Reachable.honest_sound (M := 1) (by decide) honest_secretSteps
    secret_runs
  obtain ⟨m, held, hm⟩ := exists_of_checksMint hchecks
  obtain ⟨u, hburn, hu⟩ := (Option.any_eq_true _ _).mp hm
  obtain ⟨hsome, hfees, hval⟩ := of_decide_eq_true hu
  obtain ⟨hsum, hsupply, _⟩ := secret_issue_conserved hreach held hsome hburn
    (MintCore.feeKey_of_none hfees 0)
  exact ⟨_, m, u, held, hburn, hval, hsum, hsupply⟩

end SolanaEasy.Token
