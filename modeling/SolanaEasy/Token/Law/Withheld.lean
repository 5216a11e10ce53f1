import SolanaEasy.Token.Law.Round

/-!
# Withheld fees — what harvesting and withdrawing do with any list of accounts

The mint, or the destination, gets the sum of what the distinct valid accounts of the mint
have withheld, whatever else is in the list. The plain instructions add numbers, the others
ciphertexts, of which a reading says what they hide.
-/

namespace SolanaEasy.Token

open Processor Sweep

section Instructions

variable {V W : Type} [Pod V] [Extension V] [Pod W] [Extension W] {M d : Pubkey}
  {ks : List Pubkey} {σ σ' : Ledger}

/-- The mint `M` is credited: its configuration `config` becomes `config'`. -/
structure ToMint (noFee : V) (config config' : W) (M : Pubkey) (ks : List Pubkey)
    (σ σ' : Ledger) : Prop where
  apart : M ∉ ks
  config : ∃ mint, load σ PodMint M = .ok mint ∧ mint.getExtension W = .ok config
  mint : (σ M).Overwritten PodMint config' (σ' M)
  sources : Emptied noFee M M ks σ σ'

/-- The account `d` is credited: its state `s` becomes `s'`. -/
structure ToAccount (noFee : V) (s s' : PodState PodAccount) (M d : Pubkey) (ks : List Pubkey)
    (σ σ' : Ledger) : Prop where
  apart : M ∉ d :: ks
  state : load σ PodAccount d = .ok s ∧ s.base.mint = M
  destination : σ' d = { σ d with data := s'.bytes }
  sources : Emptied noFee M d ks σ σ'

/-- Of the accounts behind the authority the last `n` are sources, or all if they are fewer, and
those before them sign. -/
structure Roles (σ : Ledger) (M : Pubkey) (n : UInt8) (authorityInfo : AccountInfo)
    (signers sources : List AccountInfo) : Prop where
  sources : sources.length = min n.toNat (signers ++ sources).length
  signers : ∃ mint config authority, load σ PodMint M = .ok mint ∧
    mint.getExtension TransferFeeConfig = .ok config ∧
      config.withdrawWithheldAuthority.toOption = some authority ∧
        checkOwner σ authorityInfo signers authority = .ok ()

/-- The pot of a valid account, read from its state. -/
theorem toOption_getExtension_eq_withheld {s : PodState PodAccount}
    (howner : (σ d).owner = Keys.tokenProgram) (hload : load σ PodAccount d = .ok s)
    (hmint : s.base.mint = M) : toOption (s.getExtension V) = withheld V M σ d := by
  rw [withheld, if_pos howner, hload, toOption_ok, Option.bind_some, if_pos hmint]

theorem Round.toAccount {A : Type} {plus : A → V → Option A} {noFee : V} {own : Option V}
    {σ₁ : Ledger} {a a' : A} {s s' : PodState PodAccount}
    (h : Round plus noFee M d ks own σ σ₁ a a')
    (hne : d ≠ M) (hload : load σ PodAccount d = .ok s) (hmint : s.base.mint = M)
    (hstore : store σ₁ d s' = .ok σ') : ToAccount noFee s s' M d ks σ σ' := by
  obtain ⟨hsources, hcell⟩ := h.swept.stored hstore
  refine ⟨?_, ⟨hload, hmint⟩, hcell, hsources⟩
  rw [List.mem_cons, not_or]
  exact ⟨Ne.symm hne, fun hmem => h.apart _ hmem (Ne.symm hne) rfl⟩

theorem length_drop_announced {α : Type} (l : List α) (n : ℕ) :
    (l.drop (l.length - n)).length =
      min n (l.take (l.length - n) ++ l.drop (l.length - n)).length := by
  rw [List.take_append_drop, List.length_drop]
  omega

/-- `process_harvest_withheld_tokens_to_mint`. -/
def Processor.TransferFee.HarvestedToMint (accounts : List AccountInfo) (σ σ' : Ledger) : Prop :=
  ∃ (mintInfo : AccountInfo) (sources : List AccountInfo) (config : TransferFeeConfig)
      (sum : UInt64), accounts = mintInfo :: sources ∧
    ToMint noFee config { config with withheldAmount := sum } mintInfo.key
      (sources.map (·.key)) σ σ' ∧
    sum.toNat = config.withheldAmount.toNat +
      total (·.withheldAmount.toNat) (withheld TransferFeeAmount mintInfo.key σ)
        (sources.map (·.key))

/-- `process_withdraw_withheld_tokens_from_accounts`. -/
def Processor.TransferFee.WithdrawnToAccount (accounts : List AccountInfo) (n : UInt8)
    (σ σ' : Ledger) : Prop :=
  ∃ (mintInfo destinationInfo authorityInfo : AccountInfo) (signers sources : List AccountInfo)
      (s s' : PodState PodAccount),
    accounts = mintInfo :: destinationInfo :: authorityInfo :: (signers ++ sources) ∧
    Roles σ mintInfo.key n authorityInfo signers sources ∧
    ToAccount noFee s s' mintInfo.key destinationInfo.key (sources.map (·.key)) σ σ' ∧
    Cleared noFee (destinationInfo.key ∈ sources.map (·.key)) s s' ∧
    s'.base = { s.base with amount := s'.base.amount } ∧
    s'.base.amount.toNat = s.base.amount.toNat +
      total (·.withheldAmount.toNat) (withheld TransferFeeAmount mintInfo.key σ)
        (sources.map (·.key))

/-- The ciphertext version of `process_harvest_withheld_tokens_to_mint`: the ciphertexts are
added, and with them what they hide under any key. -/
def Processor.ConfidentialTransferFee.HarvestedToMint (rt : Runtime) (accounts : List AccountInfo)
    (σ σ' : Ledger) : Prop :=
  ∃ (mintInfo : AccountInfo) (sources : List AccountInfo)
      (config : ConfidentialTransferFeeConfig) (sum : PodElGamalCiphertext),
    accounts = mintInfo :: sources ∧
    ToMint noFee config { config with withheldAmount := sum } mintInfo.key
      (sources.map (·.key)) σ σ' ∧
    (takings noFee (withheld _ mintInfo.key σ) (sources.map (·.key))).foldlM (plus rt)
      config.withheldAmount = some sum ∧
    ∀ (l : ℕ) (R : Reading l rt) (key : PodElGamalPubkey),
      R.pt key sum = R.pt key config.withheldAmount +
        total (fun fee => R.pt key fee.withheldAmount)
          (withheld ConfidentialTransferFeeAmount mintInfo.key σ) (sources.map (·.key))

/-- The ciphertext version of `process_withdraw_withheld_tokens_from_accounts`: the sum is the
one of which a proof says what it hides for the destination. -/
def Processor.ConfidentialTransferFee.WithdrawnToAccount (rt : Runtime) (ctx : Context)
    (accounts : List AccountInfo) (n : UInt8) (newBalance : PodAeCiphertext) (σ σ' : Ledger) :
    Prop :=
  ∃ (mintInfo destinationInfo authorityInfo : AccountInfo)
      (proofInfos signers sources : List AccountInfo) (s t s' : PodState PodAccount)
      (mint : PodState PodMint) (config : ConfidentialTransferFeeConfig)
      (state : ConfidentialTransferAccount) (proof : CiphertextCiphertextEqualityProofContext)
      (available : PodElGamalCiphertext),
    accounts =
      mintInfo :: destinationInfo :: (proofInfos ++ authorityInfo :: (signers ++ sources)) ∧
    Roles σ mintInfo.key n authorityInfo signers sources ∧
    ToAccount noFee s s' mintInfo.key destinationInfo.key (sources.map (·.key)) σ σ' ∧
    Cleared noFee (destinationInfo.key ∈ sources.map (·.key)) s t ∧ t.base = s.base ∧
    s.getExtension ConfidentialTransferAccount = .ok state ∧
    t.setExtension { state with
      availableBalance := available, decryptableAvailableBalance := newBalance } = .ok s' ∧
    load σ PodMint mintInfo.key = .ok mint ∧
    mint.getExtension ConfidentialTransferFeeConfig = .ok config ∧
    Attested .ciphertextCiphertextEquality ctx σ proof ∧
    (takings noFee (withheld _ mintInfo.key σ) (sources.map (·.key))).foldlM (plus rt) .zeroed =
      some proof.firstCiphertext ∧
    CiphertextArithmetic.add rt state.availableBalance proof.secondCiphertext = some available ∧
    ∀ (l : ℕ) (R : Reading l rt), R.Sound ctx σ →
      R.pt state.elgamalPubkey available = R.pt state.elgamalPubkey state.availableBalance +
        total (fun fee => R.pt config.withdrawWithheldAuthorityElgamalPubkey fee.withheldAmount)
          (withheld ConfidentialTransferFeeAmount mintInfo.key σ) (sources.map (·.key))

namespace Processor.TransferFee

variable {accounts : List AccountInfo}

theorem toNat_plus {sum sum' : UInt64} {fee : TransferFeeAmount} (h : plus sum fee = some sum') :
    sum'.toNat = sum.toNat + fee.withheldAmount.toNat := checkedAdd_eq_some.mp h

theorem toNat_of_round {own : Option TransferFeeAmount} {σ₁ : Ledger} {sum sum' : UInt64}
    (h : Round plus noFee M d ks own σ σ₁ sum sum') :
    sum'.toNat = sum.toNat + total (·.withheldAmount.toNat)
      (Function.update (withheld TransferFeeAmount M σ) d own) ks :=
  measure_takings (f := fun fee => fee.withheldAmount.toNat) (g := UInt64.toNat) rfl
    (fun _ _ _ => toNat_plus) h.sum

theorem harvestedToMint (h : processHarvestWithheldTokensToMint accounts σ = .ok σ') :
    HarvestedToMint accounts σ σ' := by
  obtain _ | ⟨mintInfo, sources⟩ := accounts
  · cases h
  simp only [processHarvestWithheldTokensToMint, bind_eq_ok, Prod.exists] at h
  obtain ⟨mint, hload, config, hget, σ₁, config', hall, mint', hset, hstore⟩ := h
  obtain ⟨hmem, sum, rfl, hround⟩ := harvestAll_round hall
  obtain ⟨hsources, hcell⟩ := hround.swept.stored hstore
  have hsum := toNat_of_round hround
  rw [Function.update_eq_self] at hsum
  exact ⟨mintInfo, sources, config, sum, rfl, ⟨hmem, ⟨mint, hload, hget⟩,
    ⟨mint, mint', hload, hset, hcell⟩, hsources⟩, hsum⟩

/-- A destination of another program cannot be credited, so that nothing was withheld. -/
theorem total_of_foreign {s s' : PodState PodAccount} {σ₁ : Ledger}
    (howner : (σ d).owner ≠ Keys.tokenProgram) (hload : load σ PodAccount d = .ok s)
    (hround : Round plus noFee M d ks (toOption (s.getExtension _)) σ σ₁ s.base.amount
      s'.base.amount) (hstore : store σ₁ d s' = .ok σ') :
    s'.base.amount.toNat = s.base.amount.toNat +
      total (·.withheldAmount.toNat) (withheld TransferFeeAmount M σ) ks := by
  have hcell : σ₁ d = σ d := hround.swept.borrowed
  obtain ⟨hok, _⟩ := store_eq_ok.mp hstore
  have hbytes : s'.bytes = s.bytes := by
    rw [hok.resolve_left (by rw [hcell]; exact howner), hcell]
    exact data_of_load hload
  have hsame : s'.base.amount = s.base.amount := congrArg PodAccount.amount (base_of_bytes hbytes)
  have hsum := toNat_of_round hround
  have hle : total (fun fee : TransferFeeAmount => fee.withheldAmount.toNat)
        (withheld TransferFeeAmount M σ) ks ≤
      total (fun fee : TransferFeeAmount => fee.withheldAmount.toNat)
        (Function.update (withheld TransferFeeAmount M σ) d (toOption (s.getExtension _))) ks := by
    refine Finset.sum_le_sum fun k _ => ?_
    by_cases hk : k = d
    · subst hk
      rw [withheld, if_neg howner]
      exact Nat.zero_le _
    · rw [Function.update_of_ne hk]
  rw [hsame] at hsum ⊢
  omega

theorem withdrawnToAccount {n : UInt8}
    (h : processWithdrawWithheldTokensFromAccounts accounts n σ = .ok σ') :
    WithdrawnToAccount accounts n σ σ' := by
  obtain _ | ⟨mintInfo, _ | ⟨destinationInfo, _ | ⟨authorityInfo, infos⟩⟩⟩ := accounts
  · cases h
  · cases h
  · cases h
  simp only [processWithdrawWithheldTokensFromAccounts, checkProgramAccount, loadBeside,
    bind_eq_ok, exists_unit, failIf_eq_ok, bne_eq_false_iff_eq, beq_eq_false_iff_ne, okOr_eq_ok,
    Prod.exists] at h
  obtain ⟨_, mint, hmint, config, hget, authority, hauthority, hsigned, s, ⟨hne, hload⟩, hkey, _,
    σ₁, s', hall, hstore⟩ := h
  obtain ⟨hcleared, hbase, hround⟩ := withdrawAll_round hall
  have hsum : s'.base.amount.toNat = s.base.amount.toNat + total (·.withheldAmount.toNat)
      (withheld TransferFeeAmount mintInfo.key σ)
        ((infos.drop (infos.length - n.toNat)).map (·.key)) := by
    by_cases howner : (σ destinationInfo.key).owner = Keys.tokenProgram
    · have hsum := toNat_of_round hround
      rw [toOption_getExtension_eq_withheld howner hload hkey, Function.update_eq_self] at hsum
      exact hsum
    · exact total_of_foreign howner hload hround hstore
  refine ⟨mintInfo, destinationInfo, authorityInfo, infos.take (infos.length - n.toNat),
    infos.drop (infos.length - n.toNat), s, s', ?_, ⟨length_drop_announced infos _, mint, config,
      authority, hmint, hget, hauthority, hsigned⟩, hround.toAccount hne hload hkey hstore,
    hcleared, hbase, hsum⟩
  rw [List.take_append_drop]

end Processor.TransferFee

namespace Processor.ConfidentialTransferFee

open CiphertextArithmetic ConfidentialTransfer

variable {rt : Runtime} {ctx : Context} {accounts : List AccountInfo}

/-- Under a reading a round adds up what is hidden. -/
theorem pt_of_round {l : ℕ} (R : Reading l rt) (key : PodElGamalPubkey)
    {own : Option ConfidentialTransferFeeAmount} {σ₁ : Ledger} {sum sum' : PodElGamalCiphertext}
    (h : Round (plus rt) noFee M d ks own σ σ₁ sum sum') :
    R.pt key sum' = R.pt key sum + total (fun fee => R.pt key fee.withheldAmount)
      (Function.update (withheld ConfidentialTransferFeeAmount M σ) d own) ks :=
  measure_takings (f := fun fee : ConfidentialTransferFeeAmount => R.pt key fee.withheldAmount)
    (g := R.pt key)
    (R.pt_zeroed key) (fun _ _ _ h => R.pt_add key h) h.sum

theorem harvestedToMint (h : processHarvestWithheldTokensToMint rt accounts σ = .ok σ') :
    HarvestedToMint rt accounts σ σ' := by
  obtain _ | ⟨mintInfo, sources⟩ := accounts
  · cases h
  simp only [processHarvestWithheldTokensToMint, loadChecked, checkProgramAccount, bind_eq_ok,
    exists_unit, failIf_eq_ok, Prod.exists] at h
  obtain ⟨mint, ⟨_, hload⟩, _, _, config, hget, _, σ₁, config', hall, mint', hset, hstore⟩ := h
  obtain ⟨hmem, sum, rfl, hround⟩ := harvestAll_round hall
  obtain ⟨hsources, hcell⟩ := hround.swept.stored hstore
  refine ⟨mintInfo, sources, config, sum, rfl, ⟨hmem, ⟨mint, hload, hget⟩,
    ⟨mint, mint', hload, hset, hcell⟩, hsources⟩, ?_, fun l R key => ?_⟩
  · have hsum := hround.sum
    rw [Function.update_eq_self] at hsum
    exact hsum
  · have hsum := pt_of_round R key hround
    rw [Function.update_eq_self] at hsum
    exact hsum

theorem withdrawnToAccount {n : UInt8} {newBalance : PodAeCiphertext} {offset : Int}
    (h : processWithdrawWithheldTokensFromAccounts rt ctx accounts n newBalance offset σ =
      .ok σ') : WithdrawnToAccount rt ctx accounts n newBalance σ σ' := by
  obtain _ | ⟨mintInfo, _ | ⟨destinationInfo, rest⟩⟩ := accounts
  · cases h
  · cases h
  simp only [processWithdrawWithheldTokensFromAccounts, bind_eq_ok, Prod.exists] at h
  obtain ⟨proof, rest', hproof, h⟩ := h
  obtain ⟨proofInfos, rfl⟩ := verifyAndExtractContext_suffix hproof
  obtain _ | ⟨authorityInfo, infos⟩ := rest'
  · cases h
  simp only [loadChecked, checkProgramAccount, checkWithdrawAuthority, feeCredited, bind_eq_ok,
    exists_unit, failIf_eq_ok, okOr_eq_ok, bne_eq_false_iff_eq, pure_eq_ok, Prod.exists] at h
  obtain ⟨mint, ⟨_, hmint⟩, ⟨feeConfig, hfee, authority, hauthority, hsigned⟩, s, hs, state, hget,
    _, config, hconfig, hkeys, σ₁, t, sum, hall, hfirst, state', hget', _,
    ⟨available, havailable, rfl⟩, s', hset, hstore⟩ := h
  obtain ⟨hkey, hkey'⟩ := checkFeeKeys_ok hkeys
  have hd := loadFeeDestination_ok hs
  obtain ⟨hcleared, hbase, hround⟩ := withdrawAll_round hall
  -- the balance was not touched in the loop
  have hstate : state' = state := by
    rw [PodState.getExtension_eq_ok] at hget hget'
    rw [hcleared.get_of_ne (by decide), hget] at hget'
    exact (Option.some.inj hget').symm
  subst hstate
  have hown := toOption_getExtension_eq_withheld (V := ConfidentialTransferFeeAmount) hd.owner
    hd.load hd.mint
  rw [hown] at hround
  refine ⟨mintInfo, destinationInfo, authorityInfo, proofInfos, infos.take _, infos.drop _, s, t,
    s', mint, config, state', proof, available, ?_, ⟨length_drop_announced infos _, mint,
      feeConfig, authority, hmint, hfee, hauthority, hsigned⟩,
    hround.toAccount hd.ne hd.load hd.mint hstore, hcleared, hbase, hget, hset, hmint, hconfig,
    ⟨_, _, _, _, hproof⟩, ?_, havailable, fun l R hR => ?_⟩
  · rw [List.take_append_drop]
  · have hsum := hround.sum
    rw [Function.update_eq_self] at hsum
    rw [hfirst]
    exact hsum
  · have hsum := pt_of_round R config.withdrawWithheldAuthorityElgamalPubkey hround
    rw [Function.update_eq_self, R.pt_zeroed, zero_add, ← hfirst, ← hkey,
      hR.ciphertexts proof ⟨_, _, _, _, hproof⟩, hkey'] at hsum
    rw [R.pt_add _ havailable, hsum, ← hkey]

end Processor.ConfidentialTransferFee

/-- Each of the four instructions that collect withheld fees, with any list of accounts. -/
theorem withheld_fees_collected (rt : Runtime) (ctx : Context) (accounts : List AccountInfo)
    (σ σ' : Ledger) :
    (TransferFee.processHarvestWithheldTokensToMint accounts σ = .ok σ' →
      TransferFee.HarvestedToMint accounts σ σ') ∧
    (∀ n, TransferFee.processWithdrawWithheldTokensFromAccounts accounts n σ = .ok σ' →
      TransferFee.WithdrawnToAccount accounts n σ σ') ∧
    (ConfidentialTransferFee.processHarvestWithheldTokensToMint rt accounts σ = .ok σ' →
      ConfidentialTransferFee.HarvestedToMint rt accounts σ σ') ∧
    ∀ n newBalance offset,
      ConfidentialTransferFee.processWithdrawWithheldTokensFromAccounts rt ctx accounts n
          newBalance offset σ = .ok σ' →
        ConfidentialTransferFee.WithdrawnToAccount rt ctx accounts n newBalance σ σ' :=
  ⟨TransferFee.harvestedToMint, fun _ => TransferFee.withdrawnToAccount,
    ConfidentialTransferFee.harvestedToMint,
    fun _ _ _ => ConfidentialTransferFee.withdrawnToAccount⟩

end Instructions

/-! Five accounts that withhold: the destination `2`, two others of the mint `1`, one of another
mint and one that another program owns. -/

def withholdingMint : PodState PodMint where
  base := ⟨.none, 0, 0, .ofBool true, .none⟩
  accountType := [AccountType.mint.toU8]
  tlvData := entriesBytes
    [⟨.transferFeeConfig, Pod.toBytes (⟨⟨9⟩, ⟨9⟩, 5, default, default⟩ : TransferFeeConfig)⟩,
     ⟨.confidentialTransferFeeConfig,
      Pod.toBytes (⟨⟨9⟩, 3, .ofBool true, ⟨5, 0⟩⟩ : ConfidentialTransferFeeConfig)⟩]

def withholdingAccount (mint : Pubkey) (fee : UInt64) (secret : PodRistrettoPoint) :
    PodState PodAccount where
  base := ⟨mint, 7, 100, .none, 1, .none, 0, .none⟩
  accountType := [AccountType.account.toU8]
  tlvData := entriesBytes
    [⟨.transferFeeAmount, Pod.toBytes (⟨fee⟩ : TransferFeeAmount)⟩,
     ⟨.confidentialTransferFeeAmount,
      Pod.toBytes (⟨⟨secret, 0⟩⟩ : ConfidentialTransferFeeAmount)⟩,
     ⟨.confidentialTransferAccount,
      Pod.toBytes (ConfidentialTransfer.configuredAccount (.ofBool true) 4 0 10)⟩]

def withholdingLedger : Ledger := fun k =>
  if k = 1 then ⟨1, Keys.tokenProgram, withholdingMint.bytes⟩
  else if k = 2 then ⟨1, Keys.tokenProgram, (withholdingAccount 1 7 7).bytes⟩
  else if k = 3 then ⟨1, Keys.tokenProgram, (withholdingAccount 1 10 4).bytes⟩
  else if k = 4 then ⟨1, Keys.tokenProgram, (withholdingAccount 1 20 6).bytes⟩
  else if k = 5 then ⟨1, Keys.tokenProgram, (withholdingAccount 8 40 8).bytes⟩
  else if k = 6 then ⟨1, Keys.systemProgram, (withholdingAccount 1 80 9).bytes⟩
  else .empty

/-- One account twice, the destination itself, and two that are not valid. -/
def sampleSources : List AccountInfo :=
  [⟨3, false⟩, ⟨4, false⟩, ⟨3, false⟩, ⟨2, false⟩, ⟨5, false⟩, ⟨6, false⟩]

/-- The equality of the withheld sum with its encryption for the destination. -/
def sumContext : Context :=
  { Context.plain with
    getInstructionRelative := fun _ => some ⟨Keys.zkProofProgram,
      ProofType.ciphertextCiphertextEquality.toU8,
      Pod.toBytes (⟨3, 4, ⟨17, 0⟩, ⟨17, 2⟩⟩ : CiphertextCiphertextEqualityProofContext)⟩ }

theorem withheld_fees_collected_once : ∃ σ₁ σ₂ σ₃ σ₄,
    TransferFee.HarvestedToMint (⟨1, false⟩ :: sampleSources) withholdingLedger σ₁ ∧
    TransferFee.WithdrawnToAccount (⟨1, false⟩ :: ⟨2, false⟩ :: ⟨9, true⟩ :: sampleSources) 6
      withholdingLedger σ₂ ∧
    ConfidentialTransferFee.HarvestedToMint (.modular 100) (⟨1, false⟩ :: sampleSources)
      withholdingLedger σ₃ ∧
    ConfidentialTransferFee.WithdrawnToAccount (.modular 100) sumContext
      (⟨1, false⟩ :: ⟨2, false⟩ :: ⟨Keys.instructionsSysvar, false⟩ :: ⟨9, true⟩ ::
        sampleSources) 6 0 withholdingLedger σ₄ := by
  obtain ⟨σ₁, h₁⟩ := Option.isSome_iff_exists.mp
    (show (toOption (TransferFee.processHarvestWithheldTokensToMint
      (⟨1, false⟩ :: sampleSources) withholdingLedger)).isSome = true by decide +kernel)
  obtain ⟨σ₂, h₂⟩ := Option.isSome_iff_exists.mp
    (show (toOption (TransferFee.processWithdrawWithheldTokensFromAccounts
      (⟨1, false⟩ :: ⟨2, false⟩ :: ⟨9, true⟩ :: sampleSources) 6
        withholdingLedger)).isSome = true by decide +kernel)
  obtain ⟨σ₃, h₃⟩ := Option.isSome_iff_exists.mp
    (show (toOption (ConfidentialTransferFee.processHarvestWithheldTokensToMint (.modular 100)
      (⟨1, false⟩ :: sampleSources) withholdingLedger)).isSome = true by decide +kernel)
  obtain ⟨σ₄, h₄⟩ := Option.isSome_iff_exists.mp
    (show (toOption (ConfidentialTransferFee.processWithdrawWithheldTokensFromAccounts
      (.modular 100) sumContext (⟨1, false⟩ :: ⟨2, false⟩ :: ⟨Keys.instructionsSysvar, false⟩ ::
        ⟨9, true⟩ :: sampleSources) 6 0 1 withholdingLedger)).isSome = true by decide +kernel)
  rw [toOption_eq_some] at h₁ h₂ h₃ h₄
  exact ⟨σ₁, σ₂, σ₃, σ₄, (withheld_fees_collected (.modular 100) .plain _ _ _).1 h₁,
    (withheld_fees_collected (.modular 100) .plain _ _ _).2.1 _ h₂,
    (withheld_fees_collected (.modular 100) .plain _ _ _).2.2.1 h₃,
    (withheld_fees_collected (.modular 100) sumContext _ _ _).2.2.2 _ _ _ h₄⟩

end SolanaEasy.Token
