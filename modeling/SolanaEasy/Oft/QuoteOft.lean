import SolanaEasy.Oft.Issue
import SolanaEasy.Oft.Quote
import SolanaEasy.Token.Law.ValidFees

/-!
# Quote of the amounts — what a holder is told, and what is taken

`quote_oft.rs` tells a holder the amounts and the fees of a send. What the send then takes from
the account, what the escrow receives, what leaves the supply, and what the message says, are
these figures, whatever the token is.
-/

namespace SolanaEasy.Oft

open Token (Pubkey Ledger Runtime TransferFee TransferFeeConfig PodMint load Balanced)

/-! ## QuoteOFT -/

section Details

variable {sent received oftFee withheld : UInt64}

end Details

/-! ## What the mint takes -/

section Withheld

variable {rt : Runtime} {ctx : Token.Context} {σ : Ledger} {M : Pubkey} {x y : UInt64}
  {fee : Option TransferFee}

/-- In a ledger that can be reached no mint takes more than everything. -/
theorem epochFee_valid (hreach : Token.Reachable rt (fun _ => True) σ)
    (howner : (σ M).owner = Token.Keys.tokenProgram) (h : epochFee ctx σ M = .ok fee) :
    ∀ f ∈ fee, f.transferFeeBasisPoints.toNat ≤ maxFeeBasisPoints := by
  simp only [epochFee, bind_eq_ok, invoke_eq_ok, pure_eq_ok] at h
  obtain ⟨m, hload, rfl⟩ := h
  have hvalid := hreach.feesValid M m.view (Token.contents_of_load howner hload)
  intro f hf
  rw [Token.PodState.toOption_getExtension] at hf
  obtain ⟨config, hconfig, rfl⟩ := Option.map_eq_some_iff.mp hf
  obtain ⟨hold, hnew⟩ := hvalid _ _ (Token.View.mintCore_withheld_of_get hconfig).2
  rw [TransferFeeConfig.getEpochFee]
  split
  · exact hnew
  · exact hold

/-- The mint takes what the amount sent is more than the amount it leaves. -/
theorem calculatedFee_of_postFee {m : Token.PodState PodMint} {f : UInt64}
    (hload : load σ PodMint M = .ok m) (hfee : epochFee ctx σ M = .ok fee)
    (hpost : postFee fee x = some y) (h : Token.Processor.calculatedFee ctx m x = .ok f) :
    f.toNat + y.toNat = x.toNat := by
  simp only [epochFee, bind_eq_ok, invoke_eq_ok, pure_eq_ok] at hfee
  obtain ⟨m', hload', rfl⟩ := hfee
  obtain rfl := Except.ok.inj (hload'.symm.trans hload)
  rw [Token.Processor.calculatedFee] at h
  cases hconfig : toOption (m'.getExtension TransferFeeConfig) with
  | none =>
    rw [hconfig] at h hpost
    obtain rfl := Except.ok.inj h
    obtain rfl := Option.some.inj hpost
    exact Nat.zero_add _
  | some config =>
    rw [hconfig] at h hpost
    have hf := okOr_eq_ok.mp h
    simp only [Option.map_some, postFee, Option.elim_some, calculatePostFeeAmount,
      Option.bind_eq_bind, Option.bind_eq_some_iff, Token.checkedSub_eq_some] at hpost
    obtain ⟨f', hf', hsum⟩ := hpost
    obtain rfl := Option.some.inj (hf.symm.trans hf')
    omega

end Withheld

/-! ## What a send takes -/

/-- The account has lost so much. -/
def Debited (σ σ' : Ledger) (k : Pubkey) (x : ℕ) : Prop :=
  ∃ v v', σ.book.Account k v ∧ σ'.book.Account k v' ∧
    v'.base.amount.toNat + x = v.base.amount.toNat

/-- What a send went through, up to the call of the endpoint. -/
structure SendCourse (rt : Runtime) (oapp : OApp) (ctx : Token.Context) (w w' : World)
    (accounts : SendAccounts) (params : SendParams) (m : EndpointSendParams) (peer : PeerConfig)
    (sent received oftFee : UInt64) (σ : Ledger) : Prop where
  found : w.peers params.dstEid = some peer
  running : w.store.paused = false
  mint : ∃ v, mintAccount w.ledger w.store.tokenMint = .ok v
  amounts : computeFeeAndAdjustAmount ctx w.ledger params.amountLd w.store peer.feeBps =
    .ok (sent, received, oftFee)
  enough : ¬ received < params.minAmountLd
  apart : accounts.signer ≠ w.oftStore → accounts.tokenSource ≠ w.store.tokenEscrow
  collected : ∃ decimals, collect rt ctx w accounts decimals sent received oftFee =
    .ok (σ, w'.store.tvlLd)
  sent : oapp.send σ accounts.remaining m = .ok w'.ledger
  message : w.store.amountLd m.message = received.toNat

section Course

variable {rt : Runtime} {oapp : OApp} {ctx : Token.Context} {w w' : World}
  {accounts : SendAccounts} {params : SendParams} {m : EndpointSendParams} {peer : PeerConfig}
  {sent received oftFee : UInt64} {σ : Ledger}

theorem mintAccount_ok {σ : Ledger} {M : Pubkey} {v : Token.PodState PodMint}
    (h : mintAccount σ M = .ok v) :
    (σ M).owner = Token.Keys.tokenProgram ∧ load σ PodMint M = .ok v := by
  simpa only [mintAccount, bind_eq_ok, exists_unit, failIf_eq_ok, bne_eq_false_iff_eq,
    invoke_eq_ok] using h

/-- Into the escrow of an adapter: the mint withholds what the quote shows. -/
theorem SendCourse.adapter (hreach : Token.Reachable rt (fun _ => True) w.ledger)
    (outsider : accounts.signer ≠ w.oftStore) (htype : w.store.oftType = .adapter)
    (h : SendCourse rt oapp ctx w w' accounts params m peer sent received oftFee σ) :
    ∃ withheld : UInt64, withheld.toNat + oftFee.toNat + received.toNat = sent.toNat ∧
      Balanced w.ledger σ accounts.tokenSource w.store.tokenEscrow sent.toNat withheld.toNat ∧
      w'.store.tvlLd.toNat = w.store.tvlLd.toNat + received.toNat := by
  obtain ⟨g, _, _, hsum, hadapter, _⟩ := computeFeeAndAdjustAmount_split h.amounts
  obtain ⟨fee, post, hepoch, _, _, hpre⟩ := hadapter htype
  obtain ⟨v, hmint⟩ := h.mint
  obtain ⟨howner, hload⟩ := mintAccount_ok hmint
  have hpost := postFee_of_preFee (epochFee_valid hreach howner hepoch) hpre
  obtain ⟨decimals, hcollect⟩ := h.collected
  simp only [collect, htype, bind_eq_ok, own_eq_ok, pure_eq_ok, Prod.mk.injEq] at hcollect
  obtain ⟨tvl, htvl, σ', htransfer, rfl, rfl⟩ := hcollect
  obtain ⟨v', withheld, hload', hfee, hbalanced⟩ :=
    (transferChecked_ok hreach.wf htransfer).2 (h.apart outsider)
  obtain rfl := Except.ok.inj (hload.symm.trans hload')
  have hleft := calculatedFee_of_postFee hload hepoch hpost hfee
  exact ⟨withheld, by omega, hbalanced, plus_eq_ok.mp htvl⟩

/-- Out of the supply of a native token, but for the fee. -/
theorem SendCourse.native (hreach : Token.Reachable rt (fun _ => True) w.ledger)
    (outsider : accounts.signer ≠ w.oftStore) (htype : w.store.oftType = .native)
    (h : SendCourse rt oapp ctx w w' accounts params m peer sent received oftFee σ) :
    (0 : UInt64).toNat + oftFee.toNat + received.toNat = sent.toNat ∧
      w'.store.tvlLd = w.store.tvlLd ∧ Debited w.ledger σ accounts.tokenSource sent.toNat ∧
      ∃ v v', w.ledger.book.Mint w.store.tokenMint v ∧ σ.book.Mint w.store.tokenMint v' ∧
        v'.base.supply.toNat + received.toNat = v.base.supply.toNat := by
  obtain ⟨g, _, _, hsum, _, hnative⟩ := computeFeeAndAdjustAmount_split h.amounts
  obtain ⟨rfl, _⟩ := hnative htype
  obtain ⟨decimals, hcollect⟩ := h.collected
  simp only [collect, htype, bind_eq_ok, own_eq_ok, invoke_eq_ok, pure_eq_ok, Prod.mk.injEq]
    at hcollect
  obtain ⟨burned, hburned, τ, hburn, σ', hfee, rfl, htvl⟩ := hcollect
  have hburned := minus_eq_ok.mp hburned
  have hzero : (0 : UInt64).toNat = 0 := rfl
  obtain ⟨⟨v, v₁, source, source₁, hdebit⟩, n, n₁, minted, minted₁, hsupply⟩ :=
    burn_ok hreach.wf hburn
  refine ⟨by omega, htvl.symm, ?_⟩
  split at hfee
  · have hreach' := hreach.run (.single (.call (c := ⟨ctx, _, _, _⟩) trivial hburn))
    obtain ⟨_, _, _, _, hbalanced⟩ :=
      (transferChecked_ok hreach'.wf hfee).2 (h.apart outsider)
    obtain ⟨v₂, v', source₂, source', hdebit', _⟩ := hbalanced.debit
    obtain rfl := source₁.unique source₂
    exact ⟨⟨v, v', source, source', by omega⟩, n, n₁, minted, transferChecked_mint hfee minted₁,
      by omega⟩
  · rename_i hnone
    obtain rfl := Except.ok.inj hfee
    have hnone : oftFee.toNat = 0 := by
      rw [gt_iff_lt, UInt64.lt_iff_toNat_lt, hzero] at hnone
      omega
    exact ⟨⟨v, v₁, source, source₁, by omega⟩, n, n₁, minted, minted₁, by omega⟩

end Course

end SolanaEasy.Oft
