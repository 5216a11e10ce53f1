import SolanaEasy.Oft.Program
import SolanaEasy.Token.Law.Transfers

/-!
# Solvency — the escrow holds what the other chains owe

A run of an adapter, from `InitOFT` on: its own instructions in any order, and in between
whatever everyone else does, as long as it takes nothing out of the escrow. Beside the
world stand the amounts of the messages sent and of those received.
-/

namespace SolanaEasy.Oft

open Token (Pubkey Ledger Runtime PodMint PodAccount PodState View load Balanced)

/-- What everyone else does: token instructions and other programs in any order, at whose
end the escrow is still there, with at least its tokens. -/
structure Deposits (rt : Runtime) (escrow : Pubkey) (σ σ' : Ledger) : Prop where
  run : Token.Run rt (fun _ => True) σ σ'
  kept : ∀ v, σ.book.Account escrow v →
    ∃ v', σ'.book.Account escrow v' ∧ v.base.amount.toNat ≤ v'.base.amount.toNat

/-- The programs that act with the signature of the store leave its escrow alone. -/
structure OApp.Honest (oapp : OApp) (rt : Runtime) (escrow : Pubkey) : Prop where
  registerOapp {σ accounts delegate σ'} (run : oapp.registerOapp σ accounts delegate = .ok σ') :
    Deposits rt escrow σ σ'
  setDelegate {σ accounts delegate σ'} (run : oapp.setDelegate σ accounts delegate = .ok σ') :
    Deposits rt escrow σ σ'
  send {σ accounts params σ'} (run : oapp.send σ accounts params = .ok σ') :
    Deposits rt escrow σ σ'
  clear {σ accounts params σ'} (run : oapp.clear σ accounts params = .ok σ') :
    Deposits rt escrow σ σ'
  sendCompose {σ accounts params σ'} (run : oapp.sendCompose σ accounts params = .ok σ') :
    Deposits rt escrow σ σ'
  createAssociatedToken {σ payer wallet mint σ'}
    (run : oapp.createAssociatedToken σ payer wallet mint = .ok σ') : Deposits rt escrow σ σ'

/-- The local amount that a message speaks of. -/
def OFTStore.amountLd (s : OFTStore) (message : Bytes) : ℕ :=
  ((toOption (MsgCodec.amountSd message)).getD 0).toNat * s.ld2sdRate.toNat

/-- The account is there, with at least so many tokens. -/
def Covers (σ : Ledger) (escrow : Pubkey) (n : ℕ) : Prop :=
  ∃ v, σ.book.Account escrow v ∧ n ≤ v.base.amount.toNat

section Moves

variable {rt : Runtime} {oapp : OApp} {ctx : Token.Context} {σ σ' : Ledger}
  {escrow s M d a k : Pubkey} {x : UInt64} {decimals : UInt8} {n : ℕ}

theorem Deposits.refl (rt : Runtime) (escrow : Pubkey) (σ : Ledger) : Deposits rt escrow σ σ where
  run := .refl
  kept v held := ⟨v, held, Nat.le_refl _⟩

theorem Deposits.covers (h : Deposits rt escrow σ σ') (hcovers : Covers σ escrow n) :
    Covers σ' escrow n := by
  obtain ⟨v, held, hn⟩ := hcovers
  obtain ⟨v', held', hv⟩ := h.kept v held
  exact ⟨v', held', hn.trans hv⟩

theorem Deposits.reachable (h : Deposits rt escrow σ σ')
    (hreach : Token.Reachable rt (fun _ => True) σ) : Token.Reachable rt (fun _ => True) σ' :=
  hreach.run h.run

theorem tokenAccount_ok {v : PodState PodAccount} (h : tokenAccount σ k = .ok v) :
    σ.book.Account k v.view := by
  simp only [tokenAccount, bind_eq_ok, exists_unit, failIf_eq_ok, bne_eq_false_iff_eq,
    invoke_eq_ok] at h
  exact Token.contents_of_load h.1 h.2

theorem heldBy_ok {v : PodState PodAccount} {u : Unit} (h : heldBy a M v = .ok u) :
    v.view.base.owner = a ∧ v.view.base.mint = M := by
  show v.base.owner = a ∧ v.base.mint = M
  simpa only [heldBy, failIf_eq_ok, Bool.or_eq_false_iff, bne_eq_false_iff_eq] using h

theorem transferChecked_reachable (hreach : Token.Reachable rt (fun _ => True) σ)
    (h : transferChecked rt ctx σ s M d a x decimals = .ok σ') :
    Token.Reachable rt (fun _ => True) σ' := by
  let c : Token.Call := ⟨ctx, [⟨s, false⟩, ⟨M, false⟩, ⟨d, false⟩, ⟨a, true⟩],
    .transferChecked x decimals, σ⟩
  exact hreach.run (.single (.call (c := c) trivial (invoke_eq_ok.mp h)))

/-- A transfer to another account takes the whole amount from one, and gives the other what
the fee of the mint leaves. -/
theorem transferChecked_ok (hwf : σ.Wf)
    (h : transferChecked rt ctx σ s M d a x decimals = .ok σ') :
    (s = d → σ' = σ) ∧ (s ≠ d → ∃ m fee, load σ PodMint M = .ok m ∧
      Token.Processor.calculatedFee ctx m x = .ok fee ∧
      Balanced σ σ' s d x.toNat fee.toNat) := by
  let t : Token.Processor.TransferInstruction := .checked decimals
  have hrun : Token.Processor.processTransfer ctx
      (t.infos ⟨s, false⟩ ⟨M, false⟩ ⟨d, false⟩ ⟨a, true⟩ []) x t σ = .ok σ' := invoke_eq_ok.mp h
  obtain ⟨p, terms, base, ht⟩ := Token.processTransfer_ok hrun
  obtain ⟨m, _, hm, _, hfee, _⟩ := Token.transferTerms_some (d := decimals) ht.told
  exact ⟨ht.itself, fun hne => ⟨m, _, hm, hfee, ht.balanced hwf hne⟩⟩

/-- What a transfer into the escrow leaves there. -/
theorem Balanced.covers_credit {fee : ℕ} (h : Balanced σ σ' s d x.toNat fee) {y : ℕ}
    (hy : y + fee ≤ x.toNat) (hcovers : Covers σ d n) : Covers σ' d (n + y) := by
  obtain ⟨v, held, hn⟩ := hcovers
  obtain ⟨w, w', target, target', hsum, _⟩ := h.credit
  obtain rfl := held.unique target
  exact ⟨w', target', by omega⟩

/-- What a transfer out of the escrow leaves there. -/
theorem Balanced.covers_debit {fee : ℕ} (h : Balanced σ σ' s d x.toNat fee)
    (hcovers : Covers σ s (n + x.toNat)) : Covers σ' s n := by
  obtain ⟨v, held, hn⟩ := hcovers
  obtain ⟨w, w', source, source', hsum, _⟩ := h.debit
  obtain rfl := held.unique source
  exact ⟨w', source', by omega⟩

/-- A transfer out of the escrow, also one back to it. -/
theorem covers_release (hwf : σ.Wf) (h : transferChecked rt ctx σ s M d a x decimals = .ok σ')
    (hcovers : Covers σ s (n + x.toNat)) : Covers σ' s n := by
  obtain ⟨hitself, hother⟩ := transferChecked_ok hwf h
  by_cases he : s = d
  · obtain ⟨v, held, hn⟩ := hcovers
    rw [hitself he]
    exact ⟨v, held, by omega⟩
  · obtain ⟨m, fee, _, _, hbalanced⟩ := hother he
    exact Balanced.covers_debit hbalanced hcovers

end Moves

/-! ## Steps -/

/-- The ledger is one of the token program, and the locked value is in the escrow. -/
structure Solvent (rt : Runtime) (escrow : Pubkey) (w : World) (sent released : ℕ) : Prop where
  reach : Token.Reachable rt (fun _ => True) w.ledger
  adapter : w.store.oftType = .adapter
  balance : w.store.tvlLd.toNat + released = sent
  place : w.store.tokenEscrow = escrow
  covers : Covers w.ledger escrow w.store.tvlLd.toNat

section Steps

variable {rt : Runtime} {oapp : OApp} {ctx : Token.Context} {escrow : Pubkey} {w w' : World}
  {sent released : ℕ}

theorem initOft_solvent {σ : Ledger} {accounts : InitOFTAccounts} {params : InitOFTParams}
    (honest : oapp.Honest rt escrow) (reach : Token.Reachable rt (fun _ => True) σ)
    (adapter : params.oftType = .adapter) (into : accounts.tokenEscrow = escrow)
    (h : initOft rt oapp ctx σ accounts params = .ok w) : Solvent rt escrow w 0 0 := by
  simp only [initOft, bind_eq_ok, exists_unit, invoke_eq_ok] at h
  obtain ⟨m, _, σ₁, hrun, vault, hvault, _, h⟩ := h
  split at h
  · cases h
  · simp only [bind_eq_ok, invoke_eq_ok, pure_eq_ok] at h
    obtain ⟨σ₂, hregister, rfl⟩ := h
    have hdeposits := honest.registerOapp hregister
    let c : Token.Call := ⟨ctx, [⟨accounts.tokenEscrow, true⟩, ⟨accounts.tokenMint, false⟩],
      .initializeAccount3 accounts.oftStore, σ⟩
    have hreach := reach.run (.single (.call (c := c) trivial hrun))
    refine ⟨hdeposits.reachable hreach, adapter, rfl, into, hdeposits.covers ?_⟩
    exact ⟨_, into ▸ tokenAccount_ok hvault, Nat.zero_le _⟩

/-- The message carries what is added to the locked value. -/
theorem OFTStore.amountLd_encode (s : OFTStore) {x : UInt64} (sendTo : Address) (sender : Pubkey)
    (composeMsg : Option Bytes) (hdust : s.ld2sdRate.toNat ∣ x.toNat) :
    s.amountLd (MsgCodec.encode sendTo (s.ld2sd x) sender composeMsg) = x.toNat := by
  rw [amountLd, amountSd_encode, toOption_ok, Option.getD_some]
  exact s.ld2sd_mul hdust

theorem send_solvent {accounts : SendAccounts} {params : SendParams}
    {message : EndpointSendParams} (honest : oapp.Honest rt escrow)
    (outsider : accounts.signer ≠ w.oftStore) (hsolvent : Solvent rt escrow w sent released)
    (h : send rt oapp ctx w accounts params = .ok (w', message)) :
    Solvent rt escrow w' (sent + w.store.amountLd message.message) released := by
  obtain rfl := hsolvent.place
  simp only [send, bind_eq_ok, exists_unit, own_eq_ok, invoke_eq_ok, failIf_eq_ok, pure_eq_ok,
    Prod.mk.injEq] at h
  obtain ⟨peer, _, source, hsource, hby, vault, hvault, hof, m, hm, _, ⟨amountSent, received,
    oftFee⟩, hamounts, _, outbound, _, inbound, _, ⟨σ₁, tvl⟩, hcollect, _, _, _, options, _, σ₂,
    hsend, rfl, rfl⟩ := h
  obtain ⟨hdust, harrives⟩ := computeFeeAndAdjustAmount_ok hsolvent.adapter hamounts
  simp only [collect, hsolvent.adapter, bind_eq_ok, own_eq_ok, pure_eq_ok, Prod.mk.injEq]
    at hcollect
  obtain ⟨tvl', htvl, σ', htransfer, rfl, rfl⟩ := hcollect
  have hsum := plus_eq_ok.mp htvl
  have hwf := hsolvent.reach.wf
  -- the source is the signer's, the escrow the store's
  have hne : accounts.tokenSource ≠ w.store.tokenEscrow := by
    intro he
    have held := tokenAccount_ok hsource
    rw [he] at held
    have hview := held.unique (tokenAccount_ok hvault)
    have howner := (heldBy_ok hby).1
    rw [hview, (heldBy_ok hof).1] at howner
    exact outsider howner.symm
  obtain ⟨m', fee, hm', hfee, hbalanced⟩ := (transferChecked_ok hwf htransfer).2 hne
  have hdeposits := honest.send hsend
  refine ⟨hdeposits.reachable (transferChecked_reachable hsolvent.reach htransfer),
    hsolvent.adapter, ?_, rfl, hdeposits.covers ?_⟩
  · have hmessage := w.store.amountLd_encode params.sendTo accounts.signer params.composeMsg hdust
    have hbalance := hsolvent.balance
    simp only [hmessage, hsum]
    omega
  · rw [show tvl'.toNat = _ from hsum]
    exact Balanced.covers_credit hbalanced (harrives m' hm' fee hfee) hsolvent.covers

theorem associatedAccount_deposits {σ σ' : Ledger} {payer wallet mint k escrow : Pubkey}
    (honest : oapp.Honest rt escrow)
    (h : associatedAccount oapp σ payer wallet mint = .ok (σ', k)) : Deposits rt escrow σ σ' := by
  simp only [associatedAccount, bind_eq_ok, exists_unit, pure_eq_ok, Prod.mk.injEq] at h
  obtain ⟨σ₁, hcreate, v, _, _, rfl, _⟩ := h
  split at hcreate
  · exact honest.createAssociatedToken (invoke_eq_ok.mp hcreate)
  · obtain rfl := Except.ok.inj hcreate
    exact .refl rt escrow σ

theorem lzReceive_solvent {accounts : LzReceiveAccounts} {params : LzReceiveParams}
    (honest : oapp.Honest rt escrow) (hsolvent : Solvent rt escrow w sent released)
    (h : lzReceive rt oapp ctx w accounts params = .ok w') :
    Solvent rt escrow w' sent (released + w.store.amountLd params.message) := by
  obtain rfl := hsolvent.place
  simp only [lzReceive, bind_eq_ok, exists_unit, own_eq_ok, invoke_eq_ok, failIf_eq_ok,
    pure_eq_ok] at h
  obtain ⟨peer, _, _, vault, _, _, sendTo, _, _, ⟨σ₁, dest⟩, hdest, m, _, _, _, _, σ₂, hclear,
    amountSd, hamount, received, hreceived, inbound, _, outbound, _, ⟨σ₃, tvl, arrived⟩, hrelease,
    σ₄, hcompose, rfl⟩ := h
  simp only [release, hsolvent.adapter, bind_eq_ok, own_eq_ok, pure_eq_ok, Prod.mk.injEq]
    at hrelease
  obtain ⟨tvl', htvl, σ', htransfer, _, _, rfl, rfl, _⟩ := hrelease
  have hsum := minus_eq_ok.mp htvl
  have hmessage : w.store.amountLd params.message = received.toNat := by
    rw [OFTStore.amountLd, hamount, toOption_ok, Option.getD_some]
    exact (times_eq_ok.mp hreceived).symm
  have hcreated := associatedAccount_deposits honest hdest
  have hcleared := honest.clear hclear
  have hreach := hcleared.reachable (hcreated.reachable hsolvent.reach)
  have hcovers := hcleared.covers (hcreated.covers hsolvent.covers)
  rw [← hsum] at hcovers
  have hafter := covers_release hreach.wf htransfer hcovers
  have hcomposed : Deposits rt w.store.tokenEscrow σ' σ₄ := by
    cases hmsg : MsgCodec.composeMsg params.message with
    | none =>
      rw [hmsg] at hcompose
      obtain rfl := Except.ok.inj hcompose
      exact .refl rt _ _
    | some message =>
      rw [hmsg] at hcompose
      exact honest.sendCompose (invoke_eq_ok.mp hcompose)
  refine ⟨hcomposed.reachable (transferChecked_reachable hreach htransfer), hsolvent.adapter, ?_,
    rfl, hcomposed.covers hafter⟩
  have hbalance := hsolvent.balance
  simp only [hmessage]
  omega

/-- What a withdrawal went through. -/
theorem withdrawFee_ok {accounts : WithdrawFeeAccounts} {feeLd : UInt64}
    (h : withdrawFee rt ctx w accounts feeLd = .ok w') :
    ∃ v σ' decimals, w.ledger.book.Account w.store.tokenEscrow v ∧
      w.store.tvlLd.toNat + feeLd.toNat ≤ v.base.amount.toNat ∧
      transferChecked rt ctx w.ledger w.store.tokenEscrow w.store.tokenMint accounts.tokenDest
        w.oftStore feeLd decimals = .ok σ' ∧ w' = { w with ledger := σ' } := by
  simp only [withdrawFee, bind_eq_ok, exists_unit, own_eq_ok, failIf_eq_ok, pure_eq_ok,
    decide_eq_false_iff_not] at h
  obtain ⟨_, m, _, vault, hvault, _, dest, _, _, unlocked, hunlocked, hfee, σ', htransfer, rfl⟩ := h
  refine ⟨vault.view, σ', _, tokenAccount_ok hvault, ?_, htransfer, rfl⟩
  have hsum := minus_eq_ok.mp hunlocked
  have hle : feeLd.toNat ≤ unlocked.toNat := UInt64.le_iff_toNat_le.mp (UInt64.not_lt.mp hfee)
  show _ ≤ vault.base.amount.toNat
  omega

theorem withdrawFee_solvent {accounts : WithdrawFeeAccounts} {feeLd : UInt64}
    (hsolvent : Solvent rt escrow w sent released)
    (h : withdrawFee rt ctx w accounts feeLd = .ok w') : Solvent rt escrow w' sent released := by
  obtain rfl := hsolvent.place
  obtain ⟨v, σ', decimals, held, hle, htransfer, rfl⟩ := withdrawFee_ok h
  exact ⟨transferChecked_reachable hsolvent.reach htransfer, hsolvent.adapter, hsolvent.balance,
    rfl, covers_release hsolvent.reach.wf htransfer ⟨v, held, hle⟩⟩

theorem setOftConfig_solvent {admin : Pubkey} {remaining : List Pubkey}
    {params : SetOFTConfigParams} (honest : oapp.Honest rt escrow)
    (hsolvent : Solvent rt escrow w sent released)
    (h : setOftConfig oapp w admin remaining params = .ok w') :
    Solvent rt escrow w' sent released := by
  obtain ⟨hreach, hadapter, hbalance, hescrow, hcovers⟩ := hsolvent
  cases params with
  | delegate delegate =>
    simp only [setOftConfig, bind_eq_ok, exists_unit, invoke_eq_ok, pure_eq_ok] at h
    obtain ⟨_, σ', hset, rfl⟩ := h
    have hdeposits := honest.setDelegate hset
    exact ⟨hdeposits.reachable hreach, hadapter, hbalance, hescrow, hdeposits.covers hcovers⟩
  | defaultFee feeBps =>
    simp only [setOftConfig, bind_eq_ok, exists_unit, pure_eq_ok] at h
    obtain ⟨_, _, rfl⟩ := h
    exact ⟨hreach, hadapter, hbalance, hescrow, hcovers⟩
  | admin | paused | pauser | unpauser =>
    simp only [setOftConfig, bind_eq_ok, exists_unit, pure_eq_ok] at h
    obtain ⟨_, rfl⟩ := h
    exact ⟨hreach, hadapter, hbalance, hescrow, hcovers⟩

theorem setPause_solvent {signer : Pubkey} {paused : Bool}
    (hsolvent : Solvent rt escrow w sent released)
    (h : setPause w signer paused = .ok w') : Solvent rt escrow w' sent released := by
  simp only [setPause, bind_eq_ok, exists_unit, pure_eq_ok] at h
  obtain ⟨_, rfl⟩ := h
  exact ⟨hsolvent.reach, hsolvent.adapter, hsolvent.balance, hsolvent.place, hsolvent.covers⟩

theorem setPeerConfig_solvent {admin : Pubkey} {eid : UInt32} {config : PeerConfigParam}
    (hsolvent : Solvent rt escrow w sent released)
    (h : setPeerConfig oapp ctx w admin eid config = .ok w') :
        Solvent rt escrow w' sent released := by
  simp only [setPeerConfig, bind_eq_ok, exists_unit, pure_eq_ok] at h
  obtain ⟨_, peer, _, rfl⟩ := h
  exact ⟨hsolvent.reach, hsolvent.adapter, hsolvent.balance, hsolvent.place, hsolvent.covers⟩

end Steps

/-! ## Runs -/

section Runs

variable {rt : Runtime} {oapp : OApp} {escrow : Pubkey} {w : World} {sent released : ℕ}

end Runs

def quietOApp : OApp where
  registerOapp σ _ _ := .ok σ
  setDelegate σ _ _ := .ok σ
  send σ _ _ := .ok σ
  clear σ _ _ := .ok σ
  sendCompose σ _ _ := .ok σ
  clearAccounts := 8
  associatedToken wallet _ := wallet + 100
  createAssociatedToken _ _ _ _ := .error .invalidArgument
  combineOptions enforced _ := .ok enforced
  assertType3 _ := .ok ()

def bridgeLedger : Ledger :=
  Token.scripted (.modular 2)
    [(.plain, [⟨1, false⟩], .initializeTransferFeeConfig none none 100 50),
     (.plain, [⟨1, false⟩], .initializeMint2 6 4 none),
     (.plain, [⟨2, false⟩, ⟨1, false⟩], .initializeAccount3 7),
     (.plain, [⟨108, false⟩, ⟨1, false⟩], .initializeAccount3 8),
     (.plain, [⟨1, false⟩, ⟨2, false⟩, ⟨4, true⟩], .mintTo 9000)]
    (Token.blank [(1, 278), (2, 178), (3, 178), (108, 178)])

def bridgeRemaining : List Pubkey := [30, 20, 0, 0, 0, 0, 0, 0]

def walletAddress (k : Pubkey) : Address := senderAddress k

end SolanaEasy.Oft
