import SolanaEasy.Oft.Moves

/-!
# Issue — what a native store has minted

The counterpart of the escrow on a chain where the token is minted and burned. Whatever
everyone else does, as long as nobody else mints: the supply is at most what came in less what
went out.
-/

namespace SolanaEasy.Oft

open Token (Pubkey Ledger Runtime PodMint PodAccount PodState View load)

/-- What everyone else does: token instructions and other programs in any order, at whose end
the mint is still there, with no more of its tokens. -/
structure Thrifty (rt : Runtime) (mint : Pubkey) (σ σ' : Ledger) : Prop where
  run : Token.Run rt (fun _ => True) σ σ'
  kept : ∀ m, σ.book.Mint mint m →
    ∃ m', σ'.book.Mint mint m' ∧ m'.base.supply.toNat ≤ m.base.supply.toNat

/-- All that the programs around a store do to the ledger is of one kind. -/
structure OApp.Within (oapp : OApp) (R : Ledger → Ledger → Prop) : Prop where
  registerOapp {σ accounts delegate σ'} (run : oapp.registerOapp σ accounts delegate = .ok σ') :
    R σ σ'
  setDelegate {σ accounts delegate σ'} (run : oapp.setDelegate σ accounts delegate = .ok σ') :
    R σ σ'
  send {σ accounts params σ'} (run : oapp.send σ accounts params = .ok σ') : R σ σ'
  clear {σ accounts params σ'} (run : oapp.clear σ accounts params = .ok σ') : R σ σ'
  sendCompose {σ accounts params σ'} (run : oapp.sendCompose σ accounts params = .ok σ') : R σ σ'
  createAssociatedToken {σ payer wallet mint σ'}
    (run : oapp.createAssociatedToken σ payer wallet mint = .ok σ') : R σ σ'

theorem OApp.Within.honest {oapp : OApp} {rt : Runtime} {escrow : Pubkey}
    (h : oapp.Within (Deposits rt escrow)) : oapp.Honest rt escrow where
  registerOapp run := h.registerOapp run
  setDelegate run := h.setDelegate run
  send run := h.send run
  clear run := h.clear run
  sendCompose run := h.sendCompose run
  createAssociatedToken run := h.createAssociatedToken run

/-! ## The supply -/

/-- The mint is there, and its supply and what went out are no more than what came in. -/
def Outstanding (σ : Ledger) (mint : Pubkey) (sent taken : ℕ) : Prop :=
  ∃ m, σ.book.Mint mint m ∧ m.base.supply.toNat + sent ≤ taken

section Supply

variable {rt : Runtime} {ctx : Token.Context} {σ σ' : Ledger} {s M d a : Pubkey} {x : UInt64}
  {sent taken : ℕ}

theorem Thrifty.refl (rt : Runtime) (mint : Pubkey) (σ : Ledger) : Thrifty rt mint σ σ where
  run := .refl
  kept m held := ⟨m, held, Nat.le_refl _⟩

theorem Thrifty.outstanding (h : Thrifty rt M σ σ') (hout : Outstanding σ M sent taken) :
    Outstanding σ' M sent taken := by
  obtain ⟨m, held, hle⟩ := hout
  obtain ⟨m', held', hsupply⟩ := h.kept m held
  exact ⟨m', held', by omega⟩

theorem Thrifty.reachable (h : Thrifty rt M σ σ') (hreach : Token.Reachable rt (fun _ => True) σ) :
    Token.Reachable rt (fun _ => True) σ' :=
  hreach.run h.run

/-- A transfer leaves the mint as it is. -/
theorem transferChecked_mint {decimals : UInt8} {m : View PodMint}
    (h : transferChecked rt ctx σ s M d a x decimals = .ok σ') (held : σ.book.Mint M m) :
    σ'.book.Mint M m := by
  obtain ⟨howner, v, hload, rfl⟩ := Token.load_of_mint held
  let t : Token.Processor.TransferInstruction := .checked decimals
  have hrun : Token.Processor.processTransfer ctx
      (t.infos ⟨s, false⟩ ⟨M, false⟩ ⟨d, false⟩ ⟨a, true⟩ []) x t σ = .ok σ' := invoke_eq_ok.mp h
  obtain ⟨p, terms, base, ht⟩ := Token.processTransfer_ok hrun
  obtain ⟨howner', hdata⟩ := ht.keepsMint howner hload howner
  have hload' : load σ' PodMint M = .ok v := by
    rw [← hload, load, load, hdata]
  exact Token.contents_of_load howner' hload'

theorem transferChecked_outstanding {decimals : UInt8}
    (h : transferChecked rt ctx σ s M d a x decimals = .ok σ')
    (hout : Outstanding σ M sent taken) : Outstanding σ' M sent taken := by
  obtain ⟨m, held, hle⟩ := hout
  exact ⟨m, transferChecked_mint h held, hle⟩

theorem burnAuthority_base {base b : PodAccount} {authority : Token.AccountInfo}
    {signers : List Token.AccountInfo} {delegate : Option Pubkey}
    (h : Token.Processor.burnAuthority σ base authority signers delegate x = .ok b) :
    ∃ p q, b = { base with delegate := p, delegatedAmount := q } := by
  rw [Token.Processor.burnAuthority] at h
  split at h
  · obtain rfl := Except.ok.inj h
    exact ⟨_, _, rfl⟩
  · exact Token.transferAuthority_base h

/-- A supply that is stored after an account of the mint. -/
theorem store_supply {σ₁ : Ledger} {v : PodState PodAccount} {m : PodState PodMint}
    {base : PodAccount} {supply : UInt64} (hwf : σ.Wf) (hne : M ≠ s)
    (howner : (σ s).owner = Token.Keys.tokenProgram)
    (howner' : (σ M).owner = Token.Keys.tokenProgram) (hload : load σ PodAccount s = .ok v)
    (hmint : load σ PodMint M = .ok m)
    (h₁ : Token.store σ s { v with base := base } = .ok σ₁)
    (h₂ : Token.store σ₁ M { m with base := { m.base with supply := supply } } = .ok σ')
    (hstate : base.state = v.base.state) :
    (∃ v', σ'.book.Account s v' ∧ v'.base = base) ∧
      ∃ m', σ'.book.Mint M m' ∧ m'.base.supply = supply := by
  obtain ⟨hvwf, _⟩ := hwf.load howner hload
  obtain ⟨hmwf, hvalid⟩ := hwf.load howner' hmint
  have hinit : Token.BaseState.isInitialized base = true := by
    have hloaded := (Token.packed_of_load hload).initialized
    simpa only [Token.BaseState.isInitialized, PodAccount.isInitialized, hstate] using hloaded
  obtain ⟨_, hbook⟩ := Token.store_two hwf hne howner howner' hload hmint h₁ h₂
    ((Token.PodState.Stored.refl hvwf).withBase _) ((Token.PodState.Stored.refl hmwf).withBase _)
    hinit (Token.packed_of_load hmint).initialized trivial hvalid
  have hsource := (Token.Book.account_put σ.book s (v.view.withBase base)).put_of_ne
    (Token.Held.contents (m.view.withBase { m.base with supply := supply })) hne.symm
  have held := Token.Book.mint_put (σ.book.put s (Token.Held.contents (v.view.withBase base))) M
    (m.view.withBase { m.base with supply := supply })
  exact ⟨⟨_, hbook ▸ hsource, rfl⟩, _, hbook ▸ held, rfl⟩

/-- A burn takes what it burns from the account and from the supply. -/
theorem burn_ok (hwf : σ.Wf)
    (h : Token.process rt ctx [⟨s, false⟩, ⟨M, false⟩, ⟨a, true⟩] (.burn x) σ = .ok σ') :
    (∃ v v', σ.book.Account s v ∧ σ'.book.Account s v' ∧
      v'.base.amount.toNat + x.toNat = v.base.amount.toNat) ∧
    ∃ m m', σ.book.Mint M m ∧ σ'.book.Mint M m' ∧
      m'.base.supply.toNat + x.toNat = m.base.supply.toNat := by
  have hrun : Token.Processor.processBurn ctx [⟨s, false⟩, ⟨M, false⟩, ⟨a, true⟩] x .unchecked σ =
      .ok σ' := h
  simp only [Token.Processor.processBurn, Token.Processor.loadBeside, Token.checkProgramAccount,
    bind_eq_ok, exists_unit, failIf_eq_ok, bne_eq_false_iff_eq, beq_eq_false_iff_ne, okOr_eq_ok,
    Token.checkedSub_eq_some] at hrun
  obtain ⟨v, hload, m, ⟨hne, hmint⟩, _, _, _, _, _, _, _, base, hby, howner, howner', amount,
    hamount, supply, hsupply, σ₁, h₁, h₂⟩ := hrun
  obtain ⟨p, q, rfl⟩ := burnAuthority_base hby
  obtain ⟨⟨v', hsource, hbase⟩, m', held', rfl⟩ :=
    store_supply hwf hne howner howner' hload hmint h₁ h₂ rfl
  refine ⟨⟨v.view, v', Token.contents_of_load howner hload, hsource, ?_⟩, m.view, m',
    Token.contents_of_load howner' hmint, held', hsupply⟩
  rw [hbase]
  exact hamount

theorem burn_outstanding (hwf : σ.Wf)
    (h : Token.process rt ctx [⟨s, false⟩, ⟨M, false⟩, ⟨a, true⟩] (.burn x) σ = .ok σ')
    (hout : Outstanding σ M sent taken) : Outstanding σ' M (sent + x.toNat) taken := by
  obtain ⟨m, held, hle⟩ := hout
  obtain ⟨_, m₁, m', held₁, held', hsupply⟩ := burn_ok hwf h
  obtain rfl := held.unique held₁
  exact ⟨m', held', by omega⟩

/-- Minting adds to the supply what it mints. -/
theorem mintTo_outstanding {authority owner : Token.AccountInfo} (hwf : σ.Wf)
    (h : Token.process rt ctx [⟨M, false⟩, ⟨d, false⟩, authority, owner] (.mintTo x) σ = .ok σ')
    (hout : Outstanding σ M sent taken) : Outstanding σ' M sent (taken + x.toNat) := by
  obtain ⟨m₀, held, hle⟩ := hout
  have hrun : Token.Processor.processMintTo [⟨M, false⟩, ⟨d, false⟩, authority, owner] x
      .unchecked σ = .ok σ' := h
  simp only [Token.Processor.processMintTo, Token.Processor.loadBeside, Token.checkProgramAccount,
    bind_eq_ok, exists_unit, failIf_eq_ok, bne_eq_false_iff_eq, beq_eq_false_iff_ne, okOr_eq_ok,
    Token.checkedAdd_eq_some] at hrun
  obtain ⟨v, hload, _, _, _, m, ⟨hne, hmint⟩, _, _, _, _, _, _, _, howner', howner, amount, _,
    supply, hsupply, σ₁, h₁, h₂⟩ := hrun
  obtain rfl := held.unique (Token.contents_of_load howner' hmint)
  obtain ⟨_, m', held', rfl⟩ := store_supply hwf hne howner howner' hload hmint h₁ h₂ rfl
  rw [Token.PodState.base_view] at hle
  exact ⟨m', held', by omega⟩

end Supply

/-! ## Steps -/

/-- The ledger is one of the token program, and the mint has no more tokens than came in less
what went out. -/
structure Issued (rt : Runtime) (mint : Pubkey) (w : World) (sent taken : ℕ) : Prop where
  reach : Token.Reachable rt (fun _ => True) w.ledger
  native : w.store.oftType = .native
  token : w.store.tokenMint = mint
  outstanding : Outstanding w.ledger mint sent taken

section Steps

variable {rt : Runtime} {oapp : OApp} {ctx : Token.Context} {mint : Pubkey} {w w' : World}
  {sent taken : ℕ}

theorem send_issued {accounts : SendAccounts} {params : SendParams}
    {message : EndpointSendParams} (within : oapp.Within (Thrifty rt mint))
    (hissued : Issued rt mint w sent taken)
    (h : send rt oapp ctx w accounts params = .ok (w', message)) :
    Issued rt mint w' (sent + w.store.amountLd message.message) taken := by
  obtain rfl := hissued.token
  simp only [send, bind_eq_ok, exists_unit, own_eq_ok, invoke_eq_ok, failIf_eq_ok, pure_eq_ok,
    Prod.mk.injEq] at h
  obtain ⟨peer, _, source, _, _, vault, _, _, m, _, _, ⟨amountSent, received, oftFee⟩, hamounts,
    _, outbound, _, inbound, _, ⟨σ₁, tvl⟩, hcollect, _, _, _, options, _, σ₂, hsend, rfl,
    rfl⟩ := h
  have hcarried := w.store.amountLd_encode params.sendTo accounts.signer params.composeMsg
    (computeFeeAndAdjustAmount_dust hamounts)
  obtain ⟨g, _, rfl, hsum, _, hnative⟩ := computeFeeAndAdjustAmount_split hamounts
  obtain ⟨rfl, _⟩ := hnative hissued.native
  simp only [collect, hissued.native, bind_eq_ok, own_eq_ok, invoke_eq_ok, pure_eq_ok,
    Prod.mk.injEq] at hcollect
  obtain ⟨burned, hburned, τ, hburn, σ', hfee, rfl, rfl⟩ := hcollect
  have hburned := minus_eq_ok.mp hburned
  have hreach := hissued.reach.run (.single (.call (c := ⟨ctx, _, _, _⟩) trivial hburn))
  have hout := burn_outstanding hissued.reach.wf hburn hissued.outstanding
  have hafter : Token.Reachable rt (fun _ => True) σ' ∧
      Outstanding σ' w.store.tokenMint (sent + burned.toNat) taken := by
    split at hfee
    · exact ⟨transferChecked_reachable hreach hfee, transferChecked_outstanding hfee hout⟩
    · obtain rfl := Except.ok.inj hfee
      exact ⟨hreach, hout⟩
  have hthrifty := within.send hsend
  refine ⟨hthrifty.reachable hafter.1, hissued.native, rfl, hthrifty.outstanding ?_⟩
  have hsame : burned.toNat = w.store.amountLd _ := (by omega : burned.toNat = received.toNat).trans
    hcarried.symm
  exact hsame ▸ hafter.2

theorem associatedAccount_thrifty {σ σ' : Ledger} {payer wallet token k : Pubkey}
    (within : oapp.Within (Thrifty rt mint))
    (h : associatedAccount oapp σ payer wallet token = .ok (σ', k)) : Thrifty rt mint σ σ' := by
  simp only [associatedAccount, bind_eq_ok, exists_unit, pure_eq_ok, Prod.mk.injEq] at h
  obtain ⟨σ₁, hcreate, v, _, _, rfl, _⟩ := h
  split at hcreate
  · exact within.createAssociatedToken (invoke_eq_ok.mp hcreate)
  · obtain rfl := Except.ok.inj hcreate
    exact .refl rt mint σ

theorem lzReceive_issued {accounts : LzReceiveAccounts} {params : LzReceiveParams}
    (within : oapp.Within (Thrifty rt mint)) (hissued : Issued rt mint w sent taken)
    (h : lzReceive rt oapp ctx w accounts params = .ok w') :
    Issued rt mint w' sent (taken + w.store.amountLd params.message) := by
  obtain rfl := hissued.token
  simp only [lzReceive, bind_eq_ok, exists_unit, own_eq_ok, invoke_eq_ok, failIf_eq_ok,
    pure_eq_ok] at h
  obtain ⟨peer, _, _, vault, _, _, sendTo, _, _, ⟨σ₁, dest⟩, hdest, m, _, _, _, _, σ₂, hclear,
    amountSd, hamount, received, hreceived, inbound, _, outbound, _, ⟨σ₃, tvl, arrived⟩, hrelease,
    σ₄, hcompose, rfl⟩ := h
  simp only [release, hissued.native, bind_eq_ok, invoke_eq_ok, pure_eq_ok, Prod.mk.injEq]
    at hrelease
  obtain ⟨authority, _, σ', hmint, rfl, rfl, _⟩ := hrelease
  have hcarried : w.store.amountLd params.message = received.toNat := by
    rw [OFTStore.amountLd, hamount, toOption_ok, Option.getD_some]
    exact (times_eq_ok.mp hreceived).symm
  have hcreated := associatedAccount_thrifty within hdest
  have hcleared := within.clear hclear
  have hreach := hcleared.reachable (hcreated.reachable hissued.reach)
  have hout := hcleared.outstanding (hcreated.outstanding hissued.outstanding)
  have hminted := mintTo_outstanding hreach.wf hmint hout
  have hreach' := hreach.run (.single (.call (c := ⟨ctx, _, _, _⟩) trivial hmint))
  have hcomposed : Thrifty rt w.store.tokenMint σ' σ₄ := by
    cases hmsg : MsgCodec.composeMsg params.message with
    | none =>
      rw [hmsg] at hcompose
      obtain rfl := Except.ok.inj hcompose
      exact .refl rt _ _
    | some message =>
      rw [hmsg] at hcompose
      exact within.sendCompose (invoke_eq_ok.mp hcompose)
  rw [← hcarried] at hminted
  exact ⟨hcomposed.reachable hreach', hissued.native, rfl, hcomposed.outstanding hminted⟩

theorem withdrawFee_issued {accounts : WithdrawFeeAccounts} {feeLd : UInt64}
    (hissued : Issued rt mint w sent taken)
    (h : withdrawFee rt ctx w accounts feeLd = .ok w') : Issued rt mint w' sent taken := by
  obtain rfl := hissued.token
  obtain ⟨v, σ', decimals, _, _, htransfer, rfl⟩ := withdrawFee_ok h
  exact ⟨transferChecked_reachable hissued.reach htransfer, hissued.native, rfl,
    transferChecked_outstanding htransfer hissued.outstanding⟩

theorem setOftConfig_issued {admin : Pubkey} {remaining : List Pubkey}
    {params : SetOFTConfigParams} (within : oapp.Within (Thrifty rt mint))
    (hissued : Issued rt mint w sent taken)
    (h : setOftConfig oapp w admin remaining params = .ok w') : Issued rt mint w' sent taken := by
  obtain ⟨hreach, hnative, htoken, hout⟩ := hissued
  cases params with
  | delegate delegate =>
    simp only [setOftConfig, bind_eq_ok, exists_unit, invoke_eq_ok, pure_eq_ok] at h
    obtain ⟨_, σ', hset, rfl⟩ := h
    have hthrifty := within.setDelegate hset
    exact ⟨hthrifty.reachable hreach, hnative, htoken, hthrifty.outstanding hout⟩
  | defaultFee feeBps =>
    simp only [setOftConfig, bind_eq_ok, exists_unit, pure_eq_ok] at h
    obtain ⟨_, _, rfl⟩ := h
    exact ⟨hreach, hnative, htoken, hout⟩
  | admin | paused | pauser | unpauser =>
    simp only [setOftConfig, bind_eq_ok, exists_unit, pure_eq_ok] at h
    obtain ⟨_, rfl⟩ := h
    exact ⟨hreach, hnative, htoken, hout⟩

theorem setPause_issued {signer : Pubkey} {paused : Bool} (hissued : Issued rt mint w sent taken)
    (h : setPause w signer paused = .ok w') : Issued rt mint w' sent taken := by
  simp only [setPause, bind_eq_ok, exists_unit, pure_eq_ok] at h
  obtain ⟨_, rfl⟩ := h
  exact ⟨hissued.reach, hissued.native, hissued.token, hissued.outstanding⟩

theorem setPeerConfig_issued {admin : Pubkey} {eid : UInt32} {config : PeerConfigParam}
    (hissued : Issued rt mint w sent taken)
    (h : setPeerConfig oapp ctx w admin eid config = .ok w') : Issued rt mint w' sent taken := by
  simp only [setPeerConfig, bind_eq_ok, exists_unit, pure_eq_ok] at h
  obtain ⟨_, peer, _, rfl⟩ := h
  exact ⟨hissued.reach, hissued.native, hissued.token, hissued.outstanding⟩

end Steps

end SolanaEasy.Oft
