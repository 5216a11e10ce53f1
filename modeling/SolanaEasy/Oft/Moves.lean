import SolanaEasy.Oft.Amounts

/-!
# Moves — what an instruction does to its store

The instructions that a store sees after `InitOFT`, as one type. `Effect` says once what each
of them makes of the store and its peers, and what it has checked before; the ledger is
whatever the token program and the endpoint have made of it.
-/

namespace SolanaEasy.Oft

open Token (Pubkey Ledger Runtime)

inductive Instruction where
  | send (accounts : SendAccounts) (params : SendParams)
  | lzReceive (accounts : LzReceiveAccounts) (params : LzReceiveParams)
  | withdrawFee (accounts : WithdrawFeeAccounts) (feeLd : UInt64)
  | setOftConfig (admin : Pubkey) (remaining : List Pubkey) (params : SetOFTConfigParams)
  | setPause (signer : Pubkey) (paused : Bool)
  | setPeerConfig (admin : Pubkey) (remoteEid : UInt32) (config : PeerConfigParam)

namespace Instruction

/-- Who signs; of a message received, whoever pays. -/
def signer : Instruction → Pubkey
  | send accounts _ => accounts.signer
  | lzReceive accounts _ => accounts.payer
  | withdrawFee accounts _ => accounts.admin
  | setOftConfig admin _ _ => admin
  | setPause signer _ => signer
  | setPeerConfig admin _ _ => admin

/-- The instruction, with the message that it sends, if it sends one. -/
def run (rt : Runtime) (oapp : OApp) (ctx : Token.Context) (w : World) :
    Instruction → Outcome (World × Option EndpointSendParams)
  | send accounts params => do
    let (w, message) ← Oft.send rt oapp ctx w accounts params
    return (w, some message)
  | lzReceive accounts params => do return (← Oft.lzReceive rt oapp ctx w accounts params, none)
  | withdrawFee accounts feeLd => do return (← Oft.withdrawFee rt ctx w accounts feeLd, none)
  | setOftConfig admin remaining params => do
    return (← Oft.setOftConfig oapp w admin remaining params, none)
  | setPause signer paused => do return (← Oft.setPause w signer paused, none)
  | setPeerConfig admin remoteEid config => do
    return (← Oft.setPeerConfig oapp ctx w admin remoteEid config, none)

end Instruction

/-! ## What an instruction leaves -/

/-- The store with the parameter in place; a delegate is kept by the endpoint. -/
def OFTStore.configured (s : OFTStore) : SetOFTConfigParams → OFTStore
  | .admin a => { s with admin := a }
  | .delegate _ => s
  | .defaultFee feeBps => { s with defaultFeeBps := feeBps }
  | .paused b => { s with paused := b }
  | .pauser k => { s with pauser := k }
  | .unpauser k => { s with unpauser := k }

/-- Both limiters of a peer after so much went out to it. -/
structure WentOut (clock : Int64) (amount : UInt64) (peer peer' : PeerConfig) : Prop where
  out : consumed clock amount peer.outboundRateLimiter = .ok peer'.outboundRateLimiter
  back : refilled clock amount peer.inboundRateLimiter = .ok peer'.inboundRateLimiter
  rest : peer' = { peer with
    outboundRateLimiter := peer'.outboundRateLimiter
    inboundRateLimiter := peer'.inboundRateLimiter }

/-- And after so much came in from it. -/
structure CameIn (clock : Int64) (amount : UInt64) (peer peer' : PeerConfig) : Prop where
  into : consumed clock amount peer.inboundRateLimiter = .ok peer'.inboundRateLimiter
  back : refilled clock amount peer.outboundRateLimiter = .ok peer'.outboundRateLimiter
  rest : peer' = { peer with
    outboundRateLimiter := peer'.outboundRateLimiter
    inboundRateLimiter := peer'.inboundRateLimiter }

inductive Effect (oapp : OApp) (ctx : Token.Context) (w : World) :
    Instruction → World → Option EndpointSendParams → Prop
  | send {accounts params peer peer' amount tvlLd message σ}
      (found : w.peers params.dstEid = some peer) (running : w.store.paused = false)
      (limits : WentOut ctx.unixTimestamp amount peer peer')
      (dstEid : message.dstEid = params.dstEid) (receiver : message.receiver = peer.peerAddress)
      (carried : w.store.amountLd message.message = amount.toNat) :
      Effect oapp ctx w (.send accounts params)
        { w with
          ledger := σ
          store := { w.store with tvlLd := tvlLd }
          peers := Function.update w.peers params.dstEid (some peer') } (some message)
  | lzReceive {accounts params peer peer' amount tvlLd σ}
      (found : w.peers params.srcEid = some peer) (known : peer.peerAddress = params.sender)
      (running : w.store.paused = false) (limits : CameIn ctx.unixTimestamp amount peer peer')
      (carried : w.store.amountLd params.message = amount.toNat) :
      Effect oapp ctx w (.lzReceive accounts params)
        { w with
          ledger := σ
          store := { w.store with tvlLd := tvlLd }
          peers := Function.update w.peers params.srcEid (some peer') } none
  | withdrawFee {accounts feeLd σ} (admin : accounts.admin = w.store.admin) :
      Effect oapp ctx w (.withdrawFee accounts feeLd) { w with ledger := σ } none
  | setOftConfig {admin remaining params σ} (may : admin = w.store.admin)
      (fee : ∀ feeBps, params = .defaultFee feeBps → feeBps.toNat < maxFeeBasisPoints) :
      Effect oapp ctx w (.setOftConfig admin remaining params)
        { w with ledger := σ, store := w.store.configured params } none
  | setPause {signer paused}
      (may : (if paused then w.store.pauser else w.store.unpauser) = some signer) :
      Effect oapp ctx w (.setPause signer paused)
        { w with store := { w.store with paused := paused } } none
  | setPeerConfig {admin remoteEid config peer} (may : admin = w.store.admin)
      (made : configurePeer oapp ctx ((w.peers remoteEid).getD .blank) config = .ok peer) :
      Effect oapp ctx w (.setPeerConfig admin remoteEid config)
        { w with peers := Function.update w.peers remoteEid (some peer) } none

section Inversion

variable {rt : Runtime} {oapp : OApp} {ctx : Token.Context} {w w' : World}

/-- No dust is reported as received. -/
theorem computeFeeAndAdjustAmount_dust {σ : Ledger} {s : OFTStore}
    {amount sent received oftFee : UInt64} {feeBps : Option UInt16}
    (h : computeFeeAndAdjustAmount ctx σ amount s feeBps = .ok (sent, received, oftFee)) :
    s.ld2sdRate.toNat ∣ received.toNat := by
  obtain ⟨g, hdust, rfl, hsum, _⟩ := computeFeeAndAdjustAmount_split h
  rw [← hsum] at hdust
  exact (Nat.dvd_add_left (s.rate_dvd_removeDust _)).mp hdust

theorem send_effect {accounts : SendAccounts} {params : SendParams} {message : EndpointSendParams}
    (h : send rt oapp ctx w accounts params = .ok (w', message)) :
    Effect oapp ctx w (.send accounts params) w' (some message) := by
  simp only [send, bind_eq_ok, exists_unit, own_eq_ok, invoke_eq_ok, failIf_eq_ok, pure_eq_ok,
    Prod.mk.injEq] at h
  obtain ⟨peer, hpeer, source, _, _, vault, _, _, m, _, hrunning, ⟨sent, received, oftFee⟩,
    hamounts, _, outbound, houtbound, inbound, hinbound, ⟨σ₁, tvlLd⟩, _, sender, _, _, options, _,
    σ₂, _, rfl, rfl⟩ := h
  have hcarried := w.store.amountLd_encode params.sendTo accounts.signer params.composeMsg
    (computeFeeAndAdjustAmount_dust hamounts)
  exact .send (okOr_eq_ok.mp hpeer) hrunning ⟨houtbound, hinbound, rfl⟩ rfl rfl hcarried

theorem lzReceive_effect {accounts : LzReceiveAccounts} {params : LzReceiveParams}
    (h : lzReceive rt oapp ctx w accounts params = .ok w') :
    Effect oapp ctx w (.lzReceive accounts params) w' none := by
  simp only [lzReceive, bind_eq_ok, exists_unit, own_eq_ok, invoke_eq_ok, failIf_eq_ok,
    pure_eq_ok, bne_eq_false_iff_eq] at h
  obtain ⟨peer, hpeer, hknown, vault, _, _, sendTo, _, _, ⟨σ₁, dest⟩, _, m, _, _, hrunning, _, σ₂,
    _, amountSd, hamount, received, hreceived, inbound, hinbound, outbound, houtbound,
    ⟨σ₃, tvlLd, arrived⟩, _, σ₄, _, rfl⟩ := h
  have hcarried : w.store.amountLd params.message = received.toNat := by
    rw [OFTStore.amountLd, hamount, toOption_ok, Option.getD_some]
    exact (times_eq_ok.mp hreceived).symm
  exact .lzReceive (okOr_eq_ok.mp hpeer) hknown hrunning ⟨hinbound, houtbound, rfl⟩ hcarried

/-- What `InitOFT` leaves. -/
theorem initOft_ok {rt : Runtime} {σ : Ledger} {accounts : InitOFTAccounts} {params : InitOFTParams}
    (h : initOft rt oapp ctx σ accounts params = .ok w) :
    ∃ σ₁, Token.process rt ctx [⟨accounts.tokenEscrow, true⟩, ⟨accounts.tokenMint, false⟩]
        (.initializeAccount3 accounts.oftStore) σ = .ok σ₁ ∧
      oapp.registerOapp σ₁ accounts.remaining params.admin = .ok w.ledger ∧
      w.oftStore = accounts.oftStore ∧ w.store.oftType = params.oftType ∧
      w.store.tokenMint = accounts.tokenMint ∧ w.peers = fun _ => none := by
  simp only [initOft, bind_eq_ok, exists_unit, invoke_eq_ok] at h
  obtain ⟨m, _, σ₁, hrun, vault, _, _, h⟩ := h
  split at h
  · cases h
  · simp only [bind_eq_ok, invoke_eq_ok, pure_eq_ok] at h
    obtain ⟨σ₂, hregister, rfl⟩ := h
    exact ⟨σ₁, hrun, hregister, rfl, rfl, rfl, rfl⟩

theorem withdrawFee_effect {accounts : WithdrawFeeAccounts} {feeLd : UInt64}
    (h : withdrawFee rt ctx w accounts feeLd = .ok w') :
    Effect oapp ctx w (.withdrawFee accounts feeLd) w' none := by
  have hrun := h
  simp only [withdrawFee, bind_eq_ok, exists_unit, failIf_eq_ok, bne_eq_false_iff_eq] at hrun
  obtain ⟨_, _, _, _, _, _, _, rfl⟩ := withdrawFee_ok h
  exact .withdrawFee hrun.1

theorem setOftConfig_effect {admin : Pubkey} {remaining : List Pubkey}
    {params : SetOFTConfigParams} (h : setOftConfig oapp w admin remaining params = .ok w') :
    Effect oapp ctx w (.setOftConfig admin remaining params) w' none := by
  simp only [setOftConfig, bind_eq_ok, exists_unit, failIf_eq_ok, bne_eq_false_iff_eq] at h
  obtain ⟨hmay, h⟩ := h
  cases params with
  | delegate delegate =>
    simp only [bind_eq_ok, invoke_eq_ok, pure_eq_ok] at h
    obtain ⟨σ, _, rfl⟩ := h
    exact .setOftConfig hmay fun _ he => by cases he
  | defaultFee feeBps =>
    simp only [bind_eq_ok, exists_unit, failIf_eq_ok, decide_eq_false_iff_not, not_le,
      ge_iff_le, pure_eq_ok] at h
    obtain ⟨hfee, rfl⟩ := h
    have hbound : ∀ b, SetOFTConfigParams.defaultFee feeBps = .defaultFee b →
        b.toNat < maxFeeBasisPoints := by
      intro b he
      obtain rfl := SetOFTConfigParams.defaultFee.inj he
      exact hfee
    exact .setOftConfig hmay hbound
  | admin | paused | pauser | unpauser =>
    obtain rfl := pure_eq_ok.mp h
    exact .setOftConfig hmay fun _ he => by cases he

theorem setPause_effect {signer : Pubkey} {paused : Bool} (h : setPause w signer paused = .ok w') :
    Effect oapp ctx w (.setPause signer paused) w' none := by
  simp only [setPause, bind_eq_ok, exists_unit, failIf_eq_ok, bne_eq_false_iff_eq,
    pure_eq_ok] at h
  obtain ⟨hmay, rfl⟩ := h
  exact .setPause hmay

theorem setPeerConfig_effect {admin : Pubkey} {remoteEid : UInt32} {config : PeerConfigParam}
    (h : setPeerConfig oapp ctx w admin remoteEid config = .ok w') :
    Effect oapp ctx w (.setPeerConfig admin remoteEid config) w' none := by
  simp only [setPeerConfig, bind_eq_ok, exists_unit, failIf_eq_ok, bne_eq_false_iff_eq,
    pure_eq_ok] at h
  obtain ⟨hmay, peer, hmade, rfl⟩ := h
  exact .setPeerConfig hmay hmade

/-- Every success is one of the effects. -/
theorem Instruction.run_effect {i : Instruction} {message : Option EndpointSendParams}
    (h : i.run rt oapp ctx w = .ok (w', message)) : Effect oapp ctx w i w' message := by
  cases i with
  | send =>
    simp only [run, bind_eq_ok, pure_eq_ok, Prod.mk.injEq] at h
    obtain ⟨⟨_, _⟩, hsend, rfl, rfl⟩ := h
    exact send_effect hsend
  | lzReceive =>
    simp only [run, bind_eq_ok, pure_eq_ok, Prod.mk.injEq] at h
    obtain ⟨_, hreceive, rfl, rfl⟩ := h
    exact lzReceive_effect hreceive
  | withdrawFee =>
    simp only [run, bind_eq_ok, pure_eq_ok, Prod.mk.injEq] at h
    obtain ⟨_, hwithdraw, rfl, rfl⟩ := h
    exact withdrawFee_effect hwithdraw
  | setOftConfig =>
    simp only [run, bind_eq_ok, pure_eq_ok, Prod.mk.injEq] at h
    obtain ⟨_, hset, rfl, rfl⟩ := h
    exact setOftConfig_effect hset
  | setPause =>
    simp only [run, bind_eq_ok, pure_eq_ok, Prod.mk.injEq] at h
    obtain ⟨_, hset, rfl, rfl⟩ := h
    exact setPause_effect hset
  | setPeerConfig =>
    simp only [run, bind_eq_ok, pure_eq_ok, Prod.mk.injEq] at h
    obtain ⟨_, hset, rfl, rfl⟩ := h
    exact setPeerConfig_effect hset

end Inversion

/-! ## What no instruction changes -/

/-- The store is the same one, of the same token, at the same rate. -/
structure SameSite (w w' : World) : Prop where
  oftStore : w'.oftStore = w.oftStore
  oftType : w'.store.oftType = w.store.oftType
  ld2sdRate : w'.store.ld2sdRate = w.store.ld2sdRate
  tokenMint : w'.store.tokenMint = w.store.tokenMint
  tokenEscrow : w'.store.tokenEscrow = w.store.tokenEscrow

section Site

variable {oapp : OApp} {ctx : Token.Context} {w w' w'' : World} {i : Instruction}
  {message : Option EndpointSendParams}

theorem SameSite.refl (w : World) : SameSite w w := ⟨rfl, rfl, rfl, rfl, rfl⟩

theorem SameSite.trans (h : SameSite w w') (h' : SameSite w' w'') : SameSite w w'' where
  oftStore := h'.oftStore.trans h.oftStore
  oftType := h'.oftType.trans h.oftType
  ld2sdRate := h'.ld2sdRate.trans h.ld2sdRate
  tokenMint := h'.tokenMint.trans h.tokenMint
  tokenEscrow := h'.tokenEscrow.trans h.tokenEscrow

theorem Effect.sameSite (h : Effect oapp ctx w i w' message) : SameSite w w' := by
  cases h with
  | send => exact ⟨rfl, rfl, rfl, rfl, rfl⟩
  | lzReceive => exact ⟨rfl, rfl, rfl, rfl, rfl⟩
  | withdrawFee => exact ⟨rfl, rfl, rfl, rfl, rfl⟩
  | @setOftConfig _ _ params =>
    cases params with
    | admin | delegate | defaultFee | paused | pauser | unpauser => exact ⟨rfl, rfl, rfl, rfl, rfl⟩
  | setPause => exact ⟨rfl, rfl, rfl, rfl, rfl⟩
  | setPeerConfig => exact ⟨rfl, rfl, rfl, rfl, rfl⟩

end Site

/-! ## Runs of a store -/

/-- An instruction that succeeded, with its context and the message that it sent. -/
structure Event where
  ctx : Token.Context
  instruction : Instruction
  message : Option EndpointSendParams

/-- The instructions of one store in any order, the last one first, while time passes and the
ledger becomes whatever others make of it. -/
inductive Runs (rt : Runtime) (oapp : OApp) (w : World) (clock : Int64) :
    List Event → World → Int64 → Prop
  | start : Runs rt oapp w clock [] w clock
  | wait {es w' t t'} (h : Runs rt oapp w clock es w' t) (later : t ≤ t') :
      Runs rt oapp w clock es w' t'
  | outside {es w' t} (h : Runs rt oapp w clock es w' t) (σ : Ledger) :
      Runs rt oapp w clock es { w' with ledger := σ } t
  | call {es w' w'' ctx i message} (h : Runs rt oapp w clock es w' ctx.unixTimestamp)
      (run : i.run rt oapp ctx w' = .ok (w'', message)) :
      Runs rt oapp w clock (⟨ctx, i, message⟩ :: es) w'' ctx.unixTimestamp

theorem Runs.sameSite {rt : Runtime} {oapp : OApp} {w w' : World} {clock t : Int64}
    {es : List Event} (h : Runs rt oapp w clock es w' t) : SameSite w w' := by
  induction h with
  | start => exact .refl w
  | wait _ _ ih => exact ih
  | outside _ σ ih => exact ih.trans ⟨rfl, rfl, rfl, rfl, rfl⟩
  | call _ run ih => exact ih.trans (Instruction.run_effect run).sameSite

end SolanaEasy.Oft
