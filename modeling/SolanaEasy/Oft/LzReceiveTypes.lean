import SolanaEasy.Oft.Quote

/-!
# LzReceiveTypes — the accounts an executor passes, worked out in advance

`lz_receive_types.rs` lists the accounts of `LzReceive` for a message, and the accounts of
the composed message behind them. Both instructions work the composed message out, each on
its own; the mint may be one of either token program.
-/

namespace SolanaEasy.Oft

open Token (Pubkey Ledger Runtime PodMint PodAccount PodState load)

/-! ## Addresses -/

structure LzAccount where
  pubkey : Pubkey
  isSigner : Bool
  isWritable : Bool

/-- `b"OFT"`, `b"Peer"` and, from `#[event_cpi]`, `b"__event_authority"`. -/
def oftSeed : Bytes := [79, 70, 84]
def peerSeed : Bytes := [80, 101, 101, 114]
def eventAuthoritySeed : Bytes :=
  [95, 95, 101, 118, 101, 110, 116, 95, 97, 117, 116, 104, 111, 114, 105, 116, 121]

/-- Addresses of this program and of others, and the lists that the endpoint crate derives
for its instructions. A program address is taken with the bump that `init` found and stored. -/
structure Addresses where
  program : Pubkey
  programAddress : List Bytes → Pubkey
  associatedToken : (wallet mint tokenProgram : Pubkey) → Pubkey
  associatedTokenProgram : Pubkey
  classicTokenProgram : Pubkey
  eventSeed : Bytes
  accountsForClear : (receiver : Pubkey) → (srcEid : UInt32) → (sender : Address) →
    (nonce : UInt64) → List LzAccount
  accountsForSendCompose : (sender sendTo : Pubkey) → (guid : Address) → (index : UInt16) →
    (message : Bytes) → List LzAccount

namespace Addresses

variable (env : Addresses)

def oftStore (tokenEscrow : Pubkey) : Pubkey :=
  env.programAddress [oftSeed, Pod.toBytes tokenEscrow]

def peer (oftStore : Pubkey) (srcEid : UInt32) : Pubkey :=
  env.programAddress [peerSeed, Pod.toBytes oftStore, beBytes 4 srcEid.toNat]

/-- `Interface<TokenInterface>`. -/
def isTokenProgram (k : Pubkey) : Bool :=
  k == env.classicTokenProgram || k == Token.Keys.tokenProgram

/-- An optional account is absent if it is this program. -/
def optional (k : Pubkey) : Option Pubkey := if k == env.program then none else some k

end Addresses

/-! ## LzReceiveTypes -/

section Types

variable (env : Addresses) (ctx : Token.Context) (w : World) (params : LzReceiveParams)

/-- What is to arrive of an amount. -/
def predictedArrival (amountLd : UInt64) : Outcome UInt64 :=
  match w.store.oftType with
  | .native => .ok amountLd
  | .adapter => getPostFeeAmountLd ctx w.ledger w.store.tokenMint amountLd

/-- The composed message as `LzReceiveTypes` works it out. -/
def predictedCompose (toAddress : Pubkey) : Outcome (Option SendComposeParams) :=
  (MsgCodec.composeMsg params.message).elim (.ok none) fun message => do
    let amountSd ← own (MsgCodec.amountSd params.message)
    let amountLd ← own (w.store.sd2ld amountSd)
    let amountReceivedLd ← predictedArrival ctx w amountLd
    return some ⟨toAddress, params.guid, 0,
      ComposeMsgCodec.encode params.nonce params.srcEid amountReceivedLd message⟩

/-- The accounts behind the named ones: for `clear`, then for `send_compose`. -/
def remainingAccounts (composed : Option SendComposeParams) : List LzAccount :=
  env.accountsForClear w.oftStore params.srcEid params.sender params.nonce ++
    composed.elim [] fun p =>
      env.accountsForSendCompose w.oftStore p.sendTo p.guid p.index p.message

/-- The named accounts after the first. -/
def namedAccounts (toAddress mintAuthority tokenProgram : Pubkey) : List LzAccount := [
  ⟨env.peer w.oftStore params.srcEid, false, true⟩,
  ⟨w.oftStore, false, true⟩,
  ⟨w.store.tokenEscrow, false, true⟩,
  ⟨toAddress, false, false⟩,
  ⟨env.associatedToken toAddress w.store.tokenMint tokenProgram, false, true⟩,
  ⟨w.store.tokenMint, false, true⟩,
  ⟨mintAuthority, false, false⟩,
  ⟨tokenProgram, false, false⟩,
  ⟨env.associatedTokenProgram, false, false⟩,
  ⟨Token.Keys.systemProgram, false, false⟩,
  ⟨env.programAddress [env.eventSeed], false, false⟩,
  ⟨env.program, false, false⟩]

/-- `LzReceiveTypes::apply`, with the composed message that the last accounts come from. -/
def lzReceiveTypes : Outcome (List LzAccount × Option SendComposeParams) := do
  failIf (w.oftStore != env.oftStore w.store.tokenEscrow) .constraint
  let tokenProgram := (w.ledger w.store.tokenMint).owner
  failIf (!env.isTokenProgram tokenProgram) .constraint
  let mint ← invoke (load w.ledger PodMint w.store.tokenMint)
  let sendTo ← own (MsgCodec.sendTo params.message)
  let toAddress : Pubkey := Pod.ofBytes sendTo.toList
  let mintAuthority := mint.base.mintAuthority.toOption.getD env.program
  let composed ← predictedCompose ctx w params toAddress
  -- the executor takes the place of the first account
  return (⟨default, true, true⟩ :: (namedAccounts env w params toAddress mintAuthority tokenProgram
    ++ remainingAccounts env w params composed), composed)

/-! ## LzReceive -/

/-- The addresses, seeds and writability that `#[derive(Accounts)]` of `LzReceive` asks for,
in its order. -/
def lzReceiveAccounts : List LzAccount → Outcome LzReceiveAccounts
  | payer :: peer :: oftStore :: tokenEscrow :: toAddress :: tokenDest :: tokenMint ::
      mintAuthority :: tokenProgram :: associatedTokenProgram :: systemProgram ::
      eventAuthority :: program :: remaining => do
    failIf (!payer.isSigner || !payer.isWritable) .constraint
    failIf (!peer.isWritable || peer.pubkey != env.peer oftStore.pubkey params.srcEid) .constraint
    failIf (!oftStore.isWritable || oftStore.pubkey != w.oftStore ||
      oftStore.pubkey != env.oftStore w.store.tokenEscrow) .constraint
    failIf (!tokenEscrow.isWritable || tokenEscrow.pubkey != w.store.tokenEscrow) .constraint
    let sendTo ← own (MsgCodec.sendTo params.message)
    failIf (toAddress.pubkey != Pod.ofBytes sendTo.toList) (.oft .invalidTokenDest)
    failIf (!tokenDest.isWritable || tokenDest.pubkey !=
      env.associatedToken toAddress.pubkey tokenMint.pubkey tokenProgram.pubkey) .constraint
    failIf (!tokenMint.isWritable || tokenMint.pubkey != w.store.tokenMint ||
      (w.ledger tokenMint.pubkey).owner != tokenProgram.pubkey) .constraint
    let mint ← invoke (load w.ledger PodMint tokenMint.pubkey)
    let mintAuthority := env.optional mintAuthority.pubkey
    failIf (mintAuthority.any fun k => mint.base.mintAuthority.toOption != some k)
      (.oft .invalidMintAuthority)
    failIf (!env.isTokenProgram tokenProgram.pubkey) .constraint
    failIf (associatedTokenProgram.pubkey != env.associatedTokenProgram) .constraint
    failIf (systemProgram.pubkey != Token.Keys.systemProgram) .constraint
    failIf (eventAuthority.pubkey != env.programAddress [eventAuthoritySeed]) .constraint
    failIf (program.pubkey != env.program) .constraint
    return ⟨payer.pubkey, toAddress.pubkey, mintAuthority, remaining.map (·.pubkey)⟩
  | _ => .error .constraint

end Types

/-- What the program calls of a token program. -/
structure TokenInterface where
  transferChecked : Token.Context → Ledger → (source mint destination authority : Pubkey) →
    (amount : UInt64) → (decimals : UInt8) → Outcome Ledger
  mintTo : Token.Context → Ledger → (mint destination mintAuthority oftStore : Pubkey) →
    (amount : UInt64) → Outcome Ledger

def token2022 (rt : Runtime) : TokenInterface where
  transferChecked := transferChecked rt
  mintTo ctx σ mint destination mintAuthority oftStore amount :=
    invoke (Token.process rt ctx [⟨mint, false⟩, ⟨destination, false⟩,
      ⟨mintAuthority, mintAuthority == oftStore⟩, ⟨oftStore, true⟩] (.mintTo amount) σ)

/-- A transfer in the older token program leaves the mint as it is. -/
def TokenInterface.LeavesMint (token : TokenInterface) : Prop :=
  ∀ {ctx σ source mint destination authority amount decimals σ'},
    token.transferChecked ctx σ source mint destination authority amount decimals = .ok σ' →
      σ' mint = σ mint

section Receive

variable (rt : Runtime) (classic : TokenInterface) (oapp : OApp) (ctx : Token.Context)

/-- The token program of a mint. -/
def tokenOf (tokenProgram : Pubkey) : TokenInterface :=
  if tokenProgram = Token.Keys.tokenProgram then token2022 rt else classic

/-- `InterfaceAccount<TokenAccount>` with `token::token_program`. -/
def tokenAccountOf (tokenProgram : Pubkey) (σ : Ledger) (k : Pubkey) :
    Outcome (PodState PodAccount) := do
  failIf ((σ k).owner != tokenProgram) .constraint
  invoke (load σ PodAccount k)

def mintAccountOf (tokenProgram : Pubkey) (σ : Ledger) (k : Pubkey) :
    Outcome (PodState PodMint) := do
  failIf ((σ k).owner != tokenProgram) .constraint
  invoke (load σ PodMint k)

def associatedAccountOf (tokenProgram : Pubkey) (σ : Ledger) (payer wallet mint : Pubkey) :
    Outcome (Ledger × Pubkey) := do
  let k := oapp.associatedToken wallet mint
  let σ ← (if (σ k).owner == Token.Keys.systemProgram then
      invoke (oapp.createAssociatedToken σ payer wallet mint)
    else .ok σ)
  let v ← tokenAccountOf tokenProgram σ k
  heldBy wallet mint v
  return (σ, k)

def releaseBy (token : TokenInterface) (w : World) (σ : Ledger) (mintAuthority : Option Pubkey)
    (tokenDest : Pubkey) (decimals : UInt8) (amountReceivedLd : UInt64) :
    Outcome (Ledger × UInt64 × UInt64) :=
  match w.store.oftType with
  | .adapter => do
    let tvlLd ← own (minus w.store.tvlLd amountReceivedLd)
    let σ ← token.transferChecked ctx σ w.store.tokenEscrow w.store.tokenMint tokenDest w.oftStore
      amountReceivedLd decimals
    let arrivedLd ← getPostFeeAmountLd ctx σ w.store.tokenMint amountReceivedLd
    return (σ, tvlLd, arrivedLd)
  | .native => do
    let mintAuthority ← okOr (.oft .invalidMintAuthority) mintAuthority
    let σ ← token.mintTo ctx σ w.store.tokenMint tokenDest mintAuthority w.oftStore
      amountReceivedLd
    return (σ, w.store.tvlLd, amountReceivedLd)

/-- `LzReceive::apply` for a mint of either token program, with what `send_compose` was given. -/
def lzReceiveBy (w : World) (accounts : LzReceiveAccounts) (params : LzReceiveParams) :
    Outcome (World × Option SendComposeParams) := do
  let tokenProgram := (w.ledger w.store.tokenMint).owner
  let peer ← okOr .constraint (w.peers params.srcEid)
  failIf (peer.peerAddress != params.sender) (.oft .invalidSender)
  let escrow ← tokenAccountOf tokenProgram w.ledger w.store.tokenEscrow
  heldBy w.oftStore w.store.tokenMint escrow
  let sendTo ← own (MsgCodec.sendTo params.message)
  failIf (accounts.toAddress != Pod.ofBytes sendTo.toList) (.oft .invalidTokenDest)
  let (σ, tokenDest) ← associatedAccountOf oapp tokenProgram w.ledger accounts.payer
    accounts.toAddress w.store.tokenMint
  let mint ← mintAccountOf tokenProgram σ w.store.tokenMint
  failIf (accounts.mintAuthority.any fun k => mint.base.mintAuthority.toOption != some k)
    (.oft .invalidMintAuthority)
  failIf w.store.paused (.oft .paused)
  failIf (accounts.remaining.length < oapp.clearAccounts) (.oft .panic)
  let σ ← invoke (oapp.clear σ (accounts.remaining.take oapp.clearAccounts)
    ⟨w.oftStore, params.srcEid, params.sender, params.nonce, params.guid, params.message⟩)
  let amountSd ← own (MsgCodec.amountSd params.message)
  let amountReceivedLd ← own (w.store.sd2ld amountSd)
  let inbound ← own (consumed ctx.unixTimestamp amountReceivedLd peer.inboundRateLimiter)
  let outbound ← own (refilled ctx.unixTimestamp amountReceivedLd peer.outboundRateLimiter)
  let (σ, tvlLd, arrivedLd) ← releaseBy ctx (tokenOf rt classic tokenProgram) w σ
    accounts.mintAuthority tokenDest mint.base.decimals amountReceivedLd
  let composed : Option SendComposeParams := (MsgCodec.composeMsg params.message).map fun message =>
    ⟨accounts.toAddress, params.guid, 0,
      ComposeMsgCodec.encode params.nonce params.srcEid arrivedLd message⟩
  let σ ← composed.elim (.ok σ) fun p =>
    invoke (oapp.sendCompose σ (accounts.remaining.drop oapp.clearAccounts) p)
  let peer := { peer with outboundRateLimiter := outbound, inboundRateLimiter := inbound }
  return ({ w with
    ledger := σ
    store := { w.store with tvlLd := tvlLd }
    peers := Function.update w.peers params.srcEid (some peer) }, composed)

end Receive

/-! ## Token-2022 -/

section Token2022

variable {rt : Runtime} {classic : TokenInterface} {oapp : OApp} {ctx : Token.Context}
  {w w' : World} {accounts : LzReceiveAccounts} {params : LzReceiveParams}

/-- For a mint of Token-2022 this is `lzReceive`. -/
theorem lzReceive_eq (howner : (w.ledger w.store.tokenMint).owner = Token.Keys.tokenProgram) :
    lzReceive rt oapp ctx w accounts params =
      Prod.fst <$> lzReceiveBy rt classic oapp ctx w accounts params := by
  have haccount : tokenAccountOf Token.Keys.tokenProgram = tokenAccount := rfl
  have hmint : mintAccountOf Token.Keys.tokenProgram = mintAccount := rfl
  have hassociated : associatedAccountOf oapp Token.Keys.tokenProgram = associatedAccount oapp :=
    rfl
  have hrelease : releaseBy ctx (tokenOf rt classic Token.Keys.tokenProgram) = release rt ctx := by
    rw [tokenOf, if_pos rfl]
    rfl
  unfold lzReceive lzReceiveBy
  simp only [howner, haccount, hmint, hassociated, hrelease, map_bind, map_pure]
  cases MsgCodec.composeMsg params.message with
  | none => rfl
  | some message => rfl

/-- A transfer does not change what the mint takes. -/
theorem epochFee_transferChecked {σ σ' : Ledger} {s M d a : Pubkey} {x : UInt64}
    {decimals : UInt8} {m : PodState PodMint} (howner : (σ M).owner = Token.Keys.tokenProgram)
    (hload : load σ PodMint M = .ok m) (h : transferChecked rt ctx σ s M d a x decimals = .ok σ') :
    epochFee ctx σ' M = epochFee ctx σ M := by
  let t : Token.Processor.TransferInstruction := .checked decimals
  have hrun : Token.Processor.processTransfer ctx
      (t.infos ⟨s, false⟩ ⟨M, false⟩ ⟨d, false⟩ ⟨a, true⟩ []) x t σ = .ok σ' := invoke_eq_ok.mp h
  obtain ⟨p, terms, base, ht⟩ := Token.processTransfer_ok hrun
  obtain ⟨_, hdata⟩ := ht.keepsMint howner hload howner
  have hsame : load σ' PodMint M = load σ PodMint M := by
    rw [load, load, hdata]
  rw [epochFee, epochFee, hsame]

end Token2022

/-! ## The prediction -/

/-- The programs around leave the mint as it is. -/
structure OApp.LeavesMint (oapp : OApp) (mint : Pubkey) : Prop where
  clear {σ accounts params σ'} (run : oapp.clear σ accounts params = .ok σ') : σ' mint = σ mint
  createAssociatedToken {σ payer wallet σ'}
    (run : oapp.createAssociatedToken σ payer wallet mint = .ok σ') : σ' mint = σ mint

section Prediction

variable {rt : Runtime} {classic : TokenInterface} {oapp : OApp} {env : Addresses}
  {ctx : Token.Context} {w w' : World} {params : LzReceiveParams} {σ σ' : Ledger} {mint : Pubkey}

theorem epochFee_congr (h : σ' mint = σ mint) : epochFee ctx σ' mint = epochFee ctx σ mint := by
  rw [epochFee, epochFee, load, load, h]

theorem getPostFeeAmountLd_congr (h : epochFee ctx σ' mint = epochFee ctx σ mint) (x : UInt64) :
    getPostFeeAmountLd ctx σ' mint x = getPostFeeAmountLd ctx σ mint x := by
  rw [getPostFeeAmountLd, getPostFeeAmountLd, h]

theorem associatedAccountOf_mint (leaves : oapp.LeavesMint mint) {p payer wallet k : Pubkey}
    (h : associatedAccountOf oapp p σ payer wallet mint = .ok (σ', k)) : σ' mint = σ mint := by
  simp only [associatedAccountOf, bind_eq_ok, exists_unit, pure_eq_ok, Prod.mk.injEq] at h
  obtain ⟨σ₁, hcreate, v, _, _, rfl, _⟩ := h
  split at hcreate
  · exact leaves.createAssociatedToken (invoke_eq_ok.mp hcreate)
  · obtain rfl := Except.ok.inj hcreate
    rfl

/-- The transfer of an adapter leaves the fee of the mint, in either token program. -/
theorem epochFee_tokenOf (hclassic : classic.LeavesMint) {m : PodState PodMint} {s d a : Pubkey}
    {x : UInt64} {decimals : UInt8} (hload : load σ PodMint mint = .ok m)
    (h : (tokenOf rt classic (σ mint).owner).transferChecked ctx σ s mint d a x decimals =
      .ok σ') : epochFee ctx σ' mint = epochFee ctx σ mint := by
  unfold tokenOf at h
  split at h
  case isTrue howner => exact epochFee_transferChecked howner hload h
  case isFalse => exact epochFee_congr (hclassic h)

/-- What arrives is what the transfer fee leaves of an amount that is released to a mint as it
was before. -/
theorem releaseBy_arrived (hclassic : classic.LeavesMint) {m : PodState PodMint}
    {authority : Option Pubkey} {dest : Pubkey} {decimals : UInt8} {x arrived tvl : UInt64}
    (hsame : σ w.store.tokenMint = w.ledger w.store.tokenMint)
    (hload : load w.ledger PodMint w.store.tokenMint = .ok m)
    (h : releaseBy ctx (tokenOf rt classic (w.ledger w.store.tokenMint).owner) w σ authority dest
      decimals x = .ok (σ', tvl, arrived)) :
    predictedArrival ctx w x = .ok arrived := by
  unfold releaseBy at h
  unfold predictedArrival
  cases htype : w.store.oftType with
  | adapter =>
    simp only [htype, bind_eq_ok, pure_eq_ok, Prod.mk.injEq] at h
    obtain ⟨_, _, σ₁, htransfer, y, harrived, _, _, rfl⟩ := h
    have hload' : load σ PodMint w.store.tokenMint = .ok m := by
      rw [load, hsame]
      exact hload
    rw [← hsame] at htransfer
    have hfee := epochFee_tokenOf hclassic hload' htransfer
    rw [getPostFeeAmountLd_congr (hfee.trans (epochFee_congr hsame))] at harrived
    exact harrived
  | native =>
    simp only [htype, bind_eq_ok, pure_eq_ok, Prod.mk.injEq] at h
    obtain ⟨_, _, _, _, _, _, rfl⟩ := h
    rfl

/-- Whatever `send_compose` is given was predicted. -/
theorem lzReceiveBy_composed (leaves : oapp.LeavesMint w.store.tokenMint)
    (hclassic : classic.LeavesMint) {m : PodState PodMint} {accounts : LzReceiveAccounts}
    {composed predicted : Option SendComposeParams}
    (hload : load w.ledger PodMint w.store.tokenMint = .ok m)
    (hpredicted : predictedCompose ctx w params accounts.toAddress = .ok predicted)
    (h : lzReceiveBy rt classic oapp ctx w accounts params = .ok (w', composed)) :
    composed = predicted := by
  simp only [lzReceiveBy, bind_eq_ok, exists_unit, own_eq_ok, invoke_eq_ok, pure_eq_ok,
    Prod.mk.injEq] at h
  obtain ⟨peer, _, _, escrow, _, _, sendTo, _, _, ⟨σ₁, dest⟩, hdest, m', _, _, _, _, σ₂, hclear,
    amountSd, hamount, received, hreceived, inbound, _, outbound, _, ⟨σ₃, tvl, arrived⟩, hrelease,
    σ₄, _, _, rfl⟩ := h
  have hsame := (leaves.clear hclear).trans (associatedAccountOf_mint leaves hdest)
  have harrived := releaseBy_arrived hclassic hsame hload hrelease
  unfold predictedCompose at hpredicted
  cases hmessage : MsgCodec.composeMsg params.message with
  | none =>
    rw [hmessage] at hpredicted
    exact Except.ok.inj hpredicted
  | some message =>
    rw [hmessage] at hpredicted
    simp only [Option.elim_some, bind_eq_ok, own_eq_ok, pure_eq_ok] at hpredicted
    obtain ⟨amountSd', hamount', received', hreceived', arrived', harrived', rfl⟩ := hpredicted
    obtain rfl := Except.ok.inj (hamount.symm.trans hamount')
    obtain rfl := Except.ok.inj (hreceived.symm.trans hreceived')
    obtain rfl := Except.ok.inj (harrived.symm.trans harrived')
    rfl

/-- The named accounts pass every check, whatever the mint authority. -/
theorem lzReceiveAccounts_named (hstore : w.oftStore = env.oftStore w.store.tokenEscrow)
    (hprogram : env.isTokenProgram (w.ledger w.store.tokenMint).owner = true)
    (hevent : env.eventSeed = eventAuthoritySeed) {m : PodState PodMint} {sendTo : Address}
    (hload : load w.ledger PodMint w.store.tokenMint = .ok m)
    (hsendTo : MsgCodec.sendTo params.message = .ok sendTo) (executor : Pubkey)
    (remaining : List LzAccount) :
    lzReceiveAccounts env w params (⟨executor, true, true⟩ ::
      (namedAccounts env w params (Pod.ofBytes sendTo.toList)
        (m.base.mintAuthority.toOption.getD env.program) (w.ledger w.store.tokenMint).owner
          ++ remaining)) =
      .ok ⟨executor, Pod.ofBytes sendTo.toList,
        env.optional (m.base.mintAuthority.toOption.getD env.program),
        remaining.map (·.pubkey)⟩ := by
  have hauthority : ((env.optional (m.base.mintAuthority.toOption.getD env.program)).any fun k =>
      m.base.mintAuthority.toOption != some k) = false := by
    cases hmint : m.base.mintAuthority.toOption with
    | none => simp [Addresses.optional]
    | some k => by_cases hk : k = env.program <;> simp [Addresses.optional, hk]
  simp only [namedAccounts, List.cons_append, List.nil_append, lzReceiveAccounts, bind_eq_ok,
    exists_unit, failIf_eq_ok, own_eq_ok, invoke_eq_ok, pure_eq_ok, Bool.or_eq_false_iff,
    Bool.not_eq_false', bne_eq_false_iff_eq, hprogram, hevent, true_and, and_true]
  exact ⟨hstore, sendTo, hsendTo, rfl, m, hload, hauthority⟩

/-- The list that `LzReceiveTypes` returns, with an executor in front, is what `LzReceive` asks
for: every named account has the address, seeds and flags it must have, the accounts for
`clear` follow, and behind them those for the message that `LzReceive` composes. -/
theorem lz_receive_types_predicts (rt : Runtime) (classic : TokenInterface) (oapp : OApp)
    (env : Addresses) (ctx : Token.Context) (w : World) (params : LzReceiveParams)
    (leaves : oapp.LeavesMint w.store.tokenMint) (hclassic : classic.LeavesMint)
    (hevent : env.eventSeed = eventAuthoritySeed)
    (hclear : (env.accountsForClear w.oftStore params.srcEid params.sender params.nonce).length =
      oapp.clearAccounts) {accounts : List LzAccount} {composed : Option SendComposeParams}
    (h : lzReceiveTypes env ctx w params = .ok (accounts, composed)) :
    ∃ rest, accounts = ⟨default, true, true⟩ :: rest ∧ ∀ executor, ∃ named,
      lzReceiveAccounts env w params (⟨executor, true, true⟩ :: rest) = .ok named ∧
      named.payer = executor ∧
      named.remaining.take oapp.clearAccounts =
        (env.accountsForClear w.oftStore params.srcEid params.sender params.nonce).map (·.pubkey) ∧
      named.remaining.drop oapp.clearAccounts = (composed.elim [] fun p =>
        env.accountsForSendCompose w.oftStore p.sendTo p.guid p.index p.message).map (·.pubkey) ∧
      ∀ w' passed, lzReceiveBy rt classic oapp ctx w named params = .ok (w', passed) →
        passed = composed := by
  simp only [lzReceiveTypes, bind_eq_ok, exists_unit, failIf_eq_ok, own_eq_ok, invoke_eq_ok,
    pure_eq_ok, Prod.mk.injEq, Bool.not_eq_false', bne_eq_false_iff_eq] at h
  obtain ⟨hstore, hprogram, m, hload, sendTo, hsendTo, predicted, hpredicted, rfl, rfl⟩ := h
  refine ⟨_, rfl, ?_⟩
  intro executor
  refine ⟨_, lzReceiveAccounts_named hstore hprogram hevent hload hsendTo executor _, rfl, ?_, ?_,
    ?_⟩
  · simp only [remainingAccounts, List.map_append]
    exact List.take_left' (by rw [List.length_map, hclear])
  · simp only [remainingAccounts, List.map_append]
    exact List.drop_left' (by rw [List.length_map, hclear])
  · intro w' passed hreceive
    exact lzReceiveBy_composed leaves hclassic hload hpredicted hreceive

end Prediction

/-! A message with a payload, for the adapter of `bridge`, whose mint takes one percent. -/

def bridgeAddresses : Addresses where
  program := 50
  programAddress seeds := if seeds = [oftSeed, Pod.toBytes (3 : Pubkey)] then 20 else 51
  associatedToken wallet _ _ := wallet + 100
  associatedTokenProgram := 52
  classicTokenProgram := 53
  eventSeed := eventAuthoritySeed
  accountsForClear _ _ _ _ := (30 :: 20 :: List.replicate 6 0).map fun k => ⟨k, false, false⟩
  accountsForSendCompose sender sendTo _ _ _ := [⟨30, false, false⟩, ⟨sender, false, false⟩,
    ⟨sendTo, false, false⟩]

def noClassic : TokenInterface where
  transferChecked _ _ _ _ _ _ _ _ := .error .constraint
  mintTo _ _ _ _ _ _ _ := .error .constraint

def composedParams : LzReceiveParams :=
  ⟨40, walletAddress 5, 1, walletAddress 0,
    MsgCodec.encode (walletAddress 8) 20 7 (some [1, 2, 3])⟩

/-- The prediction after a send, and what `LzReceive` makes of it. -/
def predictedBridge : Option (World × (List LzAccount × Option SendComposeParams) ×
    LzReceiveAccounts × World × Option SendComposeParams) := do
  let w ← bridgeOpen
  let p ← toOption (send (.modular 2) quietOApp .plain w ⟨7, 2, bridgeRemaining⟩
    (sendParams 5050))
  let r ← toOption (lzReceiveTypes bridgeAddresses .plain p.1 composedParams)
  let named ← toOption (lzReceiveAccounts bridgeAddresses p.1 composedParams
    (⟨7, true, true⟩ :: r.1.tail))
  let received ← toOption (lzReceiveBy (.modular 2) noClassic quietOApp .plain p.1 named
    composedParams)
  return (p.1, r, named, received)

theorem quietOApp_leavesMint (mint : Pubkey) : quietOApp.LeavesMint mint where
  clear run := by rw [Except.ok.inj run]
  createAssociatedToken run := by cases run

/-- `LzReceive` succeeds on the predicted accounts, and composes the predicted message. -/
theorem lz_receive_types_predicts_bridge : ∃ w accounts composed named w',
    lzReceiveTypes bridgeAddresses .plain w composedParams = .ok (accounts, some composed) ∧
      lzReceiveAccounts bridgeAddresses w composedParams (⟨7, true, true⟩ :: accounts.tail) =
        .ok named ∧
      named.remaining.take 8 = [30, 20, 0, 0, 0, 0, 0, 0] ∧
      lzReceiveBy (.modular 2) noClassic quietOApp .plain w named composedParams =
        .ok (w', some composed) := by
  have hrun : predictedBridge.any (fun p => p.2.1.2.isSome) = true := by decide +kernel
  obtain ⟨⟨w, ⟨accounts, composed⟩, named, w', passed⟩, hp, hsome⟩ := (Option.any_eq_true _ _).mp hrun
  obtain ⟨message, hmessage⟩ := Option.isSome_iff_exists.mp hsome
  simp only at hmessage
  subst hmessage
  simp only [predictedBridge, Option.bind_eq_bind, Option.bind_eq_some_iff, toOption_eq_some]
    at hp
  obtain ⟨_, _, ⟨w₁, _⟩, _, r, htypes, named', hnamed, received, hreceived, hp⟩ := hp
  obtain ⟨rfl, rfl, rfl, rfl⟩ : w₁ = w ∧ r = (accounts, some message) ∧ named' = named ∧
      received = (w', passed) := by simpa using hp
  obtain ⟨rest, rfl, hall⟩ := lz_receive_types_predicts (.modular 2) noClassic quietOApp
    bridgeAddresses .plain w₁ composedParams (quietOApp_leavesMint _) (fun h => by cases h) rfl rfl
      htypes
  obtain ⟨named'', hnamed', _, hclear, _, hcomposed⟩ := hall 7
  obtain rfl := Except.ok.inj (hnamed.symm.trans hnamed')
  obtain rfl := hcomposed _ _ hreceived
  exact ⟨w₁, _, message, _, w', htypes, hnamed, hclear, hreceived⟩

end SolanaEasy.Oft
