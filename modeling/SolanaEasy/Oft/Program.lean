import SolanaEasy.Oft.Store
import SolanaEasy.Token.Instruction

/-!
# Program — what the bridge does on this chain

`send.rs`, `lz_receive.rs`, `withdraw_fee.rs`, and the instructions that set up and
configure a store. Accounts that `#[account(..)]` derives from the store are not passed:
an instruction takes the keys its caller chooses. Events are left out.
-/

namespace SolanaEasy.Oft

open Token (Pubkey Ledger Runtime AccountInfo PodMint PodAccount PodState load)

/-! ## Peers -/

structure EnforcedOptions where
  send : Bytes
  sendAndCall : Bytes

def EnforcedOptions.getEnforcedOptions (o : EnforcedOptions) : Option Bytes → Bytes
  | none => o.send
  | some _ => o.sendAndCall

structure PeerConfig where
  peerAddress : Address
  enforcedOptions : EnforcedOptions
  outboundRateLimiter : Option RateLimiter
  inboundRateLimiter : Option RateLimiter
  feeBps : Option UInt16

/-- A peer that was just created: all bytes are zero. -/
def PeerConfig.blank : PeerConfig := ⟨Vector.replicate 32 0, ⟨[], []⟩, none, none, none⟩

/-- `try_consume` of a limiter, if there is one. -/
def consumed (clock : Int64) (amount : UInt64) (limiter : Option RateLimiter) :
    Result (Option RateLimiter) :=
  limiter.elim (.ok none) fun r => do
    let (r, done) ← r.tryConsume clock amount
    failIf (!done) .rateLimitExceeded
    return some r

/-- `refill` of a limiter, if there is one. -/
def refilled (clock : Int64) (amount : UInt64) (limiter : Option RateLimiter) :
    Result (Option RateLimiter) :=
  limiter.elim (.ok none) fun r => do return some (← r.refill clock amount)

/-! ## The world of one store -/

/-- The ledger, the store with its address, and its peers by endpoint id. -/
structure World where
  ledger : Ledger
  oftStore : Pubkey
  store : OFTStore
  peers : UInt32 → Option PeerConfig

structure EndpointSendParams where
  dstEid : UInt32
  receiver : Address
  message : Bytes
  options : Bytes
  nativeFee : UInt64
  lzTokenFee : UInt64

structure ClearParams where
  receiver : Pubkey
  srcEid : UInt32
  sender : Address
  nonce : UInt64
  guid : Address
  message : Bytes

structure SendComposeParams where
  sendTo : Pubkey
  guid : Address
  index : UInt16
  message : Bytes

/-- The programs and crates behind the OApp: the endpoint, called with the store as signer
on accounts that are passed on (`clear` takes as many as `clearAccounts`), the creation of
an associated token account, and the options of a message. -/
structure OApp where
  registerOapp : Ledger → List Pubkey → (delegate : Pubkey) → Token.Result Ledger
  setDelegate : Ledger → List Pubkey → (delegate : Pubkey) → Token.Result Ledger
  send : Ledger → List Pubkey → EndpointSendParams → Token.Result Ledger
  clear : Ledger → List Pubkey → ClearParams → Token.Result Ledger
  sendCompose : Ledger → List Pubkey → SendComposeParams → Token.Result Ledger
  clearAccounts : Nat
  associatedToken : (wallet mint : Pubkey) → Pubkey
  createAssociatedToken : Ledger → (payer wallet mint : Pubkey) → Token.Result Ledger
  combineOptions : Bytes → Bytes → Token.Result Bytes
  assertType3 : Bytes → Token.Result Unit

/-! ## Accounts -/

/-- `InterfaceAccount<TokenAccount>`. -/
def tokenAccount (σ : Ledger) (k : Pubkey) : Outcome (PodState PodAccount) := do
  failIf ((σ k).owner != Token.Keys.tokenProgram) .constraint
  invoke (load σ PodAccount k)

/-- `InterfaceAccount<Mint>`. -/
def mintAccount (σ : Ledger) (k : Pubkey) : Outcome (PodState PodMint) := do
  failIf ((σ k).owner != Token.Keys.tokenProgram) .constraint
  invoke (load σ PodMint k)

/-- `token::authority` and `token::mint`. -/
def heldBy (authority mint : Pubkey) (v : PodState PodAccount) : Outcome Unit :=
  failIf (v.base.owner != authority || v.base.mint != mint) .constraint

/-- `init_if_needed` of an associated token account. -/
def associatedAccount (oapp : OApp) (σ : Ledger) (payer wallet mint : Pubkey) :
    Outcome (Ledger × Pubkey) := do
  let k := oapp.associatedToken wallet mint
  let σ ← (if (σ k).owner == Token.Keys.systemProgram then
      invoke (oapp.createAssociatedToken σ payer wallet mint)
    else .ok σ)
  let v ← tokenAccount σ k
  heldBy wallet mint v
  return (σ, k)

/-- `token_interface::transfer_checked`. -/
def transferChecked (rt : Runtime) (ctx : Token.Context) (σ : Ledger)
    (source mint destination authority : Pubkey) (amount : UInt64) (decimals : UInt8) :
    Outcome Ledger :=
  invoke (Token.process rt ctx
    [⟨source, false⟩, ⟨mint, false⟩, ⟨destination, false⟩, ⟨authority, true⟩]
    (.transferChecked amount decimals) σ)

/-! ## Send -/

structure SendParams where
  dstEid : UInt32
  sendTo : Address
  amountLd : UInt64
  minAmountLd : UInt64
  options : Bytes
  composeMsg : Option Bytes
  nativeFee : UInt64
  lzTokenFee : UInt64

structure SendAccounts where
  signer : Pubkey
  tokenSource : Pubkey
  remaining : List Pubkey

section Instructions

variable (rt : Runtime) (oapp : OApp) (ctx : Token.Context)

/-- The tokens of a send: into the escrow of an adapter; burned, but for the fee, otherwise. -/
def collect (w : World) (accounts : SendAccounts) (decimals : UInt8)
    (amountSentLd amountReceivedLd oftFeeLd : UInt64) : Outcome (Ledger × UInt64) :=
  match w.store.oftType with
  | .adapter => do
    let tvlLd ← own (plus w.store.tvlLd amountReceivedLd)
    let σ ← transferChecked rt ctx w.ledger accounts.tokenSource w.store.tokenMint
      w.store.tokenEscrow accounts.signer amountSentLd decimals
    return (σ, tvlLd)
  | .native => do
    let burnedLd ← own (minus amountSentLd oftFeeLd)
    let σ ← invoke (Token.process rt ctx
      [⟨accounts.tokenSource, false⟩, ⟨w.store.tokenMint, false⟩, ⟨accounts.signer, true⟩]
      (.burn burnedLd) w.ledger)
    let σ ← (if oftFeeLd > 0 then
        transferChecked rt ctx σ accounts.tokenSource w.store.tokenMint w.store.tokenEscrow
          accounts.signer oftFeeLd decimals
      else .ok σ)
    return (σ, w.store.tvlLd)

/-- `Send::apply`, with what the endpoint was given to send. -/
def send (w : World) (accounts : SendAccounts) (params : SendParams) :
    Outcome (World × EndpointSendParams) := do
  let peer ← okOr .constraint (w.peers params.dstEid)
  let source ← tokenAccount w.ledger accounts.tokenSource
  heldBy accounts.signer w.store.tokenMint source
  let escrow ← tokenAccount w.ledger w.store.tokenEscrow
  heldBy w.oftStore w.store.tokenMint escrow
  let mint ← mintAccount w.ledger w.store.tokenMint
  failIf w.store.paused (.oft .paused)
  let (amountSentLd, amountReceivedLd, oftFeeLd) ←
    computeFeeAndAdjustAmount ctx w.ledger params.amountLd w.store peer.feeBps
  failIf (amountReceivedLd < params.minAmountLd) (.oft .slippageExceeded)
  let outbound ← own (consumed ctx.unixTimestamp amountReceivedLd peer.outboundRateLimiter)
  let inbound ← own (refilled ctx.unixTimestamp amountReceivedLd peer.inboundRateLimiter)
  let (σ, tvlLd) ← collect rt ctx w accounts mint.base.decimals amountSentLd amountReceivedLd
    oftFeeLd
  let sender ← okOr (.oft .panic) accounts.remaining[1]?
  failIf (sender != w.oftStore) (.oft .invalidSender)
  let options ← invoke (oapp.combineOptions
    (peer.enforcedOptions.getEnforcedOptions params.composeMsg) params.options)
  let message : EndpointSendParams :=
    { dstEid := params.dstEid
      receiver := peer.peerAddress
      message := MsgCodec.encode params.sendTo (w.store.ld2sd amountReceivedLd) accounts.signer
        params.composeMsg
      options := options
      nativeFee := params.nativeFee
      lzTokenFee := params.lzTokenFee }
  let σ ← invoke (oapp.send σ accounts.remaining message)
  let peer := { peer with outboundRateLimiter := outbound, inboundRateLimiter := inbound }
  return ({ w with
    ledger := σ
    store := { w.store with tvlLd := tvlLd }
    peers := Function.update w.peers params.dstEid (some peer) }, message)

/-! ## LzReceive -/

structure LzReceiveParams where
  srcEid : UInt32
  sender : Address
  nonce : UInt64
  guid : Address
  message : Bytes

structure LzReceiveAccounts where
  payer : Pubkey
  toAddress : Pubkey
  mintAuthority : Option Pubkey
  remaining : List Pubkey

/-- The tokens of a message: out of the escrow of an adapter, minted otherwise. With the
locked value afterwards, and the amount that arrives. -/
def release (w : World) (σ : Ledger) (mintAuthority : Option Pubkey) (tokenDest : Pubkey)
    (decimals : UInt8) (amountReceivedLd : UInt64) : Outcome (Ledger × UInt64 × UInt64) :=
  match w.store.oftType with
  | .adapter => do
    let tvlLd ← own (minus w.store.tvlLd amountReceivedLd)
    let σ ← transferChecked rt ctx σ w.store.tokenEscrow w.store.tokenMint tokenDest w.oftStore
      amountReceivedLd decimals
    let arrivedLd ← getPostFeeAmountLd ctx σ w.store.tokenMint amountReceivedLd
    return (σ, tvlLd, arrivedLd)
  | .native => do
    let mintAuthority ← okOr (.oft .invalidMintAuthority) mintAuthority
    let σ ← invoke (Token.process rt ctx
      [⟨w.store.tokenMint, false⟩, ⟨tokenDest, false⟩,
        ⟨mintAuthority, mintAuthority == w.oftStore⟩, ⟨w.oftStore, true⟩]
      (.mintTo amountReceivedLd) σ)
    return (σ, w.store.tvlLd, amountReceivedLd)

/-- `LzReceive::apply`. -/
def lzReceive (w : World) (accounts : LzReceiveAccounts) (params : LzReceiveParams) :
    Outcome World := do
  let peer ← okOr .constraint (w.peers params.srcEid)
  failIf (peer.peerAddress != params.sender) (.oft .invalidSender)
  let escrow ← tokenAccount w.ledger w.store.tokenEscrow
  heldBy w.oftStore w.store.tokenMint escrow
  let sendTo ← own (MsgCodec.sendTo params.message)
  failIf (accounts.toAddress != Pod.ofBytes sendTo.toList) (.oft .invalidTokenDest)
  let (σ, tokenDest) ←
    associatedAccount oapp w.ledger accounts.payer accounts.toAddress w.store.tokenMint
  let mint ← mintAccount σ w.store.tokenMint
  failIf (accounts.mintAuthority.any fun k => mint.base.mintAuthority.toOption != some k)
    (.oft .invalidMintAuthority)
  failIf w.store.paused (.oft .paused)
  failIf (accounts.remaining.length < oapp.clearAccounts) (.oft .panic)
  let σ ← invoke (oapp.clear σ (accounts.remaining.take oapp.clearAccounts)
    ⟨w.oftStore, params.srcEid, params.sender, params.nonce, params.guid, params.message⟩)
  let amountSd ← own (MsgCodec.amountSd params.message)
  let amountReceivedLd ← own (w.store.sd2ld amountSd)
  let inbound ← own (consumed ctx.unixTimestamp amountReceivedLd peer.inboundRateLimiter)
  let outbound ← own (refilled ctx.unixTimestamp amountReceivedLd peer.outboundRateLimiter)
  let (σ, tvlLd, arrivedLd) ← release rt ctx w σ accounts.mintAuthority tokenDest
    mint.base.decimals amountReceivedLd
  let σ ← (MsgCodec.composeMsg params.message).elim (.ok σ) fun message =>
    invoke (oapp.sendCompose σ (accounts.remaining.drop oapp.clearAccounts)
      ⟨accounts.toAddress, params.guid, 0,
        ComposeMsgCodec.encode params.nonce params.srcEid arrivedLd message⟩)
  let peer := { peer with outboundRateLimiter := outbound, inboundRateLimiter := inbound }
  return { w with
    ledger := σ
    store := { w.store with tvlLd := tvlLd }
    peers := Function.update w.peers params.srcEid (some peer) }

/-! ## WithdrawFee -/

structure WithdrawFeeAccounts where
  admin : Pubkey
  tokenDest : Pubkey

/-- `WithdrawFee::apply`. -/
def withdrawFee (w : World) (accounts : WithdrawFeeAccounts) (feeLd : UInt64) :
    Outcome World := do
  failIf (accounts.admin != w.store.admin) (.oft .unauthorized)
  let mint ← mintAccount w.ledger w.store.tokenMint
  let escrow ← tokenAccount w.ledger w.store.tokenEscrow
  heldBy w.oftStore w.store.tokenMint escrow
  let dest ← tokenAccount w.ledger accounts.tokenDest
  failIf (dest.base.mint != w.store.tokenMint) .constraint
  let unlockedLd ← own (minus escrow.base.amount w.store.tvlLd)
  failIf (unlockedLd < feeLd) (.oft .invalidFee)
  let σ ← transferChecked rt ctx w.ledger w.store.tokenEscrow w.store.tokenMint
    accounts.tokenDest w.oftStore feeLd mint.base.decimals
  return { w with ledger := σ }

/-! ## Setting up -/

structure InitOFTParams where
  oftType : OFTType
  admin : Pubkey
  sharedDecimals : UInt8

structure InitOFTAccounts where
  oftStore : Pubkey
  tokenMint : Pubkey
  tokenEscrow : Pubkey
  remaining : List Pubkey

/-- `InitOFT::apply`, on a ledger where the account of the escrow has been allocated. -/
def initOft (σ : Ledger) (accounts : InitOFTAccounts) (params : InitOFTParams) :
    Outcome World := do
  let mint ← mintAccount σ accounts.tokenMint
  let σ ← invoke (Token.process rt ctx [⟨accounts.tokenEscrow, true⟩, ⟨accounts.tokenMint, false⟩]
    (.initializeAccount3 accounts.oftStore) σ)
  let _ ← tokenAccount σ accounts.tokenEscrow
  failIf (mint.base.decimals < params.sharedDecimals) (.oft .invalidDecimals)
  let rate := pow10 (mint.base.decimals - params.sharedDecimals).toNat
  match hrate : rate with
  | .error e => .error e
  | .ok ld2sdRate => do
    let store : OFTStore :=
      { oftType := params.oftType
        ld2sdRate := ld2sdRate
        tokenMint := accounts.tokenMint
        tokenEscrow := accounts.tokenEscrow
        tvlLd := 0
        admin := params.admin
        defaultFeeBps := 0
        paused := false
        pauser := none
        unpauser := none
        rate_pos := pow10_pos hrate }
    let σ ← invoke (oapp.registerOapp σ accounts.remaining params.admin)
    return ⟨σ, accounts.oftStore, store, fun _ => none⟩

inductive SetOFTConfigParams where
  | admin (admin : Pubkey)
  | delegate (delegate : Pubkey)
  | defaultFee (feeBps : UInt16)
  | paused (paused : Bool)
  | pauser (pauser : Option Pubkey)
  | unpauser (unpauser : Option Pubkey)

/-- `SetOFTConfig::apply`. -/
def setOftConfig (w : World) (admin : Pubkey) (remaining : List Pubkey)
    (params : SetOFTConfigParams) : Outcome World := do
  failIf (admin != w.store.admin) (.oft .unauthorized)
  match params with
  | .admin admin => return { w with store := { w.store with admin := admin } }
  | .delegate delegate => do
    let σ ← invoke (oapp.setDelegate w.ledger remaining delegate)
    return { w with ledger := σ }
  | .defaultFee feeBps => do
    failIf (feeBps.toNat ≥ maxFeeBasisPoints) (.oft .invalidFee)
    return { w with store := { w.store with defaultFeeBps := feeBps } }
  | .paused paused => return { w with store := { w.store with paused := paused } }
  | .pauser pauser => return { w with store := { w.store with pauser := pauser } }
  | .unpauser unpauser => return { w with store := { w.store with unpauser := unpauser } }

/-- `SetPause::apply`: the pauser pauses, the unpauser unpauses. -/
def setPause (w : World) (signer : Pubkey) (paused : Bool) : Outcome World := do
  failIf ((if paused then w.store.pauser else w.store.unpauser) != some signer)
    (.oft .unauthorized)
  return { w with store := { w.store with paused := paused } }

inductive PeerConfigParam where
  | peerAddress (peerAddress : Address)
  | feeBps (feeBps : Option UInt16)
  | enforcedOptions (send sendAndCall : Bytes)
  | outboundRateLimit (params : Option RateLimitParams)
  | inboundRateLimit (params : Option RateLimitParams)

/-- What the parameter makes of the peer. -/
def configurePeer (peer : PeerConfig) : PeerConfigParam → Outcome PeerConfig
  | .peerAddress peerAddress => return { peer with peerAddress := peerAddress }
  | .feeBps feeBps => do
    failIf (feeBps.any (·.toNat ≥ maxFeeBasisPoints)) (.oft .invalidFee)
    return { peer with feeBps := feeBps }
  | .enforcedOptions send sendAndCall => do
    invoke (oapp.assertType3 send)
    invoke (oapp.assertType3 sendAndCall)
    return { peer with enforcedOptions := ⟨send, sendAndCall⟩ }
  | .outboundRateLimit params => do
    let limiter ← own (updateRateLimiter peer.outboundRateLimiter ctx.unixTimestamp params)
    return { peer with outboundRateLimiter := limiter }
  | .inboundRateLimit params => do
    let limiter ← own (updateRateLimiter peer.inboundRateLimiter ctx.unixTimestamp params)
    return { peer with inboundRateLimiter := limiter }

/-- `SetPeerConfig::apply`. -/
def setPeerConfig (w : World) (admin : Pubkey) (remoteEid : UInt32) (config : PeerConfigParam) :
    Outcome World := do
  failIf (admin != w.store.admin) (.oft .unauthorized)
  let peer ← configurePeer oapp ctx ((w.peers remoteEid).getD .blank) config
  return { w with peers := Function.update w.peers remoteEid (some peer) }

end Instructions

end SolanaEasy.Oft
