import SolanaEasy.Oft.Amounts

/-!
# Quote — the message that is quoted and the one that is sent

`quote_send.rs` builds the message of a send to ask the endpoint for its fee. It leaves the
sender out, and it writes the amount in local decimals where the send writes it in shared
ones.
-/

namespace SolanaEasy.Oft

open Token (Pubkey Ledger Runtime)

/-! ## QuoteSend -/

/-- Every fee that is configured is below 100%. -/
structure World.FeesBelow (w : World) : Prop where
  store : w.store.defaultFeeBps.toNat < maxFeeBasisPoints
  peers : ∀ eid peer, w.peers eid = some peer → ∀ bps ∈ peer.feeBps, bps.toNat < maxFeeBasisPoints

section Lifetime

variable {rt : Runtime} {oapp : OApp} {ctx : Token.Context} {w w' : World}

theorem World.FeesBelow.fee (h : w.FeesBelow) {eid : UInt32} {peer : PeerConfig}
    (hpeer : w.peers eid = some peer) :
    (peer.feeBps.getD w.store.defaultFeeBps).toNat < maxFeeBasisPoints := by
  cases hbps : peer.feeBps with
  | none => exact h.store
  | some bps => exact h.peers eid peer hpeer bps hbps

/-- A peer is replaced by one whose fee is below 100%. -/
theorem World.FeesBelow.update (h : w.FeesBelow) {σ : Ledger} {s : OFTStore} {eid : UInt32}
    {peer : PeerConfig} (hstore : s.defaultFeeBps = w.store.defaultFeeBps)
    (hpeer : ∀ bps ∈ peer.feeBps, bps.toNat < maxFeeBasisPoints) :
    World.FeesBelow ⟨σ, w.oftStore, s, Function.update w.peers eid (some peer)⟩ := by
  refine ⟨hstore ▸ h.store, ?_⟩
  intro eid' peer' hat
  simp only at hat
  by_cases heid : eid' = eid
  · subst heid
    rw [Function.update_self] at hat
    obtain rfl := Option.some.inj hat
    exact hpeer
  · rw [Function.update_of_ne heid] at hat
    exact h.peers eid' peer' hat

end Lifetime

/-! ## The two messages -/

section Messages

variable {a : Address} {x x' : UInt64} {k k' : Pubkey} {m : Option Bytes}

end Messages

/-! ## What is quoted -/

section Quoted

variable {rt : Runtime} {oapp : OApp} {quote : EndpointQuote} {ctx : Token.Context} {w w' : World}
  {accounts : SendAccounts} {remaining : List Pubkey} {params : SendParams} {payInLzToken : Bool}
  {fee : MessagingFee} {q : EndpointQuoteParams} {m : EndpointSendParams}

end Quoted

/-! The adapter of `bridge`, whose local decimals are two more than the shared ones. -/

def bridgeOpen : Option World := do
  let w ← toOption (initOft (.modular 2) quietOApp .plain bridgeLedger ⟨20, 1, 3, []⟩
    ⟨.adapter, 9, 4⟩)
  let w ← toOption (setOftConfig quietOApp w 9 [] (.defaultFee 200))
  toOption (setPeerConfig quietOApp .plain w 9 40 (.peerAddress (walletAddress 5)))

def sendParams (amountLd : UInt64) : SendParams :=
  ⟨40, walletAddress 6, amountLd, 0, [], none, 0, 0⟩

end SolanaEasy.Oft
