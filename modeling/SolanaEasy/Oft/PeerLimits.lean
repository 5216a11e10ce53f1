import SolanaEasy.Oft.Governance

/-!
# Peer limits — how much passes between two stores

The limiters of a peer in a run of the store. What is sent consumes the outbound limiter and
refills the inbound one, what comes in the other way round; so what may pass in one direction
is bounded by time and by what passed in the other.
-/

namespace SolanaEasy.Oft

open Token (Runtime Ledger)

/-! ## What passes -/

/-- The instruction configures a limiter of the peer. -/
def Instruction.limits (eid : UInt32) : Instruction → Bool
  | setPeerConfig _ remoteEid (.outboundRateLimit _) => remoteEid == eid
  | setPeerConfig _ remoteEid (.inboundRateLimit _) => remoteEid == eid
  | _ => false

/-- A limiter that was there is still there, with so much poured in and taken out. -/
def Limited (clock₀ : Int64) (limiter₀ : Option RateLimiter) (poured taken : ℕ) (clock : Int64)
    (limiter : Option RateLimiter) : Prop :=
  ∀ r₀, limiter₀ = some r₀ → ∃ r, limiter = some r ∧ Window clock₀ r₀ poured taken clock r

/-- A limiter that calls have left behind. -/
def Tended (clock : Int64) (limiter : Option RateLimiter) : Prop :=
  ∀ r, limiter = some r → Reachable clock r

section Limiter

variable {clock clock' clock₀ : Int64} {amount : UInt64} {poured taken : ℕ}
  {limiter limiter' limiter₀ : Option RateLimiter}

theorem Limited.wait (h : Limited clock₀ limiter₀ poured taken clock limiter)
    (later : clock ≤ clock') : Limited clock₀ limiter₀ poured taken clock' limiter := by
  intro r₀ h₀
  obtain ⟨r, hr, hwindow⟩ := h r₀ h₀
  exact ⟨r, hr, hwindow.wait later⟩

theorem Limited.consumed (h : Limited clock₀ limiter₀ poured taken clock limiter)
    (hrun : consumed clock amount limiter = .ok limiter') :
    Limited clock₀ limiter₀ poured (taken + amount.toNat) clock limiter' := by
  intro r₀ h₀
  obtain ⟨r, rfl, hwindow⟩ := h r₀ h₀
  rcases consumed_ok hrun with ⟨hnone, _⟩ | ⟨r₁, r', hr, rfl, hconsume⟩
  · cases hnone
  · obtain rfl := Option.some.inj hr
    exact ⟨r', rfl, hwindow.call (.tryConsume amount) rfl hconsume⟩

theorem Limited.refilled (h : Limited clock₀ limiter₀ poured taken clock limiter)
    (hrun : refilled clock amount limiter = .ok limiter') :
    Limited clock₀ limiter₀ (poured + amount.toNat) taken clock limiter' := by
  intro r₀ h₀
  obtain ⟨r, rfl, hwindow⟩ := h r₀ h₀
  rcases refilled_ok hrun with ⟨hnone, _⟩ | ⟨r₁, r', hr, rfl, hrefill⟩
  · cases hnone
  · obtain rfl := Option.some.inj hr
    have hcall := hwindow.call (.refill amount) rfl (b := true) (by
      rw [Operation.apply, hrefill]
      rfl)
    exact ⟨r', rfl, hcall⟩

theorem Tended.wait (h : Tended clock limiter) (later : clock ≤ clock') :
    Tended clock' limiter := fun r hr => (h r hr).wait later

theorem Tended.consumed (h : Tended clock limiter)
    (hrun : consumed clock amount limiter = .ok limiter') : Tended clock limiter' := by
  intro r' hr'
  rcases consumed_ok hrun with ⟨_, rfl⟩ | ⟨r, r₁, rfl, rfl, hconsume⟩
  · cases hr'
  · obtain rfl := Option.some.inj hr'
    exact (h r rfl).call (.tryConsume amount) hconsume

theorem Tended.refilled (h : Tended clock limiter)
    (hrun : refilled clock amount limiter = .ok limiter') : Tended clock limiter' := by
  intro r' hr'
  rcases refilled_ok hrun with ⟨_, rfl⟩ | ⟨r, r₁, rfl, rfl, hrefill⟩
  · cases hr'
  · obtain rfl := Option.some.inj hr'
    refine (h r rfl).call (.refill amount) (b := true) ?_
    rw [Operation.apply, hrefill]
    rfl

theorem Tended.updated {params : Option RateLimitParams} (h : Tended clock limiter)
    (hrun : updateRateLimiter limiter clock params = .ok limiter') : Tended clock limiter' :=
  fun _ hr => updateRateLimiter_reachable h hrun hr

end Limiter

/-! ## Both limiters of a peer -/

/-- Both limiters of a peer that is known. -/
structure PeerTended (clock : Int64) (peer : PeerConfig) : Prop where
  outbound : Tended clock peer.outboundRateLimiter
  inbound : Tended clock peer.inboundRateLimiter

/-- Both limiters of a peer, while so much was sent and so much was taken. -/
structure PeerLimited (clock₀ : Int64) (peer₀ : PeerConfig) (sent taken : ℕ) (clock : Int64)
    (peer : PeerConfig) : Prop where
  outbound : Limited clock₀ peer₀.outboundRateLimiter taken sent clock peer.outboundRateLimiter
  inbound : Limited clock₀ peer₀.inboundRateLimiter sent taken clock peer.inboundRateLimiter

section Peer

variable {clock clock' clock₀ : Int64} {amount : UInt64} {peer peer' peer₀ : PeerConfig}
  {sent taken : ℕ} {oapp : OApp} {ctx : Token.Context} {config : PeerConfigParam}

theorem PeerTended.blank (clock : Int64) : PeerTended clock .blank where
  outbound _ hr := by cases hr
  inbound _ hr := by cases hr

theorem PeerTended.configured (h : PeerTended ctx.unixTimestamp peer)
    (made : configurePeer oapp ctx peer config = .ok peer') :
    PeerTended ctx.unixTimestamp peer' := by
  cases config with
  | peerAddress =>
    obtain rfl := pure_eq_ok.mp made
    exact ⟨h.outbound, h.inbound⟩
  | feeBps =>
    simp only [configurePeer, bind_eq_ok, exists_unit, pure_eq_ok] at made
    obtain ⟨_, rfl⟩ := made
    exact ⟨h.outbound, h.inbound⟩
  | enforcedOptions =>
    simp only [configurePeer, bind_eq_ok, exists_unit, pure_eq_ok] at made
    obtain ⟨_, _, rfl⟩ := made
    exact ⟨h.outbound, h.inbound⟩
  | outboundRateLimit =>
    simp only [configurePeer, bind_eq_ok, own_eq_ok, pure_eq_ok] at made
    obtain ⟨limiter, hupdate, rfl⟩ := made
    exact ⟨h.outbound.updated hupdate, h.inbound⟩
  | inboundRateLimit =>
    simp only [configurePeer, bind_eq_ok, own_eq_ok, pure_eq_ok] at made
    obtain ⟨limiter, hupdate, rfl⟩ := made
    exact ⟨h.outbound, h.inbound.updated hupdate⟩

theorem PeerLimited.start (clock : Int64) (peer : PeerConfig) :
    PeerLimited clock peer 0 0 clock peer where
  outbound r hr := ⟨r, hr, .start⟩
  inbound r hr := ⟨r, hr, .start⟩

end Peer

/-! ## Runs -/

/-- A peer as it is read: one that was never configured has no limiters. -/
def World.peer (w : World) (eid : UInt32) : PeerConfig := (w.peers eid).getD .blank

section Moves

variable {oapp : OApp} {ctx : Token.Context} {w w' : World} {i : Instruction} {eid : UInt32}
  {message : Option EndpointSendParams} {s : OFTStore} {p p' p₀ : PeerConfig} {sent taken x y : ℕ}
  {clock : Int64}

end Moves

section Runs

variable {rt : Runtime} {oapp : OApp} {w w' : World} {clock t : Int64} {es : List Event}
  {eid : UInt32}

/-- What a window takes out was there, flowed in or was poured in. -/
theorem Window.taken_le {clock₀ : Int64} {r₀ r : RateLimiter} {poured taken : ℕ}
    (h : Window clock₀ r₀ poured taken clock r) (h₀ : Reachable clock₀ r₀) :
    taken + r.tokensAt clock ≤ r₀.tokensAt clock₀ +
      r₀.refillPerSecond.toNat * (seconds clock - seconds clock₀) + poured := by
  obtain ⟨hcapacity, hrate, hrun⟩ := h.run
  rw [tokensAt_eq _ (h.reachable h₀).within, tokensAt_eq _ h₀.within, hcapacity, hrate,
    Nat.mul_comm]
  exact hrun.taken_le.2

end Runs

end SolanaEasy.Oft
