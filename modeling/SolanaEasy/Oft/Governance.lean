import SolanaEasy.Oft.Moves

/-!
# Governance — who may change a store

The configuration of a store and of its peers is the admin's, the pause that of the pauser and
the unpauser. In a run in which they do not sign nothing of it changes, and a store that is
paused then neither sends nor receives.
-/

namespace SolanaEasy.Oft

open Token (Pubkey Runtime)

/-! ## The configuration of a peer -/

/-- The part of a limiter that is configured. -/
def RateLimiter.config (r : RateLimiter) : UInt64 × UInt64 := (r.capacity, r.refillPerSecond)

/-- A peer as it was configured, without the state of its limiters. -/
structure PeerConfig.Config where
  peerAddress : Address
  enforcedOptions : EnforcedOptions
  outboundRateLimit : Option (UInt64 × UInt64)
  inboundRateLimit : Option (UInt64 × UInt64)
  feeBps : Option UInt16

def PeerConfig.config (p : PeerConfig) : PeerConfig.Config where
  peerAddress := p.peerAddress
  enforcedOptions := p.enforcedOptions
  outboundRateLimit := p.outboundRateLimiter.map RateLimiter.config
  inboundRateLimit := p.inboundRateLimiter.map RateLimiter.config
  feeBps := p.feeBps

section Limiters

variable {clock : Int64} {amount : UInt64} {limiter limiter' : Option RateLimiter}
  {peer peer' : PeerConfig}

theorem consumed_ok (h : consumed clock amount limiter = .ok limiter') :
    (limiter = none ∧ limiter' = none) ∨ ∃ r r', limiter = some r ∧ limiter' = some r' ∧
      r.tryConsume clock amount = .ok (r', true) := by
  cases limiter with
  | none => exact .inl ⟨rfl, (Except.ok.inj h).symm⟩
  | some r =>
    simp only [consumed, Option.elim_some, bind_eq_ok, exists_unit, failIf_eq_ok,
      Bool.not_eq_false', pure_eq_ok] at h
    obtain ⟨⟨r', done⟩, hrun, hdone, rfl⟩ := h
    obtain rfl : done = true := hdone
    exact .inr ⟨r, r', rfl, rfl, hrun⟩

theorem refilled_ok (h : refilled clock amount limiter = .ok limiter') :
    (limiter = none ∧ limiter' = none) ∨ ∃ r r', limiter = some r ∧ limiter' = some r' ∧
      r.refill clock amount = .ok r' := by
  cases limiter with
  | none => exact .inl ⟨rfl, (Except.ok.inj h).symm⟩
  | some r =>
    simp only [refilled, Option.elim_some, bind_eq_ok, pure_eq_ok] at h
    obtain ⟨r', hrun, rfl⟩ := h
    exact .inr ⟨r, r', rfl, rfl, hrun⟩

theorem consumed_config (h : consumed clock amount limiter = .ok limiter') :
    limiter'.map RateLimiter.config = limiter.map RateLimiter.config := by
  rcases consumed_ok h with ⟨rfl, rfl⟩ | ⟨r, r', rfl, rfl, hrun⟩
  · rfl
  · have hop : (Operation.tryConsume amount).reconfigures = false := rfl
    obtain ⟨hcapacity, hrate, _⟩ := apply_touched hop hrun
    simp only [Option.map_some, RateLimiter.config, hcapacity, hrate]

theorem refilled_config (h : refilled clock amount limiter = .ok limiter') :
    limiter'.map RateLimiter.config = limiter.map RateLimiter.config := by
  rcases refilled_ok h with ⟨rfl, rfl⟩ | ⟨r, r', rfl, rfl, hrun⟩
  · rfl
  · obtain ⟨hcapacity, hrate, _⟩ := refill_ok hrun
    simp only [Option.map_some, RateLimiter.config, hcapacity, hrate]

theorem WentOut.config (h : WentOut clock amount peer peer') : peer'.config = peer.config := by
  have hout := consumed_config h.out
  have hback := refilled_config h.back
  rw [PeerConfig.config, hout, hback, h.rest]
  rfl

theorem CameIn.config (h : CameIn clock amount peer peer') : peer'.config = peer.config := by
  have hinto := consumed_config h.into
  have hback := refilled_config h.back
  rw [PeerConfig.config, hinto, hback, h.rest]
  rfl

end Limiters

/-! ## Without the admin -/

/-- Everything is configured as it was. -/
structure SameConfig (w w' : World) : Prop where
  store : w'.store = { w.store with tvlLd := w'.store.tvlLd, paused := w'.store.paused }
  oftStore : w'.oftStore = w.oftStore
  peers : ∀ eid, (w'.peers eid).map PeerConfig.config = (w.peers eid).map PeerConfig.config

/-- The instruction moves tokens between chains. -/
def Instruction.bridges : Instruction → Bool
  | send _ _ | lzReceive _ _ => true
  | _ => false

section Steps

variable {oapp : OApp} {ctx : Token.Context} {w w' w'' : World} {i : Instruction}
  {message : Option EndpointSendParams}

theorem SameConfig.refl (w : World) : SameConfig w w := ⟨rfl, rfl, fun _ => rfl⟩

theorem SameConfig.trans (h : SameConfig w w') (h' : SameConfig w' w'') : SameConfig w w'' where
  store := by
    rw [h'.store, h.store]
  oftStore := h'.oftStore.trans h.oftStore
  peers eid := (h'.peers eid).trans (h.peers eid)

theorem SameConfig.admin (h : SameConfig w w') : w'.store.admin = w.store.admin := by rw [h.store]

/-- One peer after it has sent or received. -/
theorem config_update {eid eid' : UInt32} {peer peer' : PeerConfig}
    (found : w.peers eid = some peer) (hconfig : peer'.config = peer.config) :
    (Function.update w.peers eid (some peer') eid').map PeerConfig.config =
      (w.peers eid').map PeerConfig.config := by
  by_cases he : eid' = eid
  · subst he
    rw [Function.update_self, found, Option.map_some, Option.map_some, hconfig]
  · rw [Function.update_of_ne he]

theorem Effect.sameConfig (h : Effect oapp ctx w i w' message)
    (absent : i.signer ≠ w.store.admin) : SameConfig w w' := by
  cases h with
  | send found _ limits => exact ⟨rfl, rfl, fun _ => config_update found limits.config⟩
  | lzReceive found _ _ limits => exact ⟨rfl, rfl, fun _ => config_update found limits.config⟩
  | withdrawFee admin => exact absurd admin absent
  | setOftConfig may => exact absurd may absent
  | setPause => exact ⟨rfl, rfl, fun _ => rfl⟩
  | setPeerConfig may => exact absurd may absent

/-- While the store is paused and neither the admin nor the unpauser signs. -/
theorem Effect.still (h : Effect oapp ctx w i w' message) (absent : i.signer ≠ w.store.admin)
    (paused : w.store.paused = true) (unpauser : w.store.unpauser ≠ some i.signer) :
    w'.store = w.store ∧ w'.peers = w.peers ∧ i.bridges = false := by
  cases h with
  | send _ running => exact absurd (paused.symm.trans running) (by decide)
  | lzReceive _ _ running => exact absurd (paused.symm.trans running) (by decide)
  | withdrawFee => exact ⟨rfl, rfl, rfl⟩
  | setOftConfig may => exact absurd may absent
  | @setPause signer b may =>
    cases b with
    | true =>
      refine ⟨?_, rfl, rfl⟩
      rw [← paused]
    | false => exact absurd may unpauser
  | setPeerConfig may => exact absurd may absent

/-- While the store is not paused and neither the admin nor the pauser signs. -/
theorem Effect.running (h : Effect oapp ctx w i w' message) (absent : i.signer ≠ w.store.admin)
    (running : w.store.paused = false) (pauser : w.store.pauser ≠ some i.signer) :
    w'.store.paused = false := by
  cases h with
  | send => exact running
  | lzReceive => exact running
  | withdrawFee => exact running
  | setOftConfig may => exact absurd may absent
  | @setPause signer b may =>
    cases b with
    | true => exact absurd may pauser
    | false => rfl
  | setPeerConfig => exact running

end Steps

/-! ## Runs -/

section Runs

variable {rt : Runtime} {oapp : OApp} {w w' : World} {clock t : Int64} {es : List Event}

theorem Runs.sameConfig (h : Runs rt oapp w clock es w' t)
    (absent : ∀ e ∈ es, e.instruction.signer ≠ w.store.admin) : SameConfig w w' := by
  induction h with
  | start => exact .refl w
  | wait _ _ ih => exact ih absent
  | outside _ σ ih => exact (ih absent).trans ⟨rfl, rfl, fun _ => rfl⟩
  | call _ run ih =>
    have hsame := ih fun e he => absent e (List.mem_cons_of_mem _ he)
    refine hsame.trans ((Instruction.run_effect run).sameConfig ?_)
    rw [hsame.admin]
    exact absent _ List.mem_cons_self

/-- A paused store is the one it was. -/
theorem Runs.still (h : Runs rt oapp w clock es w' t)
    (absent : ∀ e ∈ es, e.instruction.signer ≠ w.store.admin) (paused : w.store.paused = true)
    (unpauser : ∀ e ∈ es, w.store.unpauser ≠ some e.instruction.signer) :
    w'.store = w.store ∧ w'.peers = w.peers ∧ ∀ e ∈ es, e.instruction.bridges = false := by
  induction h with
  | start => exact ⟨rfl, rfl, fun _ he => by cases he⟩
  | wait _ _ ih => exact ih absent unpauser
  | outside _ σ ih => exact ih absent unpauser
  | call _ run ih =>
    obtain ⟨hstore, hpeers, hbridges⟩ := ih (fun e he => absent e (List.mem_cons_of_mem _ he))
      fun e he => unpauser e (List.mem_cons_of_mem _ he)
    have habsent := absent _ List.mem_cons_self
    have hunpauser := unpauser _ List.mem_cons_self
    rw [← hstore] at habsent hunpauser paused ⊢
    obtain ⟨hstore', hpeers', hbridge⟩ :=
      (Instruction.run_effect run).still habsent paused hunpauser
    refine ⟨hstore', hpeers'.trans hpeers, fun e he => ?_⟩
    rcases List.mem_cons.mp he with rfl | he
    · exact hbridge
    · exact hbridges e he

theorem Runs.running (h : Runs rt oapp w clock es w' t)
    (absent : ∀ e ∈ es, e.instruction.signer ≠ w.store.admin) (running : w.store.paused = false)
    (pauser : ∀ e ∈ es, w.store.pauser ≠ some e.instruction.signer) :
    w'.store.paused = false := by
  induction h with
  | start => exact running
  | wait _ _ ih => exact ih absent pauser
  | outside _ σ ih => exact ih absent pauser
  | @call es _ _ _ _ _ h run ih =>
    have hrest : ∀ e ∈ es, e.instruction.signer ≠ w.store.admin :=
      fun e he => absent e (List.mem_cons_of_mem _ he)
    have hsame := h.sameConfig hrest
    have hrunning := ih hrest fun e he => pauser e (List.mem_cons_of_mem _ he)
    refine (Instruction.run_effect run).running ?_ hrunning ?_
    · rw [hsame.admin]
      exact absent _ List.mem_cons_self
    · rw [hsame.store]
      exact pauser _ List.mem_cons_self

end Runs

end SolanaEasy.Oft
