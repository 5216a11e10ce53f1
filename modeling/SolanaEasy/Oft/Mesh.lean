import SolanaEasy.Lib.Network
import SolanaEasy.Oft.Issue

/-!
# Mesh — the stores of one token on many chains

Every chain has a ledger of its own and one store, an adapter or a native one; messages are
delivered in any order, each at most once. On every chain everyone else does what they like,
but for the escrow and the mint.
-/

namespace SolanaEasy.Oft

open Token (Pubkey Ledger Runtime)

/-- A chain, and what its store was set up with. -/
structure Site where
  eid : UInt32
  rt : Runtime
  oapp : OApp
  oftType : OFTType
  oftStore : Pubkey
  tokenMint : Pubkey
  tokenEscrow : Pubkey

def Site.address (s : Site) : Address := senderAddress s.oftStore

/-- A message on its way. -/
structure Parcel where
  srcEid : UInt32
  sender : Address
  dstEid : UInt32
  receiver : Address
  message : Bytes

/-- The amount in shared decimals. -/
def Parcel.amountSd (p : Parcel) : ℕ := ((toOption (MsgCodec.amountSd p.message)).getD 0).toNat

namespace Site

/-- What everyone else may do on a chain. -/
def Spares (s : Site) : Ledger → Ledger → Prop :=
  match s.oftType with
  | .adapter => Deposits s.rt s.tokenEscrow
  | .native => Thrifty s.rt s.tokenMint

/-- A store that has just been set up; of a native one no tokens are out. -/
inductive Launched (s : Site) : World → Prop
  | initOft {ctx σ accounts params w} (reach : Token.Reachable s.rt (fun _ => True) σ)
      (oftType : params.oftType = s.oftType) (oftStore : accounts.oftStore = s.oftStore)
      (tokenMint : accounts.tokenMint = s.tokenMint)
      (tokenEscrow : accounts.tokenEscrow = s.tokenEscrow)
      (run : initOft s.rt s.oapp ctx σ accounts params = .ok w)
      (unissued : s.oftType = .native → Outstanding w.ledger s.tokenMint 0 0) : Launched s w

/-- No one signs for the address of the store but the program. -/
inductive Sends (s : Site) : World → World → Parcel → Prop
  | send {ctx w accounts params w' message} (outsider : accounts.signer ≠ s.oftStore)
      (run : send s.rt s.oapp ctx w accounts params = .ok (w', message)) :
      Sends s w w' ⟨s.eid, s.address, message.dstEid, message.receiver, message.message⟩

inductive Takes (s : Site) : Parcel → World → World → Prop
  | lzReceive {ctx w accounts params w' p} (here : p.dstEid = s.eid)
      (receiver : p.receiver = s.address) (srcEid : params.srcEid = p.srcEid)
      (sender : params.sender = p.sender) (message : params.message = p.message)
      (run : lzReceive s.rt s.oapp ctx w accounts params = .ok w') : Takes s p w w'

/-- What happens on one chain alone. The admin takes peers from the mesh only; a message of a
sender that is not of the mesh is delivered too. -/
inductive Moves {ι : Type} (sites : ι → Site) (s : Site) : World → World → Prop
  | withdrawFee {ctx w accounts feeLd w'}
      (run : withdrawFee s.rt ctx w accounts feeLd = .ok w') : Moves sites s w w'
  | setOftConfig {w admin remaining params w'}
      (run : setOftConfig s.oapp w admin remaining params = .ok w') : Moves sites s w w'
  | setPause {w signer paused w'} (run : setPause w signer paused = .ok w') : Moves sites s w w'
  | setPeerConfig {ctx w admin eid config w'}
      (member : ∀ a, config = .peerAddress a → ∃ i, (sites i).eid = eid ∧ (sites i).address = a)
      (run : setPeerConfig s.oapp ctx w admin eid config = .ok w') : Moves sites s w w'
  | forged {ctx w accounts params w'}
      (stranger : ∀ i, (sites i).eid = params.srcEid → (sites i).address ≠ params.sender)
      (sender : params.sender ≠ PeerConfig.blank.peerAddress)
      (run : lzReceive s.rt s.oapp ctx w accounts params = .ok w') : Moves sites s w w'
  | outside {w σ} (spares : s.Spares w.ledger σ) : Moves sites s w { w with ledger := σ }

end Site

/-- What is true of a store that has sent and taken so much, in shared decimals. -/
structure Site.Sound {ι : Type} (sites : ι → Site) (s : Site) (w : World) (sent taken : ℕ) :
    Prop where
  oftType : w.store.oftType = s.oftType
  oftStore : w.oftStore = s.oftStore
  peers : ∀ eid peer, w.peers eid = some peer →
    peer.peerAddress = PeerConfig.blank.peerAddress ∨
      ∃ i, (sites i).eid = eid ∧ (sites i).address = peer.peerAddress
  adapter : s.oftType = .adapter → Solvent s.rt s.tokenEscrow w
    (sent * w.store.ld2sdRate.toNat) (taken * w.store.ld2sdRate.toNat)
  native : s.oftType = .native → Issued s.rt s.tokenMint w
    (sent * w.store.ld2sdRate.toNat) (taken * w.store.ld2sdRate.toNat)

section Books

variable {ι : Type} {sites : ι → Site} {s : Site} {oapp : OApp} {ctx : Token.Context}
  {w w' : World} {sent taken : ℕ} {p : Parcel}

theorem OApp.Within.adapter (h : s.oapp.Within s.Spares) (htype : s.oftType = .adapter) :
    s.oapp.Honest s.rt s.tokenEscrow := by
  rw [show s.Spares = Deposits s.rt s.tokenEscrow by rw [Site.Spares, htype]] at h
  exact h.honest

theorem OApp.Within.native (h : s.oapp.Within s.Spares) (htype : s.oftType = .native) :
    s.oapp.Within (Thrifty s.rt s.tokenMint) := by
  rwa [show s.Spares = Thrifty s.rt s.tokenMint by rw [Site.Spares, htype]] at h

/-- What a peer is remembered as by any instruction but the one that names it. -/
theorem Effect.peers_named {i : Instruction} {message : Option EndpointSendParams}
    (h : Effect oapp ctx w i w' message) {eid : UInt32} {peer' : PeerConfig}
    (hpeer : w'.peers eid = some peer') :
    peer'.peerAddress = ((w.peers eid).getD .blank).peerAddress ∨
      ∃ admin, i = .setPeerConfig admin eid (.peerAddress peer'.peerAddress) := by
  have hsame : ∀ (e : UInt32) (q q' : PeerConfig), w.peers e = some q →
      q'.peerAddress = q.peerAddress → Function.update w.peers e (some q') eid = some peer' →
      peer'.peerAddress = ((w.peers eid).getD .blank).peerAddress := by
    intro e q q' hq haddress hupdate
    by_cases he : eid = e
    · subst he
      rw [Function.update_self] at hupdate
      obtain rfl := Option.some.inj hupdate
      rw [hq]
      exact haddress
    · rw [Function.update_of_ne he] at hupdate
      rw [hupdate]
      rfl
  have hkept : w.peers eid = some peer' →
      peer'.peerAddress = ((w.peers eid).getD .blank).peerAddress := by
    intro hp
    rw [hp]
    rfl
  cases h with
  | send found _ limits =>
    exact .inl (hsame _ _ _ found (by rw [limits.rest]) hpeer)
  | lzReceive found _ _ limits =>
    exact .inl (hsame _ _ _ found (by rw [limits.rest]) hpeer)
  | withdrawFee => exact .inl (hkept hpeer)
  | setOftConfig => exact .inl (hkept hpeer)
  | setPause => exact .inl (hkept hpeer)
  | @setPeerConfig admin remoteEid config peer may made =>
    by_cases he : eid = remoteEid
    · subst he
      have hupdated : Function.update w.peers eid (some peer) eid = some peer' := hpeer
      rw [Function.update_self, Option.some.injEq] at hupdated
      subst hupdated
      cases config with
      | peerAddress a =>
        obtain rfl := pure_eq_ok.mp made
        exact .inr ⟨admin, rfl⟩
      | feeBps =>
        simp only [configurePeer, bind_eq_ok, exists_unit, pure_eq_ok] at made
        obtain ⟨_, rfl⟩ := made
        exact .inl rfl
      | enforcedOptions =>
        simp only [configurePeer, bind_eq_ok, exists_unit, pure_eq_ok] at made
        obtain ⟨_, _, rfl⟩ := made
        exact .inl rfl
      | outboundRateLimit =>
        simp only [configurePeer, bind_eq_ok, pure_eq_ok] at made
        obtain ⟨_, _, rfl⟩ := made
        exact .inl rfl
      | inboundRateLimit =>
        simp only [configurePeer, bind_eq_ok, pure_eq_ok] at made
        obtain ⟨_, _, rfl⟩ := made
        exact .inl rfl
    · exact .inl (hkept ((Function.update_of_ne he _ _).symm.trans hpeer))

/-- A step of the store keeps its peers in the mesh. -/
theorem Site.Sound.peers_effect {i : Instruction} {message : Option EndpointSendParams}
    (hsound : s.Sound sites w sent taken) (h : Effect oapp ctx w i w' message)
    (hmember : ∀ admin eid a, i = .setPeerConfig admin eid (.peerAddress a) →
      ∃ i, (sites i).eid = eid ∧ (sites i).address = a) (eid : UInt32) (peer' : PeerConfig)
    (hpeer : w'.peers eid = some peer') :
    peer'.peerAddress = PeerConfig.blank.peerAddress ∨
      ∃ i, (sites i).eid = eid ∧ (sites i).address = peer'.peerAddress := by
  rcases h.peers_named hpeer with hsame | ⟨admin, hnamed⟩
  · rw [hsame]
    cases hp : w.peers eid with
    | none => exact .inl rfl
    | some peer => exact hsound.peers eid peer hp
  · exact .inr (hmember admin eid _ hnamed)

/-- The books of a store after one of its instructions. -/
theorem Site.Sound.effect {i : Instruction} {message : Option EndpointSendParams}
    {sent' taken' : ℕ} (hsound : s.Sound sites w sent taken) (h : Effect oapp ctx w i w' message)
    (hmember : ∀ admin eid a, i = .setPeerConfig admin eid (.peerAddress a) →
      ∃ i, (sites i).eid = eid ∧ (sites i).address = a)
    (hadapter : s.oftType = .adapter → Solvent s.rt s.tokenEscrow w'
      (sent' * w.store.ld2sdRate.toNat) (taken' * w.store.ld2sdRate.toNat))
    (hnative : s.oftType = .native → Issued s.rt s.tokenMint w'
      (sent' * w.store.ld2sdRate.toNat) (taken' * w.store.ld2sdRate.toNat)) :
    s.Sound sites w' sent' taken' where
  oftType := h.sameSite.oftType.trans hsound.oftType
  oftStore := h.sameSite.oftStore.trans hsound.oftStore
  peers := hsound.peers_effect h hmember
  adapter := by rwa [h.sameSite.ld2sdRate]
  native := by rwa [h.sameSite.ld2sdRate]

theorem Site.Launched.sound (within : s.oapp.Within s.Spares) (h : s.Launched w) :
    s.Sound sites w 0 0 := by
  cases h with
  | @initOft ctx σ accounts params _ reach oftType oftStore tokenMint tokenEscrow run unissued =>
    obtain ⟨σ₁, hrun, hregister, hstore, htype, hmint, hpeers⟩ := initOft_ok run
    refine ⟨htype.trans oftType, hstore.trans oftStore, fun eid peer hpeer => ?_,
      fun hadapter => ?_, fun hnative => ?_⟩
    · rw [hpeers] at hpeer
      cases hpeer
    · rw [Nat.zero_mul]
      exact initOft_solvent (within.adapter hadapter) reach (oftType.trans hadapter) tokenEscrow run
    · rw [Nat.zero_mul]
      have hthrifty := (within.native hnative).registerOapp hregister
      have hreach := reach.run (.single (.call (c := ⟨ctx, _, _, _⟩) trivial hrun))
      exact ⟨hthrifty.reachable hreach, htype.trans (oftType.trans hnative),
        hmint.trans tokenMint, unissued hnative⟩

theorem Site.Sends.sound (within : s.oapp.Within s.Spares) (hsound : s.Sound sites w sent taken)
    (h : s.Sends w w' p) : s.Sound sites w' (sent + p.amountSd) taken := by
  cases h with
  | @send ctx _ accounts params _ message outsider run =>
    have hcarried : ∀ {m : Bytes}, w.store.amountLd m =
        ((toOption (MsgCodec.amountSd m)).getD 0).toNat * w.store.ld2sdRate.toNat := rfl
    refine hsound.effect (send_effect run) (fun _ _ _ he => by cases he) (fun htype => ?_)
      (fun htype => ?_)
    · have hsolvent := send_solvent (within.adapter htype) (hsound.oftStore ▸ outsider)
        (hsound.adapter htype) run
      rwa [hcarried, ← Nat.add_mul] at hsolvent
    · have hissued := send_issued (within.native htype) (hsound.native htype) run
      rwa [hcarried, ← Nat.add_mul] at hissued

theorem Site.Takes.sound (within : s.oapp.Within s.Spares) (hsound : s.Sound sites w sent taken)
    (h : s.Takes p w w') : s.Sound sites w' sent (taken + p.amountSd) := by
  cases h with
  | @lzReceive ctx _ accounts params _ _ here receiver srcEid sender message run =>
    have hcarried : w.store.amountLd params.message = p.amountSd * w.store.ld2sdRate.toNat := by
      rw [message]
      rfl
    refine hsound.effect (lzReceive_effect run) (fun _ _ _ he => by cases he) (fun htype => ?_)
      (fun htype => ?_)
    · have hsolvent := lzReceive_solvent (within.adapter htype) (hsound.adapter htype) run
      rwa [hcarried, ← Nat.add_mul] at hsolvent
    · have hissued := lzReceive_issued (within.native htype) (hsound.native htype) run
      rwa [hcarried, ← Nat.add_mul] at hissued

/-- A message of a sender that is not of the mesh is refused. -/
theorem Site.Sound.stranger_refused {params : LzReceiveParams} {accounts : LzReceiveAccounts}
    {rt : Runtime} (hsound : s.Sound sites w sent taken)
    (stranger : ∀ i, (sites i).eid = params.srcEid → (sites i).address ≠ params.sender)
    (sender : params.sender ≠ PeerConfig.blank.peerAddress) :
    lzReceive rt oapp ctx w accounts params ≠ .ok w' := by
  intro h
  cases lzReceive_effect h with
  | lzReceive found known =>
    rcases hsound.peers _ _ found with hblank | ⟨i, heid, haddress⟩
    · exact sender (known.symm.trans hblank)
    · exact stranger i heid (haddress.trans known)

theorem Site.Moves.sound (within : s.oapp.Within s.Spares) (hsound : s.Sound sites w sent taken)
    (h : s.Moves sites w w') : s.Sound sites w' sent taken := by
  cases h with
  | @withdrawFee ctx _ accounts feeLd _ run =>
    have heffect : Effect s.oapp ctx w _ w' none := withdrawFee_effect run
    exact hsound.effect heffect (fun _ _ _ he => by cases he)
      (fun htype => withdrawFee_solvent (hsound.adapter htype) run)
      (fun htype => withdrawFee_issued (hsound.native htype) run)
  | setOftConfig run =>
    have heffect : Effect s.oapp .plain w _ w' none := setOftConfig_effect run
    exact hsound.effect heffect (fun _ _ _ he => by cases he)
      (fun htype => setOftConfig_solvent (within.adapter htype) (hsound.adapter htype) run)
      (fun htype => setOftConfig_issued (within.native htype) (hsound.native htype) run)
  | setPause run =>
    have heffect : Effect s.oapp .plain w _ w' none := setPause_effect run
    exact hsound.effect heffect (fun _ _ _ he => by cases he)
      (fun htype => setPause_solvent (hsound.adapter htype) run)
      (fun htype => setPause_issued (hsound.native htype) run)
  | @setPeerConfig ctx _ admin eid config _ member run =>
    refine hsound.effect (setPeerConfig_effect run) ?_
      (fun htype => setPeerConfig_solvent (hsound.adapter htype) run)
      (fun htype => setPeerConfig_issued (hsound.native htype) run)
    intro admin' eid' a he
    obtain ⟨rfl, rfl, rfl⟩ := Instruction.setPeerConfig.inj he
    exact member a rfl
  | forged stranger sender run =>
    exact absurd run (hsound.stranger_refused stranger sender)
  | @outside _ σ spares =>
    refine ⟨hsound.oftType, hsound.oftStore, hsound.peers, fun htype => ?_, fun htype => ?_⟩
    · rw [Site.Spares, htype] at spares
      obtain ⟨hreach, hadapter, hbalance, hplace, hcovers⟩ := hsound.adapter htype
      exact ⟨spares.reachable hreach, hadapter, hbalance, hplace, spares.covers hcovers⟩
    · rw [Site.Spares, htype] at spares
      obtain ⟨hreach, hnative, htoken, hout⟩ := hsound.native htype
      exact ⟨spares.reachable hreach, hnative, htoken, spares.outstanding hout⟩

end Books

/-! ## The books of the mesh -/

section Balance

variable {ι : Type} {sites : ι → Site} {s : Site} {w : World} {sent taken : ℕ}

/-- An adapter holds what it has sent less what it has taken. -/
theorem Site.Sound.locked (h : s.Sound sites w sent taken) (htype : s.oftType = .adapter) :
    sent = taken + (sent - taken) ∧
      w.store.tvlLd.toNat = (sent - taken) * w.store.ld2sdRate.toNat ∧
      Covers w.ledger s.tokenEscrow w.store.tvlLd.toNat := by
  obtain ⟨_, _, hbalance, _, hcovers⟩ := h.adapter htype
  have hrate : 0 < w.store.ld2sdRate.toNat := UInt64.lt_iff_toNat_lt.mp w.store.rate_pos
  have hle : taken ≤ sent := by
    refine Nat.le_of_mul_le_mul_right ?_ hrate
    omega
  refine ⟨by omega, ?_, hcovers⟩
  rw [Nat.sub_mul]
  omega

/-- A native store has issued no more than it has taken less what it has sent. -/
theorem Site.Sound.issued (h : s.Sound sites w sent taken) (htype : s.oftType = .native) :
    taken = sent + (taken - sent) ∧ ∃ m, w.ledger.book.Mint s.tokenMint m ∧
      m.base.supply.toNat ≤ (taken - sent) * w.store.ld2sdRate.toNat := by
  obtain ⟨_, _, _, m, held, hle⟩ := h.native htype
  have hrate : 0 < w.store.ld2sdRate.toNat := UInt64.lt_iff_toNat_lt.mp w.store.rate_pos
  have hsent : sent ≤ taken := by
    refine Nat.le_of_mul_le_mul_right ?_ hrate
    omega
  refine ⟨by omega, m, held, ?_⟩
  rw [Nat.sub_mul]
  omega

end Balance

end SolanaEasy.Oft
