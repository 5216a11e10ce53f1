import SolanaEasy.Token.Hidden
import SolanaEasy.Token.Law.Markers
import SolanaEasy.Token.Law.Native

/-!
# Pause — a mint that is paused, until it resumes

Every handler that moves tokens asks the mint whether it is paused, or, where no mint
was passed, learns from the account that it should have asked. So while a mint is
paused its tokens stay where they are, but for withheld fees that are paid out.
-/

namespace SolanaEasy.Token

open Processor

def Call.Resumes (c : Call) (M : Pubkey) : Prop := c.key? 0 = some M ∧ c.instruction = .resume

section Trade

variable {rt : Runtime} {c : Call} {M : Pubkey}

/-- Who is told nothing of a pause was opened without the marker for one. -/
theorem Call.Consults.unmarked {v : View PodAccount} {x fee : UInt64} {hook : Option Pubkey}
    {m : View PodMint} (h : c.Consults v x fee hook) (held : c.σ.book.Mint v.base.mint m)
    (hpaused : m.paused = true) : v.get PausableAccount = none := by
  cases h with
  | mint read running =>
    obtain ⟨_, s, hs, rfl⟩ := Cell.contents_eq_mint.mp held
    obtain rfl := Except.ok.inj (hs.symm.trans read)
    rw [running] at hpaused
    cases hpaused
  | markers _ _ pause => exact pause

/-- The mint of a trade, and who asked it. -/
theorem Trade.consulted {s d : Pubkey} {hook : Option Pubkey} {β' : Book}
    (h : Trade rt c s d hook c.σ.book β') :
    ∃ v, c.σ.book.Account s v ∧ (∀ w, c.σ.book.Account d w → w.base.mint = v.base.mint) ∧
      (c.key? 0 = some s ∨ c.key? 0 = some v.base.mint ∧ ∃ m, c.σ.book.Mint v.base.mint m) ∧
      ∀ m, c.σ.book.Mint v.base.mint m → m.paused = true → v.get PausableAccount = none := by
  have hsame : ∀ {k : Pubkey} {v : View PodAccount}, c.σ.book.Account k v →
      ∀ w, c.σ.book.Account k w → w.base.mint = v.base.mint :=
    fun hv w hw => by rw [hw.unique hv]
  have hrunning : ∀ {k : Pubkey} {m : View PodMint} {P : Prop}, c.σ.book.Mint k m →
      m.paused = false → ∀ m', c.σ.book.Mint k m' → m'.paused = true → P := by
    intro k m P hm hfree m' hm' hpaused
    rw [hm'.unique hm, hfree] at hpaused
    cases hpaused
  cases h with
  | transfer head last ne spends notBurn source target mint consults =>
    refine ⟨_, source, fun w hw => ?_, .inl head, fun m => consults.unmarked⟩
    rw [hw.unique target, mint]
  | selfTransfer head last spends notBurn source consults =>
    exact ⟨_, source, hsame source, .inl head, fun m => consults.unmarked⟩
  | burn head isBurn source at' mint running =>
    exact ⟨_, source, hsame source, .inl head, at' ▸ hrunning mint running⟩
  | deposit head spends still held at' mint openly running =>
    exact ⟨_, held, hsame held, .inl head, at' ▸ hrunning mint running⟩
  | withdraw head spends still held at' mint openly running =>
    exact ⟨_, held, hsame held, .inl head, at' ▸ hrunning mint running⟩
  | mintTo head spends still held at' mint authority openly running =>
    subst at'
    exact ⟨_, held, hsame held, .inr ⟨head, _, mint⟩, hrunning mint running⟩
  | secretTransfer head last spends source at' mint running movable thawed endorsed unguarded secret
      core target same =>
    refine ⟨_, source, fun w hw => ?_, .inl head, at' ▸ hrunning mint running⟩
    by_cases hds : d = s
    · subst hds
      rw [hw.unique source]
    · rw [Book.Account, Book.contents_put, if_neg hds] at target
      rw [hw.unique target, same, at']
  | secretMint head spends still held at' mint authority running =>
    exact ⟨_, held, hsame held, .inl head, at' ▸ hrunning mint running⟩
  | secretBurn head spends still held at' mint running =>
    exact ⟨_, held, hsame held, .inl head, at' ▸ hrunning mint running⟩

/-- No trade is made of the tokens of a paused mint. -/
theorem Trade.mint_ne {s d : Pubkey} {hook : Option Pubkey} {β' : Book} {m : View PodMint}
    (hwf : c.σ.Wf) (hlink : c.σ.book.Linked (Attached M)) (held : c.σ.book.Mint M m)
    (hpaused : m.paused = true) (h : Trade rt c s d hook c.σ.book β') {k : Pubkey}
    {v : View PodAccount} (hk : k = s ∨ k = d) (hv : c.σ.book.Account k v) : v.base.mint ≠ M := by
  obtain ⟨w, hw, hsame, _, hunmarked⟩ := h.consulted
  have hmint : v.base.mint = w.base.mint := by
    rcases hk with rfl | rfl
    · rw [hv.unique hw]
    · exact hsame v hv
  intro hM
  rw [hmint] at hM
  obtain ⟨n, hn, hdemands⟩ := hlink _ w hw hM
  obtain rfl := held.unique (hM ▸ hn)
  have hnone := hwf.ext_eq_none hw rfl (hunmarked m (hM ▸ held) hpaused)
  have hpausable : (m.ext .pausable).isSome = true := by
    cases hget : m.get PausableConfig with
    | none =>
      rw [View.paused, hget] at hpaused
      cases hpaused
    | some x => exact View.ext_isSome_of_get hget
  have hsome := hdemands .pausable hpausable .pausableAccount (List.mem_singleton_self _)
  rw [show w.ext .pausableAccount = none from hnone] at hsome
  cases hsome

/-- No trade that concerns a paused mint is made. -/
theorem Trade.not_concerns {s d : Pubkey} {hook : Option Pubkey} {β' : Book} {m : View PodMint}
    (hwf : c.σ.Wf) (hlink : c.σ.book.Linked (Attached M)) (held : c.σ.book.Mint M m)
    (hpaused : m.paused = true) (h : Trade rt c s d hook c.σ.book β') : ¬ c.Concerns M := by
  obtain ⟨w, hw, _, hhead, _⟩ := h.consulted
  have hne := h.mint_ne hwf hlink held hpaused (.inl rfl) hw
  rintro (hM | ⟨k, v, hk, hv, hM⟩)
  · rcases hhead with hs | ⟨hmint, _⟩
    · obtain rfl := Option.some.inj (hs.symm.trans hM)
      exact hw.not_mint held
    · exact hne (Option.some.inj (hmint.symm.trans hM))
  · rcases hhead with hs | ⟨hmint, n, hn⟩
    · obtain rfl := Option.some.inj (hs.symm.trans hk)
      exact hne (by rw [hw.unique hv, hM])
    · obtain rfl := Option.some.inj (hmint.symm.trans hk)
      exact hv.not_mint hn

end Trade

/-! ## The mint -/

section Mint

variable {l : ℕ} {rt : Runtime} {R : Reading l rt} {c : Call} {M : Pubkey}

/-- A paused mint stays paused, and its supplies stay what they are. -/
def StaysPaused (R : Reading l rt) (m m' : View PodMint) : Prop :=
  m.paused = true → m'.paused = true ∧ m'.base.supply = m.base.supply ∧
    m'.mintCore.outstanding R = m.mintCore.outstanding R

theorem StaysPaused.refl (m : View PodMint) : StaysPaused R m m := fun h => ⟨h, rfl, rfl⟩

theorem StaysPaused.trans {m n o : View PodMint} (h : StaysPaused R m n)
    (h' : StaysPaused R n o) : StaysPaused R m o := by
  intro hpaused
  obtain ⟨hn, hsupply, hout⟩ := h hpaused
  obtain ⟨ho, hsupply', hout'⟩ := h' hn
  exact ⟨ho, hsupply'.trans hsupply, hout'.trans hout⟩

theorem StaysPaused.of_core {m m' : View PodMint}
    (hpaused : m'.mintCore.paused = m.mintCore.paused)
    (hsupply : m'.mintCore.supply = m.mintCore.supply)
    (hout : m'.mintCore.outstanding R = m.mintCore.outstanding R) : StaysPaused R m m' :=
  fun h => ⟨hpaused.trans h, hsupply, hout⟩

theorem StaysPaused.of_running {m m' : View PodMint} (h : m.paused = false) :
    StaysPaused R m m' := by
  intro hpaused
  rw [h] at hpaused
  cases hpaused

theorem MintEffect.staysPaused {m m' : View PodMint} (hR : R.Sound c.ctx c.σ)
    (hresume : ¬ c.Resumes M) (h : MintEffect rt c M m m') : StaysPaused R m m' := by
  have hout := h.outstanding_eq hR
  cases h with
  | @pause b head toggles core =>
    cases b with
    | false => exact absurd ⟨head, toggles⟩ hresume
    | true =>
      exact fun _ => ⟨(congrArg MintCore.paused core :), (congrArg MintCore.supply core :), hout⟩
  | quiet core | rewrite _ core | withheld core | secretFees _ core | setFee _ _ _ _ core
  | rotate _ _ _ core | restate _ core | applyBurn _ _ core =>
    exact .of_core (congrArg MintCore.paused core :) (congrArg MintCore.supply core :) hout

theorem MintExchange.running {m m' : View PodMint} (h : MintExchange rt c m m') :
    m.paused = false := by
  cases h <;> assumption

theorem respects_staysPaused (hR : R.Sound c.ctx c.σ) (hresume : ¬ c.Resumes M) :
    MintRespects rt c M (StaysPaused R) where
  refl := .refl
  trans := .trans
  effect h _ := h.staysPaused hR hresume
  exchange h _ := .of_running h.running

end Mint

/-! ## The accounts -/

section Account

variable {l : ℕ} {rt : Runtime} {R : Reading l rt} {c : Call} {k M : Pubkey}

/-- The account holds what it held, in public and in secret. -/
def SameHolding (R : Reading l rt) (v v' : View PodAccount) : Prop :=
  v'.base.amount = v.base.amount ∧ v'.core.hidden R = v.core.hidden R

theorem SameHolding.of_core {v v' : View PodAccount}
    (hbase : v'.core.base.amount = v.core.base.amount)
    (hsecret : v'.core.secret = v.core.secret) : SameHolding R v v' :=
  ⟨hbase, by rw [Core.hidden, hsecret, Core.hidden]⟩

/-- Outside of trades, and unless withheld fees are paid out, holdings stay what they are. -/
theorem Effect.sameHolding {β : Book} {v v' : View PodAccount} (hR : R.Sound c.ctx c.σ)
    (hcollects : c.instruction.collects = false) (hnative : v.base.isNative = false)
    (h : Effect rt c β k v v') : SameHolding R v v' := by
  have hhidden : v'.core.hidden R = v.core.hidden R := by
    rcases h.hidden_eq hR with hsame | ⟨hyes, _⟩
    · exact hsame
    · rw [hcollects] at hyes
      cases hyes
  refine ⟨?_, hhidden⟩
  cases h with
  | native native =>
    rw [native] at hnative
    cases hnative
  | collect collects =>
    rw [hcollects] at collects
    cases collects
  | quiet core | allowance _ _ _ _ core | owner _ _ _ _ core | closer _ _ core | state _ _ _ core
  | lock _ _ core | harvest core | secretHarvest _ core | secretCollect _ _ _ _ _ core
  | configure _ _ _ _ _ _ core | setting _ core | emptied _ _ _ core | apply _ _ _ _ core =>
    exact congrArg (fun a : Core => a.base.amount) core

theorem tracks_sameHolding (hR : R.Sound c.ctx c.σ) (hcollects : c.instruction.collects = false) :
    Tracks rt c k fun v v' => v.base.isNative = false →
      v'.base.isNative = false ∧ SameHolding R v v' where
  refl _ h := ⟨h, rfl, rfl⟩
  trans := by
    intro u v w huv hvw hnative
    obtain ⟨hv, hamount, hhidden⟩ := huv hnative
    obtain ⟨hw, hamount', hhidden'⟩ := hvw hv
    exact ⟨hw, hamount'.trans hamount, hhidden'.trans hhidden⟩
  effect h _ hnative := ⟨h.isNative_eq.trans hnative, h.sameHolding hR hcollects hnative⟩

theorem SameHolding.lowered {v : View PodAccount} {v' : View PodAccount}
    (h : Lowered (.account v) (.account v')) : SameHolding R v v' := by
  cases h with
  | same => exact ⟨rfl, rfl⟩
  | account =>
    have hcore := v.core_flag false
    exact .of_core (congrArg (fun a : Core => a.base.amount) hcore :)
      (congrArg Core.secret hcore :)

/-- The holdings of a mint for which no trade is made. -/
theorem Course.sameHolding (hR : R.Sound c.ctx c.σ) (hcollects : c.instruction.collects = false)
    {β' : Book} (h : Course rt c c.σ.book β')
    (hmint : ∀ s d hook β₁, Trade rt c s d hook c.σ.book β₁ → ∀ k v, k = s ∨ k = d →
      c.σ.book.Account k v → v.base.mint ≠ M)
    {v v' : View PodAccount} (held : c.σ.book.Account k v) (hM : v.base.mint = M)
    (hnative : v.base.isNative = false) (held' : β'.Account k v') : SameHolding R v v' := by
  cases h with
  | moves other h =>
    rcases h.account (tracks_sameHolding hR hcollects) held with ⟨w, hw, hkeeps⟩ | ⟨hother, _⟩
    · obtain rfl := held'.unique hw
      exact (hkeeps hnative).2
    · rw [Book.Account, hother] at held'
      cases held'
  | @trade s d hook _ β₁ _ trades h rest =>
    have hdeal := h.deal k
    have hlowered := rest.lowered k
    rw [show (c.σ.book k).contents = _ from held] at hdeal
    rw [show (β' k).contents = _ from held'] at hlowered
    generalize hx : (β₁ k).contents = x at hdeal hlowered
    cases hdeal with
    | same => exact .lowered hlowered
    | account party => exact absurd hM (hmint _ _ _ _ h k v party held)

end Account

/-! ## From pause to resume -/

section Period

variable {rt : Runtime} {c : Call} {σ' : Ledger} {M : Pubkey}

/-- What `Pause` does to a mint. -/
theorem pause_book {m : View PodMint} (hwf : c.σ.Wf) (hpause : c.instruction = .pause)
    (head : c.key? 0 = some M) (held : c.σ.book.Mint M m) (h : c.run rt = .ok σ') :
    ∃ m', σ'.book.Mint M m' ∧ m'.paused = true := by
  rw [Call.run, hpause] at h
  cases haccounts : c.accounts with
  | nil =>
    rw [Call.key?, haccounts] at head
    cases head
  | cons info rest =>
    rw [Call.key?, haccounts] at head
    obtain rfl : info.key = M := Option.some.inj head
    obtain ⟨e, e', hget, hupdate, hbook⟩ := updateMintExtension_book
      (by decide) hwf haccounts held h
    obtain rfl := Except.ok.inj hupdate
    refine ⟨m.set { e with paused := .ofBool true }, ?_, ?_⟩
    · rw [hbook]
      exact Book.mint_put ..
    · have hcore := m.mintCore_set_pausable { e with paused := .ofBool true }
      exact (congrArg MintCore.paused hcore :)

/-- An instruction of a period in which the mint neither closes nor resumes. -/
def Call.KeepsPaused (M : Pubkey) (c : Call) : Prop := ¬ c.Closes M ∧ ¬ c.Resumes M

theorem Run.staysPaused {l : ℕ} {R : Reading l rt} {allow : Call → Prop} {σ : Ledger}
    (hallow : ∀ c, allow c → c.KeepsPaused M ∧ R.Sound c.ctx c.σ) (hwf : σ.Wf) {m : View PodMint}
    (held : σ.book.Mint M m) (h : Run rt allow σ σ') :
    ∃ m', σ'.book.Mint M m' ∧ StaysPaused R m m' :=
  Run.mint (fun c hc => respects_staysPaused (hallow c hc).2 (hallow c hc).1.2)
    (fun c _ hc _ => (hallow c hc).1.1) hwf held (.refl m) .trans h

/-- From a `Pause` on, for as long as the mint is neither closed nor resumed: no trade
concerns it, its supplies stay what they are, and its accounts hold what they held unless
withheld fees are paid out. -/
theorem paused_until_resumed {σ₀ : Ledger} {m₀ : View PodMint}
    (h : Reachable rt (fun c => ¬ c.Closes M) c.σ) (held : c.σ.book.Mint M m₀)
    (hpause : c.instruction = .pause) (head : c.key? 0 = some M) (hrun : c.run rt = .ok σ₀) :
    ∃ m, σ₀.book.Mint M m ∧
      (∀ σ, Run rt (Call.KeepsPaused M) σ₀ σ →
        ∃ m', σ.book.Mint M m' ∧ m'.base.supply = m.base.supply) ∧
      (∀ l (R : Reading l rt) σ, Run rt (fun c => c.KeepsPaused M ∧ R.Sound c.ctx c.σ) σ₀ σ →
        ∃ m', σ.book.Mint M m' ∧ m'.mintCore.outstanding R = m.mintCore.outstanding R) ∧
      ∀ (c : Call) (σ' : Ledger), Run rt (Call.KeepsPaused M) σ₀ c.σ → c.run rt = .ok σ' →
        (c.instruction.trades = true → ¬ c.Concerns M) ∧
        (c.instruction.collects = false → ∀ k v v', c.σ.book.Account k v → v.base.mint = M →
          σ'.book.Account k v' → v'.base.amount = v.base.amount ∧
            ∀ l (R : Reading l rt), R.Sound c.ctx c.σ →
              v'.core.hidden R = v.core.hidden R) := by
  have hcloses : ¬ c.Closes M := by
    rintro ⟨_, hi⟩
    rw [hpause] at hi
    cases hi
  have hreach : Reachable rt (fun c => ¬ c.Closes M) σ₀ := h.run (.single (.call hcloses hrun))
  obtain ⟨m, hm, hpaused⟩ := pause_book h.wf hpause head held hrun
  have htrivial : ∀ c, Call.KeepsPaused M c →
      c.KeepsPaused M ∧ (Reading.trivial rt).Sound c.ctx c.σ :=
    fun c hc => ⟨hc, Reading.trivial_sound rt c.ctx c.σ⟩
  refine ⟨m, hm, fun σ hperiod => ?_, fun l R σ hperiod => ?_, fun c σ' hperiod hstep => ?_⟩
  · obtain ⟨m', hm', hstays⟩ := Run.staysPaused htrivial hreach.wf hm hperiod
    exact ⟨m', hm', (hstays hpaused).2.1⟩
  · obtain ⟨m', hm', hstays⟩ := Run.staysPaused (R := R) (fun _ hc => hc) hreach.wf hm hperiod
    exact ⟨m', hm', (hstays hpaused).2.2⟩
  · obtain ⟨m', hm', hstays⟩ := Run.staysPaused htrivial hreach.wf hm hperiod
    have hpaused' := (hstays hpaused).1
    have hreach' := hreach.run (Run.mono hperiod fun _ hc => hc.1)
    have hlink := (link_attached fun _ hc => hc).reachable hreach'
    have hcourse := (run_course hreach'.wf hstep).2
    have hne : ∀ s d hook β₁, Trade rt c s d hook c.σ.book β₁ → ∀ k v, k = s ∨ k = d →
        c.σ.book.Account k v → v.base.mint ≠ M :=
      fun s d hook β₁ htrade k v hk hv => htrade.mint_ne hreach'.wf hlink hm' hpaused' hk hv
    refine ⟨fun htrades => ?_, fun hcollects k v v' hv hM hv' => ?_⟩
    · cases hcourse with
      | moves other =>
        rw [htrades] at other
        cases other
      | trade _ htrade => exact htrade.not_concerns hreach'.wf hlink hm' hpaused'
    · have hnative : v.base.isNative = false := by
        have hbook := hreach'.nativeBare
        -- a mint that can pause is not the native one
        by_contra hnative
        have hmint := (hbook.native k v hv).mp (by simpa using hnative)
        have hbare := hbook.bare m' (hmint ▸ hM ▸ hm')
        have hnone : m'.get PausableConfig = none := View.get_eq_none_of_ext (hbare.2 _)
        rw [View.paused, hnone] at hpaused'
        cases hpaused'
      have hsame : ∀ l (R : Reading l rt), R.Sound c.ctx c.σ → SameHolding R v v' :=
        fun l R hR => hcourse.sameHolding hR hcollects hne hv hM hnative hv'
      refine ⟨?_, fun l R hR => (hsame l R hR).2⟩
      exact (hsame 1 (.trivial rt) (Reading.trivial_sound rt c.ctx c.σ)).1

end Period

/-- A holder of a token that `5` may pause. -/
def pausableLedger : Ledger :=
  scripted (.modular 2)
    [(.plain, [⟨1, false⟩], .initializePausable 5),
     (.plain, [⟨1, false⟩], .initializeMint2 6 5 none),
     (.plain, [⟨2, false⟩, ⟨1, false⟩], .initializeAccount3 7),
     (.plain, [⟨1, false⟩, ⟨2, false⟩, ⟨5, true⟩], .mintTo 100)]
    (blank [(1, 203), (2, 170)])

def pauseCall : Call := ⟨.plain, [⟨1, false⟩, ⟨5, true⟩], .pause, pausableLedger⟩

def pausedLedger : Ledger := pauseCall.after (.modular 2)

def burnCall : Call := ⟨.plain, [⟨2, false⟩, ⟨1, false⟩, ⟨7, true⟩], .burn 10, pausedLedger⟩

/-- After the pause the holder cannot even burn. -/
theorem paused_until_resumed_scripted : ¬ ∃ σ', burnCall.run (.modular 2) = .ok σ' := by
  have hreach : Reachable (.modular 2) (fun c => ¬ c.Closes 1) pausableLedger := by
    refine .scripted (by decide) (fun p hp σ hc => ?_) (by decide +kernel)
    have hi := hc.2
    simp only [List.mem_cons, List.not_mem_nil, or_false] at hp
    rcases hp with rfl | rfl | rfl | rfl <;> cases hi
  obtain ⟨m₀, hm₀, _⟩ := exists_mint pausableLedger 1 (fun _ => true) (by decide +kernel)
    (by decide +kernel)
  obtain ⟨v, hv, hp⟩ := exists_account pausedLedger 2 (fun v => decide (v.base.mint = 1))
    (by decide +kernel) (by decide +kernel)
  have hstart : pauseCall.σ = pausableLedger := by rw [pauseCall]
  have hthen : burnCall.σ = pausedLedger := by rw [burnCall]
  have hpaused : pauseCall.run (.modular 2) = .ok pausedLedger :=
    pauseCall.run_after (by decide +kernel)
  obtain ⟨m, _, _, _, hperiod⟩ :=
    paused_until_resumed (c := pauseCall) (hstart ▸ hreach) (hstart ▸ hm₀) rfl rfl hpaused
  rintro ⟨σ', hrun⟩
  have hconcerns : burnCall.Concerns 1 :=
    .inr ⟨2, v, rfl, by rw [hthen]; exact hv, of_decide_eq_true hp⟩
  exact (hperiod burnCall σ' (by rw [hthen]) hrun).1 rfl hconcerns

end SolanaEasy.Token
