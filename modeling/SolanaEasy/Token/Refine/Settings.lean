import SolanaEasy.Token.Refine.Basic

/-!
# Refinement — settings of mints and accounts

The handlers of `Processor.MintExtension` and the authority handlers: an extension
written before a mint is initialised, which the book does not show yet, and the
changes of settings, which move nothing of value.
-/

namespace SolanaEasy.Token

open Processor

/-! ## Before initialisation -/

section Fresh

variable {S T : Type} [BaseState S] [BaseState T] {σ σ' : Ledger} {k : Pubkey}

/-- Data of an initialised state is not that of an uninitialised one, if states of
one size agree on what initialised means. -/
theorem unpackUninitialized_ne {data : Bytes} {t : PodState T} {s : PodState S}
    (hsame : Pod.size T = Pod.size S → ∀ b, BaseState.isInitialized (Pod.ofBytes b : T) = true →
      BaseState.isInitialized (Pod.ofBytes b : S) = true)
    (ht : unpack T data = .ok t) : unpackUninitialized S data ≠ .ok s := by
  intro hs
  obtain ⟨hdata, hp⟩ := unpack_eq_ok.mp ht
  obtain ⟨hdata', hlayout, _, hinit, _⟩ := unpackUninitialized_ok hs
  have hbytes : t.bytes = s.bytes := hdata.symm.trans hdata'
  have hlen := congrArg List.length hbytes
  have hle := BaseState.size_le (S := S)
  have hle' := BaseState.size_le (S := T)
  rw [t.length_bytes, s.length_bytes] at hlen
  rcases hp.layout with ⟨hat, _⟩ | hat
  · rcases hlayout with ⟨hat', _⟩ | hat'
    · simp only [hat, hat', List.isEmpty_nil, if_true] at hlen
      have hbase := congrArg Pod.ofBytes (α := Bytes) (β := S) hbytes
      rw [PodState.bytes_of_isEmpty hat, PodState.bytes_of_isEmpty hat', Pod.ofBytes_toBytes]
        at hbase
      have htrue := hsame hlen (Pod.toBytes t.base)
        (by rw [Pod.ofBytes_toBytes]; exact hp.initialized)
      rw [hbase, hinit] at htrue
      cases htrue
    · simp [hat, hat'] at hlen
      omega
  · rcases hlayout with ⟨hat', _⟩ | hat'
    · simp [hat, hat'] at hlen
      omega
    · have hbyte := PodState.getElem?_bytes hat
      rw [hbytes, PodState.getElem?_bytes hat', Option.some.injEq] at hbyte
      have htype := congrArg AccountType.ofU8 hbyte
      rw [AccountType.ofU8_toU8, AccountType.ofU8_toU8, Option.some.injEq] at htype
      exact BaseState.accountType_ne htype.symm

/-- What an initialiser accepts among well-formed data is fresh. -/
theorem freshData_of_unpackUninitialized [Held S] {data : Bytes} {s : PodState S}
    (hdata : WfData data) (h : unpackUninitialized S data = .ok s) : FreshData data := by
  rcases hdata with ⟨hmultisig, _⟩ | ⟨h', _⟩ | ⟨h', _, _⟩ | hfresh
  · exact absurd (length_of_multisig hmultisig) (unpackUninitialized_ok h).2.2.1
  · exact absurd h (unpackUninitialized_ne Held.same_account h')
  · exact absurd h (unpackUninitialized_ne Held.same_mint h')
  · exact hfresh

variable [Held S]

/-- A state under initialisation, changed and written back: the book does not show it. -/
theorem store_fresh {s s' : PodState S} {v : View S} (hwf : σ.Wf)
    (hload : unpackUninitialized S (σ k).data = .ok s) (h : store σ k s' = .ok σ')
    (hst : s.Wf → s.Stored s' v) (hbase : v.base = s.base) (hfresh : s.view.Fresh → v.Fresh) :
    σ'.Wf ∧ σ'.book = σ.book := by
  by_cases howner : (σ k).owner = Keys.tokenProgram
  · have hdata := freshData_of_unpackUninitialized (hwf.data k howner) hload
    obtain ⟨hswf, hsfresh, hzero⟩ := unpackUninitialized_fresh hdata hload
    obtain ⟨hbytes, hlayout, _, _, _⟩ := unpackUninitialized_ok hload
    have hstored := hst hswf
    have hnew := hstored.freshData hlayout hzero hbase (hfresh hsfresh)
    obtain ⟨_, rfl⟩ := store_eq_ok.mp h
    refine ⟨hwf.set (fun _ => .fresh hnew) ?_, ?_⟩
    · rintro rfl _
      obtain ⟨m, hm⟩ := hwf.native howner
      exact absurd hm (unpack_ne_of_fresh zeroMint_not_initialized hdata)
    · have hentry : (⟨(σ k).lamports, (σ k).owner, s'.bytes⟩ : Cell).entry = σ.book k := by
        have hlen : s'.bytes.length = (σ k).data.length := by rw [hstored.length_bytes, hbytes]
        show (⟨_, _, _⟩ : Entry) = ⟨_, _, _⟩
        rw [Cell.contents_of_fresh hdata, Cell.contents_of_fresh (c := ⟨_, _, s'.bytes⟩) hnew, hlen]
      rw [Ledger.book_set, hentry]
      exact Function.update_eq_self k σ.book
  · obtain rfl := store_foreign howner h
    exact ⟨hwf, rfl⟩

end Fresh

/-! ## Fresh values -/

section FreshValue

variable {V W : Type} [Pod V] [Extension V] [Pod W] [Extension W]

/-- A view of one extension. -/
def View.only (x : V) : View Unit := (⟨(), fun _ => none⟩ : View Unit).set x

theorem View.get_only_of_ne (x : V) (h : Extension.type W ≠ Extension.type V) :
    (View.only x).get W = none := get_set_of_ne _ x h

theorem View.get_only_same (x : V) : (View.only x).get V = some x := get_set_same _ x

theorem View.set_set {S : Type} (v : View S) (x y : V) : (v.set x).set y = v.set y := by
  simp [set, setExt]

/-- A fresh value put under its type. -/
theorem View.Fresh.set {S : Type} {v : View S} (h : v.Fresh) {x : V} (hx : (View.only x).Fresh) :
    (v.set x).Fresh := by
  have hget : ∀ (W : Type) [Pod W] [Extension W],
      (v.set x).get W = (View.only x).get W ∨ (v.set x).get W = v.get W := by
    intro W _ _
    by_cases ht : Extension.type W = Extension.type V
    · left
      simp [View.only, View.get, View.set, View.ext_setExt, ht]
    · exact .inr (get_set_of_ne v x ht)
  constructor
  · rcases hget TransferFeeConfig with he | he <;> rw [he]
    · exact hx.feeConfig
    · exact h.feeConfig
  · rcases hget ConfidentialTransferFeeConfig with he | he <;> rw [he]
    · exact hx.confidentialFeeConfig
    · exact h.confidentialFeeConfig
  · rcases hget ConfidentialMintBurn with he | he <;> rw [he]
    · exact hx.mintBurn
    · exact h.mintBurn
  · rcases hget DefaultAccountState with he | he <;> rw [he]
    · exact hx.defaultState
    · exact h.defaultState
  · rcases hget InterestBearingConfig with he | he <;> rw [he]
    · exact hx.interest
    · exact h.interest
  · rcases hget ScaledUiAmountConfig with he | he <;> rw [he]
    · exact hx.multiplier
    · exact h.multiplier
  · intro t ht
    have hnew := hx.absent t ht
    rw [only, View.set, ext_setExt] at hnew
    rw [View.set, ext_setExt]
    split at hnew
    · cases hnew
    · rename_i hne
      rw [if_neg hne]
      exact h.absent t ht

theorem View.absent_only (x : V)
    (hp : ((Extension.type V).isPurse || (Extension.type V).isRecord) = false) (t : ExtensionType)
    (ht : (t.isPurse || t.isRecord) = true) : (View.only x).ext t = none := by
  rw [only, View.set, ext_setExt, if_neg]
  rintro rfl
  rw [hp] at ht
  cases ht

/-- There is nothing under another type. -/
theorem View.not_get_only (x : V) (h : Extension.type W ≠ Extension.type V) {y : W} {p : Prop}
    (hy : (View.only x).get W = some y) : p := by
  rw [get_only_of_ne x h] at hy
  cases hy

/-- Values of which `Fresh` says nothing. -/
theorem View.fresh_only (x : V) (ht : (Extension.type V).isTreasury = false)
    (hp : ((Extension.type V).isPurse || (Extension.type V).isRecord) = false) :
    (View.only x).Fresh := by
  have hne : ∀ (W : Type) [Pod W] [Extension W], (Extension.type W).isTreasury = true →
      Extension.type W ≠ Extension.type V := by
    intro W _ _ hW he
    rw [he, ht] at hW
    cases hW
  constructor
  · exact fun _ hy => not_get_only x (hne TransferFeeConfig rfl) hy
  · exact fun _ hy => not_get_only x (hne ConfidentialTransferFeeConfig rfl) hy
  · exact fun _ hy => not_get_only x (hne ConfidentialMintBurn rfl) hy
  · exact fun _ hy => not_get_only x (hne DefaultAccountState rfl) hy
  · exact fun _ hy => not_get_only x (hne InterestBearingConfig rfl) hy
  · exact fun _ hy => not_get_only x (hne ScaledUiAmountConfig rfl) hy
  · exact absent_only x hp

theorem View.fresh_only_pausable (x : PausableConfig) :
    (View.only x).Fresh where
  feeConfig _ hy := not_get_only x (by decide) hy
  confidentialFeeConfig _ hy := not_get_only x (by decide) hy
  mintBurn _ hy := not_get_only x (by decide) hy
  defaultState _ hy := not_get_only x (by decide) hy
  interest _ hy := not_get_only x (by decide) hy
  multiplier _ hy := not_get_only x (by decide) hy
  absent := absent_only x rfl

theorem View.fresh_only_feeConfig {x : TransferFeeConfig} (h : x.withheldAmount = 0)
    (hfees : x.olderTransferFee = x.newerTransferFee)
    (hvalid : x.newerTransferFee.transferFeeBasisPoints.toNat ≤ TransferFee.maxFeeBasisPoints) :
    (View.only x).Fresh where
  feeConfig y hy := by
    rw [get_only_same, Option.some.injEq] at hy
    rw [← hy]
    exact ⟨h, hfees, hvalid⟩
  confidentialFeeConfig _ hy := not_get_only x (by decide) hy
  mintBurn _ hy := not_get_only x (by decide) hy
  defaultState _ hy := not_get_only x (by decide) hy
  interest _ hy := not_get_only x (by decide) hy
  multiplier _ hy := not_get_only x (by decide) hy
  absent := absent_only x rfl

theorem View.fresh_only_secretFeeConfig {x : ConfidentialTransferFeeConfig}
    (h : x.withheldAmount = .zeroed) :
    (View.only x).Fresh where
  feeConfig _ hy := not_get_only x (by decide) hy
  confidentialFeeConfig y hy := by
    rw [get_only_same, Option.some.injEq] at hy
    rw [← hy]
    exact h
  mintBurn _ hy := not_get_only x (by decide) hy
  defaultState _ hy := not_get_only x (by decide) hy
  interest _ hy := not_get_only x (by decide) hy
  multiplier _ hy := not_get_only x (by decide) hy
  absent := absent_only x rfl

theorem View.fresh_only_mintBurn {x : Token.ConfidentialMintBurn}
    (h : x.confidentialSupply = .zeroed) (h' : x.pendingBurn = .zeroed) :
    (View.only x).Fresh where
  feeConfig _ hy := not_get_only x (by decide) hy
  confidentialFeeConfig _ hy := not_get_only x (by decide) hy
  mintBurn y hy := by
    rw [get_only_same, Option.some.injEq] at hy
    rw [← hy]
    exact ⟨h, h'⟩
  defaultState _ hy := not_get_only x (by decide) hy
  interest _ hy := not_get_only x (by decide) hy
  multiplier _ hy := not_get_only x (by decide) hy
  absent := absent_only x rfl

theorem View.fresh_only_defaultState {x : DefaultAccountState} (h : x.state = 1 ∨ x.state = 2) :
    (View.only x).Fresh where
  feeConfig _ hy := not_get_only x (by decide) hy
  confidentialFeeConfig _ hy := not_get_only x (by decide) hy
  mintBurn _ hy := not_get_only x (by decide) hy
  defaultState y hy := by
    rw [get_only_same, Option.some.injEq] at hy
    rw [← hy]
    exact h
  interest _ hy := not_get_only x (by decide) hy
  multiplier _ hy := not_get_only x (by decide) hy
  absent := absent_only x rfl

theorem View.fresh_only_interest {x : InterestBearingConfig}
    (h : x.lastUpdateTimestamp = x.initializationTimestamp)
    (h' : x.preUpdateAverageRate = x.currentRate) :
    (View.only x).Fresh where
  feeConfig _ hy := not_get_only x (by decide) hy
  confidentialFeeConfig _ hy := not_get_only x (by decide) hy
  mintBurn _ hy := not_get_only x (by decide) hy
  defaultState _ hy := not_get_only x (by decide) hy
  interest y hy := by
    rw [get_only_same, Option.some.injEq] at hy
    rw [← hy]
    exact ⟨h, h'⟩
  multiplier _ hy := not_get_only x (by decide) hy
  absent := absent_only x rfl

theorem View.fresh_only_multiplier {x : ScaledUiAmountConfig} (h : x.newMultiplier = x.multiplier)
    (h' : x.newMultiplierEffectiveTimestamp = 0) (hvalid : isPositiveNormal x.multiplier = true) :
    (View.only x).Fresh where
  feeConfig _ hy := not_get_only x (by decide) hy
  confidentialFeeConfig _ hy := not_get_only x (by decide) hy
  mintBurn _ hy := not_get_only x (by decide) hy
  defaultState _ hy := not_get_only x (by decide) hy
  interest _ hy := not_get_only x (by decide) hy
  multiplier y hy := by
    rw [get_only_same, Option.some.injEq] at hy
    rw [← hy]
    exact ⟨h, h', hvalid⟩
  absent := absent_only x rfl

end FreshValue

/-! ## The shapes -/

section Shapes

variable {rt : Runtime} {c : Call} {σ σ' : Ledger} {accounts : List AccountInfo}
variable {V : Type} [Pod V] [Extension V]

theorem initMintExtension_refines [Inhabited V] [SizedExtension V] {before : Result Unit}
    {value : Result V} (hwf : σ.Wf) (hfresh : ∀ x, value = .ok x → (View.only x).Fresh)
    (h : initMintExtension accounts before value σ = .ok σ') : Refines rt c σ σ' := by
  obtain _ | ⟨mintInfo, rest⟩ := accounts
  · cases h
  simp only [initMintExtension, bind_eq_ok, exists_unit] at h
  obtain ⟨s, hload, _, s₁, hinit, x, hx, s₂, hset, h⟩ := h
  refine .of_book (store_fresh (v := s.view.set x) hwf hload h (fun hswf => ?_) rfl
    fun hs => hs.set (hfresh x hx))
  obtain ⟨hst, _⟩ := PodState.initExtension_ok hswf hinit
  obtain ⟨hst', _⟩ := PodState.setExtension_ok hst.wf hset
  rw [hst.view, View.set_set] at hst'
  exact hst.trans hst'

/-- A change of the extension `V` by the authority `b`. -/
theorem updateMintExtension_refines {authority : V → Option Pubkey} {missing : TokenError}
    {update : V → Result V} (hne : ExtensionType.defaultAccountState ≠ Extension.type V)
    (hwf : σ.Wf)
    (hmove : ∀ M rest (s : PodState PodMint) e e', accounts = M :: rest →
      load σ PodMint M.key = .ok s →
      s.view.get V = some e → (∃ k, authority e = some k) → update e = .ok e' →
      σ.book.Mint M.key s.view →
      Move rt c σ.book (σ.book.put M.key (.mint (s.view.set e'))))
    (h : updateMintExtension accounts authority missing update σ = .ok σ') :
    Refines rt c σ σ' := by
  obtain _ | ⟨mintInfo, _ | ⟨authorityInfo, signers⟩⟩ := accounts
  · cases h
  · cases h
  simp only [updateMintExtension, bind_eq_ok, exists_unit, okOr_eq_ok] at h
  obtain ⟨s, hload, e, hget, k, hk, _, e', hupdate, s', hset, h⟩ := h
  exact refines_set_mint hne hwf hload hset h fun held =>
    hmove _ _ s e e' rfl hload (PodState.getExtension_eq_ok.mp hget) ⟨k, hk⟩ hupdate held

/-- What such a change leaves, exactly. -/
theorem updateMintExtension_book {authority : V → Option Pubkey} {missing : TokenError}
    {update : V → Result V} {M : AccountInfo} {rest : List AccountInfo} {m : View PodMint}
    (hne : ExtensionType.defaultAccountState ≠ Extension.type V) (hwf : σ.Wf)
    (haccounts : accounts = M :: rest) (held : σ.book.Mint M.key m)
    (h : updateMintExtension accounts authority missing update σ = .ok σ') :
    ∃ e e', m.get V = some e ∧ update e = .ok e' ∧
      σ'.book = σ.book.put M.key (.mint (m.set e')) := by
  subst haccounts
  obtain _ | ⟨authorityInfo, signers⟩ := rest
  · cases h
  simp only [updateMintExtension, bind_eq_ok, exists_unit, okOr_eq_ok] at h
  obtain ⟨s, hload, e, hget, _, _, _, e', hupdate, s', hset, h⟩ := h
  have howner : (σ M.key).owner = Keys.tokenProgram := by
    apply Cell.owner_of_contents
    rw [show (σ M.key).contents = _ from held]
    exact Contents.noConfusion
  obtain rfl : s.view = m := Book.Mint.unique (contents_of_load howner hload) held
  obtain ⟨hswf, hvalid⟩ := hwf.load howner hload
  have hw := store_held hwf howner hload (PodState.setExtension_ok hswf hset).1
    (packed_of_load hload).initialized (validDefault_set_of_ne hne hvalid) h
  exact ⟨e, e', PodState.getExtension_eq_ok.mp hget, hupdate, hw.book⟩

/-- Nothing but the first account is written. -/
theorem updateMintExtension_frame {authority : V → Option Pubkey} {missing : TokenError}
    {update : V → Result V} {k : Pubkey} (hk : accounts.head?.map (·.key) ≠ some k)
    (h : updateMintExtension accounts authority missing update σ = .ok σ') : σ' k = σ k := by
  unfold updateMintExtension at h
  split at h
  · simp only [bind_eq_ok] at h
    obtain ⟨_, _, _, _, _, _, _, _, _, _, _, _, h⟩ := h
    obtain ⟨_, rfl⟩ := store_eq_ok.mp h
    exact Ledger.set_of_ne _ _ fun he => hk (congrArg some he.symm)
  · cases h

/-- A setting, changed by the one authority whose business it is. -/
theorem updateMintExtension_plain {authority : V → Option Pubkey} {missing : TokenError}
    {update : V → Result V} (b : AuthorityType) (ht : (Extension.type V).isTreasury = false)
    (hb : ∀ (m : View PodMint) e, m.get V = some e → m.authority b = authority e)
    (honly : ∀ a : AuthorityType, a.home = some (Extension.type V) ∨
      a.domain = some (Extension.type V) → a = b) (hwf : σ.Wf)
    (h : updateMintExtension accounts authority missing update σ = .ok σ') :
    Refines rt c σ σ' := by
  refine updateMintExtension_refines (by rintro he; rw [← he] at ht; cases ht) hwf ?_ h
  rintro M rest s e e' - - hget ⟨k, hk⟩ - held
  have hquiet := QuietMint.set (x := e') hget ht
    (View.settled_set_of_some ((hb _ e hget).trans hk) honly)
  exact .mint _ held hquiet.core hquiet.keeps

/-- A switch that an owner turns on an account. -/
theorem toggleAccountExtension_refines [SizedExtension V] {guard : Result Unit} {value : V}
    (hwf : σ.Wf) (hmove : ∀ k (s : PodState PodAccount), guard = .ok () →
      σ.book.Account k s.view →
      Move rt c σ.book (σ.book.put k (.account (s.view.set value))))
    (h : toggleAccountExtension accounts guard value σ = .ok σ') : Refines rt c σ σ' := by
  obtain _ | ⟨accountInfo, _ | ⟨ownerInfo, signers⟩⟩ := accounts
  · cases h
  · cases h
  simp only [toggleAccountExtension, bind_eq_ok, exists_unit] at h
  obtain ⟨s, hload, _, hguard, h⟩ := h
  have hwrite : ∃ s', store σ accountInfo.key s' = .ok σ' ∧
      (s.Wf → s.Stored s' (s.view.set value)) := by
    split at h
    · simp only [bind_eq_ok] at h
      obtain ⟨s', hset, h⟩ := h
      exact ⟨s', h, fun hswf => (PodState.setExtension_ok hswf hset).1⟩
    · simp only [bind_eq_ok] at h
      obtain ⟨s', hset, h⟩ := h
      exact ⟨s', h, fun hswf => (PodState.initExtension_ok hswf hset).1⟩
  obtain ⟨s', hstore, hstored⟩ := hwrite
  exact refines_store_account hwf hload hstore fun hswf held =>
    ⟨_, hstored hswf, (packed_of_load hload).initialized, hmove _ s hguard held⟩

end Shapes

end SolanaEasy.Token
