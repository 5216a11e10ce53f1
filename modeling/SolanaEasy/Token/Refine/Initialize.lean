import SolanaEasy.Token.Refine.Lamports

/-!
# Refinement — initialising and growing

A state under initialisation becomes visible when its base is written: the mint or
the account then has the extensions that were put in place before. Reallocation
makes room and may move the native reserve.
-/

namespace SolanaEasy.Token

open Processor

/-! ## From fresh to initialised -/

section Initialized

variable {S : Type} [BaseState S] [Held S] {σ σ' : Ledger} {k : Pubkey} {s s₁ s' : PodState S}
  {v : View S}

/-- An initialised state written over a fresh one. -/
theorem store_initialized (hwf : σ.Wf) (howner : (σ k).owner = Keys.tokenProgram)
    (hload : unpackUninitialized S (σ k).data = .ok s) (htype : s₁.initAccountType = .ok s')
    (hst : s.Stored s₁ v) (hinit : BaseState.isInitialized v.base = true)
    (hvalid : Held.Valid v) (h : store σ k s' = .ok σ') :
    σ'.Wf ∧ σ'.book = σ.book.put k (Held.contents v) ∧ (σ.book k).contents = .other ∧
      k ≠ Keys.nativeMint := by
  have hfresh := freshData_of_unpackUninitialized (hwf.data k howner) hload
  obtain ⟨hbytes, hlayout, hlen, _, _⟩ := unpackUninitialized_ok hload
  have hlayout₁ : s₁.Layout .uninitialized := by
    rcases hlayout with ⟨hat, htlv⟩ | hat
    · refine .inl ⟨hst.accountType.trans hat, List.length_eq_zero_iff.mp ?_⟩
      rw [hst.length, htlv]
      rfl
    · exact .inr (hst.accountType.trans hat)
  obtain ⟨hbase, htlv, hat, hlayout'⟩ := initAccountType_ok htype hlayout₁
  have hlength : s'.bytes.length = (σ k).data.length := by
    have hempty : s'.accountType.isEmpty = s₁.accountType.isEmpty := by
      rw [Bool.eq_iff_iff, List.isEmpty_iff_length_eq_zero, List.isEmpty_iff_length_eq_zero, hat]
    rw [hbytes, ← hst.length_bytes, s'.length_bytes, s₁.length_bytes, hempty, htlv, hat]
  obtain ⟨hswf, hview⟩ := PodState.wf_append_zeros (n := 0) hst.wf (by simp [htlv]) hbase
  rw [hst.view] at hview
  have hunpack : unpack S s'.bytes = .ok s' := by
    refine unpack_eq_ok.mpr ⟨rfl, hlayout', ?_, ?_⟩
    · rw [hbase, hst.base_eq, hinit]
    · rwa [hlength]
  have hne : k ≠ Keys.nativeMint := by
    rintro rfl
    obtain ⟨m, hm⟩ := hwf.native howner
    exact unpack_ne_of_fresh zeroMint_not_initialized hfresh hm
  obtain ⟨_, rfl⟩ := store_eq_ok.mp h
  refine ⟨hwf.set (fun _ => ?_) (fun he => absurd he hne), ?_, Cell.contents_of_fresh hfresh, hne⟩
  · exact Held.wfData hunpack hswf (hview ▸ hvalid)
  · have hcontents : (⟨(σ k).lamports, (σ k).owner, s'.bytes⟩ : Cell).contents =
        Held.contents v := by rw [← hview]; exact Held.contents_eq howner hunpack
    rw [Ledger.book_set, Book.put_eq_set, Cell.entry, hcontents, hlength]
    rfl

end Initialized

section Handlers

variable {rt : Runtime} {c : Call} {σ σ' : Ledger} {accounts : List AccountInfo}

/-! ## Mints -/

theorem initializeMint_refines {decimals : UInt8} {mintAuthority : Pubkey}
    {freezeAuthority : PodCOption Pubkey} {rentSysvarAccount : Bool} (hwf : σ.Wf)
    (hopens : ∀ info rest m s, accounts = info :: rest →
      unpackUninitialized PodMint (σ info.key).data = .ok s → m.ext = s.view.ext →
      c.Initializes info.key m)
    (h : initializeMint rt accounts decimals mintAuthority freezeAuthority rentSysvarAccount σ =
      .ok σ') : Refines rt c σ σ' := by
  obtain _ | ⟨mintInfo, rest⟩ := accounts
  · cases h
  simp only [initializeMint, bind_eq_ok, exists_unit] at h
  obtain ⟨_, _, _, s, hload, _, _, _, _, _, _, _, s', htype, h⟩ := h
  by_cases howner : (σ mintInfo.key).owner = Keys.tokenProgram
  · obtain ⟨hswf, hfresh, hzero⟩ := unpackUninitialized_fresh
      (freshData_of_unpackUninitialized (hwf.data _ howner) hload) hload
    have hsupply : s.base.supply = 0 := by
      rw [← Pod.ofBytes_toBytes s.base, hzero]
      decide +kernel
    obtain ⟨hwf', hbook, hother, hne⟩ := store_initialized hwf howner hload htype
      ((PodState.Stored.refl hswf).withBase _) rfl hfresh.defaultState h
    refine ⟨hwf', hbook ▸ .single (.openMint (hopens _ _ _ _ rfl hload rfl) hother hne hsupply
      ?_ ?_ ?_ hfresh.mintBurn 
      (View.records_of_fresh (View.fresh_of_ext (w := s.view) rfl hfresh)))⟩
    · show s.view.mintWithheld = 0
      rw [View.mintWithheld]
      cases hget : s.view.get TransferFeeConfig with
      | none => rfl
      | some x =>
        rw [Option.map_some, Option.getD_some, (hfresh.feeConfig x hget).1]
        rfl
    · intro o n hfees
      obtain ⟨x, hget, hx⟩ := Option.map_eq_some_iff.mp hfees
      obtain ⟨rfl, rfl⟩ := Prod.mk.inj hx
      exact (hfresh.feeConfig x hget).2
    · intro key x hfees
      obtain ⟨e, hget, he⟩ := Option.map_eq_some_iff.mp hfees
      obtain ⟨rfl, rfl⟩ := Prod.mk.inj he
      exact hfresh.confidentialFeeConfig e hget
  · obtain rfl := store_foreign howner h
    exact .refl hwf

/-! ## Accounts -/

/-- The types that `InitializeAccount` can require. -/
def ExtensionType.isRequired : ExtensionType → Bool
  | transferFeeAmount | immutableOwner | nonTransferableAccount | transferHookAccount
  | pausableAccount => true
  | _ => false

theorem isRequired_of_mem {t u : ExtensionType} (h : u ∈ t.requiredInitAccountExtensions) :
    u.isRequired = true := by
  cases t <;> simp [ExtensionType.requiredInitAccountExtensions] at h
  case nonTransferable => rcases h with rfl | rfl <;> rfl
  all_goals subst h; rfl

/-- A new account: nothing withheld, nothing hidden, no guard. -/
def Core.blank (base : PodAccount) : Core := ⟨base, 0, none, none, false, false⟩

/-- One required extension, in its blank form. -/
theorem initAccountExtensionFromType_ok {s s' : PodState PodAccount} {t : ExtensionType}
    (hswf : s.Wf) (hcore : s.view.core = .blank s.base) (ht : t.isRequired = true)
    (h : s.initAccountExtensionFromType t = .ok s') :
    ∃ v, s.Stored s' v ∧ v.core = .blank s.base ∧ s.view.Grows v ∧ (v.ext t).isSome = true := by
  have hset : ∀ {V : Type} [Pod V] [Extension V] [SizedExtension V] {x : V},
      s.initExtension x true = .ok s' → (s.view.set x).core = .blank s.base →
      Extension.type V = t →
      ∃ v, s.Stored s' v ∧ v.core = .blank s.base ∧ s.view.Grows v ∧ (v.ext t).isSome = true := by
    rintro V _ _ _ x hinit hx rfl
    exact ⟨_, (PodState.initExtension_ok hswf hinit).1, hx, s.view.grows_set x,
      (View.ext_set_isSome _ _ _).mpr (.inl rfl)⟩
  have hkeep : ∀ {V : Type} [Pod V] [Extension V] [SizedExtension V] {x : V},
      (Extension.type V).isPurse = false → (s.view.set x).core = .blank s.base :=
    fun hplain => (s.view.core_set_of_ne _ hplain).trans hcore
  have haccount : (t.getAccountType != .account) = false := by cases t <;> first | rfl | cases ht
  unfold PodState.initAccountExtensionFromType at h
  rw [haccount, if_neg Bool.false_ne_true] at h
  cases t with
  | transferFeeAmount =>
    refine hset (x := (default : TransferFeeAmount)) h ?_ rfl
    rw [s.view.core_set_feeAmount, hcore]
    rfl
  | immutableOwner => exact hset (x := (default : ImmutableOwner)) h (hkeep rfl) rfl
  | nonTransferableAccount => exact hset (x := (default : NonTransferableAccount)) h (hkeep rfl) rfl
  | transferHookAccount =>
    refine hset (x := (default : TransferHookAccount)) h ?_ rfl
    have hflag : (default : TransferHookAccount) = ⟨.ofBool false⟩ := rfl
    rw [hflag, ← View.flag, s.view.core_flag, hcore]
    rfl
  | pausableAccount => exact hset (x := (default : PausableAccount)) h (hkeep rfl) rfl
  | _ => cases ht

/-- All required extensions. -/
theorem initRequiredExtensions_ok {ts : List ExtensionType} :
    ∀ {s s' : PodState PodAccount}, s.Wf → s.view.core = .blank s.base →
      (∀ t ∈ ts, t.isRequired = true) → initRequiredExtensions s ts = .ok s' →
      ∃ v, s.Stored s' v ∧ v.core = .blank s.base ∧ s.view.Grows v ∧
        ∀ t ∈ ts, (v.ext t).isSome = true := by
  induction ts with
  | nil =>
    intro s s' hswf hcore _ h
    obtain rfl := Except.ok.inj h
    exact ⟨_, .refl hswf, hcore, .refl _, fun _ ht => absurd ht List.not_mem_nil⟩
  | cons t ts ih =>
    intro s s' hswf hcore hts h
    simp only [initRequiredExtensions, bind_eq_ok] at h
    obtain ⟨s₁, h₁, h⟩ := h
    obtain ⟨v, hst, hv, hgrows, ht⟩ :=
      initAccountExtensionFromType_ok hswf hcore (hts t (by simp)) h₁
    have hbase : s₁.base = s.base := by rw [hst.base_eq, ← View.base_core, hv]; rfl
    obtain ⟨w, hst', hw, hgrows', hall⟩ := ih hst.wf (by rw [hst.view, hv, hbase])
      (fun u hu => hts u (by simp [hu])) h
    rw [hst.view] at hgrows'
    refine ⟨w, hst.trans hst', hbase ▸ hw, hgrows.trans hgrows', fun u hu => ?_⟩
    rcases List.mem_cons.mp hu with rfl | hu
    · exact hgrows' _ ht
    · exact hall u hu

/-- A new account starts in a state in which it counts as initialised. -/
theorem startingState_ok {m : PodState PodMint} {b : AccountState} (hvalid : m.view.ValidDefault)
    (h : startingState m = .ok b) : b = .initialized ∨ b = .frozen := by
  rw [startingState, PodState.toOption_getExtension] at h
  cases hget : m.view.get DefaultAccountState with
  | none =>
    rw [hget] at h
    exact .inl (Except.ok.inj h).symm
  | some x =>
    rw [hget] at h
    rcases hvalid x hget with hx | hx
    · rw [okOr_eq_ok, hx] at h
      exact .inl (Option.some.inj h).symm
    · rw [okOr_eq_ok, hx] at h
      exact .inr (Option.some.inj h).symm

/-- Only an account of the native mint is marked native, and it wraps what it holds above
the reserve. -/
theorem startingBalance_ok {M : Pubkey} {lamports amount : UInt64} {n : ℕ}
    {isNative : PodCOption UInt64}
    (h : startingBalance rt M lamports n = .ok (isNative, amount)) :
    (isNative.isSome = true ↔ M = Keys.nativeMint) ∧ (isNative.isSome = false → amount = 0) ∧
      ∀ r, isNative.toOption = some r →
        r = rt.minimumBalance n ∧ amount.toNat + r.toNat = lamports.toNat := by
  rw [startingBalance] at h
  split at h
  · rename_i hM
    simp only [bind_eq_ok, okOr_eq_ok, pure_eq_ok, Prod.mk.injEq, checkedSub_eq_some] at h
    obtain ⟨_, hsub, rfl, rfl⟩ := h
    refine ⟨⟨fun _ => beq_iff_eq.mp hM, fun _ => rfl⟩, fun h => (by cases h), fun r hr => ?_⟩
    obtain rfl := Option.some.inj hr
    exact ⟨rfl, hsub⟩
  · rename_i hM
    obtain ⟨rfl, rfl⟩ := Prod.mk.inj (Except.ok.inj h)
    exact ⟨⟨fun h => (by cases h), fun he => absurd (beq_iff_eq.mpr he) hM⟩, fun _ => rfl,
      fun _ hr => (by cases hr)⟩

theorem initializeAccount_refines {newAccountInfo mintInfo : AccountInfo} {owner : Pubkey}
    (hwf : σ.Wf) (hopens : c.isInitializeAccount = true)
    (h : initializeAccount rt newAccountInfo mintInfo owner σ = .ok σ') : Refines rt c σ σ' := by
  simp only [initializeAccount, getRequiredAccountExtensionsFromUnpackedMint, checkProgramAccount,
    loadBeside, bind_eq_ok, exists_unit, mapErr_eq_ok, failIf_eq_ok, bne_eq_false_iff_eq,
    pure_eq_ok, Prod.exists] at h
  obtain ⟨s, hload, _, m, ⟨_, hmint⟩, ts, ⟨hmintOwner, mintTypes, htypes, rfl⟩, _, _, _, s₁, hreq,
    b, hb, isNative, amount, hbalance, s', htype, h⟩ := h
  by_cases howner : (σ newAccountInfo.key).owner = Keys.tokenProgram
  · obtain ⟨hswf, hfresh, hzero⟩ := unpackUninitialized_fresh
      (freshData_of_unpackUninitialized (hwf.data _ howner) hload) hload
    obtain ⟨hmwf, hvalid⟩ := hwf.load hmintOwner hmint
    have hblank : s.view.core = .blank s.base := by
      have hnone : ∀ (V : Type) [Pod V] [Extension V], (Extension.type V).isPurse = true →
          s.view.get V = none :=
              fun V _ _ hV => View.get_eq_none_of_ext (hfresh.absent _ (by rw [hV, Bool.true_or]))
      simp only [View.core, View.withheld, View.locked, View.transferring,
        hnone TransferFeeAmount rfl, hnone ConfidentialTransferAccount rfl,
        hnone ConfidentialTransferFeeAmount rfl, hnone CpiGuard rfl, hnone TransferHookAccount rfl]
      rfl
    obtain ⟨v, hst, hcore, _, hall⟩ := initRequiredExtensions_ok hswf hblank
      (fun t ht => (List.mem_flatMap.mp ht).elim fun _ hu => isRequired_of_mem hu.2) hreq
    obtain ⟨hnative, hempty, hbacked⟩ := startingBalance_ok hbalance
    have hstate := startingState_ok hvalid hb
    obtain ⟨hwf', hbook, hother, hne⟩ := store_initialized hwf howner hload htype
      (hst.withBase _) (by rcases hstate with rfl | rfl <;> rfl) trivial h
    refine ⟨hwf', hbook ▸ .single (.openAccount hopens hother (contents_of_load hmintOwner hmint)
      ?_ hnative hempty hbacked ?_)⟩
    · intro t u ht hu
      exact hall u (List.mem_flatMap.mpr
          ⟨t, (PodState.getExtensionTypes_ok hmwf htypes t).mpr ht, hu⟩)
    · rw [View.core_withBase, hcore]
      rfl
  · obtain rfl := store_foreign howner h
    exact .refl hwf

theorem processInitializeAccount_refines (hwf : σ.Wf) (hopens : c.isInitializeAccount = true)
    (h : processInitializeAccount rt accounts σ = .ok σ') : Refines rt c σ σ' := by
  obtain _ | ⟨newAccountInfo, _ | ⟨mintInfo, _ | ⟨owner, rest⟩⟩⟩ := accounts
  · cases h
  · cases h
  · cases h
  simp only [processInitializeAccount, bind_eq_ok] at h
  obtain ⟨_, _, h⟩ := h
  exact initializeAccount_refines hwf hopens h

theorem processInitializeAccount2_refines {owner : Pubkey} (hwf : σ.Wf)
    (hopens : c.isInitializeAccount = true)
    (h : processInitializeAccount2 rt accounts owner σ = .ok σ') : Refines rt c σ σ' := by
  obtain _ | ⟨newAccountInfo, _ | ⟨mintInfo, rest⟩⟩ := accounts
  · cases h
  · cases h
  simp only [processInitializeAccount2, bind_eq_ok] at h
  obtain ⟨_, _, h⟩ := h
  exact initializeAccount_refines hwf hopens h

theorem processInitializeAccount3_refines {owner : Pubkey} (hwf : σ.Wf)
    (hopens : c.isInitializeAccount = true)
    (h : processInitializeAccount3 rt accounts owner σ = .ok σ') : Refines rt c σ σ' := by
  obtain _ | ⟨newAccountInfo, _ | ⟨mintInfo, rest⟩⟩ := accounts
  · cases h
  · cases h
  exact initializeAccount_refines hwf hopens h

theorem processInitializeImmutableOwner_refines (hwf : σ.Wf)
    (h : processInitializeImmutableOwner accounts σ = .ok σ') : Refines rt c σ σ' := by
  obtain _ | ⟨tokenAccountInfo, rest⟩ := accounts
  · cases h
  simp only [processInitializeImmutableOwner, bind_eq_ok] at h
  obtain ⟨s, hload, s', hinit, h⟩ := h
  exact .of_book (store_fresh hwf hload h (fun hswf => (PodState.initExtension_ok hswf hinit).1) rfl
    fun hs => hs.set (View.fresh_only _ rfl rfl))

/-! ## Multisigs -/

theorem initializeMultisig_refines {m : UInt8} {rentSysvarAccount : Bool} (hwf : σ.Wf)
    (h : initializeMultisig rt accounts m rentSysvarAccount σ = .ok σ') : Refines rt c σ σ' := by
  obtain _ | ⟨multisigInfo, rest⟩ := accounts
  · cases h
  simp only [initializeMultisig, bind_eq_ok, exists_unit, okOr_eq_ok, Pod.decode?_eq_some,
    failIf_eq_ok, Bool.not_eq_false'] at h
  obtain ⟨_, _, multisig, hdata, _, _, hvalid, _, _, h⟩ := h
  obtain ⟨_, rfl⟩ := writeData_eq_ok.mp h
  have hlen := length_of_multisig hdata
  have hn := hvalid
  rw [isValidSignerIndex, Bool.and_eq_true, decide_eq_true_eq, decide_eq_true_eq] at hn
  refine .of_book ⟨hwf.set (fun _ => .multisig rfl hn.2) ?_, ?_⟩
  · intro hk howner
    obtain ⟨s, hs⟩ := hwf.native (hk ▸ howner)
    exact absurd (hk ▸ hlen) (unpack_length_ne hs)
  · have hentry : ∀ b : PodMultisig, (⟨(σ multisigInfo.key).lamports, (σ multisigInfo.key).owner,
        Pod.toBytes b⟩ : Cell).entry = σ.book multisigInfo.key := by
      intro b
      show (⟨_, _, _⟩ : Entry) = ⟨_, _, _⟩
      rw [Cell.contents_of_multisig hlen, Cell.contents_of_multisig (Pod.length_toBytes _), hlen,
        Pod.length_toBytes]
      rfl
    rw [Ledger.book_set, hentry]
    exact Function.update_eq_self _ σ.book

/-! ## Reallocation -/

/-- The strict reading of an option, written back. -/
theorem packCOption_unpackCOption {α : Type} {o : PodCOption α} {a : Option α}
    (h : unpackCOption o = .ok a) : packCOption a o = o ∧ a = o.toOption := by
  obtain ⟨tag, value⟩ := o
  simp only [unpackCOption, beq_iff_eq] at h
  split at h
  · rename_i htag
    obtain rfl := Except.ok.inj h
    subst htag
    exact ⟨rfl, rfl⟩
  · split at h
    · rename_i htag
      obtain rfl := Except.ok.inj h
      subst htag
      exact ⟨rfl, rfl⟩
    · cases h

/-- What the strict reading of a base keeps. -/
theorem unpackFromSlice_ok {src : PodAccount} {a : Account}
    (h : Account.unpackFromSlice src = .ok a) :
    src.isNativeOption.toOption = a.isNative ∧ src.amount = a.amount ∧ src.state = a.state.toU8 ∧
      ∀ r, ({ a with isNative := r } : Account).packIntoSlice src =
        { src with isNativeOption := packCOption r src.isNativeOption } := by
  simp only [Account.unpackFromSlice, bind_eq_ok, okOr_eq_ok, pure_eq_ok] at h
  obtain ⟨delegate, hdelegate, state, hstate, native, hnative, closer, hcloser, rfl⟩ := h
  have hbyte : src.state = state.toU8 := by
    simp only [AccountState.ofU8, beq_iff_eq] at hstate
    split_ifs at hstate with h0 h1 h2
    · rw [← Option.some.inj hstate, h0]
      rfl
    · rw [← Option.some.inj hstate, h1]
      rfl
    · rw [← Option.some.inj hstate, h2]
      rfl
  refine ⟨(packCOption_unpackCOption hnative).2.symm, rfl, hbyte, fun r => ?_⟩
  simp only [Account.packIntoSlice, (packCOption_unpackCOption hdelegate).1,
    (packCOption_unpackCOption hcloser).1, ← hbyte]

theorem unpackAccount_ok {data : Bytes} {a : Account} {s : PodState PodAccount}
    (h : unpackAccount data = .ok (a, s)) :
    unpack PodAccount data = .ok s ∧ Account.unpackFromSlice s.base = .ok a := by
  simp only [unpackAccount, bind_eq_ok, exists_unit, failIf_eq_ok, Prod.exists, pure_eq_ok,
    Prod.mk.injEq] at h
  obtain ⟨hlen, base, hbase, hstate, at', tlv, hrest, rfl, rfl⟩ := h
  refine ⟨?_, hbase⟩
  have hinit : (Pod.ofBytes (data.take accountLen) : PodAccount).isInitialized = true := by
    rw [PodAccount.isInitialized, (unpackFromSlice_ok hbase).2.2.1]
    cases hb : base.state with
    | uninitialized => simp [hb] at hstate
    | initialized => rfl
    | frozen => rfl
  have hnot : (!BaseState.isInitialized (Pod.ofBytes (data.take (Pod.size PodAccount)) :
      PodAccount)) = false := by rw [Bool.not_eq_false']; exact hinit
  simp only [unpack, bind_eq_ok, exists_unit, failIf_eq_ok, Prod.exists, pure_eq_ok]
  exact ⟨hlen, hnot, at', tlv, hrest, rfl⟩

/-- A payment to an account whose data was changed before. -/
theorem systemTransfer_set {k : Pubkey} {payer : AccountInfo} {x : UInt64} {d : Bytes}
    (hne : payer.key ≠ k)
    (h : (σ.set k { σ k with data := d }).systemTransfer payer k x = .ok σ') :
    ∃ τ, σ.systemTransfer payer k x = .ok τ ∧ σ' = τ.set k { τ k with data := d } := by
  simp only [Ledger.systemTransfer, bind_eq_ok, exists_unit, okOr_eq_ok, pure_eq_ok,
    Ledger.set_of_ne _ _ hne, Ledger.set_of_ne _ _ (Ne.symm hne), Ledger.set_same] at h ⊢
  obtain ⟨hsigner, howner, rest, hrest, total, htotal, rfl⟩ := h
  refine ⟨_, ⟨hsigner, howner, rest, hrest, total, htotal, rfl⟩, funext fun j => ?_⟩
  by_cases hj : j = k
  · subst hj
    simp only [Ledger.set_same]
  · by_cases hp : j = payer.key
    · subst hp
      simp only [Ledger.set_same, Ledger.set_of_ne _ _ hne]
    · simp only [Ledger.set_of_ne _ _ hj, Ledger.set_of_ne _ _ hp]

/-- The native reserve after the account grew. -/
theorem syncReserve_ok {k : Pubkey} {s : PodState PodAccount} {a : Account} {data : Bytes}
    {n : ℕ} {reserve : UInt64} (hbase : Account.unpackFromSlice s.base = .ok a)
    (hgrown : unpack PodAccount (s.grown n).bytes = .ok (s.grown n))
    (h : syncReserve σ k (s.grown n).bytes reserve
      (if a.isNative.isSome then some a.amount else none) = .ok data) :
    (s.base.isNative = false ∧ data = (s.grown n).bytes) ∨
      (s.base.isNative = true ∧ s.base.amount.toNat + reserve.toNat ≤ (σ k).lamports.toNat ∧
        data = PodState.bytes { s.grown n with
          base := { s.base with isNativeOption := .some reserve } }) := by
  obtain ⟨hnative, hamount, _, hpack⟩ := unpackFromSlice_ok hbase
  have hisNative : s.base.isNative = a.isNative.isSome := by
    rw [← hnative, PodAccount.isNative, PodCOption.isSome, PodCOption.toOption]
    split <;> simp_all
  cases hcase : a.isNative.isSome with
  | false =>
    rw [hcase, if_neg Bool.false_ne_true] at h
    exact .inl ⟨hisNative.trans hcase, (Except.ok.inj h).symm⟩
  | true =>
    rw [hcase, if_pos rfl] at h
    simp only [syncReserve, bind_eq_ok, exists_unit, okOr_eq_ok, failIf_eq_ok, Prod.exists,
      decide_eq_false_iff_not, UInt64.not_lt, pure_eq_ok, checkedAdd_eq_some,
      UInt64.le_iff_toNat_le] at h
    obtain ⟨a', s', hunpack, total, htotal, hle, rfl⟩ := h
    obtain ⟨hs', hbase'⟩ := unpackAccount_ok hunpack
    obtain rfl := Except.ok.inj (hgrown.symm.trans hs')
    obtain rfl := Except.ok.inj (hbase.symm.trans hbase')
    refine .inr ⟨hisNative.trans hcase, by rw [hamount]; omega, ?_⟩
    rw [show (s.grown n).base = s.base from rfl, hpack]
    rfl

/-- An account made longer and paid for: the payment, as if it had come first. -/
theorem resize_then_pay {k : Pubkey} {payer : AccountInfo} {x : UInt64} {n : ℕ}
    {σ₁ σ₂ : Ledger} (hwf : σ.Wf) (hpayer : c.Given payer.key) (hk : c.Given k)
    (hlt : (σ k).data.length < n) (hresize : σ.resize k n = .ok σ₁)
    (hpay : σ₁.systemTransfer payer k x = .ok σ₂ ∨ σ₂ = σ₁) :
    (σ k).owner = Keys.tokenProgram ∧ ∃ τ, Refines rt c σ τ ∧
      (∀ j, (τ j).owner = (σ j).owner) ∧ (∀ j, (τ j).data = (σ j).data) ∧
      σ₂ = τ.set k { τ k with data := (σ k).data ++ zeros (n - (σ k).data.length) } := by
  obtain ⟨_, hwrite⟩ := resize_eq_ok.mp hresize
  rw [List.take_of_length_le hlt.le] at hwrite
  obtain ⟨howner, rfl⟩ := writeData_eq_ok.mp hwrite
  have howner : (σ k).owner = Keys.tokenProgram := by
    refine howner.resolve_right fun he => ?_
    have hlen := congrArg List.length he
    rw [List.length_append, List.length_replicate] at hlen
    omega
  refine ⟨howner, ?_⟩
  rcases hpay with hpay | rfl
  · have hne : payer.key ≠ k := by
      rintro rfl
      simp only [Ledger.systemTransfer, bind_eq_ok, exists_unit, failIf_eq_ok,
        Bool.or_eq_false_iff, bne_eq_false_iff_eq, Ledger.set_same] at hpay
      exact systemProgram_ne (hpay.2.1.1.symm.trans howner)
    obtain ⟨τ, hτ, rfl⟩ := systemTransfer_set hne hpay
    obtain ⟨hpays, hsystem⟩ := systemTransfer_pays hwf hτ
    refine ⟨τ, hpays.refines hpayer hk fun v hv => ?_, hpays.owner, hpays.data, rfl⟩
    exact absurd hv (not_account (hsystem ▸ systemProgram_ne) v)
  · exact ⟨σ, .refl hwf, fun _ => rfl, fun _ => rfl, rfl⟩

/-- How a successful `Reallocate` ends: with data that are long enough already, or with longer
data behind a payment. -/
structure Reallocates (rt : Runtime) (c : Call) (σ σ' : Ledger) (k : Pubkey)
    (s : PodState PodAccount) (needed : ℕ) : Prop where
  load : load σ PodAccount k = .ok s
  done : (needed ≤ (σ k).data.length ∧ σ' = σ) ∨
    (σ k).data.length < needed ∧ (σ k).owner = Keys.tokenProgram ∧ ∃ (τ : Ledger) (m : ℕ)
      (data : Bytes), Refines rt c σ τ ∧ (∀ j, (τ j).owner = (σ j).owner) ∧
        (∀ j, (τ j).data = (σ j).data) ∧ (s.grown m).bytes.length = needed ∧ (s.grown m).Packed ∧
          σ' = τ.set k { τ k with data := data } ∧
            ((s.base.isNative = false ∧ data = (s.grown m).bytes) ∨
              (s.base.isNative = true ∧ s.base.amount.toNat + (rt.minimumBalance needed).toNat ≤
                  (τ k).lamports.toNat ∧
                data = PodState.bytes { s.grown m with
                  base := { s.base with isNativeOption := .some (rt.minimumBalance needed) } }))

theorem processReallocate_ok {types : List ExtensionType} (hwf : σ.Wf)
    (hgiven : ∀ info ∈ accounts, c.Given info.key)
    (h : processReallocate rt accounts types σ = .ok σ') :
    ∃ info s current needed, accounts.head? = some info ∧ s.getExtensionTypes = .ok current ∧
      types.any (·.getAccountType != .account) = false ∧
        tryCalculateAccountLen PodAccount (current ++ types) = .ok needed ∧
          Reallocates rt c σ σ' info.key s needed := by
  obtain _ | ⟨accountInfo, _ | ⟨payerInfo, _ | ⟨_, _ | ⟨authorityInfo, signers⟩⟩⟩⟩ := accounts
  · cases h
  · cases h
  · cases h
  · cases h
  simp only [processReallocate, bind_eq_ok, exists_unit, Prod.exists, failIf_eq_ok] at h
  obtain ⟨a, s, hunpack, _, current, hcurrent, hkind, needed, hneeded, h⟩ := h
  obtain ⟨hload, hbase⟩ := unpackAccount_ok hunpack
  obtain ⟨hbytes, hp⟩ := unpack_eq_ok.mp hload
  refine ⟨accountInfo, s, current, needed, rfl, hcurrent, hkind, hneeded, hload, ?_⟩
  split at h
  · rename_i hle
    exact .inl ⟨hle, (pure_eq_ok.mp h).symm⟩
  rename_i hlt
  rw [ge_iff_le, not_le] at hlt
  simp only [bind_eq_ok, okOr_eq_ok] at h
  obtain ⟨σ₁, hresize, current, _, h⟩ := h
  obtain ⟨σ₂, hpay, data, htype, data', hreserve, h⟩ : ∃ σ₂,
      (σ₁.systemTransfer payerInfo accountInfo.key
          (saturatingSub (rt.minimumBalance needed) current) = .ok σ₂ ∨ σ₂ = σ₁) ∧
        ∃ data, setAccountType PodAccount (σ₂ accountInfo.key).data = .ok data ∧
        ∃ data', syncReserve σ₂ accountInfo.key data (rt.minimumBalance needed)
            (if a.isNative.isSome then some a.amount else none) = .ok data' ∧
          σ₂.writeData accountInfo.key data' = .ok σ' := by
    split at h
    · simp only [bind_eq_ok] at h
      obtain ⟨σ₂, hpay, h⟩ := h
      exact ⟨σ₂, .inl hpay, h⟩
    · simp only [ok_bind, bind_eq_ok] at h
      exact ⟨σ₁, .inr rfl, h⟩
  obtain ⟨howner, τ, hτ, hτowner, hτdata, rfl⟩ := resize_then_pay hwf (hgiven _ (by simp))
    (hgiven _ (by simp)) hlt hresize hpay
  rw [Ledger.set_same, hbytes] at htype
  obtain ⟨rfl, hroom, hlen⟩ := setAccountType_ok hp htype
  have hpacked := PodState.packed_grown hp hroom hlen
  have hlength : (s.grown (needed - s.bytes.length)).bytes.length = needed := by
    rw [PodState.length_bytes_grown hp hroom]
    rw [hbytes] at hlt
    omega
  obtain ⟨_, rfl⟩ := writeData_eq_ok.mp h
  rw [Ledger.set_same, Ledger.set_set]
  refine .inr ⟨hlt, howner, τ, _, data', hτ, hτowner, hτdata, hlength, hpacked, rfl, ?_⟩
  rcases syncReserve_ok hbase (unpack_eq_ok.mpr ⟨rfl, hpacked⟩) hreserve with
    hplain | ⟨hnative, hcovered, rfl⟩
  · exact .inl hplain
  · rw [Ledger.set_same] at hcovered
    exact .inr ⟨hnative, hcovered, rfl⟩

theorem processReallocate_refines {types : List ExtensionType} (hwf : σ.Wf)
    (hgiven : ∀ info ∈ accounts, c.Given info.key)
    (h : processReallocate rt accounts types σ = .ok σ') : Refines rt c σ σ' := by
  obtain ⟨info, s, _, needed, _, _, _, _, hload, hdone⟩ := processReallocate_ok hwf hgiven h
  rcases hdone with ⟨_, rfl⟩ | ⟨_, howner, τ, m, data, hτ, hτowner, hτdata, hneeded, hpacked, rfl,
    hdata⟩
  · exact .refl hwf
  have hτowner : (τ info.key).owner = Keys.tokenProgram := (hτowner _).trans howner
  refine hτ.trans ?_
  have hload' : load τ PodAccount info.key = .ok s := by rwa [load, hτdata]
  obtain ⟨hswf, _⟩ := hτ.wf.load hτowner hload'
  obtain ⟨hgwf, hview⟩ := PodState.wf_grown hswf m
  have held : τ.book.Account info.key s.view := contents_of_load hτowner hload'
  rcases hdata with ⟨hnative, rfl⟩ | ⟨hnative, hcovered, rfl⟩
  · obtain ⟨hwf', hbook⟩ := set_resized hτ.wf hτowner hload' (unpack_eq_ok.mpr ⟨rfl, hpacked⟩)
      hgwf trivial
    rw [hview] at hbook
    exact ⟨hwf', hbook ▸ .single (.grow _ held hnative rfl (.refl _))⟩
  · let base : PodAccount :=
      { s.base with isNativeOption := .some (rt.minimumBalance needed) }
    have hst := (PodState.Stored.refl hgwf).withBase base
    have hinit : base.isInitialized = true := hpacked.initialized
    obtain ⟨hwf', hbook⟩ := set_resized hτ.wf hτowner hload'
      (unpack_eq_ok.mpr ⟨rfl, hst.packed hpacked hinit⟩) hst.wf trivial
    rw [hst.view, hview, hst.length_bytes, hneeded] at hbook
    exact ⟨hwf', hbook ▸ .single (.growNative _ held hnative (UInt64.le_refl _) hcovered rfl
      (.refl _))⟩

end Handlers

end SolanaEasy.Token
