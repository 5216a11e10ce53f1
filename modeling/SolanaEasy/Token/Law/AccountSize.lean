import SolanaEasy.Token.Law.Room
import SolanaEasy.Token.Law.VariableLen
import SolanaEasy.Token.Processor.Authority
import SolanaEasy.Token.Refine.Initialize
import SolanaEasy.Token.Run

/-!
# Account sizes — calculated lengths are exactly sufficient

A zeroed buffer of the calculated length takes all extensions it was calculated for, and
is then as long as its content. The length that `GetAccountDataSize` reports lets
`InitializeAccount` put in what the mint requires and leaves room for the rest.
-/

namespace SolanaEasy.Token

open ExtensionType (getRequiredInitAccountExtensions)

/-! ## Zeroed buffers -/

section Zeroed

variable {S : Type} [BaseState S]

/-- Zeros are an uninitialised state with an empty buffer. -/
theorem unpackUninitialized_zeros [Held S] {n : ℕ} (hn : n = Pod.size S ∨ accountLen + 1 ≤ n)
    (hne : n ≠ multisigLen) :
    ∃ s : PodState S, unpackUninitialized S (zeros n) = .ok s ∧ s.Layout .uninitialized ∧
      s.bytes = zeros n ∧ s.tlvData = (TlvData.blank (n - (accountLen + 1))).bytes := by
  have hle := BaseState.size_le (S := S)
  have hcheck : ∀ u : AccountType,
      failIf (u != .uninitialized) ProgramError.invalidAccountData = .ok () ↔
        u = .uninitialized := by simp
  have htake : (zeros n).take (Pod.size S) = zeros (Pod.size S) := by
    rw [List.take_replicate, Nat.min_eq_left (by omega)]
  have hfirst := (TlvData.blank (n - (accountLen + 1))).getFirstExtensionType_bytes
  have hopen : ∀ s : PodState S, s.base = Pod.ofBytes (zeros (Pod.size S)) →
      s.tlvData = (TlvData.blank (n - (accountLen + 1))).bytes →
      (((zeros n).drop (Pod.size S) = [] ∧ s.accountType = [] ∧ s.tlvData = []) ∨
        (s.accountType = [AccountType.uninitialized.toU8] ∧ (zeros n).drop (Pod.size S) =
          zeros (accountLen - Pod.size S) ++ ([AccountType.uninitialized.toU8] ++ s.tlvData))) →
      unpackUninitialized S (zeros n) = .ok s ∧ s.Layout .uninitialized ∧ s.bytes = zeros n ∧
        s.tlvData = (TlvData.blank (n - (accountLen + 1))).bytes := by
    intro s hbase htlv hrest
    obtain ⟨hbytes, hlayout⟩ : zeros n = s.bytes ∧ s.Layout .uninitialized :=
      bytes_eq_of_rest (by rw [List.length_replicate]; omega) (by rw [htake, hbase]) hrest
    refine ⟨?_, hlayout, hbytes.symm, htlv⟩
    simp only [unpackUninitialized, bind_eq_ok, failIf_eq_ok, Prod.exists, pure_eq_ok, exists_unit,
      checkMinLen_eq_ok, unpackRest_eq_ok hcheck, PodState.checkAccountTypeMatchesExtensionType,
      htake, List.length_replicate]
    refine ⟨⟨hne, by omega⟩, Held.not_initialized, s.accountType, s.tlvData, hrest,
      ⟨none, ?_, rfl⟩, by rw [← hbase]⟩
    rw [htlv, hfirst]
    rfl
  rcases hn with rfl | hn
  · have hblank : ([] : Bytes) = (TlvData.blank (Pod.size S - (accountLen + 1))).bytes := by
      rw [Nat.sub_eq_zero_of_le (by omega)]
      rfl
    have hdrop : (zeros (Pod.size S)).drop (Pod.size S) = [] :=
      List.drop_of_length_le (by rw [List.length_replicate])
    exact ⟨_, hopen ⟨_, [], []⟩ rfl hblank (.inl ⟨hdrop, rfl, rfl⟩)⟩
  · obtain ⟨m, hm⟩ : ∃ m, m = n - (accountLen + 1) := ⟨_, rfl⟩
    rw [← hm] at hopen ⊢
    have hone : [AccountType.uninitialized.toU8] = zeros 1 := rfl
    have hdrop : (zeros n).drop (Pod.size S) = zeros (accountLen - Pod.size S) ++
        ([AccountType.uninitialized.toU8] ++ (TlvData.blank m).bytes) := by
      have hcount : n - Pod.size S = accountLen - Pod.size S + (1 + m) := by omega
      rw [List.drop_replicate, hcount, List.replicate_add, List.replicate_add, hone]
      rfl
    exact ⟨_, hopen ⟨_, _, (TlvData.blank m).bytes⟩ rfl rfl (.inr ⟨rfl, hdrop⟩)⟩

/-- The calculated length is that of the base, or of a buffer with room for the types. -/
theorem exists_calculatedLen {ts : List ExtensionType} (hts : ∀ t ∈ ts, t.sized = true) :
    ∃ n, tryCalculateAccountLen S ts = .ok n ∧ (n = Pod.size S ∨ accountLen + 1 ≤ n) ∧
      n ≠ multisigLen ∧ TlvData.Room ts (TlvData.blank (n - (accountLen + 1))) := by
  by_cases hnil : ts = []
  · subst hnil
    have hle := BaseState.size_le (S := S)
    have hshort : accountLen < multisigLen := by decide
    exact ⟨Pod.size S, rfl, .inl rfl, by omega, .blank (Nat.zero_le _)⟩
  · obtain ⟨hlong, hne⟩ := le_adjustLenForMultisig (tlvLen ts.dedup + (accountLen + 1))
    exact ⟨_, tryCalculateAccountLen_eq hts hnil, .inr (by omega), hne, .blank (by omega)⟩

/-- A state that holds all types of a list is as long as calculated. -/
theorem TlvData.Room.tryGetAccountLen_eq {ts : List ExtensionType} {d : TlvData}
    {s : PodState S} (hroom : Room ts d) (hts : ∀ t ∈ ts, t.sized = true)
    (hall : ∀ t ∈ ts, t ∈ d.types) (hs : s.tlvData = d.bytes) :
    s.tryGetAccountLen = tryCalculateAccountLen S ts := by
  by_cases hnil : ts = []
  · have hnone : d.types = [] := List.subset_nil.mp (hnil ▸ hroom.subset)
    rw [PodState.tryGetAccountLen, hs, getTlvDataInfo_bytes, hnone, hnil]
    rfl
  · have hsome : d.types ≠ [] := by
      obtain ⟨t, ht⟩ := List.exists_mem_of_ne_nil ts hnil
      exact List.ne_nil_of_mem (hall t ht)
    rw [Token.tryGetAccountLen_eq hs hsome, hroom.usedLen hall,
      tryCalculateAccountLen_eq hts hnil]

/-- In a zeroed buffer of the calculated length all extensions can be initialised, in any order,
and the content is then as long as the buffer. -/
theorem initExtensions_calculated [Held S] {ts : List ExtensionType} {xs : List ExtensionInit}
    (hts : ∀ t ∈ ts, t.sized = true ∧ t.getAccountType = BaseState.accountType S)
    (hadmissible : Admissible ts [] xs) (hall : ∀ t ∈ ts, t ∈ xs.map (·.type)) :
    ∃ (n : ℕ) (s s' : PodState S), tryCalculateAccountLen S ts = .ok n ∧
      unpackUninitialized S (zeros n) = .ok s ∧ initExtensions xs s = .ok s' ∧
        s'.tryGetAccountLen = .ok n := by
  have hsized : ∀ t ∈ ts, t.sized = true := fun t ht => (hts t ht).1
  obtain ⟨n, hn, hlong, hne, hroom⟩ := exists_calculatedLen (S := S) hsized
  obtain ⟨s, hs, _, _, htlv⟩ := unpackUninitialized_zeros (S := S) hlong hne
  obtain ⟨s', d', hinits, hs', hroom', htypes⟩ := hroom.initExtensions_ok hts htlv hadmissible
  refine ⟨n, s, s', hn, hs, hinits, ?_⟩
  rw [hroom'.tryGetAccountLen_eq hsized (fun t ht => (htypes t).mpr (.inr (hall t ht))) hs', hn]

end Zeroed

/-! ## New accounts -/

theorem sized_of_account {t : ExtensionType} (h : t.getAccountType = .account) :
    t.sized = true := by
  cases t <;> first | rfl | cases h

theorem account_of_isRequired {t : ExtensionType} (h : t.isRequired = true) :
    t.getAccountType = .account := by
  cases t <;> first | rfl | cases h

section NewAccount

variable {rt : Runtime} {σ : Ledger} {ts : List ExtensionType} {d : TlvData}

/-- With room for it a required extension can be initialised. -/
theorem TlvData.Room.initAccountExtensionFromType_ok {s : PodState PodAccount} {t : ExtensionType}
    (hroom : Room ts d) (hs : s.tlvData = d.bytes) (ht : t ∈ ts) (hreq : t.isRequired = true) :
    ∃ (s' : PodState PodAccount) (d' : TlvData) (v : Bytes),
      s.initAccountExtensionFromType t = .ok s' ∧ s'.base = s.base ∧
        s'.accountType = s.accountType ∧ s'.tlvData = d'.bytes ∧ d.Inserts t v d' ∧
          d'.bytes.length = d.bytes.length ∧ Room ts d' := by
  cases t with
  | transferFeeAmount =>
    obtain ⟨s', d', h⟩ :=
      hroom.initExtension_ok hs (default : TransferFeeAmount) rfl rfl ht (.inl rfl)
    exact ⟨s', d', _, h⟩
  | immutableOwner =>
    obtain ⟨s', d', h⟩ :=
      hroom.initExtension_ok hs (default : ImmutableOwner) rfl rfl ht (.inl rfl)
    exact ⟨s', d', _, h⟩
  | nonTransferableAccount =>
    obtain ⟨s', d', h⟩ :=
      hroom.initExtension_ok hs (default : NonTransferableAccount) rfl rfl ht (.inl rfl)
    exact ⟨s', d', _, h⟩
  | transferHookAccount =>
    obtain ⟨s', d', h⟩ :=
      hroom.initExtension_ok hs (default : TransferHookAccount) rfl rfl ht (.inl rfl)
    exact ⟨s', d', _, h⟩
  | pausableAccount =>
    obtain ⟨s', d', h⟩ :=
      hroom.initExtension_ok hs (default : PausableAccount) rfl rfl ht (.inl rfl)
    exact ⟨s', d', _, h⟩
  | _ => cases hreq

theorem TlvData.Room.initRequiredExtensions_ok {us : List ExtensionType} {s : PodState PodAccount}
    (hroom : Room ts d) (hs : s.tlvData = d.bytes) (hus : ∀ t ∈ us, t ∈ ts ∧ t.isRequired = true) :
    ∃ (s' : PodState PodAccount) (d' : TlvData),
      Processor.initRequiredExtensions s us = .ok s' ∧ s'.base = s.base ∧
        s'.accountType = s.accountType ∧ s'.tlvData = d'.bytes ∧
          d'.bytes.length = d.bytes.length ∧ Room ts d' ∧
            ∀ t, t ∈ d'.types ↔ t ∈ d.types ∨ t ∈ us := by
  induction us generalizing s d with
  | nil => exact ⟨s, d, rfl, rfl, rfl, hs, rfl, hroom, by simp⟩
  | cons t us ih =>
    obtain ⟨ht, hreq⟩ := hus t List.mem_cons_self
    obtain ⟨s₁, d₁, v, hinit, hbase, htype, hs₁, hins, hlen, hroom₁⟩ :=
      hroom.initAccountExtensionFromType_ok hs ht hreq
    obtain ⟨s', d', hinits, hbase', htype', hs', hlen', hroom', htypes'⟩ :=
      ih hroom₁ hs₁ fun u hu => hus u (List.mem_cons_of_mem _ hu)
    refine ⟨s', d', ?_, hbase'.trans hbase, htype'.trans htype, hs', hlen'.trans hlen, hroom',
      fun u => ?_⟩
    · rw [Processor.initRequiredExtensions, hinit]
      exact hinits
    · rw [htypes' u, hins.mem_types, List.mem_cons, or_assoc]

/-- The state byte of a mint's default is one an account can start in. -/
theorem exists_startingState {m : PodState PodMint} (hvalid : m.view.ValidDefault) :
    ∃ b, Processor.startingState m = .ok b ∧ b ≠ .uninitialized := by
  rw [Processor.startingState, PodState.toOption_getExtension]
  cases hget : m.view.get DefaultAccountState with
  | none => exact ⟨.initialized, rfl, by decide⟩
  | some x =>
    rcases hvalid x hget with hx | hx
    · exact ⟨.initialized, by simp only [hx]; rfl, by decide⟩
    · exact ⟨.frozen, by simp only [hx]; rfl, by decide⟩

theorem exists_startingBalance {M : Pubkey} {lamports : UInt64} {n : ℕ}
    (h : rt.isExempt lamports n = true) :
    ∃ p, Processor.startingBalance rt M lamports n = .ok p := by
  rw [Processor.startingBalance]
  by_cases hM : M = Keys.nativeMint
  · have hle : rt.minimumBalance n ≤ lamports := by simpa [Runtime.isExempt] using h
    obtain ⟨x, hx⟩ : ∃ x, checkedSub lamports (rt.minimumBalance n) = some x := by
      refine ⟨lamports - rt.minimumBalance n, checkedSub_eq_some.mpr ?_⟩
      rw [UInt64.toNat_sub_of_le _ _ hle]
      have hle := UInt64.le_iff_toNat_le.mp hle
      omega
    rw [if_pos (beq_iff_eq.mpr hM)]
    simp only [hx]
    exact ⟨_, rfl⟩
  · rw [if_neg (by simpa using hM)]
    exact ⟨_, rfl⟩

/-- The type byte is written where the entries are of the kind. -/
theorem exists_initAccountType {S : Type} [BaseState S] {s : PodState S} (hs : s.tlvData = d.bytes)
    (hkind : ∀ t ∈ d.types, t.getAccountType = BaseState.accountType S) :
    ∃ s', s.initAccountType = .ok s' := by
  rw [PodState.initAccountType, hs, TlvData.getFirstExtensionType_bytes]
  simp only [ok_bind]
  split
  · exact ⟨_, rfl⟩
  · cases hfirst : d.types.head? with
    | none => exact ⟨_, rfl⟩
    | some t =>
      have hat := hkind t (List.mem_of_mem_head? hfirst)
      have hpass : failIf (t.getAccountType != BaseState.accountType S)
          (TokenError.extensionBaseMismatch : ProgramError) = .ok () :=
        failIf_eq_ok.mpr (bne_eq_false_iff_eq.mpr hat)
      simp only [hpass, ok_bind]
      exact ⟨_, rfl⟩

/-- `_process_initialize_account` on zeroed data with room for what the mint requires. -/
theorem initializeAccount_zeros {newAccountInfo mintInfo : AccountInfo} {owner : Pubkey}
    {m : PodState PodMint} {mintTypes : List ExtensionType} {n : ℕ} (hwf : σ.Wf)
    (hmintOwner : (σ mintInfo.key).owner = Keys.tokenProgram)
    (hmint : load σ PodMint mintInfo.key = .ok m) (hmintTypes : m.getExtensionTypes = .ok mintTypes)
    (hrequired : ∀ t ∈ getRequiredInitAccountExtensions mintTypes, t ∈ ts)
    (hts : ∀ t ∈ ts, t.getAccountType = .account)
    (hlong : n = Pod.size PodAccount ∨ accountLen + 1 ≤ n) (hne : n ≠ multisigLen)
    (hroom : TlvData.Room ts (TlvData.blank (n - (accountLen + 1))))
    (hneeded : ∃ len, tryCalculateAccountLen PodAccount
      (getRequiredInitAccountExtensions mintTypes) = .ok len ∧ len ≤ n)
    (howner : (σ newAccountInfo.key).owner = Keys.tokenProgram)
    (hdata : (σ newAccountInfo.key).data = zeros n)
    (hexempt : rt.isExempt (σ newAccountInfo.key).lamports n = true) :
    ∃ (σ' : Ledger) (s' : PodState PodAccount) (d' : TlvData),
      Processor.initializeAccount rt newAccountInfo mintInfo owner σ = .ok σ' ∧
        load σ' PodAccount newAccountInfo.key = .ok s' ∧ s'.tlvData = d'.bytes ∧
          TlvData.Room ts d' ∧
            ∀ t, t ∈ d'.types ↔ t ∈ getRequiredInitAccountExtensions mintTypes := by
  obtain ⟨_, hvalid⟩ := hwf.load hmintOwner hmint
  obtain ⟨s, hunpack, hlayout, hbytes, hs⟩ := unpackUninitialized_zeros (S := PodAccount) hlong hne
  obtain ⟨len, hlen, hfits⟩ := hneeded
  have hus : ∀ t ∈ getRequiredInitAccountExtensions mintTypes, t ∈ ts ∧ t.isRequired = true := by
    intro t ht
    obtain ⟨_, _, hmem⟩ := List.mem_flatMap.mp ht
    exact ⟨hrequired t ht, isRequired_of_mem hmem⟩
  obtain ⟨s₁, d₁, hreq, _, htype₁, hs₁, hlen₁, hroom₁, htypes₁⟩ :=
    hroom.initRequiredExtensions_ok hs hus
  obtain ⟨b, hb, hstate⟩ := exists_startingState hvalid
  obtain ⟨⟨isNative, amount⟩, hbalance⟩ := exists_startingBalance (M := mintInfo.key) hexempt
  let base : PodAccount :=
    ⟨mintInfo.key, owner, amount, .none, b.toU8, isNative, 0, .none⟩
  let s₂ : PodState PodAccount := { s₁ with base := base }
  obtain ⟨s', hs'⟩ := exists_initAccountType (s := s₂) hs₁ fun t ht => hts t (hroom₁.subset ht)
  have hlayout₂ : s₂.Layout .uninitialized := by
    rcases hlayout with ⟨hat, htlv⟩ | hat
    · refine .inl ⟨htype₁.trans hat, List.length_eq_zero_iff.mp ?_⟩
      rw [show s₂.tlvData = d₁.bytes from hs₁, hlen₁, ← hs, htlv]
      rfl
    · exact .inr (htype₁.trans hat)
  obtain ⟨hbase', htlv', hat', hlayout'⟩ := initAccountType_ok hs' hlayout₂
  have hlength : s'.bytes.length = n := by
    have hempty : s'.accountType.isEmpty = s.accountType.isEmpty := by
      rw [Bool.eq_iff_iff, List.isEmpty_iff_length_eq_zero, List.isEmpty_iff_length_eq_zero, hat',
        show s₂.accountType = s.accountType from htype₁]
    have hsame := congrArg List.length hbytes
    rw [List.length_replicate, s.length_bytes, hs] at hsame
    rw [s'.length_bytes, hempty, hat', show s₂.accountType = s.accountType from htype₁, htlv',
      show s₂.tlvData = d₁.bytes from hs₁, hlen₁, hsame]
  have hpacked : s'.Packed := by
    refine ⟨hlayout', ?_, by rw [hlength]; exact hne⟩
    rw [hbase']
    show PodAccount.isInitialized base = true
    cases b with
    | uninitialized => exact absurd rfl hstate
    | initialized => rfl
    | frozen => rfl
  have hdiffer : (mintInfo.key == newAccountInfo.key) = false := by
    rw [beq_eq_false_iff_ne]
    intro he
    rw [he, load, hdata] at hmint
    exact unpack_ne_of_fresh zeroMint_not_initialized (freshData_zeros n) hmint
  refine ⟨σ.set newAccountInfo.key { σ newAccountInfo.key with data := s'.bytes }, s', d₁, ?_, ?_,
    htlv'.trans hs₁, hroom₁, fun t => ?_⟩
  · have hstore : store σ newAccountInfo.key s' = .ok _ := store_eq_ok.mpr ⟨.inl howner, rfl⟩
    simp only [Processor.initializeAccount, Processor.getRequiredAccountExtensionsFromUnpackedMint,
      checkProgramAccount, Processor.loadBeside, bind_eq_ok, exists_unit, mapErr_eq_ok,
      failIf_eq_ok, bne_eq_false_iff_eq, pure_eq_ok, Prod.exists]
    rw [hdata, List.length_replicate]
    exact ⟨s, hunpack, by rw [hexempt]; rfl, m, ⟨hdiffer, hmint⟩, _,
      ⟨hmintOwner, mintTypes, hmintTypes, rfl⟩, len, hlen, by simpa using hfits, s₁, hreq, b, hb,
      isNative, amount, hbalance, s', hs', hstore⟩
  · rw [load, Ledger.set_same]
    exact unpack_eq_ok.mpr ⟨rfl, hpacked⟩
  · rw [htypes₁ t]
    simp [TlvData.types, TlvData.blank]

end NewAccount

/-! ## What a mint requires -/

theorem mem_of_isRequired {t : ExtensionType} (h : t.isRequired = true) :
    t ∈ [ExtensionType.transferFeeAmount, .immutableOwner, .nonTransferableAccount,
      .transferHookAccount, .pausableAccount] := by
  cases t <;> first | decide | cases h

/-- What a mint requires is never as long as a multisig, so that more types never mean less
length. -/
theorem requiredLen_le {mintTypes us : List ExtensionType} {n : ℕ}
    (hsub : getRequiredInitAccountExtensions mintTypes ⊆ us) (hus : ∀ t ∈ us, t.sized = true)
    (hn : tryCalculateAccountLen PodAccount us = .ok n) :
    ∃ len, tryCalculateAccountLen PodAccount (getRequiredInitAccountExtensions mintTypes) =
      .ok len ∧ len ≤ n := by
  obtain ⟨required, hrequired⟩ : ∃ required,
      required = getRequiredInitAccountExtensions mintTypes := ⟨_, rfl⟩
  have hall : required.dedup ⊆ [ExtensionType.transferFeeAmount, .immutableOwner,
      .nonTransferableAccount, .transferHookAccount, .pausableAccount] := by
    intro t ht
    rw [List.mem_dedup, hrequired] at ht
    obtain ⟨_, _, hmem⟩ := List.mem_flatMap.mp ht
    exact mem_of_isRequired (isRequired_of_mem hmem)
  have hshort : tlvLen required.dedup ≤ 29 := tlvLen_le_of_subset (List.nodup_dedup required) hall
  rw [← hrequired] at hsub ⊢
  by_cases hnil : us = []
  · subst hnil
    obtain rfl := List.subset_nil.mp hsub
    exact ⟨n, hn, Nat.le_refl n⟩
  · obtain ⟨hlong, _⟩ := le_adjustLenForMultisig (tlvLen us.dedup + (accountLen + 1))
    rw [tryCalculateAccountLen_eq hus hnil, Except.ok.injEq] at hn
    rw [hn] at hlong
    by_cases hnone : required = []
    · have hsize : Pod.size PodAccount = accountLen := by decide
      exact ⟨Pod.size PodAccount, by rw [hnone]; rfl, by omega⟩
    · have hle : tlvLen required.dedup ≤ tlvLen us.dedup := by
        refine tlvLen_le_of_subset (List.nodup_dedup required) fun t ht => ?_
        rw [List.mem_dedup] at ht ⊢
        exact hsub ht
      have hplain : adjustLenForMultisig (tlvLen required.dedup + (accountLen + 1)) =
          tlvLen required.dedup + (accountLen + 1) := by
        have hne : tlvLen required.dedup + (accountLen + 1) ≠ multisigLen := by
          have : accountLen + 1 + 29 < multisigLen := by decide
          omega
        rw [adjustLenForMultisig, if_neg (by simpa using hne)]
      refine ⟨_, tryCalculateAccountLen_eq (fun t ht => hus t (hsub ht)) hnone, ?_⟩
      rw [hplain]
      omega

theorem Admissible.mono {ts us known : List ExtensionType} {xs : List ExtensionInit}
    (h : ∀ t ∈ ts, t ∈ us) (hadmissible : Admissible ts known xs) : Admissible us known xs := by
  induction xs generalizing known with
  | nil => trivial
  | cons x xs ih => exact ⟨h _ hadmissible.1, hadmissible.2.1, ih hadmissible.2.2⟩

theorem exists_getExtensionTypes {m : PodState PodMint} (hwf : m.Wf) :
    ∃ mintTypes, m.getExtensionTypes = .ok mintTypes := by
  obtain ⟨b, hb⟩ := hwf
  rw [PodState.getExtensionTypes, ← hb, TlvBuffer.getTlvDataInfo_bytes]
  exact ⟨_, rfl⟩

theorem reported_size_sufficient {rt : Runtime} {allow : Call → Prop} {σ : Ledger}
    (hr : Reachable rt allow σ) {mintInfo : AccountInfo} {m : PodState PodMint}
    (hmintOwner : (σ mintInfo.key).owner = Keys.tokenProgram)
    (hmint : load σ PodMint mintInfo.key = .ok m) {ts : List ExtensionType}
    (hts : ∀ t ∈ ts, t.getAccountType = .account) :
    ∃ n, (∀ rest, Processor.processGetAccountDataSize (mintInfo :: rest) ts σ = .ok n) ∧
      ∀ newAccountInfo owner, (σ newAccountInfo.key).owner = Keys.tokenProgram →
        (σ newAccountInfo.key).data = zeros n →
        rt.isExempt (σ newAccountInfo.key).lamports n = true →
        ∃ σ' s', Processor.initializeAccount rt newAccountInfo mintInfo owner σ = .ok σ' ∧
          load σ' PodAccount newAccountInfo.key = .ok s' ∧
            ∀ known xs, s'.getExtensionTypes = .ok known → Admissible ts known xs →
              ∃ s'', initExtensions xs s' = .ok s'' ∧
                ((∀ t ∈ ts, t ∈ xs.map (·.type)) → s''.tryGetAccountLen = .ok n) := by
  obtain ⟨hmwf, _⟩ := hr.wf.load hmintOwner hmint
  obtain ⟨mintTypes, hmintTypes⟩ := exists_getExtensionTypes hmwf
  let all := getRequiredInitAccountExtensions mintTypes ++ ts
  have hkind : ∀ t ∈ all, t.getAccountType = .account := by
    intro t ht
    rcases List.mem_append.mp ht with ht | ht
    · obtain ⟨_, _, hmem⟩ := List.mem_flatMap.mp ht
      exact account_of_isRequired (isRequired_of_mem hmem)
    · exact hts t ht
  have hsized : ∀ t ∈ all, t.sized = true := fun t ht => sized_of_account (hkind t ht)
  obtain ⟨n, hn, hlong, hne, hroom⟩ := exists_calculatedLen (S := PodAccount) hsized
  refine ⟨n, fun rest => ?_, ?_⟩
  · have hany : ts.any (·.getAccountType != .account) = false := by
      rw [List.any_eq_false]
      intro t ht
      simpa using hts t ht
    simp only [Processor.processGetAccountDataSize, Processor.getRequiredAccountExtensions,
      Processor.getRequiredAccountExtensionsFromUnpackedMint, checkProgramAccount, bind_eq_ok,
      exists_unit, mapErr_eq_ok, failIf_eq_ok, bne_eq_false_iff_eq, pure_eq_ok]
    exact ⟨hany, _, ⟨m, hmint, hmintOwner, mintTypes, hmintTypes, rfl⟩, hn⟩
  · intro newAccountInfo owner howner hdata hexempt
    obtain ⟨σ', s', d', hinit, hload, hs', hroom', htypes⟩ := initializeAccount_zeros hr.wf
      hmintOwner hmint hmintTypes (fun t ht => List.mem_append_left ts ht) hkind hlong hne hroom
      (requiredLen_le (List.subset_append_left _ ts) hsized hn) howner hdata hexempt
    refine ⟨σ', s', hinit, hload, ?_⟩
    intro known xs hknown hadmissible
    rw [PodState.getExtensionTypes, hs', TlvData.getTlvDataInfo_bytes] at hknown
    obtain rfl := Except.ok.inj hknown
    obtain ⟨s'', d'', hinits, hs'', hroom'', htypes'⟩ := hroom'.initExtensions_ok
      (fun t ht => ⟨hsized t ht, hkind t ht⟩) hs'
      (hadmissible.mono fun t ht => List.mem_append_right _ ht)
    refine ⟨s'', hinits, fun hcover => ?_⟩
    rw [hroom''.tryGetAccountLen_eq hsized (fun t ht => ?_) hs'', hn]
    rw [htypes' t, htypes t]
    rcases List.mem_append.mp ht with ht | ht
    · exact .inl ht
    · exact .inr (hcover t ht)

/-- Calculated sizes are exactly sufficient, in a zeroed buffer and for a new account. -/
theorem calculated_sizes_sufficient :
    (∀ (S : Type) [BaseState S] [Held S] (ts : List ExtensionType) (xs : List ExtensionInit),
      (∀ t ∈ ts, t.sized = true ∧ t.getAccountType = BaseState.accountType S) →
      Admissible ts [] xs → (∀ t ∈ ts, t ∈ xs.map (·.type)) →
      ∃ (n : ℕ) (s s' : PodState S), tryCalculateAccountLen S ts = .ok n ∧
        unpackUninitialized S (zeros n) = .ok s ∧ initExtensions xs s = .ok s' ∧
          s'.tryGetAccountLen = .ok n) ∧
    ∀ (rt : Runtime) (allow : Call → Prop) (σ : Ledger), Reachable rt allow σ →
      ∀ (mintInfo : AccountInfo) (m : PodState PodMint),
        (σ mintInfo.key).owner = Keys.tokenProgram → load σ PodMint mintInfo.key = .ok m →
        ∀ ts : List ExtensionType, (∀ t ∈ ts, t.getAccountType = .account) →
        ∃ n, (∀ rest, Processor.processGetAccountDataSize (mintInfo :: rest) ts σ = .ok n) ∧
          ∀ newAccountInfo owner, (σ newAccountInfo.key).owner = Keys.tokenProgram →
            (σ newAccountInfo.key).data = zeros n →
            rt.isExempt (σ newAccountInfo.key).lamports n = true →
            ∃ σ' s', Processor.initializeAccount rt newAccountInfo mintInfo owner σ = .ok σ' ∧
              load σ' PodAccount newAccountInfo.key = .ok s' ∧
                ∀ known xs, s'.getExtensionTypes = .ok known → Admissible ts known xs →
                  ∃ s'', initExtensions xs s' = .ok s'' ∧
                    ((∀ t ∈ ts, t ∈ xs.map (·.type)) → s''.tryGetAccountLen = .ok n) :=
  ⟨fun _ _ _ _ _ hts hadmissible hall => initExtensions_calculated hts hadmissible hall,
    fun _ _ _ hr _ _ howner hmint _ hts => reported_size_sufficient hr howner hmint hts⟩

/-! A mint with a transfer fee, and room for an account with two guards. -/

def sizedLedger : Ledger :=
  scripted (.modular 2)
    [(.plain, [⟨1, false⟩], .initializeTransferFeeConfig (some 5) none 100 50),
      (.plain, [⟨1, false⟩], .initializeMint2 6 5 none)] (blank [(1, 278), (2, 188)])

theorem calculated_sizes_sufficient_guards :
    (∃ (n : ℕ) (s s' : PodState PodMint), tryCalculateAccountLen PodMint [.mintCloseAuthority] =
      .ok n ∧ unpackUninitialized PodMint (zeros n) = .ok s ∧
        initExtensions [⟨MintCloseAuthority, inferInstance, inferInstance, inferInstance, default,
          false⟩] s = .ok s' ∧ s'.tryGetAccountLen = .ok n) ∧
    ∃ σ' s', Processor.initializeAccount (.modular 2) ⟨2, false⟩ ⟨1, false⟩ 9 sizedLedger =
      .ok σ' ∧ load σ' PodAccount 2 = .ok s' := by
  obtain ⟨hzeroed, hreported⟩ := calculated_sizes_sufficient
  refine ⟨hzeroed PodMint [.mintCloseAuthority] _ (by decide)
    ⟨by decide, .inr (by decide), trivial⟩ (by decide), ?_⟩
  have hr : Reachable (.modular 2) (fun _ => True) sizedLedger :=
    .scripted (by decide) (fun _ _ _ => trivial) (by decide +kernel)
  obtain ⟨m, hm⟩ := Option.isSome_iff_exists.mp
    (show (toOption (load sizedLedger PodMint 1)).isSome = true by decide +kernel)
  obtain ⟨n, hn, hopens⟩ := hreported (.modular 2) _ sizedLedger hr ⟨1, false⟩ m
    (by decide +kernel) (toOption_eq_some.mp hm) [.memoTransfer, .cpiGuard] (by decide)
  have hsize : toOption (Processor.processGetAccountDataSize [⟨1, false⟩]
      [.memoTransfer, .cpiGuard] sizedLedger) = some 188 := by decide +kernel
  obtain rfl : n = 188 := Except.ok.inj ((hn []).symm.trans (toOption_eq_some.mp hsize))
  obtain ⟨σ', s', hinit, hload, _⟩ := hopens ⟨2, false⟩ 9 (by decide +kernel) (by decide +kernel)
    (by decide +kernel)
  exact ⟨σ', s', hinit, hload⟩

end SolanaEasy.Token
