import SolanaEasy.Token.Refine.MintExtension

/-!
# Refinement — metadata and groups

Records are added to a mint that is in use, so its data is resized around them. The
mint has extensions already, and keeps its type byte; nothing of value is touched.
-/

namespace SolanaEasy.Token

open Processor

/-! ## Records on a mint -/

section Record

variable {m : View PodMint} {t : ExtensionType} {b : Bytes}

theorem View.get_setRecord (V : Type) [Pod V] [Extension V] (ht : t.isRecord = true)
    (hV : (Extension.type V).isRecord = false) : (m.setExt t b).get V = m.get V := by
  apply get_setExt_of_ne
  rintro rfl
  rw [ht] at hV
  cases hV

theorem View.settled_setRecord (ht : t.isRecord = true) : m.Settled (m.setExt t b) := by
  intro a ha
  constructor
  · cases a with
    | mintTokens | freezeAccount | accountOwner | closeAccount => exact ha
    | _ =>
      rw [authority, get_setRecord _ ht rfl]
      exact ha
  · cases a with
    | mintTokens => exact ⟨UInt64.le_refl _, by rw [get_setRecord _ ht rfl]⟩
    | accountOwner | closeAccount => trivial
    | transferFeeConfig => rw [SameSetting, mintCore, mintCore, get_setRecord _ ht rfl]
    | withheldWithdraw => rw [SameSetting, mintWithheld, mintWithheld, get_setRecord _ ht rfl]
    | _ => rw [SameSetting, get_setRecord _ ht rfl]

theorem View.mintCore_setRecord (ht : t.isRecord = true) :
    (m.setExt t b).mintCore = { m.mintCore with records := (m.setExt t b).records } := by
  rw [mintCore, mintCore, mintWithheld, mintWithheld, paused, paused,
    get_setRecord TransferFeeConfig ht rfl, get_setRecord ConfidentialTransferFeeConfig ht rfl,
    get_setRecord ConfidentialMintBurn ht rfl, get_setRecord PausableConfig ht rfl]
  rfl

/-- A mint whose tokens are left alone, and of what it shows all that the instruction is not
about. -/
structure RewrittenMint (c : Call) (m m' : View PodMint) : Prop where
  initialized : m'.base.isInitialized = m.base.isInitialized
  valid : m.ValidDefault → m'.ValidDefault
  core : m'.mintCore = { m.mintCore with records := m'.records }
  shown : c.instruction.Rewrites m.records m'.records
  keeps : m.Keeps m'

theorem RewrittenMint.move {rt : Runtime} {c : Call} {β : Book} {M : Pubkey} {m m' : View PodMint}
    (h : RewrittenMint c m m') (n : ℕ) (held : β.Mint M m) :
    Move rt c β (β.set M ⟨(β M).lamports, n, .mint m'⟩) :=
  .rewrite n h.shown held h.core h.keeps

/-- A record, added to a mint that has some extension. -/
theorem RewrittenMint.setRecord {c : Call} {u : ExtensionType} (ht : t.isRecord = true)
    (hc : t = .tokenMetadata ∨ c.instruction.rewrites t = true) (hu : (m.ext u).isSome = true) :
    RewrittenMint c m (m.setExt t b) where
  initialized := rfl
  valid h x hx := h x (by rwa [View.get_setRecord _ ht rfl] at hx)
  core := View.mintCore_setRecord ht
  shown := View.rewrites_setExt hc
  keeps :=
    { grows := fun s hs => by
        rw [View.ext_setExt]
        split
        · rfl
        · exact hs
      adds := fun s hs => by
        rw [View.ext_setExt] at hs
        split at hs
        · rename_i he
          exact .inr (he ▸ ht)
        · exact .inl hs
      bare := fun hb => by
        rw [hb.2] at hu
        cases hu
      settled := View.settled_setRecord ht }

/-- A handler that writes such a mint back. -/
theorem refines_rewritten_mint {rt : Runtime} {c : Call} {σ σ' : Ledger} {k : Pubkey}
    {s s' : PodState PodMint} (hwf : σ.Wf) (hload : load σ PodMint k = .ok s)
    (h : store σ k s' = .ok σ')
    (hst : s.Wf → ∃ m, s.Stored s' m ∧ RewrittenMint c s.view m) : Refines rt c σ σ' := by
  refine refines_store_mint hwf hload h fun hswf held => ?_
  obtain ⟨m, hstored, hrewritten⟩ := hst hswf
  have hinit : m.base.isInitialized.toBool = true := by
    rw [hrewritten.initialized]
    exact (packed_of_load hload).initialized
  exact ⟨m, hstored, hinit, hrewritten.valid, hrewritten.move _ held⟩

end Record

/-! ## Resizing -/

section Resize

variable {S : Type} [BaseState S] {σ σ' : Ledger} {k : Pubkey} {s s' : PodState S}

/-- A state with an extension has its type byte. -/
theorem accountType_of_ext {t : ExtensionType} (hp : s.Packed)
    (h : (s.view.ext t).isSome = true) :
    s.accountType = [(BaseState.accountType S).toU8] := by
  rcases hp.layout with ⟨_, htlv⟩ | hat
  · rw [ext_view_blank (n := 0) htlv] at h
    cases h
  · exact hat

theorem length_bytes_of_accountType (hat : s.accountType = [(BaseState.accountType S).toU8]) :
    s.bytes.length = accountLen + 1 + s.tlvData.length := by
  rw [s.length_bytes, hat]
  rfl

/-- More room behind the entries. -/
theorem resize_grow {n : Nat} (hat : s.accountType = [(BaseState.accountType S).toU8])
    (hload : load σ S k = .ok s) (hlt : (σ k).data.length < n) (h : σ.resize k n = .ok σ') :
    (σ k).owner = Keys.tokenProgram ∧
      σ' = σ.set k { σ k with data := (s.grown (n - s.bytes.length)).bytes } := by
  have hdata := data_of_load hload
  obtain ⟨_, hwrite⟩ := resize_eq_ok.mp h
  rw [List.take_of_length_le hlt.le] at hwrite
  obtain ⟨howner, rfl⟩ := writeData_eq_ok.mp hwrite
  refine ⟨howner.resolve_right fun he => ?_, ?_⟩
  · have hlen := congrArg List.length he
    rw [List.length_append, List.length_replicate] at hlen
    omega
  · rw [PodState.bytes_grown_of_accountType _ hat, hdata]

/-- What the grown data is unpacked to. -/
theorem unpack_grown {n : Nat} (hp : s.Packed)
    (hat : s.accountType = [(BaseState.accountType S).toU8])
    (h : unpack S (s.grown n).bytes = .ok s') : s' = s.grown n := by
  have hne := unpack_length_ne h
  have hroom : accountLen < n + s.bytes.length := by
    rw [length_bytes_of_accountType hat]
    omega
  rw [PodState.length_bytes_grown hp hroom] at hne
  have hgrown := unpack_eq_ok.mpr ⟨rfl, PodState.packed_grown hp hroom hne⟩
  exact Except.ok.inj (h.symm.trans hgrown)

/-- The new length has room for the entries. -/
theorem newAccountLen_ok {t : ExtensionType} {v : Bytes} {n : Nat}
    {b b' : TlvBuffer (BaseState.accountType S)} (hb : b.bytes = s.tlvData) (hsets : b.Sets t v b')
    (h : tryGetNewAccountLenForExtensionLen S t s.tlvData v.length = .ok n) :
    accountLen + 1 + b'.usedLen ≤ n ∧ n ≠ multisigLen := by
  rw [tryGetNewAccountLenForExtensionLen, ← hb, TlvBuffer.getTlvDataInfo_bytes] at h
  simp only [ok_bind, pure_eq_ok] at h
  have hentry : ((toOption (getExtensionBytes S t b.bytes)).map
      (addTypeAndLengthToLen ·.length)).getD 0 = b.entryLen t := by
    have hget : toOption (getExtensionBytes S t b.bytes) = b.get t := by
      ext x
      rw [toOption_eq_some, TlvBuffer.getExtensionBytes_eq_ok]
    rw [hget]
    rfl
  have hused := hsets.usedLen
  rw [hentry, addTypeAndLengthToLen] at h
  unfold TlvBuffer.usedLen at hused ⊢
  rw [← h, adjustLenForMultisig]
  split
  · rename_i heq
    rw [beq_iff_eq] at heq
    omega
  · rename_i hne
    rw [beq_iff_eq] at hne
    exact ⟨by omega, hne⟩

end Resize

/-! ## Records of a fixed size -/

section Serialize

variable {rt : Runtime} {c : Call} {σ σ' : Ledger} {k : Pubkey} {s : PodState PodMint}

/-- The mint is written back at another size. -/
theorem refines_resized {s' : PodState PodMint} {m : View PodMint} (hwf : σ.Wf)
    (howner : (σ k).owner = Keys.tokenProgram) (hload : load σ PodMint k = .ok s)
    (hpacked : s'.Packed) (hswf : s'.Wf) (hview : s'.view = m)
    (hrewritten : RewrittenMint c s.view m)
    (hσ' : σ' = σ.set k { σ k with data := s'.bytes }) : Refines rt c σ σ' := by
  obtain ⟨_, hvalid⟩ := hwf.load howner hload
  subst hσ' hview
  obtain ⟨hwf', hbook⟩ := set_resized hwf howner hload (unpack_eq_ok.mpr ⟨rfl, hpacked⟩) hswf
    (hrewritten.valid hvalid)
  exact ⟨hwf', hbook ▸ .single (hrewritten.move _ (contents_of_load howner hload))⟩

/-- Two writes to one account. -/
theorem store_set {d : Bytes} {s' : PodState PodMint}
    (h : store (σ.set k { σ k with data := d }) k s' = .ok σ') :
    σ' = σ.set k { σ k with data := s'.bytes } := by
  obtain ⟨_, rfl⟩ := store_eq_ok.mp h
  rw [Ledger.set_same, Ledger.set_set]

/-- `k` holds a mint of the program, with room for records. -/
structure RecordMint (σ : Ledger) (k : Pubkey) (s : PodState PodMint) (u : ExtensionType) :
    Prop where
  owner : (σ k).owner = Keys.tokenProgram
  load : load σ PodMint k = .ok s
  extended : (s.view.ext u).isSome = true

/-- What `alloc_and_serialize` leaves, exactly. -/
theorem allocAndSerialize_book {V : Type} [Pod V] [Extension V] [SizedExtension V] {x : V}
    {u : ExtensionType} (hwf : σ.Wf) (hm : RecordMint σ k s u)
    (ht : (Extension.type V).isRecord = true)
    (h : allocAndSerialize PodMint σ k x false = .ok σ') :
    s.view.ext (Extension.type V) = none ∧ σ'.Wf ∧
      ∃ n, σ'.book = σ.book.set k ⟨(σ.book k).lamports, n, .mint (s.view.set x)⟩ := by
  have hp := packed_of_load hm.load
  have hat := accountType_of_ext hp hm.extended
  obtain ⟨hswf, hvalid⟩ := hwf.load hm.owner hm.load
  have hvalid' : (s.view.set x).ValidDefault := by
    refine validDefault_set_of_ne ?_ hvalid
    intro he
    rw [← he] at ht
    cases ht
  simp only [allocAndSerialize, bind_eq_ok] at h
  obtain ⟨s₀, hload, n, _, h⟩ := h
  obtain rfl := Except.ok.inj (hm.load.symm.trans hload)
  have hlong : ¬ (σ k).data.length ≤ accountLen := by
    rw [data_of_load hload, length_bytes_of_accountType hat]
    omega
  obtain ⟨σ₁, hresize, s₁, hs₁, s₂, hinit, hstore⟩ : ∃ σ₁ : Ledger,
      ((σ k).data.length < n ∧ σ.resize k n = .ok σ₁ ∨ σ₁ = σ) ∧
        ∃ s₁, unpack PodMint (σ₁ k).data = .ok s₁ ∧
        ∃ s₂, s₁.initExtension x false = .ok s₂ ∧ store σ₁ k s₂ = .ok σ' := by
    split at h
    · rename_i hlt
      simp only [ok_bind, bind_eq_ok] at h
      obtain ⟨σ₁, hresize, h⟩ := h
      exact ⟨σ₁, .inl ⟨hlt, hresize⟩, h⟩
    · simp only [ok_bind, bind_eq_ok] at h
      exact ⟨σ, .inr rfl, h⟩
  rcases hresize with ⟨hlt, hresize⟩ | rfl
  · obtain ⟨_, hσ₁⟩ := resize_grow hat hload hlt hresize
    rw [hσ₁, Ledger.set_same] at hs₁
    obtain rfl := unpack_grown hp hat hs₁
    obtain ⟨hgwf, hview⟩ := PodState.wf_grown hswf (n - s.bytes.length)
    obtain ⟨hst, hnone⟩ := PodState.initExtension_ok hgwf hinit
    rw [hview] at hst hnone
    have hpacked := hst.packed (unpack_eq_ok.mp hs₁).2 hp.initialized
    obtain ⟨hwf', hbook⟩ := set_resized hwf hm.owner hload (unpack_eq_ok.mpr ⟨rfl, hpacked⟩)
      hst.wf (hst.view ▸ hvalid')
    obtain rfl := store_set (hσ₁ ▸ hstore)
    rw [hst.view] at hbook
    exact ⟨hnone rfl, hwf', _, hbook⟩
  · obtain rfl := Except.ok.inj (hload.symm.trans hs₁)
    obtain ⟨hst, hnone⟩ := PodState.initExtension_ok hswf hinit
    have hw := store_held hwf hm.owner hload hst hp.initialized hvalid' hstore
    exact ⟨hnone rfl, hw.wf, _, hw.book.trans (Book.put_eq_set ..)⟩

theorem allocAndSerialize_refines {V : Type} [Pod V] [Extension V] [SizedExtension V] {x : V}
    {u : ExtensionType} (hwf : σ.Wf) (hm : RecordMint σ k s u)
    (ht : (Extension.type V).isRecord = true)
    (hc : c.instruction.rewrites (Extension.type V) = true)
    (h : allocAndSerialize PodMint σ k x false = .ok σ') : Refines rt c σ σ' := by
  obtain ⟨_, hwf', n, hbook⟩ := allocAndSerialize_book hwf hm ht h
  have hrewritten : RewrittenMint c s.view (s.view.set x) := .setRecord ht (.inr hc) hm.extended
  exact ⟨hwf', hbook ▸ .single (hrewritten.move n (contents_of_load hm.owner hm.load))⟩

/-- The packed record, written to the range that was allocated. -/
theorem writeRange_ok {t : ExtensionType} {packed : Bytes} {s s' : PodState PodMint} {known : Bool}
    {b : TlvBuffer (BaseState.accountType PodMint)} (hb : b.bytes = s.tlvData)
    (ht : t ≠ .uninitialized) (hsized : t.sized = false)
    (h : writeRange s (if known then realloc t packed.length s.tlvData
      else alloc PodMint t packed.length false s.tlvData) packed = .ok s') :
    ∃ b' : TlvBuffer (BaseState.accountType PodMint), b'.bytes = s'.tlvData ∧
      b.Sets t packed b' ∧ s.Stored s' (s.view.setExt t packed) := by
  simp only [writeRange, bind_eq_ok, exists_unit, Prod.exists, pure_eq_ok] at h
  obtain ⟨i, j, hrange, _, rfl⟩ := h
  obtain ⟨tlv, hwrite⟩ : ∃ tlv, (if known then realloc t packed.length b.bytes
      else alloc PodMint t packed.length false b.bytes) = (.ok (i, j), tlv) := by
    rw [hb]
    exact ⟨_, Prod.ext hrange rfl⟩
  rw [← hb, hwrite]
  obtain ⟨b', hb', hsets, hlen⟩ : ∃ b' : TlvBuffer (BaseState.accountType PodMint),
      b'.bytes = splice tlv i packed ∧ b.Sets t packed b' ∧ b'.bytes.length = b.bytes.length := by
    cases known with
    | true =>
      obtain ⟨b', hb', hsets, hlen, _⟩ := TlvBuffer.exists_realloc hwrite ht hsized
      exact ⟨b', hb', hsets, hlen⟩
    | false =>
      obtain ⟨b', hb', hsets, hlen, _⟩ := TlvBuffer.exists_alloc hwrite
        (fun hs => by rw [hsized] at hs; cases hs)
      exact ⟨b', hb', hsets, hlen⟩
  refine ⟨b', hb', hsets, ⟨b', hb'⟩, PodState.view_eq_setExt hb hb' rfl hsets, rfl, ?_⟩
  rw [← hb, ← hlen, hb']

/-- The zeros behind the entries, cut. -/
theorem exists_take {a : AccountType} {b : TlvBuffer a} {n : Nat} (hused : b.usedLen ≤ n)
    (hn : n ≤ b.bytes.length) :
    ∃ b' : TlvBuffer a, b'.bytes = b.bytes.take n ∧ b'.get = b.get := by
  refine ⟨{ b with padding := n - b.usedLen }, ?_, rfl⟩
  rw [TlvBuffer.length_bytes] at hn
  unfold TlvBuffer.usedLen at hused ⊢
  rw [TlvBuffer.bytes, TlvBuffer.bytes, List.take_append, List.take_of_length_le hused,
    List.take_replicate, Nat.min_eq_left (by omega)]

/-- The mint written back first and cut afterwards. -/
theorem refines_cut {σ₁ : Ledger} {t u : ExtensionType} {packed : Bytes} {s' : PodState PodMint}
    {n : Nat} {b b' : TlvBuffer (BaseState.accountType PodMint)} (hwf : σ.Wf)
    (hload : load σ PodMint k = .ok s) (hu : (s.view.ext u).isSome = true)
    (ht : t = .tokenMetadata) (hb : b.bytes = s.tlvData)
    (hlen : tryGetNewAccountLenForExtensionLen PodMint t s.tlvData packed.length = .ok n)
    (hb' : b'.bytes = s'.tlvData) (hsets : b.Sets t packed b')
    (hst : s.Stored s' (s.view.setExt t packed)) (hstore : store σ k s' = .ok σ₁)
    (hlt : n < (σ k).data.length) (h : σ₁.resize k n = .ok σ') : Refines rt c σ σ' := by
  have hp := packed_of_load hload
  have hat := accountType_of_ext hp hu
  have hat' := hst.accountType.trans hat
  obtain ⟨hroom, hne⟩ := newAccountLen_ok hb hsets hlen
  obtain ⟨r, hr⟩ : ∃ r, n = accountLen + 1 + r := ⟨n - (accountLen + 1), by omega⟩
  obtain ⟨_, rfl⟩ := store_eq_ok.mp hstore
  obtain ⟨_, hwrite⟩ := resize_eq_ok.mp h
  obtain ⟨howner, rfl⟩ := writeData_eq_ok.mp hwrite
  have hlong : s'.bytes.length = (σ k).data.length := by
    rw [hst.length_bytes, data_of_load hload]
  rw [Ledger.set_same] at howner ⊢
  simp only [hlong, Nat.sub_eq_zero_of_le hlt.le, List.replicate_zero, List.append_nil,
    PodState.bytes_take hat' hr] at howner ⊢
  have hcut := congrArg List.length (PodState.bytes_take hat' hr)
  rw [List.length_take] at hcut
  have howner : (σ k).owner = Keys.tokenProgram := by
    refine howner.resolve_right fun he => ?_
    rw [he] at hcut
    omega
  have hfits := length_bytes_of_accountType hat'
  obtain ⟨b'', hb'', hget⟩ := exists_take (b := b') (n := r) (by omega) (by rw [hb']; omega)
  rw [hb'] at hb''
  have hview : (s'.cut r).view = s.view.setExt t packed := by
    rw [← hst.view]
    have hext : ∀ v, (s'.cut r).view.ext v = s'.view.ext v := by
      intro v
      rw [PodState.ext_view_eq (s := s'.cut r) hb'', PodState.ext_view_eq hb', hget]
    show (⟨s'.base, _⟩ : View PodMint) = ⟨s'.base, s'.view.ext⟩
    congr 1
    exact funext hext
  have hpacked : (s'.cut r).Packed := by
    refine ⟨.inr hat', ?_, by omega⟩
    show s'.base.isInitialized.toBool = true
    rw [hst.base_eq]
    exact hp.initialized
  exact refines_resized hwf howner hload hpacked ⟨b'', hb''⟩ hview
      (.setRecord (by rw [ht]; rfl) (.inl ht) hu)
    (Ledger.set_set ..)

/-- A foreign mint keeps its data and its size. -/
theorem foreign_store_resize {σ₁ : Ledger} {n : Nat} {s' : PodState PodMint}
    (howner : (σ k).owner ≠ Keys.tokenProgram) (hstore : store σ k s' = .ok σ₁)
    (h : σ₁.resize k n = .ok σ') : σ' = σ := by
  obtain rfl := store_foreign howner hstore
  obtain ⟨_, hwrite⟩ := resize_eq_ok.mp h
  obtain ⟨hok, rfl⟩ := writeData_eq_ok.mp hwrite
  rw [hok.resolve_left howner]
  exact Function.update_eq_self k σ₁

theorem allocAndSerializeVariableLenExtension_refines {t u : ExtensionType} {packed : Bytes}
    {overwrite : Bool} (hwf : σ.Wf) (hload : load σ PodMint k = .ok s)
    (hu : (s.view.ext u).isSome = true) (ht : t = .tokenMetadata) (hne : t ≠ .uninitialized)
    (hsized : t.sized = false)
    (h : allocAndSerializeVariableLenExtension PodMint σ k t packed overwrite = .ok σ') :
    Refines rt c σ σ' := by
  have hp := packed_of_load hload
  have hat := accountType_of_ext hp hu
  simp only [allocAndSerializeVariableLenExtension, bind_eq_ok, exists_unit] at h
  obtain ⟨s₀, hload₀, n, hlen, _, h⟩ := h
  obtain rfl := Except.ok.inj (hload.symm.trans hload₀)
  split at h
  · rename_i hlt
    have hlong : ¬ (σ k).data.length ≤ accountLen := by
      rw [data_of_load hload, length_bytes_of_accountType hat]
      omega
    simp only [hlong, decide_false, Bool.and_false, Bool.false_eq_true, if_false, ok_bind,
      bind_eq_ok] at h
    obtain ⟨σ₁, hresize, s₁, hs₁, s₂, hwrite, hstore⟩ := h
    obtain ⟨howner, hσ₁⟩ := resize_grow hat hload hlt hresize
    obtain ⟨hswf, _⟩ := hwf.load howner hload
    rw [hσ₁, Ledger.set_same] at hs₁
    obtain rfl := unpack_grown hp hat hs₁
    obtain ⟨⟨b, hb⟩, hview⟩ := PodState.wf_grown hswf (n - s.bytes.length)
    obtain ⟨_, _, _, hst⟩ := writeRange_ok hb hne hsized hwrite
    rw [hview] at hst
    exact refines_resized hwf howner hload (hst.packed (unpack_eq_ok.mp hs₁).2 hp.initialized)
      hst.wf hst.view (.setRecord (by rw [ht]; rfl) (.inl ht) hu) (store_set (hσ₁ ▸ hstore))
  · simp only [bind_eq_ok] at h
    obtain ⟨s', hwrite, σ₁, hstore, h⟩ := h
    by_cases howner : (σ k).owner = Keys.tokenProgram
    · obtain ⟨⟨b, hb⟩, _⟩ := hwf.load howner hload
      obtain ⟨b', hb', hsets, hst⟩ := writeRange_ok hb hne hsized hwrite
      split at h
      · exact refines_cut hwf hload hu ht hb hlen hb' hsets hst hstore (by omega) h
      · obtain rfl := pure_eq_ok.mp h
        exact refines_rewritten_mint hwf hload hstore fun _ =>
            ⟨_, hst, .setRecord (by rw [ht]; rfl) (.inl ht) hu⟩
    · split at h
      · obtain rfl := foreign_store_resize howner hstore h
        exact .refl hwf
      · obtain rfl := pure_eq_ok.mp h
        obtain rfl := store_foreign howner hstore
        exact .refl hwf

end Serialize

/-! ## Metadata -/

namespace Processor

variable {rt : Runtime} {c : Call} {σ σ' : Ledger} {accounts : List AccountInfo}

theorem checkRecordMint_ok {V : Type} [Pod V] [Extension V] {M : Pubkey}
    {authorityInfo : AccountInfo} {e : ProgramError}
    (h : checkRecordMint V σ M authorityInfo e = .ok ()) :
    ∃ s, RecordMint σ M s (Extension.type V) := by
  simp only [checkRecordMint, checkProgramAccount, bind_eq_ok, exists_unit, failIf_eq_ok,
    bne_eq_false_iff_eq, PodState.hasExtension_eq, Bool.not_eq_false'] at h
  obtain ⟨howner, s, hload, _, _, hsome⟩ := h
  obtain ⟨x, hget⟩ := Option.isSome_iff_exists.mp hsome
  exact ⟨s, howner, hload, View.ext_isSome_of_get hget⟩

namespace TokenMetadata

theorem processInitialize_refines {name symbol uri : String} (hwf : σ.Wf)
    (h : TokenMetadata.processInitialize rt accounts name symbol uri σ = .ok σ') :
    Refines rt c σ σ' := by
  unfold TokenMetadata.processInitialize at h
  split at h
  · simp only [bind_eq_ok, exists_unit, failIf_eq_ok, bne_eq_false_iff_eq] at h
    obtain ⟨hsame, hchecked, _, _, h⟩ := h
    obtain ⟨s, hm⟩ := checkRecordMint_ok hchecked
    rw [hsame] at h
    exact allocAndSerializeVariableLenExtension_refines hwf hm.load hm.extended rfl (by decide)
      rfl h
  · cases h

theorem rewrite_refines {change : Token.TokenMetadata → Result Token.TokenMetadata} (hwf : σ.Wf)
    (h : rewrite rt accounts change σ = .ok σ') : Refines rt c σ σ' := by
  unfold rewrite at h
  split at h
  · simp only [bind_eq_ok, exists_unit, okOr_eq_ok] at h
    obtain ⟨s, hload, bytes, hbytes, _, _, _, _, _, h⟩ := h
    have hsome : (s.view.ext .tokenMetadata).isSome = true :=
      Option.isSome_iff_exists.mpr ⟨bytes, toOption_eq_some.mpr hbytes⟩
    exact allocAndSerializeVariableLenExtension_refines hwf hload hsome rfl (by decide) rfl h
  · cases h

end TokenMetadata

/-! ## Groups -/

namespace TokenGroup

theorem updateGroup_ok {k : Pubkey} {info : AccountInfo} {g : Token.TokenGroup}
    {change : Token.TokenGroup → Result Token.TokenGroup} (hwf : σ.Wf)
    (hc : c.instruction.rewrites .tokenGroup = true)
    (h : updateGroup k info change σ = .ok (σ', g)) :
    Refines rt c σ σ' ∧ ∀ j, j ≠ k → σ' j = σ j := by
  simp only [updateGroup, bind_eq_ok, exists_unit, PodState.getExtension_eq_ok, pure_eq_ok,
    Prod.mk.injEq] at h
  obtain ⟨s, hload, g₀, hget, _, g₁, _, s', hset, σ₁, hstore, rfl, rfl⟩ := h
  constructor
  · exact refines_rewritten_mint hwf hload hstore fun hswf =>
      ⟨_, (PodState.setExtension_ok hswf hset).1,
          .setRecord rfl (.inr hc) (View.ext_isSome_of_get hget)⟩
  · intro j hj
    obtain ⟨_, rfl⟩ := store_eq_ok.mp hstore
    exact Ledger.set_of_ne _ _ hj

theorem processInitializeGroup_refines {k : OptionalNonZeroPubkey} {n : UInt64} (hwf : σ.Wf)
    (hc : c.instruction.rewrites .tokenGroup = true)
    (h : processInitializeGroup accounts k n σ = .ok σ') : Refines rt c σ σ' := by
  unfold processInitializeGroup at h
  split at h
  · simp only [bind_eq_ok, exists_unit, failIf_eq_ok, bne_eq_false_iff_eq] at h
    obtain ⟨hsame, hchecked, h⟩ := h
    obtain ⟨s, hm⟩ := checkRecordMint_ok hchecked
    rw [hsame] at h
    exact allocAndSerialize_refines hwf hm rfl hc h
  · cases h

theorem processUpdateGroupMaxSize_refines {n : UInt64} (hwf : σ.Wf)
    (hc : c.instruction.rewrites .tokenGroup = true)
    (h : processUpdateGroupMaxSize accounts n σ = .ok σ') : Refines rt c σ σ' := by
  unfold processUpdateGroupMaxSize at h
  split at h
  · simp only [bind_eq_ok, Prod.exists, pure_eq_ok] at h
    obtain ⟨σ₁, _, h, rfl⟩ := h
    exact (updateGroup_ok hwf hc h).1
  · cases h

theorem processUpdateGroupAuthority_refines {k : OptionalNonZeroPubkey} (hwf : σ.Wf)
    (hc : c.instruction.rewrites .tokenGroup = true)
    (h : processUpdateGroupAuthority accounts k σ = .ok σ') : Refines rt c σ σ' := by
  unfold processUpdateGroupAuthority at h
  split at h
  · simp only [bind_eq_ok, Prod.exists, pure_eq_ok] at h
    obtain ⟨σ₁, _, h, rfl⟩ := h
    exact (updateGroup_ok hwf hc h).1
  · cases h

theorem processInitializeMember_refines (hwf : σ.Wf)
    (hgroup : c.instruction.rewrites .tokenGroup = true)
    (hmember : c.instruction.rewrites .tokenGroupMember = true)
    (h : processInitializeMember accounts σ = .ok σ') : Refines rt c σ σ' := by
  unfold processInitializeMember at h
  split at h
  · simp only [bind_eq_ok, exists_unit, failIf_eq_ok, bne_eq_false_iff_eq, beq_eq_false_iff_ne,
      Prod.exists] at h
    obtain ⟨hsame, hchecked, hne, σ₁, g, hupdated, h⟩ := h
    obtain ⟨s, hm⟩ := checkRecordMint_ok hchecked
    obtain ⟨hrefines, hframe⟩ : Refines rt c σ σ₁ ∧ _ := updateGroup_ok hwf hgroup hupdated
    rw [hsame] at h hne
    have hcell := hframe _ hne
    have hm₁ : RecordMint σ₁ _ s _ :=
      ⟨by rw [hcell]; exact hm.owner, by rw [load, hcell]; exact hm.load, hm.extended⟩
    exact hrefines.trans (allocAndSerialize_refines hrefines.wf hm₁ rfl hmember h)
  · cases h

end TokenGroup

end Processor

end SolanaEasy.Token
