import SolanaEasy.Token.Law.TlvMutators
import SolanaEasy.Token.Processor.TokenMetadata
import SolanaEasy.Token.Refine.Initialize

/-!
# Variable-length extensions — an account that follows the length of a value

Before a longer value is written the account grows, after a shorter one it is cut. Either
way the data ends behind the last entry, the base and the other entries stay as they
were, and the value can be read back.
-/

namespace SolanaEasy.Token

variable {S : Type} [BaseState S] {σ σ' : Ledger} {k : Pubkey} {s s' : PodState S}
  {t : ExtensionType} {packed : Bytes}

/-! ## The value -/

/-- The new value, in an entry that is given another length or in a new one. -/
theorem writeRange_inserts {d : TlvData} {known : Bool} (hs : s.tlvData = d.bytes)
    (hat : t.getAccountType = BaseState.accountType S)
    (h : writeRange s (if known then realloc t packed.length s.tlvData
      else alloc S t packed.length false s.tlvData) packed = .ok s') :
    ∃ d' : TlvData, s'.base = s.base ∧ s'.accountType = s.accountType ∧ s'.tlvData = d'.bytes ∧
      d.Inserts t packed d' ∧ d'.bytes.length = d.bytes.length := by
  simp only [writeRange, bind_eq_ok, exists_unit, Prod.exists, pure_eq_ok] at h
  obtain ⟨i, j, hrange, _, rfl⟩ := h
  cases known with
  | true =>
    rw [if_pos rfl, hs] at hrange
    have hre : realloc t packed.length d.bytes =
        (.ok (i, j), (realloc t packed.length d.bytes).2) := Prod.ext hrange rfl
    obtain ⟨pre, v, post, hes, hfits, hn, rfl, _, htlv⟩ :=
      TlvData.realloc_cases (TlvData.type_ne_of_accountType hat) hre
    obtain ⟨d', hes', hpad⟩ := TlvData.exists_replace hes hn (d.padding + v.length - packed.length)
    refine ⟨d', rfl, rfl, ?_, TlvData.inserts_of_replace hes hes', ?_⟩
    · rw [if_pos rfl, hs, htlv, TlvData.splice_entries (TlvData.length_resized v _).symm,
        TlvData.bytes, hes', hpad]
    · rw [TlvData.length_bytes, TlvData.length_bytes, TlvData.usedLen_of_split hes,
        TlvData.usedLen_of_split hes', hpad]
      omega
  | false =>
    rw [if_neg Bool.false_ne_true, hs] at hrange
    obtain ⟨_, d', hd', hins, hlen⟩ := TlvData.exists_insert (Prod.ext hrange rfl)
    exact ⟨d', rfl, rfl, by rw [if_neg Bool.false_ne_true, hs, hd'], hins, hlen⟩

/-- A value is only written where its kind belongs. -/
theorem accountType_of_writeRange {s₁ s₂ : PodState S} {known : Bool} {tlv : Bytes}
    (hknown : known = (toOption (getExtensionBytes S t s.tlvData)).isSome)
    (h : writeRange s₁ (if known then realloc t packed.length tlv
      else alloc S t packed.length false tlv) packed = .ok s₂) :
    t.getAccountType = BaseState.accountType S := by
  by_contra hat
  have hfalse : known = false := by
    rw [hknown, getExtensionBytes, getExtensionRange, bne_iff_ne.mpr hat]
    rfl
  simp only [writeRange, bind_eq_ok, Prod.exists] at h
  obtain ⟨i, j, hrange, _⟩ := h
  rw [hfalse, if_neg Bool.false_ne_true, alloc, if_pos (bne_iff_ne.mpr hat)] at hrange
  cases hrange

/-! ## The length of the account -/

theorem le_adjustLenForMultisig (n : ℕ) :
    n ≤ adjustLenForMultisig n ∧ adjustLenForMultisig n ≠ multisigLen := by
  unfold adjustLenForMultisig
  split
  · rename_i heq
    rw [beq_iff_eq] at heq
    exact ⟨by omega, by omega⟩
  · rename_i hne
    rw [beq_iff_eq] at hne
    exact ⟨Nat.le_refl n, hne⟩

/-- The length that is reserved is the length of what is written. -/
theorem newAccountLen_eq {d d' : TlvData} {n : ℕ}
    (hat : t.getAccountType = BaseState.accountType S) (hins : d.Inserts t packed d')
    (h : tryGetNewAccountLenForExtensionLen S t d.bytes packed.length = .ok n) :
    n = adjustLenForMultisig (d'.usedLen + (accountLen + 1)) := by
  have hget : toOption (getExtensionBytes S t d.bytes) = d.get t := by
    ext v
    rw [toOption_eq_some, TlvData.getExtensionBytes_eq_ok]
    exact and_iff_right hat
  have hused := hins.usedLen
  have hle : ((d.get t).map fun v => v.length + 4).getD 0 ≤ d.usedLen := by
    rw [d.usedLen_eq t]
    exact Nat.le_add_left _ _
  rw [tryGetNewAccountLenForExtensionLen, TlvData.getTlvDataInfo_bytes, hget] at h
  simp only [ok_bind, pure_eq_ok] at h
  have hentry : ((d.get t).map (addTypeAndLengthToLen ·.length)).getD 0 =
      ((d.get t).map fun v => v.length + 4).getD 0 := rfl
  rw [hentry, addTypeAndLengthToLen] at h
  rw [← h]
  congr 1
  omega

theorem tryGetAccountLen_eq {d : TlvData} (hs : s.tlvData = d.bytes) (hne : d.types ≠ []) :
    s.tryGetAccountLen = .ok (adjustLenForMultisig (d.usedLen + (accountLen + 1))) := by
  rw [PodState.tryGetAccountLen, hs, TlvData.getTlvDataInfo_bytes]
  simp only [ok_bind, List.isEmpty_iff, if_neg hne]
  rfl

/-! ## The account -/

/-- What a written value leaves in the account, which held `s` with the buffer `d`. -/
structure VariableLenWritten (σ : Ledger) (k : Pubkey) (s : PodState S) (d : TlvData)
    (t : ExtensionType) (packed : Bytes) (σ' : Ledger) : Prop where
  frame : ∀ j, j ≠ k → σ' j = σ j
  lamports : (σ' k).lamports = (σ k).lamports
  owner : (σ' k).owner = (σ k).owner
  state : ∃ (s' : PodState S) (d' : TlvData), load σ' S k = .ok s' ∧ s'.tlvData = d'.bytes ∧
    s'.base = s.base ∧ d.Inserts t packed d' ∧ getExtensionBytes S t s'.tlvData = .ok packed ∧
      s'.tryGetAccountLen = .ok (σ' k).data.length ∧ (σ' k).data.length ≠ multisigLen

/-- A state that was put into the account with the length that its content takes. -/
theorem variableLenWritten_of_set {d d' : TlvData} (hload : load σ S k = .ok s)
    (hat : t.getAccountType = BaseState.accountType S)
    (hbase : s'.base = s.base) (htype : s'.accountType = [(BaseState.accountType S).toU8])
    (hs' : s'.tlvData = d'.bytes) (hins : d.Inserts t packed d')
    (hlen : s'.bytes.length = adjustLenForMultisig (d'.usedLen + (accountLen + 1)))
    (hσ' : σ' = σ.set k { σ k with data := s'.bytes }) :
    VariableLenWritten σ k s d t packed σ' := by
  have hp := packed_of_load hload
  obtain ⟨_, hne⟩ := le_adjustLenForMultisig (d'.usedLen + (accountLen + 1))
  have hcell : σ' k = { σ k with data := s'.bytes } := by rw [hσ', Ledger.set_same]
  have hpacked : s'.Packed :=
    ⟨.inr htype, by rw [hbase]; exact hp.initialized, by rw [hlen]; exact hne⟩
  have hsome : d'.types ≠ [] := by
    intro he
    have hmem := TlvData.mem_types.mpr (Option.isSome_iff_exists.mpr ⟨packed, hins.get⟩)
    rw [he] at hmem
    cases hmem
  refine ⟨?_, by rw [hcell], by rw [hcell], s', d', ?_, hs', hbase, hins, ?_, ?_, ?_⟩
  · intro j hj
    rw [hσ', Ledger.set_of_ne _ _ hj]
  · rw [load, hcell]
    exact unpack_eq_ok.mpr ⟨rfl, hpacked⟩
  · rw [hs']
    exact TlvData.getExtensionBytes_eq_ok.mpr ⟨hat, hins.get⟩
  · rw [tryGetAccountLen_eq hs' hsome, hcell, hlen]
  · rw [hcell, hlen]
    exact hne

/-- The account grows before the value is written. -/
theorem written_after_growth {d : TlvData} {n : ℕ} {known : Bool} {σ₁ : Ledger} {data : Bytes}
    {s₁ s₂ : PodState S} (hload : load σ S k = .ok s) (hs : s.tlvData = d.bytes)
    (hknown : known = (toOption (getExtensionBytes S t s.tlvData)).isSome)
    (hnew : tryGetNewAccountLenForExtensionLen S t s.tlvData packed.length = .ok n)
    (hlt : (σ k).data.length < n) (hresize : σ.resize k n = .ok σ₁)
    (hdata : (if !known && decide ((σ k).data.length ≤ accountLen) then
      setAccountType S (σ₁ k).data else .ok (σ₁ k).data) = .ok data)
    (hs₁ : unpack S data = .ok s₁)
    (hwrite : writeRange s₁ (if known then realloc t packed.length s₁.tlvData
      else alloc S t packed.length false s₁.tlvData) packed = .ok s₂)
    (hstore : store σ₁ k s₂ = .ok σ') : VariableLenWritten σ k s d t packed σ' := by
  have hat := accountType_of_writeRange hknown hwrite
  have hp := packed_of_load hload
  have hbytes := data_of_load hload
  obtain ⟨_, hwritten⟩ := resize_eq_ok.mp hresize
  rw [List.take_of_length_le hlt.le, hbytes] at hwritten
  obtain ⟨_, rfl⟩ := writeData_eq_ok.mp hwritten
  rw [Ledger.set_same] at hdata
  obtain ⟨m, hm⟩ : ∃ m, m = n - s.bytes.length := ⟨_, rfl⟩
  rw [← hm] at hdata
  rw [hbytes] at hlt
  -- with and without a type byte before, the data are those of the grown state
  have hgrown : data = (s.grown m).bytes ∧ accountLen < m + s.bytes.length ∧
      m + s.bytes.length ≠ multisigLen := by
    by_cases hcond : (!known && decide ((σ k).data.length ≤ accountLen)) = true
    · rw [if_pos hcond] at hdata
      exact setAccountType_ok hp hdata
    · rw [if_neg hcond] at hdata
      have htyped : s.accountType = [(BaseState.accountType S).toU8] := by
        rcases hp.layout with ⟨htype, htlv⟩ | htype
        · exfalso
          apply hcond
          have hsize := BaseState.size_le (S := S)
          have hnone : known = false := by
            rw [hknown, Option.isSome_eq_false_iff, Option.isNone_iff_eq_none]
            cases hb : getExtensionBytes S t s.tlvData with
            | error e => rfl
            | ok v =>
              rw [htlv] at hb
              have hget := (TlvData.getExtensionBytes_eq_ok (d := TlvData.blank 0)).mp hb
              cases hget.2
          have hshort : (σ k).data.length ≤ accountLen := by
            rw [hbytes, s.length_bytes, htype]
            simpa using hsize
          simp [hnone, hshort]
        · exact htype
      obtain rfl := Except.ok.inj hdata
      rw [PodState.bytes_grown_of_accountType m htyped]
      have hlong := s.length_bytes
      rw [htyped] at hlong
      simp only [List.isEmpty_cons, Bool.false_eq_true, if_false, List.length_singleton] at hlong
      have hne := unpack_length_ne hs₁
      rw [List.length_append, List.length_replicate] at hne
      exact ⟨rfl, by omega, by omega⟩
  obtain ⟨rfl, hroom, hne⟩ := hgrown
  have hpacked := PodState.packed_grown hp hroom hne
  obtain rfl := Except.ok.inj ((unpack_eq_ok.mpr ⟨rfl, hpacked⟩).symm.trans hs₁)
  -- the entries of the grown buffer are those of the old one
  obtain ⟨extra, hextra⟩ : ∃ extra,
      (s.grown m).tlvData = s.tlvData ++ zeros extra := ⟨_, rfl⟩
  let wide : TlvData := { d with padding := d.padding + extra }
  have hwide : (s.grown m).tlvData = wide.bytes := by
    rw [hextra, hs]
    show entriesBytes d.entries ++ zeros d.padding ++ zeros extra =
      entriesBytes d.entries ++ zeros (d.padding + extra)
    rw [List.append_assoc, List.replicate_append_replicate]
  obtain ⟨d', hbase, htype, htlv, hins, hsame⟩ := writeRange_inserts hwide hat hwrite
  have hins : d.Inserts t packed d' := ⟨hins.types, hins.others, hins.get⟩
  have hn := newAccountLen_eq hat hins (hs ▸ hnew)
  refine variableLenWritten_of_set hload hat hbase htype htlv hins ?_ ?_
  · have hlen := PodState.length_bytes_grown hp hroom
    rw [PodState.length_bytes, hwide, ← hsame] at hlen
    rw [PodState.length_bytes, htype, htlv, ← hn]
    exact hlen.trans (by omega)
  · obtain ⟨_, rfl⟩ := store_eq_ok.mp hstore
    rw [Ledger.set_same, Ledger.set_set]

/-- A value that does not need more room is written first, and the account is cut behind it. -/
theorem written_before_cut {d : TlvData} {n : ℕ} {known : Bool} {σ₁ : Ledger}
    (hload : load σ S k = .ok s) (hs : s.tlvData = d.bytes)
    (hknown : known = (toOption (getExtensionBytes S t s.tlvData)).isSome)
    (hnew : tryGetNewAccountLenForExtensionLen S t s.tlvData packed.length = .ok n)
    (hle : n ≤ (σ k).data.length)
    (hwrite : writeRange s (if known then realloc t packed.length s.tlvData
      else alloc S t packed.length false s.tlvData) packed = .ok s')
    (hstore : store σ k s' = .ok σ₁)
    (hcut : (σ k).data.length = n ∧ σ' = σ₁ ∨ σ₁.resize k n = .ok σ') :
    VariableLenWritten σ k s d t packed σ' := by
  have hat := accountType_of_writeRange hknown hwrite
  have hp := packed_of_load hload
  have hbytes := data_of_load hload
  obtain ⟨d', hbase, htype, htlv, hins, hsame⟩ := writeRange_inserts hs hat hwrite
  have hn := newAccountLen_eq hat hins (hs ▸ hnew)
  obtain ⟨hfits, _⟩ := le_adjustLenForMultisig (d'.usedLen + (accountLen + 1))
  rw [← hn] at hfits
  have htyped : s'.accountType = [(BaseState.accountType S).toU8] := by
    rw [htype]
    rcases hp.layout with ⟨hnone, _⟩ | htyped
    · have hsize := BaseState.size_le (S := S)
      rw [hbytes, s.length_bytes, hnone] at hle
      simp only [List.isEmpty_nil, if_true] at hle
      omega
    · exact htyped
  have hlen : s'.bytes.length = (σ k).data.length := by
    rw [hbytes, PodState.length_bytes, PodState.length_bytes, htype, htlv, hs, hsame]
  obtain ⟨_, rfl⟩ := store_eq_ok.mp hstore
  rcases hcut with ⟨heq, rfl⟩ | hcut
  · exact variableLenWritten_of_set hload hat hbase htyped htlv hins
      (hlen.trans (heq.trans hn)) rfl
  · -- the entries end before the cut
    obtain ⟨r, hr⟩ : ∃ r, n = accountLen + 1 + r := ⟨n - (accountLen + 1), by omega⟩
    let short : TlvData := { d' with padding := r - d'.usedLen }
    have hroom : r ≤ d'.bytes.length := by
      rw [← hlen, PodState.length_bytes, htyped, htlv] at hle
      simp only [List.isEmpty_cons, Bool.false_eq_true, if_false, List.length_singleton] at hle
      omega
    have hshort : (s'.cut r).tlvData = short.bytes := by
      rw [TlvData.length_bytes] at hroom
      show s'.tlvData.take r = entriesBytes d'.entries ++ zeros (r - d'.usedLen)
      have hused : (entriesBytes d'.entries).length = d'.usedLen := rfl
      rw [htlv, TlvData.bytes, List.take_append, hused, List.take_of_length_le (by omega),
        List.take_replicate, Nat.min_eq_left (by omega)]
    have hins : d.Inserts t packed short := ⟨hins.types, hins.others, hins.get⟩
    refine variableLenWritten_of_set hload hat (show (s'.cut r).base = s.base from hbase) htyped
      hshort hins ?_ ?_
    · rw [← PodState.bytes_take htyped hr, List.length_take, hlen, Nat.min_eq_left hle]
      exact hn
    · obtain ⟨_, hresized⟩ := resize_eq_ok.mp hcut
      obtain ⟨_, rfl⟩ := writeData_eq_ok.mp hresized
      have hzero : n - s'.bytes.length = 0 := by omega
      simp only [Ledger.set_same, hzero, List.replicate_zero, List.append_nil, Ledger.set_set,
        PodState.bytes_take htyped hr]

/-- `alloc_and_serialize_variable_len_extension` writes one value and makes the account as long
as its content. -/
theorem allocAndSerializeVariableLen_written {d : TlvData} {overwrite : Bool}
    (hload : load σ S k = .ok s) (hs : s.tlvData = d.bytes)
    (h : allocAndSerializeVariableLenExtension S σ k t packed overwrite = .ok σ') :
    VariableLenWritten σ k s d t packed σ' := by
  simp only [allocAndSerializeVariableLenExtension, bind_eq_ok, exists_unit] at h
  obtain ⟨s₀, hload₀, n, hnew, _, h⟩ := h
  obtain rfl := Except.ok.inj (hload.symm.trans hload₀)
  split at h
  · rename_i hlt
    simp only [bind_eq_ok] at h
    obtain ⟨σ₁, hresize, h⟩ := h
    obtain ⟨data, hdata, s₁, hs₁, s₂, hwrite, hstore⟩ : ∃ data,
        (if !(toOption (getExtensionBytes S t s.tlvData)).isSome &&
            decide ((σ k).data.length ≤ accountLen) then
          setAccountType S (σ₁ k).data else .ok (σ₁ k).data) = .ok data ∧
        ∃ s₁, unpack S data = .ok s₁ ∧ ∃ s₂,
          writeRange s₁ (if (toOption (getExtensionBytes S t s.tlvData)).isSome then
              realloc t packed.length s₁.tlvData
            else alloc S t packed.length false s₁.tlvData) packed = .ok s₂ ∧
          store σ₁ k s₂ = .ok σ' := by
      split at h
      · rename_i hcond
        simp only [bind_eq_ok] at h
        obtain ⟨data, hdata, h⟩ := h
        exact ⟨data, by rw [if_pos hcond]; exact hdata, h⟩
      · rename_i hcond
        simp only [ok_bind, bind_eq_ok] at h
        exact ⟨_, by rw [if_neg hcond], h⟩
    exact written_after_growth hload hs rfl hnew hlt hresize hdata hs₁ hwrite hstore
  · rename_i hge
    simp only [bind_eq_ok] at h
    obtain ⟨s', hwrite, σ₁, hstore, h⟩ := h
    refine written_before_cut hload hs rfl hnew (by omega) hwrite hstore ?_
    split at h
    · exact .inr h
    · rename_i hnone
      exact .inl ⟨by omega, (pure_eq_ok.mp h).symm⟩

theorem resize_frame {n : ℕ} (h : σ.resize k n = .ok σ') : ∀ j, j ≠ k → σ' j = σ j := by
  intro j hj
  obtain ⟨_, h⟩ := resize_eq_ok.mp h
  obtain ⟨_, rfl⟩ := writeData_eq_ok.mp h
  rw [Ledger.set_of_ne _ _ hj]

theorem store_frame (h : store σ k s = .ok σ') : ∀ j, j ≠ k → σ' j = σ j := by
  intro j hj
  obtain ⟨_, rfl⟩ := store_eq_ok.mp h
  rw [Ledger.set_of_ne _ _ hj]

/-- Whatever is in the account, no other one is written. -/
theorem allocAndSerializeVariableLen_frame {overwrite : Bool}
    (h : allocAndSerializeVariableLenExtension S σ k t packed overwrite = .ok σ') :
    ∀ j, j ≠ k → σ' j = σ j := by
  intro j hj
  simp only [allocAndSerializeVariableLenExtension, bind_eq_ok] at h
  obtain ⟨_, _, n, _, _, _, h⟩ := h
  split at h
  · simp only [bind_eq_ok] at h
    obtain ⟨σ₁, hresize, h⟩ := h
    obtain ⟨s₂, hstore⟩ : ∃ s₂ : PodState S, store σ₁ k s₂ = .ok σ' := by
      split at h
      · simp only [bind_eq_ok] at h
        obtain ⟨_, _, _, _, s₂, _, hstore⟩ := h
        exact ⟨s₂, hstore⟩
      · simp only [ok_bind, bind_eq_ok] at h
        obtain ⟨_, _, s₂, _, hstore⟩ := h
        exact ⟨s₂, hstore⟩
    rw [store_frame hstore j hj, resize_frame hresize j hj]
  · simp only [bind_eq_ok] at h
    obtain ⟨_, _, σ₁, hstore, h⟩ := h
    split at h
    · rw [resize_frame h j hj, store_frame hstore j hj]
    · obtain rfl := pure_eq_ok.mp h
      exact store_frame hstore j hj

/-! ## Metadata -/

/-- One of the four instructions that write metadata. -/
inductive MetadataStep (rt : Runtime) (σ σ' : Ledger) : Prop where
  | initializeMetadata (accounts : List AccountInfo) (name symbol uri : String)
      (h : Processor.TokenMetadata.processInitialize rt accounts name symbol uri σ = .ok σ')
  | updateField (accounts : List AccountInfo) (field : Processor.TokenMetadata.Field)
      (value : String)
      (h : Processor.TokenMetadata.processUpdateField rt accounts field value σ = .ok σ')
  | removeKey (accounts : List AccountInfo) (key : String) (idempotent : Bool)
      (h : Processor.TokenMetadata.processRemoveKey rt accounts key idempotent σ = .ok σ')
  | updateAuthority (accounts : List AccountInfo) (newAuthority : OptionalNonZeroPubkey)
      (h : Processor.TokenMetadata.processUpdateAuthority rt accounts newAuthority σ = .ok σ')

/-- In the account `k` nothing but a metadata entry has changed. -/
structure OnlyMetadata (σ σ' : Ledger) (k : Pubkey) : Prop where
  other : (∀ s : PodState PodMint, load σ PodMint k ≠ .ok s) → σ' k = σ k
  mint : ∀ (s : PodState PodMint) (d : TlvData), load σ PodMint k = .ok s → s.tlvData = d.bytes →
    (σ' k).lamports = (σ k).lamports ∧ (σ' k).owner = (σ k).owner ∧
      ∃ (s' : PodState PodMint) (d' : TlvData), load σ' PodMint k = .ok s' ∧
        s'.tlvData = d'.bytes ∧ s'.base = s.base ∧
          d'.others .tokenMetadata = d.others .tokenMetadata

namespace OnlyMetadata

theorem of_eq (h : σ' k = σ k) : OnlyMetadata σ σ' k where
  other _ := h
  mint s d hload hs := by
    refine ⟨by rw [h], by rw [h], s, d, ?_, hs, rfl, rfl⟩
    rw [load, h]
    exact hload

theorem trans {σ₁ : Ledger} (h : OnlyMetadata σ σ₁ k) (h' : OnlyMetadata σ₁ σ' k) :
    OnlyMetadata σ σ' k where
  other hnone := by
    have heq := h.other hnone
    refine (h'.other fun s hload => ?_).trans heq
    rw [load, heq] at hload
    exact hnone s hload
  mint s d hload hs := by
    obtain ⟨hlamports, howner, s₁, d₁, hload₁, hs₁, hbase, hothers⟩ := h.mint s d hload hs
    obtain ⟨hlamports', howner', s', d', hload', hs', hbase', hothers'⟩ :=
      h'.mint s₁ d₁ hload₁ hs₁
    exact ⟨hlamports'.trans hlamports, howner'.trans howner, s', d', hload', hs',
      hbase'.trans hbase, hothers'.trans hothers⟩

end OnlyMetadata

theorem writes_of_rewrite {rt : Runtime} {accounts : List AccountInfo}
    {change : TokenMetadata → Result TokenMetadata}
    (h : Processor.TokenMetadata.rewrite rt accounts change σ = .ok σ') :
    ∃ j s packed overwrite, load σ PodMint j = .ok s ∧
      allocAndSerializeVariableLenExtension PodMint σ j .tokenMetadata packed overwrite =
        .ok σ' := by
  unfold Processor.TokenMetadata.rewrite at h
  split at h
  · simp only [bind_eq_ok] at h
    obtain ⟨s, hload, _, _, _, _, _, _, _, _, h⟩ := h
    exact ⟨_, s, _, true, hload, h⟩
  · cases h

/-- All four end in a write of metadata to a mint. -/
theorem MetadataStep.writes {rt : Runtime} (h : MetadataStep rt σ σ') :
    ∃ j s packed overwrite, load σ PodMint j = .ok s ∧
      allocAndSerializeVariableLenExtension PodMint σ j .tokenMetadata packed overwrite =
        .ok σ' := by
  cases h with
  | initializeMetadata accounts name symbol uri h =>
    unfold Processor.TokenMetadata.processInitialize at h
    split at h
    · simp only [bind_eq_ok, exists_unit, failIf_eq_ok, bne_eq_false_iff_eq,
        Processor.checkRecordMint] at h
      obtain ⟨hsame, ⟨_, s, hload, _⟩, _, _, h⟩ := h
      rw [hsame] at h
      exact ⟨_, s, _, _, hload, h⟩
    · cases h
  | updateField accounts field value h => exact writes_of_rewrite h
  | removeKey accounts key idempotent h => exact writes_of_rewrite h
  | updateAuthority accounts newAuthority h => exact writes_of_rewrite h

theorem MetadataStep.only {rt : Runtime} (h : MetadataStep rt σ σ') (k : Pubkey) :
    OnlyMetadata σ σ' k := by
  obtain ⟨j, s, packed, overwrite, hload, hwrite⟩ := h.writes
  by_cases hk : k = j
  · subst hk
    refine ⟨fun hnone => absurd hload (hnone s), ?_⟩
    intro s₀ d hload₀ hs
    obtain ⟨_, hlamports, howner, s', d', hload', hs', hbase, hins, _⟩ :=
      allocAndSerializeVariableLen_written hload₀ hs hwrite
    exact ⟨hlamports, howner, s', d', hload', hs', hbase, hins.others⟩
  · exact .of_eq (allocAndSerializeVariableLen_frame hwrite k hk)

theorem onlyMetadata_of_run {rt : Runtime} (h : Relation.ReflTransGen (MetadataStep rt) σ σ')
    (k : Pubkey) : OnlyMetadata σ σ' k := by
  induction h with
  | refl => exact .of_eq rfl
  | tail _ hstep ih => exact ih.trans (hstep.only k)

/-- An update of a variable-length extension is exact, and instructions that write metadata
change nothing else. -/
theorem variable_len_update_exact :
    (∀ (S : Type) [BaseState S] (σ σ' : Ledger) (k : Pubkey) (t : ExtensionType)
      (packed : Bytes) (overwrite : Bool) (s : PodState S) (d : TlvData),
      load σ S k = .ok s → s.tlvData = d.bytes →
      allocAndSerializeVariableLenExtension S σ k t packed overwrite = .ok σ' →
        VariableLenWritten σ k s d t packed σ') ∧
    ∀ (rt : Runtime) (σ σ' : Ledger), Relation.ReflTransGen (MetadataStep rt) σ σ' →
      ∀ k, OnlyMetadata σ σ' k :=
  ⟨fun _ _ _ _ _ _ _ _ _ _ hload hs h => allocAndSerializeVariableLen_written hload hs h,
    fun _ _ _ h k => onlyMetadata_of_run h k⟩

/-- A mint without extensions, which has no type byte yet. -/
def bareMint : Ledger := fun _ => ⟨1000, Keys.tokenProgram, zeros 45 ++ 1 :: zeros 36⟩

theorem variable_len_update_exact_first_write : ∃ σ', (σ' 7).data.length = 173 ∧
    VariableLenWritten bareMint 7 ⟨(Pod.ofBytes (bareMint 7).data : PodMint), [], []⟩
      (TlvData.blank 0) .tokenMetadata [1, 2, 3] σ' := by
  obtain ⟨σ', h, hlen⟩ := Option.any_eq_true .. |>.mp
    (show (toOption (allocAndSerializeVariableLenExtension PodMint bareMint 7 .tokenMetadata
      [1, 2, 3] false)).any (fun σ' => (σ' 7).data.length == 173) = true by decide +kernel)
  have hunpack : unpack PodMint (bareMint 7).data = .ok ⟨Pod.ofBytes (bareMint 7).data, [], []⟩ :=
    unpack_eq_ok.mpr ⟨by decide +kernel, .inl ⟨rfl, rfl⟩, by decide +kernel, by decide +kernel⟩
  exact ⟨σ', by simpa using hlen, variable_len_update_exact.1 PodMint bareMint σ' 7 _ _ false _ _
    hunpack rfl (toOption_eq_some.mp h)⟩

end SolanaEasy.Token
