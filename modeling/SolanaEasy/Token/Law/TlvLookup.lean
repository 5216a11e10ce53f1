import SolanaEasy.Lib.Slice
import SolanaEasy.Token.TlvData

/-!
# TLV lookup — a search finds what a listing lists

`get_tlv_data_info` ends at a place without a type, `get_extension_indices` fails at one
without a header, and only the first knows the extension types. Where the first accepts a
buffer, both have walked the same entries: `Listed` holds them, with whatever bytes follow.

The loops of `Tlv` read through `slice`, which gives less where Rust panics, and they end
when their fuel does. `indicesLoop` and `dataInfoLoop` are the same loops with neither
convenience: a range outside the buffer, or a loop that goes on, gives no result.
-/

namespace SolanaEasy.Token

/-! ## Loops that may panic or go on -/

/-- `u16::from_le_bytes` of `&b[i..j]`, which panics on a range outside `b`. -/
def readU16? (b : Bytes) (i j : ℕ) : Option ℕ := (slice? b i j).map leNat

/-- The loop of `get_extension_indices::<V>`: `none` if it panics, or has not returned after
that many iterations. -/
def indicesLoop (t : ExtensionType) (tlvData : Bytes) (init : Bool) :
    ℕ → ℕ → Option (Result TlvIndices)
  | 0, _ => none
  | iterations + 1, startIndex =>
    if startIndex < tlvData.length then do
      let tlvIndices := getTlvIndices startIndex
      if tlvData.length < tlvIndices.valueStart then return .error .invalidAccountData
      let extensionType ← readU16? tlvData tlvIndices.typeStart tlvIndices.lengthStart
      if extensionType == t.toNat then return .ok tlvIndices
      else if extensionType == ExtensionType.uninitialized.toNat then
        if init then return .ok tlvIndices else return .error TokenError.extensionNotFound
      else
        let length ← readU16? tlvData tlvIndices.lengthStart tlvIndices.valueStart
        indicesLoop t tlvData init iterations (tlvIndices.valueStart + length)
    else return .error .invalidAccountData

/-- The loop of `get_tlv_data_info`, likewise. -/
def dataInfoLoop (tlvData : Bytes) : ℕ → ℕ → List ExtensionType → Option (Result TlvDataInfo)
  | 0, _, _ => none
  | iterations + 1, startIndex, extensionTypes =>
    if startIndex < tlvData.length then do
      let tlvIndices := getTlvIndices startIndex
      if tlvData.length < tlvIndices.lengthStart then
        return .ok ⟨extensionTypes, tlvIndices.typeStart⟩
      let read ← readU16? tlvData tlvIndices.typeStart tlvIndices.lengthStart
      match ExtensionType.ofNat? read with
      | none => return .error .invalidAccountData
      | some .uninitialized => return .ok ⟨extensionTypes, tlvIndices.typeStart⟩
      | some extensionType =>
        if tlvData.length < tlvIndices.valueStart then return .error .invalidAccountData
        let length ← readU16? tlvData tlvIndices.lengthStart tlvIndices.valueStart
        let valueEndIndex := tlvIndices.valueStart + length
        if valueEndIndex > tlvData.length then return .error .invalidAccountData
        dataInfoLoop tlvData iterations valueEndIndex (extensionTypes ++ [extensionType])
    else return .ok ⟨extensionTypes, startIndex⟩

theorem readU16?_eq_some {b : Bytes} {i j : ℕ} (hij : i ≤ j) (hj : j ≤ b.length) :
    readU16? b i j = some (readU16 b i j) := by
  rw [readU16?, slice?, if_pos ⟨hij, hj⟩, List.drop_take]
  rfl

section Loops

variable (tlv : Bytes)

theorem indicesLoop_succ (t : ExtensionType) (init : Bool) (n i : ℕ) :
    indicesLoop t tlv init (n + 1) i =
      if i < tlv.length then
        if tlv.length < i + 4 then some (.error .invalidAccountData)
        else (readU16? tlv i (i + 2)).bind fun type =>
          if type == t.toNat then some (.ok (getTlvIndices i))
          else if type == 0 then
            if init then some (.ok (getTlvIndices i))
            else some (.error TokenError.extensionNotFound)
          else (readU16? tlv (i + 2) (i + 4)).bind fun length =>
            indicesLoop t tlv init n (i + 4 + length)
      else some (.error .invalidAccountData) := rfl

theorem dataInfoLoop_succ (n i : ℕ) (ts : List ExtensionType) :
    dataInfoLoop tlv (n + 1) i ts =
      if i < tlv.length then
        if tlv.length < i + 2 then some (.ok ⟨ts, i⟩)
        else (readU16? tlv i (i + 2)).bind fun type =>
          match ExtensionType.ofNat? type with
          | none => some (.error .invalidAccountData)
          | some .uninitialized => some (.ok ⟨ts, i⟩)
          | some t =>
            if tlv.length < i + 4 then some (.error .invalidAccountData)
            else (readU16? tlv (i + 2) (i + 4)).bind fun length =>
              if i + 4 + length > tlv.length then some (.error .invalidAccountData)
              else dataInfoLoop tlv n (i + 4 + length) (ts ++ [t])
      else some (.ok ⟨ts, i⟩) := rfl

/-- One iteration for each header, and one to see the end, are enough. -/
theorem indicesLoop_eq (t : ExtensionType) (init : Bool) {n i : ℕ} (hn : tlv.length ≤ i + n) :
    indicesLoop t tlv init (n + 1) i = some (extensionIndicesFrom t tlv init (n + 1) i) := by
  induction n generalizing i with
  | zero => rw [indicesLoop_succ, extensionIndicesFrom_succ, if_neg (by omega), if_neg (by omega)]
  | succ n ih =>
    rw [indicesLoop_succ, extensionIndicesFrom_succ]
    by_cases hstart : i < tlv.length
    · rw [if_pos hstart, if_pos hstart]
      by_cases hvalue : tlv.length < i + 4
      · rw [if_pos hvalue, if_pos hvalue]
      · rw [if_neg hvalue, if_neg hvalue, readU16?_eq_some (by omega) (by omega),
          readU16?_eq_some (by omega) (by omega), Option.bind_some, Option.bind_some,
          ih (by omega)]
        simp only [apply_ite some]
    · rw [if_neg hstart, if_neg hstart]

theorem dataInfoLoop_eq {n i : ℕ} (ts : List ExtensionType) (hn : tlv.length ≤ i + n) :
    dataInfoLoop tlv (n + 1) i ts = some (tlvDataInfoFrom tlv (n + 1) i ts) := by
  induction n generalizing i ts with
  | zero => rw [dataInfoLoop_succ, tlvDataInfoFrom_succ, if_neg (by omega), if_neg (by omega)]
  | succ n ih =>
    rw [dataInfoLoop_succ, tlvDataInfoFrom_succ]
    by_cases hstart : i < tlv.length
    · rw [if_pos hstart, if_pos hstart]
      by_cases htype : tlv.length < i + 2
      · rw [if_pos htype, if_pos htype]
      · rw [if_neg htype, if_neg htype, readU16?_eq_some (by omega) (by omega),
          Option.bind_some]
        cases ExtensionType.ofNat? (readU16 tlv i (i + 2)) with
        | none => rfl
        | some t =>
          by_cases ht : t = .uninitialized
          · subst ht
            rfl
          · simp only []
            by_cases hvalue : tlv.length < i + 4
            · rw [if_pos hvalue, if_pos hvalue]
            · rw [if_neg hvalue, if_neg hvalue, readU16?_eq_some (by omega) (by omega),
                Option.bind_some]
              by_cases hend : i + 4 + readU16 tlv (i + 2) (i + 4) > tlv.length
              · rw [if_pos hend, if_pos hend]
              · rw [if_neg hend, if_neg hend]
                exact ih _ (by omega)
    · rw [if_neg hstart, if_neg hstart]

end Loops

/-! ## The entries of a buffer -/

/-- The entries of a buffer that `get_tlv_data_info` accepts with `info`. What follows them is
too short for a type, or has type zero. -/
structure Listed (tlv : Bytes) (info : TlvDataInfo) (es : List TlvEntry) : Prop where
  wf : ∀ e ∈ es, e.Wf
  types : info.extensionTypes = es.map (·.type)
  usedLen : info.usedLen = (entriesBytes es).length
  bytes : tlv = entriesBytes es ++ tlv.drop info.usedLen
  ends : tlv.length < info.usedLen + 2 ∨ readU16 tlv info.usedLen (info.usedLen + 2) = 0

/-- A walk from `i` to its end passes whole entries. -/
theorem exists_entries {tlv : Bytes} {fuel i : ℕ} {ts : List ExtensionType} {info : TlvDataInfo}
    (hfuel : tlv.length < i + fuel) (h : tlvDataInfoFrom tlv fuel i ts = .ok info) :
    ∃ es : List TlvEntry, (∀ e ∈ es, e.Wf) ∧ info.extensionTypes = ts ++ es.map (·.type) ∧
      info.usedLen = i + (entriesBytes es).length ∧
        tlv.drop i = entriesBytes es ++ tlv.drop info.usedLen ∧
          (tlv.length < info.usedLen + 2 ∨
            readU16 tlv info.usedLen (info.usedLen + 2) = 0) := by
  induction fuel generalizing i ts with
  | zero =>
    obtain rfl := Except.ok.inj h
    exact ⟨[], by simp, by simp, rfl, rfl, .inl (by simp only []; omega)⟩
  | succ fuel ih =>
    rcases tlvDataInfoFrom_cases h with ⟨rfl, hend⟩ | ⟨e, hwf, hdrop, hrest⟩
    · exact ⟨[], by simp, by simp, rfl, rfl, hend⟩
    · have hlen := e.length_bytes
      obtain ⟨es, hes, htypes, hused, hbytes, hend⟩ := ih (by omega) hrest
      refine ⟨e :: es, ?_, ?_, ?_, ?_, hend⟩
      · exact List.forall_mem_cons.mpr ⟨hwf, hes⟩
      · rw [htypes, List.map_cons, List.append_assoc, List.singleton_append]
      · rw [hused, entriesBytes_cons, List.length_append, Nat.add_assoc]
      · rw [hdrop, hbytes, entriesBytes_cons, List.append_assoc]

theorem exists_listed {tlv : Bytes} {info : TlvDataInfo} (h : getTlvDataInfo tlv = .ok info) :
    ∃ es, Listed tlv info es := by
  obtain ⟨es, hwf, htypes, hused, hbytes, hend⟩ := exists_entries (by omega) h
  exact ⟨es, hwf, htypes, by rw [hused, Nat.zero_add], hbytes, hend⟩

namespace Listed

variable {S : Type} [BaseState S] {tlv : Bytes} {info : TlvDataInfo} {es : List TlvEntry}
  {t : ExtensionType}

theorem usedLen_le (listed : Listed tlv info es) : info.usedLen ≤ tlv.length := by
  have hlen := congrArg List.length listed.bytes
  rw [List.length_append, List.length_drop, ← listed.usedLen] at hlen
  omega

theorem length_lt_fuel (listed : Listed tlv info es) : es.length < tlv.length + 1 := by
  have hfour := four_mul_length_le es
  have hle := listed.usedLen_le
  rw [listed.usedLen] at hle
  omega

/-- A type that the listing gives is found at its first entry. -/
theorem found (listed : Listed tlv info es)
    (hat : t.getAccountType = BaseState.accountType S) {pre post : List TlvEntry} {v : Bytes}
    (hes : es = pre ++ ⟨t, v⟩ :: post) (hpre : t ∉ pre.map (·.type)) :
    getExtensionRange S t tlv =
        .ok ((entriesBytes pre).length + 4, (entriesBytes pre).length + 4 + v.length) ∧
      (entriesBytes pre).length + 4 + v.length ≤ info.usedLen ∧
        slice tlv ((entriesBytes pre).length + 4) ((entriesBytes pre).length + 4 + v.length) =
          v := by
  have hwf : (⟨t, v⟩ : TlvEntry).Wf := listed.wf _ (by rw [hes]; simp)
  have hlt := listed.length_lt_fuel
  have hused := listed.usedLen
  have hle := listed.usedLen_le
  have hbytes : tlv.drop 0 = entriesBytes (pre ++ ⟨t, v⟩ :: post) ++ tlv.drop info.usedLen := by
    rw [← hes]
    exact listed.bytes
  have hix : getExtensionIndices t tlv false = .ok (getTlvIndices (entriesBytes pre).length) := by
    rw [hes, List.length_append] at hlt
    rw [getExtensionIndices, extensionIndicesFrom_split false
      (fun x hx => listed.wf x (by rw [hes]; exact List.mem_append_left _ hx)) rfl hpre
      (by omega) hbytes, Nat.zero_add]
  rw [entriesBytes_append, entriesBytes_cons, List.append_assoc, List.append_assoc] at hbytes
  have hdrop := drop_add_of_drop_eq hbytes
  rw [Nat.zero_add] at hdrop
  have hlen := readLength_of_drop_eq hwf.length_lt hdrop
  rw [hes, entriesBytes_append, entriesBytes_cons, List.length_append, List.length_append,
    TlvEntry.length_bytes] at hused
  have hvalue : (entriesBytes pre).length + 4 + v.length ≤ info.usedLen := by
    simp only [] at hused
    omega
  refine ⟨?_, hvalue, ?_⟩
  · simp only [getExtensionRange, hix, bind_eq_ok, failIf_eq_ok,
      bne_eq_false_iff_eq, pure_eq_ok, decide_eq_false_iff_not, Except.ok.injEq,
      exists_eq_left', exists_const, getTlvIndices, hlen, and_true]
    exact ⟨hat, by omega⟩
  · rw [TlvEntry.bytes, List.append_assoc, List.append_assoc] at hdrop
    have hval := drop_add_of_drop_eq (drop_add_of_drop_eq hdrop)
    rw [length_leBytes, length_leBytes, Nat.add_assoc] at hval
    exact slice_of_drop_eq hval

/-- A type that the listing does not give is not found. -/
theorem notFound (listed : Listed tlv info es)
    (hat : t.getAccountType = BaseState.accountType S) (hnot : t ∉ es.map (·.type)) :
    ∃ e, getExtensionRange S t tlv = .error e := by
  have hlt := listed.length_lt_fuel
  have hbytes : tlv.drop 0 = entriesBytes es ++ tlv.drop info.usedLen := listed.bytes
  obtain ⟨k, hk⟩ : ∃ k, tlv.length + 1 = k + 1 + es.length :=
    ⟨tlv.length - es.length, by omega⟩
  have hpast := extensionIndicesFrom_past false (k + 1) listed.wf hnot hbytes
  have hne := TlvData.type_ne_of_accountType hat
  obtain ⟨e, he⟩ := extensionIndicesFrom_stop (k + 1) hne listed.ends
  rw [Nat.zero_add, ← hk, ← getExtensionIndices, ← listed.usedLen, he] at hpast
  refine ⟨e, ?_⟩
  rw [getExtensionRange, hat, bne_self_eq_false, hpast]
  rfl

/-- The search gives the first entry of its type, or nothing. -/
theorem getExtensionBytes_eq_ok (listed : Listed tlv info es)
    (hat : t.getAccountType = BaseState.accountType S) {v : Bytes} :
    getExtensionBytes S t tlv = .ok v ↔ lookup es t = some v := by
  cases hget : lookup es t with
  | none =>
    obtain ⟨e, he⟩ := listed.notFound hat (lookup_eq_none.mp hget)
    rw [getExtensionBytes, he]
    constructor
    · rintro ⟨⟩
    · rintro ⟨⟩
  | some u =>
    obtain ⟨pre, post, hes, hpre⟩ := exists_split hget
    obtain ⟨hrange, _, hslice⟩ := listed.found hat hes hpre
    simp only [getExtensionBytes, hrange, bind_eq_ok, pure_eq_ok, Except.ok.injEq,
      exists_eq_left', hslice, Option.some.injEq]

end Listed

/-- Lookup agrees with enumeration on every buffer that the enumeration accepts, and on every
buffer both loops return, with all their reads in range. -/
theorem lookup_agrees_enumeration (S : Type) [BaseState S] (tlv : Bytes) :
    (∀ info, getTlvDataInfo tlv = .ok info → ∃ es, Listed tlv info es ∧
      ∀ t : ExtensionType, t.getAccountType = BaseState.accountType S →
        ((∃ v, getExtensionBytes S t tlv = .ok v) ↔ t ∈ info.extensionTypes) ∧
        ∀ v, getExtensionBytes S t tlv = .ok v → ∃ (pre post : List TlvEntry) (i j : ℕ),
          es = pre ++ ⟨t, v⟩ :: post ∧ t ∉ pre.map (·.type) ∧
            getExtensionRange S t tlv = .ok (i, j) ∧ slice tlv i j = v ∧
              i = (entriesBytes pre).length + 4 ∧ j = i + v.length ∧ j ≤ info.usedLen) ∧
    dataInfoLoop tlv (tlv.length + 1) 0 [] = some (getTlvDataInfo tlv) ∧
    ∀ (t : ExtensionType) (init : Bool),
      indicesLoop t tlv init (tlv.length + 1) 0 = some (getExtensionIndices t tlv init) ∧
      ∀ ix, getExtensionIndices t tlv init = .ok ix → ix.valueStart ≤ tlv.length := by
  refine ⟨?_, dataInfoLoop_eq tlv [] (by omega), ?_⟩
  · intro info hinfo
    obtain ⟨es, listed⟩ := exists_listed hinfo
    refine ⟨es, listed, ?_⟩
    intro t hat
    constructor
    · rw [listed.types, ← lookup_isSome, Option.isSome_iff_exists]
      exact exists_congr fun v => listed.getExtensionBytes_eq_ok hat
    · intro v hv
      obtain ⟨pre, post, hes, hpre⟩ := exists_split ((listed.getExtensionBytes_eq_ok hat).mp hv)
      obtain ⟨hrange, hle, hslice⟩ := listed.found hat hes hpre
      exact ⟨pre, post, _, _, hes, hpre, hrange, hslice, rfl, rfl, hle⟩
  · intro t init
    refine ⟨indicesLoop_eq tlv t init (by omega), ?_⟩
    intro ix hix
    obtain ⟨start, rfl, hroom, _⟩ := extensionIndicesFrom_found hix
    exact hroom

/-- One type twice, and a byte left over: the first value is found. -/
theorem lookup_agrees_enumeration_twice :
    ∃ v, getExtensionBytes PodMint .pausable [26, 0, 1, 0, 7, 26, 0, 1, 0, 9, 5] = .ok v := by
  obtain ⟨es, _, hlookup⟩ :=
    (lookup_agrees_enumeration PodMint [26, 0, 1, 0, 7, 26, 0, 1, 0, 9, 5]).1
      ⟨[.pausable, .pausable], 10⟩ (by decide +kernel)
  exact (hlookup .pausable rfl).1.mpr (by decide)

end SolanaEasy.Token
