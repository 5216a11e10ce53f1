import SolanaEasy.Token.StateWithExtensions

/-!
# TLV entries — what the scanning loops find

A buffer that the program has written is a list of entries followed by zeros. The
loops of `Tlv` are run here on such a buffer: they list its entries, they find the
entry of a type, and what they write is again the buffer of a list of entries.
-/

namespace SolanaEasy.Token

structure TlvEntry where
  type : ExtensionType
  value : Bytes

/-- An entry the program can have written. -/
structure TlvEntry.Wf (e : TlvEntry) : Prop where
  type_ne : e.type ≠ .uninitialized
  length_lt : e.value.length < 2 ^ 16

def TlvEntry.bytes (e : TlvEntry) : Bytes :=
  leBytes 2 e.type.toNat ++ leBytes 2 e.value.length ++ e.value

def entriesBytes (es : List TlvEntry) : Bytes := es.flatMap TlvEntry.bytes

/-- The value of the first entry of a type. -/
def lookup (es : List TlvEntry) (t : ExtensionType) : Option Bytes :=
  (es.find? fun e => e.type == t).map (·.value)

@[simp] theorem TlvEntry.length_bytes (e : TlvEntry) : e.bytes.length = 4 + e.value.length := by
  simp [TlvEntry.bytes]
  omega

@[simp] theorem entriesBytes_nil : entriesBytes [] = [] := rfl

@[simp] theorem entriesBytes_cons (e : TlvEntry) (es : List TlvEntry) :
    entriesBytes (e :: es) = e.bytes ++ entriesBytes es := rfl

@[simp] theorem entriesBytes_append (es fs : List TlvEntry) :
    entriesBytes (es ++ fs) = entriesBytes es ++ entriesBytes fs := List.flatMap_append

theorem four_mul_length_le (es : List TlvEntry) : 4 * es.length ≤ (entriesBytes es).length := by
  induction es with
  | nil => simp
  | cons e es ih =>
    simp only [entriesBytes_cons, List.length_append, TlvEntry.length_bytes, List.length_cons]
    omega

/-! ## Lookup -/

@[simp] theorem lookup_nil (t : ExtensionType) : lookup [] t = none := rfl

theorem lookup_cons (e : TlvEntry) (es : List TlvEntry) (t : ExtensionType) :
    lookup (e :: es) t = if e.type = t then some e.value else lookup es t := by
  unfold lookup
  by_cases h : e.type = t
  · simp [h]
  · simp [h, beq_eq_false_iff_ne.mpr h]

theorem lookup_eq_none {es : List TlvEntry} {t : ExtensionType} :
    lookup es t = none ↔ t ∉ es.map (·.type) := by
  induction es with
  | nil => simp
  | cons e es ih =>
    rw [lookup_cons, List.map_cons, List.mem_cons, not_or, ← ih]
    by_cases h : e.type = t
    · simp [h]
    · simp [h, Ne.symm h]

theorem lookup_isSome {es : List TlvEntry} {t : ExtensionType} :
    (lookup es t).isSome = true ↔ t ∈ es.map (·.type) := by
  rw [← not_iff_not, ← lookup_eq_none, Bool.not_eq_true, Option.isSome_eq_false_iff,
    Option.isNone_iff_eq_none]

/-- The first entry of a type, with what stands before and after it. -/
theorem exists_split {es : List TlvEntry} {t : ExtensionType} {v : Bytes}
    (h : lookup es t = some v) :
    ∃ pre post, es = pre ++ ⟨t, v⟩ :: post ∧ t ∉ pre.map (·.type) := by
  induction es with
  | nil => simp at h
  | cons e es ih =>
    rw [lookup_cons] at h
    by_cases he : e.type = t
    · rw [if_pos he, Option.some.injEq] at h
      exact ⟨[], es, by rw [← h, ← he]; rfl, by simp⟩
    · rw [if_neg he] at h
      obtain ⟨pre, post, rfl, hpre⟩ := ih h
      refine ⟨e :: pre, post, rfl, ?_⟩
      rw [List.map_cons, List.mem_cons, not_or]
      exact ⟨fun h => he h.symm, hpre⟩

theorem lookup_split {pre post : List TlvEntry} {t : ExtensionType} {v : Bytes}
    (hpre : t ∉ pre.map (·.type)) (s : ExtensionType) :
    lookup (pre ++ ⟨t, v⟩ :: post) s = if s = t then some v else lookup (pre ++ post) s := by
  induction pre with
  | nil =>
    rw [List.nil_append, lookup_cons]
    simp only [eq_comm (a := s), List.nil_append]
  | cons e pre ih =>
    rw [List.map_cons, List.mem_cons, not_or] at hpre
    rw [List.cons_append, lookup_cons, ih hpre.2, List.cons_append, lookup_cons]
    by_cases he : e.type = s
    · have hs : s ≠ t := fun h => hpre.1 (h.symm.trans he.symm)
      rw [if_pos he, if_neg hs, if_pos he]
    · rw [if_neg he, if_neg he]

/-! ## Reading at an offset -/

theorem drop_add_of_drop_eq {b x rest : Bytes} {i : Nat} (h : b.drop i = x ++ rest) :
    b.drop (i + x.length) = rest := by
  rw [← List.drop_drop, h, List.drop_left]

theorem slice_of_drop_eq {b x rest : Bytes} {i : Nat} (h : b.drop i = x ++ rest) :
    slice b i (i + x.length) = x := by
  rw [slice, h, Nat.add_sub_cancel_left, List.take_left]

theorem lt_length_of_drop_eq {b x rest : Bytes} {i : Nat} (h : b.drop i = x ++ rest)
    (hx : 0 < x.length) : i + x.length + rest.length = b.length := by
  have hlen := congrArg List.length h
  rw [List.length_drop, List.length_append] at hlen
  omega

theorem readU16_of_drop_eq {b rest : Bytes} {i n : Nat} (hn : n < 2 ^ 16)
    (h : b.drop i = leBytes 2 n ++ rest) : readU16 b i (i + 2) = n := by
  have hs := slice_of_drop_eq h
  rw [length_leBytes] at hs
  rw [readU16, hs, leNat_leBytes (by simpa using hn)]

theorem length_slice {b : Bytes} {i n : Nat} (h : i + n ≤ b.length) :
    (slice b i (i + n)).length = n := by
  rw [slice, List.length_take, List.length_drop]
  omega

theorem drop_eq_slice_append (b : Bytes) (i n : Nat) :
    b.drop i = slice b i (i + n) ++ b.drop (i + n) := by
  rw [slice, Nat.add_sub_cancel_left, ← List.drop_drop, List.take_append_drop]

theorem leBytes_readU16 {b : Bytes} {i : Nat} (h : i + 2 ≤ b.length) :
    leBytes 2 (readU16 b i (i + 2)) = slice b i (i + 2) := by
  have hbytes := leBytes_leNat (slice b i (i + 2))
  rwa [length_slice h] at hbytes

theorem readU16_lt {b : Bytes} {i : Nat} (h : i + 2 ≤ b.length) :
    readU16 b i (i + 2) < 2 ^ 16 := by
  have hlt := leNat_lt (slice b i (i + 2))
  rwa [length_slice h] at hlt

section Scan

variable {tlv rest : Bytes} {e : TlvEntry} {i : Nat}

theorem readType_of_drop_eq (h : tlv.drop i = e.bytes ++ rest) :
    readU16 tlv i (i + 2) = e.type.toNat := by
  rw [TlvEntry.bytes, List.append_assoc, List.append_assoc] at h
  exact readU16_of_drop_eq (by have := e.type.toNat_lt; omega) h

theorem readLength_of_drop_eq (hlen : e.value.length < 2 ^ 16) (h : tlv.drop i = e.bytes ++ rest) :
    readU16 tlv (i + 2) (i + 4) = e.value.length := by
  rw [TlvEntry.bytes, List.append_assoc, List.append_assoc] at h
  have h' := drop_add_of_drop_eq h
  rw [length_leBytes] at h'
  exact readU16_of_drop_eq hlen h'

theorem readU16_zeros {p : Nat} (hp : 2 ≤ p) (h : tlv.drop i = zeros p) :
    readU16 tlv i (i + 2) = 0 := by
  have hsplit : zeros p = leBytes 2 0 ++ zeros (p - 2) := by
    rw [leBytes_zero, List.replicate_append_replicate]
    congr 1
    omega
  exact readU16_of_drop_eq (by norm_num) (h.trans hsplit)

/-! ## The loop of `get_extension_indices` -/

theorem extensionIndicesFrom_succ (t : ExtensionType) (tlv : Bytes) (init : Bool) (fuel i : Nat) :
    extensionIndicesFrom t tlv init (fuel + 1) i =
      if i < tlv.length then
        if tlv.length < i + 4 then .error .invalidAccountData
        else if readU16 tlv i (i + 2) == t.toNat then .ok (getTlvIndices i)
        else if readU16 tlv i (i + 2) == 0 then
          if init then .ok (getTlvIndices i) else .error TokenError.extensionNotFound
        else extensionIndicesFrom t tlv init fuel (i + 4 + readU16 tlv (i + 2) (i + 4))
      else .error .invalidAccountData := rfl

theorem extensionIndicesFrom_skip {t : ExtensionType} (init : Bool) (fuel : Nat) (he : e.Wf)
    (hne : e.type ≠ t) (h : tlv.drop i = e.bytes ++ rest) :
    extensionIndicesFrom t tlv init (fuel + 1) i =
      extensionIndicesFrom t tlv init fuel (i + e.bytes.length) := by
  have hlen := lt_length_of_drop_eq h (by rw [TlvEntry.length_bytes]; omega)
  rw [TlvEntry.length_bytes] at hlen
  have hne' : e.type.toNat ≠ t.toNat := fun h => hne (ExtensionType.toNat_injective h)
  have hzero : e.type.toNat ≠ 0 := fun h => he.type_ne (ExtensionType.toNat_eq_zero.mp h)
  rw [extensionIndicesFrom_succ, readType_of_drop_eq h, readLength_of_drop_eq he.length_lt h,
    if_pos (by omega), if_neg (by omega), if_neg (by simpa using hne'),
    if_neg (by simpa using hzero), TlvEntry.length_bytes, Nat.add_assoc]

theorem extensionIndicesFrom_hit {t : ExtensionType} {init : Bool} {fuel : Nat}
    (he : e.type = t) (h : tlv.drop i = e.bytes ++ rest) :
    extensionIndicesFrom t tlv init (fuel + 1) i = .ok (getTlvIndices i) := by
  have hlen := lt_length_of_drop_eq h (by rw [TlvEntry.length_bytes]; omega)
  rw [TlvEntry.length_bytes] at hlen
  rw [extensionIndicesFrom_succ, readType_of_drop_eq h, he, if_pos (by omega),
    if_neg (by omega), if_pos (by simp)]

/-- At the end of the entries only an initialiser is served. -/
theorem extensionIndicesFrom_end {t : ExtensionType} {init : Bool} {fuel p : Nat} {ix : TlvIndices}
    (ht : t ≠ .uninitialized) (h : tlv.drop i = zeros p)
    (hok : extensionIndicesFrom t tlv init (fuel + 1) i = .ok ix) :
    init = true ∧ ix = getTlvIndices i ∧ i + p = tlv.length ∧ 4 ≤ p := by
  have hlen := congrArg List.length h
  rw [List.length_drop, List.length_replicate] at hlen
  rw [extensionIndicesFrom_succ] at hok
  by_cases hstart : i < tlv.length
  · rw [if_pos hstart] at hok
    by_cases hvalue : tlv.length < i + 4
    · rw [if_pos hvalue] at hok
      cases hok
    · have hzero := readU16_zeros (i := i) (by omega) h
      have ht' : (0 == t.toNat) = false := by
        rw [beq_eq_false_iff_ne]
        exact fun h => ht (ExtensionType.toNat_eq_zero.mp h.symm)
      rw [if_neg hvalue, hzero, ht'] at hok
      cases init with
      | false => simp at hok
      | true => exact ⟨rfl, by simpa using hok.symm, by omega, by omega⟩
  · rw [if_neg hstart] at hok
    cases hok

/-- Where a listing of the entries ends, a search that may not initialise fails. -/
theorem extensionIndicesFrom_stop {t : ExtensionType} (fuel : Nat) (ht : t ≠ .uninitialized)
    (hend : tlv.length < i + 2 ∨ readU16 tlv i (i + 2) = 0) :
    ∃ e, extensionIndicesFrom t tlv false fuel i = .error e := by
  cases fuel with
  | zero => exact ⟨_, rfl⟩
  | succ fuel =>
    rw [extensionIndicesFrom_succ]
    by_cases hstart : i < tlv.length
    · rw [if_pos hstart]
      by_cases hvalue : tlv.length < i + 4
      · rw [if_pos hvalue]
        exact ⟨_, rfl⟩
      · have hzero : readU16 tlv i (i + 2) = 0 := hend.resolve_left (by omega)
        have ht' : (0 == t.toNat) = false := by
          rw [beq_eq_false_iff_ne]
          exact fun h => ht (ExtensionType.toNat_eq_zero.mp h.symm)
        rw [if_neg hvalue, hzero, ht']
        exact ⟨_, rfl⟩
    · rw [if_neg hstart]
      exact ⟨_, rfl⟩

/-- Where a search over any bytes can end. -/
theorem extensionIndicesFrom_found {t : ExtensionType} {tlv : Bytes} {init : Bool} {fuel i : ℕ}
    {ix : TlvIndices} (h : extensionIndicesFrom t tlv init fuel i = .ok ix) :
    ∃ start, ix = getTlvIndices start ∧ start + 4 ≤ tlv.length ∧
      (readU16 tlv start (start + 2) = t.toNat ∨ readU16 tlv start (start + 2) = 0) := by
  induction fuel generalizing i with
  | zero => cases h
  | succ fuel ih =>
    rw [extensionIndicesFrom_succ] at h
    by_cases hstart : i < tlv.length
    · by_cases hvalue : tlv.length < i + 4
      · rw [if_pos hstart, if_pos hvalue] at h
        cases h
      · rw [if_pos hstart, if_neg hvalue] at h
        by_cases hit : readU16 tlv i (i + 2) = t.toNat
        · rw [if_pos (by simpa using hit), Except.ok.injEq] at h
          exact ⟨i, h.symm, by omega, .inl hit⟩
        · rw [if_neg (by simpa using hit)] at h
          by_cases hend : readU16 tlv i (i + 2) = 0
          · rw [if_pos (by simpa using hend)] at h
            cases init with
            | false => cases h
            | true => exact ⟨i, (Except.ok.inj h).symm, by omega, .inr hend⟩
          · rw [if_neg (by simpa using hend)] at h
            exact ih h
    · rw [if_neg hstart] at h
      cases h

/-- The search passes the entries of other types, whatever follows them. -/
theorem extensionIndicesFrom_past {t : ExtensionType} (init : Bool) {es : List TlvEntry}
    (fuel : Nat) (hwf : ∀ e ∈ es, e.Wf) (hnot : t ∉ es.map (·.type))
    (h : tlv.drop i = entriesBytes es ++ rest) :
    extensionIndicesFrom t tlv init (fuel + es.length) i =
      extensionIndicesFrom t tlv init fuel (i + (entriesBytes es).length) := by
  induction es generalizing i with
  | nil => rfl
  | cons e es ih =>
    rw [List.map_cons, List.mem_cons, not_or] at hnot
    rw [entriesBytes_cons, List.append_assoc] at h
    rw [List.length_cons, ← Nat.add_assoc,
      extensionIndicesFrom_skip init _ (hwf e List.mem_cons_self) (Ne.symm hnot.1) h,
      ih (fun x hx => hwf x (List.mem_cons_of_mem _ hx)) hnot.2 (drop_add_of_drop_eq h),
      entriesBytes_cons, List.length_append, Nat.add_assoc]

/-- The search ends at the first entry of its type. -/
theorem extensionIndicesFrom_split {t : ExtensionType} (init : Bool) {pre post : List TlvEntry}
    {fuel : Nat} (hwf : ∀ x ∈ pre, x.Wf) (he : e.type = t) (hpre : t ∉ pre.map (·.type))
    (hfuel : pre.length < fuel) (h : tlv.drop i = entriesBytes (pre ++ e :: post) ++ rest) :
    extensionIndicesFrom t tlv init fuel i =
      .ok (getTlvIndices (i + (entriesBytes pre).length)) := by
  obtain ⟨k, rfl⟩ : ∃ k, fuel = k + 1 + pre.length := ⟨fuel - pre.length - 1, by omega⟩
  rw [entriesBytes_append, entriesBytes_cons, List.append_assoc, List.append_assoc] at h
  rw [extensionIndicesFrom_past init (k + 1) hwf hpre h]
  exact extensionIndicesFrom_hit he (drop_add_of_drop_eq h)

theorem extensionIndicesFrom_spec {t : ExtensionType} (init : Bool) {es : List TlvEntry}
    {fuel p : Nat} (ht : t ≠ .uninitialized) (hwf : ∀ e ∈ es, e.Wf) (hfuel : es.length < fuel)
    (h : tlv.drop i = entriesBytes es ++ zeros p) :
    (∀ pre e post, es = pre ++ e :: post → e.type = t → t ∉ pre.map (·.type) →
      extensionIndicesFrom t tlv init fuel i =
        .ok (getTlvIndices (i + (entriesBytes pre).length))) ∧
    (∀ ix, t ∉ es.map (·.type) → extensionIndicesFrom t tlv init fuel i = .ok ix →
      init = true ∧ ix = getTlvIndices (i + (entriesBytes es).length) ∧
        i + (entriesBytes es).length + p = tlv.length ∧ 4 ≤ p) := by
  constructor
  · rintro pre e post rfl he hpre
    rw [List.length_append] at hfuel
    exact extensionIndicesFrom_split init (fun x hx => hwf x (List.mem_append_left _ hx)) he hpre
      (by omega) h
  · intro ix hnot hok
    obtain ⟨k, rfl⟩ : ∃ k, fuel = k + 1 + es.length := ⟨fuel - es.length - 1, by omega⟩
    rw [extensionIndicesFrom_past init (k + 1) hwf hnot h] at hok
    exact extensionIndicesFrom_end ht (drop_add_of_drop_eq h) hok

/-! ## The loop of `get_tlv_data_info` -/

theorem tlvDataInfoFrom_succ (tlv : Bytes) (fuel i : Nat) (ts : List ExtensionType) :
    tlvDataInfoFrom tlv (fuel + 1) i ts =
      if i < tlv.length then
        if tlv.length < i + 2 then .ok ⟨ts, i⟩
        else
          match ExtensionType.ofNat? (readU16 tlv i (i + 2)) with
          | none => .error .invalidAccountData
          | some .uninitialized => .ok ⟨ts, i⟩
          | some t =>
            if tlv.length < i + 4 then .error .invalidAccountData
            else if i + 4 + readU16 tlv (i + 2) (i + 4) > tlv.length then .error .invalidAccountData
            else tlvDataInfoFrom tlv fuel (i + 4 + readU16 tlv (i + 2) (i + 4)) (ts ++ [t])
      else .ok ⟨ts, i⟩ := rfl

/-- An iteration ends the walk or passes one entry, whatever the bytes are. -/
theorem tlvDataInfoFrom_cases {fuel : Nat} {ts : List ExtensionType} {info : TlvDataInfo}
    (h : tlvDataInfoFrom tlv (fuel + 1) i ts = .ok info) :
    (info = ⟨ts, i⟩ ∧ (tlv.length < i + 2 ∨ readU16 tlv i (i + 2) = 0)) ∨
    ∃ e : TlvEntry, e.Wf ∧ tlv.drop i = e.bytes ++ tlv.drop (i + e.bytes.length) ∧
      tlvDataInfoFrom tlv fuel (i + e.bytes.length) (ts ++ [e.type]) = .ok info := by
  rw [tlvDataInfoFrom_succ] at h
  by_cases hstart : i < tlv.length
  · rw [if_pos hstart] at h
    by_cases htype : tlv.length < i + 2
    · rw [if_pos htype, Except.ok.injEq] at h
      exact .inl ⟨h.symm, .inl htype⟩
    · rw [if_neg htype] at h
      split at h
      · cases h
      · rename_i hread
        rw [Except.ok.injEq] at h
        exact .inl ⟨h.symm, .inr (ExtensionType.ofNat?_eq_some hread)⟩
      · rename_i t hne hread
        have htoNat := ExtensionType.ofNat?_eq_some hread
        by_cases hvalue : tlv.length < i + 4
        · rw [if_pos hvalue] at h
          cases h
        · rw [if_neg hvalue] at h
          by_cases hend : i + 4 + readU16 tlv (i + 2) (i + 4) > tlv.length
          · rw [if_pos hend] at h
            cases h
          · rw [if_neg hend] at h
            have hlen : (slice tlv (i + 4) (i + 4 + readU16 tlv (i + 2) (i + 4))).length =
                readU16 tlv (i + 2) (i + 4) := length_slice (by omega)
            have hlt : readU16 tlv (i + 2) (i + 4) < 2 ^ 16 := readU16_lt (by omega)
            refine .inr ⟨⟨t, slice tlv (i + 4) (i + 4 + readU16 tlv (i + 2) (i + 4))⟩,
              ⟨hne, by rwa [hlen]⟩, ?_, ?_⟩
            · rw [TlvEntry.length_bytes, hlen, TlvEntry.bytes, hlen, ← htoNat,
                leBytes_readU16 (by omega), leBytes_readU16 (i := i + 2) (by omega),
                drop_eq_slice_append tlv i 2, drop_eq_slice_append tlv (i + 2) 2,
                drop_eq_slice_append tlv (i + 4) (readU16 tlv (i + 2) (i + 4))]
              simp only [List.append_assoc, Nat.add_assoc]
            · rwa [TlvEntry.length_bytes, hlen, ← Nat.add_assoc]
  · rw [if_neg hstart, Except.ok.injEq] at h
    exact .inl ⟨h.symm, .inl (by omega)⟩

theorem tlvDataInfoFrom_spec {es : List TlvEntry} {fuel p : Nat} {ts : List ExtensionType}
    (hwf : ∀ e ∈ es, e.Wf) (hfuel : es.length < fuel)
    (h : tlv.drop i = entriesBytes es ++ zeros p) :
    tlvDataInfoFrom tlv fuel i ts =
      .ok ⟨ts ++ es.map (·.type), i + (entriesBytes es).length⟩ := by
  induction es generalizing fuel i ts with
  | nil =>
    obtain ⟨fuel, rfl⟩ := Nat.exists_eq_add_one_of_ne_zero (Nat.ne_of_gt hfuel)
    rw [tlvDataInfoFrom_succ]
    by_cases hstart : i < tlv.length
    · rw [if_pos hstart]
      by_cases htype : tlv.length < i + 2
      · rw [if_pos htype]
        simp
      · have hlen := congrArg List.length h
        rw [List.length_drop, entriesBytes_nil, List.nil_append, List.length_replicate] at hlen
        rw [if_neg htype, readU16_zeros (i := i) (by omega) h]
        simp [ExtensionType.ofNat?, ExtensionType.all]
    · rw [if_neg hstart]
      simp
  | cons e es ih =>
    obtain ⟨fuel, rfl⟩ := Nat.exists_eq_add_one_of_ne_zero (Nat.ne_of_gt (Nat.zero_lt_of_lt hfuel))
    rw [entriesBytes_cons, List.append_assoc] at h
    have hnext := drop_add_of_drop_eq h
    have hlen := lt_length_of_drop_eq h (by rw [TlvEntry.length_bytes]; omega)
    rw [TlvEntry.length_bytes] at hlen hnext
    have hrec : tlvDataInfoFrom tlv fuel _ (ts ++ [e.type]) = _ :=
      ih (fun x hx => hwf x (List.mem_cons_of_mem _ hx)) (by simpa using hfuel) hnext
    have he := hwf e List.mem_cons_self
    rw [tlvDataInfoFrom_succ, readType_of_drop_eq h, readLength_of_drop_eq he.length_lt h,
      ExtensionType.ofNat?_toNat, if_pos (by omega), if_neg (by omega)]
    split
    · rename_i hu
      cases hu
    · rename_i hu
      exact absurd (Option.some.inj hu) he.type_ne
    · rename_i t hnot hu
      obtain rfl := Option.some.inj hu
      rw [if_neg (by omega), if_neg (by omega), Nat.add_assoc, hrec]
      simp [Nat.add_assoc, Nat.add_comm]

end Scan

end SolanaEasy.Token
