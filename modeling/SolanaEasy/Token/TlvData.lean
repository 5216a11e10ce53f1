import SolanaEasy.Token.TlvEntries

/-!
# TLV data — entries with distinct types, followed by zeros

A buffer of entries of any kind and any length. Reads of its bytes are lookups;
`alloc` puts an entry of zeros behind the last one, `realloc` gives one entry another
length and moves those behind it, and both leave the bytes alone when they fail.
-/

namespace SolanaEasy.Token

/-! ## Splicing -/

theorem splice_append {x y z v : Bytes} (h : v.length = y.length) :
    splice (x ++ (y ++ z)) x.length v = x ++ (v ++ z) := by
  rw [splice, List.take_left, h, ← List.length_append, ← List.append_assoc, List.drop_left,
    List.append_assoc]

theorem length_splice {b v : Bytes} {i : Nat} (h : i + v.length ≤ b.length) :
    (splice b i v).length = b.length := by
  rw [splice, List.length_append, List.length_append, List.length_take, List.length_drop]
  omega

structure TlvData where
  entries : List TlvEntry
  padding : Nat
  wf : ∀ e ∈ entries, e.Wf
  nodup : (entries.map (·.type)).Nodup

namespace TlvData

def bytes (d : TlvData) : Bytes := entriesBytes d.entries ++ zeros d.padding

/-- The value of a type. -/
def get (d : TlvData) (t : ExtensionType) : Option Bytes := lookup d.entries t

def types (d : TlvData) : List ExtensionType := d.entries.map (·.type)

/-- The length of the entries. -/
def usedLen (d : TlvData) : Nat := (entriesBytes d.entries).length

/-- The entries of all other types. -/
def others (d : TlvData) (t : ExtensionType) : List TlvEntry :=
  d.entries.filter fun e => e.type != t

theorem length_bytes (d : TlvData) : d.bytes.length = d.usedLen + d.padding := by
  simp [bytes, usedLen]

theorem mem_types {d : TlvData} {t : ExtensionType} :
    t ∈ d.types ↔ (d.get t).isSome = true := lookup_isSome.symm

theorem get_eq_none {d : TlvData} {t : ExtensionType} : d.get t = none ↔ t ∉ d.types :=
  lookup_eq_none

section Split

variable {d : TlvData} {pre post : List TlvEntry} {t : ExtensionType} {v : Bytes}
  (hes : d.entries = pre ++ ⟨t, v⟩ :: post)
include hes

theorem wf_of_split : (⟨t, v⟩ : TlvEntry).Wf := d.wf _ (by rw [hes]; simp)

/-- Types are distinct, so the entry of a type stands alone. -/
theorem not_mem_of_split : t ∉ pre.map (·.type) ∧ t ∉ post.map (·.type) := by
  have hnodup := d.nodup
  rw [hes, List.map_append, List.map_cons, List.nodup_append, List.nodup_cons] at hnodup
  obtain ⟨_, ⟨hpost, _⟩, hdisjoint⟩ := hnodup
  exact ⟨fun hpre => hdisjoint t hpre t List.mem_cons_self rfl, hpost⟩

theorem get_of_split (s : ExtensionType) :
    d.get s = if s = t then some v else lookup (pre ++ post) s := by
  rw [get, hes, lookup_split (not_mem_of_split hes).1]

theorem others_of_split : d.others t = pre ++ post := by
  obtain ⟨hpre, hpost⟩ := not_mem_of_split hes
  have hkeep : ∀ es : List TlvEntry, t ∉ es.map (·.type) →
      es.filter (fun e => e.type != t) = es := by
    intro es hnot
    rw [List.filter_eq_self]
    intro e he
    rw [bne_iff_ne]
    rintro rfl
    exact hnot (List.mem_map_of_mem he)
  rw [others, hes, List.filter_append, List.filter_cons_of_neg (by simp), hkeep _ hpre,
    hkeep _ hpost]

/-- The bytes around an entry. -/
theorem bytes_of_split :
    d.bytes = entriesBytes pre ++ ((⟨t, v⟩ : TlvEntry).bytes ++
      (entriesBytes post ++ zeros d.padding)) := by
  rw [bytes, hes, entriesBytes_append, entriesBytes_cons, List.append_assoc, List.append_assoc]

theorem drop_of_split : d.bytes.drop (entriesBytes pre).length =
    (⟨t, v⟩ : TlvEntry).bytes ++ (entriesBytes post ++ zeros d.padding) := by
  rw [bytes_of_split hes, List.drop_left]

theorem usedLen_of_split :
    d.usedLen = (entriesBytes pre).length + 4 + v.length + (entriesBytes post).length := by
  rw [usedLen, hes]
  simp
  omega

end Split

theorem exists_split_of_get {d : TlvData} {t : ExtensionType} {v : Bytes} (h : d.get t = some v) :
    ∃ pre post, d.entries = pre ++ ⟨t, v⟩ :: post ∧ t ∉ pre.map (·.type) := exists_split h

/-! ## Building -/

/-- A buffer of zeros. -/
def blank (n : Nat) : TlvData := ⟨[], n, by simp, by simp⟩

/-- The value of an entry replaced, with another padding. -/
theorem exists_replace {d : TlvData} {pre post : List TlvEntry} {t : ExtensionType}
    {old v : Bytes} (hes : d.entries = pre ++ ⟨t, old⟩ :: post) (hv : v.length < 2 ^ 16)
    (n : Nat) :
    ∃ d' : TlvData, d'.entries = pre ++ ⟨t, v⟩ :: post ∧ d'.padding = n := by
  have hwf := d.wf
  have hnodup := d.nodup
  rw [hes] at hwf hnodup
  refine ⟨⟨pre ++ ⟨t, v⟩ :: post, n, ?_, by simpa using hnodup⟩, rfl, rfl⟩
  intro e he
  rw [List.mem_append, List.mem_cons] at he
  rcases he with he | rfl | he
  · exact hwf e (List.mem_append_left _ he)
  · exact ⟨(wf_of_split hes).type_ne, hv⟩
  · exact hwf e (List.mem_append_right _ (List.mem_cons_of_mem _ he))

/-- A new entry at the end. -/
theorem exists_push (d : TlvData) {t : ExtensionType} {v : Bytes} (ht : t ∉ d.types)
    (hne : t ≠ .uninitialized) (hv : v.length < 2 ^ 16) (n : Nat) :
    ∃ d' : TlvData, d'.entries = d.entries ++ [⟨t, v⟩] ∧ d'.padding = n := by
  refine ⟨⟨d.entries ++ [⟨t, v⟩], n, ?_, ?_⟩, rfl, rfl⟩
  · intro e he
    rw [List.mem_append, List.mem_singleton] at he
    rcases he with he | rfl
    · exact d.wf e he
    · exact ⟨hne, hv⟩
  · rw [List.map_append, List.nodup_append]
    refine ⟨d.nodup, by simp, ?_⟩
    intro s hs u hu
    obtain rfl : u = t := by simpa using hu
    rintro rfl
    exact ht hs

/-! ## Reading -/

theorem fuel_lt (d : TlvData) : d.entries.length < d.bytes.length + 1 := by
  have h := four_mul_length_le d.entries
  rw [length_bytes, usedLen]
  omega

theorem getTlvDataInfo_bytes (d : TlvData) :
    getTlvDataInfo d.bytes = .ok ⟨d.types, d.usedLen⟩ := by
  have h : d.bytes.drop 0 = entriesBytes d.entries ++ zeros d.padding := rfl
  rw [getTlvDataInfo, tlvDataInfoFrom_spec d.wf d.fuel_lt h, Nat.zero_add]
  rfl

theorem getFirstExtensionType_bytes (d : TlvData) :
    getFirstExtensionType d.bytes = .ok d.types.head? := by
  cases hes : d.entries with
  | nil =>
    have hbytes : d.bytes = zeros d.padding := by rw [bytes, hes]; rfl
    have htypes : d.types.head? = none := by rw [types, hes]; rfl
    rw [getFirstExtensionType, htypes]
    by_cases hp : d.padding ≤ 2
    · by_cases hempty : d.bytes.isEmpty = true
      · rw [if_pos hempty]
      · rw [if_neg hempty, if_pos (by rw [hbytes]; simpa [getTlvIndices] using hp)]
    · have hlen : d.bytes.length = d.padding := by rw [hbytes]; simp
      have hread : readU16 d.bytes 0 2 = 0 := readU16_zeros (i := 0) (by omega) hbytes
      have hempty : d.bytes.isEmpty = false := by
        rw [← Bool.not_eq_true, List.isEmpty_iff_length_eq_zero]
        omega
      simp only [hempty, Bool.false_eq_true, if_false, getTlvIndices, Nat.zero_add, hread]
      rw [if_neg (by omega)]
      rfl
  | cons e es =>
    have hbytes : d.bytes.drop 0 = e.bytes ++ (entriesBytes es ++ zeros d.padding) := by
      rw [List.drop_zero, bytes, hes, entriesBytes_cons, List.append_assoc]
    have hlen := lt_length_of_drop_eq hbytes (by rw [TlvEntry.length_bytes]; omega)
    rw [TlvEntry.length_bytes] at hlen
    have hempty : d.bytes.isEmpty = false := by
      rw [← Bool.not_eq_true, List.isEmpty_iff_length_eq_zero]
      omega
    have hread : readU16 d.bytes 0 2 = e.type.toNat := readType_of_drop_eq (i := 0) hbytes
    have htypes : d.types.head? = some e.type := by rw [types, hes]; rfl
    have hne := (d.wf e (by rw [hes]; simp)).type_ne
    simp only [getFirstExtensionType, hempty, Bool.false_eq_true, if_false, getTlvIndices,
      Nat.zero_add, hread, ExtensionType.ofNat?_toNat, htypes]
    rw [if_neg (by omega)]

/-- Where a search can end. -/
theorem getExtensionIndices_cases {d : TlvData} {t : ExtensionType} {init : Bool}
    {ix : TlvIndices} (ht : t ≠ .uninitialized)
    (h : getExtensionIndices t d.bytes init = .ok ix) :
    (∃ pre v post, d.entries = pre ++ ⟨t, v⟩ :: post ∧
      ix = getTlvIndices (entriesBytes pre).length) ∨
    (t ∉ d.types ∧ init = true ∧ ix = getTlvIndices d.usedLen ∧ 4 ≤ d.padding) := by
  have hdrop : d.bytes.drop 0 = entriesBytes d.entries ++ zeros d.padding := rfl
  obtain ⟨hfound, hend⟩ := extensionIndicesFrom_spec init ht d.wf d.fuel_lt hdrop
  rw [getExtensionIndices] at h
  cases hget : d.get t with
  | some v =>
    obtain ⟨pre, post, hes, hpre⟩ := exists_split hget
    rw [hfound pre ⟨t, v⟩ post hes rfl hpre, Except.ok.injEq, Nat.zero_add] at h
    exact .inl ⟨pre, v, post, hes, h.symm⟩
  | none =>
    rw [get_eq_none] at hget
    obtain ⟨hinit, hix, _, hp⟩ := hend ix hget h
    rw [Nat.zero_add] at hix
    exact .inr ⟨hget, hinit, hix, hp⟩

theorem getExtensionIndices_of_split {d : TlvData} {pre post : List TlvEntry}
    {t : ExtensionType} {v : Bytes} (init : Bool) (hes : d.entries = pre ++ ⟨t, v⟩ :: post) :
    getExtensionIndices t d.bytes init = .ok (getTlvIndices (entriesBytes pre).length) := by
  have hdrop : d.bytes.drop 0 = entriesBytes d.entries ++ zeros d.padding := rfl
  obtain ⟨hfound, _⟩ :=
    extensionIndicesFrom_spec init (wf_of_split hes).type_ne d.wf d.fuel_lt hdrop
  rw [getExtensionIndices, hfound pre ⟨t, v⟩ post hes rfl (not_mem_of_split hes).1, Nat.zero_add]

/-- With room for a header an initialiser gets the place behind the last entry. -/
theorem getExtensionIndices_fresh {d : TlvData} {t : ExtensionType} (ht : t ∉ d.types)
    (hroom : 4 ≤ d.padding) :
    getExtensionIndices t d.bytes true = .ok (getTlvIndices d.usedLen) := by
  have hdrop : d.bytes.drop 0 = entriesBytes d.entries ++ zeros d.padding := rfl
  have hend : d.bytes.drop d.usedLen = zeros d.padding := List.drop_left
  have hlen := length_bytes d
  obtain ⟨k, hk⟩ : ∃ k, d.bytes.length + 1 = k + 1 + d.entries.length :=
    ⟨d.bytes.length - d.entries.length, by have := d.fuel_lt; omega⟩
  rw [getExtensionIndices, hk, extensionIndicesFrom_past true (k + 1) d.wf ht hdrop, Nat.zero_add,
    ← usedLen, extensionIndicesFrom_succ, if_pos (by omega), if_neg (by omega),
    readU16_zeros (by omega) hend]
  simp

section Typed

variable {S : Type} [BaseState S]

theorem type_ne_of_accountType {t : ExtensionType}
    (h : t.getAccountType = BaseState.accountType S) : t ≠ .uninitialized := by
  rintro rfl
  exact BaseState.accountType_ne (S := S) h.symm

/-- The value range is that of the entry. -/
theorem getExtensionRange_eq_ok {d : TlvData} {t : ExtensionType} {i j : Nat} :
    getExtensionRange S t d.bytes = .ok (i, j) ↔
      t.getAccountType = BaseState.accountType S ∧ ∃ pre v post,
        d.entries = pre ++ ⟨t, v⟩ :: post ∧ i = (entriesBytes pre).length + 4 ∧
          j = i + v.length := by
  constructor
  · intro h
    simp only [getExtensionRange, bind_eq_ok, failIf_eq_ok, bne_eq_false_iff_eq, pure_eq_ok,
      Prod.mk.injEq, decide_eq_false_iff_not] at h
    obtain ⟨_, hat, ix, hix, _, _, hi, hj⟩ := h
    rcases getExtensionIndices_cases (type_ne_of_accountType hat) hix with
      ⟨pre, v, post, hes, rfl⟩ | ⟨_, hinit, _⟩
    · have hlen := readLength_of_drop_eq (wf_of_split hes).length_lt (drop_of_split hes)
      rw [← hj, ← hi]
      exact ⟨hat, pre, v, post, hes, rfl, congrArg _ hlen⟩
    · cases hinit
  · rintro ⟨hat, pre, v, post, hes, rfl, rfl⟩
    have hlen := readLength_of_drop_eq (wf_of_split hes).length_lt (drop_of_split hes)
    have hle := lt_length_of_drop_eq (drop_of_split hes)
      (by rw [TlvEntry.length_bytes]; omega)
    have hvlen : (⟨t, v⟩ : TlvEntry).bytes.length = 4 + v.length := TlvEntry.length_bytes _
    rw [hvlen] at hle
    simp only [getExtensionRange, getExtensionIndices_of_split false hes, bind_eq_ok,
      failIf_eq_ok, bne_eq_false_iff_eq, pure_eq_ok, decide_eq_false_iff_not, Except.ok.injEq,
      exists_eq_left', exists_const, getTlvIndices, hlen, and_true]
    exact ⟨hat, by omega⟩

theorem getExtensionBytes_eq_ok {d : TlvData} {t : ExtensionType} {v : Bytes} :
    getExtensionBytes S t d.bytes = .ok v ↔
      t.getAccountType = BaseState.accountType S ∧ d.get t = some v := by
  have hslice : ∀ {pre post : List TlvEntry} {u : Bytes}, d.entries = pre ++ ⟨t, u⟩ :: post →
      slice d.bytes ((entriesBytes pre).length + 4) ((entriesBytes pre).length + 4 + u.length) =
        u := by
    intro pre post u hes
    have h := drop_of_split hes
    rw [TlvEntry.bytes, List.append_assoc] at h
    have h' := drop_add_of_drop_eq h
    rw [List.length_append, length_leBytes, length_leBytes] at h'
    exact slice_of_drop_eq h'
  simp only [getExtensionBytes, bind_eq_ok, pure_eq_ok, Prod.exists]
  constructor
  · rintro ⟨i, j, hrange, rfl⟩
    obtain ⟨hat, pre, u, post, hes, rfl, rfl⟩ := getExtensionRange_eq_ok.mp hrange
    rw [hslice hes, get_of_split hes, if_pos rfl]
    exact ⟨hat, rfl⟩
  · rintro ⟨hat, h⟩
    obtain ⟨pre, post, hes, _⟩ := exists_split_of_get h
    exact ⟨_, _, getExtensionRange_eq_ok.mpr ⟨hat, pre, v, post, hes, rfl, rfl⟩, hslice hes⟩

/-- A value written over one of the same length. -/
theorem splice_entries {pre post : List TlvEntry} {t : ExtensionType} {old v : Bytes} {n : ℕ}
    (hlen : v.length = old.length) :
    splice (entriesBytes (pre ++ ⟨t, old⟩ :: post) ++ zeros n) ((entriesBytes pre).length + 4) v =
      entriesBytes (pre ++ ⟨t, v⟩ :: post) ++ zeros n := by
  have hsplit : ∀ u : Bytes, entriesBytes (pre ++ ⟨t, u⟩ :: post) ++ zeros n =
      (entriesBytes pre ++ (leBytes 2 t.toNat ++ leBytes 2 u.length)) ++
        (u ++ (entriesBytes post ++ zeros n)) := by
    intro u
    rw [entriesBytes_append, entriesBytes_cons, TlvEntry.bytes]
    simp only [List.append_assoc]
  have hstart : (entriesBytes pre).length + 4 =
      (entriesBytes pre ++ (leBytes 2 t.toNat ++ leBytes 2 old.length)).length := by simp
  rw [hsplit, hsplit, hstart, splice_append hlen, hlen]

theorem splice_value {d : TlvData} {pre post : List TlvEntry} {t : ExtensionType} {old v : Bytes}
    (hes : d.entries = pre ++ ⟨t, old⟩ :: post) (hlen : v.length = old.length) :
    splice d.bytes ((entriesBytes pre).length + 4) v =
      entriesBytes (pre ++ ⟨t, v⟩ :: post) ++ zeros d.padding := by
  rw [bytes, hes, splice_entries hlen]

/-- A value written into the entry that `alloc` has put at the end. -/
theorem splice_pushed {d : TlvData} {t : ExtensionType} {old v : Bytes} {n : ℕ}
    (hlen : v.length = old.length) :
    splice (entriesBytes (d.entries ++ [⟨t, old⟩]) ++ zeros n) (d.usedLen + 4) v =
      entriesBytes (d.entries ++ [⟨t, v⟩]) ++ zeros n := splice_entries hlen

theorem lengthBytes_eq_ok {n : Nat} {len : Bytes} :
    lengthBytes n = .ok len ↔ n < 2 ^ 16 ∧ len = leBytes 2 n := by
  unfold lengthBytes
  by_cases h : n < 2 ^ 16
  · rw [if_pos h, Except.ok.injEq]
    exact ⟨fun heq => ⟨h, heq.symm⟩, fun heq => heq.2.symm⟩
  · rw [if_neg h]
    constructor
    · rintro ⟨⟩
    · exact fun heq => absurd heq.1 h

/-! ## `alloc` -/

/-- `alloc` once the place is found and its type read. -/
theorem alloc_eq {t s : ExtensionType} {n start : Nat} {overwrite : Bool} {tlv : Bytes}
    (hat : t.getAccountType = BaseState.accountType S)
    (hix : getExtensionIndices t tlv true = .ok (getTlvIndices start))
    (htype : readU16 tlv start (start + 2) = s.toNat) :
    alloc S t n overwrite tlv =
      if tlv.length - start < n + 4 then (.error .invalidAccountData, tlv)
      else if s == .uninitialized || overwrite then
        let typed := splice tlv start (leBytes 2 t.toNat)
        if overwrite && s == t && readU16 typed (start + 2) (start + 4) != n then
          (.error TokenError.invalidLengthForAlloc, typed)
        else
          match lengthBytes n with
          | .error e => (.error e, typed)
          | .ok len => (.ok (start + 4, start + 4 + n), splice typed (start + 2) len)
      else (.error TokenError.extensionAlreadyInitialized, tlv) := by
  have hne : (t.getAccountType != BaseState.accountType S) = false := by rw [hat, bne_self_eq_false]
  have hof : ExtensionType.ofNat? (readU16 tlv (getTlvIndices start).typeStart
      (getTlvIndices start).lengthStart) = some s := by
    rw [← ExtensionType.ofNat?_toNat s, ← htype]
    rfl
  rw [alloc, hne, if_neg Bool.false_ne_true, hix]
  simp only [hof]
  rfl

/-- An entry that is there already is found again, if it may be and has the length. -/
theorem alloc_of_split {d : TlvData} {pre post : List TlvEntry} {t : ExtensionType} {v : Bytes}
    (hat : t.getAccountType = BaseState.accountType S)
    (hes : d.entries = pre ++ ⟨t, v⟩ :: post) (n : ℕ) (overwrite : Bool) :
    (overwrite = true → v.length = n → alloc S t n overwrite d.bytes =
      (.ok ((entriesBytes pre).length + 4, (entriesBytes pre).length + 4 + n), d.bytes)) ∧
    (¬ (overwrite = true ∧ v.length = n) → ∃ e, alloc S t n overwrite d.bytes =
      (.error e, d.bytes)) := by
  have hwf := wf_of_split hes
  have hdrop := drop_of_split hes
  have hself : splice d.bytes (entriesBytes pre).length (leBytes 2 t.toNat) = d.bytes := by
    rw [bytes_of_split hes, TlvEntry.bytes]
    simp only [List.append_assoc]
    exact splice_append rfl
  have hread := readLength_of_drop_eq hwf.length_lt hdrop
  have hlength := d.length_bytes
  rw [usedLen_of_split hes] at hlength
  rw [alloc_eq hat (getExtensionIndices_of_split true hes) (readType_of_drop_eq hdrop),
    beq_eq_false_iff_ne.mpr hwf.type_ne]
  cases overwrite with
  | false =>
    refine ⟨fun h => absurd h Bool.false_ne_true, fun _ => ?_⟩
    split
    · exact ⟨_, rfl⟩
    · exact ⟨_, rfl⟩
  | true =>
    simp only [Bool.or_true, if_true, hself, hread, beq_self_eq_true, Bool.and_true, Bool.true_and,
      true_and]
    constructor
    · rintro - rfl
      have hlen : lengthBytes v.length = .ok (leBytes 2 v.length) :=
        lengthBytes_eq_ok.mpr ⟨hwf.length_lt, rfl⟩
      have hstart : (entriesBytes pre).length + 2 =
          (entriesBytes pre ++ leBytes 2 t.toNat).length := by simp
      have hsplit : d.bytes = (entriesBytes pre ++ leBytes 2 t.toNat) ++
          (leBytes 2 v.length ++ (v ++ (entriesBytes post ++ zeros d.padding))) := by
        rw [bytes_of_split hes, TlvEntry.bytes]
        simp only [List.append_assoc]
      have hkeep : splice d.bytes ((entriesBytes pre).length + 2) (leBytes 2 v.length) =
          d.bytes := by rw [hstart, hsplit, splice_append rfl]
      rw [if_neg (by omega), bne_self_eq_false, if_neg Bool.false_ne_true, hlen]
      simp only [hkeep]
    · intro hne
      split
      · exact ⟨_, rfl⟩
      · exact ⟨_, if_pos (bne_iff_ne.mpr hne)⟩

/-- A type that is missing gets an entry of zeros behind the last one, if there is room and the
length fits. -/
theorem alloc_of_not_mem {d : TlvData} {t : ExtensionType}
    (hat : t.getAccountType = BaseState.accountType S) (hnot : t ∉ d.types) {n : ℕ}
    (hroom : n + 4 ≤ d.padding) (hn : n < 2 ^ 16) (overwrite : Bool) :
    alloc S t n overwrite d.bytes = (.ok (d.usedLen + 4, d.usedLen + 4 + n),
      entriesBytes (d.entries ++ [⟨t, zeros n⟩]) ++ zeros (d.padding - (n + 4))) := by
  have ht := type_ne_of_accountType hat
  have hdrop : d.bytes.drop d.usedLen = zeros d.padding := by
    rw [bytes, usedLen, List.drop_left]
  have hne : (ExtensionType.uninitialized == t) = false := beq_eq_false_iff_ne.mpr ht.symm
  have hlen : lengthBytes n = .ok (leBytes 2 n) := lengthBytes_eq_ok.mpr ⟨hn, rfl⟩
  have hzeros : zeros d.padding =
      zeros 2 ++ (zeros 2 ++ (zeros n ++ zeros (d.padding - (n + 4)))) := by
    simp only [List.replicate_append_replicate]
    congr 1
    omega
  have hstart : (entriesBytes d.entries).length + 2 =
      (entriesBytes d.entries ++ leBytes 2 t.toNat).length := by simp
  have hwritten : splice (splice d.bytes d.usedLen (leBytes 2 t.toNat)) (d.usedLen + 2)
      (leBytes 2 n) = entriesBytes (d.entries ++ [⟨t, zeros n⟩]) ++
        zeros (d.padding - (n + 4)) := by
    rw [bytes, usedLen, hzeros, splice_append (by simp), hstart, ← List.append_assoc,
      splice_append (by simp)]
    simp [TlvEntry.bytes]
  rw [alloc_eq (s := .uninitialized) hat (getExtensionIndices_fresh hnot (by omega))
    (readU16_zeros (by omega) hdrop), length_bytes, if_neg (by omega)]
  simp only [beq_self_eq_true, Bool.true_or, if_true, hne, Bool.and_false, Bool.false_and,
    Bool.false_eq_true, if_false, hlen, hwritten]

/-- What a successful `alloc` comes to. -/
theorem alloc_cases {d : TlvData} {t : ExtensionType} {n i j : Nat} {overwrite : Bool}
    {tlv : Bytes} (h : alloc S t n overwrite d.bytes = (.ok (i, j), tlv)) :
    t.getAccountType = BaseState.accountType S ∧ n < 2 ^ 16 ∧ j = i + n ∧
      ((t ∉ d.types ∧ n + 4 ≤ d.padding ∧ i = d.usedLen + 4 ∧
          tlv = entriesBytes (d.entries ++ [⟨t, zeros n⟩]) ++ zeros (d.padding - (n + 4))) ∨
        (overwrite = true ∧ tlv = d.bytes ∧ ∃ pre v post, d.entries = pre ++ ⟨t, v⟩ :: post ∧
          v.length = n ∧ i = (entriesBytes pre).length + 4)) := by
  have hat : t.getAccountType = BaseState.accountType S := by
    by_contra hat
    rw [alloc, if_pos (bne_iff_ne.mpr hat)] at h
    cases h
  cases hget : d.get t with
  | some v =>
    obtain ⟨pre, post, hes, _⟩ := exists_split_of_get hget
    obtain ⟨hok, herror⟩ := alloc_of_split (S := S) hat hes n overwrite
    by_cases hmay : overwrite = true ∧ v.length = n
    · rw [hok hmay.1 hmay.2] at h
      simp only [Prod.mk.injEq, Except.ok.injEq] at h
      obtain ⟨⟨rfl, rfl⟩, rfl⟩ := h
      exact ⟨hat, hmay.2 ▸ (wf_of_split hes).length_lt, rfl,
        .inr ⟨hmay.1, rfl, pre, v, post, hes, hmay.2, rfl⟩⟩
    · obtain ⟨e, he⟩ := herror hmay
      rw [he] at h
      cases h
  | none =>
    have hnot := get_eq_none.mp hget
    have hdrop : d.bytes.drop d.usedLen = zeros d.padding := by
      rw [bytes, usedLen, List.drop_left]
    cases hix : getExtensionIndices t d.bytes true with
    | error e =>
      rw [alloc, if_neg (by simp [hat]), hix] at h
      cases h
    | ok ix =>
      rcases getExtensionIndices_cases (type_ne_of_accountType hat) hix with
        ⟨pre, v, post, hes, _⟩ | ⟨_, _, rfl, hp⟩
      · exact absurd (by rw [types, hes]; simp) hnot
      · have h' := h
        rw [alloc_eq (s := .uninitialized) hat hix (readU16_zeros (by omega) hdrop),
          length_bytes] at h'
        by_cases hroom : n + 4 ≤ d.padding
        · by_cases hn : n < 2 ^ 16
          · rw [alloc_of_not_mem hat hnot hroom hn] at h
            simp only [Prod.mk.injEq, Except.ok.injEq] at h
            obtain ⟨⟨rfl, rfl⟩, rfl⟩ := h
            exact ⟨hat, hn, rfl, .inl ⟨hnot, hroom, rfl, rfl⟩⟩
          · have hlen : lengthBytes n = .error .accountDataTooSmall := if_neg hn
            rw [if_neg (by omega), beq_self_eq_true, Bool.true_or, if_pos rfl] at h'
            simp only [hlen] at h'
            split at h'
            · cases h'
            · cases h'
        · rw [if_pos (by omega)] at h'
          cases h'

end Typed

/-! ## `realloc` -/

/-- `realloc` once the place and the lengths are read. -/
theorem realloc_eq {t : ExtensionType} {n start oldLength tlvLen : Nat} {tlv : Bytes}
    {types : List ExtensionType}
    (hix : getExtensionIndices t tlv false = .ok (getTlvIndices start))
    (hinfo : getTlvDataInfo tlv = .ok ⟨types, tlvLen⟩)
    (hread : readU16 tlv (start + 2) (start + 4) = oldLength) :
    realloc t n tlv =
      if oldLength < n && tlvLen + (n - oldLength) > tlv.length then
        (.error .invalidAccountData, tlv)
      else
        match lengthBytes n with
        | .error e => (.error e, tlv)
        | .ok len =>
          let sized := splice tlv (start + 2) len
          if tlvLen < start + 4 + oldLength then (.error RuntimeFault.panic, sized)
          else
            let moved := splice sized (start + 4 + n) (slice sized (start + 4 + oldLength) tlvLen)
            (.ok (start + 4, start + 4 + n),
              if n < oldLength then
                splice moved (tlvLen - (oldLength - n))
                  (zeros (tlvLen - (tlvLen - (oldLength - n))))
              else splice moved (start + 4 + oldLength)
                (zeros (start + 4 + n - (start + 4 + oldLength)))) := by
  subst hread
  rw [realloc, hix, hinfo]
  rfl

section Move

variable {x old post z : Bytes} {n : ℕ}

/-- A shorter value: what follows moves to the left and zeros fill the gap. -/
theorem splice_shrink (h : n ≤ old.length) :
    splice (splice (x ++ (old ++ (post ++ z))) (x.length + n) post)
        (x.length + n + post.length) (zeros (old.length - n)) =
      x ++ (old.take n ++ (post ++ (zeros (old.length - n) ++ z))) := by
  let gap := (old.drop n ++ post).drop post.length
  have hgap : gap.length = old.length - n := by simp [gap]
  have hcut : x ++ (old ++ (post ++ z)) = (x ++ old.take n) ++
      ((old.drop n ++ post).take post.length ++ (gap ++ z)) := by
    rw [← List.append_assoc (List.take _ _), List.take_append_drop]
    simp only [List.append_assoc]
    rw [← List.append_assoc (List.take _ _), List.take_append_drop]
  have htake : (old.take n).length = n := by simp [h]
  have hmoved : splice (x ++ (old ++ (post ++ z))) (x.length + n) post =
      (x ++ (old.take n ++ post)) ++ (gap ++ z) := by
    have hstart : x.length + n = (x ++ old.take n).length := by
      rw [List.length_append, htake]
    rw [hstart, hcut, splice_append (by simp)]
    simp only [List.append_assoc]
  have hstart : x.length + n + post.length = (x ++ (old.take n ++ post)).length := by
    rw [List.length_append, List.length_append, htake]
    omega
  rw [hmoved, hstart, splice_append (by simp [hgap])]
  simp only [List.append_assoc]

/-- A longer value: what follows moves to the right over zeros. -/
theorem splice_grow (h : old.length ≤ n) :
    splice (splice (x ++ (old ++ (post ++ (zeros (n - old.length) ++ z))))
        (x.length + n) post) (x.length + old.length) (zeros (n - old.length)) =
      x ++ ((old ++ zeros (n - old.length)) ++ (post ++ z)) := by
  let gap := zeros (n - old.length)
  have hgap : gap.length = n - old.length := by simp [gap]
  let front := (post ++ gap).take gap.length
  have hfront : front.length = gap.length := by simp [front]
  have hcut : x ++ (old ++ (post ++ (gap ++ z))) =
      (x ++ (old ++ front)) ++ ((post ++ gap).drop gap.length ++ z) := by
    simp only [List.append_assoc, front]
    rw [← List.append_assoc (List.take _ _), List.take_append_drop, List.append_assoc]
  have hmoved : splice (x ++ (old ++ (post ++ (gap ++ z)))) (x.length + n) post =
      (x ++ old) ++ (front ++ (post ++ z)) := by
    have hstart : x.length + n = (x ++ (old ++ front)).length := by
      rw [List.length_append, List.length_append, hfront, hgap]
      omega
    rw [hstart, hcut, splice_append (by simp)]
    simp only [List.append_assoc]
  show splice (splice (x ++ (old ++ (post ++ (gap ++ z)))) _ _) _ gap =
    x ++ ((old ++ gap) ++ (post ++ z))
  rw [hmoved, ← List.length_append, splice_append hfront.symm]
  simp only [List.append_assoc]

end Move

/-- A value cut or filled up with zeros. -/
def resized (v : Bytes) (n : ℕ) : Bytes := v.take n ++ zeros (n - v.length)

@[simp] theorem length_resized (v : Bytes) (n : ℕ) : (resized v n).length = n := by
  simp [resized]
  omega

/-- The entry gets its new length and those behind it move, if there is room and the length
fits. -/
theorem realloc_of_split {d : TlvData} {pre post : List TlvEntry} {t : ExtensionType} {v : Bytes}
    (hes : d.entries = pre ++ ⟨t, v⟩ :: post) (n : ℕ) :
    (n ≤ v.length + d.padding → n < 2 ^ 16 → realloc t n d.bytes =
      (.ok ((entriesBytes pre).length + 4, (entriesBytes pre).length + 4 + n),
        entriesBytes (pre ++ ⟨t, resized v n⟩ :: post) ++ zeros (d.padding + v.length - n))) ∧
    (¬ (n ≤ v.length + d.padding ∧ n < 2 ^ 16) → ∃ e, realloc t n d.bytes =
      (.error e, d.bytes)) := by
  have hused := usedLen_of_split hes
  have htotal := d.length_bytes
  have hread := readLength_of_drop_eq (wf_of_split hes).length_lt (drop_of_split hes)
  rw [realloc_eq (getExtensionIndices_of_split false hes) d.getTlvDataInfo_bytes hread]
  have hroom : (decide (v.length < n) && decide (d.usedLen + (n - v.length) > d.bytes.length)) =
      true ↔ ¬ n ≤ v.length + d.padding := by
    rw [Bool.and_eq_true, decide_eq_true_eq, decide_eq_true_eq]
    omega
  constructor
  · intro hfits hn
    have hlen : lengthBytes n = .ok (leBytes 2 n) := lengthBytes_eq_ok.mpr ⟨hn, rfl⟩
    -- the buffer, cut at the header, the value and the entries behind
    let head := entriesBytes pre ++ (leBytes 2 t.toNat ++ leBytes 2 n)
    have hhead : head.length = (entriesBytes pre).length + 4 := by simp [head]
    have hwritten : splice d.bytes ((entriesBytes pre).length + 2) (leBytes 2 n) =
        head ++ (v ++ (entriesBytes post ++ zeros d.padding)) := by
      have hstart : (entriesBytes pre).length + 2 =
          (entriesBytes pre ++ leBytes 2 t.toNat).length := by simp
      have hsplit : d.bytes = (entriesBytes pre ++ leBytes 2 t.toNat) ++
          (leBytes 2 v.length ++ (v ++ (entriesBytes post ++ zeros d.padding))) := by
        rw [bytes_of_split hes, TlvEntry.bytes]
        simp only [List.append_assoc]
      rw [hstart, hsplit, splice_append (by simp)]
      simp only [head, List.append_assoc]
    have hbehind : slice (head ++ (v ++ (entriesBytes post ++ zeros d.padding)))
        (head.length + v.length) d.usedLen = entriesBytes post := by
      rw [hused, ← hhead]
      refine slice_of_drop_eq (show List.drop _ _ = _ ++ zeros d.padding from ?_)
      rw [← List.length_append, ← List.append_assoc, List.drop_left]
    have hresult : entriesBytes (pre ++ ⟨t, resized v n⟩ :: post) ++
        zeros (d.padding + v.length - n) = head ++ (resized v n ++ (entriesBytes post ++
          zeros (d.padding + v.length - n))) := by
      simp [TlvEntry.bytes, head]
    rw [if_neg (by rw [hroom, not_not]; exact hfits)]
    simp only [hlen, hwritten, ← hhead, hbehind]
    rw [if_neg (by omega), hresult]
    congr 1
    by_cases hlt : n < v.length
    · have hstart : d.usedLen - (v.length - n) =
          head.length + n + (entriesBytes post).length := by omega
      have hcount : d.usedLen - (head.length + n + (entriesBytes post).length) =
          v.length - n := by omega
      rw [if_pos hlt, hstart, hcount, splice_shrink hlt.le, List.replicate_append_replicate,
        resized, Nat.sub_eq_zero_of_le hlt.le, show zeros 0 = [] from rfl, List.append_nil]
      congr 4
      omega
    · have hpad : zeros d.padding = zeros (n - v.length) ++
          zeros (d.padding + v.length - n) := by
        rw [List.replicate_append_replicate]
        congr 1
        omega
      have hcount : head.length + n - (head.length + v.length) = n - v.length := by omega
      rw [if_neg hlt, hpad, hcount, splice_grow (by omega), resized,
        List.take_of_length_le (by omega)]
  · intro hnot
    by_cases hfits : n ≤ v.length + d.padding
    · have hlen : lengthBytes n = .error .accountDataTooSmall :=
        if_neg fun hn => hnot ⟨hfits, hn⟩
      rw [if_neg (by rw [hroom, not_not]; exact hfits)]
      simp only [hlen]
      exact ⟨_, rfl⟩
    · rw [if_pos (hroom.mpr hfits)]
      exact ⟨_, rfl⟩

/-- A missing entry is not resized. -/
theorem realloc_of_not_mem {d : TlvData} {t : ExtensionType} (ht : t ≠ .uninitialized)
    (hnot : t ∉ d.types) (n : ℕ) : ∃ e, realloc t n d.bytes = (.error e, d.bytes) := by
  rw [realloc]
  cases hix : getExtensionIndices t d.bytes false with
  | error e => exact ⟨e, rfl⟩
  | ok ix =>
    rcases getExtensionIndices_cases ht hix with ⟨pre, v, post, hes, _⟩ | ⟨_, hinit, _⟩
    · exact absurd (by rw [types, hes]; simp) hnot
    · cases hinit

/-- What a successful `realloc` comes to. -/
theorem realloc_cases {d : TlvData} {t : ExtensionType} {n i j : ℕ} {tlv : Bytes}
    (ht : t ≠ .uninitialized) (h : realloc t n d.bytes = (.ok (i, j), tlv)) :
    ∃ pre v post, d.entries = pre ++ ⟨t, v⟩ :: post ∧ n ≤ v.length + d.padding ∧ n < 2 ^ 16 ∧
      i = (entriesBytes pre).length + 4 ∧ j = i + n ∧
      tlv = entriesBytes (pre ++ ⟨t, resized v n⟩ :: post) ++
        zeros (d.padding + v.length - n) := by
  cases hget : d.get t with
  | none =>
    obtain ⟨e, he⟩ := realloc_of_not_mem ht (get_eq_none.mp hget) n
    rw [he] at h
    cases h
  | some v =>
    obtain ⟨pre, post, hes, _⟩ := exists_split_of_get hget
    obtain ⟨hok, herror⟩ := realloc_of_split hes n
    by_cases hmay : n ≤ v.length + d.padding ∧ n < 2 ^ 16
    · rw [hok hmay.1 hmay.2] at h
      simp only [Prod.mk.injEq, Except.ok.injEq] at h
      obtain ⟨⟨rfl, rfl⟩, rfl⟩ := h
      exact ⟨pre, v, post, hes, hmay.1, hmay.2, rfl, rfl, rfl⟩
    · obtain ⟨e, he⟩ := herror hmay
      rw [he] at h
      cases h

/-! ## Inserting -/

/-- `d'` is `d` with `v` as the value of `t`: a missing type comes last, and the entries of
the other types keep their values and their order. -/
structure Inserts (d : TlvData) (t : ExtensionType) (v : Bytes) (d' : TlvData) : Prop where
  types : d'.types = if t ∈ d.types then d.types else d.types ++ [t]
  others : d'.others t = d.others t
  get : d'.get t = some v

theorem inserts_of_replace {d d' : TlvData} {pre post : List TlvEntry} {t : ExtensionType}
    {old v : Bytes} (hes : d.entries = pre ++ ⟨t, old⟩ :: post)
    (hes' : d'.entries = pre ++ ⟨t, v⟩ :: post) : d.Inserts t v d' := by
  have hmem : t ∈ d.types := by simp [types, hes]
  refine ⟨?_, ?_, ?_⟩
  · rw [if_pos hmem]
    simp [types, hes, hes']
  · rw [others_of_split hes, others_of_split hes']
  · rw [get_of_split hes', if_pos rfl]

theorem inserts_of_push {d d' : TlvData} {t : ExtensionType} {v : Bytes} (hnot : t ∉ d.types)
    (hes' : d'.entries = d.entries ++ [⟨t, v⟩]) : d.Inserts t v d' := by
  refine ⟨?_, ?_, ?_⟩
  · rw [if_neg hnot]
    simp [types, hes']
  · simp [others, hes']
  · rw [get_of_split hes', if_pos rfl]

theorem Inserts.mem_types {d d' : TlvData} {t s : ExtensionType} {v : Bytes}
    (h : d.Inserts t v d') : s ∈ d'.types ↔ s ∈ d.types ∨ s = t := by
  rw [h.types]
  split
  · rename_i hmem
    refine ⟨.inl, ?_⟩
    rintro (hs | rfl)
    · exact hs
    · exact hmem
  · rw [List.mem_append, List.mem_singleton]

/-- The entry of a type and the others make up the whole. -/
theorem usedLen_eq (d : TlvData) (t : ExtensionType) :
    d.usedLen = (entriesBytes (d.others t)).length +
      ((d.get t).map fun v => v.length + 4).getD 0 := by
  cases hget : d.get t with
  | none =>
    have hnot := get_eq_none.mp hget
    have hothers : d.others t = d.entries := by
      rw [others, List.filter_eq_self]
      intro e he
      rw [bne_iff_ne]
      rintro rfl
      exact hnot (List.mem_map_of_mem he)
    rw [hothers]
    rfl
  | some v =>
    obtain ⟨pre, post, hes, _⟩ := exists_split_of_get hget
    rw [others_of_split hes, usedLen_of_split hes, entriesBytes_append, List.length_append]
    show _ = _ + (v.length + 4)
    omega

theorem Inserts.usedLen {d d' : TlvData} {t : ExtensionType} {v : Bytes}
    (h : d.Inserts t v d') :
    d'.usedLen + ((d.get t).map fun v => v.length + 4).getD 0 = d.usedLen + (v.length + 4) := by
  have hused := usedLen_eq d t
  have hused' : d'.usedLen = _ + (v.length + 4) := h.get ▸ usedLen_eq d' t
  rw [h.others] at hused'
  omega

section Typed

variable {S : Type} [BaseState S]

/-- A value of the length asked for, written into the range that `alloc` gives. -/
theorem exists_insert {d : TlvData} {t : ExtensionType} {v tlv : Bytes} {i j : ℕ}
    {overwrite : Bool} (h : alloc S t v.length overwrite d.bytes = (.ok (i, j), tlv)) :
    j = i + v.length ∧ ∃ d' : TlvData, splice tlv i v = d'.bytes ∧ d.Inserts t v d' ∧
      d'.bytes.length = d.bytes.length := by
  obtain ⟨hat, hn, rfl, hcase⟩ := alloc_cases h
  rcases hcase with ⟨hnot, hroom, rfl, rfl⟩ | ⟨_, rfl, pre, old, post, hes, hlen, rfl⟩
  · obtain ⟨d', hes', hpad⟩ :=
      d.exists_push hnot (type_ne_of_accountType hat) hn (d.padding - (v.length + 4))
    have hused : d'.usedLen = d.usedLen + (4 + v.length) := by simp [usedLen, hes']
    refine ⟨rfl, d', ?_, inserts_of_push hnot hes', ?_⟩
    · rw [splice_pushed List.length_replicate.symm, bytes, hes', hpad]
    · rw [length_bytes, length_bytes]
      omega
  · obtain ⟨d', hes', hpad⟩ := exists_replace hes hn d.padding
    refine ⟨rfl, d', ?_, inserts_of_replace hes hes', ?_⟩
    · rw [splice_value hes hlen.symm, bytes, hes', hpad]
    · rw [length_bytes, length_bytes, usedLen_of_split hes, usedLen_of_split hes', hpad, hlen]

end Typed

end TlvData

end SolanaEasy.Token
