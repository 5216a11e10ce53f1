import SolanaEasy.Token.TlvData

/-!
# TLV buffers — every buffer the program writes is well formed

`TlvBuffer a` is a buffer for an account of kind `a`: distinct entries of that
kind, fixed-size values of their size, zeros after the last entry. Reads of its
bytes are lookups; `alloc`, `realloc` and the writes through a value range end in
the bytes of another `TlvBuffer`.
-/

namespace SolanaEasy.Token

/-- An entry that may stand in an account of kind `a`. -/
structure TlvEntry.Belongs (a : AccountType) (e : TlvEntry) : Prop extends e.Wf where
  accountType : e.type.getAccountType = a
  sized : e.type.sized = true → e.value.length = e.type.typeLen

structure TlvBuffer (a : AccountType) where
  entries : List TlvEntry
  padding : Nat
  belongs : ∀ e ∈ entries, e.Belongs a
  nodup : (entries.map (·.type)).Nodup

namespace TlvBuffer

variable {a : AccountType}

def bytes (b : TlvBuffer a) : Bytes := entriesBytes b.entries ++ zeros b.padding

/-- The value of a type. -/
def get (b : TlvBuffer a) (t : ExtensionType) : Option Bytes := lookup b.entries t

def types (b : TlvBuffer a) : List ExtensionType := b.entries.map (·.type)

theorem length_bytes (b : TlvBuffer a) :
    b.bytes.length = (entriesBytes b.entries).length + b.padding := by
  simp [bytes]

theorem mem_types {b : TlvBuffer a} {t : ExtensionType} :
    t ∈ b.types ↔ (b.get t).isSome = true := lookup_isSome.symm

theorem get_eq_none {b : TlvBuffer a} {t : ExtensionType} : b.get t = none ↔ t ∉ b.types :=
  lookup_eq_none

theorem wf (b : TlvBuffer a) : ∀ e ∈ b.entries, e.Wf := fun e he => (b.belongs e he).toWf

/-- The same buffer, without its kind. -/
def data (b : TlvBuffer a) : TlvData := ⟨b.entries, b.padding, b.wf, b.nodup⟩

theorem mem_of_get {b : TlvBuffer a} {t : ExtensionType} {v : Bytes} (h : b.get t = some v) :
    ⟨t, v⟩ ∈ b.entries := by
  obtain ⟨pre, post, hes, _⟩ := exists_split h
  rw [hes]
  exact List.mem_append_right _ List.mem_cons_self

theorem belongs_of_get {b : TlvBuffer a} {t : ExtensionType} {v : Bytes} (h : b.get t = some v) :
    TlvEntry.Belongs a ⟨t, v⟩ := b.belongs _ (mem_of_get h)

/-! ## Building -/

/-- A buffer of zeros. -/
def blank (a : AccountType) (n : Nat) : TlvBuffer a := ⟨[], n, by simp, List.nodup_nil⟩

@[simp] theorem bytes_blank (n : Nat) : (blank a n).bytes = zeros n := rfl

@[simp] theorem get_blank (n : Nat) (t : ExtensionType) : (blank a n).get t = none := rfl

/-- The length of the entries. -/
def usedLen (b : TlvBuffer a) : Nat := (entriesBytes b.entries).length

/-- The length of the entry of a type. -/
def entryLen (b : TlvBuffer a) (t : ExtensionType) : Nat :=
  ((b.get t).map fun v => v.length + 4).getD 0

/-- `b'` is `b` with `v` as the value of `t`. -/
structure Sets (b : TlvBuffer a) (t : ExtensionType) (v : Bytes) (b' : TlvBuffer a) : Prop where
  get : b'.get = Function.update b.get t (some v)
  usedLen : b'.usedLen + b.entryLen t = b.usedLen + (v.length + 4)

/-- The value of an entry replaced, with another padding. -/
theorem exists_replace (b : TlvBuffer a) {pre post : List TlvEntry} {t : ExtensionType}
    {old v : Bytes} (hes : b.entries = pre ++ ⟨t, old⟩ :: post)
    (hv : TlvEntry.Belongs a ⟨t, v⟩) (n : Nat) :
    ∃ b' : TlvBuffer a, b'.bytes = entriesBytes (pre ++ ⟨t, v⟩ :: post) ++ zeros n ∧
      b.Sets t v b' := by
  have hpre := (TlvData.not_mem_of_split (d := b.data) hes).1
  have hbelongs := b.belongs
  have hnodup := b.nodup
  rw [hes] at hbelongs hnodup
  refine ⟨⟨pre ++ ⟨t, v⟩ :: post, n, ?_, ?_⟩, rfl, ?_, ?_⟩
  · intro e he
    rw [List.mem_append, List.mem_cons] at he
    rcases he with he | rfl | he
    · exact hbelongs e (List.mem_append_left _ he)
    · exact hv
    · exact hbelongs e (List.mem_append_right _ (List.mem_cons_of_mem _ he))
  · simpa using hnodup
  · funext s
    rw [TlvBuffer.get, lookup_split hpre, Function.update_apply, TlvBuffer.get, hes,
      lookup_split hpre]
    by_cases hs : s = t
    · rw [if_pos hs, if_pos hs]
    · rw [if_neg hs, if_neg hs, if_neg hs]
  · have hget : b.get t = some old := by rw [TlvBuffer.get, hes, lookup_split hpre, if_pos rfl]
    rw [entryLen, hget, TlvBuffer.usedLen, TlvBuffer.usedLen, hes]
    simp
    omega

/-- A new entry at the end. -/
theorem exists_push (b : TlvBuffer a) {t : ExtensionType} {v : Bytes} (ht : t ∉ b.types)
    (hv : TlvEntry.Belongs a ⟨t, v⟩) (n : Nat) :
    ∃ b' : TlvBuffer a, b'.bytes = entriesBytes (b.entries ++ [⟨t, v⟩]) ++ zeros n ∧
      b.Sets t v b' := by
  refine ⟨⟨b.entries ++ [⟨t, v⟩], n, ?_, ?_⟩, rfl, ?_, ?_⟩
  · intro e he
    rw [List.mem_append, List.mem_singleton] at he
    rcases he with he | rfl
    · exact b.belongs e he
    · exact hv
  · rw [List.map_append, List.nodup_append]
    refine ⟨b.nodup, by simp, ?_⟩
    intro s hs u hu
    obtain rfl : u = t := by simpa using hu
    rintro rfl
    exact ht hs
  · funext s
    rw [TlvBuffer.get, lookup_split ht, Function.update_apply, TlvBuffer.get, List.append_nil]
  · rw [entryLen, get_eq_none.mpr ht, TlvBuffer.usedLen, TlvBuffer.usedLen]
    simp
    omega

/-! ## Reading -/

theorem getTlvDataInfo_bytes (b : TlvBuffer a) :
    getTlvDataInfo b.bytes = .ok ⟨b.types, (entriesBytes b.entries).length⟩ :=
  b.data.getTlvDataInfo_bytes

section Typed

variable {S : Type} [BaseState S]

/-- The value range is that of the entry. -/
theorem getExtensionRange_eq_ok {b : TlvBuffer (BaseState.accountType S)} {t : ExtensionType}
    {i j : Nat} :
    getExtensionRange S t b.bytes = .ok (i, j) ↔ ∃ pre v post,
      b.entries = pre ++ ⟨t, v⟩ :: post ∧ i = (entriesBytes pre).length + 4 ∧
        j = i + v.length := by
  refine (TlvData.getExtensionRange_eq_ok (d := b.data)).trans (and_iff_right_of_imp ?_)
  rintro ⟨pre, v, post, hes, _⟩
  have hes : b.entries = pre ++ ⟨t, v⟩ :: post := hes
  exact (b.belongs ⟨t, v⟩ (by rw [hes]; simp)).accountType

theorem getExtensionBytes_eq_ok {b : TlvBuffer (BaseState.accountType S)} {t : ExtensionType}
    {v : Bytes} : getExtensionBytes S t b.bytes = .ok v ↔ b.get t = some v := by
  refine (TlvData.getExtensionBytes_eq_ok (d := b.data)).trans (and_iff_right_of_imp ?_)
  exact fun h => (belongs_of_get h).accountType

theorem getFirstExtensionType_bytes (b : TlvBuffer a) :
    getFirstExtensionType b.bytes = .ok b.types.head? := b.data.getFirstExtensionType_bytes

/-! ## Writing -/

/-- `*get_extension_mut()? = v`: a value of the same length over the old one. -/
theorem exists_set {b : TlvBuffer (BaseState.accountType S)} {t : ExtensionType} {i j : Nat}
    {v : Bytes} (h : getExtensionRange S t b.bytes = .ok (i, j)) (hv : v.length = j - i) :
    ∃ b' : TlvBuffer (BaseState.accountType S), b'.bytes = splice b.bytes i v ∧ b.Sets t v b' ∧
      t ∈ b.types := by
  obtain ⟨pre, old, post, hes, rfl, rfl⟩ := getExtensionRange_eq_ok.mp h
  have hold := b.belongs ⟨t, old⟩ (by rw [hes]; simp)
  have hlen : v.length = old.length := by omega
  have hnew : TlvEntry.Belongs (BaseState.accountType S) ⟨t, v⟩ :=
    ⟨⟨hold.type_ne, hlen.trans_lt hold.length_lt⟩, hold.accountType,
      fun hs => hlen.trans (hold.sized hs)⟩
  obtain ⟨b', hb', hsets⟩ := b.exists_replace hes hnew b.padding
  refine ⟨b', hb'.trans (TlvData.splice_value (d := b.data) hes hlen).symm, hsets, ?_⟩
  rw [types, hes]
  simp

/-- `*init_extension(overwrite)? = v`. -/
theorem exists_alloc {b : TlvBuffer (BaseState.accountType S)} {t : ExtensionType} {i j : Nat}
    {overwrite : Bool} {v tlv : Bytes}
    (h : alloc S t v.length overwrite b.bytes = (.ok (i, j), tlv))
    (hsized : t.sized = true → v.length = t.typeLen) :
    ∃ b' : TlvBuffer (BaseState.accountType S), b'.bytes = splice tlv i v ∧ b.Sets t v b' ∧
      b'.bytes.length = b.bytes.length ∧ (overwrite = false → t ∉ b.types) := by
  obtain ⟨hat, hn, rfl, ⟨hnot, hp, rfl, rfl⟩ | ⟨rfl, rfl, pre, old, post, hes, hlen, rfl⟩⟩ :=
    TlvData.alloc_cases (d := b.data) h
  · obtain ⟨b', hb', hsets⟩ := b.exists_push hnot
      ⟨⟨TlvData.type_ne_of_accountType hat, hn⟩, hat, hsized⟩ (b.padding - (v.length + 4))
    refine ⟨b', ?_, hsets, ?_, fun _ => hnot⟩
    · have hlen : v.length = (zeros v.length).length := List.length_replicate.symm
      exact hb'.trans (TlvData.splice_pushed (d := b.data) hlen).symm
    · have hroom : v.length + 4 ≤ b.padding := hp
      rw [hb', length_bytes]
      simp
      omega
  · have hes : b.entries = pre ++ ⟨t, old⟩ :: post := hes
    have hrange : getExtensionRange S t b.bytes =
        .ok ((entriesBytes pre).length + 4, (entriesBytes pre).length + 4 + v.length) :=
      getExtensionRange_eq_ok.mpr ⟨pre, old, post, hes, rfl, by rw [hlen]⟩
    obtain ⟨b', hb', hsets, _⟩ := exists_set hrange (Nat.add_sub_cancel_left _ _).symm
    refine ⟨b', hb', hsets, ?_, by simp⟩
    rw [hb', length_splice]
    rw [length_bytes, hes]
    simp [hlen]
    omega

end Typed

/-- `realloc`, then the new value: the entries behind it move, and zeros follow. -/
theorem exists_realloc {b : TlvBuffer a} {t : ExtensionType} {i j : Nat} {v tlv : Bytes}
    (h : realloc t v.length b.bytes = (.ok (i, j), tlv)) (ht : t ≠ .uninitialized)
    (hsized : t.sized = false) :
    ∃ b' : TlvBuffer a, b'.bytes = splice tlv i v ∧ b.Sets t v b' ∧
      b'.bytes.length = b.bytes.length ∧ j = i + v.length := by
  obtain ⟨pre, old, post, hes, hroom, hn, rfl, rfl, rfl⟩ :=
    TlvData.realloc_cases (d := b.data) ht h
  have hes : b.entries = pre ++ ⟨t, old⟩ :: post := hes
  have hold := b.belongs ⟨t, old⟩ (by rw [hes]; simp)
  have hnew : TlvEntry.Belongs a ⟨t, v⟩ :=
    ⟨⟨ht, hn⟩, hold.accountType, fun h => by rw [hsized] at h; cases h⟩
  obtain ⟨b', hb', hsets⟩ := b.exists_replace hes hnew (b.padding + old.length - v.length)
  refine ⟨b', hb'.trans (TlvData.splice_entries (TlvData.length_resized _ _).symm).symm, hsets,
    ?_, rfl⟩
  have hroom : v.length ≤ old.length + b.padding := hroom
  rw [hb', length_bytes, hes]
  simp
  omega

end TlvBuffer

end SolanaEasy.Token
