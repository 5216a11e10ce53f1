import Mathlib.Algebra.Order.BigOperators.Group.List
import SolanaEasy.Token.Law.TlvMutators

/-!
# Room — buffers in which a list of extensions can be initialised

A buffer that holds some extensions of a list has room for the rest when it is as long as
the sizes of the list's types. Any of them can be initialised then, in any order, and the
room stays.
-/

namespace SolanaEasy.Token

open ExtensionType

/-! ## Sizes of types -/

/-- The length of one entry of each type. -/
def tlvLen (ts : List ExtensionType) : ℕ := (ts.map fun t => addTypeAndLengthToLen t.typeLen).sum

@[simp] theorem tlvLen_append (ts us : List ExtensionType) :
    tlvLen (ts ++ us) = tlvLen ts + tlvLen us := by simp [tlvLen]

@[simp] theorem tlvLen_singleton (t : ExtensionType) : tlvLen [t] = t.typeLen + 4 := by
  simp [tlvLen, addTypeAndLengthToLen]

theorem tlvLen_le_of_subset {ts us : List ExtensionType} (hnodup : ts.Nodup) (hsub : ts ⊆ us) :
    tlvLen ts ≤ tlvLen us := by
  obtain ⟨ws, hperm, hsublist⟩ := List.subperm_of_subset hnodup hsub
  calc tlvLen ts = tlvLen ws := (hperm.map _).sum_eq.symm
    _ ≤ tlvLen us := (hsublist.map _).sum_le_sum fun _ _ => Nat.zero_le _

theorem tlvLen_eq_of_mem_iff {ts us : List ExtensionType} (hts : ts.Nodup) (hus : us.Nodup)
    (h : ∀ t, t ∈ ts ↔ t ∈ us) : tlvLen ts = tlvLen us :=
  Nat.le_antisymm (tlvLen_le_of_subset hts fun t ht => (h t).mp ht)
    (tlvLen_le_of_subset hus fun t ht => (h t).mpr ht)

theorem tryGetTotalTlvLen_eq {ts : List ExtensionType} (h : ∀ t ∈ ts, t.sized = true) :
    tryGetTotalTlvLen ts = .ok (tlvLen ts.dedup) := by
  have hlens : ∀ t ∈ ts.dedup, t.tryGetTypeLen = .ok t.typeLen := fun t ht =>
    if_pos (h t (List.mem_dedup.mp ht))
  rw [tryGetTotalTlvLen, mapM_eq_ok_map hlens, ok_bind, List.map_map]
  rfl

/-- The calculated length. -/
theorem tryCalculateAccountLen_eq {S : Type} [BaseState S] {ts : List ExtensionType}
    (h : ∀ t ∈ ts, t.sized = true) (hne : ts ≠ []) :
    tryCalculateAccountLen S ts =
      .ok (adjustLenForMultisig (tlvLen ts.dedup + (accountLen + 1))) := by
  rw [tryCalculateAccountLen, if_neg (by simpa using hne), tryGetTotalTlvLen_eq h]
  rfl

/-! ## Room for a list of types -/

namespace TlvData

/-- The buffer holds types of `ts`, at their sizes, and is long enough for all of them. -/
structure Room (ts : List ExtensionType) (d : TlvData) : Prop where
  subset : d.types ⊆ ts
  sized : ∀ e ∈ d.entries, e.value.length = e.type.typeLen
  room : tlvLen ts.dedup ≤ d.bytes.length

variable {ts : List ExtensionType} {d d' : TlvData} {t : ExtensionType} {v : Bytes}

theorem Room.blank {n : ℕ} (h : tlvLen ts.dedup ≤ n) : Room ts (TlvData.blank n) where
  subset := by simp [TlvData.types, TlvData.blank]
  sized := by simp [TlvData.blank]
  room := by simpa [TlvData.bytes, TlvData.blank] using h

theorem usedLen_eq_tlvLen (h : ∀ e ∈ d.entries, e.value.length = e.type.typeLen) :
    d.usedLen = tlvLen d.types := by
  have hsum : ∀ es : List TlvEntry, (∀ e ∈ es, e.value.length = e.type.typeLen) →
      (entriesBytes es).length = tlvLen (es.map (·.type)) := by
    intro es
    induction es with
    | nil => exact fun _ => rfl
    | cons e es ih =>
      intro hes
      have hhead := hes e List.mem_cons_self
      have htail := ih fun f hf => hes f (List.mem_cons_of_mem _ hf)
      rw [entriesBytes_cons, List.length_append, TlvEntry.length_bytes, htail, hhead,
        List.map_cons, ← List.singleton_append, tlvLen_append, tlvLen_singleton]
      omega
  exact hsum d.entries h

/-- Sizes survive an insert of a value of the right size. -/
theorem Inserts.sized (hins : d.Inserts t v d') (hv : v.length = t.typeLen)
    (h : ∀ e ∈ d.entries, e.value.length = e.type.typeLen) :
    ∀ e ∈ d'.entries, e.value.length = e.type.typeLen := by
  intro e he
  by_cases ht : e.type = t
  · obtain ⟨pre, post, hes, _⟩ := exists_split_of_get hins.get
    have hget : d'.get e.type = some e.value := by
      obtain ⟨before, after, hsplit⟩ := List.append_of_mem he
      rw [get_of_split (t := e.type) (v := e.value) hsplit, if_pos rfl]
    rw [ht, hins.get] at hget
    rw [← Option.some.inj hget, hv, ht]
  · have hmem : e ∈ d'.others t := List.mem_filter.mpr ⟨he, by simpa using ht⟩
    rw [hins.others] at hmem
    exact h e (List.mem_filter.mp hmem).1

theorem Room.insert (hroom : Room ts d) (ht : t ∈ ts) (hv : v.length = t.typeLen)
    (hins : d.Inserts t v d') (hlen : d'.bytes.length = d.bytes.length) : Room ts d' where
  subset := by
    intro s hs
    rcases hins.mem_types.mp hs with hs | rfl
    · exact hroom.subset hs
    · exact ht
  sized := hins.sized hv hroom.sized
  room := by rw [hlen]; exact hroom.room

/-- A type of the list that is missing still fits. -/
theorem Room.fits (hroom : Room ts d) (ht : t ∈ ts) (hnot : t ∉ d.types) :
    t.typeLen + 4 ≤ d.padding := by
  have hnodup : (d.types ++ [t]).Nodup := by
    rw [List.nodup_append]
    refine ⟨d.nodup, by simp, ?_⟩
    rintro s hs u hu rfl
    rw [List.mem_singleton] at hu
    exact hnot (hu ▸ hs)
  have hsub : d.types ++ [t] ⊆ ts.dedup := by
    intro s hs
    rw [List.mem_append, List.mem_singleton] at hs
    rw [List.mem_dedup]
    rcases hs with hs | rfl
    · exact hroom.subset hs
    · exact ht
  have hle := tlvLen_le_of_subset hnodup hsub
  have hlong := hroom.room
  rw [tlvLen_append, tlvLen_singleton, ← usedLen_eq_tlvLen hroom.sized] at hle
  rw [length_bytes] at hlong
  omega

/-- Once all types are there, the entries are as long as their sizes. -/
theorem Room.usedLen (hroom : Room ts d) (hall : ∀ t ∈ ts, t ∈ d.types) :
    d.usedLen = tlvLen ts.dedup := by
  rw [usedLen_eq_tlvLen hroom.sized]
  refine tlvLen_eq_of_mem_iff d.nodup (List.nodup_dedup ts) fun t => ?_
  rw [List.mem_dedup]
  exact ⟨fun ht => hroom.subset ht, hall t⟩

end TlvData

/-! ## Initialisers -/

/-- A call of `init_extension` and the value that its caller writes. -/
structure ExtensionInit where
  V : Type
  pod : Pod V
  extension : Extension V
  sized : SizedExtension V
  value : V
  overwrite : Bool

attribute [instance] ExtensionInit.pod ExtensionInit.extension ExtensionInit.sized

def ExtensionInit.type (x : ExtensionInit) : ExtensionType := Extension.type x.V

/-- Calls of `init_extension`, one after the other. -/
def initExtensions {S : Type} [BaseState S] : List ExtensionInit → PodState S →
    Result (PodState S)
  | [], s => .ok s
  | x :: xs, s => do
    let s ← s.initExtension x.value x.overwrite
    initExtensions xs s

/-- Calls for types of `ts`, each with `overwrite` or for a type that is not yet known. -/
def Admissible (ts : List ExtensionType) : List ExtensionType → List ExtensionInit → Prop
  | _, [] => True
  | known, x :: xs => x.type ∈ ts ∧ (x.overwrite = true ∨ x.type ∉ known) ∧
      Admissible ts (known ++ [x.type]) xs

theorem Admissible.congr {ts known known' : List ExtensionType} {xs : List ExtensionInit}
    (h : ∀ t, t ∈ known' → t ∈ known) (hadmissible : Admissible ts known xs) :
    Admissible ts known' xs := by
  induction xs generalizing known known' with
  | nil => trivial
  | cons x xs ih =>
    obtain ⟨hmem, hmay, hrest⟩ := hadmissible
    refine ⟨hmem, ?_, ih (fun t ht => ?_) hrest⟩
    · rcases hmay with hover | hnot
      · exact .inl hover
      · exact .inr fun ht => hnot (h _ ht)
    · rw [List.mem_append] at ht ⊢
      rcases ht with ht | ht
      · exact .inl (h t ht)
      · exact .inr ht

section Initialisers

variable {S : Type} [BaseState S] {ts : List ExtensionType} {d : TlvData} {s : PodState S}

/-- With room for its type an initialiser does not fail. -/
theorem TlvData.Room.initExtension_ok {V : Type} [Pod V] [Extension V] [SizedExtension V]
    (hroom : Room ts d) (hs : s.tlvData = d.bytes) (x : V) {overwrite : Bool}
    (hat : (Extension.type V).getAccountType = BaseState.accountType S)
    (hsized : (Extension.type V).sized = true) (ht : Extension.type V ∈ ts)
    (hmay : overwrite = true ∨ Extension.type V ∉ d.types) :
    ∃ (s' : PodState S) (d' : TlvData), s.initExtension x overwrite = .ok s' ∧
      s'.base = s.base ∧ s'.accountType = s.accountType ∧ s'.tlvData = d'.bytes ∧
        d.Inserts (Extension.type V) (Pod.toBytes x) d' ∧ d'.bytes.length = d.bytes.length ∧
          Room ts d' := by
  have hlen : (Pod.toBytes x).length = (Extension.type V).typeLen := by
    rw [Pod.length_toBytes]
    exact SizedExtension.size_eq hsized
  have hshort : (Pod.toBytes x).length < 2 ^ 16 := hlen ▸ ExtensionType.typeLen_lt _
  obtain ⟨i, j, tlv, hok⟩ : ∃ i j tlv,
      alloc S (Extension.type V) (Pod.toBytes x).length overwrite d.bytes = (.ok (i, j), tlv) := by
    cases hget : d.get (Extension.type V) with
    | none =>
      have hnot := TlvData.get_eq_none.mp hget
      have hfits := hroom.fits ht hnot
      rw [← hlen] at hfits
      exact ⟨_, _, _, TlvData.alloc_of_not_mem hat hnot hfits hshort overwrite⟩
    | some old =>
      obtain ⟨pre, post, hes, _⟩ := TlvData.exists_split_of_get hget
      have hmem : Extension.type V ∈ d.types :=
        TlvData.mem_types.mpr (Option.isSome_iff_exists.mpr ⟨old, hget⟩)
      have hover := hmay.resolve_right (not_not.mpr hmem)
      have hold : old.length = (Pod.toBytes x).length := by
        rw [hlen]
        exact hroom.sized ⟨_, old⟩ (by rw [hes]; simp)
      exact ⟨_, _, _, (TlvData.alloc_of_split hat hes _ overwrite).1 hover hold⟩
  obtain ⟨_, d', hd', hins, hsame⟩ := TlvData.exists_insert hok
  refine ⟨{ s with tlvData := d'.bytes }, d', ?_, rfl, rfl, rfl, hins, hsame,
    hroom.insert ht hlen hins hsame⟩
  rw [initExtension_eq_writeRange s x overwrite hs, writeRange_alloc_eq _ _ _ _ hs, hok]
  simp only [hd']

/-- All calls succeed, and the types that are there are the old ones and those of the calls. -/
theorem TlvData.Room.initExtensions_ok
    (hts : ∀ t ∈ ts, t.sized = true ∧ t.getAccountType = BaseState.accountType S)
    {xs : List ExtensionInit} (hroom : Room ts d) (hs : s.tlvData = d.bytes)
    (hadmissible : Admissible ts d.types xs) :
    ∃ (s' : PodState S) (d' : TlvData), initExtensions xs s = .ok s' ∧
      s'.tlvData = d'.bytes ∧ Room ts d' ∧
        ∀ t, t ∈ d'.types ↔ t ∈ d.types ∨ t ∈ xs.map (·.type) := by
  induction xs generalizing s d with
  | nil => exact ⟨s, d, rfl, hs, hroom, by simp⟩
  | cons x xs ih =>
    obtain ⟨ht, hmay, hrest⟩ := hadmissible
    obtain ⟨hsized, hat⟩ := hts _ ht
    obtain ⟨s₁, d₁, hinit, _, _, hs₁, hins, _, hroom₁⟩ :=
      hroom.initExtension_ok hs x.value hat hsized ht hmay
    have htypes : ∀ t, t ∈ d₁.types ↔ t ∈ d.types ∨ t = x.type := fun _ => hins.mem_types
    have hrest₁ : Admissible ts d₁.types xs := by
      refine hrest.congr fun t h => ?_
      rw [List.mem_append, List.mem_singleton]
      exact (htypes t).mp h
    obtain ⟨s', d', hinits, hs', hroom', htypes'⟩ := ih hroom₁ hs₁ hrest₁
    refine ⟨s', d', ?_, hs', hroom', fun t => ?_⟩
    · rw [initExtensions, hinit]
      exact hinits
    · rw [htypes' t, htypes t, List.map_cons, List.mem_cons, or_assoc]

end Initialisers

end SolanaEasy.Token
