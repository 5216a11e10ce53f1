import SolanaEasy.Token.Runtime
import SolanaEasy.Token.View

/-!
# TLV mutators — an insert with a frame, a resize with a frame, and failures

An initialiser puts one value into a well-formed buffer and leaves the other entries
alone; `realloc` gives one entry another length and moves those behind it. A call that
fails leaves any buffer as it is, with one exception: `alloc` writes the type of a new
entry before it finds that the length does not fit sixteen bits.
-/

namespace SolanaEasy.Token

variable {S : Type} [BaseState S]

/-! ## Initialisers -/

/-- The bytes of a value, written into the range that `alloc` gives. -/
theorem writeRange_alloc_eq (s : PodState S) (t : ExtensionType) (v : Bytes) (overwrite : Bool)
    {d : TlvData} (hs : s.tlvData = d.bytes) :
    writeRange s (alloc S t v.length overwrite s.tlvData) v =
      match alloc S t v.length overwrite d.bytes with
      | (.ok (i, _), tlv) => .ok { s with tlvData := splice tlv i v }
      | (.error e, _) => .error e := by
  rw [hs]
  rcases hr : alloc S t v.length overwrite d.bytes with ⟨_ | ⟨i, j⟩, tlv⟩
  · rfl
  · obtain ⟨rfl, _⟩ := TlvData.exists_insert hr
    simp [writeRange, failIf]

/-- An initialiser of a fixed-size extension writes as one of a variable length does. -/
theorem initExtension_eq_writeRange {V : Type} [Pod V] [Extension V] (s : PodState S) (x : V)
    (overwrite : Bool) {d : TlvData} (hs : s.tlvData = d.bytes) :
    s.initExtension x overwrite =
      writeRange s (alloc S (Extension.type V) (Pod.toBytes x).length overwrite s.tlvData)
        (Pod.toBytes x) := by
  rw [writeRange_alloc_eq _ _ _ _ hs, PodState.initExtension, Pod.length_toBytes, hs]
  rcases alloc S (Extension.type V) (Pod.size V) overwrite d.bytes with ⟨_ | ⟨i, j⟩, tlv⟩
  · rfl
  · rfl

/-- `realloc` resizes one entry and nothing else, and fails exactly when the type is missing,
the room does not do or the length does not fit. -/
theorem realloc_resizes_one (d : TlvData) {t : ExtensionType} (ht : t ≠ .uninitialized) (n : ℕ) :
    ((∃ r, (realloc t n d.bytes).1 = .ok r) ↔
      ∃ v, d.get t = some v ∧ n ≤ v.length + d.padding ∧ n < 2 ^ 16) ∧
    (∀ i j tlv, realloc t n d.bytes = (.ok (i, j), tlv) →
      ∃ (v : Bytes) (d' : TlvData), d.get t = some v ∧ tlv = d'.bytes ∧ d'.types = d.types ∧
        d'.others t = d.others t ∧ d'.get t = some (v.take n ++ zeros (n - v.length)) ∧
          slice tlv i j = v.take n ++ zeros (n - v.length) ∧
            tlv.drop d'.usedLen = zeros d'.padding ∧ tlv.length = d.bytes.length) ∧
    ∀ e tlv, realloc t n d.bytes = (.error e, tlv) → tlv = d.bytes := by
  have hends : ∀ v, d.get t = some v → n ≤ v.length + d.padding ∧ n < 2 ^ 16 →
      ∃ i, realloc t n d.bytes = (.ok (i, i + n), (realloc t n d.bytes).2) := by
    intro v hget hmay
    obtain ⟨pre, post, hes, _⟩ := TlvData.exists_split_of_get hget
    rw [(TlvData.realloc_of_split hes n).1 hmay.1 hmay.2]
    exact ⟨_, rfl⟩
  have hfails : ∀ v, d.get t = some v → ¬ (n ≤ v.length + d.padding ∧ n < 2 ^ 16) →
      ∃ e, realloc t n d.bytes = (.error e, d.bytes) := by
    intro v hget hnot
    obtain ⟨pre, post, hes, _⟩ := TlvData.exists_split_of_get hget
    exact (TlvData.realloc_of_split hes n).2 hnot
  refine ⟨⟨?_, ?_⟩, ?_, ?_⟩
  · rintro ⟨⟨i, j⟩, hok⟩
    obtain ⟨pre, v, post, hes, hfits, hn, _⟩ := TlvData.realloc_cases ht (Prod.ext hok rfl)
    exact ⟨v, by rw [TlvData.get_of_split hes, if_pos rfl], hfits, hn⟩
  · rintro ⟨v, hget, hmay⟩
    obtain ⟨i, hi⟩ := hends v hget hmay
    exact ⟨_, congrArg Prod.fst hi⟩
  · intro i j tlv h
    obtain ⟨pre, v, post, hes, hfits, hn, rfl, rfl, rfl⟩ := TlvData.realloc_cases ht h
    obtain ⟨d', hes', hpad⟩ := TlvData.exists_replace hes
      (show (TlvData.resized v n).length < 2 ^ 16 by rw [TlvData.length_resized]; exact hn)
      (d.padding + v.length - n)
    have hbytes : entriesBytes (pre ++ ⟨t, TlvData.resized v n⟩ :: post) ++
        zeros (d.padding + v.length - n) = d'.bytes := by rw [TlvData.bytes, hes', hpad]
    have hins := TlvData.inserts_of_replace hes hes'
    have htypes := hins.types
    rw [if_pos (by simp [TlvData.types, hes])] at htypes
    have hslice : slice d'.bytes ((entriesBytes pre).length + 4)
        ((entriesBytes pre).length + 4 + n) = TlvData.resized v n := by
      have hdrop := TlvData.drop_of_split hes'
      rw [TlvEntry.bytes, List.append_assoc] at hdrop
      have hvalue := drop_add_of_drop_eq hdrop
      rw [List.length_append, length_leBytes, length_leBytes] at hvalue
      have h := slice_of_drop_eq hvalue
      rwa [TlvData.length_resized] at h
    have hlength : d'.bytes.length = d.bytes.length := by
      rw [TlvData.length_bytes, TlvData.length_bytes, TlvData.usedLen_of_split hes,
        TlvData.usedLen_of_split hes', TlvData.length_resized, hpad]
      omega
    rw [hbytes]
    exact ⟨v, d', by rw [TlvData.get_of_split hes, if_pos rfl], rfl, htypes, hins.others,
      hins.get, hslice, by rw [TlvData.bytes, TlvData.usedLen, List.drop_left], hlength⟩
  · intro e tlv h
    cases hget : d.get t with
    | none =>
      obtain ⟨e', he'⟩ := TlvData.realloc_of_not_mem ht (TlvData.get_eq_none.mp hget) n
      rw [he', Prod.mk.injEq] at h
      exact h.2.symm
    | some v =>
      by_cases hmay : n ≤ v.length + d.padding ∧ n < 2 ^ 16
      · obtain ⟨i, hi⟩ := hends v hget hmay
        rw [hi, Prod.mk.injEq] at h
        cases h.1
      · obtain ⟨e', he'⟩ := hfails v hget hmay
        rw [he', Prod.mk.injEq] at h
        exact h.2.symm

theorem realloc_resizes_one_grow :
    ∃ r, (realloc .tokenMetadata 3 (entriesBytes [⟨.tokenMetadata, [1, 2]⟩, ⟨.pausable, [7]⟩] ++
      zeros 1)).1 = .ok r :=
  (realloc_resizes_one ⟨[⟨.tokenMetadata, [1, 2]⟩, ⟨.pausable, [7]⟩], 1,
      by simpa using ⟨⟨by decide, by decide⟩, ⟨by decide, by decide⟩⟩, by decide⟩
    (by decide) 3).1.mpr ⟨[1, 2], rfl, by decide, by decide⟩

/-! ## Failures -/

/-- A failed call leaves the bytes as they were. -/
def Atomic (tlv : Bytes) (r : Result (Nat × Nat) × Bytes) : Prop :=
  ∀ e, r.1 = .error e → r.2 = tlv

/-- The search of `alloc` ends at an unused place with room for a header and `n` bytes. -/
def FreshSlot (S : Type) [BaseState S] (t : ExtensionType) (n : Nat) (tlv : Bytes) : Prop :=
  t.getAccountType = BaseState.accountType S ∧ ∃ start,
    getExtensionIndices t tlv true = .ok (getTlvIndices start) ∧
      readU16 tlv start (start + 2) = 0 ∧ n + 4 ≤ tlv.length - start

theorem le_usedLen {tlv : Bytes} {fuel i : ℕ} {ts : List ExtensionType} {info : TlvDataInfo}
    (h : tlvDataInfoFrom tlv fuel i ts = .ok info) : i ≤ info.usedLen := by
  induction fuel generalizing i ts with
  | zero =>
    obtain rfl := Except.ok.inj h
    exact Nat.le_refl i
  | succ fuel ih =>
    rcases tlvDataInfoFrom_cases h with ⟨rfl, _⟩ | ⟨e, _, _, hrest⟩
    · exact Nat.le_refl i
    · have hle := ih hrest
      omega

/-- A walk that gets through all entries has passed the value that was searched for. -/
theorem found_le_usedLen {t : ExtensionType} {tlv : Bytes} {fuel i start : ℕ}
    {ts : List ExtensionType} {info : TlvDataInfo} (ht : t ≠ .uninitialized)
    (hfound : extensionIndicesFrom t tlv false fuel i = .ok (getTlvIndices start))
    (hinfo : tlvDataInfoFrom tlv fuel i ts = .ok info) :
    start + 4 + readU16 tlv (start + 2) (start + 4) ≤ info.usedLen := by
  induction fuel generalizing i ts with
  | zero => cases hfound
  | succ fuel ih =>
    rcases tlvDataInfoFrom_cases hinfo with ⟨_, hend⟩ | ⟨e, hwf, hdrop, hrest⟩
    · obtain ⟨e, he⟩ := extensionIndicesFrom_stop (fuel + 1) ht hend
      rw [he] at hfound
      cases hfound
    · by_cases hit : e.type = t
      · rw [extensionIndicesFrom_hit hit hdrop, Except.ok.injEq] at hfound
        obtain rfl : i = start := congrArg TlvIndices.typeStart hfound
        have hle := le_usedLen hrest
        rw [readLength_of_drop_eq hwf.length_lt hdrop]
        rw [TlvEntry.length_bytes] at hle
        omega
      · rw [extensionIndicesFrom_skip false fuel hwf hit hdrop] at hfound
        exact ih hfound hrest

/-- `realloc` fails before its first write. -/
theorem realloc_atomic {t : ExtensionType} (ht : t ≠ .uninitialized) (n : ℕ) (tlv : Bytes) :
    Atomic tlv (realloc t n tlv) := by
  intro e
  cases hix : getExtensionIndices t tlv false with
  | error e' =>
    rw [realloc, hix]
    exact fun _ => rfl
  | ok ix =>
    cases hinfo : getTlvDataInfo tlv with
    | error e' =>
      rw [realloc, hix, hinfo]
      exact fun _ => rfl
    | ok info =>
      obtain ⟨start, rfl, _⟩ := extensionIndicesFrom_found hix
      have hle := found_le_usedLen ht hix hinfo
      rw [TlvData.realloc_eq hix hinfo rfl]
      split
      · exact fun _ => rfl
      · split
        · exact fun _ => rfl
        · simp only []
          rw [if_neg (by omega)]
          rintro ⟨⟩

theorem splice_self {b v : Bytes} {i : ℕ} (h : slice b i (i + v.length) = v) :
    splice b i v = b := by
  rw [slice, Nat.add_sub_cancel_left] at h
  have hjoin : v ++ (b.drop i).drop v.length = b.drop i := by
    calc v ++ (b.drop i).drop v.length
        = (b.drop i).take v.length ++ (b.drop i).drop v.length := by rw [h]
      _ = b.drop i := List.take_append_drop ..
  rw [splice, ← List.drop_drop, List.append_assoc, hjoin, List.take_append_drop]

/-- A type written over itself. -/
theorem splice_type {b : Bytes} {i n : ℕ} (hroom : i + 2 ≤ b.length)
    (hread : readU16 b i (i + 2) = n) : splice b i (leBytes 2 n) = b := by
  refine splice_self ?_
  rw [length_leBytes, ← hread, leBytes_readU16 hroom]

theorem readU16_splice {b : Bytes} {i n : ℕ} (hroom : i ≤ b.length) (hn : n < 2 ^ 16) :
    readU16 (splice b i (leBytes 2 n)) i (i + 2) = n := by
  have htake : (b.take i).length = i := List.length_take_of_le hroom
  have hdrop : (splice b i (leBytes 2 n)).drop i =
      leBytes 2 n ++ b.drop (i + (leBytes 2 n).length) := by
    rw [splice, List.append_assoc, List.drop_append_of_le_length (by omega),
      List.drop_of_length_le (by omega), List.nil_append]
  exact readU16_of_drop_eq hn hdrop

/-- `alloc` fails before its first write, unless a new entry is to get a length that does not
fit: then its type is written. -/
theorem alloc_atomic_iff (t : ExtensionType) (ht : t ≠ .uninitialized) (n : ℕ)
    (overwrite : Bool) (tlv : Bytes) :
    Atomic tlv (alloc S t n overwrite tlv) ↔ n < 2 ^ 16 ∨ ¬ FreshSlot S t n tlv := by
  have hzero : t.toNat ≠ 0 := fun h => ht (ExtensionType.toNat_eq_zero.mp h)
  have htlt : t.toNat < 2 ^ 16 := by have := t.toNat_lt; omega
  constructor
  · intro hatomic
    by_contra hnot
    rw [not_or, not_not] at hnot
    obtain ⟨hlong, hat, start, hix, hread, hroom⟩ := hnot
    have hne : (ExtensionType.uninitialized == t) = false := beq_eq_false_iff_ne.mpr ht.symm
    have hlen : lengthBytes n = .error .accountDataTooSmall := if_neg hlong
    have heq : alloc S t n overwrite tlv = _ :=
      TlvData.alloc_eq (s := .uninitialized) hat hix hread
    rw [if_neg (by omega), beq_self_eq_true, Bool.true_or, if_pos rfl] at heq
    simp only [hne, Bool.and_false, Bool.false_and, Bool.false_eq_true, if_false, hlen] at heq
    have hsame : splice tlv start (leBytes 2 t.toNat) = tlv := by
      have h := hatomic .accountDataTooSmall (by rw [heq])
      rwa [heq] at h
    have htype := readU16_splice (b := tlv) (i := start) (by omega) htlt
    rw [hsame, hread] at htype
    exact hzero htype.symm
  · intro hcond e
    by_cases hat : t.getAccountType = BaseState.accountType S
    · cases hix : getExtensionIndices t tlv true with
      | error e' =>
        rw [alloc, if_neg (by simp [hat]), hix]
        exact fun _ => rfl
      | ok ix =>
        obtain ⟨start, rfl, hheader, hkind⟩ := extensionIndicesFrom_found hix
        rcases hkind with hread | hread
        · -- an entry that is there: its type is written over itself
          rw [TlvData.alloc_eq hat hix hread, splice_type (by omega) hread]
          split
          · exact fun _ => rfl
          · split
            · simp only []
              split
              · exact fun _ => rfl
              · split
                · exact fun _ => rfl
                · rintro ⟨⟩
            · exact fun _ => rfl
        · have hne : (ExtensionType.uninitialized == t) = false :=
            beq_eq_false_iff_ne.mpr ht.symm
          rw [TlvData.alloc_eq (s := .uninitialized) hat hix hread]
          by_cases hroom : tlv.length - start < n + 4
          · rw [if_pos hroom]
            exact fun _ => rfl
          · have hn : n < 2 ^ 16 := by
              rcases hcond with hn | hfresh
              · exact hn
              · exact absurd ⟨hat, start, hix, hread, by omega⟩ hfresh
            have hlen : lengthBytes n = .ok (leBytes 2 n) :=
              TlvData.lengthBytes_eq_ok.mpr ⟨hn, rfl⟩
            rw [if_neg hroom, beq_self_eq_true, Bool.true_or, if_pos rfl]
            simp only [hne, Bool.and_false, Bool.false_and, Bool.false_eq_true, if_false, hlen]
            rintro ⟨⟩
    · rw [alloc, if_pos (bne_iff_ne.mpr hat)]
      exact fun _ => rfl

theorem ExtensionType.typeLen_lt (t : ExtensionType) : t.typeLen < 2 ^ 16 := by
  cases t <;> decide

/-- The mutators leave the buffer alone when they fail if and only if no new entry is to get a
length beyond sixteen bits; an initialiser of a fixed size never asks for one. -/
theorem tlv_mutators_atomic_iff (t : ExtensionType) (ht : t ≠ .uninitialized) (n : ℕ)
    (overwrite : Bool) (tlv : Bytes) :
    (Atomic tlv (alloc S t n overwrite tlv) ∧ Atomic tlv (realloc t n tlv) ↔
      n < 2 ^ 16 ∨ ¬ FreshSlot S t n tlv) ∧
    Atomic tlv (alloc S t t.typeLen overwrite tlv) := by
  have hiff := alloc_atomic_iff (S := S) t ht n overwrite tlv
  have hre := realloc_atomic ht n tlv
  exact ⟨⟨fun h => hiff.mp h.1, fun h => ⟨hiff.mpr h, hre⟩⟩,
    (alloc_atomic_iff t ht _ overwrite tlv).mpr (.inl t.typeLen_lt)⟩

theorem tlv_mutators_atomic_short :
    Atomic (zeros 4) (alloc PodMint .tokenMetadata 100 false (zeros 4)) ∧
      Atomic (zeros 4) (realloc .tokenMetadata 100 (zeros 4)) :=
  (tlv_mutators_atomic_iff .tokenMetadata (by decide) 100 false (zeros 4)).1.mpr
    (.inl (by decide))

/-- In a buffer of zeros with room for it a length beyond sixteen bits writes a type only. -/
theorem not_atomic_blank {t : ExtensionType} (hat : t.getAccountType = BaseState.accountType S)
    {n m : ℕ} (hn : 2 ^ 16 ≤ n) (hroom : n + 4 ≤ m) (overwrite : Bool) :
    ¬ Atomic (zeros m) (alloc S t n overwrite (zeros m)) := by
  intro h
  have hix := TlvData.getExtensionIndices_fresh (d := TlvData.blank m) (t := t)
    (by simp [TlvData.types, TlvData.blank]) (show 4 ≤ m by omega)
  have hread : readU16 (zeros m) 0 2 = 0 := readU16_zeros (p := m) (by omega) List.drop_zero
  rcases (alloc_atomic_iff t (TlvData.type_ne_of_accountType hat) n overwrite _).mp h with
    hshort | hfresh
  · omega
  · exact hfresh ⟨hat, 0, hix, hread, by rw [List.length_replicate]; exact hroom⟩

/-- A length of 65536 with room for it: the type is written, the length is not. -/
theorem long_alloc_half_written :
    ¬ Atomic (zeros 65540) (alloc PodMint .tokenMetadata 65536 false (zeros 65540)) :=
  not_atomic_blank rfl (by decide) (by decide) false

end SolanaEasy.Token
