import SolanaEasy.Token.Packed

/-!
# Overwriting — a new value for an extension, in any buffer

The new value has the length of the old one. Whatever the buffer holds, well formed or
not, every search in it ends as before: the state shows the new value, and otherwise what
it has shown.
-/

namespace SolanaEasy.Token

/-! ## Bytes -/

section Bytes

variable {b v : Bytes} {i j n : ℕ}

theorem slice_splice_same (hroom : n + v.length ≤ b.length) :
    slice (splice b n v) n (n + v.length) = v := by
  have htake : (b.take n).length = n := List.length_take_of_le (by omega)
  rw [slice, splice, List.append_assoc, List.drop_left' htake, Nat.add_sub_cancel_left,
    List.take_left]

/-- A range apart from the one that is written. -/
theorem slice_splice_of_apart (hroom : n + v.length ≤ b.length)
    (h : j ≤ n ∨ n + v.length ≤ i) : slice (splice b n v) i j = slice b i j := by
  have htake : (b.take n).length = n := List.length_take_of_le (by omega)
  rw [slice, slice, splice]
  rcases h with hbefore | hbehind
  · by_cases hij : i ≤ j
    · rw [List.append_assoc, List.drop_append_of_le_length (by omega),
        List.take_append_of_le_length (by rw [List.length_drop]; omega), List.drop_take,
        List.take_take, Nat.min_eq_left (by omega)]
    · rw [Nat.sub_eq_zero_of_le (by omega), List.take_zero, List.take_zero]
  · have hpre : (b.take n ++ v).length = n + v.length := by rw [List.length_append, htake]
    have hi : i = (b.take n ++ v).length + (i - (n + v.length)) := by omega
    have hdrop : (b.take n ++ v ++ b.drop (n + v.length)).drop i =
        (b.drop (n + v.length)).drop (i - (n + v.length)) := by
      conv_lhs => rw [hi, ← List.drop_drop, List.drop_left]
    rw [hdrop, List.drop_drop, Nat.add_sub_cancel' hbehind]

theorem splice_splice {w : Bytes} (hroom : n + v.length ≤ b.length) (hlen : w.length = v.length) :
    splice (splice b n v) n w = splice b n w := by
  have htake : (b.take n).length = n := List.length_take_of_le (by omega)
  have hpre : (b.take n ++ v).length = n + w.length := by
    rw [List.length_append, htake, hlen]
  rw [splice, splice, List.append_assoc (b.take n) v, List.take_left' htake,
    ← List.append_assoc (b.take n) v, List.drop_left' hpre, ← hlen]
  rfl

end Bytes

/-! ## Searches -/

section Search

variable {t w : ExtensionType} {tlv v : Bytes} {fuel i p q : ℕ}

/-- A search moves forward. -/
theorem le_of_extensionIndicesFrom
    (h : extensionIndicesFrom t tlv false fuel i = .ok (getTlvIndices q)) : i ≤ q := by
  induction fuel generalizing i with
  | zero => cases h
  | succ fuel ih =>
    rw [extensionIndicesFrom_succ] at h
    split at h
    · split at h
      · cases h
      · split at h
        · obtain rfl : i = q := congrArg TlvIndices.typeStart (Except.ok.inj h)
          exact Nat.le_refl i
        · split at h
          · cases h
          · have hle := ih h
            omega
    · cases h

variable (hv : v.length = readU16 tlv (p + 2) (p + 4)) (hroom : p + 4 + v.length ≤ tlv.length)
include hroom

/-- Headers are outside of the value that is written over. -/
theorem header_splice (h : q ≤ p ∨ p + 4 + v.length ≤ q) :
    readU16 (splice tlv (p + 4) v) q (q + 2) = readU16 tlv q (q + 2) ∧
      readU16 (splice tlv (p + 4) v) (q + 2) (q + 4) = readU16 tlv (q + 2) (q + 4) := by
  rw [readU16, readU16, readU16, readU16, slice_splice_of_apart hroom (by omega),
    slice_splice_of_apart hroom (by omega)]
  exact ⟨rfl, rfl⟩

/-- A search that starts behind the value. -/
theorem extensionIndicesFrom_splice_behind (h : p + 4 + v.length ≤ i) :
    extensionIndicesFrom t (splice tlv (p + 4) v) false fuel i =
      extensionIndicesFrom t tlv false fuel i := by
  induction fuel generalizing i with
  | zero => rfl
  | succ fuel ih =>
    obtain ⟨htype, hlength⟩ := header_splice hroom (.inr h)
    rw [extensionIndicesFrom_succ, extensionIndicesFrom_succ, htype, hlength, length_splice hroom,
      ih (by omega)]

include hv

/-- A search for any type on the way that led to the value. It ends there, or at an entry
that lies before or behind. -/
theorem extensionIndicesFrom_splice
    (hfound : extensionIndicesFrom w tlv false fuel i = .ok (getTlvIndices p)) :
    extensionIndicesFrom t (splice tlv (p + 4) v) false fuel i =
        extensionIndicesFrom t tlv false fuel i ∧
      ∀ q, extensionIndicesFrom t tlv false fuel i = .ok (getTlvIndices q) →
        (t = w ∧ q = p) ∨ q + 4 + readU16 tlv (q + 2) (q + 4) ≤ p ∨ p + 4 + v.length ≤ q := by
  induction fuel generalizing i with
  | zero => cases hfound
  | succ fuel ih =>
    obtain ⟨htype, hlength⟩ := header_splice hroom (.inl (le_of_extensionIndicesFrom hfound))
    rw [extensionIndicesFrom_succ] at hfound
    rw [extensionIndicesFrom_succ, extensionIndicesFrom_succ, htype, hlength, length_splice hroom]
    by_cases hstart : i < tlv.length
    · by_cases hvalue : tlv.length < i + 4
      · rw [if_pos hstart, if_pos hvalue] at hfound
        cases hfound
      · rw [if_pos hstart, if_neg hvalue] at hfound
        rw [if_pos hstart, if_neg hvalue, if_pos hstart, if_neg hvalue]
        by_cases hit : readU16 tlv i (i + 2) = w.toNat
        · -- the value itself
          rw [if_pos (by simpa using hit)] at hfound
          obtain rfl : i = p := congrArg TlvIndices.typeStart (Except.ok.inj hfound)
          by_cases htw : w.toNat = t.toNat
          · rw [hit, if_pos (by simpa using htw), if_pos (by simpa using htw)]
            refine ⟨rfl, fun q hq => .inl ⟨(ExtensionType.toNat_injective htw).symm, ?_⟩⟩
            exact (congrArg TlvIndices.typeStart (Except.ok.inj hq)).symm
          · have hmiss : ¬ (w.toNat == t.toNat) = true := by simpa using htw
            rw [hit, if_neg hmiss, if_neg hmiss, ← hv,
              extensionIndicesFrom_splice_behind hroom le_rfl]
            refine ⟨rfl, fun q hq => .inr (.inr ?_)⟩
            split at hq
            · cases hq
            · exact le_of_extensionIndicesFrom hq
        · rw [if_neg (by simpa using hit)] at hfound
          by_cases hend : readU16 tlv i (i + 2) = 0
          · rw [if_pos (by simpa using hend)] at hfound
            cases hfound
          · rw [if_neg (by simpa using hend)] at hfound
            by_cases hit' : readU16 tlv i (i + 2) = t.toNat
            · -- an entry before it
              rw [if_pos (by simpa using hit'), if_pos (by simpa using hit')]
              refine ⟨rfl, fun q hq => .inr (.inl ?_)⟩
              obtain rfl : i = q := congrArg TlvIndices.typeStart (Except.ok.inj hq)
              exact le_of_extensionIndicesFrom hfound
            · have hmiss : ¬ (readU16 tlv i (i + 2) == t.toNat) = true := by simpa using hit'
              have hused : ¬ (readU16 tlv i (i + 2) == 0) = true := by simpa using hend
              rw [if_neg hmiss, if_neg hmiss, if_neg hused, if_neg hused]
              exact ih hfound
    · rw [if_neg hstart] at hfound
      cases hfound

end Search

/-! ## States -/

section State

variable {S V : Type} [BaseState S] [Pod V] [Extension V] {t w : ExtensionType}
  {tlv v : Bytes} {i j : ℕ}

theorem getExtensionRange_found (h : getExtensionRange S t tlv = .ok (i, j)) :
    ∃ p, getExtensionIndices t tlv false = .ok (getTlvIndices p) ∧ i = p + 4 ∧
      j = p + 4 + readU16 tlv (p + 2) (p + 4) ∧ j ≤ tlv.length := by
  simp only [getExtensionRange, bind_eq_ok, exists_unit, failIf_eq_ok, decide_eq_false_iff_not,
    Nat.not_lt, pure_eq_ok, Prod.mk.injEq] at h
  obtain ⟨_, ix, hix, hle, rfl, rfl⟩ := h
  obtain ⟨p, rfl, _⟩ := extensionIndicesFrom_found hix
  exact ⟨p, hix, rfl, rfl, hle⟩

/-- The range of any type stays where it is. -/
theorem getExtensionRange_splice (h : getExtensionRange S w tlv = .ok (i, j))
    (hv : v.length = j - i) :
    getExtensionRange S t (splice tlv i v) = getExtensionRange S t tlv ∧
      (t ≠ w → ∀ i' j', getExtensionRange S t tlv = .ok (i', j') → j' ≤ i ∨ j ≤ i') := by
  obtain ⟨p, hfound, rfl, rfl, hle⟩ := getExtensionRange_found h
  have hlen : v.length = readU16 tlv (p + 2) (p + 4) := by omega
  have hroom : p + 4 + v.length ≤ tlv.length := by omega
  obtain ⟨hsearch, hends⟩ := extensionIndicesFrom_splice (t := t) hlen hroom hfound
  constructor
  · have hix : getExtensionIndices t (splice tlv (p + 4) v) false =
        getExtensionIndices t tlv false := by
      rw [getExtensionIndices, length_splice hroom]
      exact hsearch
    rw [getExtensionRange, getExtensionRange, hix, length_splice hroom]
    cases hq : getExtensionIndices t tlv false with
    | error e => rfl
    | ok ix =>
      obtain ⟨q, rfl, _⟩ := extensionIndicesFrom_found hq
      have happart := hends q hq
      have hheader := (header_splice hroom (q := q) (by omega)).2
      simp only [ok_bind, getTlvIndices, hheader]
  · intro hne i' j' h'
    obtain ⟨q, hq, rfl, rfl, _⟩ := getExtensionRange_found h'
    rcases hends q hq with ⟨heq, _⟩ | hbefore | hbehind
    · exact absurd heq hne
    · left
      omega
    · right
      omega

/-- What `*get_extension_mut()? = x` does to a state. -/
structure PodState.Overwrites (s : PodState S) (x : V) (s' : PodState S) : Prop where
  base : s'.base = s.base
  accountType : s'.accountType = s.accountType
  length : s'.tlvData.length = s.tlvData.length
  view : s'.view = s.view.set x
  /-- Later values go to the same place. -/
  again : ∀ y : V, s'.setExtension y = s.setExtension y

theorem PodState.overwrites {s s' : PodState S} {x : V} (h : s.setExtension x = .ok s') :
    s.Overwrites x s' := by
  simp only [setExtension, bind_eq_ok, exists_unit, failIf_eq_ok, bne_eq_false_iff_eq, pure_eq_ok,
    Prod.exists] at h
  obtain ⟨i, j, hrange, hsize, rfl⟩ := h
  have hv : (Pod.toBytes x).length = j - i := by rw [Pod.length_toBytes, hsize]
  obtain ⟨p, _, hi, hj, hle⟩ := getExtensionRange_found hrange
  have hroom : i + (Pod.toBytes x).length ≤ s.tlvData.length := by omega
  refine ⟨rfl, rfl, length_splice hroom, ?_, fun y => ?_⟩
  · have hext : ∀ t, toOption (getExtensionBytes S t (splice s.tlvData i (Pod.toBytes x))) =
        (s.view.set x).ext t := by
      intro t
      obtain ⟨hsame, happart⟩ := getExtensionRange_splice (t := t) hrange hv
      rw [View.set, View.ext_setExt, getExtensionBytes, hsame]
      by_cases ht : t = Extension.type V
      · subst ht
        have hread := slice_splice_same hroom
        rw [hv, Nat.add_sub_cancel' (by omega)] at hread
        rw [if_pos rfl, hrange]
        exact congrArg some hread
      · rw [if_neg ht]
        show _ = toOption (getExtensionBytes S t s.tlvData)
        rw [getExtensionBytes]
        cases hr : getExtensionRange S t s.tlvData with
        | error e => rfl
        | ok r =>
          obtain ⟨i', j'⟩ := r
          have hread := slice_splice_of_apart hroom (i := i') (j := j') (by
            have := happart ht i' j' hr
            omega)
          exact congrArg some hread
    rw [view, funext hext]
    rfl
  · obtain ⟨hsame, _⟩ := getExtensionRange_splice (t := Extension.type V) hrange hv
    rw [setExtension, setExtension, hsame, hrange, ok_bind, ok_bind]
    show failIf _ _ >>= _ = failIf _ _ >>= _
    rw [splice_splice hroom (by rw [Pod.length_toBytes, Pod.length_toBytes])]

theorem PodState.Overwrites.get {s s' : PodState S} {x : V} (h : s.Overwrites x s') :
    s'.getExtension V = .ok x := by
  rw [getExtension_eq_ok, h.view, View.get_set_same]

/-- The base has no part in it. -/
theorem PodState.setExtension_withBase {s s' : PodState S} {x : V} (base : S)
    (h : s.setExtension x = .ok s') :
    ({ s with base := base } : PodState S).setExtension x = .ok { s' with base := base } := by
  simp only [setExtension, bind_eq_ok, exists_unit, Prod.exists, pure_eq_ok] at h ⊢
  obtain ⟨i, j, hrange, hsize, rfl⟩ := h
  exact ⟨i, j, hrange, hsize, rfl⟩

theorem PodState.Overwrites.packed {s s' : PodState S} {x : V} (h : s.Overwrites x s')
    (hp : s.Packed) : s'.Packed where
  layout := by
    rcases hp.layout with ⟨hat, htlv⟩ | hat
    · refine .inl ⟨h.accountType.trans hat, List.length_eq_zero_iff.mp ?_⟩
      rw [h.length, htlv]
      rfl
    · exact .inr (h.accountType.trans hat)
  initialized := by
    rw [h.base]
    exact hp.initialized
  length_ne := by
    rw [PodState.length_bytes, h.accountType, h.length, ← PodState.length_bytes]
    exact hp.length_ne

end State

end SolanaEasy.Token
