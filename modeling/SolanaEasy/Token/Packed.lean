import SolanaEasy.Token.View

/-!
# Packed states — unpacking is the inverse of putting the parts together

`unpack` accepts exactly the bytes of the states that are `Packed`, and gives the
state back; the same holds of `unpack_uninitialized` with the blank account-type
byte. A mint is never read as a token account, nor the other way round.
-/

namespace SolanaEasy.Token

namespace PodState

variable {S : Type} [BaseState S]

/-- The base alone, or the base with the type byte `t` and a buffer. -/
def Layout (s : PodState S) (t : AccountType) : Prop :=
  (s.accountType = [] ∧ s.tlvData = []) ∨ s.accountType = [t.toU8]

structure Packed (s : PodState S) : Prop where
  layout : s.Layout (BaseState.accountType S)
  initialized : BaseState.isInitialized s.base = true
  length_ne : s.bytes.length ≠ multisigLen

/-- The length of the data depends on the layout only. -/
theorem length_bytes (s : PodState S) :
    s.bytes.length = if s.accountType.isEmpty then Pod.size S
      else accountLen + s.accountType.length + s.tlvData.length := by
  have hle := BaseState.size_le (S := S)
  unfold bytes
  split
  · simp
  · simp only [List.length_append, Pod.length_toBytes, List.length_replicate]
    omega

theorem bytes_of_isEmpty {s : PodState S} (h : s.accountType = []) :
    s.bytes = Pod.toBytes s.base := by
  simp [bytes, h]

theorem bytes_of_accountType {s : PodState S} {t : UInt8} (h : s.accountType = [t]) :
    s.bytes = Pod.toBytes s.base ++ (zeros (accountLen - Pod.size S) ++ ([t] ++ s.tlvData)) := by
  simp [bytes, h]

theorem Stored.length_bytes {s s' : PodState S} {v : View S} (h : s.Stored s' v) :
    s'.bytes.length = s.bytes.length := by
  rw [PodState.length_bytes, PodState.length_bytes, h.accountType, h.length]

theorem Stored.packed {s s' : PodState S} {v : View S} (h : s.Stored s' v) (hp : s.Packed)
    (hinit : BaseState.isInitialized v.base = true) : s'.Packed where
  layout := by
    rcases hp.layout with ⟨hat, htlv⟩ | hat
    · refine .inl ⟨h.accountType.trans hat, List.length_eq_zero_iff.mp ?_⟩
      rw [h.length, htlv]
      rfl
    · exact .inr (h.accountType.trans hat)
  initialized := by rw [h.base_eq, hinit]
  length_ne := by
    rw [h.length_bytes]
    exact hp.length_ne

end PodState

section Unpack

variable {S : Type} [BaseState S]

/-- The part of the data behind the base. -/
theorem unpackRest_eq_ok {rest at' tlv : Bytes} {t : AccountType}
    {check : AccountType → Result Unit} (hcheck : ∀ u, check u = .ok () ↔ u = t) :
    unpackTypeAndTlvDataWithCheck S rest check = .ok (at', tlv) ↔
      (rest = [] ∧ at' = [] ∧ tlv = []) ∨
        (at' = [t.toU8] ∧ rest = zeros (accountLen - Pod.size S) ++ ([t.toU8] ++ tlv)) := by
  cases rest with
  | nil =>
    have hok : unpackTypeAndTlvDataWithCheck S [] check = .ok ([], []) := rfl
    rw [hok, Except.ok.injEq, Prod.mk.injEq]
    constructor
    · rintro ⟨rfl, rfl⟩
      exact .inl ⟨rfl, rfl, rfl⟩
    · rintro (⟨_, rfl, rfl⟩ | ⟨_, hnil⟩)
      · exact ⟨rfl, rfl⟩
      · simp at hnil
  | cons r rest =>
    generalize hrest : r :: rest = data
    have hne : data.isEmpty = false := by rw [← hrest]; rfl
    have hnil : data ≠ [] := by rw [← hrest]; simp
    let k := accountLen - Pod.size S
    constructor
    · intro h
      right
      rw [unpackTypeAndTlvDataWithCheck, typeAndTlvIndices] at h
      simp only [hne, Bool.false_eq_true, if_false] at h
      split at h
      · simp at h
      · rename_i hlen
        split at h
        · simp at h
        · rename_i hzeros
          rw [bne_iff_ne, not_not] at hzeros
          rw [Nat.not_lt] at hlen
          simp only [ok_bind, bind_eq_ok, okOr_eq_ok, Option.bind_eq_some_iff, pure_eq_ok,
            Prod.mk.injEq] at h
          obtain ⟨u, ⟨byte, hbyte, hu⟩, _, hcu, hat, htlv⟩ := h
          obtain rfl := (hcheck u).mp hcu
          obtain rfl := AccountType.ofU8_eq_some hu
          have hsplit : data = zeros k ++ ([u.toU8] ++ tlv) := by
            have hdrop : data.drop k = u.toU8 :: data.drop (k + 1) := by
              obtain ⟨hlt, hget⟩ := List.getElem?_eq_some_iff.mp hbyte
              rw [List.drop_eq_getElem_cons hlt, hget]
            rw [← htlv]
            calc data = data.take k ++ data.drop k := (List.take_append_drop k data).symm
              _ = zeros k ++ ([u.toU8] ++ data.drop (k + 1)) := by rw [hzeros, hdrop]; rfl
          refine ⟨?_, hsplit⟩
          rw [← hat]
          have hdrop : data.drop k = [u.toU8] ++ tlv := by
            rw [hsplit]
            exact List.drop_left' (by simp)
          exact slice_of_drop_eq hdrop
    · rintro (⟨rfl, _⟩ | ⟨rfl, rfl⟩)
      · exact absurd rfl hnil
      · have hlen : (zeros k ++ ([t.toU8] ++ tlv)).length = k + 1 + tlv.length := by
          rw [List.length_append, List.length_append, List.length_replicate,
            List.length_singleton]
          omega
        have hbyte : (zeros k ++ ([t.toU8] ++ tlv))[k]? = some t.toU8 := by
          rw [List.getElem?_append_right (by simp)]
          simp
        have hdrop : (zeros k ++ ([t.toU8] ++ tlv)).drop k = [t.toU8] ++ tlv :=
          List.drop_left' (by simp)
        have hdrop' : (zeros k ++ ([t.toU8] ++ tlv)).drop (k + 1) = tlv := by
          rw [← List.drop_drop, hdrop]
          rfl
        have htake : (zeros k ++ ([t.toU8] ++ tlv)).take k = zeros k := List.take_left' (by simp)
        have hslice : slice (zeros k ++ ([t.toU8] ++ tlv)) k (k + 1) = [t.toU8] :=
          slice_of_drop_eq hdrop
        rw [unpackTypeAndTlvDataWithCheck, typeAndTlvIndices]
        simp only [hne, Bool.false_eq_true, if_false]
        rw [if_neg (show ¬ (zeros k ++ ([t.toU8] ++ tlv)).length < k + 1 by omega),
          if_neg (show ¬ ((zeros k ++ ([t.toU8] ++ tlv)).take k != zeros k) = true by
            rw [htake, bne_self_eq_false]; exact Bool.false_ne_true)]
        show (do
          let u ← okOr ProgramError.invalidAccountData
            ((zeros k ++ ([t.toU8] ++ tlv))[k]?.bind AccountType.ofU8)
          check u
          return (slice (zeros k ++ ([t.toU8] ++ tlv)) k (k + 1),
            (zeros k ++ ([t.toU8] ++ tlv)).drop (k + 1))) = _
        rw [hbyte, hslice, hdrop']
        simp [(hcheck t).mpr rfl, okOr, Pure.pure, Except.pure]

theorem checkAccountType_eq_ok (u : AccountType) :
    checkAccountType S u = .ok () ↔ u = BaseState.accountType S := by
  unfold checkAccountType
  split
  · rename_i h
    simpa using h
  · rename_i h
    simpa using h

theorem checkMinLen_eq_ok {input : Bytes} {n : Nat} :
    checkMinLenAndNotMultisig input n = .ok () ↔ input.length ≠ multisigLen ∧ n ≤ input.length := by
  unfold checkMinLenAndNotMultisig
  split
  · rename_i h
    rw [Bool.or_eq_true, beq_iff_eq, decide_eq_true_eq] at h
    simp only [reduceCtorEq, false_iff, not_and]
    omega
  · rename_i h
    rw [Bool.or_eq_true, beq_iff_eq, decide_eq_true_eq, not_or] at h
    simp only [true_iff]
    omega

/-- Data in its layout is the base, then the rest. -/
theorem bytes_eq_of_rest {data : Bytes} {s : PodState S} {t : AccountType}
    (hlen : Pod.size S ≤ data.length) (hbase : s.base = Pod.ofBytes (data.take (Pod.size S)))
    (hrest : (data.drop (Pod.size S) = [] ∧ s.accountType = [] ∧ s.tlvData = []) ∨
      (s.accountType = [t.toU8] ∧ data.drop (Pod.size S) =
        zeros (accountLen - Pod.size S) ++ ([t.toU8] ++ s.tlvData))) :
    data = s.bytes ∧ s.Layout t := by
  have htake : data.take (Pod.size S) = Pod.toBytes s.base := by
    rw [hbase, Pod.toBytes_ofBytes]
    rw [List.length_take, Nat.min_eq_left hlen]
  have hdata := List.take_append_drop (Pod.size S) data
  rcases hrest with ⟨hnil, hat, htlv⟩ | ⟨hat, hdrop⟩
  · refine ⟨?_, .inl ⟨hat, htlv⟩⟩
    rw [PodState.bytes_of_isEmpty hat, ← htake, ← hdata, hnil, List.append_nil, List.take_take,
      Nat.min_self]
  · refine ⟨?_, .inr hat⟩
    rw [PodState.bytes_of_accountType hat, ← htake, ← hdrop, hdata]

theorem rest_of_layout {s : PodState S} {t : AccountType} (h : s.Layout t) :
    Pod.size S ≤ s.bytes.length ∧ s.base = Pod.ofBytes (s.bytes.take (Pod.size S)) ∧
      ((s.bytes.drop (Pod.size S) = [] ∧ s.accountType = [] ∧ s.tlvData = []) ∨
        (s.accountType = [t.toU8] ∧ s.bytes.drop (Pod.size S) =
          zeros (accountLen - Pod.size S) ++ ([t.toU8] ++ s.tlvData))) := by
  have hsize : (Pod.toBytes s.base).length = Pod.size S := Pod.length_toBytes _
  rcases h with ⟨hat, htlv⟩ | hat
  · rw [PodState.bytes_of_isEmpty hat]
    refine ⟨hsize.ge, ?_, .inl ⟨List.drop_of_length_le hsize.le, hat, htlv⟩⟩
    rw [List.take_of_length_le hsize.le, Pod.ofBytes_toBytes]
  · rw [PodState.bytes_of_accountType hat]
    refine ⟨?_, ?_, .inr ⟨hat, List.drop_left' hsize⟩⟩
    · rw [List.length_append, hsize]
      omega
    · rw [List.take_left' hsize, Pod.ofBytes_toBytes]

theorem unpack_eq_ok {data : Bytes} {s : PodState S} :
    unpack S data = .ok s ↔ data = s.bytes ∧ s.Packed := by
  simp only [unpack, bind_eq_ok, failIf_eq_ok, Bool.not_eq_false', Prod.exists, pure_eq_ok,
    exists_unit, checkMinLen_eq_ok, unpackRest_eq_ok (checkAccountType_eq_ok (S := S))]
  constructor
  · rintro ⟨⟨hne, hlen⟩, hinit, at', tlv, hrest, rfl⟩
    obtain ⟨hdata, hlayout⟩ := bytes_eq_of_rest (s := ⟨_, at', tlv⟩) hlen rfl hrest
    exact ⟨hdata, hlayout, hinit, hdata ▸ hne⟩
  · rintro ⟨rfl, hlayout, hinit, hne⟩
    obtain ⟨hlen, hbase, hrest⟩ := rest_of_layout hlayout
    refine ⟨⟨hne, hlen⟩, hbase ▸ hinit, s.accountType, s.tlvData, hrest, ?_⟩
    rw [← hbase]

theorem unpackUninitialized_ok {data : Bytes} {s : PodState S}
    (h : unpackUninitialized S data = .ok s) :
    data = s.bytes ∧ s.Layout .uninitialized ∧ data.length ≠ multisigLen ∧
      BaseState.isInitialized s.base = false ∧
      ∀ t, getFirstExtensionType s.tlvData = .ok (some t) →
        t.getAccountType = BaseState.accountType S := by
  have hcheck : ∀ u : AccountType,
      failIf (u != .uninitialized) ProgramError.invalidAccountData = .ok () ↔
        u = .uninitialized := by simp
  simp only [unpackUninitialized, bind_eq_ok, failIf_eq_ok, Prod.exists, pure_eq_ok, exists_unit,
    checkMinLen_eq_ok, unpackRest_eq_ok hcheck,
    PodState.checkAccountTypeMatchesExtensionType] at h
  obtain ⟨⟨hne, hlen⟩, hinit, at', tlv, hrest, ⟨first, hfirst, hmatch⟩, rfl⟩ := h
  obtain ⟨hdata, hlayout⟩ := bytes_eq_of_rest (s := ⟨_, at', tlv⟩) hlen rfl hrest
  refine ⟨hdata, hlayout, hne, hinit, ?_⟩
  intro t ht
  obtain rfl := Except.ok.inj (hfirst.symm.trans ht)
  simpa using hmatch

/-- `init_account_type` writes the type byte, where there is one. -/
theorem initAccountType_ok {s s' : PodState S} (h : s.initAccountType = .ok s') {t : AccountType}
    (hlayout : s.Layout t) :
    s'.base = s.base ∧ s'.tlvData = s.tlvData ∧ s'.accountType.length = s.accountType.length ∧
      s'.Layout (BaseState.accountType S) := by
  simp only [PodState.initAccountType, bind_eq_ok] at h
  obtain ⟨first, _, h⟩ := h
  rcases hlayout with ⟨hat, htlv⟩ | hat
  · simp only [hat, List.isEmpty_nil, if_true, pure_eq_ok] at h
    obtain rfl := h
    exact ⟨rfl, rfl, rfl, .inl ⟨hat, htlv⟩⟩
  · have hs' : s' = { s with accountType := [(BaseState.accountType S).toU8] } := by
      cases first with
      | none =>
        simp only [hat, List.isEmpty_cons, Bool.false_eq_true, if_false, pure_eq_ok] at h
        exact h.symm
      | some t =>
        simp only [hat, List.isEmpty_cons, Bool.false_eq_true, if_false, bind_eq_ok, exists_unit,
          pure_eq_ok] at h
        exact h.2.symm
    rw [hs']
    exact ⟨rfl, rfl, by rw [hat]; rfl, .inr rfl⟩

end Unpack

/-! ## Mints and accounts -/

theorem PodState.getElem?_bytes {S : Type} [BaseState S] {s : PodState S} {t : UInt8}
    (h : s.accountType = [t]) : s.bytes[accountLen]? = some t := by
  have hle := BaseState.size_le (S := S)
  have hlen : (Pod.toBytes s.base ++ zeros (accountLen - Pod.size S)).length = accountLen := by
    rw [List.length_append, Pod.length_toBytes, List.length_replicate]
    omega
  rw [bytes_of_accountType h, ← List.append_assoc, List.getElem?_append_right hlen.le, hlen]
  simp

/-- The bytes of a token account are not those of a mint. -/
theorem unpack_mint_ne_of_account {data : Bytes} {s : PodState PodAccount} {m : PodState PodMint}
    (hs : unpack PodAccount data = .ok s) : unpack PodMint data ≠ .ok m := by
  intro hm
  obtain ⟨hdata, hp⟩ := unpack_eq_ok.mp hs
  obtain ⟨hdata', hp'⟩ := unpack_eq_ok.mp hm
  have hbytes : s.bytes = m.bytes := hdata.symm.trans hdata'
  have hlen := congrArg List.length hbytes
  rw [s.length_bytes, m.length_bytes, size_podAccount, size_podMint, mintLen] at hlen
  rcases hp.layout with ⟨hat, _⟩ | hat
  · rcases hp'.layout with ⟨hat', _⟩ | hat'
    · simp [hat, hat', accountLen] at hlen
    · simp [hat, hat'] at hlen
      omega
  · rcases hp'.layout with ⟨hat', _⟩ | hat'
    · simp [hat, hat', accountLen] at hlen
      omega
    · have hbyte := PodState.getElem?_bytes hat
      rw [hbytes, PodState.getElem?_bytes hat'] at hbyte
      exact absurd hbyte (by decide)

/-! ## Growing -/

namespace PodState

variable {S : Type} [BaseState S]

/-- The state of the data when `n` zero bytes are added and the type byte is set. -/
def grown (s : PodState S) (n : Nat) : PodState S where
  base := s.base
  accountType := [(BaseState.accountType S).toU8]
  tlvData := s.tlvData ++ zeros (n + s.bytes.length - (accountLen + 1 + s.tlvData.length))

theorem wf_append_zeros {s s' : PodState S} (hwf : s.Wf) {n : Nat}
    (h : s'.tlvData = s.tlvData ++ zeros n) (hbase : s'.base = s.base) :
    s'.Wf ∧ s'.view = s.view := by
  obtain ⟨b, hb⟩ := hwf
  let b' : TlvBuffer (BaseState.accountType S) :=
    { b with padding := b.padding + n }
  have hb' : b'.bytes = s'.tlvData := by
    rw [h, ← hb, TlvBuffer.bytes, TlvBuffer.bytes, List.append_assoc,
      List.replicate_append_replicate]
  have hext : s'.view.ext = s.view.ext := by
    funext t
    rw [ext_view_eq hb', ext_view_eq hb]
    rfl
  refine ⟨⟨b', hb'⟩, ?_⟩
  show (⟨s'.base, s'.view.ext⟩ : View S) = ⟨s.base, s.view.ext⟩
  rw [hbase, hext]

theorem wf_grown {s : PodState S} (hwf : s.Wf) (n : Nat) :
    (s.grown n).Wf ∧ (s.grown n).view = s.view := wf_append_zeros hwf rfl rfl

/-- The room behind the type byte. -/
theorem length_bytes_grown {s : PodState S} {n : Nat} (hp : s.Packed)
    (hn : accountLen < n + s.bytes.length) : (s.grown n).bytes.length = n + s.bytes.length := by
  have hle := BaseState.size_le (S := S)
  have hlen := s.length_bytes
  rw [PodState.length_bytes]
  rcases hp.layout with ⟨hat, htlv⟩ | hat
  · simp only [hat, List.isEmpty_nil, if_true] at hlen
    simp only [grown, List.isEmpty_cons, Bool.false_eq_true, if_false, List.length_singleton,
      List.length_append, List.length_replicate, htlv, List.length_nil]
    omega
  · simp only [hat, List.isEmpty_cons, Bool.false_eq_true, if_false, List.length_singleton] at hlen
    simp only [grown, List.isEmpty_cons, Bool.false_eq_true, if_false, List.length_singleton,
      List.length_append, List.length_replicate]
    omega

/-- With a type byte already there the bytes are those of the grown state. -/
theorem bytes_grown_of_accountType {s : PodState S} (n : Nat)
    (hat : s.accountType = [(BaseState.accountType S).toU8]) :
    (s.grown n).bytes = s.bytes ++ zeros n := by
  have hlen := s.length_bytes
  simp only [hat, List.isEmpty_cons, Bool.false_eq_true, if_false, List.length_singleton] at hlen
  have hn : n + s.bytes.length - (accountLen + 1 + s.tlvData.length) = n := by omega
  rw [bytes_of_accountType (s := s.grown n) rfl, bytes_of_accountType hat]
  simp only [grown, hn, List.append_assoc]

theorem packed_grown {s : PodState S} {n : Nat} (hp : s.Packed)
    (hn : accountLen < n + s.bytes.length) (hne : n + s.bytes.length ≠ multisigLen) :
    (s.grown n).Packed where
  layout := .inr rfl
  initialized := hp.initialized
  length_ne := by rwa [length_bytes_grown hp hn]

end PodState

section Grow

variable {S : Type} [BaseState S]

/-- What `set_account_type` does behind its checks of the base. -/
theorem setAccountType_cases {input data : Bytes} (h : setAccountType S input = .ok data) :
    input.length ≠ multisigLen ∧ ∃ i j t,
      typeAndTlvIndices S (input.drop (Pod.size S)) = .ok (some (i, j)) ∧
      (input.drop (Pod.size S))[i]?.bind AccountType.ofU8 = some t ∧
      ((t = .uninitialized ∧
          data = splice input (Pod.size S + i) [(BaseState.accountType S).toU8]) ∨
        (t = BaseState.accountType S ∧ data = input)) := by
  rw [setAccountType] at h
  simp only [bind_eq_ok, exists_unit, checkMinLen_eq_ok] at h
  obtain ⟨⟨hne, _⟩, h⟩ := h
  cases ho : typeAndTlvIndices S (input.drop (Pod.size S)) with
  | error e => split at h <;> simp [ho] at h
  | ok o =>
    rw [ho] at h
    cases o with
    | none => split at h <;> simp at h
    | some ij =>
      obtain ⟨i, j⟩ := ij
      have htail : (do
          let t ← okOr ProgramError.invalidAccountData
            ((input.drop (Pod.size S))[i]?.bind AccountType.ofU8)
          if t == .uninitialized then
            return splice input (Pod.size S + i) [(BaseState.accountType S).toU8]
          else
            checkAccountType S t
            return input : Result Bytes) = .ok data := by
        split at h
        · simp only [bind_eq_ok, exists_unit] at h
          obtain ⟨_, _, _, _, heq, h⟩ := h
          obtain rfl := Except.ok.inj heq
          exact h
        · exact h
      simp only [bind_eq_ok, okOr_eq_ok] at htail
      obtain ⟨t, ht, htail⟩ := htail
      refine ⟨hne, i, j, t, rfl, ht, ?_⟩
      split at htail
      · rename_i hu
        exact .inl ⟨by simpa using hu, (pure_eq_ok.mp htail).symm⟩
      · simp only [bind_eq_ok, exists_unit, checkAccountType_eq_ok, pure_eq_ok] at htail
        exact .inr ⟨htail.1, htail.2.symm⟩

/-- The indices are those of the layout. -/
theorem typeAndTlvIndices_some {rest : Bytes} {i j : Nat}
    (h : typeAndTlvIndices S rest = .ok (some (i, j))) :
    i = accountLen - Pod.size S ∧ i + 1 ≤ rest.length := by
  rw [typeAndTlvIndices] at h
  by_cases hempty : rest.isEmpty = true
  · rw [if_pos hempty] at h
    cases h
  · rw [if_neg hempty] at h
    dsimp only at h
    split at h
    · cases h
    · rename_i hlen
      split at h
      · cases h
      · obtain ⟨rfl, _⟩ := Prod.mk.inj (Option.some.inj (Except.ok.inj h))
        exact ⟨rfl, Nat.not_lt.mp hlen⟩

/-- `set_account_type` after a resize. -/
theorem setAccountType_ok {s : PodState S} {n : Nat} {data : Bytes} (hp : s.Packed)
    (h : setAccountType S (s.bytes ++ zeros n) = .ok data) :
    data = (s.grown n).bytes ∧ accountLen < n + s.bytes.length ∧
      n + s.bytes.length ≠ multisigLen := by
  have hle := BaseState.size_le (S := S)
  have hsize : (Pod.toBytes s.base).length = Pod.size S := Pod.length_toBytes _
  obtain ⟨hne, i, j, t, hix, ht, hdata⟩ := setAccountType_cases h
  obtain ⟨rfl, hroom⟩ := typeAndTlvIndices_some hix
  have hslen := s.length_bytes
  rw [List.length_append, List.length_replicate] at hne
  rw [List.length_drop, List.length_append, List.length_replicate] at hroom
  rcases hp.layout with ⟨hat, htlv⟩ | hat
  · -- no type byte yet: the new bytes start behind the base
    simp only [hat, List.isEmpty_nil, if_true] at hslen
    have hz : zeros n = zeros (accountLen - Pod.size S) ++
        (zeros 1 ++ zeros (n - (accountLen - Pod.size S + 1))) := by
      rw [List.replicate_append_replicate, List.replicate_append_replicate]
      congr 1
      omega
    have hsplit : s.bytes ++ zeros n =
        (Pod.toBytes s.base ++ zeros (accountLen - Pod.size S)) ++
          ([0] ++ zeros (n - (accountLen - Pod.size S + 1))) := by
      rw [PodState.bytes_of_isEmpty hat, hz, List.append_assoc]
      rfl
    have hbyte : ((s.bytes ++ zeros n).drop (Pod.size S))[accountLen - Pod.size S]? = some 0 := by
      rw [hsplit, List.append_assoc, List.drop_left' hsize,
        List.getElem?_append_right (by simp)]
      simp
    rw [hbyte] at ht
    obtain rfl : t = .uninitialized := (Option.some.inj ht).symm
    rcases hdata with ⟨_, hdata⟩ | ⟨ht, _⟩
    · have hstart : Pod.size S + (accountLen - Pod.size S) =
          (Pod.toBytes s.base ++ zeros (accountLen - Pod.size S)).length := by
        rw [List.length_append, hsize, List.length_replicate]
      have hcount : n + Pod.size S - (accountLen + 1) = n - (accountLen - Pod.size S + 1) := by
        omega
      refine ⟨?_, by omega, by omega⟩
      have hwritten := splice_append (x := Pod.toBytes s.base ++ zeros (accountLen - Pod.size S))
        (y := [0]) (z := zeros (n - (accountLen - Pod.size S + 1)))
        (v := [(BaseState.accountType S).toU8]) rfl
      rw [hdata, hstart, hsplit, hwritten, PodState.bytes_of_accountType rfl]
      simp only [PodState.grown, htlv, List.nil_append, List.length_nil, Nat.add_zero, hslen,
        hcount, List.append_assoc]
    · exact absurd ht.symm BaseState.accountType_ne
  · simp only [hat, List.isEmpty_cons, Bool.false_eq_true, if_false, List.length_singleton]
      at hslen
    have hbyte : ((s.bytes ++ zeros n).drop (Pod.size S))[accountLen - Pod.size S]? =
        some (BaseState.accountType S).toU8 := by
      rw [PodState.bytes_of_accountType hat]
      simp only [List.append_assoc]
      rw [List.drop_left' hsize, List.getElem?_append_right (by simp)]
      simp
    rw [hbyte, Option.bind_some, AccountType.ofU8_toU8] at ht
    obtain rfl := (Option.some.inj ht).symm
    rcases hdata with ⟨ht, _⟩ | ⟨_, hdata⟩
    · exact absurd ht BaseState.accountType_ne
    · exact ⟨by rw [hdata, PodState.bytes_grown_of_accountType n hat], by omega, by omega⟩

end Grow

/-! ## Cutting -/

namespace PodState

variable {S : Type} [BaseState S]

/-- A state with the buffer cut to `n` bytes. -/
def cut (s : PodState S) (n : Nat) : PodState S := { s with tlvData := s.tlvData.take n }

/-- The data of a state, cut behind the type byte. -/
theorem bytes_take {s : PodState S} {n r : Nat}
    (hat : s.accountType = [(BaseState.accountType S).toU8]) (hn : n = accountLen + 1 + r) :
    s.bytes.take n = (s.cut r).bytes := by
  have hle := BaseState.size_le (S := S)
  have hlen : (Pod.toBytes s.base ++ (zeros (accountLen - Pod.size S) ++
      [(BaseState.accountType S).toU8])).length = accountLen + 1 := by
    rw [List.length_append, List.length_append, Pod.length_toBytes, List.length_replicate,
      List.length_singleton]
    omega
  have hcut : (s.cut r).bytes = Pod.toBytes s.base ++ (zeros (accountLen - Pod.size S) ++
      ([(BaseState.accountType S).toU8] ++ s.tlvData.take r)) :=
    bytes_of_accountType (s := s.cut r) hat
  have hr : n - (accountLen + 1) = r := by omega
  rw [bytes_of_accountType hat, hcut]
  simp only [← List.append_assoc]
  rw [List.append_assoc (Pod.toBytes s.base), List.take_append, hlen,
    List.take_of_length_le (hlen.trans_le (by omega)), hr]

end PodState

end SolanaEasy.Token
