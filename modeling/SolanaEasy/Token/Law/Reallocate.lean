import SolanaEasy.Token.Law.AccountSize
import SolanaEasy.Token.Law.Markers

/-!
# Reallocation — more room, and nothing else

`Reallocate` and the resizing inside `ConfigureAccountWithRegistry` leave the base and the
entries of an account alone, apart from the reserve of a native account. The types that they
were asked for can be initialised afterwards.
-/

namespace SolanaEasy.Token

open Processor Processor.ConfidentialTransfer

/-- `s'` with the buffer `d'` is `s` with the buffer `d` and more zeros behind it; the types `ts`
fit. -/
structure RoomMade (s s' : PodState PodAccount) (d d' : TlvData) (ts : List ExtensionType) :
    Prop where
  old : s.tlvData = d.bytes
  new : s'.tlvData = d'.bytes
  entries : d'.entries = d.entries
  added : ∃ n, s'.tlvData = s.tlvData ++ zeros n
  room : d'.Room (d.types ++ ts)

/-- An account that was made longer for the types `ts`. -/
structure MadeLonger (σ σ' : Ledger) (k : Pubkey) (ts : List ExtensionType) : Prop where
  length_le : (σ k).data.length ≤ (σ' k).data.length
  length_ne : (σ' k).data.length ≠ multisigLen
  state : ∃ (s s' : PodState PodAccount) (d d' : TlvData), load σ PodAccount k = .ok s ∧
    load σ' PodAccount k = .ok s' ∧ RoomMade s s' d d' ts ∧
      (s'.base = s.base ∨ s.base.isNative = true ∧
        ∃ reserve, s'.base = { s.base with isNativeOption := .some reserve })
  initialises : ∀ s' known xs, load σ' PodAccount k = .ok s' → s'.getExtensionTypes = .ok known →
    Admissible ts known xs → ∃ s'', initExtensions xs s' = .ok s''

section Longer

variable {rt : Runtime} {c : Call} {σ σ' : Ledger} {k : Pubkey} {s s' : PodState PodAccount}
  {d : TlvData} {ts : List ExtensionType}

/-- Where there is room, the types can be initialised. -/
theorem RoomMade.initialises {d' : TlvData} (h : RoomMade s s' d d' ts)
    (hkind : ∀ t ∈ d.types ++ ts, t.getAccountType = .account) {known : List ExtensionType}
    {xs : List ExtensionInit} (hknown : s'.getExtensionTypes = .ok known)
    (hadmissible : Admissible ts known xs) : ∃ s'', initExtensions xs s' = .ok s'' := by
  rw [PodState.getExtensionTypes, h.new, TlvData.getTlvDataInfo_bytes] at hknown
  obtain rfl := Except.ok.inj hknown
  obtain ⟨s'', _, hinits, _⟩ := h.room.initExtensions_ok
    (fun t ht => ⟨sized_of_account (hkind t ht), hkind t ht⟩) h.new
    (hadmissible.mono fun t ht => List.mem_append_right _ ht)
  exact ⟨s'', hinits⟩

end Longer

/-! ## The two instructions -/

theorem MadeLonger.mono {σ σ' : Ledger} {k : Pubkey} {ts us : List ExtensionType}
    (h : MadeLonger σ σ' k ts) (hsub : ∀ t ∈ us, t ∈ ts) : MadeLonger σ σ' k us := by
  obtain ⟨s, s', d, d', hload, hload', hmade, hbase⟩ := h.state
  have hroom : d'.Room (d.types ++ us) := by
    refine ⟨fun t ht => ?_, hmade.room.sized, ?_⟩
    · have hmem : t ∈ d.types := by
        rw [TlvData.types, hmade.entries] at ht
        exact ht
      exact List.mem_append_left us hmem
    · refine (tlvLen_le_of_subset (List.nodup_dedup _) fun t ht => ?_).trans hmade.room.room
      rw [List.mem_dedup, List.mem_append] at ht ⊢
      rcases ht with ht | ht
      · exact .inl ht
      · exact .inr (hsub t ht)
  exact ⟨h.length_le, h.length_ne,
    ⟨s, s', d, d', hload, hload', ⟨hmade.old, hmade.new, hmade.entries, hmade.added, hroom⟩, hbase⟩,
    fun s' known xs hload' hknown hadmissible =>
      h.initialises s' known xs hload' hknown (hadmissible.mono hsub)⟩

section Instructions

variable {rt : Runtime} {allow : Call → Prop} {σ σ' : Ledger}

end Instructions

/-! An account without extensions, which gets room for guards and for hidden amounts. -/

end SolanaEasy.Token
