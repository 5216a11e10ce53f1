import SolanaEasy.Token.Run

/-!
# Kinds — accounts, mints and multisigs are told apart by their bytes

No bytes pass for two kinds of account, and in every reachable state the entries
behind an initialised account or mint parse, are distinct, and are of its kind.
-/

namespace SolanaEasy.Token

section Coherent

variable {S : Type} [BaseState S]

/-- The data of an initialised account, with the state it was read as. -/
structure Coherent (data : Bytes) (s : PodState S) : Prop where
  length : data.length ≠ multisigLen
  parses : ∃ types, s.getExtensionTypes = .ok types ∧ types.Nodup ∧
    ∀ t ∈ types, t.getAccountType = BaseState.accountType S

theorem PodState.Wf.coherent {data : Bytes} {s : PodState S} (hwf : s.Wf)
    (h : unpack S data = .ok s) : Coherent data s := by
  obtain ⟨b, hb⟩ := hwf
  refine ⟨unpack_length_ne h, b.types, ?_, b.nodup, ?_⟩
  · rw [getExtensionTypes, ← hb, b.getTlvDataInfo_bytes]
    rfl
  · intro t ht
    obtain ⟨e, he, rfl⟩ := List.mem_map.mp ht
    exact (b.belongs e he).accountType

end Coherent

/-- The three kinds of account are disjoint, and what the program keeps is coherent. -/
theorem kinds_disjoint_and_coherent (rt : Runtime) :
    (∀ data : Bytes,
      ¬ ((∃ s, unpack PodAccount data = .ok s) ∧ ∃ m, unpack PodMint data = .ok m) ∧
      ¬ ((∃ s, unpack PodAccount data = .ok s) ∧ data.length = multisigLen) ∧
      ¬ ((∃ m, unpack PodMint data = .ok m) ∧ data.length = multisigLen)) ∧
    ∀ σ, Reachable rt (fun _ => True) σ → ∀ k, (σ k).owner = Keys.tokenProgram →
      (∀ s, unpack PodAccount (σ k).data = .ok s → Coherent (σ k).data s) ∧
      ∀ m, unpack PodMint (σ k).data = .ok m → Coherent (σ k).data m := by
  refine ⟨fun data => ⟨?_, ?_, ?_⟩, fun σ hreach k howner => ⟨fun s hs => ?_, fun m hm => ?_⟩⟩
  · rintro ⟨⟨s, hs⟩, m, hm⟩
    exact unpack_mint_ne_of_account hs hm
  · rintro ⟨⟨s, hs⟩, hlen⟩
    exact unpack_length_ne hs hlen
  · rintro ⟨⟨m, hm⟩, hlen⟩
    exact unpack_length_ne hm hlen
  · exact (hreach.wf.load howner hs).1.coherent hs
  · exact (hreach.wf.load howner hm).1.coherent hm

/-- A mint with a close authority and a holder, made by four instructions. -/
def kindsScript : List (Context × List AccountInfo × Instruction) :=
  [(.plain, [⟨1, false⟩], .initializeMintCloseAuthority (some 5)),
   (.plain, [⟨1, false⟩], .initializeMint2 6 5 none),
   (.plain, [⟨2, false⟩], .initializeImmutableOwner),
   (.plain, [⟨2, false⟩, ⟨1, false⟩], .initializeAccount3 7)]

/-- Both ends of the script are coherent. -/
theorem kinds_coherent_scripted :
    let σ := scripted (.modular 2) kindsScript (blank [(1, 202), (2, 170)])
    (∃ m, unpack PodMint (σ 1).data = .ok m ∧ Coherent (σ 1).data m) ∧
      ∃ s, unpack PodAccount (σ 2).data = .ok s ∧ Coherent (σ 2).data s := by
  intro σ
  have hreach : Reachable (.modular 2) (fun _ => True) σ :=
    .scripted (by decide) (fun _ _ _ => trivial) (by decide +kernel)
  have hmint : (toOption (unpack PodMint (σ 1).data)).isSome = true := by decide +kernel
  have haccount : (toOption (unpack PodAccount (σ 2).data)).isSome = true := by decide +kernel
  obtain ⟨m, hm⟩ := Option.isSome_iff_exists.mp hmint
  obtain ⟨s, hs⟩ := Option.isSome_iff_exists.mp haccount
  rw [toOption_eq_some] at hm hs
  have hall := (kinds_disjoint_and_coherent (.modular 2)).2 σ hreach
  exact ⟨⟨m, hm, (hall 1 (by decide +kernel)).2 m hm⟩, s, hs, (hall 2 (by decide +kernel)).1 s hs⟩

end SolanaEasy.Token
