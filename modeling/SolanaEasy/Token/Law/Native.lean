import SolanaEasy.Token.Run

/-!
# Native tokens — wrapped lamports

Accounts of the native mint stand for lamports, and for nothing else. Its mint has no
authority and no extension, and none can be added.
-/

namespace SolanaEasy.Token

open Processor

/-- A native account is one of the native mint, which nobody can change. -/
structure Book.NativeBare (β : Book) : Prop where
  native : ∀ k v, β.Account k v → (v.base.isNative = true ↔ v.base.mint = Keys.nativeMint)
  bare : ∀ m, β.Mint Keys.nativeMint m → m.Bare

section Native

variable {rt : Runtime} {allow : Call → Prop} {c : Call} {β β' : Book} {k : Pubkey}

theorem Effect.isNative_eq {v v' : View PodAccount} (h : Effect rt c β k v v') :
    v'.base.isNative = v.base.isNative := by
  cases h with
  | native native still more core =>
    rw [native, PodAccount.isNative, show v'.base.isNativeOption = _ from
      congrArg (fun a : Core => a.base.isNativeOption) core]
    exact still
  | quiet core | allowance _ _ _ _ core | owner _ _ _ _ core | closer _ _ core
  | state _ _ _ core | lock _ _ core | configure _ _ _ _ _ _ core | setting _ core
  | emptied _ _ _ core | apply _ _ _ _ core | harvest core | collect _ _ _ core
  | secretHarvest _ core | secretCollect _ _ _ _ _ core =>
    exact congrArg (fun a : Core => a.base.isNative) core

theorem Exchange.isNative_eq {v v' : View PodAccount} (h : Exchange rt c v v') :
    v'.base.isNative = v.base.isNative := by
  cases h <;> rename_i core <;> exact congrArg (fun a : Core => a.base.isNative) core

theorem link_native (allow : Call → Prop) :
    Link rt allow fun v _ => v.base.isNative = true ↔ v.base.mint = Keys.nativeMint := by
  apply Link.of_account
  · intro c β k v _ h
    cases h with
    | openAccount _ _ _ native => exact native
  · exact fun _ h hr => by rw [h.isNative_eq, h.mint_eq, hr]
  · exact fun _ h hr => by rw [h.isNative_eq, h.mint_eq, hr]
  · exact fun hr => hr

theorem preserved_bare (allow : Call → Prop) :
    Preserved rt allow fun β => ∀ M m, β.Mint M m → M = Keys.nativeMint → m.Bare := by
  apply Preserved.of_mint
  · intro c β M m _ h hM
    cases h with
    | openMint _ ne _ _ => exact absurd hM ne
    | openNativeMint _ _ bare => exact bare
  · exact fun hp hkeeps hM => hkeeps.bare (hp hM)

theorem Book.NativeBare.of_native (h : β.NativeBare) :
    ∀ M m, β.Mint M m → M = Keys.nativeMint → m.Bare := fun _ m held hM => h.bare m (hM ▸ held)

theorem preserved_nativeBare (allow : Call → Prop) : Preserved rt allow Book.NativeBare := by
  have hnative := (@link_native rt allow).preserved
  have hbare := @preserved_bare rt allow
  constructor
  · intro c β β' may hwf hc hi h
    exact ⟨hnative.move may hwf hc.native hi.native h,
      fun m held => hbare.move may hwf hc.of_native hi.of_native h _ m held rfl⟩
  · intro c s d hook β' may hwf hc h
    exact ⟨hnative.trade may hwf hc.native h,
      fun m held => hbare.trade may hwf hc.of_native h _ m held rfl⟩
  · intro c s d hook β β' hi h
    exact ⟨hnative.hooked hi.native h, fun m held => hbare.hooked hi.of_native h _ m held rfl⟩
  · intro β β' hi h
    exact ⟨hnative.env hi.native h, fun m held => hbare.env hi.of_native h _ m held rfl⟩

/-- The native mint is not extended. -/
theorem Book.NativeBare.not_native (h : β.NativeBare) {v : View PodAccount} {m : View PodMint}
    (held : β.Account k v) (mint : β.Mint v.base.mint m) (extended : ∃ t, (m.ext t).isSome = true) :
    v.base.isNative = false := by
  obtain ⟨t, hsome⟩ := extended
  by_contra hnot
  have hM := (h.native k v held).mp (by simpa using hnot)
  rw [(h.of_native _ m mint hM).2 t] at hsome
  cases hsome

theorem Reachable.nativeBare {σ : Ledger} (h : Reachable rt allow σ) : σ.book.NativeBare := by
  refine (preserved_nativeBare allow).reachable (fun β hempty => ⟨fun k v held => ?_,
    fun m held => ?_⟩) h
  · rw [Book.Account, hempty k] at held
    cases held
  · rw [Book.Mint, hempty] at held
    cases held

end Native

end SolanaEasy.Token
