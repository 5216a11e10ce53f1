import SolanaEasy.Token.Run

/-!
# Records — what a mint shows, over runs

Interest, multiplier, group and member are changed by few instructions, and by each of
them only in part. A part that no instruction of a run may change stays; a mint that an
instruction opens has none that has a past.
-/

namespace SolanaEasy.Token

open Processor

/-- The instruction leaves this part of what mints show. -/
def Instruction.Spares {α : Type} (i : Instruction) (part : MintRecords → α) : Prop :=
  ∀ r r', i.Rewrites r r' → part r' = part r

section Parts

variable {i : Instruction}

theorem Instruction.spares_interest (h : i.rewrites .interestBearingConfig = false) :
    i.Spares MintRecords.interest :=
  fun _ _ hr => hr.interest.resolve_left (by simp [h])

theorem Instruction.spares_multiplier (h : i.rewrites .scaledUiAmount = false) :
    i.Spares MintRecords.multiplier :=
  fun _ _ hr => hr.multiplier.resolve_left (by simp [h])

theorem Instruction.spares_group (h : i.rewrites .tokenGroup = false) :
    i.Spares MintRecords.group :=
  fun _ _ hr => hr.group.resolve_left (by simp [h])

theorem Instruction.spares_member (h : i.rewrites .tokenGroupMember = false) :
    i.Spares MintRecords.member :=
  fun _ _ hr => hr.member.resolve_left (by simp [h])

end Parts

section Instruction

variable {rt : Runtime} {c : Call} {σ σ' : Ledger} {β β' : Book} {M : Pubkey} {m : View PodMint}
variable {α : Type} {part : MintRecords → α}

theorem Call.key?_zero_eq (c : Call) : c.key? 0 = c.accounts.head?.map (·.key) := by
  rw [Call.key?, List.head?_eq_getElem?]

theorem MintEffect.part_eq {m' : View PodMint} (h : MintEffect rt c M m m')
    (hc : c.instruction.Spares part) : part m'.records = part m.records := by
  cases h with
  | rewrite rewrites core =>
    exact (congrArg (fun a : MintCore => part a.records) core :).trans (hc _ _ rewrites)
  | quiet core | withheld core | secretFees _ core | setFee _ _ _ _ core | pause _ _ core
  | rotate _ _ _ core | restate _ core | applyBurn _ _ core =>
    exact (congrArg (fun a : MintCore => part a.records) core :)

theorem MintEffect.records_eq {m' : View PodMint} (h : MintEffect rt c M m m')
    (hc : ∀ t, c.instruction.rewrites t = false) : m'.records = m.records := by
  refine show id m'.records = id m.records from h.part_eq fun r r' hr => ?_
  cases r
  cases r'
  simp only [id, MintRecords.mk.injEq]
  exact ⟨Instruction.spares_interest (hc _) _ _ hr, Instruction.spares_multiplier (hc _) _ _ hr,
    Instruction.spares_group (hc _) _ _ hr, Instruction.spares_member (hc _) _ _ hr⟩

theorem MintExchange.part_eq {m' : View PodMint} (h : MintExchange rt c m m') :
    part m'.records = part m.records := by
  cases h <;> rename_i core <;> exact (congrArg (fun a : MintCore => part a.records) core :)

theorem respects_part (hc : c.instruction.Spares part) :
    MintRespects rt c M fun m m' => part m'.records = part m.records where
  refl _ := rfl
  trans h h' := h'.trans h
  effect h _ := h.part_eq hc
  exchange h _ := h.part_eq

/-- A run that spares a part of the records, and leaves the mint open. -/
theorem Run.spared {allow : Call → Prop} (hspares : ∀ c, allow c → c.instruction.Spares part)
    (hopen : ∀ c, allow c → ¬ c.Closes M) (hwf : σ.Wf) (held : σ.book.Mint M m)
    (h : Run rt allow σ σ') :
    ∃ m', σ'.book.Mint M m' ∧ part m'.records = part m.records :=
  Run.mint (P := fun m m' => part m'.records = part m.records)
    (fun c hc => respects_part (hspares c hc)) (fun c _ hc _ => hopen c hc) hwf held rfl
    (fun h h' => h'.trans h) h

/-- A part that instructions on other first accounts leave alone, and that every instruction
spares that does not rewrite its extension. -/
theorem Step.spared {allow : Call → Prop} {t : ExtensionType}
    (hspares : ∀ i : Instruction, i.rewrites t = false → i.Spares part)
    (hfirst : ∀ (c : Call) σ', c.instruction.rewrites t = true → c.key? 0 ≠ some M →
      c.run rt = .ok σ' → σ' M = c.σ M)
    (hallow : ∀ c, allow c →
      ¬ (c.key? 0 = some M ∧ c.instruction.rewrites t = true) ∧ ¬ c.Closes M)
    (hwf : σ.Wf) (held : σ.book.Mint M m) (h : Step rt allow σ σ') :
    ∃ m', σ'.book.Mint M m' ∧ part m'.records = part m.records := by
  cases h with
  | @call c _ may run =>
    obtain ⟨hnot, hopen⟩ := hallow c may
    by_cases hrewrites : c.instruction.rewrites t = true
    · refine ⟨m, ?_, rfl⟩
      show (σ' M).contents = _
      rw [hfirst c σ' hrewrites (fun hkey => hnot ⟨hkey, hrewrites⟩) run]
      exact held
    · have hrun : Run rt (fun c => c.instruction.rewrites t = false ∧ ¬ c.Closes M) c.σ σ' :=
        .single (.call ⟨Bool.eq_false_of_not_eq_true hrewrites, hopen⟩ run)
      exact hrun.spared (fun c hc => hspares _ hc.1) (fun _ hc => hc.2) hwf held
  | outside henv => exact ⟨m, henv.book.mint held, rfl⟩

theorem Call.Initializes.rewrites (h : c.Initializes M m) (t : ExtensionType) :
    c.instruction.rewrites t = false := by
  have hmint := h.2.2
  cases hi : c.instruction <;> rw [hi] at hmint <;> first | rfl | cases hmint

/-- A mint that an instruction opens. -/
theorem Course.freshRecords (h : Course rt c β β') (new : ∀ m, ¬ β.Mint M m)
    (held : β'.Mint M m) : m.records.Fresh := by
  cases h with
  | moves other h =>
    suffices hopen : ∀ m, β'.Mint M m → (∀ t, c.instruction.rewrites t = false) ∧
        m.records.Fresh from (hopen m held).2
    clear held
    induction h with
    | refl => exact fun m held => absurd held (new m)
    | @tail β₁ β₂ _ hmove ih =>
      intro m held
      have hchange := hmove.change M
      rw [show _ = Contents.mint m from held] at hchange
      generalize hx : (β₁ M).contents = x at hchange
      cases hchange with
      | same => exact ih m hx
      | mint h keeps =>
        obtain ⟨hnone, hfresh⟩ := ih _ hx
        refine ⟨hnone, ?_⟩
        rw [h.records_eq hnone]
        exact hfresh
      | openMint opens _ _ records => exact ⟨opens.rewrites, records⟩
      | openNativeMint opens _ bare =>
        refine ⟨fun t => ?_, View.records_of_bare bare⟩
        rw [opens]
        rfl
  | trade trades h rest =>
    -- a trade makes no mint
    have hlowered := rest.lowered M
    have hdeal := h.deal M
    rw [show _ = Contents.mint m from held] at hlowered
    rw [hlowered.to_mint] at hdeal
    obtain ⟨m₀, hm₀, _⟩ := hdeal.to_mint
    exact absurd hm₀ (new m₀)

/-- A step that opens a mint. -/
theorem Step.freshRecords {allow : Call → Prop} (hwf : σ.Wf) (new : ∀ m, ¬ σ.book.Mint M m)
    (step : Step rt allow σ σ') (held : σ'.book.Mint M m) : m.records.Fresh := by
  cases step with
  | call _ run => exact (run_course hwf run).2.freshRecords new held
  | outside henv =>
    have hat := henv.book.lowered M
    rw [show _ = Contents.mint m from held] at hat
    exact absurd hat.to_mint (new m)

end Instruction

end SolanaEasy.Token
