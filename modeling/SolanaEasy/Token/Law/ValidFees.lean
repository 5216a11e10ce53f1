import SolanaEasy.Token.Law.FeeSchedule

/-!
# Valid fees — no mint takes more than everything

In every ledger that can be reached, both fees of every mint are at most the whole amount,
however often they were set and whatever became of the mint before.
-/

namespace SolanaEasy.Token

/-- Both fees of the mint are at most the whole amount. -/
def ValidFees (m : View PodMint) : Prop :=
  ∀ o n, m.mintCore.fees = some (o, n) → o.Valid ∧ n.Valid

def Book.FeesValid (β : Book) : Prop := ∀ M m, β.Mint M m → ValidFees m

section Steps

variable {rt : Runtime} {c : Call} {β β' : Book} {M : Pubkey} {m m' : View PodMint}

theorem FreshFees.valid (h : FreshFees m) : ValidFees m := by
  intro o n hfees
  obtain ⟨rfl, hvalid⟩ := h o n hfees
  exact ⟨hvalid, hvalid⟩

theorem ValidFees.congr (h : ValidFees m) (hfees : m'.mintCore.fees = m.mintCore.fees) :
    ValidFees m' := by
  intro o n hm'
  exact h o n (hfees ▸ hm')

/-- An instruction that does not set the fee of the mint. -/
theorem Course.validFees (h : Course rt c β β') (hc : ¬ c.SetsFee M)
    (valid : ∀ m, β.Mint M m → ValidFees m) : ∀ m, β'.Mint M m → ValidFees m := by
  cases h with
  | moves other h =>
    induction h with
    | refl => exact valid
    | @tail β₁ β₂ _ hmove ih =>
      intro m held
      have hchange := hmove.change M
      rw [show _ = Contents.mint m from held] at hchange
      generalize hx : (β₁ M).contents = x at hchange
      cases hchange with
      | same => exact ih m hx
      | mint h keeps => exact (ih _ hx).congr (h.fees_eq hc)
      | openMint opens _ fees _ => exact FreshFees.valid fees
      | openNativeMint opens _ bare =>
        intro o n hfees
        rw [View.mintCore, View.get_eq_none_of_ext (bare.2 _)] at hfees
        cases hfees
  | trade trades h rest =>
    intro m held
    have hlowered := rest.lowered M
    have hdeal := h.deal M
    rw [show _ = Contents.mint m from held] at hlowered
    rw [hlowered.to_mint] at hdeal
    obtain ⟨m₀, held₀, hsame⟩ := hdeal.to_mint
    rcases hsame with rfl | ⟨hexchange, _⟩
    · exact valid _ held₀
    · exact (valid _ held₀).congr hexchange.fees_eq

/-- Setting the fee checks the new one, and keeps one of the old ones. -/
theorem SetsFee.validFees {σ' : Ledger} (hwf : c.σ.Wf) (hc : c.SetsFee M)
    (held : c.σ.book.Mint M m) (valid : ValidFees m) (h : c.run rt = .ok σ')
    (held' : σ'.book.Mint M m') : ValidFees m' := by
  obtain ⟨head, bps, max, hsets⟩ := hc
  obtain ⟨m₁, p, held₁, hp, hset, hbps⟩ := setTransferFee_book hwf hsets head held h
  obtain rfl := held₁.unique held'
  obtain ⟨hold, hnew⟩ := valid p.1 p.2 hp
  intro o n hfees
  obtain ⟨rfl, rfl⟩ := Prod.mk.inj (Option.some.inj (hset.symm.trans hfees))
  refine ⟨?_, hbps⟩
  split
  · exact hnew
  · exact hold

end Steps

theorem Step.feesValid {rt : Runtime} {allow : Call → Prop} {σ σ' : Ledger} (hwf : σ.Wf)
    (h : Step rt allow σ σ') (valid : σ.book.FeesValid) : σ'.book.FeesValid := by
  cases h with
  | @call c _ _ run =>
    intro M m' held'
    have hcourse := (run_course hwf run).2
    by_cases hold : ∃ m, c.σ.book.Mint M m
    · obtain ⟨m, held⟩ := hold
      by_cases hc : c.SetsFee M
      · exact SetsFee.validFees hwf hc held (valid M m held) run held'
      · exact hcourse.validFees hc (valid M) m' held'
    · exact (hcourse.freshFees (not_exists.mp hold) held').valid
  | outside henv =>
    intro M m' held'
    have hat := henv.book.lowered M
    rw [show _ = Contents.mint m' from held'] at hat
    exact valid M m' hat.to_mint

/-- No fee of a mint is more than the whole amount. -/
theorem Reachable.feesValid {rt : Runtime} {allow : Call → Prop} {σ : Ledger}
    (h : Reachable rt allow σ) : σ.book.FeesValid := by
  obtain ⟨σ₀, hgenesis, hrun⟩ := h
  induction hrun with
  | refl =>
    intro M m held
    exact absurd ((show _ = Contents.mint m from held).symm.trans (hgenesis.book M))
      Contents.noConfusion
  | tail hbefore hstep ih => exact hstep.feesValid (Run.wf hbefore hgenesis.wf) ih

end SolanaEasy.Token
