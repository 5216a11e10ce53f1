import SolanaEasy.Token.Run

/-!
# Markers — what accounts carry for their mint

Transfers without a mint account learn what a mint asks for from the extensions that
its accounts were opened with. As long as the mint is not closed they carry all of
them. A mint that is opened again at an address may ask for more than the accounts
that are left there have; this is the one way in which they can be missing.
-/

namespace SolanaEasy.Token

open Processor

/-- The account carries every extension that the mint requires of its accounts. -/
def View.Demands (m : View PodMint) (v : View PodAccount) : Prop :=
  ∀ t, (m.ext t).isSome = true → ∀ u ∈ t.requiredInitAccountExtensions, (v.ext u).isSome = true

theorem View.Demands.grows {m : View PodMint} {v v' : View PodAccount} (h : m.Demands v)
    (grows : v.Grows v') : m.Demands v' := fun t ht u hu => grows u (h t ht u hu)

theorem ExtensionType.requires_nothing {t : ExtensionType} (h : t.isRecord = true) :
    t.requiredInitAccountExtensions = [] := by
  cases t <;> first | rfl | cases h

/-- What is added to a mint after it was initialised asks for nothing. -/
theorem View.Demands.keeps {m m' : View PodMint} {v : View PodAccount} (h : m.Demands v)
    (keeps : m.Keeps m') : m'.Demands v := by
  intro t ht u hu
  rcases keeps.adds t ht with hbefore | hrecord
  · exact h t hbefore u hu
  · rw [ExtensionType.requires_nothing hrecord] at hu
    cases hu

theorem View.demands_flag (m : View PodMint) {v : View PodAccount} (h : m.Demands v) (b : Bool) :
    m.Demands (v.flag b) := h.grows (grows_set v _)

/-! ## Mints that stay -/

section Attached

variable {rt : Runtime} {M : Pubkey}

/-- An account of `M` has its mint, and all that the mint asks for. -/
def Attached (M : Pubkey) (v : View PodAccount) (x : Contents) : Prop :=
  v.base.mint = M → ∃ m, x = .mint m ∧ m.Demands v

theorem Change.demands {c : Call} {β : Book} {k : Pubkey} {v : View PodAccount} {m : View PodMint}
    (h : Change rt c β k .other (.account v)) (mint : β.Mint v.base.mint m) : m.Demands v := by
  cases h with
  | openAccount _ mint' required =>
    obtain rfl := mint'.unique mint
    exact fun t ht u hu => required t u ht hu

theorem link_attached {allow : Call → Prop} (hopen : ∀ c, allow c → ¬ c.Closes M) :
    Link rt allow (Attached M) where
  opened may h mint _ := ⟨_, rfl, h.demands mint⟩
  effect may h grows hq hM := by
    obtain ⟨m, hm, hd⟩ := hq (h.mint_eq.symm.trans hM)
    exact ⟨m, hm, hd.grows grows⟩
  exchange may h grows hq hM := by
    obtain ⟨m, hm, hd⟩ := hq (h.mint_eq.symm.trans hM)
    exact ⟨m, hm, hd.grows grows⟩
  flag hq hM := by
    obtain ⟨m, hm, hd⟩ := hq hM
    exact ⟨m, hm, m.demands_flag hd false⟩
  change may h hq hM := by
    obtain ⟨m, rfl, hd⟩ := hq hM
    rcases h.of_mint with rfl | ⟨m', rfl, _, keeps⟩ | ⟨_, hcloses, _⟩
    · exact ⟨m, rfl, hd⟩
    · exact ⟨m', rfl, hd.keeps keeps⟩
    · exact absurd (hM ▸ hcloses) (hopen _ may)
  deal may h hq hM := by
    obtain ⟨m, rfl, hd⟩ := hq hM
    rcases h.of_mint with rfl | ⟨m', rfl, _, keeps⟩
    · exact ⟨m, rfl, hd⟩
    · exact ⟨m', rfl, hd.keeps keeps⟩
  lowered h hq hM := by
    obtain ⟨m, rfl, hd⟩ := hq hM
    exact ⟨m, h.of_mint, hd⟩

/-- An extension that a handler does not find is not there. -/
theorem Ledger.Wf.ext_eq_none {σ : Ledger} (hwf : σ.Wf) {k : Pubkey} {v : View PodAccount}
    (held : σ.book.Account k v) {V : Type} [Pod V] [Extension V] [SizedExtension V]
    (hsized : (Extension.type V).sized = true) (h : v.get V = none) :
    v.ext (Extension.type V) = none := by
  obtain ⟨howner, s, hs, rfl⟩ := Cell.contents_eq_account.mp held
  exact PodState.ext_eq_none_of_get (hwf.load howner hs).1 hsized h

end Attached

/-! ## Mints that come back -/

/-- A mint is initialised only with extensions that the accounts which name its address
can serve. -/
def Call.Compatible (c : Call) : Prop :=
  ∀ M m, c.Initializes M m → ∀ k v, c.σ.book.Account k v → v.base.mint = M → m.Demands v

/-- No account lacks what its mint requires. -/
def Book.Demanding (β : Book) : Prop :=
  ∀ k v m, β.Account k v → β.Mint v.base.mint m → m.Demands v

section Demanding

variable {rt : Runtime} {c : Call} {β β' : Book} {k : Pubkey}

/-- Where an account comes from. -/
theorem Change.to_account {x : Contents} {v' : View PodAccount}
    (h : Change rt c β k x (.account v')) :
    (∃ v, x = .account v ∧ v'.base.mint = v.base.mint ∧ v.Grows v') ∨
      (c.isInitializeAccount = true ∧ ∃ m, β.Mint v'.base.mint m ∧ m.Demands v') := by
  cases h with
  | same => exact .inl ⟨v', rfl, rfl, .refl v'⟩
  | @account v _ h =>
    refine .inl ⟨v, rfl, ?_⟩
    induction h with
    | refl => exact ⟨rfl, .refl v⟩
    | tail _ hstep ih => exact ⟨hstep.1.mint_eq.trans ih.1, ih.2.trans hstep.2⟩
  | openAccount opens mint required =>
    exact .inr ⟨opens, _, mint, fun t ht u hu => required t u ht hu⟩

/-- Where a mint comes from. -/
theorem Change.to_mint {x : Contents} {m' : View PodMint} (h : Change rt c β k x (.mint m')) :
    (∃ m, x = .mint m ∧ m.Keeps m') ∨
      (x = .other ∧ (c.Initializes k m' ∨ ∀ t, m'.ext t = none)) := by
  cases h with
  | same => exact .inl ⟨m', rfl, .refl m'⟩
  | mint _ keeps => exact .inl ⟨_, rfl, keeps⟩
  | openMint opens => exact .inr ⟨rfl, .inl opens⟩
  | openNativeMint _ _ bare => exact .inr ⟨rfl, .inr bare.2⟩

/-- The accounts of the book were there before the instruction, unless it opens one. -/
def Book.OldAccounts (c : Call) (β : Book) : Prop :=
  c.isInitializeAccount = false → ∀ k v, β.Account k v → ∃ v₀, c.σ.book.Account k v₀ ∧
    v.base.mint = v₀.base.mint ∧ v₀.Grows v

theorem Call.Initializes.not_account {M : Pubkey} {m : View PodMint} (h : c.Initializes M m) :
    c.isInitializeAccount = false := by
  have hi := h.2.2
  unfold isInitializeAccount
  split at hi
  · rename_i heq
    rw [heq]
  · rename_i heq
    rw [heq]
  · exact hi.elim

theorem Move.demanding (hc : c.Compatible) (hold : β.OldAccounts c) (hd : β.Demanding)
    (h : Move rt c β β') : β'.OldAccounts c ∧ β'.Demanding := by
  have hto : ∀ k v', β'.Account k v' →
      (∃ v, β.Account k v ∧ v'.base.mint = v.base.mint ∧ v.Grows v') ∨
        (c.isInitializeAccount = true ∧ ∃ m, β.Mint v'.base.mint m ∧ m.Demands v') :=
    fun k v' held => Change.to_account (held ▸ h.change k)
  constructor
  · intro hinit k v' held
    rcases hto k v' held with ⟨v, hv, hmint, hgrows⟩ | ⟨hopens, _⟩
    · obtain ⟨v₀, hv₀, hmint₀, hgrows₀⟩ := hold hinit k v hv
      exact ⟨v₀, hv₀, hmint.trans hmint₀, hgrows₀.trans hgrows⟩
    · rw [hinit] at hopens
      cases hopens
  · intro k v' m' held mint
    rcases (mint ▸ h.change v'.base.mint : Change ..).to_mint with
      ⟨m, hm, hkeeps⟩ | ⟨hother, hnew⟩
    · rcases hto k v' held with ⟨v, hv, hmint, hgrows⟩ | ⟨_, n, hn, hdemands⟩
      · exact ((hd k v m hv (hmint ▸ hm)).grows hgrows).keeps hkeeps
      · obtain rfl := Book.Mint.unique hn hm
        exact hdemands.keeps hkeeps
    · rcases hnew with hinit | hbare
      · rcases hto k v' held with ⟨v, hv, hmint, hgrows⟩ | ⟨hopens, _⟩
        · obtain ⟨v₀, hv₀, hmint₀, hgrows₀⟩ := hold hinit.not_account k v hv
          exact (hc _ m' hinit k v₀ hv₀ (hmint.trans hmint₀).symm).grows (hgrows₀.trans hgrows)
        · rw [hinit.not_account] at hopens
          cases hopens
      · intro t ht
        rw [hbare t] at ht
        cases ht

theorem Moves.demanding (hc : c.Compatible) (hd : c.σ.book.Demanding)
    (h : Moves rt c c.σ.book β') : β'.Demanding := by
  suffices hboth : β'.OldAccounts c ∧ β'.Demanding from hboth.2
  induction h with
  | refl => exact ⟨fun _ k v held => ⟨v, held, rfl, .refl v⟩, hd⟩
  | tail _ hmove ih => exact hmove.demanding hc ih.1 ih.2

/-- Where a trade leaves a mint or an account, there was one. -/
theorem Trade.demanding {s d : Pubkey} {hook : Option Pubkey} (hd : β.Demanding)
    (h : Trade rt c s d hook β β') : β'.Demanding := by
  intro k v' m' held mint
  obtain ⟨m, hm, hkeeps⟩ := (mint ▸ h.deal v'.base.mint : Deal ..).to_mint
  obtain ⟨v, hv, hmint, hgrows⟩ := (held ▸ h.deal k : Deal ..).to_account
  have hdemands := (hd k v m hv (hmint ▸ hm)).grows hgrows
  rcases hkeeps with rfl | ⟨_, hkeeps⟩
  · exact hdemands
  · exact hdemands.keeps hkeeps

theorem Book.Demanding.lowered (hd : β.Demanding)
    (h : ∀ k, Lowered (β k).contents (β' k).contents) : β'.Demanding := by
  intro k v' m' held mint
  have hm := (mint ▸ h v'.base.mint : Lowered ..).to_mint
  have hat := h k
  rw [show _ = Contents.account v' from held] at hat
  generalize hx : (β k).contents = x at hat
  cases hat with
  | same => exact hd k v' m' hx hm
  | account => exact m'.demands_flag (hd k _ m' hx hm) false

end Demanding

section Run

variable {rt : Runtime} {σ σ' : Ledger}

theorem Step.demanding (hwf : σ.Wf) (hd : σ.book.Demanding)
    (h : Step rt Call.Compatible σ σ') : σ'.book.Demanding := by
  cases h with
  | call may run =>
    cases (run_course hwf run).2 with
    | moves _ h => exact h.demanding may hd
    | trade _ h rest => exact (h.demanding hd).lowered rest.lowered
  | outside henv => exact hd.lowered henv.book.lowered

end Run

end SolanaEasy.Token
