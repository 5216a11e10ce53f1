import SolanaEasy.Token.Law.NoWrap
import SolanaEasy.Token.Law.SecretIssue

/-!
# Closing a mint — when nothing is outstanding

A mint is closed when its supply is zero. That says that nobody holds anything of it
as long as it is issued in the open; a supply that is hidden is not looked at. Mints
that were closed while something was outstanding aside, the close is right exactly
when the hidden supply is the one that is recorded as burned.
-/

namespace SolanaEasy.Token

open Processor

section Closing

variable {l : ℕ} {rt : Runtime} {R : Reading l rt} {f : PodElGamalPubkey} {M : Pubkey}
  {c : Call} {β β' : Book} {σ σ' : Ledger} {m : View PodMint}

/-- An instruction that closes the mint at `M` only when nothing of it is outstanding in secret,
and initialises it only with `f` as the key of its hidden fees. -/
structure Call.Settles (R : Reading l rt) (f : PodElGamalPubkey) (M : Pubkey) (c : Call) :
    Prop where
  sound : R.Sound c.ctx c.σ
  feeKey : ∀ m, c.Initializes M m → m.mintCore.FeeKey f
  closes : c.Closes M → ∀ m, c.σ.book.Mint M m → m.mintCore.outstanding R = 0

/-- The register of `M` has a total that is a number, and its hidden fees are under `f`. -/
structure Book.Settled (R : Reading l rt) (f : PodElGamalPubkey) (M : Pubkey) (β : Book) :
    Prop where
  feeKey : β.FeeKey f M
  native : ∀ k v, β.Account k v → (v.base.isNative = true ↔ v.base.mint = Keys.nativeMint)
  whole : (β.register R f M).Whole

theorem Book.Settled.serves (h : β.Settled R f M) (hne : M ≠ Keys.nativeMint) :
    β.Serves f M True := ⟨h.feeKey, hne, h.native, fun _ _ _ _ _ _ => trivial⟩

theorem Change.feeKey (hne : M ≠ Keys.nativeMint)
    (hopen : ∀ m, c.Initializes M m → m.mintCore.FeeKey f) {x : Contents}
    (hx : ∀ m, x = .mint m → m.mintCore.FeeKey f) (h : Change rt c β M x (.mint m)) :
    m.mintCore.FeeKey f := by
  cases h with
  | same => exact hx m rfl
  | mint heffect => exact (MintCore.feeKey_congr heffect.secretFees_key).mpr (hx _ rfl)
  | openMint opens => exact hopen m opens
  | openNativeMint _ native => exact absurd native hne

theorem Deal.feeKey {s d : Pubkey} {x : Contents} (hx : ∀ m, x = .mint m → m.mintCore.FeeKey f)
    (h : Deal rt c s d M x (.mint m)) : m.mintCore.FeeKey f := by
  cases h with
  | same => exact hx m rfl
  | mint hexchange => exact (MintCore.feeKey_congr hexchange.secretFees_key).mpr (hx _ rfl)

/-- What is outstanding stays so until an instruction that closes the mint has closed it. -/
theorem Change.outstanding (hR : R.Sound c.ctx c.σ) (hc : c.Closes M) {x : Contents}
    (hx : ∀ m, x = .mint m → m.mintCore.outstanding R = 0) (h : Change rt c β M x (.mint m)) :
    m.mintCore.outstanding R = 0 := by
  cases x with
  | other => cases h.of_closed hc
  | account v => cases h
  | mint n =>
    rcases h.of_mint with hsame | ⟨m', hm', heffect, _⟩ | ⟨hother, _⟩
    · exact hx m hsame.symm
    · obtain rfl := Contents.mint.inj hm'
      exact (heffect.outstanding_eq hR).trans (hx n rfl)
    · cases hother

theorem MintCore.outstanding_eq_zero_iff (a : MintCore) :
    a.outstanding R = 0 ↔ (a.issue R f).secret.supply = (a.issue R f).secret.burned := by
  cases hu : a.mintBurn with
  | none => simp [MintCore.outstanding, MintCore.issue, MintCore.issueSecrets, hu]
  | some u =>
    obtain ⟨hs, hb⟩ := MintCore.supply_issue (R := R) (f := f) hu
    rw [MintCore.outstanding_of_mintBurn hu, hs, hb, sub_eq_zero]

theorem Move.settled [NeZero l] (hl : 2 ^ 65 - 1 ≤ l) (hne : M ≠ Keys.nativeMint)
    (hc : c.Settles R f M) (hs : β.Settled R f M)
    (hout : c.Closes M → ∀ m, β.Mint M m → m.mintCore.outstanding R = 0)
    (hwf : c.σ.Wf) (hstart : c.σ.book.Settled R f M) (h : Move rt c β β') :
    β'.Settled R f M where
  feeKey m held := (held ▸ h.change M : Change ..).feeKey hne hc.feeKey hs.feeKey
  native := (link_native fun _ => True).preserved.move trivial hwf hstart.native hs.native h
  whole := by
    rcases h.steps hc.sound (hs.serves hne) with hsteps | ⟨hcloses, hregister, m, held, hsupply⟩
    · exact hsteps.whole hl hs.whole
    · have hzero := (MintCore.outstanding_eq_zero_iff (f := f) _).mp (hout hcloses m held)
      rw [hregister]
      exact hs.whole.retire (Book.issue_register held)
        (show m.base.supply.toNat = 0 by rw [hsupply]; rfl) hzero

theorem Trade.settled [NeZero l] (hl : 2 ^ 65 - 1 ≤ l) (hne : M ≠ Keys.nativeMint)
    (hc : c.Settles R f M) (hwf : c.σ.Wf) (hs : c.σ.book.Settled R f M) {s d : Pubkey}
    {hook : Option Pubkey} (h : Trade rt c s d hook c.σ.book β') : β'.Settled R f M where
  feeKey _ held := (held ▸ h.deal M : Deal ..).feeKey hs.feeKey
  native := (link_native fun _ => True).preserved.trade trivial hwf hs.native h
  whole := (h.steps hc.sound (hs.serves hne)).whole hl hs.whole

theorem Book.Settled.lowered (hs : β.Settled R f M)
    (h : ∀ k, Lowered (β k).contents (β' k).contents) : β'.Settled R f M where
  feeKey m held := hs.feeKey m (held ▸ h M : Lowered ..).to_mint
  native k v' held := by
    have hat := h k
    rw [show _ = Contents.account v' from held] at hat
    generalize hx : (β k).contents = x at hat
    cases hat with
    | same => exact hs.native k v' hx
    | account => exact (hs.native k _ hx :)
  whole := by
    rw [Book.register_lowered h]
    exact hs.whole

theorem Moves.settled [NeZero l] (hl : 2 ^ 65 - 1 ≤ l) (hne : M ≠ Keys.nativeMint)
    (hc : c.Settles R f M) (hwf : c.σ.Wf) (hs : c.σ.book.Settled R f M)
    (h : Moves rt c c.σ.book β') : β'.Settled R f M := by
  suffices hboth : β'.Settled R f M ∧
      (c.Closes M → ∀ m, β'.Mint M m → m.mintCore.outstanding R = 0) from hboth.1
  induction h with
  | refl => exact ⟨hs, hc.closes⟩
  | tail _ hmove ih =>
    obtain ⟨hsettled, hout⟩ := ih
    exact ⟨hmove.settled hl hne hc hsettled hout hwf hs,
      fun hcloses m held => (held ▸ hmove.change M : Change ..).outstanding hc.sound hcloses
        (hout hcloses)⟩

theorem Step.settled [NeZero l] (hl : 2 ^ 65 - 1 ≤ l) (hne : M ≠ Keys.nativeMint) (hwf : σ.Wf)
    (hs : σ.book.Settled R f M) (h : Step rt (Call.Settles R f M) σ σ') :
    σ'.book.Settled R f M := by
  cases h with
  | call may run =>
    cases (run_course hwf run).2 with
    | moves _ h => exact h.settled hl hne may hwf hs
    | trade _ h rest => exact (h.settled hl hne may hwf hs).lowered rest.lowered
  | outside henv => exact hs.lowered henv.book.lowered

theorem Reachable.settled [NeZero l] (hl : 2 ^ 65 - 1 ≤ l) (hne : M ≠ Keys.nativeMint)
    (h : Reachable rt (Call.Settles R f M) σ) : σ.book.Settled R f M := by
  obtain ⟨σ₀, hgenesis, hrun⟩ := h
  induction hrun with
  | refl =>
    have hempty := hgenesis.book
    have hregister : σ₀.book.register R f M = .empty := by
      simp only [Book.register, hempty]
      rfl
    refine ⟨fun m held => ?_, fun k v held => ?_, ?_⟩
    · exact Contents.noConfusion ((hempty M).symm.trans held)
    · exact Contents.noConfusion ((hempty k).symm.trans held)
    · rw [hregister]
      exact Register.empty_whole
  | tail hbefore hstep ih => exact hstep.settled hl hne (Run.wf hbefore hgenesis.wf) ih

/-! ## The close -/

/-- What `CloseAccount` looks at before it closes a mint. -/
theorem closeMint_ok (hcloses : c.Closes M) (held : c.σ.book.Mint M m)
    (hrun : c.run rt = .ok σ') :
    (m.get MintCloseAuthority).isSome = true ∧ m.base.supply = 0 := by
  obtain ⟨hhead, hi⟩ := hcloses
  rw [Call.run, hi] at hrun
  obtain ⟨howner, s, hs, rfl⟩ := Cell.contents_eq_mint.mp held
  rw [Call.key?] at hhead
  rcases haccounts : c.accounts with
    _ | ⟨sourceInfo, _ | ⟨destinationInfo, _ | ⟨authorityInfo, signers⟩⟩⟩
  · rw [haccounts] at hhead
    cases hhead
  · rw [haccounts] at hrun
    cases hrun
  · rw [haccounts] at hrun
    cases hrun
  · rw [haccounts] at hhead hrun
    obtain rfl : sourceInfo.key = M := Option.some.inj hhead
    have hclose : processCloseAccount c.ctx (sourceInfo :: destinationInfo :: authorityInfo ::
      signers) c.σ = .ok σ' := hrun
    have hnone : toOption (load c.σ PodAccount sourceInfo.key) = none :=
      toOption_eq_none.mpr fun _ ha => unpack_mint_ne_of_account ha hs
    have hsome : toOption (load c.σ PodMint sourceInfo.key) = some s := toOption_eq_some.mpr hs
    simp only [processCloseAccount, checkClose, hnone, hsome, checkCloseMint, bind_eq_ok,
      exists_unit, failIf_eq_ok, bne_eq_false_iff_eq, PodState.getExtension_eq_ok] at hclose
    obtain ⟨_, ⟨x, hget, _, _, _, hsupply⟩, _⟩ := hclose
    exact ⟨by rw [hget]; rfl, hsupply⟩

/-- Nobody holds anything of the mint, in the open or hidden, and the mint has withheld nothing. -/
structure Book.Spent (R : Reading l rt) (f : PodElGamalPubkey) (M : Pubkey) (m : View PodMint)
    (β : Book) : Prop where
  openly : ∀ k v, β.Account k v → v.base.mint = M → v.base.amount = 0 ∧ v.withheld = 0
  secretly : ∀ k v e, β.Account k v → v.base.mint = M → v.core.secret = some e →
    R.pending e = 0 ∧ R.available e = 0
  fees : ∀ k v, β.Account k v → v.base.mint = M → R.fees f v.core.fees = 0
  withheld : m.mintWithheld = 0 ∧ m.hiddenWithheld R = 0

theorem Core.holding_eq_zero_iff (a : Core) :
    a.holding R f = 0 ↔ a.base.amount = 0 ∧ a.withheld = 0 ∧
      (∀ e, a.secret = some e → R.pending e = 0 ∧ R.available e = 0) ∧ R.fees f a.fees = 0 := by
  constructor
  · intro h
    have hamount : a.base.amount.toNat = 0 := congrArg Holding.amount h
    refine ⟨UInt64.toNat_inj.mp hamount, (congrArg Holding.withheld h :), fun e he => ?_,
      (congrArg (fun x : Holding (ZMod l) => x.secret.withheld) h :)⟩
    rw [← Core.pending_holding f he, ← Core.available_holding f he, h]
    exact ⟨rfl, rfl⟩
  · rintro ⟨hamount, hwithheld, hsecret, hfees⟩
    have hhidden : (a.holding R f).secret.pending = 0 ∧ (a.holding R f).secret.available = 0 := by
      cases he : a.secret with
      | none => simp [Core.holding, Core.secrets, he]
      | some e =>
        rw [Core.pending_holding f he, Core.available_holding f he]
        exact hsecret e he
    exact Holding.ext (by rw [Core.amount_holding, hamount]; rfl) hwithheld
      (Secrets.ext hhidden.1 hhidden.2 hfees)

theorem Book.spent_iff [NeZero l] (hwhole : (β.register R f M).Whole) (held : β.Mint M m)
    (hkey : m.mintCore.FeeKey f) (hsupply : m.base.supply = 0) :
    β.Spent R f M m ↔ m.mintCore.outstanding R = 0 := by
  have hissue := issue_register (R := R) (f := f) held
  have hzero : (m.mintCore.issue R f).supply = 0 := by
    show m.base.supply.toNat = 0
    rw [hsupply]
    rfl
  have hwithheld := View.withheld_issue (R := R) hkey
  rw [MintCore.outstanding_eq_zero_iff (f := f)]
  constructor
  · intro h
    have hsum := hwhole.sum_eq hissue
    -- every summand is zero
    have hnone : ∀ k, ((β.register R f M).holding k).map Holding.whole = none ∨
        ((β.register R f M).holding k).map Holding.whole = some 0 := by
      intro k
      cases hk : (β.register R f M).holding k with
      | none => exact .inl rfl
      | some x =>
        obtain ⟨v, hv, hM, rfl⟩ := holding_register_eq_some hk
        obtain ⟨hamount, hfees⟩ := h.openly k v hv hM
        rw [(Core.holding_eq_zero_iff v.core).mpr ⟨hamount, hfees,
          fun e he => h.secretly k v e hv hM he, h.fees k v hv hM⟩]
        simp [Holding.whole]
    have hall : ∑ k, (((β.register R f M).holding k).map Holding.whole).getD 0 = 0 :=
      Finset.sum_eq_zero fun k _ => by rcases hnone k with hk | hk <;> rw [hk] <;> rfl
    obtain ⟨hw, hh⟩ := h.withheld
    have hw' : (m.mintCore.issue R f).withheld = 0 := hw
    rw [hall, Issue.whole, hzero, hw', hwithheld, hh, ZMod.val_zero] at hsum
    exact ZMod.val_injective l (by omega)
  · intro hsecret
    have hspent : ∀ k v, β.Account k v → v.base.mint = M → v.core.holding R f = 0 :=
      fun k v hv hM => hwhole.holding_eq_zero hissue hzero hsecret (holding_register hv hM)
    have hle := hwhole.issue_le hissue
    rw [hzero, hsecret, hwithheld] at hle
    refine ⟨fun k v hv hM => ?_, fun k v e hv hM he => ?_, fun k v hv hM => ?_, ?_, ?_⟩
    · have hcore := (Core.holding_eq_zero_iff v.core).mp (hspent k v hv hM)
      exact ⟨hcore.1, hcore.2.1⟩
    · exact ((Core.holding_eq_zero_iff v.core).mp (hspent k v hv hM)).2.2.1 e he
    · exact ((Core.holding_eq_zero_iff v.core).mp (hspent k v hv hM)).2.2.2
    · show (m.mintCore.issue R f).withheld = 0
      omega
    · exact (ZMod.val_eq_zero _).mp (by omega)

end Closing

/-! ## Two closes -/

section Closable

theorem Reading.HonestStep.settles {l : ℕ} {rt : Runtime} {R : Reading l rt}
    {f : PodElGamalPubkey} {M : Pubkey}
    {p : List ProofInstruction × List AccountInfo × Instruction} {σ : Ledger}
    (h : R.HonestStep p) (hσ : σ.Unproved)
    (hfees : ∀ m, Call.Initializes ⟨.showing p.1, p.2.1, p.2.2, σ⟩ M m → m.mintCore.FeeKey f) :
    Call.Settles R f M ⟨.showing p.1, p.2.1, p.2.2, σ⟩ :=
  ⟨Reading.sound_of_honest h.2 hσ, hfees, fun hc => absurd hc.2 h.1⟩

/-- The mint whose extensions are in place at `k` has none for hidden fees. -/
def Ledger.feeless (σ : Ledger) (k : Pubkey) : Bool :=
  (toOption (unpackUninitialized PodMint (σ k).data)).any fun s =>
    decide (s.view.mintCore.secretFees = none)

theorem Call.Initializes.feeKey {c : Call} {M : Pubkey} {m : View PodMint}
    (h : c.Initializes M m) (hfree : c.σ.feeless M = true) (f : PodElGamalPubkey) :
    m.mintCore.FeeKey f := by
  obtain ⟨_, ⟨s, hs, hext⟩, _⟩ := h
  rw [Ledger.feeless, toOption_eq_some.mpr hs, Option.any_some, decide_eq_true_iff] at hfree
  refine MintCore.feeKey_of_none ?_ f
  rw [← hfree]
  simp only [View.mintCore, View.get, hext]

/-- Once the mint is there, no instruction of the script initialises one. -/
theorem closable_settled {rest : List (List ProofInstruction × List AccountInfo × Instruction)}
    {p : Ledger → Bool} (honest : ∀ p ∈ rest, openReading.HonestStep p ∧
      ∀ σ m, ¬ Call.Initializes ⟨.showing p.1, p.2.1, p.2.2, σ⟩ 1 m)
    (h : (honestScript (.modular ristrettoOrder) (closableSteps ++ closableMint :: rest)
      (blank [(1, 471), (2, 465)])).any p = true) :
    ∃ σ, Reachable (.modular ristrettoOrder) (Call.Settles openReading 0 1) σ ∧ p σ = true := by
  obtain ⟨σ, hσ, hp⟩ := (Option.any_eq_true _ _).mp h
  have hfree : (honestScript (.modular ristrettoOrder) closableSteps
      (blank [(1, 471), (2, 465)])).any (Ledger.feeless · 1) = true := by
    decide +kernel
  rw [honestScript_append, Option.bind_eq_some_iff] at hσ
  obtain ⟨σ₁, hσ₁, hrest⟩ := hσ
  rw [hσ₁, Option.any_some] at hfree
  have hbefore : ∀ p ∈ closableSteps, ∀ σ : Ledger, σ.Unproved →
      Call.Settles openReading 0 1 ⟨.showing p.1, p.2.1, p.2.2, σ⟩ := fun p hp σ hσ => by
    refine (honest_closableSteps p hp).settles hσ fun m hm => ?_
    simp only [closableSteps, List.mem_cons, List.not_mem_nil, or_false] at hp
    rcases hp with rfl | rfl | rfl
    · exact hm.2.2.elim
    · exact hm.2.2.elim
    · exact hm.2.2.elim
  have hafter : ∀ p ∈ rest, ∀ σ : Ledger, σ.Unproved →
      Call.Settles openReading 0 1 ⟨.showing p.1, p.2.1, p.2.2, σ⟩ := fun p hp σ hσ =>
    (honest p hp).1.settles hσ fun m hm => absurd hm ((honest p hp).2 σ m)
  have hreach := Reachable.honest (by decide) hbefore (Option.isSome_iff_exists.mpr ⟨σ₁, hσ₁⟩)
  rw [honestLedger, hσ₁, Option.getD_some] at hreach
  rw [honestScript, Option.bind_eq_some_iff] at hrest
  obtain ⟨σ₂, hrun, hrest⟩ := hrest
  have hstep : Step (.modular ristrettoOrder) (Call.Settles openReading 0 1) σ₁ σ₂ :=
    .call (c := ⟨.showing [], [⟨1, false⟩], .initializeMint2 6 5 none, σ₁⟩)
      (honest_closableMint.settles hreach.2 fun m hm => hm.feeKey hfree 0)
      (toOption_eq_some.mp hrun)
  have hclear : Step (.modular ristrettoOrder) (Call.Settles openReading 0 1) σ₂ σ₂.cleared :=
    .outside σ₂.cleared_envStep
  obtain ⟨hrun', _⟩ := Run.of_honestScript σ₂.unproved_cleared hafter
    (Option.isSome_iff_exists.mpr ⟨σ, hrest⟩)
  rw [honestLedger, hrest] at hrun'
  exact ⟨σ, hreach.1.run (.head hstep (.head hclear hrun')), hp⟩

def closeMintCall (σ : Ledger) : Call :=
  ⟨.showing [], [⟨1, false⟩, ⟨8, false⟩, ⟨9, true⟩], .closeAccount, σ⟩

theorem closeMintCall_closes (σ : Ledger) : (closeMintCall σ).Closes 1 := ⟨rfl, rfl⟩

theorem honest_configure : ∀ p ∈ configureSteps, openReading.HonestStep p ∧
    ∀ σ m, ¬ Call.Initializes ⟨.showing p.1, p.2.1, p.2.2, σ⟩ 1 m := by
  intro p hp
  refine ⟨honest_configureSteps p hp, fun σ m hm => ?_⟩
  simp only [configureSteps, List.mem_cons, List.not_mem_nil, or_false] at hp
  rcases hp with rfl | rfl
  · exact hm.2.2
  · exact hm.2.2

theorem honest_secretMinted : ∀ p ∈ configureSteps ++ [secretMint], openReading.HonestStep p ∧
    ∀ σ m, ¬ Call.Initializes ⟨.showing p.1, p.2.1, p.2.2, σ⟩ 1 m := by
  intro p hp
  rw [List.mem_append, List.mem_singleton] at hp
  rcases hp with hp | rfl
  · exact honest_configure p hp
  · exact ⟨honest_secretMint, fun σ m hm => hm.2.2⟩

theorem closable_runs : (honestScript (.modular ristrettoOrder)
    (closableSteps ++ closableMint :: configureSteps) (blank [(1, 471), (2, 465)])).any
      (fun σ => σ.checksMint 1 (fun m => decide (m.mintCore.outstanding openReading = 0)) &&
        (toOption ((closeMintCall σ).run (.modular ristrettoOrder))).isSome) = true := by
  decide +kernel

theorem outstanding_runs : (honestScript (.modular ristrettoOrder)
    (closableSteps ++ closableMint :: (configureSteps ++ [secretMint]))
    (blank [(1, 471), (2, 465)])).any
      (fun σ => σ.checksMint 1 (fun m => (m.get ConfidentialTransferMint).isSome) &&
        σ.checksAccount 2 (fun v => v.core.secret.any fun e =>
          decide (v.base.mint = 1 ∧ (openReading.pending e).val = 300)) &&
        (toOption ((closeMintCall σ).run (.modular ristrettoOrder))).isSome) = true := by
  decide +kernel

end Closable

/-- A mint is closed with nothing left of it exactly when nothing is outstanding in secret. -/
theorem closed_mint_spent {l : ℕ} [NeZero l] {rt : Runtime} {R : Reading l rt}
    {f : PodElGamalPubkey} {M : Pubkey} {c : Call} {σ' : Ledger} {m : View PodMint}
    (hl : 2 ^ 65 - 1 ≤ l) (h : Reachable rt (Call.Settles R f M) c.σ) (held : c.σ.book.Mint M m)
    (hcloses : c.Closes M) (hrun : c.run rt = .ok σ') :
    c.σ.book.Spent R f M m ↔ m.mintCore.outstanding R = 0 := by
  obtain ⟨hclosable, hsupply⟩ := closeMint_ok hcloses held hrun
  have hne : M ≠ Keys.nativeMint := by
    rintro rfl
    have hbare := h.nativeBare.bare m held
    rw [View.get_eq_none_of_ext (hbare.2 _)] at hclosable
    cases hclosable
  have hs := h.settled hl hne
  exact Book.spent_iff hs.whole held (hs.feeKey m held) hsupply

/-- A mint of which nothing was issued is closed. -/
theorem closed_mint_spent_unissued : ∃ (σ σ' : Ledger) (m : View PodMint),
    σ.book.Mint 1 m ∧ (closeMintCall σ).run (.modular ristrettoOrder) = .ok σ' ∧
      σ.book.Spent openReading 0 1 m := by
  obtain ⟨σ, hreach, hchecks⟩ := closable_settled honest_configure closable_runs
  rw [Bool.and_eq_true] at hchecks
  obtain ⟨hmint, hrun⟩ := hchecks
  obtain ⟨m, held, hm⟩ := exists_of_checksMint hmint
  obtain ⟨σ', hσ'⟩ := Option.isSome_iff_exists.mp hrun
  have hok := toOption_eq_some.mp hσ'
  exact ⟨σ, σ', m, held, hok, (closed_mint_spent (c := closeMintCall σ) le_ristrettoOrder hreach
    held (closeMintCall_closes σ) hok).mpr (of_decide_eq_true hm)⟩

/-- A mint is closed, and an account of it still holds 300. -/
theorem closed_mint_outstanding : ∃ (σ σ' : Ledger) (m : View PodMint) (v : View PodAccount)
      (e : ConfidentialTransferAccount),
    Reachable (.modular ristrettoOrder) (Call.Settles openReading 0 1) σ ∧
    σ.book.Mint 1 m ∧ (m.get ConfidentialTransferMint).isSome = true ∧
    σ.book.Account 2 v ∧ v.base.mint = 1 ∧ v.core.secret = some e ∧
    (openReading.pending e).val = 300 ∧
    (closeMintCall σ).run (.modular ristrettoOrder) = .ok σ' := by
  obtain ⟨σ, hreach, hchecks⟩ := closable_settled honest_secretMinted outstanding_runs
  rw [Bool.and_eq_true, Bool.and_eq_true] at hchecks
  obtain ⟨⟨hmint, haccount⟩, hrun⟩ := hchecks
  obtain ⟨m, held, hsome⟩ := exists_of_checksMint hmint
  obtain ⟨v, hv, he⟩ := exists_of_checksAccount haccount
  obtain ⟨e, secret, hboth⟩ := (Option.any_eq_true _ _).mp he
  obtain ⟨hM, hpending⟩ := of_decide_eq_true hboth
  obtain ⟨σ', hσ'⟩ := Option.isSome_iff_exists.mp hrun
  exact ⟨σ, σ', m, v, e, hreach, held, hsome, hv, hM, secret, hpending, toOption_eq_some.mp hσ'⟩

end SolanaEasy.Token
