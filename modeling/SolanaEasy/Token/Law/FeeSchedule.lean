import SolanaEasy.Lib.Schedule
import SolanaEasy.Token.Run

/-!
# Fee schedule — which transfer fee is in force

The two fees a mint stores, as the two slots of a schedule with a delay of two epochs.
A history lists the calls of `SetTransferFee` since the mint was initialised, whatever
else happened in between, and decides the fee of every later epoch.
-/

namespace SolanaEasy.Token

open Processor

/-- The parameters of a fee: the maximum and the basis points. -/
abbrev FeeParameters := UInt64 × UInt16

namespace TransferFee

def parameters (f : TransferFee) : FeeParameters := (f.maximumFee, f.transferFeeBasisPoints)

/-- `transfer_fee_basis_points` is at most `MAX_FEE_BASIS_POINTS`. -/
def Valid (f : TransferFee) : Prop := f.transferFeeBasisPoints.toNat ≤ maxFeeBasisPoints

end TransferFee

/-! ## Slots -/

/-- The older and the newer fee as slots. -/
def feeSlots (p : TransferFee × TransferFee) : Slots FeeParameters :=
  ⟨⟨p.1.epoch.toNat, p.1.parameters⟩, ⟨p.2.epoch.toNat, p.2.parameters⟩⟩

/-- What `SetTransferFee` writes. -/
def feesSet (epoch : UInt64) (max : UInt64) (bps : UInt16) (p : TransferFee × TransferFee) :
    TransferFee × TransferFee :=
  (if p.2.epoch ≤ epoch then p.2 else p.1, ⟨Processor.TransferFee.twoEpochsAhead epoch, max, bps⟩)

theorem inForce_feeSlots (e : TransferFeeConfig) (epoch : UInt64) :
    (feeSlots (e.olderTransferFee, e.newerTransferFee)).inForce epoch.toNat =
      (e.getEpochFee epoch).parameters := by
  rw [Slots.inForce, TransferFeeConfig.getEpochFee]
  by_cases h : e.newerTransferFee.epoch ≤ epoch
  · rw [if_pos h]
    exact if_pos (UInt64.le_iff_toNat_le.mp h)
  · rw [if_neg h]
    exact if_neg fun h' => h (UInt64.le_iff_toNat_le.mpr h')

theorem toNat_twoEpochsAhead {epoch : UInt64} (h : epoch.toNat < 2 ^ 64 - 2) :
    (Processor.TransferFee.twoEpochsAhead epoch).toNat = epoch.toNat + 2 := by
  have hsome : checkedAdd epoch 2 = some (epoch + 2) := by
    apply checkedAdd_eq_some.mpr
    rw [UInt64.toNat_add]
    have htwo : (2 : UInt64).toNat = 2 := rfl
    omega
  rw [Processor.TransferFee.twoEpochsAhead, hsome]
  exact checkedAdd_eq_some.mp hsome

theorem feeSlots_set {epoch max : UInt64} {bps : UInt16} {p : TransferFee × TransferFee}
    (h : epoch.toNat < 2 ^ 64 - 2) :
    feeSlots (feesSet epoch max bps p) = (feeSlots p).change 2 epoch.toNat (max, bps) := by
  have hnew : (Processor.TransferFee.twoEpochsAhead epoch).toNat = epoch.toNat + 2 :=
    toNat_twoEpochsAhead h
  rw [feesSet, Slots.change, feeSlots, feeSlots, hnew]
  by_cases hle : p.2.epoch ≤ epoch
  · have hle' : p.2.epoch.toNat ≤ epoch.toNat := UInt64.le_iff_toNat_le.mp hle
    simp only [hle, hle', if_true]
    rfl
  · have hle' : ¬ p.2.epoch.toNat ≤ epoch.toNat := fun h => hle (UInt64.le_iff_toNat_le.mpr h)
    simp only [hle, hle', if_false]
    rfl

/-! ## One instruction -/

/-- The instruction sets the fee of the mint at `M`. -/
def Call.SetsFee (c : Call) (M : Pubkey) : Prop :=
  c.key? 0 = some M ∧ ∃ bps max, c.instruction = .setTransferFee bps max

section Instruction

variable {rt : Runtime} {c : Call} {σ σ' : Ledger} {β β' : Book} {M : Pubkey}

theorem MintEffect.fees_eq {m m' : View PodMint} (h : MintEffect rt c M m m')
    (hc : ¬ c.SetsFee M) : m'.mintCore.fees = m.mintCore.fees := by
  cases h with
  | setFee head sets => exact absurd ⟨head, _, _, sets⟩ hc
  | quiet core | rewrite _ core | withheld core | secretFees _ core | pause _ _ core
  | rotate _ _ _ core | restate _ core | applyBurn _ _ core =>
    exact (congrArg MintCore.fees core :)

theorem MintExchange.fees_eq {m m' : View PodMint} (h : MintExchange rt c m m') :
    m'.mintCore.fees = m.mintCore.fees := by
  cases h <;> rename_i core <;> exact (congrArg MintCore.fees core :)

/-- Nothing else changes the fees. -/
theorem respects_fees (hc : ¬ c.SetsFee M) :
    MintRespects rt c M fun m m' => m'.mintCore.fees = m.mintCore.fees where
  refl _ := rfl
  trans h h' := h'.trans h
  effect h _ := h.fees_eq hc
  exchange h _ := h.fees_eq

/-- Fees without a past. -/
def FreshFees (m : View PodMint) : Prop :=
  ∀ o n, m.mintCore.fees = some (o, n) → o = n ∧ n.Valid

/-- A mint that an instruction opens. -/
theorem Course.freshFees (h : Course rt c β β') (new : ∀ m, ¬ β.Mint M m) {m : View PodMint}
    (held : β'.Mint M m) : FreshFees m := by
  cases h with
  | moves other h =>
    suffices hopen : ∀ m, β'.Mint M m → ¬ c.SetsFee M ∧ FreshFees m from (hopen m held).2
    clear held m
    induction h with
    | refl => exact fun m held => absurd held (new m)
    | @tail β₁ β₂ _ hmove ih =>
      intro m held
      have hchange := hmove.change M
      rw [show _ = Contents.mint m from held] at hchange
      generalize hx : (β₁ M).contents = x at hchange
      cases hchange with
      | same => exact ih m hx
      | mint h keeps =>
        obtain ⟨hsets, hfresh⟩ := ih _ hx
        refine ⟨hsets, fun o n hfees => hfresh o n ?_⟩
        rw [← h.fees_eq hsets]
        exact hfees
      | openMint opens _ fees _ =>
        refine ⟨?_, fees⟩
        rintro ⟨_, bps, max, hi⟩
        have hmint := opens.2.2
        rw [hi] at hmint
        exact hmint
      | openNativeMint opens _ bare =>
        refine ⟨?_, fun o n hfees => ?_⟩
        · rintro ⟨_, bps, max, hi⟩
          rw [hi] at opens
          cases opens
        · rw [View.mintCore, View.get_eq_none_of_ext (bare.2 _)] at hfees
          cases hfees
  | trade trades h rest =>
    -- a trade makes no mint
    have hlowered := rest.lowered M
    have hdeal := h.deal M
    rw [show _ = Contents.mint m from held] at hlowered
    rw [hlowered.to_mint] at hdeal
    obtain ⟨m₀, hm₀, _⟩ := hdeal.to_mint
    exact absurd hm₀ (new m₀)

/-- What the handler of `SetTransferFee` leaves, exactly. -/
theorem setTransferFee_book {bps : UInt16} {max : UInt64} {m : View PodMint} (hwf : c.σ.Wf)
    (hsets : c.instruction = .setTransferFee bps max) (head : c.key? 0 = some M)
    (held : c.σ.book.Mint M m) (h : c.run rt = .ok σ') :
    ∃ m' p, σ'.book.Mint M m' ∧ m.mintCore.fees = some p ∧
      m'.mintCore.fees = some (feesSet c.ctx.epoch max bps p) ∧
      bps.toNat ≤ TransferFee.maxFeeBasisPoints := by
  rw [Call.run, hsets] at h
  cases haccounts : c.accounts with
  | nil =>
    rw [Call.key?, haccounts] at head
    cases head
  | cons info rest =>
    rw [Call.key?, haccounts] at head
    obtain rfl : info.key = M := Option.some.inj head
    obtain ⟨e, e', hget, hupdate, hbook⟩ := updateMintExtension_book
      (by decide) hwf haccounts held h
    simp only [bind_eq_ok, exists_unit, pure_eq_ok] at hupdate
    obtain ⟨hvalid, he⟩ := hupdate
    refine ⟨m.set e', (e.olderTransferFee, e.newerTransferFee), ?_,
      (View.mintCore_withheld_of_get hget).2, ?_,
      Processor.TransferFee.checkBasisPoints_ok hvalid⟩
    · rw [hbook]
      exact Book.mint_put ..
    · rw [View.mintCore_set_feeConfig, ← he]
      rfl

end Instruction

/-! ## Histories -/

/-- The mint at `M` was initialised with the fee `f`, and `changes` lists the fees that were
set since. -/
inductive FeeHistory (rt : Runtime) (M : Pubkey) (f : TransferFee) :
    List (Timed FeeParameters) → Ledger → Prop
  | initialised {σ σ' m n} (reach : Reachable rt (fun _ => True) σ)
      (new : ∀ m, ¬ σ.book.Mint M m) (step : Step rt (fun _ => True) σ σ')
      (held : σ'.book.Mint M m) (fees : m.mintCore.fees = some (f, n)) : FeeHistory rt M f [] σ'
  | set {c : Call} {σ' changes bps max} (before : FeeHistory rt M f changes c.σ)
      (head : c.key? 0 = some M) (sets : c.instruction = .setTransferFee bps max)
      (run : c.run rt = .ok σ') :
      FeeHistory rt M f (changes ++ [⟨c.ctx.epoch.toNat, (max, bps)⟩]) σ'
  | other {σ σ' changes} (before : FeeHistory rt M f changes σ)
      (step : Step rt (fun c => ¬ c.SetsFee M ∧ ¬ c.Closes M) σ σ') : FeeHistory rt M f changes σ'

/-- Epochs do not run backwards, nor to their end. -/
structure Orderly (changes : List (Timed FeeParameters)) : Prop where
  sorted : changes.Pairwise fun c d => c.time ≤ d.time
  bounded : ∀ c ∈ changes, c.time < 2 ^ 64 - 2

/-- What a history knows of the mint. -/
structure FeeState (rt : Runtime) (M : Pubkey) (f : TransferFee)
    (changes : List (Timed FeeParameters)) (σ : Ledger) (m : View PodMint)
    (e : TransferFeeConfig) : Prop where
  reach : Reachable rt (fun _ => True) σ
  held : σ.book.Mint M m
  config : m.get TransferFeeConfig = some e
  valid : e.olderTransferFee.Valid ∧ e.newerTransferFee.Valid
  follows : Orderly changes →
    (feeSlots (e.olderTransferFee, e.newerTransferFee)).Follows 2 f.parameters changes

theorem config_of_fees {m : View PodMint} {o n : TransferFee}
    (h : m.mintCore.fees = some (o, n)) :
    ∃ e, m.get TransferFeeConfig = some e ∧ e.olderTransferFee = o ∧ e.newerTransferFee = n := by
  obtain ⟨e, he, hpair⟩ := Option.map_eq_some_iff.mp h
  exact ⟨e, he, congrArg Prod.fst hpair, congrArg Prod.snd hpair⟩

theorem Orderly.of_snoc {changes : List (Timed FeeParameters)} {c : Timed FeeParameters}
    (h : Orderly (changes ++ [c])) :
    Orderly changes ∧ (∀ d ∈ changes, d.time ≤ c.time) ∧ c.time < 2 ^ 64 - 2 := by
  obtain ⟨hbefore, _, hlast⟩ := List.pairwise_append.mp h.sorted
  refine ⟨⟨hbefore, fun d hd => h.bounded d (List.mem_append_left _ hd)⟩,
    fun d hd => hlast d hd c (by simp), h.bounded c (by simp)⟩

/-- The invariant of histories. -/
theorem FeeHistory.state {rt : Runtime} {M : Pubkey} {f : TransferFee}
    {changes : List (Timed FeeParameters)} {σ : Ledger} (h : FeeHistory rt M f changes σ) :
    ∃ m e, FeeState rt M f changes σ m e := by
  induction h with
  | @initialised σ σ' m n reach new step held fees =>
    have hfresh : FreshFees m := by
      cases step with
      | call _ run => exact (run_course reach.wf run).2.freshFees new held
      | outside henv =>
        have hat := henv.book.lowered M
        rw [show _ = Contents.mint m from held] at hat
        exact absurd hat.to_mint (new m)
    obtain ⟨hsame, hvalid⟩ := hfresh _ _ fees
    obtain ⟨e, he, ho, hn⟩ := config_of_fees fees
    refine ⟨m, e, reach.run (.single step), held, he, ?_, fun _ => ?_⟩
    · rw [ho, hn, hsame]
      exact ⟨hvalid, hvalid⟩
    · rw [ho, hn, ← hsame]
      exact follows_nil
  | @set c σ' changes bps max before head sets run ih =>
    obtain ⟨m, e, hstate⟩ := ih
    obtain ⟨m', p, held', hp, hset, hvalid⟩ :=
      setTransferFee_book hstate.reach.wf sets head hstate.held run
    obtain ⟨_, hfees⟩ := View.mintCore_withheld_of_get hstate.config
    obtain rfl := Option.some.inj (hp.symm.trans hfees)
    obtain ⟨e', he', ho, hn⟩ := config_of_fees hset
    refine ⟨m', e', hstate.reach.run (.single (.call trivial run)), held', he', ?_,
        fun horder => ?_⟩
    · rw [ho, hn]
      refine ⟨?_, hvalid⟩
      show TransferFee.Valid (if _ then _ else _)
      split
      · exact hstate.valid.2
      · exact hstate.valid.1
    · obtain ⟨hbefore, hsorted, hbound⟩ := horder.of_snoc
      have hslots : feeSlots (e'.olderTransferFee, e'.newerTransferFee) =
          (feeSlots (e.olderTransferFee, e.newerTransferFee)).change 2 c.ctx.epoch.toNat
            (max, bps) := by
        rw [ho, hn]
        exact feeSlots_set hbound
      rw [hslots]
      exact (hstate.follows hbefore).change (c := ⟨c.ctx.epoch.toNat, (max, bps)⟩) hsorted
  | @other σ σ' changes before step ih =>
    obtain ⟨m, e, hstate⟩ := ih
    obtain ⟨m', held', hfees⟩ := Run.mint (P := fun m m' => m'.mintCore.fees = m.mintCore.fees)
      (fun c hc => respects_fees hc.1) (fun c m hc _ => hc.2) hstate.reach.wf hstate.held rfl
      (fun h h' => h'.trans h) (.single step)
    rw [(View.mintCore_withheld_of_get hstate.config).2] at hfees
    obtain ⟨e', he', ho, hn⟩ := config_of_fees hfees
    refine ⟨m', e', hstate.reach.run (Run.mono (.single step) fun _ _ => trivial), held',
        he', ?_, ?_⟩
    · rw [ho, hn]
      exact hstate.valid
    · rw [ho, hn]
      exact hstate.follows

/-- The fee of any epoch from the last call on is the one its history decides, what is
asked for is stored two epochs before, a call leaves the fee of its own epoch alone, and
every stored fee is at most the whole amount. -/
theorem fee_schedule {rt : Runtime} {M : Pubkey} {f : TransferFee}
    {changes : List (Timed FeeParameters)} {σ : Ledger} (h : FeeHistory rt M f changes σ)
    (horder : Orderly changes) :
    ∃ m e, σ.book.Mint M m ∧ m.get TransferFeeConfig = some e ∧
      e.olderTransferFee.Valid ∧ e.newerTransferFee.Valid ∧
      (∀ epoch : UInt64, (∀ c ∈ changes, c.time ≤ epoch.toNat) →
        Governs 2 f.parameters changes epoch.toNat (e.getEpochFee epoch).parameters ∧
        ((e.getEpochFee epoch).parameters = f.parameters ∨ ∃ c ∈ changes,
          c.time + 2 ≤ epoch.toNat ∧ (e.getEpochFee epoch).parameters = c.value)) ∧
      ∀ ctx accounts bps max σ', accounts.head?.map AccountInfo.key = some M →
        ctx.epoch.toNat < 2 ^ 64 - 2 →
        process rt ctx accounts (.setTransferFee bps max) σ = .ok σ' →
        ∃ m' e', σ'.book.Mint M m' ∧ m'.get TransferFeeConfig = some e' ∧
          e'.getEpochFee ctx.epoch = e.getEpochFee ctx.epoch := by
  obtain ⟨m, e, hstate⟩ := h.state
  refine ⟨m, e, hstate.held, hstate.config, hstate.valid.1, hstate.valid.2, fun epoch hafter => ?_,
    fun ctx accounts bps max σ' hhead hbound hrun => ?_⟩
  · have hgoverns := hstate.follows horder epoch.toNat hafter
    rw [inForce_feeSlots] at hgoverns
    exact ⟨hgoverns, hgoverns.early⟩
  · let c : Call := ⟨ctx, accounts, .setTransferFee bps max, σ⟩
    have head : c.key? 0 = some M := by
      rw [Call.key?, ← hhead, ← List.head?_eq_getElem?]
    obtain ⟨m', p, held', hp, hset, _⟩ :=
      setTransferFee_book (c := c) hstate.reach.wf rfl head hstate.held hrun
    obtain rfl := Option.some.inj (hp.symm.trans (View.mintCore_withheld_of_get hstate.config).2)
    obtain ⟨e', he', ho, hn⟩ := config_of_fees hset
    refine ⟨m', e', held', he', ?_⟩
    -- the new fee is for later, so the older one decides
    have hnot : ¬ (Processor.TransferFee.twoEpochsAhead ctx.epoch) ≤ ctx.epoch := by
      intro hle
      have hle' := UInt64.le_iff_toNat_le.mp hle
      rw [toNat_twoEpochsAhead hbound] at hle'
      omega
    rw [TransferFeeConfig.getEpochFee, ho, hn, TransferFeeConfig.getEpochFee]
    exact if_neg hnot

/-! A mint with a fee that is set at the epochs 4 and 5. -/

theorem FeeHistory.set_scripted {rt : Runtime} {M : Pubkey} {f : TransferFee} {σ : Ledger}
    {changes : List (Timed FeeParameters)} (h : FeeHistory rt M f changes σ) (ctx : Context)
    (accounts : List AccountInfo) (bps : UInt16) (max : UInt64)
    (hhead : (accounts[0]?).map AccountInfo.key = some M)
    (hrun : (toOption (process rt ctx accounts (.setTransferFee bps max) σ)).isSome = true) :
    FeeHistory rt M f (changes ++ [⟨ctx.epoch.toNat, (max, bps)⟩])
      (scripted rt [(ctx, accounts, .setTransferFee bps max)] σ) :=
  h.set (c := ⟨ctx, accounts, .setTransferFee bps max, σ⟩) hhead rfl (process_scripted hrun)

def feeBlank : Ledger :=
  scripted (.modular 2)
    [(.plain, [⟨1, false⟩], .initializeTransferFeeConfig (some 5) none 100 50)] (blank [(1, 278)])

def feeMint : Ledger :=
  scripted (.modular 2) [(.plain, [⟨1, false⟩], .initializeMint2 6 5 none)] feeBlank

def feeFour : Ledger :=
  scripted (.modular 2)
    [({ Context.plain with epoch := 4 }, [⟨1, false⟩, ⟨5, true⟩], .setTransferFee 200 60)] feeMint

def feeFive : Ledger :=
  scripted (.modular 2)
    [({ Context.plain with epoch := 5 }, [⟨1, false⟩, ⟨5, true⟩], .setTransferFee 300 70)] feeFour

/-- The second call comes before the first has matured. -/
theorem fee_schedule_scripted :
    ∃ m e, feeFive.book.Mint 1 m ∧ m.get TransferFeeConfig = some e ∧
      Governs 2 (50, 100) [⟨4, (60, 200)⟩, ⟨5, (70, 300)⟩] 6 (e.getEpochFee 6).parameters := by
  have hreach : Reachable (.modular 2) (fun _ => True) feeBlank :=
    .scripted (by decide) (fun _ _ _ => trivial) (by decide +kernel)
  obtain ⟨m, hm, hp⟩ := exists_mint feeMint 1
    (fun m => decide (m.mintCore.fees = some (⟨0, 50, 100⟩, ⟨0, 50, 100⟩))) (by decide +kernel)
    (by decide +kernel)
  have hinitial : FeeHistory (.modular 2) 1 ⟨0, 50, 100⟩ [] feeMint :=
    .initialised hreach (not_mint_of_unpack (by decide +kernel))
      (.scripted trivial (by decide +kernel)) hm (of_decide_eq_true hp)
  have hfour : FeeHistory (.modular 2) 1 ⟨0, 50, 100⟩ [⟨4, (60, 200)⟩] feeFour :=
    hinitial.set_scripted { Context.plain with epoch := 4 } [⟨1, false⟩, ⟨5, true⟩] 200 60 rfl
      (by decide +kernel)
  have hfive : FeeHistory (.modular 2) 1 ⟨0, 50, 100⟩ [⟨4, (60, 200)⟩, ⟨5, (70, 300)⟩] feeFive :=
    hfour.set_scripted { Context.plain with epoch := 5 } [⟨1, false⟩, ⟨5, true⟩] 300 70 rfl
      (by decide +kernel)
  have horder : Orderly [⟨4, (60, 200)⟩, ⟨5, (70, 300)⟩] := ⟨by decide, by decide⟩
  obtain ⟨m, e, held, hget, _, _, hfees, _⟩ := fee_schedule hfive horder
  exact ⟨m, e, held, hget, (hfees 6 (by decide)).1⟩

end SolanaEasy.Token
