import SolanaEasy.Token.Run

/-!
# Transfers — three instructions, one transfer

`Transfer`, `TransferChecked` and `TransferCheckedWithFee` run one function, which reads
the mint only if it is passed. Where it is not, the markers on the source stand in for
it; the one thing they do not tell is who the permanent delegate is.
-/

namespace SolanaEasy.Token

open Processor

/-- The instruction behind a variant. -/
def Processor.TransferInstruction.instruction (amount : UInt64) :
    TransferInstruction → Instruction
  | .unchecked => .transfer amount
  | .checked decimals => .transferChecked amount decimals
  | .checkedWithFee decimals fee => .transferCheckedWithFee amount decimals fee

/-- The accounts of a variant: the mint is passed if its decimals are. -/
def Processor.TransferInstruction.infos (t : TransferInstruction)
    (source mint destination authority : AccountInfo) (signers : List AccountInfo) :
    List AccountInfo :=
  source :: ((t.decimals?.map fun _ => mint).toList ++ destination :: authority :: signers)

section Agree

variable {ctx : Context} {σ σ₁ σ₂ : Ledger} {source mint destination authority : AccountInfo}
  {signers : List AccountInfo} {x : UInt64} {t t' : TransferInstruction}

theorem process_transfer (rt : Runtime) (ctx : Context) (accounts : List AccountInfo) (x : UInt64)
    (t : TransferInstruction) :
    process rt ctx accounts (t.instruction x) = processTransfer ctx accounts x t := by
  cases t with
  | unchecked => rfl
  | checked => rfl
  | checkedWithFee => rfl

theorem transferAccounts_infos (t : TransferInstruction) :
    transferAccounts (t.infos source mint destination authority signers) t =
      .ok ⟨source, t.decimals?.map (mint, ·), destination, authority, signers⟩ := by
  cases t with
  | unchecked => rfl
  | checked => rfl
  | checkedWithFee => rfl

/-- Without a permanent delegate the same authority acts, unless it is both delegates. -/
theorem transferAuthority_agree {base b b' : PodAccount} {delegate : Option Pubkey} {self : Bool}
    (hapart : self = false →
      ¬ (base.delegate.toOption = some authority.key ∧ delegate = some authority.key))
    (h : transferAuthority σ base authority signers none x self = .ok b)
    (h' : transferAuthority σ base authority signers delegate x self = .ok b') : b = b' := by
  by_cases hpermanent : delegate = some authority.key
  · simp only [transferAuthority, hpermanent, beq_self_eq_true, if_true, bind_eq_ok, exists_unit,
      pure_eq_ok] at h'
    obtain ⟨_, rfl⟩ := h'
    rw [transferAuthority, if_neg (by simp)] at h
    split at h
    · rename_i hdelegate
      cases self with
      | true =>
        simp only [bind_eq_ok, exists_unit, if_true, pure_eq_ok] at h
        exact h.2.2.symm
      | false => exact absurd ⟨beq_iff_eq.mp hdelegate, hpermanent⟩ (hapart rfl)
    · simp only [bind_eq_ok, exists_unit, pure_eq_ok] at h
      exact h.2.symm
  · rw [transferAuthority, if_neg (by simp)] at h
    rw [transferAuthority, if_neg (mt beq_iff_eq.mp hpermanent)] at h'
    exact Except.ok.inj (h.symm.trans h')

/-- A transfer that calls no hook does not look at the mint again. -/
theorem transferBetween_congr {a a' : TransferAccounts} {s : PodState PodAccount}
    {terms terms' : TransferTerms} (hsource : a.source = a'.source)
    (hdestination : a.destination = a'.destination)
    (hfee : terms.calculatedFee = terms'.calculatedFee)
    (hhook : terms.maybeTransferHookProgramId = none)
    (hhook' : terms'.maybeTransferHookProgramId = none) :
    transferBetween ctx σ a s terms x = transferBetween ctx σ a' s terms' x := by
  simp only [transferBetween, finishTransfer, hsource, hdestination, hfee, hhook, hhook']

/-- A hook is called only for accounts that carry the marker for one. -/
theorem hook_eq_none {a : TransferAccounts} {s : PodState PodAccount} {base : PodAccount}
    {terms : TransferTerms} (hmarker : s.hasExtension TransferHookAccount = false)
    (h : transferBetween ctx σ a { s with base := base } terms x = .ok σ₁) :
    terms.maybeTransferHookProgramId = none := by
  cases hhook : terms.maybeTransferHookProgramId with
  | none => rfl
  | some program =>
    rw [PodState.hasExtension_eq, Option.isSome_eq_false_iff, Option.isNone_iff_eq_none] at hmarker
    have hfinish : ∀ {τ : Ledger} {amount : UInt64} {d : PodState PodAccount},
        finishTransfer ctx τ a { s with base := { base with amount := amount } } d
          (some program) ≠ .ok σ₁ := by
      intro τ amount d hfinish
      simp only [finishTransfer, setTransferring, bind_eq_ok] at hfinish
      obtain ⟨_, _, _, ⟨e, hget, _⟩, _⟩ := hfinish
      have hsome : s.view.get TransferHookAccount = some e := PodState.getExtension_eq_ok.mp hget
      rw [hmarker] at hsome
      cases hsome
    simp only [transferBetween, hhook, bind_eq_ok] at h
    obtain ⟨_, _, _, _, _, _, _, _, _, _, h⟩ := h
    split at h
    · obtain ⟨_, _, h⟩ := bind_eq_ok.mp h
      exact absurd h hfinish
    · obtain ⟨_, _, h⟩ := bind_eq_ok.mp h
      exact absurd h hfinish

/-- What a transfer that succeeded went through. -/
structure Transferred (ctx : Context) (σ σ₁ : Ledger)
    (source mint destination authority : AccountInfo) (signers : List AccountInfo) (x : UInt64)
    (t : TransferInstruction) (s : PodState PodAccount) (terms : TransferTerms)
    (base : PodAccount) : Prop where
  owner : (σ source.key).owner = Keys.tokenProgram
  owner' : (σ destination.key).owner = Keys.tokenProgram
  loaded : load σ PodAccount source.key = .ok s
  told : transferTerms ctx σ source.key s x (t.decimals?.map (mint, ·)) = .ok terms
  by' : transferAuthority σ s.base authority signers terms.maybePermanentDelegate x
    (source.key == destination.key) = .ok base
  itself : source.key = destination.key → σ₁ = σ
  between : source.key ≠ destination.key →
    transferBetween ctx σ ⟨source, t.decimals?.map (mint, ·), destination, authority, signers⟩
      { s with base := base } terms x = .ok σ₁

theorem processTransfer_ok
    (h : processTransfer ctx (t.infos source mint destination authority signers) x t σ = .ok σ₁) :
    ∃ s terms base, Transferred ctx σ σ₁ source mint destination authority signers x t s terms
      base := by
  simp only [processTransfer, transferAccounts_infos, ok_bind, checkProgramAccount, bind_eq_ok,
    exists_unit, failIf_eq_ok, bne_eq_false_iff_eq] at h
  obtain ⟨s, hload, _, terms, hterms, _, _, base, hby, howner, howner', h⟩ := h
  refine ⟨s, terms, base, howner, howner', hload, hterms, hby, fun he => ?_, fun hne => ?_⟩
  · rw [if_pos (beq_iff_eq.mpr he)] at h
    simp only [bind_eq_ok, exists_unit, pure_eq_ok] at h
    exact h.2.symm
  · rwa [if_neg (mt beq_iff_eq.mp hne)] at h

/-- What an unchecked transfer learns from the markers of its source. -/
theorem transferTerms_none {k : Pubkey} {s : PodState PodAccount} {terms : TransferTerms}
    (h : transferTerms ctx σ k s x none = .ok terms) :
    s.hasExtension TransferHookAccount = false ∧ s.hasExtension TransferFeeAmount = false ∧
      terms = ⟨0, none, none⟩ := by
  simp only [transferTerms, bind_eq_ok, exists_unit, failIf_eq_ok, pure_eq_ok] at h
  obtain ⟨hhook, hfee, _, rfl⟩ := h
  exact ⟨hhook, hfee, rfl⟩

/-- What a checked transfer learns from its mint, whatever decimals it was given. -/
theorem transferTerms_some {k : Pubkey} {s : PodState PodAccount} {d : UInt8}
    {terms : TransferTerms} (h : transferTerms ctx σ k s x (some (mint, d)) = .ok terms) :
    ∃ m, s.base.mint = mint.key ∧ load σ PodMint mint.key = .ok m ∧ d = m.base.decimals ∧
      calculatedFee ctx m x = .ok terms.calculatedFee ∧
      terms = ⟨terms.calculatedFee, getPermanentDelegate m, getProgramId m⟩ := by
  simp only [transferTerms, loadBeside, bind_eq_ok, exists_unit, failIf_eq_ok,
    bne_eq_false_iff_eq, pure_eq_ok] at h
  obtain ⟨hmint, m, ⟨_, hload⟩, hdecimals, fee, hfee, _, rfl⟩ := h
  exact ⟨m, hmint, hload, hdecimals, hfee, rfl⟩

/-- Variants that read the same terms do the same. -/
theorem Transferred.eq_of_terms {t : TransferInstruction} {s : PodState PodAccount}
    {terms : TransferTerms} {base base' : PodAccount}
    (h : Transferred ctx σ σ₁ source mint destination authority signers x t s terms base)
    (h' : Transferred ctx σ σ₂ source mint destination authority signers x t s terms base') :
    σ₁ = σ₂ := by
  obtain rfl := Except.ok.inj (h.by'.symm.trans h'.by')
  by_cases he : source.key = destination.key
  · rw [h.itself he, h'.itself he]
  · exact Except.ok.inj ((h.between he).symm.trans (h'.between he))

/-- The decimals that succeeded are the mint's. -/
theorem Transferred.eq_of_same {s s' : PodState PodAccount} {terms terms' : TransferTerms}
    {base base' : PodAccount} (hsame : t.decimals?.isSome = t'.decimals?.isSome)
    (h : Transferred ctx σ σ₁ source mint destination authority signers x t s terms base)
    (h' : Transferred ctx σ σ₂ source mint destination authority signers x t' s' terms' base') :
    σ₁ = σ₂ := by
  obtain rfl := Except.ok.inj (h.loaded.symm.trans h'.loaded)
  have hdecimals : t.decimals? = t'.decimals? := by
    cases hd : t.decimals? with
    | none =>
      rw [hd] at hsame
      exact (Option.not_isSome_iff_eq_none.mp (by rw [← hsame]; exact Bool.false_ne_true)).symm
    | some d =>
      rw [hd] at hsame
      obtain ⟨d', hd'⟩ := Option.isSome_iff_exists.mp hsame.symm
      have hterms := h.told
      have hterms' := h'.told
      rw [hd] at hterms
      rw [hd'] at hterms' ⊢
      obtain ⟨m, _, hm, rfl, _⟩ := transferTerms_some hterms
      obtain ⟨m', _, hm', rfl, _⟩ := transferTerms_some hterms'
      rw [Except.ok.inj (hm.symm.trans hm')]
  obtain rfl := Except.ok.inj ((hdecimals ▸ h.told).symm.trans h'.told)
  have hsame : Transferred ctx σ σ₂ source mint destination authority signers x t s terms
      base' := by
    refine ⟨h'.owner, h'.owner', h'.loaded, h.told, h'.by', h'.itself, ?_⟩
    rw [hdecimals]
    exact h'.between
  exact h.eq_of_terms hsame

end Agree

/-- What an unchecked transfer cannot see makes no difference: the source carries the marker
of its mint's fee, and the authority is not both delegates. -/
structure Unambiguous (σ : Ledger) (source mint destination authority : Pubkey) : Prop where
  marked : ∀ v m, σ.book.Account source v → load σ PodMint mint = .ok m →
    m.view.get TransferFeeConfig ≠ none → v.get TransferFeeAmount ≠ none
  apart : source ≠ destination → ∀ v m, σ.book.Account source v → load σ PodMint mint = .ok m →
    ¬ (v.base.delegate.toOption = some authority ∧ getPermanentDelegate m = some authority)

section Agree

variable {ctx : Context} {σ σ₁ σ₂ : Ledger} {source mint destination authority : AccountInfo}
  {signers : List AccountInfo} {x : UInt64} {t t' : TransferInstruction}

/-- An unchecked transfer and a checked one. -/
theorem Transferred.eq_of_unchecked {s s' : PodState PodAccount} {terms terms' : TransferTerms}
    {base base' : PodAccount} (hknown : Unambiguous σ source.key mint.key destination.key
      authority.key) (hnone : t.decimals? = none) {d : UInt8} (hsome : t'.decimals? = some d)
    (h : Transferred ctx σ σ₁ source mint destination authority signers x t s terms base)
    (h' : Transferred ctx σ σ₂ source mint destination authority signers x t' s' terms' base') :
    σ₁ = σ₂ := by
  obtain rfl := Except.ok.inj (h.loaded.symm.trans h'.loaded)
  have held : σ.book.Account source.key s.view := contents_of_load h.owner h.loaded
  obtain ⟨hhook, hfee, rfl⟩ := transferTerms_none (by rw [← h.told, hnone]; rfl)
  obtain ⟨m, _, hm, _, hcharged, hterms⟩ :=
    transferTerms_some (d := d) (by rw [← h'.told, hsome]; rfl)
  have hfree : terms'.calculatedFee = 0 := by
    rw [calculatedFee, PodState.toOption_getExtension] at hcharged
    cases hconfig : m.view.get TransferFeeConfig with
    | none =>
      rw [hconfig] at hcharged
      exact (Except.ok.inj hcharged).symm
    | some config =>
      -- the marker would have asked for the mint
      rw [PodState.hasExtension_eq, Option.isSome_eq_false_iff, Option.isNone_iff_eq_none] at hfee
      exact absurd hfee (hknown.marked _ m held hm (by rw [hconfig]; exact Option.some_ne_none _))
  by_cases he : source.key = destination.key
  · rw [h.itself he, h'.itself he]
  · have hbase : base = base' := by
      refine transferAuthority_agree (fun _ => ?_) h.by' h'.by'
      rw [hterms]
      exact hknown.apart he _ m held hm
    have hbetween := h.between he
    rw [hbase] at hbetween
    have hbetween' := h'.between he
    have hsame : transferBetween ctx σ
        ⟨source, t.decimals?.map (mint, ·), destination, authority, signers⟩
        { s with base := base' } ⟨0, none, none⟩ x = .ok σ₂ := by
      rw [← hbetween']
      exact transferBetween_congr rfl rfl hfree.symm rfl (hook_eq_none hhook hbetween')
    exact Except.ok.inj (hbetween.symm.trans hsame)

theorem Transferred.eq {s s' : PodState PodAccount} {terms terms' : TransferTerms}
    {base base' : PodAccount} (hknown : t.decimals?.isSome = t'.decimals?.isSome ∨
      Unambiguous σ source.key mint.key destination.key authority.key)
    (h : Transferred ctx σ σ₁ source mint destination authority signers x t s terms base)
    (h' : Transferred ctx σ σ₂ source mint destination authority signers x t' s' terms' base') :
    σ₁ = σ₂ := by
  rcases hknown with hsame | hknown
  · exact h.eq_of_same hsame h'
  · cases hd : t.decimals? with
    | none =>
      cases hd' : t'.decimals? with
      | none => exact h.eq_of_same (by rw [hd, hd']) h'
      | some d => exact h.eq_of_unchecked hknown hd hd' h'
    | some d =>
      cases hd' : t'.decimals? with
      | none => exact (h'.eq_of_unchecked hknown hd' hd h).symm
      | some d' => exact h.eq_of_same (by rw [hd, hd']; rfl) h'

end Agree

/-! ## What goes out and what comes in -/

section Balanced

variable {ctx : Context} {σ σ' : Ledger} {source mint destination authority : AccountInfo}
  {signers : List AccountInfo} {x : UInt64} {t : TransferInstruction}

/-- A transfer of `x` between two accounts, of which `fee` was withheld. -/
structure Balanced (σ σ' : Ledger) (s d : Pubkey) (x fee : ℕ) : Prop where
  debit : ∃ v v', σ.book.Account s v ∧ σ'.book.Account s v' ∧
    v'.base.amount.toNat + x = v.base.amount.toNat ∧ v'.withheld = v.withheld ∧
    v'.base.owner = v.base.owner ∧ v'.base.mint = v.base.mint
  credit : ∃ w w', σ.book.Account d w ∧ σ'.book.Account d w' ∧
    w'.base.amount.toNat + fee = w.base.amount.toNat + x ∧ w'.withheld = w.withheld + fee ∧
    w'.base.owner = w.base.owner ∧ w'.base.mint = w.base.mint

/-- A hook changes no base and no withheld amount. -/
theorem Hooked.account {c : Call} {s d k : Pubkey} {hook : Option Pubkey} {β β' : Book}
    {v : View PodAccount} (h : Hooked c s d hook β β') (held : β.Account k v) :
    ∃ v', β'.Account k v' ∧ v'.base = v.base ∧ v'.withheld = v.withheld := by
  have hlowered := h.lowered k
  rw [show _ = Contents.account v from held] at hlowered
  generalize hx : (β' k).contents = x at hlowered
  cases hlowered with
  | same => exact ⟨v, hx, rfl, rfl⟩
  | account =>
    exact ⟨_, hx, (congrArg Core.base (v.core_flag false) :),
      (congrArg Core.withheld (v.core_flag false) :)⟩

theorem Delivers.balanced {c : Call} {s d : Pubkey} {v w w' : View PodAccount}
    {fee left q : UInt64} {p : PodCOption Pubkey} {hook : Option Pubkey} (hne : d ≠ s)
    (source : c.σ.book.Account s v)
    (h : Delivers c σ' s d v w w' x fee left p q hook) :
    Balanced c.σ σ' s d x.toNat fee.toNat := by
  have hbase : w'.base = { w.base with amount := w'.base.amount } := congrArg Core.base h.core
  have hwithheld : w'.withheld = w.withheld + fee.toNat := congrArg Core.withheld h.core
  constructor
  · obtain ⟨u, hu, hub, huw⟩ := h.hooked.account ((Book.account_put ..).put_of_ne _ hne.symm)
    refine ⟨v, u, source, hu, ?_, huw, ?_, ?_⟩
    · rw [hub]
      exact h.debit
    · rw [hub]
      rfl
    · rw [hub]
      rfl
  · obtain ⟨u, hu, hub, huw⟩ := h.hooked.account (Book.account_put ..)
    refine ⟨w, u, h.target, hu, ?_, huw.trans hwithheld, ?_, ?_⟩
    · rw [hub]
      exact h.credit
    · rw [hub, hbase]
    · rw [hub, hbase]

/-- The authority match changes the allowance at most. -/
theorem transferAuthority_base {base b : PodAccount} {delegate : Option Pubkey} {self : Bool}
    (h : transferAuthority σ base authority signers delegate x self = .ok b) :
    ∃ p q, b = { base with delegate := p, delegatedAmount := q } := by
  rw [transferAuthority] at h
  split at h
  · simp only [bind_eq_ok, exists_unit, pure_eq_ok] at h
    exact ⟨_, _, h.2.symm⟩
  · split at h
    · simp only [bind_eq_ok, exists_unit] at h
      obtain ⟨_, _, h⟩ := h
      split at h
      · exact ⟨_, _, (pure_eq_ok.mp h).symm⟩
      · obtain ⟨r, _, rfl⟩ := spendDelegated_ok h
        exact ⟨_, r, rfl⟩
    · simp only [bind_eq_ok, exists_unit, pure_eq_ok] at h
      exact ⟨_, _, h.2.symm⟩

theorem Transferred.balanced {s : PodState PodAccount} {terms : TransferTerms} {base : PodAccount}
    (hwf : σ.Wf) (hne : source.key ≠ destination.key)
    (h : Transferred ctx σ σ' source mint destination authority signers x t s terms base) :
    Balanced σ σ' source.key destination.key x.toNat terms.calculatedFee.toNat := by
  obtain ⟨p, q, rfl⟩ := transferAuthority_base h.by'
  let c : Call := ⟨ctx, t.infos source mint destination authority signers, t.instruction x, σ⟩
  obtain ⟨w, w', left, hmoved⟩ :=
    transferBetween_ok (c := c) hwf (Ne.symm hne) h.owner h.owner' h.loaded
      (h.between hne)
  exact Delivers.balanced (c := c) (Ne.symm hne) (contents_of_load h.owner h.loaded) hmoved

end Balanced

/-! ## What a transfer leaves alone -/

/-- An account of the program keeps its data. -/
def KeepsData (k : Pubkey) (σ σ' : Ledger) : Prop :=
  (σ k).owner = Keys.tokenProgram →
    (σ' k).owner = Keys.tokenProgram ∧ (σ' k).data = (σ k).data

section KeepsData

variable {ctx : Context} {σ σ' τ : Ledger} {k j : Pubkey}

theorem KeepsData.refl (k : Pubkey) (σ : Ledger) : KeepsData k σ σ := fun howner => ⟨howner, rfl⟩

theorem KeepsData.trans (h : KeepsData k σ τ) (h' : KeepsData k τ σ') : KeepsData k σ σ' := by
  intro howner
  obtain ⟨howner', hdata⟩ := h howner
  obtain ⟨howner'', hdata'⟩ := h' howner'
  exact ⟨howner'', hdata'.trans hdata⟩

theorem keepsData_store {S : Type} [BaseState S] {s : PodState S} (hne : k ≠ j)
    (h : store σ j s = .ok σ') : KeepsData k σ σ' := by
  obtain ⟨_, rfl⟩ := store_eq_ok.mp h
  intro howner
  rw [Ledger.set_of_ne _ _ hne]
  exact ⟨howner, rfl⟩

theorem keepsData_writeLamports {x : UInt64} (h : σ.writeLamports j x = .ok σ') :
    KeepsData k σ σ' := by
  obtain ⟨_, rfl⟩ := writeLamports_eq_ok.mp h
  intro howner
  by_cases hk : k = j
  · subst hk
    rw [Ledger.set_same]
    exact ⟨howner, rfl⟩
  · rw [Ledger.set_of_ne _ _ hk]
    exact ⟨howner, rfl⟩

theorem keepsData_moveLamports {s d : Pubkey} {x : UInt64} (h : moveLamports σ s d x = .ok σ') :
    KeepsData k σ σ' := by
  simp only [moveLamports, bind_eq_ok] at h
  obtain ⟨_, _, τ, hsource, _, _, hdestination⟩ := h
  exact (keepsData_writeLamports hsource).trans (keepsData_writeLamports hdestination)

theorem keepsData_unsetTransferring (hne : k ≠ j) (h : unsetTransferring σ j = .ok σ') :
    KeepsData k σ σ' := by
  simp only [unsetTransferring, bind_eq_ok] at h
  obtain ⟨_, _, _, _, hstore⟩ := h
  exact keepsData_store hne hstore

/-- Both accounts are written; a hook program writes no account of the program. -/
theorem keepsData_finishTransfer {a : TransferAccounts} {s d : PodState PodAccount}
    {hook : Option Pubkey} (hsource : k ≠ a.source.key) (hdestination : k ≠ a.destination.key)
    (h : finishTransfer ctx σ a s d hook = .ok σ') : KeepsData k σ σ' := by
  cases hook with
  | none =>
    obtain ⟨τ, hs, hd⟩ := bind_eq_ok.mp h
    exact (keepsData_store hsource hs).trans (keepsData_store hdestination hd)
  | some program =>
    simp only [finishTransfer, bind_eq_ok] at h
    obtain ⟨_, _, _, _, _, _, σ₁, hs, σ₂, hd, σ₃, hrun, σ₄, hunset, hunset'⟩ := h
    have hhook : KeepsData k σ₂ σ₃ := by
      intro howner
      obtain ⟨howner', hdata, _⟩ := (ctx.executeHook_envStep hrun k).owned howner
      exact ⟨howner', hdata⟩
    have hstored := (keepsData_store hsource hs).trans (keepsData_store hdestination hd)
    have hunmarked := (keepsData_unsetTransferring hsource hunset).trans
      (keepsData_unsetTransferring hdestination hunset')
    exact (hstored.trans hhook).trans hunmarked

theorem keepsData_transferBetween {a : TransferAccounts} {s : PodState PodAccount}
    {terms : TransferTerms} {x : UInt64} (hsource : k ≠ a.source.key)
    (hdestination : k ≠ a.destination.key)
    (h : transferBetween ctx σ a s terms x = .ok σ') : KeepsData k σ σ' := by
  simp only [transferBetween, bind_eq_ok] at h
  obtain ⟨_, _, _, _, _, _, _, _, _, _, h⟩ := h
  split at h
  · obtain ⟨τ, hlamports, hfinish⟩ := bind_eq_ok.mp h
    exact (keepsData_moveLamports hlamports).trans
      (keepsData_finishTransfer hsource hdestination hfinish)
  · obtain ⟨τ, hsame, hfinish⟩ := bind_eq_ok.mp h
    obtain rfl := Except.ok.inj hsame
    exact keepsData_finishTransfer hsource hdestination hfinish

/-- The mint of a transfer is neither of its accounts. -/
theorem Transferred.keepsMint {source mint destination authority : AccountInfo}
    {signers : List AccountInfo} {x : UInt64} {t : TransferInstruction} {s : PodState PodAccount}
    {terms : TransferTerms} {base : PodAccount} {m : PodState PodMint}
    (h : Transferred ctx σ σ' source mint destination authority signers x t s terms base)
    (howner : (σ mint.key).owner = Keys.tokenProgram)
    (hload : load σ PodMint mint.key = .ok m) : KeepsData mint.key σ σ' := by
  have hmint : σ.book.Mint mint.key m.view := contents_of_load howner hload
  have hapart : ∀ {v : View PodAccount} {j}, σ.book.Account j v → mint.key ≠ j := by
    rintro v j held rfl
    exact absurd ((show _ = Contents.mint _ from hmint).symm.trans held) Contents.noConfusion
  by_cases hself : source.key = destination.key
  · rw [h.itself hself]
    exact KeepsData.refl _ σ
  · have hbetween := h.between hself
    have hbetween' := hbetween
    simp only [transferBetween, bind_eq_ok] at hbetween'
    obtain ⟨d, hd, _⟩ := hbetween'
    have hsource : σ.book.Account source.key s.view := contents_of_load h.owner h.loaded
    have hdestination : σ.book.Account destination.key d.view := contents_of_load h.owner' hd
    exact keepsData_transferBetween (hapart hsource) (hapart hdestination) hbetween

end KeepsData

/-- Two variants that both succeed do the same, unless the mint would have told an unchecked
one something; each of them takes from the source what it gives to the destination and what
is withheld there, and a transfer back to its source changes nothing. -/
theorem transfers_agree {rt : Runtime} {allow : Call → Prop} {ctx : Context} {σ σ₁ σ₂ : Ledger}
    {source mint destination authority : AccountInfo} {signers : List AccountInfo} {x : UInt64}
    {t t' : TransferInstruction} (h : Reachable rt allow σ)
    (h₁ : process rt ctx (t.infos source mint destination authority signers)
      (t.instruction x) σ = .ok σ₁)
    (h₂ : process rt ctx (t'.infos source mint destination authority signers)
      (t'.instruction x) σ = .ok σ₂) :
    (t.decimals?.isSome = t'.decimals?.isSome ∨
      Unambiguous σ source.key mint.key destination.key authority.key → σ₁ = σ₂) ∧
    (source.key = destination.key → σ₁ = σ) ∧
    (source.key ≠ destination.key →
      ∃ fee, Balanced σ σ₁ source.key destination.key x.toNat fee) := by
  rw [process_transfer] at h₁ h₂
  obtain ⟨s, terms, base, ht⟩ := processTransfer_ok h₁
  obtain ⟨s', terms', base', ht'⟩ := processTransfer_ok h₂
  exact ⟨fun hknown => ht.eq hknown ht', ht.itself, fun hne => ⟨_, ht.balanced h.wf hne⟩⟩

/-- Two holders of a mint with the permanent delegate `5`, who is also the delegate of one. -/
def delegatedLedger : Ledger :=
  scripted (.modular 2)
    [(.plain, [⟨1, false⟩], .initializePermanentDelegate 5),
     (.plain, [⟨1, false⟩], .initializeMint2 6 4 none),
     (.plain, [⟨2, false⟩, ⟨1, false⟩], .initializeAccount3 7),
     (.plain, [⟨3, false⟩, ⟨1, false⟩], .initializeAccount3 8),
     (.plain, [⟨1, false⟩, ⟨2, false⟩, ⟨4, true⟩], .mintTo 100),
     (.plain, [⟨2, false⟩, ⟨5, false⟩, ⟨7, true⟩], .approve 50)]
    (blank [(1, 202), (2, 165), (3, 165)])

theorem delegatedLedger_reachable : Reachable (.modular 2) (fun _ => True) delegatedLedger :=
  .scripted (by decide) (fun _ _ _ => trivial) (by decide +kernel)

/-- A variant on that ledger, for ten tokens. -/
def delegatedTransfer (t : TransferInstruction) (authority : Pubkey) : Result Ledger :=
  process (.modular 2) .plain (t.infos ⟨2, false⟩ ⟨1, false⟩ ⟨3, false⟩ ⟨authority, true⟩ [])
    (t.instruction 10) delegatedLedger

theorem delegatedTransfer_ok (t : TransferInstruction) (authority : Pubkey)
    (h : (toOption (delegatedTransfer t authority)).isSome = true) :
    ∃ σ, delegatedTransfer t authority = .ok σ := by
  obtain ⟨σ, hσ⟩ := Option.isSome_iff_exists.mp h
  exact ⟨σ, toOption_eq_some.mp hσ⟩

/-- The owner's transfer is the same with and without the mint. -/
theorem transfers_agree_scripted :
    ∃ σ, delegatedTransfer .unchecked 7 = .ok σ ∧ delegatedTransfer (.checked 6) 7 = .ok σ := by
  obtain ⟨σ₁, h₁⟩ := delegatedTransfer_ok .unchecked 7 (by decide +kernel)
  obtain ⟨σ₂, h₂⟩ := delegatedTransfer_ok (.checked 6) 7 (by decide +kernel)
  suffices hsame : σ₁ = σ₂ from ⟨σ₁, h₁, hsame ▸ h₂⟩
  refine (transfers_agree delegatedLedger_reachable h₁ h₂).1 (.inr ⟨?_, ?_⟩)
  · intro v m _ hm hfee
    have hnone : (toOption (load delegatedLedger PodMint 1)).all
        (fun m => decide (m.view.get TransferFeeConfig = none)) = true := by decide +kernel
    rw [toOption_eq_some.mpr hm] at hnone
    exact absurd (of_decide_eq_true hnone) hfee
  · rintro _ v m held _ ⟨hdelegate, _⟩
    obtain ⟨w, hw, hp⟩ := exists_account delegatedLedger 2
      (fun v => decide (v.base.delegate.toOption = some 5)) (by decide +kernel) (by decide +kernel)
    obtain rfl := held.unique hw
    rw [of_decide_eq_true hp] at hdelegate
    exact absurd hdelegate (by decide)

/-- Without the mint the delegate spends its allowance, with it the permanent delegate acts. -/
theorem delegates_disagree :
    Reachable (.modular 2) (fun _ => True) delegatedLedger ∧
      ∃ σ₁ σ₂, delegatedTransfer .unchecked 5 = .ok σ₁ ∧
        delegatedTransfer (.checked 6) 5 = .ok σ₂ ∧ σ₁ ≠ σ₂ := by
  obtain ⟨σ₁, h₁⟩ := delegatedTransfer_ok .unchecked 5 (by decide +kernel)
  obtain ⟨σ₂, h₂⟩ := delegatedTransfer_ok (.checked 6) 5 (by decide +kernel)
  refine ⟨delegatedLedger_reachable, σ₁, σ₂, h₁, h₂, fun h => ?_⟩
  have hdata : (toOption (delegatedTransfer .unchecked 5)).map (fun σ => (σ 2).data) ≠
      (toOption (delegatedTransfer (.checked 6) 5)).map (fun σ => (σ 2).data) := by decide +kernel
  rw [h₁, h₂, h] at hdata
  exact hdata rfl

end SolanaEasy.Token
