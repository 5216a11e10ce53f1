import SolanaEasy.Token.Refine.Initialize

/-!
# Refinement — transfers, minting and burning

Each handler is one trade. What a transfer was told by the mint, or by the account
without it, and who stood behind it are read off first; the call of the hook is a
tail of its own, shared with confidential transfers.
-/

namespace SolanaEasy.Token

open Processor

/-! ## The flag -/

theorem View.flag_flag (v : View PodAccount) (a b : Bool) : (v.flag a).flag b = v.flag b :=
  View.set_set v _ _

section Flag

variable {c : Call} {σ σ' : Ledger} {k : Pubkey}

theorem setTransferring_ok {s s' : PodState PodAccount} {b : Bool} (hswf : s.Wf)
    (h : setTransferring s b = .ok s') : s.Stored s' (s.view.flag b) := by
  simp only [setTransferring, bind_eq_ok] at h
  obtain ⟨_, _, hset⟩ := h
  exact (PodState.setExtension_ok hswf hset).1

/-- A flag set on the stored account. -/
theorem store_flag {s s' : PodState PodAccount} {b : Bool} (hwf : σ.Wf)
    (howner : (σ k).owner = Keys.tokenProgram) (hload : load σ PodAccount k = .ok s)
    (hset : setTransferring s b = .ok s') (h : store σ k s' = .ok σ') :
    σ'.Wf ∧ σ'.book = σ.book.put k (.account (s.view.flag b)) := by
  obtain ⟨hswf, _⟩ := hwf.load howner hload
  have hw := store_held hwf howner hload (setTransferring_ok hswf hset)
    (packed_of_load hload).initialized trivial h
  exact ⟨hw.wf, hw.book⟩

/-- One flag set where it is stored. -/
def setFlag (σ : Ledger) (k : Pubkey) (b : Bool) : Result Ledger := do
  let account ← load σ PodAccount k
  let account ← setTransferring account b
  store σ k account

theorem setFlag_book {v : View PodAccount} {b : Bool} (hwf : σ.Wf) (hv : σ.book.Account k v)
    (h : setFlag σ k b = .ok σ') :
    σ'.Wf ∧ σ'.book = σ.book.put k (.account (v.flag b)) := by
  obtain ⟨howner, s, hload, rfl⟩ := load_of_account hv
  simp only [setFlag, hload, ok_bind, bind_eq_ok] at h
  obtain ⟨s', hset, h⟩ := h
  exact store_flag hwf howner hload hset h

/-- Two flags set, of one account or of two. -/
theorem setFlag_two {s d : Pubkey} {v w : View PodAccount} {b : Bool} {σ₁ : Ledger} (hwf : σ.Wf)
    (hs : σ.book.Account s v) (hd : σ.book.Account d w) (h₁ : setFlag σ s b = .ok σ₁)
    (h : setFlag σ₁ d b = .ok σ') :
    σ'.Wf ∧ σ'.book = (σ.book.put s (.account (v.flag b))).put d (.account (w.flag b)) := by
  obtain ⟨hwf₁, hbook₁⟩ := setFlag_book hwf hs h₁
  have htarget : ∃ u, σ₁.book.Account d u ∧ u.flag b = w.flag b := by
    by_cases he : d = s
    · subst he
      refine ⟨v.flag b, by rw [hbook₁, Book.Account, Book.put_same], ?_⟩
      rw [View.flag_flag, hs.unique hd]
    · refine ⟨w, ?_, rfl⟩
      rw [hbook₁, Book.Account, Book.put_of_ne _ _ he]
      exact hd
  obtain ⟨u, hu, hflag⟩ := htarget
  obtain ⟨hwf', hbook'⟩ := setFlag_book hwf₁ hu h
  exact ⟨hwf', by rw [hbook', hbook₁, hflag]⟩

/-- The hook program runs with both flags raised, and both are lowered after it. -/
theorem hooked_of_raised {β : Book} {s d : Pubkey} {v w : View PodAccount} {program : Pubkey}
    {σ₁ σ₂ : Ledger} (hwf : σ.Wf) (source : β.Account s v) (target : β.Account d w)
    (hraised : σ.book = (β.put s (.account (v.flag true))).put d (.account (w.flag true)))
    (hrun : c.ctx.executeHook σ = .ok σ₁) (hs : unsetTransferring σ₁ s = .ok σ₂)
    (hd : unsetTransferring σ₂ d = .ok σ') :
    σ'.Wf ∧ Hooked c s d (some program) β σ'.book := by
  have hstep := c.ctx.executeHook_envStep hrun
  have hkept : ∀ k u, σ.book.Account k u → σ₁.book.Account k u := fun k u hu =>
    (hstep.book.held k (by rw [show _ = _ from hu]; exact Contents.noConfusion)).1.trans hu
  have hsource : σ.book.Account s (v.flag true) := by
    rw [hraised, Book.Account]
    by_cases he : s = d
    · subst he
      rw [Book.put_same, source.unique target]
    · rw [Book.put_of_ne _ _ he, Book.put_same]
  have htarget : σ.book.Account d (w.flag true) := by
    rw [hraised, Book.Account, Book.put_same]
  obtain ⟨hwf', hbook⟩ := setFlag_two (hstep.wf hwf) (hkept _ _ hsource) (hkept _ _ htarget) hs hd
  rw [View.flag_flag, View.flag_flag] at hbook
  exact ⟨hwf', hbook ▸ .called source target hraised hrun⟩

end Flag

/-! ## What a transfer was told, and by whom -/

section Terms

variable {c : Call} {s : PodState PodAccount} {x : UInt64}

theorem transferTerms_ok {k : Pubkey} {expected : Option (AccountInfo × UInt8)}
    {terms : TransferTerms} (h : transferTerms c.ctx c.σ k s x expected = .ok terms) :
    c.Consults s.view x terms.calculatedFee terms.maybeTransferHookProgramId ∧
      (∀ p, expected = some p → s.base.mint = p.1.key ∧ terms.maybePermanentDelegate =
        (toOption (load c.σ PodMint p.1.key)).bind getPermanentDelegate) ∧
      (expected = none → terms.maybePermanentDelegate = none) ∧
      (expected = none → terms.maybeTransferHookProgramId = none) := by
  cases expected with
  | some p =>
    obtain ⟨mintInfo, decimals⟩ := p
    simp only [transferTerms, loadBeside, bind_eq_ok, exists_unit, failIf_eq_ok,
      bne_eq_false_iff_eq, isPaused_eq, getProgramId_eq, pure_eq_ok] at h
    obtain ⟨hmint, m, ⟨_, hload⟩, _, fee, hfee, hrunning, rfl⟩ := h
    refine ⟨.mint (hmint ▸ hload) hrunning hfee, ?_, fun h => (by cases h), fun h => (by cases h)⟩
    rintro _ ⟨⟩
    exact ⟨hmint, by rw [hload]; rfl⟩
  | none =>
    simp only [transferTerms, bind_eq_ok, exists_unit, failIf_eq_ok, PodState.hasExtension_eq,
      Option.isSome_eq_false_iff, Option.isNone_iff_eq_none, pure_eq_ok] at h
    obtain ⟨hhook, hfee, hpause, rfl⟩ := h
    exact ⟨.markers hhook hfee hpause, fun _ h => (by cases h), fun _ => rfl, fun _ => rfl⟩

theorem Call.Endorsed.of_checkOwner {authorityInfo : AccountInfo} {signers : List AccountInfo}
    {key : Pubkey} (ha : authorityInfo ∈ c.accounts) (hs : signers.Sublist c.accounts)
    (h : checkOwner c.σ authorityInfo signers key = .ok ()) : c.Endorsed key :=
  ⟨authorityInfo, ha, signers, hs, h⟩

/-- The allowance a delegate leaves behind. -/
theorem spendDelegated_ok {base base' : PodAccount} (h : spendDelegated base x = .ok base') :
    ∃ r : UInt64, r.toNat + x.toNat = base.delegatedAmount.toNat ∧
      base' = { base with
        delegate := if r = 0 then .none else base.delegate, delegatedAmount := r } := by
  simp only [spendDelegated, bind_eq_ok, okOr_eq_ok, checkedSub_eq_some] at h
  obtain ⟨r, hr, h⟩ := h
  refine ⟨r, hr, ?_⟩
  split at h
  · rename_i hzero
    rw [if_pos (beq_iff_eq.mp hzero)]
    exact (pure_eq_ok.mp h).symm
  · rename_i hzero
    rw [if_neg (mt beq_iff_eq.mpr hzero)]
    exact (pure_eq_ok.mp h).symm

/-- Who stood behind taking `x` from an account. -/
theorem transferAuthority_ok {authorityInfo : AccountInfo} {signers : List AccountInfo}
    {delegate : Option Pubkey} {base : PodAccount} {v : View PodAccount}
    (ha : authorityInfo ∈ c.accounts) (hs : signers.Sublist c.accounts)
    (hauthority : c.authority = some authorityInfo.key) (hdelegate : c.permanentDelegate = delegate)
    (hread : ∀ d, delegate = some d → ∃ m, load c.σ PodMint v.base.mint = .ok m ∧
      getPermanentDelegate m = some d)
    (howned : c.isBurn = true → v.base.isOwnedBySystemProgramOrIncinerator = false)
    (h : transferAuthority c.σ v.base authorityInfo signers delegate x false = .ok base) :
    ∃ p q, base = { v.base with delegate := p, delegatedAmount := q } ∧ c.SpentBy v x p q := by
  rw [transferAuthority] at h
  split at h
  · rename_i hpermanent
    simp only [bind_eq_ok, exists_unit, pure_eq_ok] at h
    obtain ⟨hok, rfl⟩ := h
    rw [beq_iff_eq] at hpermanent
    obtain ⟨m, hm, hof⟩ := hread _ hpermanent
    exact ⟨_, _, rfl, .permanent hauthority (hdelegate.trans hpermanent) hm hof
      (.of_checkOwner ha hs hok)⟩
  · rename_i hpermanent
    rw [beq_iff_eq] at hpermanent
    split at h
    · rename_i hown
      rw [beq_iff_eq] at hown
      simp only [bind_eq_ok, exists_unit, Bool.false_eq_true, if_false] at h
      obtain ⟨hok, _, h⟩ := h
      obtain ⟨r, hr, rfl⟩ := spendDelegated_ok h
      have hvalue : v.base.delegate.value = authorityInfo.key := by
        rw [PodCOption.toOption] at hown
        split at hown
        · exact Option.some.inj hown
        · cases hown
      rw [hvalue] at hok
      exact ⟨_, r, rfl, .delegate hauthority (hdelegate ▸ hpermanent) hown
        howned (.of_checkOwner ha hs hok) hr⟩
    · rename_i hown
      rw [beq_iff_eq] at hown
      simp only [bind_eq_ok, exists_unit, pure_eq_ok] at h
      obtain ⟨hok, rfl⟩ := h
      exact ⟨_, _, rfl, .owner (by rwa [hdelegate, hauthority]) (by rwa [hauthority])
        (.of_checkOwner ha hs hok)⟩

end Terms

/-! ## Transfer -/

section Handlers

variable {rt : Runtime} {c : Call} {σ σ' : Ledger}

/-- Where the accounts of a transfer are, and what the layout says of them. -/
theorem transferAccounts_ok {t : TransferInstruction} {a : TransferAccounts}
    (hlayout : Call.spendLayout c.instruction =
      some (if t.decimals?.isSome then (some 1, 3) else (none, 2)))
    (h : transferAccounts c.accounts t = .ok a) :
    c.key? 0 = some a.source.key ∧
      c.key? (if t.decimals?.isSome then 2 else 1) = some a.destination.key ∧
          c.authority = some a.authority.key ∧
      a.source ∈ c.accounts ∧ a.destination ∈ c.accounts ∧ a.authority ∈ c.accounts ∧
      a.signers.Sublist c.accounts ∧
      c.permanentDelegate = a.expectedMint.bind fun p =>
        (toOption (load c.σ PodMint p.1.key)).bind getPermanentDelegate := by
  have hclose : c.instruction ≠ .closeAccount := by
    intro he
    rw [he] at hlayout
    cases hlayout
  have hauthority : c.authority = c.key? (if t.decimals?.isSome then 3 else 2) := by
    have hsplit : c.authority = (Call.spendLayout c.instruction).bind fun p => c.key? p.2 := by
      unfold Call.authority
      split
      · exact absurd ‹_› hclose
      · rfl
    rw [hsplit, hlayout, Option.bind_some]
    split <;> rfl
  rw [hauthority, Call.permanentDelegate, hlayout]
  unfold Call.key?
  cases hx : c.accounts with
  | nil =>
    rw [hx] at h
    cases h
  | cons source rest =>
    rw [hx] at h
    simp only [transferAccounts, bind_eq_ok, Prod.exists] at h
    obtain ⟨expected, rest', htake, h⟩ := h
    cases hdecimals : t.decimals? with
    | none =>
      rw [hdecimals, takeExpectedMint] at htake
      obtain ⟨rfl, rfl⟩ := Prod.mk.inj (Except.ok.inj htake)
      obtain _ | ⟨destination, _ | ⟨authority, signers⟩⟩ := rest
      · cases h
      · cases h
      obtain rfl := pure_eq_ok.mp h
      exact ⟨rfl, rfl, rfl, by simp, by simp, by simp, .cons _ (.cons _ (.cons _ (.refl _))), rfl⟩
    | some decimals =>
      rw [hdecimals] at htake
      obtain _ | ⟨mintInfo, rest⟩ := rest
      · cases htake
      obtain ⟨rfl, rfl⟩ := Prod.mk.inj (Except.ok.inj htake)
      obtain _ | ⟨destination, _ | ⟨authority, signers⟩⟩ := rest
      · cases h
      · cases h
      obtain rfl := pure_eq_ok.mp h
      exact ⟨rfl, rfl, rfl, by simp, by simp, by simp,
        .cons _ (.cons _ (.cons _ (.cons _ (.refl _)))), rfl⟩

/-- The credit of a destination. -/
theorem creditDestination_ok {s s' : PodState PodAccount} {x fee : UInt64} (hswf : s.Wf)
    (h : creditDestination s x fee = .ok s') :
    ∃ (b : UInt64) (w : View PodAccount), b.toNat = s.base.amount.toNat + x.toNat ∧
      s.Stored s' w ∧ s.view.Grows w ∧ w.core = { s.view.core with
        base := { s.base with amount := b }, withheld := s.view.withheld + fee.toNat } := by
  simp only [creditDestination, bind_eq_ok, okOr_eq_ok, checkedAdd_eq_some] at h
  obtain ⟨b, hb, h⟩ := h
  have hst := (PodState.Stored.refl hswf).withBase { s.base with amount := b }
  split at h
  · split at h
    · rename_i e hget
      simp only [bind_eq_ok, okOr_eq_ok, checkedAdd_eq_some] at h
      obtain ⟨y, hy, hset⟩ := h
      have hst' := (PodState.setExtension_ok hst.wf hset).1
      rw [hst.view] at hst'
      refine ⟨b, _, hb, hst.trans hst', View.grows_set _ _, ?_⟩
      have hheld : s.view.withheld = e.withheldAmount.toNat :=
        View.withheld_of_feeAmount ((PodState.toOption_getExtension _).symm.trans hget)
      rw [View.core_set_feeAmount, View.core_withBase, hy, hheld]
    · cases h
  · rename_i hfee
    obtain rfl := pure_eq_ok.mp h
    have hzero : fee.toNat = 0 := by
      rw [gt_iff_lt, UInt64.lt_iff_toNat_lt, UInt64.toNat_zero] at hfee
      omega
    refine ⟨b, _, hb, hst, .refl _, ?_⟩
    rw [View.core_withBase, hzero, Nat.add_zero]
    rfl

/-- What holds after both states of a transfer are in the book. -/
structure Settles (c : Call) (σ σ' : Ledger) (s d : Pubkey) (v w : View PodAccount)
    (hook : Option Pubkey) : Prop where
  wf : σ'.Wf
  hooked : Hooked c s d hook ((σ.book.put s (.account v)).put d (.account w)) σ'.book

theorem finishTransfer_ok {a : TransferAccounts} {s₀ s t₀ t : PodState PodAccount}
    {v w : View PodAccount} {hook : Option Pubkey} (hwf : σ.Wf)
    (howner : (σ a.source.key).owner = Keys.tokenProgram)
    (howner' : (σ a.destination.key).owner = Keys.tokenProgram)
    (hne : a.destination.key ≠ a.source.key)
    (hload : load σ PodAccount a.source.key = .ok s₀)
    (hload' : load σ PodAccount a.destination.key = .ok t₀) (hst : s₀.Stored s v)
    (hst' : t₀.Stored t w) (hinit : v.base.isInitialized = true)
    (hinit' : w.base.isInitialized = true)
    (h : finishTransfer c.ctx σ a s t hook = .ok σ') :
    Settles c σ σ' a.source.key a.destination.key v w hook := by
  cases hook with
  | none =>
    simp only [finishTransfer, bind_eq_ok] at h
    obtain ⟨σ₁, h₁, h⟩ := h
    obtain ⟨hwf', hbook⟩ := store_two hwf hne howner howner' hload hload' h₁ h hst hst'
      hinit hinit' trivial trivial
    exact ⟨hwf', hbook ▸ .quiet⟩
  | some program =>
    simp only [finishTransfer, bind_eq_ok, exists_unit] at h
    obtain ⟨_, s₁, hs₁, t₁, ht₁, σ₁, h₁, σ₂, h₂, σ₃, hrun, σ₄, h₄, h⟩ := h
    have hraise := setTransferring_ok hst.wf hs₁
    have hraise' := setTransferring_ok hst'.wf ht₁
    rw [hst.view] at hraise
    rw [hst'.view] at hraise'
    obtain ⟨hwf₂, hbook⟩ := store_two hwf hne howner howner' hload hload' h₁ h₂
      (hst.trans hraise) (hst'.trans hraise') hinit hinit' trivial trivial
    have hraised : σ₂.book = (((σ.book.put a.source.key (.account v)).put a.destination.key
        (.account w)).put a.source.key (.account (v.flag true))).put a.destination.key
          (.account (w.flag true)) := by
      rw [hbook, Book.put_comm _ (.account w) _ (Ne.symm hne), Book.put_put, Book.put_put]
      rfl
    refine (hooked_of_raised hwf₂ ?_ ?_ hraised hrun h₄ h).elim Settles.mk
    · rw [Book.Account, Book.put_of_ne _ _ (Ne.symm hne), Book.put_same]
    · rw [Book.Account, Book.put_same]

/-- The lamports that go with a native transfer. -/
theorem payNative_ok {native : Bool} {s d : Pubkey} {x : UInt64} {σ₁ : Ledger} (hwf : σ.Wf)
    (h : (if native then moveLamports σ s d x else .ok σ) = .ok σ₁) :
    σ₁.Wf ∧ σ₁.book = (if native then σ.book.pay s d x else σ.book) ∧
      (native = true → σ.book.CanPay s d x) ∧ (∀ k, (σ₁ k).owner = (σ k).owner) ∧
      ∀ k, (σ₁ k).data = (σ k).data := by
  cases native with
  | true =>
    have hpays := moveLamports_pays hwf h
    exact ⟨hpays.wf, hpays.book, fun _ => hpays.can, hpays.owner, hpays.data⟩
  | false =>
    obtain rfl := Except.ok.inj h
    exact ⟨hwf, rfl, fun h => (by cases h), fun _ => rfl, fun _ => rfl⟩

/-- Accounts passed to an instruction are given. -/
theorem Call.Given.of_mem {info : AccountInfo} (h : info ∈ c.accounts) : c.Given info.key :=
  ⟨info, h, rfl⟩

/-- What a transfer between two accounts leaves behind: `w` is the destination before it and
`w'` after it. -/
structure Delivers (c : Call) (σ' : Ledger) (s d : Pubkey) (v w w' : View PodAccount)
    (x fee left : UInt64) (p : PodCOption Pubkey) (q : UInt64) (hook : Option Pubkey) : Prop where
  wf : σ'.Wf
  target : c.σ.book.Account d w
  mint : w.base.mint = v.base.mint
  thawed : w.base.isFrozen = false
  debit : left.toNat + x.toNat = v.base.amount.toNat
  part : fee.toNat ≤ x.toNat
  credit : w'.base.amount.toNat + fee.toNat = w.base.amount.toNat + x.toNat
  can : v.base.isNative = true → c.σ.book.CanPay s d x
  core : w'.core = { w.core with
    base := { w.base with amount := w'.base.amount }, withheld := w.withheld + fee.toNat }
  grows : w.Grows w'
  hooked : Hooked c s d hook
    (((if v.base.isNative then c.σ.book.pay s d x else c.σ.book).put s
      (.account (v.withBase { v.base with
        amount := left, delegate := p, delegatedAmount := q }))).put d (.account w')) σ'.book

theorem transferBetween_ok {a : TransferAccounts} {s : PodState PodAccount}
    {terms : TransferTerms} {x q : UInt64} {p : PodCOption Pubkey} (hwf : c.σ.Wf)
    (hne : a.destination.key ≠ a.source.key)
    (howner : (c.σ a.source.key).owner = Keys.tokenProgram)
    (howner' : (c.σ a.destination.key).owner = Keys.tokenProgram)
    (hload : load c.σ PodAccount a.source.key = .ok s)
    (h : transferBetween c.ctx c.σ a
      { s with base := { s.base with delegate := p, delegatedAmount := q } } terms x = .ok σ') :
    ∃ w w' left, Delivers c σ' a.source.key a.destination.key s.view w w' x terms.calculatedFee
      left p q terms.maybeTransferHookProgramId := by
  simp only [transferBetween, checkTransferDestination, bind_eq_ok, exists_unit, failIf_eq_ok,
    bne_eq_false_iff_eq, okOr_eq_ok, checkedSub_eq_some] at h
  obtain ⟨t, hload', ⟨hthawed', hmint, _⟩, left, hleft, credited, hcredited, t', hcredit, h⟩ := h
  obtain ⟨σ₁, hpay, h⟩ : ∃ σ₁, (if s.view.base.isNative then
      moveLamports c.σ a.source.key a.destination.key x else .ok c.σ) = .ok σ₁ ∧
      finishTransfer c.ctx σ₁ a { s with
          base := { s.base with amount := left, delegate := p, delegatedAmount := q } } t'
        terms.maybeTransferHookProgramId = .ok σ' := by
    split at h
    · rename_i hnative
      rw [if_pos (show s.view.base.isNative = true from hnative)]
      exact bind_eq_ok.mp h
    · rename_i hnative
      rw [if_neg (show ¬ s.view.base.isNative = true from hnative)]
      exact bind_eq_ok.mp h
  obtain ⟨hwf₁, hbook₁, hcan, hown, hdata⟩ := payNative_ok hwf hpay
  obtain ⟨hswf, _⟩ := hwf.load howner hload
  obtain ⟨htwf, _⟩ := hwf.load howner' hload'
  obtain ⟨b, w, hb, hst', hgrows', hcore'⟩ := creditDestination_ok htwf hcredit
  have hbase : w.base = { t.view.base with amount := b } := congrArg Core.base hcore'
  have hinit' : w.base.isInitialized = true := by
    rw [hbase]
    exact (packed_of_load hload').initialized
  have hst := (PodState.Stored.refl hswf).withBase
    { s.base with amount := left, delegate := p, delegatedAmount := q }
  have hend := finishTransfer_ok hwf₁ ((hown _).trans howner) ((hown _).trans howner') hne
    (by rw [load, hdata]; exact hload) (by rw [load, hdata]; exact hload')
    hst hst' (packed_of_load hload).initialized hinit' h
  have hamount : w.base.amount = b := congrArg PodAccount.amount hbase
  exact ⟨t.view, w, left, hend.wf, contents_of_load howner' hload', hmint.symm, hthawed', hleft,
    by omega, by rw [hamount, hb, PodState.base_view]; omega, hcan, hamount ▸ hcore', hgrows',
    hbook₁ ▸ hend.hooked⟩

theorem transferBetween_course {a : TransferAccounts} {s : PodState PodAccount}
    {terms : TransferTerms} {x q : UInt64} {p : PodCOption Pubkey} (hwf : c.σ.Wf)
    (htrades : c.instruction.trades = true)
    (hspends : (Call.spendLayout c.instruction).isSome = true) (hburn : c.isBurn = false)
    (head : c.key? 0 = some a.source.key)
    (last : c.key? c.instruction.destinationIndex = some a.destination.key)
    (hs : a.source ∈ c.accounts)
    (hd : a.destination ∈ c.accounts)
    (hne : a.destination.key ≠ a.source.key)
    (howner : (c.σ a.source.key).owner = Keys.tokenProgram)
    (howner' : (c.σ a.destination.key).owner = Keys.tokenProgram)
    (hload : load c.σ PodAccount a.source.key = .ok s)
    (hconsults : c.Consults s.view x terms.calculatedFee terms.maybeTransferHookProgramId)
    (movable : s.view.get NonTransferableAccount = none) (thawed : s.base.isFrozen = false)
    (guarded : c.Guarded s.view) (spent : c.SpentBy s.view x p q)
    (h : transferBetween c.ctx c.σ a
      { s with base := { s.base with delegate := p, delegatedAmount := q } } terms x = .ok σ') :
    σ'.Wf ∧ Course rt c c.σ.book σ'.book := by
  obtain ⟨w, w', left, hmoved⟩ := transferBetween_ok hwf hne howner howner' hload h
  refine ⟨hmoved.wf, .trade htrades ?_ hmoved.hooked⟩
  exact .transfer head last hne hspends hburn (contents_of_load howner hload) hmoved.target
    hmoved.mint hconsults movable thawed hmoved.thawed guarded spent
    (UInt64.le_iff_toNat_le.mpr hmoved.part) hmoved.debit hmoved.credit
    (fun hnative => ⟨.of_mem hs, .of_mem hd, hmoved.can hnative⟩) rfl hmoved.core (.refl _)
    hmoved.grows

theorem processTransfer_course {x : UInt64} {t : TransferInstruction} (hwf : c.σ.Wf)
    (htrades : c.instruction.trades = true) (hburn : c.isBurn = false)
    (hlayout : Call.spendLayout c.instruction =
      some (if t.decimals?.isSome then (some 1, 3) else (none, 2)))
    (hindex : c.instruction.destinationIndex = if t.decimals?.isSome then 2 else 1)
    (h : processTransfer c.ctx c.accounts x t c.σ = .ok σ') :
    σ'.Wf ∧ Course rt c c.σ.book σ'.book := by
  simp only [processTransfer, checkTransferSource, checkProgramAccount, bind_eq_ok, exists_unit,
    failIf_eq_ok, PodState.hasExtension_eq, Option.isSome_eq_false_iff, Option.isNone_iff_eq_none,
    bne_eq_false_iff_eq, cpiGuardLocked_eq] at h
  obtain ⟨a, ha, s, hload, ⟨hthawed, _, hmovable⟩, terms, hterms, _, hguard, base, hauthority,
    howner, howner', h⟩ := h
  obtain ⟨hhead, hlast, hacts, hs, hd, hby, hsigners, hpermanent⟩ := transferAccounts_ok hlayout ha
  rw [← hindex] at hlast
  obtain ⟨hconsults, hmint, hnone, _⟩ := transferTerms_ok hterms
  have hspends : (Call.spendLayout c.instruction).isSome = true := by rw [hlayout]; rfl
  have hguarded : c.Guarded s.view := by
    intro hlocked hcpi
    refine ⟨_, hacts, fun he => ?_⟩
    simp [hlocked, hcpi, he] at hguard
  by_cases he : a.source.key = a.destination.key
  · rw [if_pos (beq_iff_eq.mpr he)] at h
    simp only [bind_eq_ok, exists_unit, pure_eq_ok] at h
    obtain ⟨_, rfl⟩ := h
    exact ⟨hwf, .trade htrades
        (.selfTransfer hhead (he ▸ hlast) hspends hburn (contents_of_load howner hload)
      hconsults hmovable hthawed hguarded) .quiet⟩
  · have hself : (a.source.key == a.destination.key) = false := beq_eq_false_iff_ne.mpr he
    rw [hself] at hauthority h
    have hdelegate : c.permanentDelegate = terms.maybePermanentDelegate ∧
        ∀ d, terms.maybePermanentDelegate = some d → ∃ m,
          load c.σ PodMint s.view.base.mint = .ok m ∧ getPermanentDelegate m = some d := by
      rw [hpermanent]
      cases hexpected : a.expectedMint with
      | none =>
        rw [hnone hexpected]
        exact ⟨rfl, fun _ h => (by cases h)⟩
      | some p =>
        obtain ⟨hkey, hread⟩ := hmint p hexpected
        rw [hread, PodState.base_view, hkey]
        refine ⟨rfl, fun d hd => ?_⟩
        obtain ⟨m, hm, hof⟩ := Option.bind_eq_some_iff.mp hd
        exact ⟨m, toOption_eq_some.mp hm, hof⟩
    obtain ⟨p, q, rfl, hspent⟩ := transferAuthority_ok (v := s.view) hby hsigners hacts
      hdelegate.1 hdelegate.2 (fun h => by rw [hburn] at h; cases h) hauthority
    exact transferBetween_course hwf htrades hspends hburn hhead hlast hs hd
        (Ne.symm he) howner howner'
      hload hconsults hmovable hthawed hguarded hspent h

/-! ## Minting and burning -/

/-- A trade that calls no hook. -/
theorem Course.of_trade {s d : Pubkey} {β β' : Book} (trades : c.instruction.trades = true)
    (h : Trade rt c s d none β β') : Course rt c β β' := .trade trades h .quiet

theorem processMintTo_course {x : UInt64} {variant : InstructionVariant} (hwf : c.σ.Wf)
    (htrades : c.instruction.trades = true) (hspends : Call.spendLayout c.instruction = none)
    (hstill : c.instruction.transfers = false)
    (h : processMintTo c.accounts x variant c.σ = .ok σ') :
    σ'.Wf ∧ Course rt c c.σ.book σ'.book := by
  unfold processMintTo at h
  split at h
  · rename_i mintInfo destinationInfo ownerInfo signers haccounts
    simp only [loadBeside, checkProgramAccount, bind_eq_ok, exists_unit, failIf_eq_ok,
      bne_eq_false_iff_eq, beq_eq_false_iff_ne, isPaused_eq, PodState.hasExtension_eq,
      Option.isSome_eq_false_iff, Option.isNone_iff_eq_none, okOr_eq_ok,
      checkedAdd_eq_some] at h
    obtain ⟨s, hload, hthawed, hnative, hkey, m, ⟨hne, hmint⟩, _, hrunning, hopenly, _, authority,
      hauthority, _, howner', howner, a, ha, supply, hsupply, σ₁, h₁, h⟩ := h
    obtain ⟨hswf, _⟩ := hwf.load howner hload
    obtain ⟨hmwf, hvalid⟩ := hwf.load howner' hmint
    obtain ⟨hwf', hbook⟩ := store_two hwf hne howner howner' hload hmint h₁ h
      ((PodState.Stored.refl hswf).withBase _) ((PodState.Stored.refl hmwf).withBase _)
      (packed_of_load hload).initialized (packed_of_load hmint).initialized trivial hvalid
    refine ⟨hwf', hbook ▸ .of_trade htrades
        (.mintTo (by rw [Call.key?, haccounts]; rfl) hspends hstill
      (contents_of_load howner hload)
      hkey.symm (contents_of_load howner' hmint) ?_ hopenly hrunning hnative hthawed ha hsupply rfl
      rfl (.refl _) ?_)⟩
    · show m.base.mintAuthority.toOption ≠ none
      rw [hauthority]
      exact Option.some_ne_none _
    · refine View.keeps_withBase (fun hnone => ?_) id
      rw [PodState.base_view, hauthority] at hnone
      cases hnone
  · cases h

/-- Who stood behind a burn. -/
theorem burnAuthority_ok {authorityInfo : AccountInfo} {signers : List AccountInfo}
    {delegate : Option Pubkey} {base : PodAccount} {v : View PodAccount} {x : UInt64}
    (ha : authorityInfo ∈ c.accounts) (hs : signers.Sublist c.accounts) (hburn : c.isBurn = true)
    (hauthority : c.authority = some authorityInfo.key) (hdelegate : c.permanentDelegate = delegate)
    (hread : ∀ d, delegate = some d → ∃ m, load c.σ PodMint v.base.mint = .ok m ∧
      getPermanentDelegate m = some d)
    (h : burnAuthority c.σ v.base authorityInfo signers delegate x = .ok base) :
    ∃ p q, base = { v.base with delegate := p, delegatedAmount := q } ∧ c.SpentBy v x p q := by
  rw [burnAuthority] at h
  split at h
  · rename_i hown
    obtain rfl := Except.ok.inj h
    exact ⟨_, _, rfl, .ownerless hburn hown⟩
  · rename_i hown
    exact transferAuthority_ok ha hs hauthority hdelegate hread (fun _ => by simpa using hown) h

theorem processBurn_course {x : UInt64} {variant : InstructionVariant} (hwf : c.σ.Wf)
    (htrades : c.instruction.trades = true) (hburn : c.isBurn = true)
    (hlayout : Call.spendLayout c.instruction = some (some 1, 2))
    (h : processBurn c.ctx c.accounts x variant c.σ = .ok σ') :
    σ'.Wf ∧ Course rt c c.σ.book σ'.book := by
  unfold processBurn at h
  split at h
  · rename_i sourceInfo mintInfo authorityInfo signers haccounts
    simp only [loadBeside, checkProgramAccount, bind_eq_ok, exists_unit, failIf_eq_ok,
      bne_eq_false_iff_eq, beq_eq_false_iff_ne, isPaused_eq, cpiGuardLocked_eq, okOr_eq_ok,
      checkedSub_eq_some] at h
    obtain ⟨s, hload, m, ⟨hne, hmint⟩, hthawed, hnative, _, hkey, _, hrunning, hguard, base, hby,
      howner, howner', a, ha, supply, hsupply, σ₁, h₁, h⟩ := h
    have hclose : c.instruction ≠ .closeAccount := by
      intro he
      rw [he] at hlayout
      cases hlayout
    have hauthority : c.authority = some authorityInfo.key := by
      unfold Call.authority
      split
      · exact absurd ‹_› hclose
      · rw [hlayout, Option.bind_some, Call.key?, haccounts]
        rfl
    have hdelegate : c.permanentDelegate = getPermanentDelegate m := by
      unfold Call.permanentDelegate Call.key?
      rw [hlayout, haccounts]
      show (toOption (load c.σ PodMint mintInfo.key)).bind getPermanentDelegate = _
      rw [hmint]
      rfl
    have hmem : ∀ info, info ∈ [sourceInfo, mintInfo, authorityInfo] → info ∈ c.accounts := by
      intro info hinfo
      rw [haccounts]
      exact List.mem_append_left signers hinfo
    have hsigners : signers.Sublist c.accounts := haccounts ▸ .cons _ (.cons _ (.cons _ (.refl _)))
    obtain ⟨p, q, rfl, hspent⟩ := burnAuthority_ok (v := s.view) (hmem _ (by simp)) hsigners hburn
      hauthority hdelegate (fun d hd => ⟨m, hkey ▸ hmint, hd⟩) hby
    obtain ⟨hswf, _⟩ := hwf.load howner hload
    obtain ⟨hmwf, hvalid⟩ := hwf.load howner' hmint
    obtain ⟨hwf', hbook⟩ := store_two hwf hne howner howner' hload hmint h₁ h
      ((PodState.Stored.refl hswf).withBase _) ((PodState.Stored.refl hmwf).withBase _)
      (packed_of_load hload).initialized (packed_of_load hmint).initialized trivial hvalid
    refine ⟨hwf', hbook ▸ .of_trade htrades (.burn (by rw [Call.key?, haccounts]; rfl) hburn
      (contents_of_load howner hload) hkey.symm (contents_of_load howner' hmint) hrunning hnative
      hthawed ?_ hspent ha hsupply rfl rfl (.refl _) ?_)⟩
    · intro hlocked hcpi
      refine ⟨_, hauthority, fun he => ?_⟩
      simp [hlocked, hcpi, he] at hguard
    · refine View.keeps_withBase (fun hnone => ⟨hnone, UInt64.le_iff_toNat_le.mpr ?_⟩) id
      exact hsupply ▸ Nat.le_add_right _ _
  · cases h

end Handlers

end SolanaEasy.Token
