import SolanaEasy.Token.Run

/-!
# Transfer hooks — the flag that says a transfer is under way

No account carries the flag between instructions. The program that a transfer calls
sees it on the two parties and nowhere else, sees every balance as it will be, and
afterwards the flags are gone and nothing else has changed.
-/

namespace SolanaEasy.Token

open Processor

section Flag

variable {rt : Runtime} {c : Call} {β : Book} {k : Pubkey} {v v' : View PodAccount}

@[simp] theorem View.transferring_flag (v : View PodAccount) (b : Bool) :
    (v.flag b).transferring = b := by
  rw [← View.transferring_core, View.core_flag]

theorem Effect.transferring_eq (h : Effect rt c β k v v') : v'.transferring = v.transferring := by
  cases h <;> rename_i core <;> exact (congrArg Core.transferring core :)

theorem Exchange.transferring_eq (h : Exchange rt c v v') : v'.transferring = v.transferring := by
  cases h <;> rename_i core <;> exact (congrArg Core.transferring core :)

theorem link_transferring (allow : Call → Prop) :
    Link rt allow fun v _ => v.transferring = false := by
  apply Link.of_account
  · intro c β k v _ h
    cases h with
    | openAccount _ _ _ _ core => exact (congrArg Core.transferring core :)
  · exact fun _ h hr => h.transferring_eq.trans hr
  · exact fun _ h hr => h.transferring_eq.trans hr
  · exact fun _ => View.transferring_flag _ _

/-- A ledger shown to a transfer hook between `s` and `d`, and the ledger after the
instruction: the flags are raised exactly on the two parties, and afterwards every account
and every mint is what it was then, but for the flags. -/
structure ShownToHook (c : Call) (s d : Pubkey) (τ σ' : Ledger) : Prop where
  run : ∃ τ', c.ctx.executeHook τ = .ok τ'
  source : ∃ v, τ.book.Account s v
  target : ∃ w, τ.book.Account d w
  raised : ∀ k v, τ.book.Account k v → (v.transferring = true ↔ k = s ∨ k = d)
  final : ∀ k v, τ.book.Account k v →
    σ'.book.Account k (if k = s ∨ k = d then v.flag false else v)
  mints : ∀ k m, τ.book.Mint k m → σ'.book.Mint k m

/-- Why no hook is called: the mint names none, the source was opened without the marker
for one, or a public transfer leads back to its source. -/
def HookFree (c : Call) (s d : Pubkey) : Prop :=
  s = d ∧ (Call.spendLayout c.instruction).isSome = true ∨
  ∃ v, c.σ.book.Account s v ∧ (v.get TransferHookAccount = none ∨
    ∃ m, load c.σ PodMint v.base.mint = .ok m ∧ m.view.hookProgram = none)

theorem Instruction.trades_of_transfers {i : Instruction} (h : i.transfers = true) :
    i.trades = true := by
  cases i with
  | transfer | transferChecked | transferCheckedWithFee | confidentialTransfer => rfl
  | _ => cases h

theorem Call.not_transfers (h : c.isBurn = true) : c.instruction.transfers = false := by
  unfold Call.isBurn at h
  cases hi : c.instruction <;> rw [hi] at h <;> first | rfl | cases h

theorem Consults.hookFree {s d : Pubkey} {v : View PodAccount} {x fee : UInt64}
    {hook : Option Pubkey} (source : c.σ.book.Account s v) (h : c.Consults v x fee hook)
    (hnone : hook = none) : HookFree c s d := by
  refine .inr ⟨v, source, ?_⟩
  cases h with
  | mint read => exact .inr ⟨_, read, hnone⟩
  | markers hook => exact .inl hook

/-- The parties of a transfer, and why its hook is missing if it is. -/
theorem Trade.parties {s d : Pubkey} {hook : Option Pubkey} {β' : Book}
    (h : Trade rt c s d hook c.σ.book β') (transfers : c.instruction.transfers = true) :
    c.key? 0 = some s ∧ c.key? c.instruction.destinationIndex = some d ∧
      (hook = none → HookFree c s d) := by
  cases h with
  | transfer head last ne spends notBurn source target mint consults =>
    exact ⟨head, last, Consults.hookFree source consults⟩
  | selfTransfer head last spends => exact ⟨head, last, fun _ => .inl ⟨rfl, spends⟩⟩
  | secretTransfer head last spends source at' mint =>
    refine ⟨head, last, fun hnone => .inr ⟨_, source, .inr ?_⟩⟩
    obtain ⟨howner, m, hm, rfl⟩ := Cell.contents_eq_mint.mp mint
    exact ⟨m, at' ▸ hm, hnone⟩
  | burn head isBurn =>
    rw [Call.not_transfers isBurn] at transfers
    cases transfers
  | deposit _ _ still | withdraw _ _ still | mintTo _ _ still | secretMint _ _ still
  | secretBurn _ _ still =>
    rw [still] at transfers
    cases transfers

/-- The hook of a trade, called with the flags raised. -/
theorem Hooked.shown {s d program : Pubkey} {σ' : Ledger}
    (clean : ∀ k v, β.Account k v → v.transferring = false)
    (h : Hooked c s d (some program) β σ'.book) : ∃ τ, ShownToHook c s d τ σ' := by
  generalize hβ' : σ'.book = β' at h
  cases h with
  | @called _ program v w τ τ' source target raised run =>
    have henv := (c.ctx.executeHook_envStep run).book
    have hparty : ∀ k, k ≠ s → k ≠ d → (τ.book k).contents = (β k).contents := by
      intro k hs hd
      rw [raised, Book.contents_put, Book.contents_put, if_neg hd, if_neg hs]
    have htarget : τ.book.Account d (w.flag true) := by
      rw [raised]
      exact Book.account_put ..
    have hsource : s ≠ d → τ.book.Account s (v.flag true) := by
      intro hne
      rw [raised]
      exact (Book.account_put ..).put_of_ne _ hne
    refine ⟨τ, ⟨τ', run⟩, ?_, ⟨_, htarget⟩, ?_, ?_, ?_⟩
    · by_cases hsd : s = d
      · exact hsd ▸ ⟨_, htarget⟩
      · exact ⟨_, hsource hsd⟩
    · intro k u hu
      by_cases hd : k = d
      · subst hd
        obtain rfl := hu.unique htarget
        simp
      · by_cases hs : k = s
        · subst hs
          obtain rfl := hu.unique (hsource hd)
          simp
        · rw [Book.Account, hparty k hs hd] at hu
          simp [clean k u hu, hs, hd]
    · intro k u hu
      rw [hβ']
      by_cases hd : k = d
      · subst hd
        obtain rfl := hu.unique htarget
        rw [if_pos (.inr rfl), View.flag_flag]
        exact Book.account_put ..
      · by_cases hs : k = s
        · subst hs
          obtain rfl := hu.unique (hsource hd)
          rw [if_pos (.inl rfl), View.flag_flag]
          exact (Book.account_put ..).put_of_ne _ hd
        · rw [if_neg (by simp [hs, hd])]
          exact ((henv.account hu).put_of_ne _ hs).put_of_ne _ hd
    · intro k m hm
      rw [hβ']
      have hs : k ≠ s := by
        rintro rfl
        by_cases hkd : k = d
        · exact (hkd ▸ htarget).not_mint hm
        · exact (hsource hkd).not_mint hm
      have hd : k ≠ d := by
        rintro rfl
        exact htarget.not_mint hm
      exact ((henv.mint hm).put_of_ne _ hs).put_of_ne _ hd

end Flag

/-- Between instructions nothing is being transferred; during the call of a hook exactly
the two parties are, and everything is already as it will be afterwards. -/
theorem transfer_hook_protocol {rt : Runtime} {c : Call} {σ' : Ledger}
    (h : Reachable rt (fun _ => True) c.σ) (hrun : c.run rt = .ok σ') :
    (∀ k v, c.σ.book.Account k v → v.transferring = false) ∧
    (∀ k v, σ'.book.Account k v → v.transferring = false) ∧
    (c.instruction.transfers = true → ∃ s d, c.key? 0 = some s ∧
      c.key? c.instruction.destinationIndex = some d ∧
        (HookFree c s d ∨ ∃ τ, ShownToHook c s d τ σ')) := by
  have hlink : Link rt (fun _ => True) fun v _ => v.transferring = false := link_transferring _
  have hbefore : c.σ.book.Linked fun v _ => v.transferring = false := hlink.reachable h
  have hcourse := (run_course h.wf hrun).2
  have hafter := hlink.preserved.course trivial h.wf hbefore hcourse
  refine ⟨hbefore, hafter, fun htransfers => ?_⟩
  cases hcourse with
  | moves other =>
    rw [Instruction.trades_of_transfers htransfers] at other
    cases other
  | @trade s d hook _ β₁ _ trades htrade rest =>
    obtain ⟨head, last, hnone⟩ := htrade.parties htransfers
    refine ⟨s, d, head, last, ?_⟩
    cases hook with
    | none => exact .inl (hnone rfl)
    | some program =>
      -- the trade itself raises no flag
      exact .inr (rest.shown (hlink.preserved.trade trivial h.wf hbefore htrade))

/-- Two holders of a token with the hook program `9`. -/
def hookLedger : Ledger :=
  scripted (.modular 2)
    [(.plain, [⟨1, false⟩], .initializeTransferHook ⟨0⟩ ⟨9⟩),
     (.plain, [⟨1, false⟩], .initializeMint2 6 5 none),
     (.plain, [⟨2, false⟩, ⟨1, false⟩], .initializeAccount3 7),
     (.plain, [⟨3, false⟩, ⟨1, false⟩], .initializeAccount3 8),
     (.plain, [⟨1, false⟩, ⟨2, false⟩, ⟨5, true⟩], .mintTo 100)]
    (blank [(1, 234), (2, 171), (3, 171)])

def hookCall : Call :=
  ⟨.plain, [⟨2, false⟩, ⟨1, false⟩, ⟨3, false⟩, ⟨7, true⟩], .transferChecked 40 6,
    hookLedger⟩

theorem transfer_hook_scripted :
    ∃ σ', hookCall.run (.modular 2) = .ok σ' ∧ ∃ τ, ShownToHook hookCall 2 3 τ σ' := by
  have hreach : Reachable (.modular 2) (fun _ => True) hookLedger :=
    .scripted (by decide) (fun _ _ _ => trivial) (by decide +kernel)
  have hrun : hookCall.run (.modular 2) = .ok (hookCall.after (.modular 2)) :=
    hookCall.run_after (by decide +kernel)
  have htransfers : hookCall.instruction.transfers = true := rfl
  have hstart : hookCall.σ = hookLedger := by rw [hookCall]
  obtain ⟨s, d, head, last, hshown⟩ :=
    (transfer_hook_protocol (c := hookCall) (hstart ▸ hreach) hrun).2.2 htransfers
  obtain rfl : s = 2 := (Option.some.inj head).symm
  obtain rfl : d = 3 := (Option.some.inj last).symm
  refine ⟨_, hrun, hshown.resolve_left ?_⟩
  obtain ⟨v, hv, hp⟩ := exists_account hookLedger 2
    (fun v => decide (v.base.mint = 1 ∧ v.get TransferHookAccount ≠ none)) (by decide +kernel)
    (by decide +kernel)
  obtain ⟨hmint, hmarked⟩ := of_decide_eq_true hp
  have hprogram : (toOption (load hookLedger PodMint 1)).all
      (fun m => decide (m.view.hookProgram ≠ none)) = true := by decide +kernel
  rw [HookFree, hstart]
  rintro (⟨hsame, _⟩ | ⟨w, hw, hfree | ⟨m, hm, hfree⟩⟩)
  · exact absurd hsame (by decide)
  · obtain rfl := hw.unique hv
    exact hmarked hfree
  · obtain rfl := hw.unique hv
    rw [hmint] at hm
    rw [toOption_eq_some.mpr hm] at hprogram
    exact of_decide_eq_true hprogram hfree

end SolanaEasy.Token
