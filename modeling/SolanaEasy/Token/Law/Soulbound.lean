import SolanaEasy.Token.Law.Authorities
import SolanaEasy.Token.Law.Markers
import SolanaEasy.Token.Law.NoWrap

/-!
# Soulbound — tokens that cannot be transferred

Accounts of a mint with `NonTransferable` are opened with the two markers that it asks for.
The one keeps every trade between two accounts away from them, the other keeps their owner.
All that is left are trades of one account alone, and moves, which take from nobody.
-/

namespace SolanaEasy.Token

open Processor

/-! ## Balances -/

section Balances

variable {l : ℕ} {rt : Runtime} {R : Reading l rt} {f : PodElGamalPubkey} {M : Pubkey}
  {β : Book} {k : Pubkey} {v : View PodAccount}

/-- What is held there in the open. -/
def Contents.openBalance : Contents → ℕ
  | .account v => v.base.amount.toNat
  | _ => 0

/-- What is hidden there, pending and available. -/
def Contents.hiddenBalance (R : Reading l rt) : Contents → ℕ
  | .account v => (v.core.secret.map fun e => (R.pending e).val + (R.available e).val).getD 0
  | _ => 0

/-- Less is held there, in the open or hidden. -/
def Reading.Decreases (R : Reading l rt) (x y : Contents) : Prop :=
  y.openBalance < x.openBalance ∨ y.hiddenBalance R < x.hiddenBalance R

def Reading.Increases (R : Reading l rt) (x y : Contents) : Prop := R.Decreases y x

theorem Reading.not_decreases {x y : Contents} (h : x.openBalance ≤ y.openBalance)
    (h' : x.hiddenBalance R ≤ y.hiddenBalance R) : ¬ R.Decreases x y := by
  rintro (hlt | hlt)
  · omega
  · omega

/-- A transfer flag is no balance. -/
theorem Lowered.openBalance_eq {x y : Contents} (h : Lowered x y) :
    y.openBalance = x.openBalance := by
  cases h <;> rfl

theorem Lowered.hiddenBalance_eq {x y : Contents} (h : Lowered x y) :
    y.hiddenBalance R = x.hiddenBalance R := by
  cases h with
  | same => rfl
  | @account v =>
    have hsecret : (v.flag false).core.secret = v.core.secret :=
      (congrArg Core.secret (v.core_flag false) :)
    rw [Contents.hiddenBalance, Contents.hiddenBalance, hsecret]

theorem Core.hidden_holding (a : Core) : (a.holding R f).hidden =
    (a.secret.map fun e => (R.pending e).val + (R.available e).val).getD 0 := by
  cases hs : a.secret with
  | none => simp [Holding.hidden, Core.holding, Core.secrets, hs]
  | some e =>
    rw [Holding.hidden, Core.pending_holding f hs, Core.available_holding f hs]
    rfl

/-- The register of a mint knows the balances of its accounts. -/
theorem Book.openAt_register (held : β.Account k v) (hM : v.base.mint = M) :
    (β.register R f M).openAt k = (β k).contents.openBalance := by
  rw [Register.openAt, holding_register held hM, show (β k).contents = _ from held]
  rfl

theorem Book.hiddenAt_register (held : β.Account k v) (hM : v.base.mint = M) :
    (β.register R f M).hiddenAt k = (β k).contents.hiddenBalance R := by
  rw [Register.hiddenAt, holding_register held hM, show (β k).contents = _ from held,
    Option.map_some, Option.getD_some, Core.hidden_holding]
  rfl

theorem Book.at_register_le (β : Book) (k : Pubkey) :
    (β.register R f M).openAt k ≤ (β k).contents.openBalance ∧
      (β.register R f M).hiddenAt k ≤ (β k).contents.hiddenBalance R := by
  by_cases hmine : ∃ v, β.Account k v ∧ v.base.mint = M
  · obtain ⟨v, held, hM⟩ := hmine
    exact ⟨(openAt_register held hM).le, (hiddenAt_register held hM).le⟩
  · have hnone : (β.register R f M).holding k = none := by
      cases hx : (β k).contents with
      | other => exact holding_register_of_other hx
      | account v => exact holding_register_of_ne hx fun hM => hmine ⟨v, hx, hM⟩
      | mint m =>
        show (β k).contents.holding R f M = none
        rw [hx]
        rfl
    rw [Register.openAt, Register.hiddenAt, hnone]
    exact ⟨Nat.zero_le _, Nat.zero_le _⟩

end Balances

/-! ## Moves take from nobody -/

section Steps

variable {l : ℕ} {rt : Runtime} {R : Reading l rt} {M : Pubkey} {c : Call} {β β' : Book}
  {k : Pubkey} {v : View PodAccount}

theorem Moves.not_decreases [NeZero l] (hl : 2 ^ 65 - 1 ≤ l) (hne : M ≠ Keys.nativeMint)
    (hreach : Reachable rt (fun c => ¬ c.Closes M ∧ R.Sound c.ctx c.σ) c.σ) (hc : ¬ c.Closes M)
    (hR : R.Sound c.ctx c.σ) (h : Moves rt c c.σ.book β') (held : c.σ.book.Account k v)
    (hM : v.base.mint = M) : ¬ R.Decreases (c.σ.book k).contents (β' k).contents := by
  have hlinked : c.σ.book.Linked (Tagged M) := ((link_native _).and
    (link_veiled fun _ (hc : ¬ _ ∧ _) => hc.1)).reachable hreach
  obtain ⟨f, hf⟩ := β'.exists_feeKey M
  obtain ⟨hfits, hidles⟩ := h.idles (P := True) hne hc hR hreach.wf hlinked
    ⟨hf, fun _ _ _ => trivial⟩
  have hwhole := (hreach.registered hne f True hfits).whole hl Register.empty_whole
  have hgains := hidles.gains hl hwhole
  obtain ⟨hopenly, hhidden⟩ := β'.at_register_le (R := R) (f := f) (M := M) k
  apply Reading.not_decreases
  · rw [← Book.openAt_register (R := R) (f := f) held hM]
    exact (hgains.openly k).trans hopenly
  · rw [← Book.hiddenAt_register (f := f) held hM]
    exact (hgains.hidden k).trans hhidden

/-! ## Trades of one account -/

/-- A trade between two accounts asks the source whether its tokens can be moved. -/
theorem Trade.movable {s d : Pubkey} {hook : Option Pubkey} (h : Trade rt c s d hook β β')
    (hsd : s ≠ d) : ∃ v w, β.Account s v ∧ β.Account d w ∧ w.base.mint = v.base.mint ∧
      v.get NonTransferableAccount = none := by
  cases h with
  | transfer head last ne spends notBurn source target mint consults movable =>
    exact ⟨_, _, source, target, mint, movable⟩
  | secretTransfer head last spends source at' mint running movable thawed endorsed unguarded
      secret core target same =>
    rw [Book.Account, Book.contents_put, if_neg (Ne.symm hsd)] at target
    exact ⟨_, _, source, target, same.trans at'.symm, movable⟩
  | selfTransfer | burn | deposit | withdraw | mintTo | secretMint | secretBurn =>
    exact absurd rfl hsd

/-- A trade leaves the balances of everyone who is no party to it. -/
theorem Deal.bystander {s d : Pubkey} {x y : Contents} (h : Deal rt c s d k x y)
    (hparty : ¬ (k = s ∨ k = d)) :
    y.openBalance = x.openBalance ∧ y.hiddenBalance R = x.hiddenBalance R := by
  cases h with
  | same => exact ⟨rfl, rfl⟩
  | account party => exact absurd party hparty
  | mint => exact ⟨rfl, rfl⟩

/-- Nor does the hook that is called. -/
theorem Trade.bystander {s d : Pubkey} {hook : Option Pubkey} {β₁ : Book}
    (h : Trade rt c s d hook β β₁) (rest : Hooked c s d hook β₁ β') (hparty : ¬ (k = s ∨ k = d)) :
    ¬ R.Decreases (β k).contents (β' k).contents ∧
      ¬ R.Increases (β k).contents (β' k).contents := by
  obtain ⟨hopenly, hhidden⟩ := (h.deal k).bystander (R := R) hparty
  have hlowered := rest.lowered k
  rw [← hlowered.openBalance_eq] at hopenly
  rw [← hlowered.hiddenBalance_eq] at hhidden
  exact ⟨Reading.not_decreases hopenly.ge hhidden.ge, Reading.not_decreases hopenly.le hhidden.le⟩

/-- What an account of a mint with `NonTransferable` carries. -/
theorem View.Demands.soulbound {m : View PodMint} (h : m.Demands v)
    (hsome : (m.ext .nonTransferable).isSome = true) :
    (v.ext .nonTransferableAccount).isSome = true ∧ (v.ext .immutableOwner).isSome = true :=
  ⟨h _ hsome _ (by decide), h _ hsome _ (by decide)⟩

variable {m : View PodMint}

/-- Every trade that an account of such a mint is a party to is a trade of this account alone. -/
theorem Trade.alone {s d : Pubkey} {hook : Option Pubkey} (hwf : c.σ.Wf)
    (hattached : c.σ.book.Linked (Attached M)) (mint : c.σ.book.Mint M m)
    (hsome : (m.ext .nonTransferable).isSome = true) (h : Trade rt c s d hook c.σ.book β')
    (held : c.σ.book.Account k v) (hM : v.base.mint = M) (party : k = s ∨ k = d) : s = d := by
  by_contra hsd
  obtain ⟨u, w, source, target, same, movable⟩ := h.movable hsd
  have hmint : u.base.mint = M := by
    rcases party with rfl | rfl
    · obtain rfl := source.unique held
      exact hM
    · obtain rfl := target.unique held
      exact same.symm.trans hM
  obtain ⟨n, hn, hdemands⟩ := hattached s u source hmint
  obtain rfl := Book.Mint.unique (hmint ▸ hn) mint
  have hmarked := (hdemands.soulbound hsome).1
  have hnone : u.ext .nonTransferableAccount = none := hwf.ext_eq_none source rfl movable
  rw [hnone] at hmarked
  cases hmarked

theorem Course.soulbound [NeZero l] (hl : 2 ^ 65 - 1 ≤ l)
    (hreach : Reachable rt (fun c => ¬ c.Closes M ∧ R.Sound c.ctx c.σ) c.σ)
    (mint : c.σ.book.Mint M m) (hsome : (m.ext .nonTransferable).isSome = true)
    (hc : ¬ c.Closes M) (hR : R.Sound c.ctx c.σ) (h : Course rt c c.σ.book β')
    (held : c.σ.book.Account k v) (hM : v.base.mint = M)
    (hless : R.Decreases (c.σ.book k).contents (β' k).contents) {j : Pubkey} (hj : j ≠ k) :
    ¬ R.Increases (c.σ.book j).contents (β' j).contents := by
  cases h with
  | moves other h =>
    have hne := hreach.ne_nativeMint_of_ext mint hsome
    exact absurd hless (h.not_decreases hl hne hreach hc hR held hM)
  | @trade s d hook _ β₁ _ trades h rest =>
    have hattached := (link_attached fun _ (hc : ¬ _ ∧ _) => hc.1).reachable hreach
    have hparty : k = s ∨ k = d := by
      by_contra hparty
      exact (h.bystander rest hparty).1 hless
    obtain rfl := h.alone hreach.wf hattached mint hsome held hM hparty
    have hk : k = s := hparty.elim id id
    exact (h.bystander rest fun hs => hj ((hs.elim id id).trans hk.symm)).2

end Steps

/-! ## A badge

A mint at `1` whose tokens cannot be transferred, with accounts at `2` and `3`. -/

section Badge

def badgeSteps : List (List ProofInstruction × List AccountInfo × Instruction) :=
  [([], [⟨1, false⟩], .initializeNonTransferableMint),
   ([], [⟨1, false⟩], .initializeMint2 6 5 none),
   ([], [⟨2, false⟩, ⟨1, false⟩], .initializeAccount3 7),
   ([], [⟨3, false⟩, ⟨1, false⟩], .initializeAccount3 8),
   ([], [⟨1, false⟩, ⟨2, false⟩, ⟨5, true⟩], .mintTo 900)]

def badgeBurn (σ : Ledger) : Call :=
  ⟨.showing [], [⟨2, false⟩, ⟨1, false⟩, ⟨7, true⟩], .burn 400, σ⟩

theorem honest_badgeSteps : ∀ p ∈ badgeSteps, openReading.HonestStep p := by
  intro p hp
  simp only [badgeSteps, List.mem_cons, List.not_mem_nil, or_false] at hp
  rcases hp with rfl | rfl | rfl | rfl | rfl <;> exact ⟨Instruction.noConfusion, by simp⟩

theorem badge_runs : (honestScript (.modular ristrettoOrder) badgeSteps
    (blank [(1, 170), (2, 174), (3, 174)])).any (fun σ =>
      σ.checksMint 1 (fun m => decide ((m.get NonTransferable).isSome = true)) &&
      σ.checksAccount 2 (fun v => decide (v.base.mint = 1 ∧ v.base.owner = 7 ∧
        v.base.amount = 900)) &&
      ((toOption ((badgeBurn σ).run (.modular ristrettoOrder))).any fun σ' =>
        σ'.checksAccount 2 fun v => decide (v.base.amount = 500))) = true := by
  decide +kernel

end Badge

/-- Tokens of a mint with `NonTransferable` stay where they are: an instruction that takes from
one of its accounts, in the open or hidden, gives to no other account, and the owner of the
account never changes. -/
theorem nonTransferable_soulbound {l : ℕ} [NeZero l] {rt : Runtime} {R : Reading l rt}
    {M : Pubkey} {σ : Ledger} {m : View PodMint} (hl : 2 ^ 65 - 1 ≤ l)
    (h : Reachable rt (fun c => ¬ c.Closes M ∧ R.Sound c.ctx c.σ) σ) (held : σ.book.Mint M m)
    (hsome : (m.get NonTransferable).isSome = true) :
    (∀ (c : Call) (σ' : Ledger), c.σ = σ → ¬ c.Closes M → R.Sound c.ctx c.σ →
      c.run rt = .ok σ' → ∀ k v, σ.book.Account k v → v.base.mint = M →
      R.Decreases (σ.book k).contents (σ'.book k).contents → ∀ j, j ≠ k →
      ¬ R.Increases (σ.book j).contents (σ'.book j).contents) ∧
    ∀ k v, σ.book.Account k v → v.base.mint = M → ∀ σ', Run rt (fun c => ¬ c.Closes k) σ σ' →
      ∃ v', σ'.book.Account k v' ∧ v'.base.owner = v.base.owner := by
  obtain ⟨x, hx⟩ := Option.isSome_iff_exists.mp hsome
  have hext := View.ext_isSome_of_get hx
  refine ⟨?_, fun k v hv hM σ' hrun => ?_⟩
  · rintro c σ' rfl hc hR hrun k v hv hM hless j hj
    exact (run_course h.wf hrun).2.soulbound hl h held hext hc hR hv hM hless hj
  · have hattached := (link_attached fun _ (hc : ¬ _ ∧ _) => hc.1).reachable h
    obtain ⟨n, hn, hdemands⟩ := hattached k v hv hM
    obtain rfl := Book.Mint.unique (hM ▸ hn) held
    obtain ⟨v', hv', hsame⟩ := Run.account (P := SameOwner) (fun _ _ => respects_sameOwner)
      (fun _ _ may _ => may) h.wf hv (.refl v) .trans hrun
    exact ⟨v', hv', (hsame (hdemands.soulbound hext).2).2⟩

/-- The owner burns some of its tokens, and nobody else has more. -/
theorem nonTransferable_soulbound_badge : ∃ σ σ' : Ledger,
    (badgeBurn σ).run (.modular ristrettoOrder) = .ok σ' ∧
    openReading.Decreases (σ.book 2).contents (σ'.book 2).contents ∧
    (∀ j, j ≠ 2 → ¬ openReading.Increases (σ.book j).contents (σ'.book j).contents) ∧
    ∃ v, σ'.book.Account 2 v ∧ v.base.owner = 7 := by
  obtain ⟨hreach, hend, hchecks⟩ := Reachable.honest_sound (M := 1) (by decide) honest_badgeSteps
    badge_runs
  generalize honestLedger _ _ _ = σ at *
  rw [Bool.and_eq_true, Bool.and_eq_true] at hchecks
  obtain ⟨⟨hmint, haccount⟩, hburn⟩ := hchecks
  obtain ⟨m, held, hm⟩ := exists_of_checksMint hmint
  obtain ⟨v, hv, hp⟩ := exists_of_checksAccount haccount
  obtain ⟨hM, howner, hamount⟩ := of_decide_eq_true hp
  obtain ⟨σ', hσ', hafter⟩ := (Option.any_eq_true _ _).mp hburn
  obtain ⟨w, hw, hq⟩ := exists_of_checksAccount hafter
  have hrun := toOption_eq_some.mp hσ'
  have hless : openReading.Decreases (σ.book 2).contents (σ'.book 2).contents := by
    left
    rw [show (σ.book 2).contents = _ from hv, show (σ'.book 2).contents = _ from hw,
      Contents.openBalance, Contents.openBalance, hamount, of_decide_eq_true hq]
    decide
  have hcloses : ∀ k, ¬ (badgeBurn σ).Closes k := fun k hc => nomatch hc.2
  have hsound : openReading.Sound (badgeBurn σ).ctx σ := Reading.sound_of_honest (by simp) hend
  obtain ⟨hkept, howned⟩ := nonTransferable_soulbound le_ristrettoOrder hreach held
    (of_decide_eq_true hm)
  obtain ⟨v', hv', howner'⟩ := howned 2 v hv hM σ' (.single (.call (hcloses 2) hrun))
  exact ⟨σ, σ', hrun, hless, hkept _ σ' rfl (hcloses 1) hsound hrun 2 v hv hM hless,
    v', hv', howner'.trans howner⟩

end SolanaEasy.Token
