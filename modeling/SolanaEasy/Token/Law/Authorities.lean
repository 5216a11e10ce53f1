import SolanaEasy.Token.Run
import SolanaEasy.Token.Confidential.Reading

/-!
# Authorities — what is given up stays given up

Over every run in which a mint is not closed, an authority that is gone stays gone and
what it decided stays as it was; without a mint authority no supply grows. The owner of
an account with `ImmutableOwner` is its owner until the account is closed.
-/

namespace SolanaEasy.Token

open Processor

section Settled

variable {rt : Runtime} {c : Call} {σ σ' : Ledger} {k M : Pubkey}

theorem respects_settled : MintRespects rt c M View.Settled where
  refl := View.Settled.refl
  trans := View.Settled.trans
  effect _ keeps := keeps.settled
  exchange _ keeps := keeps.settled

/-- An account whose owner cannot change keeps its owner. -/
def SameOwner (v v' : View PodAccount) : Prop :=
  (v.ext .immutableOwner).isSome = true →
    (v'.ext .immutableOwner).isSome = true ∧ v'.base.owner = v.base.owner

theorem SameOwner.of_grows {v v' : View PodAccount} (grows : v.Grows v')
    (h : v'.base.owner = v.base.owner) : SameOwner v v' := fun hext => ⟨grows _ hext, h⟩

/-- The one effect that changes an owner asks for the extension to be missing. -/
theorem Effect.sameOwner {β : Book} {v v' : View PodAccount} (h : Effect rt c β k v v')
    (grows : v.Grows v') : SameOwner v v' := by
  cases h with
  | owner resets thawed unlocked mutable core =>
    intro hext
    rw [mutable] at hext
    cases hext
  | quiet core | allowance _ _ _ _ core | closer _ _ core | state _ _ _ core | lock _ _ core
  | native _ _ _ core | configure _ _ _ _ _ _ core | setting _ core | emptied _ _ _ core
  | apply _ _ _ _ core | harvest core | collect _ _ _ core | secretHarvest _ core
  | secretCollect _ _ _ _ _ core =>
    exact .of_grows grows (congrArg (fun a : Core => a.base.owner) core)

theorem Exchange.owner_eq {v v' : View PodAccount} (h : Exchange rt c v v') :
    v'.base.owner = v.base.owner := by
  cases h <;> rename_i core <;> exact congrArg (fun a : Core => a.base.owner) core

theorem SameOwner.refl (v : View PodAccount) : SameOwner v v := .of_grows (.refl v) rfl

theorem SameOwner.trans {u v w : View PodAccount} (h : SameOwner u v) (h' : SameOwner v w) :
    SameOwner u w := by
  intro hext
  obtain ⟨hext', howner⟩ := h hext
  obtain ⟨hext'', howner'⟩ := h' hext'
  exact ⟨hext'', howner'.trans howner⟩

theorem respects_sameOwner : Respects rt c k SameOwner where
  refl := SameOwner.refl
  trans := SameOwner.trans
  effect h grows := h.sameOwner grows
  exchange h grows := .of_grows grows h.owner_eq
  flag v := .of_grows (v.grows_set _) rfl

end Settled

/-- The plaintext of the confidential supply. -/
def Reading.confidentialSupply {l : ℕ} {rt : Runtime} (R : Reading l rt) (m : View PodMint) :
    Option (ZMod l) :=
  (m.get ConfidentialMintBurn).map fun e => R.pt e.supplyElgamalPubkey e.confidentialSupply

theorem View.Settled.confidentialSupply {l : ℕ} {rt : Runtime} (R : Reading l rt)
    {m m' : View PodMint} (h : m.Settled m') (hnone : m.authority .mintTokens = none) :
    R.confidentialSupply m' = R.confidentialSupply m := by
  have hsame := congrArg (Option.map fun p => R.pt p.1 p.2.1) (h _ hnone).2.2
  rw [Option.map_map, Option.map_map] at hsame
  exact hsame

/-- From any reachable state on: an authority of the mint that is gone stays gone, its
settings stay as they are, without a mint authority neither supply grows, and an account
that says so keeps its owner. -/
theorem authority_settled {rt : Runtime} {σ σ' : Ledger}
    (hreach : Reachable rt (fun _ => True) σ) :
    (∀ M m, σ.book.Mint M m → Run rt (fun c => ¬ c.Closes M) σ σ' → ∃ m', σ'.book.Mint M m' ∧
      (∀ a : AuthorityType, m.authority a = none →
        m'.authority a = none ∧ m.SameSetting m' a) ∧
      (m.authority .mintTokens = none → m'.base.supply ≤ m.base.supply ∧
        ∀ l (R : Reading l rt), R.confidentialSupply m' = R.confidentialSupply m)) ∧
    ∀ k v, σ.book.Account k v → (v.ext .immutableOwner).isSome = true →
      Run rt (fun c => ¬ c.Closes k) σ σ' →
      ∃ v', σ'.book.Account k v' ∧ v'.base.owner = v.base.owner := by
  refine ⟨fun M m held hrun => ?_, fun k v held himmutable hrun => ?_⟩
  · obtain ⟨m', held', hsettled⟩ := Run.mint (P := View.Settled) (fun _ _ => respects_settled)
      (fun _ _ may _ => may) hreach.wf held (.refl m) .trans hrun
    refine ⟨m', held', hsettled, fun hnone => ⟨(hsettled _ hnone).2.1, fun l R => ?_⟩⟩
    exact hsettled.confidentialSupply R hnone
  · obtain ⟨v', held', hsame⟩ := Run.account (P := SameOwner) (fun _ _ => respects_sameOwner)
      (fun _ _ may _ => may) hreach.wf held (.refl v) .trans hrun
    exact ⟨v', held', (hsame himmutable).2⟩

/-- A mint whose authority is given up, and an account of it that belongs to `7` for good. -/
def settledScript : List (Context × List AccountInfo × Instruction) :=
  [(.plain, [⟨1, false⟩], .initializeMint2 6 5 none),
   (.plain, [⟨2, false⟩], .initializeImmutableOwner),
   (.plain, [⟨2, false⟩, ⟨1, false⟩], .initializeAccount3 7),
   (.plain, [⟨1, false⟩, ⟨2, false⟩, ⟨5, true⟩], .mintTo 100),
   (.plain, [⟨1, false⟩, ⟨5, true⟩], .setAuthority .mintTokens none)]

/-- The owner approves a delegate and burns some tokens. -/
def settledRun : List (Context × List AccountInfo × Instruction) :=
  [(.plain, [⟨2, false⟩, ⟨8, false⟩, ⟨7, true⟩], .approve 30),
   (.plain, [⟨2, false⟩, ⟨1, false⟩, ⟨7, true⟩], .burn 40)]

theorem authority_settled_scripted :
    let σ := scripted (.modular 2) settledScript (blank [(1, 82), (2, 170)])
    let σ' := scripted (.modular 2) settledRun σ
    (∃ m', σ'.book.Mint 1 m' ∧ m'.authority .mintTokens = none ∧ m'.base.supply ≤ 100) ∧
      ∃ v', σ'.book.Account 2 v' ∧ v'.base.owner = 7 := by
  intro σ σ'
  have hreach : Reachable (.modular 2) (fun _ => True) σ :=
    .scripted (by decide) (fun _ _ _ => trivial) (by decide +kernel)
  have hrun : ∀ k, Run (.modular 2) (fun c => ¬ c.Closes k) σ σ' := fun k => by
    refine Run.of_script (fun p hp τ hc => ?_) (by decide +kernel)
    have hi := hc.2
    simp only [settledRun, List.mem_cons, List.not_mem_nil, or_false] at hp
    rcases hp with rfl | rfl
    · cases hi
    · cases hi
  obtain ⟨m, hm, hp⟩ := exists_mint σ 1
    (fun m => decide (m.authority .mintTokens = none ∧ m.base.supply = 100)) (by decide +kernel)
    (by decide +kernel)
  obtain ⟨v, hv, hq⟩ := exists_account σ 2
    (fun v => decide ((v.ext .immutableOwner).isSome = true ∧ v.base.owner = 7)) (by decide +kernel)
    (by decide +kernel)
  obtain ⟨hnone, hsupply⟩ := of_decide_eq_true hp
  obtain ⟨himmutable, howner⟩ := of_decide_eq_true hq
  obtain ⟨m', hm', hsettled, hfixed⟩ := (authority_settled hreach).1 1 m hm (hrun 1)
  obtain ⟨v', hv', howner'⟩ := (authority_settled hreach).2 2 v hv himmutable (hrun 2)
  exact ⟨⟨m', hm', (hsettled _ hnone).1, hsupply ▸ (hfixed hnone).1⟩, v', hv', howner'.trans howner⟩

end SolanaEasy.Token
