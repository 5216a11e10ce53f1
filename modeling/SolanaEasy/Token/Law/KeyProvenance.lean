import SolanaEasy.Token.ElGamalRegistry
import SolanaEasy.Token.Law.PendingBalance

/-!
# Key provenance — who has chosen the key of a confidential account

Runs of the token program and of the registry program together. Accounts of the registry
program hold what one of its instructions has left there, or zeros, since anybody can have the
system program make such an account. The key of a confidential account was proved and chosen
by the owner that the account had then, unless that owner is the address of all zeros.
-/

namespace SolanaEasy.Token

open Processor ConfidentialTransfer

/-! ## The key of an account -/

section Keys

variable {rt : Runtime} {c : Call} {k : Pubkey} {β β' : Book} {e e' : ConfidentialTransferAccount}
  {v v' : View PodAccount}

/-- The key under which the balances of an account are hidden. -/
def View.key (v : View PodAccount) : Option PodElGamalPubkey := v.core.secret.map (·.elgamalPubkey)

theorem View.key_eq_some {x : PodElGamalPubkey} :
    v.key = some x ↔ ∃ e, v.core.secret = some e ∧ e.elgamalPubkey = x := Option.map_eq_some_iff

theorem deposited_key {amount : UInt64} (h : deposited rt amount e = .ok e') :
    e'.elgamalPubkey = e.elgamalPubkey := by
  simp only [deposited, bind_eq_ok, Prod.exists] at h
  obtain ⟨_, _, _, _, _, _, _, _, _, h⟩ := h
  obtain ⟨_, _, rfl⟩ := incrementPendingBalanceCreditCounter_ok h
  rfl

theorem credited_key {x : PodElGamalPubkey} {lo hi : PodGroupedElGamalCiphertext3Handles}
    (h : credited rt x lo hi e = .ok e') : e'.elgamalPubkey = e.elgamalPubkey := by
  simp only [credited, bind_eq_ok] at h
  obtain ⟨_, _, _, _, _, _, _, _, _, _, _, _, h⟩ := h
  obtain ⟨_, _, rfl⟩ := incrementPendingBalanceCreditCounter_ok h
  rfl

theorem mintedTo_key {t : ConfidentialTransferMint} {p : MintProofContext}
    {i : ConfidentialMintBurn.InstructionData}
    (h : ConfidentialMintBurn.mintedTo rt t p i e = .ok e') :
    e'.elgamalPubkey = e.elgamalPubkey := by
  simp only [ConfidentialMintBurn.mintedTo, bind_eq_ok] at h
  obtain ⟨_, _, _, _, _, _, _, _, _, _, _, _, _, _, _, _, h⟩ := h
  obtain ⟨_, _, rfl⟩ := incrementPendingBalanceCreditCounter_ok h
  rfl

theorem pendingApplied_key {n : UInt64} {b : PodAeCiphertext}
    (h : pendingApplied rt n b e = .ok e') : e'.elgamalPubkey = e.elgamalPubkey := by
  simp only [pendingApplied, bind_eq_ok, pure_eq_ok] at h
  obtain ⟨_, _, rfl⟩ := h
  rfl

theorem feeWithheld_key {p : TransferWithFeeProofContext} {y y' : ConfidentialTransferFeeAmount}
    (h : FeeWithheld rt p e e' y y') : e'.elgamalPubkey = e.elgamalPubkey := by
  obtain ⟨_, _, _, _, _, _, _, _, _, _, _, _, _, _, rfl, _⟩ := h
  rfl

/-- Both ends of a confidential transfer keep their keys. -/
theorem SecretlyMoved.keys {m : View PodMint} {self : Bool} {g g' : ConfidentialTransferAccount}
    {y y' : Option ConfidentialTransferFeeAmount} (h : SecretlyMoved rt c m self e e' g g' y y') :
    e'.elgamalPubkey = e.elgamalPubkey ∧ g'.elgamalPubkey = g.elgamalPubkey := by
  cases h with
  | plain _ _ debit credit => exact ⟨(debited_kept debit).key, credited_key credit⟩
  | withFee _ _ _ _ debit credit _ withheld =>
    exact ⟨(debited_kept debit).key, (feeWithheld_key withheld).trans (credited_key credit)⟩
  | selfWithFee _ _ debit credit => exact ⟨(debited_kept debit).key, credited_key credit⟩

/-- What part of an instruction does to the key of an account. -/
structure KeyTracked (c : Call) (v v' : View PodAccount) : Prop where
  owner : c.instruction.configures = true → v'.base.owner = v.base.owner
  kept : ∀ x, v.key = some x → v'.key = some x
  chosen : ∀ x, v.key = none → v'.key = some x →
    c.instruction.configures = true ∧ c.Chosen v.base.owner x

theorem KeyTracked.of_same (owner : c.instruction.configures = true → v'.base.owner = v.base.owner)
    (same : v'.key = v.key) : KeyTracked c v v' where
  owner := owner
  kept _ h := same.trans h
  chosen x hnone hsome := by
    rw [same, hnone] at hsome
    cases hsome

theorem KeyTracked.of_secret (owner : v'.base.owner = v.base.owner)
    (secret : v'.core.secret = v.core.secret) : KeyTracked c v v' :=
  .of_same (fun _ => owner) (congrArg (Option.map _) secret)

theorem KeyTracked.of_update (owner : v'.base.owner = v.base.owner)
    (secret : v.core.secret = some e) (secret' : v'.core.secret = some e')
    (same : e'.elgamalPubkey = e.elgamalPubkey) : KeyTracked c v v' :=
  .of_same (fun _ => owner)
    (by rw [View.key, View.key, secret, secret', Option.map_some, same]; rfl)

theorem KeyTracked.trans {u : View PodAccount} (h : KeyTracked c u v) (h' : KeyTracked c v v') :
    KeyTracked c u v' where
  owner hc := (h'.owner hc).trans (h.owner hc)
  kept x hx := h'.kept x (h.kept x hx)
  chosen x hnone hsome := by
    cases hv : v.key with
    | none =>
      obtain ⟨hc, hchosen⟩ := h'.chosen x hv hsome
      exact ⟨hc, h.owner hc ▸ hchosen⟩
    | some y =>
      have hsame := (h'.kept y hv).symm.trans hsome
      exact h.chosen x hnone (hv.trans hsame)

theorem Call.Resets.not_configures (h : c.Resets k) : c.instruction.configures = false := by
  have hi := h.2
  cases hc : c.instruction <;> first | rfl | (rw [hc] at hi; exact hi.elim)

theorem Effect.keyTracked (h : Effect rt c β k v v') : KeyTracked c v v' := by
  cases h with
  | quiet core | allowance _ _ _ _ core | closer _ _ core | state _ _ _ core | lock _ _ core
  | native _ _ _ core | harvest core | collect _ _ _ core | secretHarvest _ core =>
    exact .of_secret (congrArg (·.base.owner) core :) (congrArg Core.secret core :)
  | owner resets _ _ _ core =>
    refine .of_same (fun hc => ?_)
      (congrArg (fun a : Core => a.secret.map (·.elgamalPubkey)) core :)
    rw [resets.not_configures] at hc
    cases hc
  | configure configures _ _ chosen new _ core =>
    refine ⟨fun _ => (congrArg (·.base.owner) core :), fun x hx => ?_,
      fun x _ hx => ⟨configures, ?_⟩⟩
    · rw [View.key, new] at hx
      cases hx
    · rw [View.key, show v'.core.secret = _ from congrArg Core.secret core] at hx
      obtain rfl := Option.some.inj hx
      exact chosen
  | setting secret core =>
    exact .of_update (congrArg (·.base.owner) core :) secret (congrArg Core.secret core :) rfl
  | emptied secret _ update core =>
    exact .of_update (congrArg (·.base.owner) core :) secret (congrArg Core.secret core :)
      (emptied_kept update).key
  | apply _ secret _ update core =>
    exact .of_update (congrArg (·.base.owner) core :) secret (congrArg Core.secret core :)
      (pendingApplied_key update)
  | secretCollect _ _ secret _ credit core =>
    exact .of_update (congrArg (·.base.owner) core :) secret (congrArg Core.secret core :)
      (feeCredited_kept credit).key

theorem Exchange.keyTracked (h : Exchange rt c v v') : KeyTracked c v v' := by
  cases h with
  | sent _ _ _ _ _ core | received _ _ _ core | burned _ _ _ _ _ _ core | minted _ _ _ core =>
    exact .of_secret (congrArg (·.base.owner) core :) (congrArg Core.secret core :)
  | deposited _ _ _ _ _ secret credit core =>
    exact .of_update (congrArg (·.base.owner) core :) secret (congrArg Core.secret core :)
      (deposited_key credit)
  | withdrawn _ _ _ _ _ secret _ debit core =>
    exact .of_update (congrArg (·.base.owner) core :) secret (congrArg Core.secret core :)
      (withdrawn_kept debit).key
  | secretSent _ _ _ _ secret moved core =>
    exact .of_update (congrArg (·.base.owner) core :) secret (congrArg Core.secret core :)
      moved.keys.1
  | secretReceived _ secret moved core =>
    exact .of_update (congrArg (·.base.owner) core :) secret (congrArg Core.secret core :)
      moved.keys.2
  | secretReturned _ _ _ _ secret moved core =>
    obtain ⟨hdebit, hcredit⟩ := moved.keys
    exact .of_update (congrArg (·.base.owner) core :) secret (congrArg Core.secret core :)
      (hcredit.trans hdebit)
  | secretMinted _ secret _ credit core =>
    exact .of_update (congrArg (·.base.owner) core :) secret (congrArg Core.secret core :)
      (mintedTo_key credit)
  | secretBurned _ _ _ secret _ debit core =>
    exact .of_update (congrArg (·.base.owner) core :) secret (congrArg Core.secret core :)
      (burnedFrom_kept debit).key

theorem keyTracked_respects (rt : Runtime) (c : Call) (k : Pubkey) :
    Respects rt c k (KeyTracked c) where
  refl _ := .of_secret rfl rfl
  trans h h' := h.trans h'
  effect h _ := h.keyTracked
  exchange h _ := h.keyTracked
  flag v := .of_secret (congrArg (·.base.owner) (v.core_flag false) :)
    (congrArg Core.secret (v.core_flag false) :)

theorem Call.not_configures_of_opens (h : c.isInitializeAccount = true) :
    c.instruction.configures = false := by
  rw [isInitializeAccount] at h
  split at h
  · rename_i hi; rw [hi]; rfl
  · rename_i hi; rw [hi]; rfl
  · rename_i hi; rw [hi]; rfl
  · cases h

/-- Where no account was, one that is opened has no key. -/
theorem Moves.opened (h : Moves rt c β β') (empty : ∀ v, ¬ β.Account k v)
    (held : β'.Account k v') : c.isInitializeAccount = true ∧ v'.key = none := by
  induction h generalizing v' with
  | refl => exact absurd held (empty v')
  | @tail β₁ β₂ _ hmove ih =>
    have hat := hmove.change k
    rw [show _ = Contents.account v' from held] at hat
    generalize hbefore : (β₁ k).contents = x at hat
    cases hat with
    | same => exact ih hbefore
    | account heffects =>
      obtain ⟨hopens, hnone⟩ := ih hbefore
      refine ⟨hopens, Option.eq_none_iff_forall_ne_some.mpr fun x hx => ?_⟩
      have htracked := (keyTracked_respects rt c k).toTracks.effects heffects
      have hconfigures := (htracked.chosen x hnone hx).1
      rw [c.not_configures_of_opens hopens] at hconfigures
      cases hconfigures
    | openAccount opens _ _ _ core =>
      refine ⟨opens, ?_⟩
      rw [View.key, show v'.core.secret = _ from congrArg Core.secret core]
      rfl

/-- An account with a key was there before the instruction. -/
theorem Course.keyTracked (h : Course rt c β β') (held : β'.Account k v') {x : PodElGamalPubkey}
    (hx : v'.key = some x) : ∃ v, β.Account k v ∧ KeyTracked c v v' := by
  by_cases hbefore : ∃ v, β.Account k v
  · obtain ⟨v, hv⟩ := hbefore
    rcases h.account (keyTracked_respects rt c k) hv with ⟨w, hw, htracked⟩ | ⟨hother, _⟩
    · exact ⟨v, hv, held.unique hw ▸ htracked⟩
    · cases hother.symm.trans held
  · cases h with
    | moves _ h =>
      have hnone := (h.opened (fun v hv => hbefore ⟨v, hv⟩) held).2
      rw [hnone] at hx
      cases hx
    | @trade s d hook _ β₁ _ _ h rest =>
      have hlowered := rest.lowered k
      rw [show _ = Contents.account v' from held] at hlowered
      have hmiddle : ∃ w, (β₁ k).contents = .account w := by
        generalize (β₁ k).contents = y at hlowered
        cases hlowered with
        | same => exact ⟨_, rfl⟩
        | account => exact ⟨_, rfl⟩
      obtain ⟨w, hw⟩ := hmiddle
      obtain ⟨v, hv, _⟩ := (hw ▸ h.deal k : Deal ..).to_account
      exact absurd ⟨v, hv⟩ hbefore

end Keys

end SolanaEasy.Token

namespace SolanaEasy.Token.Registry

open Processor.ConfidentialTransfer (ElGamalRegistry)

/-! ## Two programs -/

section Joint

variable (rt : Runtime) (address : Pubkey → Pubkey) (allow : Call → Prop)
  (enrol : RegistryCall → Prop)

/-- What the runtime lets happen to accounts of the registry program while others run: nobody
else changes their data, a new one has nothing but zeros, and what is different was left by an
instruction of that program which somebody has called. -/
def RegistryKept (σ σ' : Ledger) : Prop :=
  ∀ k, (σ' k).owner = Keys.elgamalRegistryProgram →
    ((σ k).owner = Keys.elgamalRegistryProgram ∧ (σ' k).data = (σ k).data) ∨
      (σ' k).data = zeros (σ' k).data.length ∨
      ∃ r ρ, enrol r ∧ r.run rt address = .ok ρ ∧ r.key? = some k ∧ (σ' k).data = (ρ k).data

/-- An instruction of either program, or a step of any other. -/
inductive Step : Ledger → Ledger → Prop
  | token {c : Call} {σ'} (may : allow c) (run : c.run rt = .ok σ')
      (kept : RegistryKept rt address enrol c.σ σ') : Step c.σ σ'
  | registry {r : RegistryCall} {σ'} (may : enrol r) (run : r.run rt address = .ok σ') :
      Step r.σ σ'
  | outside {σ σ'} (env : EnvStep σ σ') (kept : RegistryKept rt address enrol σ σ') : Step σ σ'

abbrev Run : Ledger → Ledger → Prop := Relation.ReflTransGen (Step rt address allow enrol)

/-- Nothing belongs to either program yet. -/
structure Genesis (σ : Ledger) : Prop where
  token : Token.Genesis σ
  registry : ∀ k, (σ k).owner ≠ Keys.elgamalRegistryProgram

def Reachable (σ : Ledger) : Prop := ∃ σ₀, Genesis σ₀ ∧ Run rt address allow enrol σ₀ σ

/-! ## Registries -/

/-- Owner and key are those of an account of zeros. -/
def Blank (owner : Pubkey) (key : PodElGamalPubkey) : Prop := owner = Keys.systemProgram ∧ key = 0

/-- The owner has signed an instruction of the registry program that was shown a proof of the
key. -/
def Enrolled (owner : Pubkey) (key : PodElGamalPubkey) : Prop :=
  ∃ r, enrol r ∧ (∃ ρ, r.run rt address = .ok ρ) ∧ r.Certifies owner key

/-- Every account of the registry program that can be read has a key that its owner has chosen. -/
def Certified (σ : Ledger) : Prop :=
  ∀ k registry, (σ k).owner = Keys.elgamalRegistryProgram →
    Pod.decode? ElGamalRegistry (σ k).data = some registry →
    Blank registry.owner registry.elgamalPubkey ∨
      Enrolled rt address enrol registry.owner registry.elgamalPubkey

end Joint

section Certified

variable {rt : Runtime} {address : Pubkey → Pubkey} {allow : Call → Prop}
  {enrol : RegistryCall → Prop} {σ σ' : Ledger} {r : RegistryCall} {k owner : Pubkey}
  {key : PodElGamalPubkey}

theorem toBytes_blank : Pod.toBytes (⟨Keys.systemProgram, 0⟩ : ElGamalRegistry) = zeros 64 := by
  decide +kernel

theorem blank_of_zeros {b : Bytes} {registry : ElGamalRegistry} (hb : b = zeros b.length)
    (h : Pod.decode? ElGamalRegistry b = some registry) :
    Blank registry.owner registry.elgamalPubkey := by
  have hbytes := Pod.decode?_eq_some.mp h
  have hlength : b.length = 64 := by
    rw [hbytes, Pod.length_toBytes]
    rfl
  rw [hlength, hbytes, ← toBytes_blank] at hb
  have hsame := Pod.toBytes_injective hb
  rw [hsame]
  exact ⟨rfl, rfl⟩

/-- What an instruction has left. -/
theorem RegistryCall.Writes.enrolled {registry : ElGamalRegistry} (may : enrol r)
    (run : r.run rt address = .ok σ') (h : r.Writes σ' k owner key)
    (hread : Pod.decode? ElGamalRegistry (σ' k).data = some registry) :
    Enrolled rt address enrol registry.owner registry.elgamalPubkey := by
  rw [h.eq, Ledger.set_same, Pod.decode?_toBytes, Option.some.injEq] at hread
  rw [← hread]
  exact ⟨r, may, ⟨_, run⟩, h.certified⟩

theorem Certified.kept (h : Certified rt address enrol σ)
    (kept : RegistryKept rt address enrol σ σ') : Certified rt address enrol σ' := by
  intro k registry howner hread
  rcases kept k howner with ⟨howner', hsame⟩ | hzeros | ⟨r, ρ, may, run, hk, hsame⟩
  · exact h k registry howner' (hsame ▸ hread)
  · exact .inl (blank_of_zeros hzeros hread)
  · obtain ⟨j, owner, key, hwrites⟩ := r.run_writes run
    obtain rfl := Option.some.inj (hwrites.head.symm.trans hk)
    exact .inr (hwrites.enrolled may run (hsame ▸ hread))

theorem Certified.registry (h : Certified rt address enrol r.σ) (may : enrol r)
    (run : r.run rt address = .ok σ') : Certified rt address enrol σ' := by
  intro k registry howner hread
  obtain ⟨j, owner, key, hwrites⟩ := r.run_writes run
  by_cases hk : k = j
  · subst hk
    exact .inr (hwrites.enrolled may run hread)
  · rw [hwrites.eq, Ledger.set_of_ne _ _ hk] at howner hread
    exact h k registry howner hread

end Certified

/-! ## Where keys come from -/

section Provenance

variable (rt : Runtime) (address : Pubkey → Pubkey) (allow : Call → Prop)
  (enrol : RegistryCall → Prop)

/-- The account at `k` has this key. -/
def Keyed (k : Pubkey) (x : PodElGamalPubkey) (σ : Ledger) : Prop :=
  ∃ v, σ.book.Account k v ∧ v.key = some x

/-- Who is behind the key that an instruction gives an account of `owner`. -/
inductive Authorised (c : Call) (owner : Pubkey) (x : PodElGamalPubkey) : Prop
  | signed {p : PubkeyValidityProofContext} (proof : Attested .pubkeyValidity c.ctx c.σ p)
      (key : p.pubkey = x) (endorsed : c.Endorsed owner)
  | enrolled (h : Enrolled rt address enrol owner x)
  | blank (h : Blank owner x)

/-- An instruction has given the account at `k` its first key, which was authorised, and the
account has kept it ever since. -/
structure Settled (c : Call) (σ₁ : Ledger) (k : Pubkey) (x : PodElGamalPubkey) (σ : Ledger) :
    Prop where
  before : Reachable rt address allow enrol c.σ
  may : allow c
  configures : c.instruction.configures = true
  run : c.run rt = .ok σ₁
  account : ∃ v, c.σ.book.Account k v ∧ v.key = none ∧
    Authorised rt address enrol c v.base.owner x
  since : Relation.ReflTransGen
    (fun σ σ' => Step rt address allow enrol σ σ' ∧ Keyed k x σ') σ₁ σ

def Provenance (k : Pubkey) (x : PodElGamalPubkey) (σ : Ledger) : Prop :=
  ∃ c σ₁, Settled rt address allow enrol c σ₁ k x σ

end Provenance

section Invariant

variable {rt : Runtime} {address : Pubkey → Pubkey} {allow : Call → Prop}
  {enrol : RegistryCall → Prop} {σ σ' : Ledger} {k : Pubkey} {x : PodElGamalPubkey} {c : Call}

theorem Step.wf (h : Step rt address allow enrol σ σ') (hwf : σ.Wf) : σ'.Wf := by
  cases h with
  | token _ run => exact (run_course hwf run).1
  | registry _ run => exact (RegistryCall.run_envStep run).wf hwf
  | outside env => exact env.wf hwf

theorem Step.certified (h : Step rt address allow enrol σ σ')
    (hcertified : Certified rt address enrol σ) : Certified rt address enrol σ' := by
  cases h with
  | token _ _ kept => exact hcertified.kept kept
  | registry may run => exact hcertified.registry may run
  | outside _ kept => exact hcertified.kept kept

theorem Reachable.tail (h : Reachable rt address allow enrol σ)
    (hstep : Step rt address allow enrol σ σ') : Reachable rt address allow enrol σ' := by
  obtain ⟨σ₀, hgenesis, hrun⟩ := h
  exact ⟨σ₀, hgenesis, hrun.tail hstep⟩

theorem Reachable.wf_certified (h : Reachable rt address allow enrol σ) :
    σ.Wf ∧ Certified rt address enrol σ := by
  obtain ⟨σ₀, hgenesis, hrun⟩ := h
  induction hrun with
  | refl => exact ⟨hgenesis.token.wf, fun k _ howner => absurd howner (hgenesis.registry k)⟩
  | tail _ hstep ih => exact ⟨hstep.wf ih.1, hstep.certified ih.2⟩

/-- A key that is in a registry was chosen there. -/
theorem authorised_of_chosen {owner : Pubkey} (hcertified : Certified rt address enrol c.σ)
    (h : c.Chosen owner x) : Authorised rt address enrol c owner x := by
  cases h with
  | proved proof key endorsed => exact .signed proof key endorsed
  | registered registry entry =>
    rcases hcertified _ _ registry entry with hblank | henrolled
    · exact .blank hblank
    · exact .enrolled henrolled

theorem Provenance.kept (h : Provenance rt address allow enrol k x σ)
    (hstep : Step rt address allow enrol σ σ') (hkeyed : Keyed k x σ') :
    Provenance rt address allow enrol k x σ' := by
  obtain ⟨c, σ₁, hsettled⟩ := h
  exact ⟨c, σ₁, { hsettled with since := hsettled.since.tail ⟨hstep, hkeyed⟩ }⟩

/-- An account that other programs leave behind was there before. -/
theorem keyed_of_env {β β' : Book} {v : View PodAccount} (h : β.Env β') (held : β'.Account k v) :
    β.Account k v := by
  by_cases hother : (β k).contents = .other
  · cases (h.other k hother).symm.trans held
  · exact ((h.held k hother).1.symm.trans held :)

/-- Every step keeps the account's key, or settles it. -/
theorem Step.provenance (h : Step rt address allow enrol σ σ')
    (hreach : Reachable rt address allow enrol σ)
    (hbefore : ∀ k x, Keyed k x σ → Provenance rt address allow enrol k x σ) :
    ∀ k x, Keyed k x σ' → Provenance rt address allow enrol k x σ' := by
  intro k x hkeyed
  obtain ⟨v', held, hx⟩ := hkeyed
  have hstep := h
  cases h with
  | @token c _ may run kept =>
    obtain ⟨hwf, hcertified⟩ := hreach.wf_certified
    obtain ⟨v, hv, htracked⟩ := (run_course hwf run).2.keyTracked held hx
    cases hkey : v.key with
    | some y =>
      obtain rfl := Option.some.inj ((htracked.kept y hkey).symm.trans hx)
      exact (hbefore k y ⟨v, hv, hkey⟩).kept hstep ⟨v', held, hx⟩
    | none =>
      obtain ⟨hconfigures, hchosen⟩ := htracked.chosen x hkey hx
      exact ⟨c, σ', hreach, may, hconfigures, run,
        ⟨v, hv, hkey, authorised_of_chosen hcertified hchosen⟩, .refl⟩
  | registry _ run =>
    have hv := keyed_of_env (RegistryCall.run_envStep run).book held
    exact (hbefore k x ⟨v', hv, hx⟩).kept hstep ⟨v', held, hx⟩
  | outside env =>
    have hv := keyed_of_env env.book held
    exact (hbefore k x ⟨v', hv, hx⟩).kept hstep ⟨v', held, hx⟩

end Invariant

/-! ## A wallet and its registry

Wallet `7` enrols a key at `30`; then a mint at `1` and an account of the wallet at `2`, which
somebody configures from the registry. -/

section Enrolment

open Processor ConfidentialTransfer

variable {rt : Runtime} {address : Pubkey → Pubkey} {enrol : RegistryCall → Prop} {σ σ' : Ledger}

/-- A write leaves the accounts of other programs as they are. -/
theorem RegistryKept.of_store {S : Type} [BaseState S] {k : Pubkey} {s : PodState S}
    (h : store σ k s = .ok σ') : RegistryKept rt address enrol σ σ' := by
  intro j howner
  refine .inl ?_
  obtain ⟨hmay, rfl⟩ := store_eq_ok.mp h
  by_cases hj : j = k
  · subst hj
    rw [Ledger.set_same] at howner ⊢
    refine ⟨howner, hmay.resolve_left fun htoken => ?_⟩
    exact absurd (howner.symm.trans htoken) (by decide)
  · rw [Ledger.set_of_ne _ _ hj] at howner ⊢
    exact ⟨howner, rfl⟩

def enrolWallet (σ : Ledger) : RegistryCall :=
  ⟨.showing [.verifying .pubkeyValidity (⟨openAccountKey⟩ : PubkeyValidityProofContext)],
    [⟨30, false⟩, ⟨7, true⟩, ⟨Keys.systemProgram, false⟩, ⟨Keys.instructionsSysvar, false⟩],
    [0, 1], σ⟩

def walletSteps : List (Context × List AccountInfo × Instruction) :=
  [(.plain, [⟨1, false⟩], .initializeConfidentialTransferMint ⟨0⟩ (.ofBool true) ⟨0⟩),
   (.plain, [⟨1, false⟩], .initializeMint2 6 5 none),
   (.plain, [⟨2, false⟩, ⟨1, false⟩], .initializeAccount3 7),
   (.plain, [⟨2, false⟩, ⟨1, false⟩, ⟨30, false⟩], .configureAccountWithRegistry)]

/-- None of these instructions writes to more than one account. -/
theorem walletSteps_kept {p : Context × List AccountInfo × Instruction} (hp : p ∈ walletSteps)
    (h : process rt p.1 p.2.1 p.2.2 σ = .ok σ') : RegistryKept rt address enrol σ σ' := by
  simp only [walletSteps, List.mem_cons, List.not_mem_nil, or_false] at hp
  rcases hp with rfl | rfl | rfl | rfl
  · simp only [process, Processor.ConfidentialTransfer.processInitializeMint, initMintExtension,
      bind_eq_ok] at h
    obtain ⟨_, _, _, _, _, _, _, _, _, _, _, _, h⟩ := h
    exact .of_store h
  · simp only [process, processInitializeMint2, initializeMint, bind_eq_ok] at h
    obtain ⟨_, _, _, _, _, _, _, _, _, _, _, _, _, _, _, _, _, _, h⟩ := h
    exact .of_store h
  · simp only [process, processInitializeAccount3, initializeAccount, bind_eq_ok] at h
    obtain ⟨_, _, _, _, _, _, _, _, _, _, _, _, _, _, _, _, _, _, _, _, h⟩ := h
    exact .of_store h
  · simp only [process, processConfigureAccountWithRegistry, configure, bind_eq_ok,
      Except.ok.injEq, exists_eq_left'] at h
    obtain ⟨_, _, _, _, _, _, _, _, _, _, _, _, _, _, _, _, h⟩ := h
    split at h
    · simp only [bind_eq_ok] at h
      obtain ⟨_, _, h⟩ := h
      exact .of_store h
    · simp only [bind_eq_ok] at h
      obtain ⟨_, _, h⟩ := h
      exact .of_store h

/-- A script in which no step writes to an account of the registry program. -/
theorem Run.of_script {allow : Call → Prop}
    {steps : List (Context × List AccountInfo × Instruction)} :
    ∀ {σ : Ledger}, (∀ p ∈ steps, ∀ σ, allow ⟨p.1, p.2.1, p.2.2, σ⟩) →
      (∀ p ∈ steps, ∀ σ σ', process rt p.1 p.2.1 p.2.2 σ = .ok σ' →
        RegistryKept rt address enrol σ σ') →
      (script rt steps σ).isSome = true →
      Run rt address allow enrol σ (scripted rt steps σ) := by
  induction steps with
  | nil => exact fun _ _ _ => .refl
  | cons p rest ih =>
    obtain ⟨ctx, accounts, i⟩ := p
    intro σ hallow hkept h
    rw [script] at h
    rw [scripted, script]
    cases hp : toOption (process rt ctx accounts i σ) with
    | none =>
      rw [hp] at h
      cases h
    | some σ₁ =>
      rw [hp, Option.bind_some] at h
      have hrun := toOption_eq_some.mp hp
      have hstep : Step rt address allow enrol σ σ₁ :=
        .token (c := ⟨ctx, accounts, i, σ⟩) (hallow _ List.mem_cons_self σ) hrun
          (hkept _ List.mem_cons_self _ _ hrun)
      have hrest := ih (fun p hp => hallow p (List.mem_cons_of_mem _ hp))
        (fun p hp => hkept p (List.mem_cons_of_mem _ hp)) h
      obtain ⟨σ₂, hσ₂⟩ := Option.isSome_iff_exists.mp h
      rw [scripted, hσ₂] at hrest
      rw [Option.bind_some, hσ₂]
      exact .head hstep hrest

def registryOf (wallet : Pubkey) : Pubkey := wallet + 23

/-- Room for a mint and an account, and lamports at the address of the registry. -/
def walletCells : Ledger := (blank [(1, 235), (2, 465)]).set 30 ⟨1000, Keys.systemProgram, []⟩

theorem walletCells_owner (k : Pubkey) :
    (walletCells k).owner ≠ Keys.elgamalRegistryProgram := by
  have htoken : Keys.tokenProgram ≠ Keys.elgamalRegistryProgram := by decide
  have hsystem : Keys.systemProgram ≠ Keys.elgamalRegistryProgram := by decide
  rw [walletCells, Ledger.set_apply]
  split
  · exact hsystem
  · rw [blank]
    split
    · exact htoken
    · exact hsystem

theorem walletCells_fresh : EnvStep (fun _ => .empty) walletCells := by
  have hempty : Cell.empty.owner ≠ Keys.tokenProgram := by decide
  refine fun k => ⟨fun howner => absurd howner hempty, fun _ howner => ?_⟩
  rw [walletCells, Ledger.set_apply] at howner ⊢
  split at howner
  · exact absurd howner hempty
  · rename_i hk
    rw [if_neg hk]
    rw [blank] at howner ⊢
    split
    · rename_i n hlookup
      refine ⟨by simp, ?_⟩
      rintro rfl
      rw [show List.lookup Keys.nativeMint [((1 : Pubkey), 235), (2, 465)] = none by decide]
        at hlookup
      cases hlookup
    · rename_i hnone
      rw [hnone] at howner
      exact absurd howner hempty

def enrolledLedger (rt : Runtime) : Ledger :=
  (toOption ((enrolWallet walletCells).run rt registryOf)).getD walletCells

theorem enrolWallet_runs : (enrolWallet walletCells).run (.modular 2) registryOf =
    .ok (enrolledLedger (.modular 2)) := by
  have hsome :
      (toOption ((enrolWallet walletCells).run (.modular 2) registryOf)).isSome = true := by
    decide +kernel
  obtain ⟨σ', hσ'⟩ := Option.isSome_iff_exists.mp hsome
  rw [enrolledLedger, hσ']
  exact toOption_eq_some.mp hσ'

/-- The account has the key of the registry. -/
theorem wallet_runs : (script (.modular 2) walletSteps (enrolledLedger (.modular 2))).any
    (fun σ => σ.checksAccount 2 fun v =>
      decide (v.core.secret = some (configuredAccount (.ofBool true) openAccountKey 0 65536))) =
        true := by
  decide +kernel

end Enrolment

/-- Whatever both programs and everyone else do, the key of a confidential account has been
there since an instruction that configured the account, whose owner at the time had chosen it:
the owner was endorsed there and the key proved, or it was a registry's, where the owner has
signed and the key was proved; or owner and key are those of an account of zeros. -/
theorem elgamal_key_provenance {rt : Runtime} {address : Pubkey → Pubkey} {allow : Call → Prop}
    {enrol : RegistryCall → Prop} {σ : Ledger} {k : Pubkey} {v : View PodAccount}
    {e : ConfidentialTransferAccount} (h : Reachable rt address allow enrol σ)
    (held : σ.book.Account k v) (secret : v.core.secret = some e) :
    Provenance rt address allow enrol k e.elgamalPubkey σ := by
  have hkeyed : Keyed k e.elgamalPubkey σ := ⟨v, held, View.key_eq_some.mpr ⟨e, secret, rfl⟩⟩
  obtain ⟨σ₀, hgenesis, hrun⟩ := h
  have hall : ∀ k x, Keyed k x σ → Provenance rt address allow enrol k x σ := by
    clear hkeyed held
    induction hrun with
    | refl =>
      rintro k x ⟨v, held, _⟩
      cases (hgenesis.token.book k).symm.trans held
    | tail hbefore hstep ih => exact hstep.provenance ⟨σ₀, hgenesis, hbefore⟩ ih
  exact hall k e.elgamalPubkey hkeyed

/-- The key was chosen in the registry, by the only instruction that anybody signed there. -/
theorem elgamal_key_provenance_enrolled : ∃ σ v,
    Reachable (.modular 2) registryOf (fun c => ∃ p ∈ walletSteps, c.instruction = p.2.2)
      (fun r => ∃ σ, r = enrolWallet σ) σ ∧ σ.book.Account 2 v ∧ v.key = some openAccountKey ∧
    Provenance (.modular 2) registryOf (fun c => ∃ p ∈ walletSteps, c.instruction = p.2.2)
      (fun r => ∃ σ, r = enrolWallet σ) 2 openAccountKey σ := by
  obtain ⟨σ, hσ, hchecks⟩ := (Option.any_eq_true _ _).mp wallet_runs
  obtain ⟨v, held, hsecret⟩ := exists_of_checksAccount hchecks
  have hscripted : scripted (.modular 2) walletSteps (enrolledLedger (.modular 2)) = σ := by
    rw [scripted, hσ, Option.getD_some]
  have hgenesis : Genesis fun _ => Cell.empty :=
    ⟨fun _ => (by decide : Cell.empty.owner ≠ Keys.tokenProgram),
      fun _ => (by decide : Cell.empty.owner ≠ Keys.elgamalRegistryProgram)⟩
  have hreach : Reachable (.modular 2) registryOf
      (fun c => ∃ p ∈ walletSteps, c.instruction = p.2.2) (fun r => ∃ σ, r = enrolWallet σ) σ := by
    refine ⟨_, hgenesis, ?_⟩
    have hsteps : Run (.modular 2) registryOf (fun c => ∃ p ∈ walletSteps, c.instruction = p.2.2)
        (fun r => ∃ σ, r = enrolWallet σ) (enrolledLedger (.modular 2))
        (scripted (.modular 2) walletSteps (enrolledLedger (.modular 2))) :=
      .of_script (fun p hp _ => ⟨p, hp, rfl⟩) (fun _ hp _ _ h => walletSteps_kept hp h)
        (Option.isSome_iff_exists.mpr ⟨σ, hσ⟩)
    rw [hscripted] at hsteps
    refine .head (.outside walletCells_fresh fun k howner => absurd howner (walletCells_owner k)) ?_
    exact .head (.registry ⟨_, rfl⟩ enrolWallet_runs) hsteps
  have hvalue := of_decide_eq_true hsecret
  refine ⟨σ, v, hreach, held, View.key_eq_some.mpr ⟨_, hvalue, rfl⟩, ?_⟩
  exact elgamal_key_provenance hreach held hvalue

end SolanaEasy.Token.Registry
