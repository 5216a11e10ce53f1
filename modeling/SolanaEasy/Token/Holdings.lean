import SolanaEasy.Token.Hidden
import SolanaEasy.Token.Run

/-!
# Holdings — the register of one mint

What the accounts of a mint hold, and what the mint has recorded, make up a register.
It depends on the cores alone, and a book that differs at one key has a register that
differs at one place.
-/

namespace SolanaEasy.Token

open Processor

/-- All keys; a sum over them is not one to unfold. -/
@[irreducible] def Pubkey.fintype : Fintype Pubkey :=
  .ofEquiv (Fin (2 ^ 256)) ⟨BitVec.ofFin, BitVec.toFin, fun _ => rfl, fun _ => rfl⟩

instance : Fintype Pubkey := Pubkey.fintype

section Register

variable {l : ℕ} {rt : Runtime} (R : Reading l rt) (f : PodElGamalPubkey) (M : Pubkey)

/-- The holding of an account, if it is one of `M`. -/
def Contents.holding (x : Contents) : Option (Holding (ZMod l)) :=
  match x with
  | .account v => if v.base.mint = M then some (v.core.holding R f) else none
  | _ => none

def Contents.issue (x : Contents) : Option (Issue (ZMod l)) :=
  match x with
  | .mint m => some (m.mintCore.issue R f)
  | _ => none

@[simp] theorem Contents.holding_account (v : View PodAccount) :
    (Contents.account v).holding R f M =
      if v.base.mint = M then some (v.core.holding R f) else none := rfl

@[simp] theorem Contents.holding_mint (m : View PodMint) :
    (Contents.mint m).holding R f M = none := rfl

@[simp] theorem Contents.holding_other : Contents.other.holding R f M = none := rfl

@[simp] theorem Contents.issue_account (v : View PodAccount) :
    (Contents.account v).issue R f = none := rfl

@[simp] theorem Contents.issue_mint (m : View PodMint) :
    (Contents.mint m).issue R f = some (m.mintCore.issue R f) := rfl

@[simp] theorem Contents.issue_other : Contents.other.issue R f = none := rfl

/-- Who holds how much of `M`; withheld fees are read under the key `f`. -/
def Book.register (β : Book) : Register Pubkey (ZMod l) where
  holding k := (β k).contents.holding R f M
  issue := (β M).contents.issue R f

/-- Every mint at `M` keeps its hidden fees under `f`. -/
def Book.FeeKey (β : Book) : Prop := ∀ m, β.Mint M m → m.mintCore.FeeKey f

variable {R f M} {β β' : Book} {k : Pubkey} {v v' : View PodAccount} {m m' : View PodMint}

theorem Book.holding_register (held : β.Account k v) (hM : v.base.mint = M) :
    (β.register R f M).holding k = some (v.core.holding R f) := by
  show (β k).contents.holding R f M = _
  rw [show (β k).contents = _ from held, Contents.holding_account, if_pos hM]

theorem Book.holding_register_of_ne (held : β.Account k v) (hM : v.base.mint ≠ M) :
    (β.register R f M).holding k = none := by
  show (β k).contents.holding R f M = _
  rw [show (β k).contents = _ from held, Contents.holding_account, if_neg hM]

theorem Book.holding_register_of_other (other : (β k).contents = .other) :
    (β.register R f M).holding k = none := by
  show (β k).contents.holding R f M = _
  rw [other, Contents.holding_other]

theorem Book.holding_register_eq_some {h : Holding (ZMod l)}
    (hh : (β.register R f M).holding k = some h) :
    ∃ v, β.Account k v ∧ v.base.mint = M ∧ v.core.holding R f = h := by
  have hat : (β k).contents.holding R f M = some h := hh
  cases hx : (β k).contents with
  | account v =>
    rw [hx, Contents.holding_account] at hat
    split at hat
    · exact ⟨v, hx, ‹_›, Option.some.inj hat⟩
    · cases hat
  | other =>
    rw [hx] at hat
    cases hat
  | mint m =>
    rw [hx] at hat
    cases hat

theorem Book.issue_register (held : β.Mint M m) :
    (β.register R f M).issue = some (m.mintCore.issue R f) := by
  show (β M).contents.issue R f = _
  rw [show (β M).contents = _ from held, Contents.issue_mint]

/-! ## Books that differ at one key -/

theorem Book.register_congr
    (h : ∀ k, (β' k).contents.holding R f M = (β k).contents.holding R f M)
    (hM : (β' M).contents.issue R f = (β M).contents.issue R f) :
    β'.register R f M = β.register R f M := by
  rw [register, register, hM]
  congr 1
  exact funext h

theorem Book.register_of_contents (h : ∀ k, (β' k).contents = (β k).contents) :
    β'.register R f M = β.register R f M :=
  register_congr (fun k => by rw [h]) (by rw [h])

theorem Book.register_put (β : Book) (k : Pubkey) (x : Contents) :
    (β.put k x).register R f M = ((β.register R f M).setHolding k (x.holding R f M)).setIssue
      (if M = k then x.issue R f else (β.register R f M).issue) := by
  simp only [register, Register.setHolding, Register.setIssue, Register.mk.injEq]
  refine ⟨funext fun j => ?_, ?_⟩
  · rw [contents_put]
    by_cases hj : j = k
    · subst hj
      simp
    · simp [hj]
  · rw [contents_put]
    split <;> rfl

theorem Book.register_set (β : Book) (k : Pubkey) (e : Entry) :
    (β.set k e).register R f M = (β.put k e.contents).register R f M :=
  register_of_contents fun j => by rw [contents_set, contents_put]

/-- What is put there records what was recorded there. -/
theorem Book.register_put_of_issue {x : Contents}
    (h : x.issue R f = (β k).contents.issue R f) :
    (β.put k x).register R f M = (β.register R f M).setHolding k (x.holding R f M) := by
  rw [register_put, h, Register.setIssue_self]
  split
  · rename_i hk
    rw [hk]
    rfl
  · rfl

/-- What is put there holds what was held there. -/
theorem Book.register_put_of_holding {x : Contents}
    (h : x.holding R f M = (β k).contents.holding R f M) :
    (β.put k x).register R f M =
      if k = M then (β.register R f M).setIssue (x.issue R f) else β.register R f M := by
  have hself : (β.register R f M).setHolding k ((β k).contents.holding R f M) =
      β.register R f M := Register.setHolding_self _ rfl
  rw [register_put, h, hself]
  split
  · rename_i hk
    rw [if_pos hk.symm]
  · rename_i hk
    rw [if_neg (Ne.symm hk)]
    exact Register.setIssue_self _ rfl

/-- Another account where an account was. -/
theorem Book.register_put_account (held : β.Account k v) (hmint : v'.base.mint = v.base.mint) :
    (β.put k (.account v')).register R f M =
      if v.base.mint = M then (β.register R f M).setHolding k (some (v'.core.holding R f))
      else β.register R f M := by
  rw [register_put_of_issue (by rw [show (β k).contents = _ from held]; rfl),
    Contents.holding_account, hmint]
  split
  · rfl
  · rename_i hM
    exact Register.setHolding_self _ (holding_register_of_ne held hM)

/-- Another mint where a mint was. -/
theorem Book.register_put_mint {K : Pubkey} (held : β.Mint K m) :
    (β.put K (.mint m')).register R f M =
      if K = M then (β.register R f M).setIssue (some (m'.mintCore.issue R f))
      else β.register R f M :=
  register_put_of_holding (by rw [show (β K).contents = _ from held]; rfl)

/-- Another account and another mint where an account and its mint were. -/
theorem Book.register_put_both {K : Pubkey} (held : β.Account k v)
    (hmint : v'.base.mint = v.base.mint) (at' : v.base.mint = K) (mint : β.Mint K m) :
    ((β.put k (.account v')).put K (.mint m')).register R f M =
      if K = M then ((β.register R f M).setHolding k (some (v'.core.holding R f))).setIssue
        (some (m'.mintCore.issue R f))
      else β.register R f M := by
  have hne : K ≠ k := by
    rintro rfl
    exact held.not_mint mint
  rw [register_put_mint (mint.put_of_ne _ hne), register_put_account held hmint, at']
  split <;> rfl

/-- Two accounts of one mint, which may be the same. -/
theorem Book.register_put_two {a d : Pubkey} {w w' : View PodAccount} (source : β.Account a v)
    (hmint : v'.base.mint = v.base.mint) (target : (β.put a (.account v')).Account d w)
    (hmint' : w'.base.mint = w.base.mint) (same : w.base.mint = v.base.mint) :
    ((β.put a (.account v')).put d (.account w')).register R f M =
      if v.base.mint = M then ((β.register R f M).setHolding a
        (some (v'.core.holding R f))).setHolding d (some (w'.core.holding R f))
      else β.register R f M := by
  rw [register_put_account target hmint', register_put_account source hmint, same]
  split <;> rfl

/-! ## Cores -/

section Core

variable {a a' : Core} {e e' : ConfidentialTransferAccount}

theorem Core.holding_base (a : Core) (b : PodAccount) :
    ({ a with base := b } : Core).holding R f = { a.holding R f with amount := b.amount.toNat } :=
  rfl

theorem Core.holding_debit {b : PodAccount} {x : ℕ}
    (h : b.amount.toNat + x = a.base.amount.toNat) :
    ({ a with base := b } : Core).holding R f =
      { a.holding R f with amount := (a.holding R f).amount - x } :=
  Holding.ext (Nat.eq_sub_of_add_eq h) rfl rfl

theorem Core.holding_withheld (a : Core) (n : ℕ) :
    ({ a with withheld := n } : Core).holding R f = { a.holding R f with withheld := n } := rfl

theorem Core.holding_secret (a : Core) (e : ConfidentialTransferAccount) :
    ({ a with secret := some e } : Core).holding R f = { a.holding R f with secret :=
      { (a.holding R f).secret with pending := R.pending e, available := R.available e } } := rfl

theorem Core.holding_fees (a : Core) (y : Option ConfidentialTransferFeeAmount) :
    ({ a with fees := y } : Core).holding R f = { a.holding R f with secret :=
      { (a.holding R f).secret with withheld := R.fees f y } } := rfl

@[simp] theorem Core.amount_holding (a : Core) :
    (a.holding R f).amount = a.base.amount.toNat := rfl

@[simp] theorem Core.withheld_holding (a : Core) : (a.holding R f).withheld = a.withheld := rfl

theorem Core.pending_holding (f : PodElGamalPubkey) (h : a.secret = some e) :
    (a.holding R f).secret.pending = R.pending e := by
  simp [Core.holding, Core.secrets, h]

theorem Core.available_holding (f : PodElGamalPubkey) (h : a.secret = some e) :
    (a.holding R f).secret.available = R.available e := by
  simp [Core.holding, Core.secrets, h]

@[simp] theorem Core.withheld_secret_holding (a : Core) :
    (a.holding R f).secret.withheld = R.fees f a.fees := rfl

/-- An update of the hidden balances, for an account that has them. -/
theorem Core.holding_update (h : a.secret = some e) (hp : R.pending e' = R.pending e)
    (ha : R.available e' = R.available e) :
    ({ a with secret := some e' } : Core).holding R f = a.holding R f := by
  rw [holding_secret, hp, ha, ← pending_holding f h, ← available_holding f h]

/-- An account that is configured starts with nothing hidden. -/
theorem Core.holding_configured {approved : PodBool} {key : PodElGamalPubkey} {b : PodAeCiphertext}
    {n : UInt64} {y : Option ConfidentialTransferFeeAmount} (new : a.secret = none)
    (fees : y = a.fees ∨ a.fees = none ∧ y = some ⟨.zeroed⟩) :
    ({ a with
      secret := some (ConfidentialTransfer.configuredAccount approved key b n)
      fees := y } : Core).holding R f = a.holding R f := by
  obtain ⟨hpending, havailable⟩ := configured_reads R approved key b n
  have hfees : R.fees f y = R.fees f a.fees := by
    rcases fees with rfl | ⟨hnone, rfl⟩
    · rfl
    · simp [Reading.fees, hnone, R.pt_zeroed]
  refine Holding.ext rfl rfl (Secrets.ext ?_ ?_ hfees)
  · rw [Core.pending_holding f rfl, hpending]
    simp [Core.holding, Core.secrets, new]
  · rw [Core.available_holding f rfl, havailable]
    simp [Core.holding, Core.secrets, new]

/-- What an account that may be closed holds. -/
theorem Call.Closable.holding_eq_zero {c : Call} {d : Pubkey} (h : c.Closable v d)
    (hnative : v.base.isNative = false) : v.core.holding R f = 0 := by
  have hamount : v.base.amount.toNat = 0 := by rw [h.empty hnative, UInt64.toNat_zero]
  have hsecret : v.core.secrets R f = 0 := by
    have hhidden : (v.core.secret.map R.pending).getD 0 = 0 ∧
        (v.core.secret.map R.available).getD 0 = 0 := by
      cases hs : v.core.secret with
      | none => exact ⟨rfl, rfl⟩
      | some e =>
        obtain ⟨hlo, hhi, havailable⟩ := closable_ok (h.hidden e hs)
        simp [Reading.pending, Reading.available, hlo, hhi, havailable, R.pt_zeroed]
    have hfees : (v.core.fees.map fun a => R.pt f a.withheldAmount).getD 0 = 0 := by
      cases hy : v.core.fees with
      | none => rfl
      | some y => simp [h.fees y hy, R.pt_zeroed]
    exact Secrets.ext hhidden.1 hhidden.2 hfees
  exact Holding.ext hamount h.withheld hsecret

/-! ## Records of a mint -/

variable {n : MintCore} {q x : PodElGamalPubkey} {u u' : ConfidentialMintBurn}

theorem MintCore.issue_secretFees (n : MintCore) (q : PodElGamalPubkey)
    (x : PodElGamalCiphertext) :
    ({ n with secretFees := some (q, x) } : MintCore).issue R f = { n.issue R f with secret :=
      { (n.issue R f).secret with withheld := R.pt f x } } := rfl

theorem MintCore.withheld_issue {x : PodElGamalCiphertext} (h : n.secretFees = some (q, x)) :
    (n.issue R f).secret.withheld = R.pt f x := by
  simp [MintCore.issue, MintCore.issueSecrets, h]

theorem MintCore.issue_mintBurn (h : n.mintBurn = some u) :
    ({ n with mintBurn := some u' } : MintCore).issue R f = { n.issue R f with secret :=
      { (n.issue R f).secret with supply := R.supply u', burned := R.burned u' } } := by
  simp only [MintCore.issue, h]
  rfl

theorem MintCore.supply_issue (h : n.mintBurn = some u) :
    (n.issue R f).secret.supply = R.supply u ∧ (n.issue R f).secret.burned = R.burned u := by
  simp only [MintCore.issue, MintCore.issueSecrets, h]
  exact ⟨rfl, rfl⟩

/-- What a mint records when it is opened. -/
theorem MintCore.issue_new (supply : n.supply = 0) (withheld : n.withheld = 0)
    (secretFees : ∀ q x, n.secretFees = some (q, x) → x = .zeroed)
    (mintBurn : ∀ u, n.mintBurn = some u →
      u.confidentialSupply = .zeroed ∧ u.pendingBurn = .zeroed) :
    n.issue R f = ⟨n.mintBurn.isSome, 0, 0, ⟨0, 0, 0⟩⟩ := by
  have hfees : (n.secretFees.map fun x => R.pt f x.2).getD 0 = 0 := by
    cases hf : n.secretFees with
    | none => rfl
    | some y => simp [secretFees y.1 y.2 hf, R.pt_zeroed]
  have hburn : (n.mintBurn.map R.supply).getD 0 = 0 ∧ (n.mintBurn.map R.burned).getD 0 = 0 := by
    cases hu : n.mintBurn with
    | none => exact ⟨rfl, rfl⟩
    | some u =>
      obtain ⟨hsupply, hburned⟩ := mintBurn u hu
      simp [Reading.supply, Reading.burned, hsupply, hburned, R.pt_zeroed]
  have hsupply : n.supply.toNat = 0 := by rw [supply, UInt64.toNat_zero]
  have hsecrets : n.issueSecrets R f = ⟨0, 0, 0⟩ :=
    congr (congrArg₂ IssueSecrets.mk hfees hburn.1) hburn.2
  rw [MintCore.issue, hsupply, withheld, hsecrets]

theorem MintCore.secretly_issue (h : n.mintBurn = some u) : (n.issue R f).secretly := by
  rw [MintCore.issue, h]
  rfl

theorem MintCore.not_secretly_issue (h : n.mintBurn = none) : ¬ (n.issue R f).secretly := by
  rw [MintCore.issue, h]
  exact Bool.false_ne_true

theorem MintCore.issue_update (h : n.mintBurn = some u) (hs : R.supply u' = R.supply u)
    (hb : R.burned u' = R.burned u) :
    ({ n with mintBurn := some u' } : MintCore).issue R f = n.issue R f := by
  obtain ⟨hsupply, hburned⟩ := supply_issue (R := R) (f := f) h
  rw [issue_mintBurn h, hs, hb, ← hsupply, ← hburned]

end Core

end Register

end SolanaEasy.Token
