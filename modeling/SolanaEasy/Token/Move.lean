import SolanaEasy.Token.Call
import Mathlib.Logic.Relation

/-!
# Moves — what an instruction can do to the book

The abstract transitions of the book. A `Trade` takes, makes, destroys or converts
tokens, and is all its instruction does, but for a transfer hook; a `Move` is any
other change. Both name what happens to the cores, exactly, and the checks that were
passed; ciphertexts change by the functions the code applies to them.
-/

namespace SolanaEasy.Token

open Processor

/-! ## Hidden amounts under way -/

/-- The fee leaves the pending balance and joins the withheld amount. -/
def FeeWithheld (rt : Runtime) (p : TransferWithFeeProofContext)
    (e e' : ConfidentialTransferAccount) (y y' : ConfidentialTransferFeeAmount) : Prop :=
  ∃ lo hi lo' hi' pendingLo pendingHi withheld,
    p.feeCiphertextLo.tryExtractCiphertext 0 = .ok lo ∧
    p.feeCiphertextHi.tryExtractCiphertext 0 = .ok hi ∧
    CiphertextArithmetic.subtract rt e.pendingBalanceLo lo = some pendingLo ∧
    CiphertextArithmetic.subtract rt e.pendingBalanceHi hi = some pendingHi ∧
    p.feeCiphertextLo.tryExtractCiphertext 1 = .ok lo' ∧
    p.feeCiphertextHi.tryExtractCiphertext 1 = .ok hi' ∧
    CiphertextArithmetic.addWithLoHi rt y.withheldAmount lo' hi' = some withheld ∧
    e' = { e with pendingBalanceLo := pendingLo, pendingBalanceHi := pendingHi } ∧
    y' = ⟨withheld⟩

section Transitions

variable (rt : Runtime) (c : Call)

/-- What a confidential transfer of the mint `m` does to the source's balance, the
destination's balance and its withheld fees. -/
inductive SecretlyMoved (m : View PodMint) (self : Bool) :
    ConfidentialTransferAccount → ConfidentialTransferAccount →
    ConfidentialTransferAccount → ConfidentialTransferAccount →
    Option ConfidentialTransferFeeAmount → Option ConfidentialTransferFeeAmount → Prop
  | plain {e e' g g' y p eo vo ro as as' b} (free : m.get TransferFeeConfig = none)
      (proved : verifyTransferProof c.ctx c.σ eo vo ro as = .ok (p, as'))
      (debit : ConfidentialTransfer.debited rt p.source p.ciphertextLo p.ciphertextHi
        p.newSourceCiphertext b e = .ok e')
      (credit : ConfidentialTransfer.credited rt p.destination p.ciphertextLo p.ciphertextHi g =
        .ok g') : SecretlyMoved m self e e' g g' y y
  | withFee {e e' g g₁ g' y y' p t f o as as' b} (config : m.get TransferFeeConfig = some t)
      (feeConfig : m.get ConfidentialTransferFeeConfig = some f)
      (proved : verifyTransferWithFeeProof rt c.ctx c.σ o (t.getEpochFee c.ctx.epoch) as =
        .ok (p, as'))
      (key : p.withdrawWithheldAuthority = f.withdrawWithheldAuthorityElgamalPubkey)
      (debit : ConfidentialTransfer.debited rt p.source p.ciphertextLo p.ciphertextHi
        p.newSourceCiphertext b e = .ok e')
      (credit : ConfidentialTransfer.credited rt p.destination p.ciphertextLo p.ciphertextHi g =
        .ok g₁)
      (other : self = false) (withheld : FeeWithheld rt p g₁ g' y y') :
      SecretlyMoved m self e e' g g' (some y) (some y')
  | selfWithFee {e e' g g' y p t o as as' b} (config : m.get TransferFeeConfig = some t)
      (proved : verifyTransferWithFeeProof rt c.ctx c.σ o (t.getEpochFee c.ctx.epoch) as =
        .ok (p, as'))
      (debit : ConfidentialTransfer.debited rt p.source p.ciphertextLo p.ciphertextHi
        p.newSourceCiphertext b e = .ok e')
      (credit : ConfidentialTransfer.credited rt p.destination p.ciphertextLo p.ciphertextHi g =
        .ok g')
      (itself : self = true) : SecretlyMoved m self e e' g g' y y

/-- Withheld fees under encryption, taken out of some accounts of one mint and added up. -/
inductive Gather (M : Pubkey) :
    PodElGamalCiphertext → Book → PodElGamalCiphertext → Book → Prop
  | nil {x β} : Gather M x β x β
  | cons {x x₁ x' β β' a v v' y} (held : β.Account a v) (at' : v.base.mint = M)
      (fees : v.core.fees = some y)
      (sum : CiphertextArithmetic.add rt x y.withheldAmount = some x₁)
      (core : v'.core = { v.core with fees := some ⟨.zeroed⟩ }) (grows : v.Grows v')
      (rest : Gather M x₁ (β.put a (.account v')) x' β') : Gather M x β x' β'

/-- The proof behind a withdrawal of withheld fees: `x` under the key `k` of the mint, and the
second ciphertext under the key of the account, hide the same. -/
structure FeeProved (k : PodElGamalPubkey) (x : PodElGamalCiphertext)
    (e : ConfidentialTransferAccount) (p : CiphertextCiphertextEqualityProofContext) : Prop where
  proved : Attested .ciphertextCiphertextEquality c.ctx c.σ p
  first : p.firstPubkey = k
  second : p.secondPubkey = e.elgamalPubkey
  sum : p.firstCiphertext = x

/-- Value that moves within one account: from the open amount to the pending balance, from the
available balance to the open amount, or from the pending balance to the available one. -/
inductive Shift (v v' : View PodAccount) : Prop
  | deposited {x a : UInt64} {e e'} (debit : a.toNat + x.toNat = v.base.amount.toNat)
      (secret : v.core.secret = some e) (credit : ConfidentialTransfer.deposited rt x e = .ok e')
      (core : v'.core = { v.core with base := { v.base with amount := a }, secret := some e' })
  | withdrawn {x a : UInt64} {e e' p eo ro as as' b}
      (credit : a.toNat = v.base.amount.toNat + x.toNat) (secret : v.core.secret = some e)
      (proved : verifyWithdrawProof c.ctx c.σ eo ro as = .ok (p, as'))
      (debit : ConfidentialTransfer.withdrawn rt x p b e = .ok e')
      (core : v'.core = { v.core with base := { v.base with amount := a }, secret := some e' })
  | applied {e e' n b} (secret : v.core.secret = some e)
      (update : ConfidentialTransfer.pendingApplied rt n b e = .ok e')
      (core : v'.core = { v.core with secret := some e' })

/-- Tokens change hands, are made, destroyed or converted; `s` and `d` are the accounts
a transfer hook would be told of, and the last index is the program it would call. -/
inductive Trade : Pubkey → Pubkey → Option Pubkey → Book → Book → Prop
  | transfer {β s d hook v v' w w'} {x fee a b q : UInt64} {p} (head : c.key? 0 = some s)
      (last : c.key? c.instruction.destinationIndex = some d) (ne : d ≠ s)
      (spends : (Call.spendLayout c.instruction).isSome = true)
      (notBurn : c.isBurn = false) (source : β.Account s v) (target : β.Account d w)
      (mint : w.base.mint = v.base.mint) (consults : c.Consults v x fee hook)
      (movable : v.get NonTransferableAccount = none) (thawed : v.base.isFrozen = false)
      (thawed' : w.base.isFrozen = false) (guarded : c.Guarded v) (by' : c.SpentBy v x p q)
      (part : fee ≤ x) (debit : a.toNat + x.toNat = v.base.amount.toNat)
      (credit : b.toNat + fee.toNat = w.base.amount.toNat + x.toNat)
      (pays : v.base.isNative = true → c.Given s ∧ c.Given d ∧ β.CanPay s d x)
      (core : v'.core = { v.core with
        base := { v.base with amount := a, delegate := p, delegatedAmount := q } })
      (core' : w'.core = { w.core with
        base := { w.base with amount := b }, withheld := w.withheld + fee.toNat })
      (grows : v.Grows v') (grows' : w.Grows w') :
      Trade s d hook β
        (((if v.base.isNative then β.pay s d x else β).put s (.account v')).put d (.account w'))
  | selfTransfer {β s hook v} {x fee : UInt64} (head : c.key? 0 = some s)
      (last : c.key? c.instruction.destinationIndex = some s)
      (spends : (Call.spendLayout c.instruction).isSome = true) (notBurn : c.isBurn = false)
      (source : β.Account s v) (consults : c.Consults v x fee hook)
      (movable : v.get NonTransferableAccount = none) (thawed : v.base.isFrozen = false)
      (guarded : c.Guarded v) : Trade s s none β β
  | burn {β s M v v' m m'} {x a q n : UInt64} {p} (head : c.key? 0 = some s)
      (isBurn : c.isBurn = true) (source : β.Account s v) (at' : v.base.mint = M)
      (mint : β.Mint M m) (running : m.paused = false) (notNative : v.base.isNative = false)
      (thawed : v.base.isFrozen = false) (guarded : c.Guarded v) (by' : c.SpentBy v x p q)
      (debit : a.toNat + x.toNat = v.base.amount.toNat)
      (supply : n.toNat + x.toNat = m.base.supply.toNat)
      (core : v'.core = { v.core with
        base := { v.base with amount := a, delegate := p, delegatedAmount := q } })
      (core' : m'.mintCore = { m.mintCore with supply := n })
      (grows : v.Grows v') (keeps : m.Keeps m') :
      Trade s s none β ((β.put s (.account v')).put M (.mint m'))
  | deposit {β k M v v' m e e'} {x a : UInt64} (head : c.key? 0 = some k)
      (spends : Call.spendLayout c.instruction = none)
      (still : c.instruction.transfers = false) (held : β.Account k v)
      (at' : v.base.mint = M) (mint : β.Mint M m)
      (openly : m.mintCore.mintBurn = none) (running : m.paused = false)
      (notNative : v.base.isNative = false) (movable : v.get NonTransferableAccount = none)
      (thawed : v.base.isFrozen = false) (endorsed : c.Endorsed v.base.owner)
      (debit : a.toNat + x.toNat = v.base.amount.toNat) (secret : v.core.secret = some e)
      (credit : ConfidentialTransfer.deposited rt x e = .ok e')
      (core : v'.core = { v.core with base := { v.base with amount := a }, secret := some e' })
      (grows : v.Grows v') : Trade k k none β (β.put k (.account v'))
  | withdraw {β k M v v' m e e' p eo ro as as' b} {x a : UInt64} (head : c.key? 0 = some k)
      (spends : Call.spendLayout c.instruction = none)
      (still : c.instruction.transfers = false) (held : β.Account k v)
      (at' : v.base.mint = M) (mint : β.Mint M m) (openly : m.mintCore.mintBurn = none)
      (running : m.paused = false) (notNative : v.base.isNative = false)
      (movable : v.get NonTransferableAccount = none) (thawed : v.base.isFrozen = false)
      (endorsed : c.Endorsed v.base.owner)
      (credit : a.toNat = v.base.amount.toNat + x.toNat) (secret : v.core.secret = some e)
      (proved : verifyWithdrawProof c.ctx c.σ eo ro as = .ok (p, as'))
      (debit : ConfidentialTransfer.withdrawn rt x p b e = .ok e')
      (core : v'.core = { v.core with base := { v.base with amount := a }, secret := some e' })
      (grows : v.Grows v') : Trade k k none β (β.put k (.account v'))
  | mintTo {β d M v v' m m'} {x a n : UInt64} (head : c.key? 0 = some M)
      (spends : Call.spendLayout c.instruction = none)
      (still : c.instruction.transfers = false) (held : β.Account d v)
      (at' : v.base.mint = M) (mint : β.Mint M m)
      (authority : m.authority .mintTokens ≠ none) (openly : m.mintCore.mintBurn = none)
      (running : m.paused = false) (notNative : v.base.isNative = false)
      (thawed : v.base.isFrozen = false) (credit : a.toNat = v.base.amount.toNat + x.toNat)
      (supply : n.toNat = m.base.supply.toNat + x.toNat)
      (core : v'.core = { v.core with base := { v.base with amount := a } })
      (core' : m'.mintCore = { m.mintCore with supply := n })
      (grows : v.Grows v') (keeps : m.Keeps m') :
      Trade d d none β ((β.put d (.account v')).put M (.mint m'))
  | secretTransfer {β s d M v v' w w' m e e' g g' y'} (head : c.key? 0 = some s)
      (last : c.key? c.instruction.destinationIndex = some d)
      (spends : Call.spendLayout c.instruction = none) (source : β.Account s v)
      (at' : v.base.mint = M) (mint : β.Mint M m)
      (running : m.paused = false) (movable : v.get NonTransferableAccount = none)
      (thawed : v.base.isFrozen = false) (endorsed : c.Endorsed v.base.owner)
      (unguarded : c.Unguarded v) (secret : v.core.secret = some e)
      (core : v'.core = { v.core with secret := some e' })
      (target : (β.put s (.account v')).Account d w) (same : w.base.mint = M)
      (thawed' : w.base.isFrozen = false) (secret' : w.core.secret = some g)
      (moved : SecretlyMoved rt c m (s == d) e e' g g' w.core.fees y')
      (core' : w'.core = { w.core with secret := some g', fees := y' })
      (grows : v.Grows v') (grows' : w.Grows w') :
      Trade s d m.hookProgram β ((β.put s (.account v')).put d (.account w'))
  | secretMint {β d M v v' m m' e e' u u' p t i eo vo ro as as'} (head : c.key? 0 = some d)
      (spends : Call.spendLayout c.instruction = none)
      (still : c.instruction.transfers = false) (held : β.Account d v)
      (at' : v.base.mint = M) (mint : β.Mint M m) (authority : m.authority .mintTokens ≠ none)
      (running : m.paused = false) (thawed : v.base.isFrozen = false)
      (secret : v.core.secret = some e) (secret' : m.mintCore.mintBurn = some u)
      (proved : verifyMintProof c.ctx c.σ eo vo ro as = .ok (p, as'))
      (credit : ConfidentialMintBurn.mintedTo rt t p i e = .ok e')
      (supply : ConfidentialMintBurn.supplyMinted rt p i u = .ok u')
      (core : v'.core = { v.core with secret := some e' })
      (core' : m'.mintCore = { m.mintCore with mintBurn := some u' })
      (grows : v.Grows v') (keeps : m.Keeps m') :
      Trade d d none β ((β.put d (.account v')).put M (.mint m'))
  | secretBurn {β s M v v' m m' e e' u u' p t i eo vo ro as as'} (head : c.key? 0 = some s)
      (spends : Call.spendLayout c.instruction = none)
      (still : c.instruction.transfers = false) (held : β.Account s v)
      (at' : v.base.mint = M) (mint : β.Mint M m) (running : m.paused = false)
      (thawed : v.base.isFrozen = false) (endorsed : c.Endorsed v.base.owner)
      (unguarded : c.Unguarded v) (secret : v.core.secret = some e)
      (secret' : m.mintCore.mintBurn = some u)
      (proved : verifyBurnProof c.ctx c.σ eo vo ro as = .ok (p, as'))
      (debit : ConfidentialMintBurn.burnedFrom rt p i e = .ok e')
      (supply : ConfidentialMintBurn.supplyBurned rt t p u = .ok u')
      (core : v'.core = { v.core with secret := some e' })
      (core' : m'.mintCore = { m.mintCore with mintBurn := some u' })
      (grows : v.Grows v') (keeps : m.Keeps m') :
      Trade s s none β ((β.put s (.account v')).put M (.mint m'))

/-! ## Moves -/

/-- Everything else. -/
inductive Move : Book → Book → Prop
  | account {β k v v'} (held : β.Account k v) (core : v'.core = v.core) (grows : v.Grows v') :
      Move β (β.put k (.account v'))
  | allowance {β k v v' p q} (resets : c.Resets k) (held : β.Account k v)
      (thawed : v.base.isFrozen = false) (none : p.toOption = none → q = 0)
      (guarded : v.locked = true → c.ctx.inCpi = true → p.toOption = .none)
      (core : v'.core = { v.core with
        base := { v.base with delegate := p, delegatedAmount := q } })
      (grows : v.Grows v') : Move β (β.put k (.account v'))
  | owner {β k v v' o p} (resets : c.Resets k) (held : β.Account k v)
      (thawed : v.base.isFrozen = false) (unlocked : v.locked = false)
      (mutable : v.ext .immutableOwner = none)
      (core : v'.core = { v.core with base := { v.base with
        owner := o, delegate := .none, delegatedAmount := 0, closeAuthority := p } })
      (grows : v.Grows v') : Move β (β.put k (.account v'))
  | closer {β k v v' p} (held : β.Account k v) (thawed : v.base.isFrozen = false)
      (guarded : v.locked = true → c.ctx.inCpi = true → p.isSome = false)
      (core : v'.core = { v.core with base := { v.base with closeAuthority := p } })
      (grows : v.Grows v') : Move β (β.put k (.account v'))
  | state {β k v v' b} (held : β.Account k v) (notNative : v.base.isNative = false)
      (valid : b = AccountState.initialized.toU8 ∨ b = AccountState.frozen.toU8)
      (thaws : v.base.isFrozen = true → c.instruction = .thawAccount)
      (core : v'.core = { v.core with base := { v.base with state := b } })
      (grows : v.Grows v') : Move β (β.put k (.account v'))
  | lock {β k v v' b} (held : β.Account k v) (outside : c.ctx.inCpi = false)
      (toggles : ∃ enable, c.instruction = .cpiGuard enable)
      (core : v'.core = { v.core with locked := b }) (grows : v.Grows v') :
      Move β (β.put k (.account v'))
  | syncNative {β k v v'} {r a : UInt64} (held : β.Account k v)
      (native : v.base.isNativeOption.toOption = some r)
      (covered : a.toNat + r.toNat = (β k).lamports.toNat) (more : v.base.amount ≤ a)
      (core : v'.core = { v.core with base := { v.base with amount := a } })
      (grows : v.Grows v') : Move β (β.put k (.account v'))
  | grow {β k v v'} (n : ℕ) (held : β.Account k v) (notNative : v.base.isNative = false)
      (core : v'.core = v.core) (grows : v.Grows v') :
      Move β (β.set k ⟨(β k).lamports, n, .account v'⟩)
  | growNative {β k v v'} {r : UInt64} (n : ℕ) (held : β.Account k v)
      (native : v.base.isNative = true) (reserve : rt.minimumBalance n ≤ r)
      (covered : v.base.amount.toNat + r.toNat ≤ (β k).lamports.toNat)
      (core : v'.core = { v.core with base := { v.base with isNativeOption := .some r } })
      (grows : v.Grows v') : Move β (β.set k ⟨(β k).lamports, n, .account v'⟩)
  | growSecret {β k v v' m} (n : ℕ) (held : β.Account k v) (mint : β.Mint v.base.mint m)
      (extended : ∃ t, (m.ext t).isSome = true) (core : v'.core = v.core) (grows : v.Grows v') :
      Move β (β.set k ⟨(β k).lamports, n, .account v'⟩)
  | pay {β a b} {x : UInt64} (given : c.Given a) (given' : c.Given b) (can : β.CanPay a b x)
      (notNative : ∀ v, β.Account a v → v.base.isNative = false) : Move β (β.pay a b x)
  | openAccount {β k v m} (opens : c.isInitializeAccount = true) (other : (β k).contents = .other)
      (mint : β.Mint v.base.mint m)
      (required : ∀ t u, (m.ext t).isSome = true → u ∈ t.requiredInitAccountExtensions →
        (v.ext u).isSome = true)
      (native : v.base.isNative = true ↔ v.base.mint = Keys.nativeMint)
      (empty : v.base.isNative = false → v.base.amount = 0)
      (backed : ∀ r, v.base.isNativeOption.toOption = some r →
        r = rt.minimumBalance (β k).size ∧
          v.base.amount.toNat + r.toNat = (β k).lamports.toNat)
      (core : v.core = ⟨{ v.base with
        delegate := .none, delegatedAmount := 0, closeAuthority := .none },
        0, none, none, false, false⟩) :
      Move β (β.put k (.account v))
  | closeAccount {β k d v} (closes : c.Closes k) (given : c.Given k) (given' : c.Given d)
      (ne : k ≠ d) (held : β.Account k v) (closable : c.Closable v d)
      (can : β.CanPay k d (β k).lamports) :
      Move β ((β.pay k d (β k).lamports).set k ⟨0, 0, .other⟩)
  | configure {β k M v v' m a key b n y} (configures : c.instruction.configures = true)
      (held : β.Account k v) (at' : v.base.mint = M)
      (mint : β.Mint M m) (confidential : (m.get ConfidentialTransferMint).isSome = true)
      (chosen : c.Chosen v.base.owner key) (new : v.core.secret = none)
      (fees : y = v.core.fees ∨ v.core.fees = none ∧ y = some ⟨.zeroed⟩)
      (core : v'.core = { v.core with
        secret := some (ConfidentialTransfer.configuredAccount a key b n), fees := y })
      (grows : v.Grows v') : Move β (β.put k (.account v'))
  | setting {β k v v' e} {a b d : PodBool} (held : β.Account k v) (secret : v.core.secret = some e)
      (core : v'.core = { v.core with secret := some { e with
        approved := a, allowConfidentialCredits := b, allowNonConfidentialCredits := d } })
      (grows : v.Grows v') : Move β (β.put k (.account v'))
  | emptied {β k v v' e e' p} (held : β.Account k v) (secret : v.core.secret = some e)
      (proved : Attested .zeroCiphertext c.ctx c.σ p)
      (update : ConfidentialTransfer.emptied p e = .ok e')
      (core : v'.core = { v.core with secret := some e' }) (grows : v.Grows v') :
      Move β (β.put k (.account v'))
  | apply {β k v v' e e' n b} (applies : c.Applies k n b) (held : β.Account k v)
      (secret : v.core.secret = some e) (endorsed : c.Endorsed v.base.owner)
      (update : ConfidentialTransfer.pendingApplied rt n b e = .ok e')
      (core : v'.core = { v.core with secret := some e' }) (grows : v.Grows v') :
      Move β (β.put k (.account v'))
  | harvest {β a M v v' m m'} (held : β.Account a v) (at' : v.base.mint = M) (mint : β.Mint M m)
      (extended : ∃ t, (m.ext t).isSome = true)
      (core : v'.core = { v.core with withheld := 0 })
      (core' : m'.mintCore = { m.mintCore with withheld := m.mintWithheld + v.withheld })
      (grows : v.Grows v') (keeps : m.Keeps m') :
      Move β ((β.put a (.account v')).put M (.mint m'))
  | collectMint {β d M v v' m m'} {a : UInt64} (collects : c.instruction.collects = true)
      (held : β.Account d v) (at' : v.base.mint = M)
      (mint : β.Mint M m) (extended : ∃ t, (m.ext t).isSome = true)
      (thawed : v.base.isFrozen = false)
      (credit : a.toNat = v.base.amount.toNat + m.mintWithheld)
      (core : v'.core = { v.core with base := { v.base with amount := a } })
      (core' : m'.mintCore = { m.mintCore with withheld := 0 })
      (grows : v.Grows v') (keeps : m.Keeps m') :
      Move β ((β.put d (.account v')).put M (.mint m'))
  | collect {β a d M v v' w w' m} {b : UInt64} (collects : c.instruction.collects = true)
      (source : β.Account a v) (at' : v.base.mint = M)
      (mint : β.Mint M m) (extended : ∃ t, (m.ext t).isSome = true)
      (core : v'.core = { v.core with withheld := 0 })
      (target : (β.put a (.account v')).Account d w) (same : w.base.mint = M)
      (thawed : w.base.isFrozen = false)
      (credit : b.toNat = w.base.amount.toNat + v.withheld)
      (core' : w'.core = { w.core with base := { w.base with amount := b } })
      (grows : v.Grows v') (grows' : w.Grows w') :
      Move β ((β.put a (.account v')).put d (.account w'))
  | secretHarvest {β a M v v' m m' y k x x'} (held : β.Account a v) (at' : v.base.mint = M)
      (mint : β.Mint M m) (fees : v.core.fees = some y)
      (config : m.mintCore.secretFees = some (k, x))
      (sum : CiphertextArithmetic.add rt x y.withheldAmount = some x')
      (core : v'.core = { v.core with fees := some ⟨.zeroed⟩ })
      (core' : m'.mintCore = { m.mintCore with secretFees := some (k, x') })
      (grows : v.Grows v') (keeps : m.Keeps m') :
      Move β ((β.put a (.account v')).put M (.mint m'))
  | secretCollectMint {β d M v v' m m' e e' k x p err b}
      (collects : c.instruction.collects = true) (held : β.Account d v)
      (at' : v.base.mint = M) (mint : β.Mint M m) (thawed : v.base.isFrozen = false)
      (secret : v.core.secret = some e) (config : m.mintCore.secretFees = some (k, x))
      (proved : FeeProved c k x e p)
      (credit : ConfidentialTransferFee.feeCredited rt err p.secondCiphertext b e = .ok e')
      (core : v'.core = { v.core with secret := some e' })
      (core' : m'.mintCore = { m.mintCore with secretFees := some (k, .zeroed) })
      (grows : v.Grows v') (keeps : m.Keeps m') :
      Move β ((β.put d (.account v')).put M (.mint m'))
  | secretCollect {β β' d M v v' m e e' k x p err b}
      (collects : c.instruction.collects = true) (gathered : Gather rt M .zeroed β x β')
      (mint : β.Mint M m) (config : m.mintCore.secretFees.map (·.1) = some k)
      (held : β'.Account d v) (at' : v.base.mint = M) (thawed : v.base.isFrozen = false)
      (secret : v.core.secret = some e)
      (proved : FeeProved c k x e p)
      (credit : ConfidentialTransferFee.feeCredited rt err p.secondCiphertext b e = .ok e')
      (core : v'.core = { v.core with secret := some e' }) (grows : v.Grows v') :
      Move β (β'.put d (.account v'))
  | mint {β M m m'} (n : ℕ) (held : β.Mint M m) (core : m'.mintCore = m.mintCore)
      (keeps : m.Keeps m') : Move β (β.set M ⟨(β M).lamports, n, .mint m'⟩)
  | rewrite {β M m m' r} (n : ℕ) (rewrites : c.instruction.Rewrites m.records r) (held : β.Mint M m)
      (core : m'.mintCore = { m.mintCore with records := r }) (keeps : m.Keeps m') :
      Move β (β.set M ⟨(β M).lamports, n, .mint m'⟩)
  | setFee {β M m m' older newer} {bps : UInt16} {max : UInt64} (head : c.key? 0 = some M)
      (sets : c.instruction = .setTransferFee bps max) (held : β.Mint M m)
      (config : m.mintCore.fees = some (older, newer))
      (valid : bps.toNat ≤ Token.TransferFee.maxFeeBasisPoints)
      (core : m'.mintCore = { m.mintCore with
        fees := some (if newer.epoch ≤ c.ctx.epoch then newer else older,
          ⟨TransferFee.twoEpochsAhead c.ctx.epoch, max, bps⟩) })
      (keeps : m.Keeps m') : Move β (β.put M (.mint m'))
  | pause {β M m m' b} (head : c.key? 0 = some M)
      (toggles : c.instruction = if b then .pause else .resume) (held : β.Mint M m)
      (core : m'.mintCore = { m.mintCore with paused := b }) (keeps : m.Keeps m') :
      Move β (β.put M (.mint m'))
  | rotate {β M m m' e p} (held : β.Mint M m) (config : m.mintCore.mintBurn = some e)
      (proved : Attested .ciphertextCiphertextEquality c.ctx c.σ p)
      (checked : ConfidentialMintBurn.checkRotation p e = .ok ())
      (core : m'.mintCore = { m.mintCore with mintBurn := some { e with
        supplyElgamalPubkey := p.secondPubkey, confidentialSupply := p.secondCiphertext } })
      (keeps : m.Keeps m') : Move β (β.put M (.mint m'))
  | restate {β M m m' e x} (held : β.Mint M m) (config : m.mintCore.mintBurn = some e)
      (core : m'.mintCore = { m.mintCore with mintBurn := some { e with decryptableSupply := x } })
      (keeps : m.Keeps m') : Move β (β.put M (.mint m'))
  | applyBurn {β M m m' e e'} (held : β.Mint M m) (config : m.mintCore.mintBurn = some e)
      (update : ConfidentialMintBurn.burnApplied rt e = .ok e')
      (core : m'.mintCore = { m.mintCore with mintBurn := some e' })
      (keeps : m.Keeps m') : Move β (β.put M (.mint m'))
  | openMint {β M m} (opens : c.Initializes M m) (other : (β M).contents = .other)
      (ne : M ≠ Keys.nativeMint) (supply : m.base.supply = 0) (withheld : m.mintWithheld = 0)
      (fees : ∀ o n, m.mintCore.fees = some (o, n) → o = n ∧
        n.transferFeeBasisPoints.toNat ≤ Token.TransferFee.maxFeeBasisPoints)
      (secretFees : ∀ k x, m.mintCore.secretFees = some (k, x) → x = .zeroed)
      (mintBurn : ∀ e, m.mintCore.mintBurn = some e →
        e.confidentialSupply = .zeroed ∧ e.pendingBurn = .zeroed)
      (records : m.mintCore.records.Fresh) : Move β (β.put M (.mint m))
  | openNativeMint {β m} (n : ℕ) (opens : c.instruction = .createNativeMint)
      (other : (β Keys.nativeMint).contents = .other)
      (bare : m.Bare) (supply : m.base.supply = 0) :
      Move β (β.set Keys.nativeMint ⟨(β Keys.nativeMint).lamports, n, .mint m⟩)
  | closeMint {β M d m} (closes : c.Closes M) (given : c.Given M) (given' : c.Given d)
      (ne : M ≠ d) (held : β.Mint M m) (closable : (m.ext .mintCloseAuthority).isSome = true)
      (supply : m.base.supply = 0) (can : β.CanPay M d (β M).lamports) :
      Move β ((β.pay M d (β M).lamports).set M ⟨0, 0, .other⟩)

/-- Any number of moves. -/
abbrev Moves : Book → Book → Prop := Relation.ReflTransGen (Move rt c)

/-! ## Whole instructions -/

/-- The call of the transfer hook after a trade, if there is a program to call: both flags
are raised, the program runs, and both are lowered. -/
inductive Hooked (s d : Pubkey) : Option Pubkey → Book → Book → Prop
  | quiet {β} : Hooked s d none β β
  | called {β program v w σ σ'} (source : β.Account s v) (target : β.Account d w)
      (raised : σ.book = (β.put s (.account (v.flag true))).put d (.account (w.flag true)))
      (run : c.ctx.executeHook σ = .ok σ') :
      Hooked s d (some program) β
        ((σ'.book.put s (.account (v.flag false))).put d (.account (w.flag false)))

/-- What a whole instruction does. -/
inductive Course : Book → Book → Prop
  | moves {β β'} (other : c.instruction.trades = false) (h : Moves rt c β β') : Course β β'
  | trade {s d hook β β₁ β'} (trades : c.instruction.trades = true)
      (h : Trade rt c s d hook β β₁) (rest : Hooked c s d hook β₁ β') : Course β β'

end Transitions

end SolanaEasy.Token
