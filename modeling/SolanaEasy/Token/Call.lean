import SolanaEasy.Token.Governance

/-!
# Calls — one instruction and what it saw

An instruction together with the ledger it started on, and the questions the
handlers ask about it: which keys were passed, who was endorsed by
`validate_owner`, what the mint said. Everything here is about the state before
the instruction.
-/

namespace SolanaEasy.Token

open Processor

/-! ## The book -/

namespace Book

variable (β : Book)

def Account (k : Pubkey) (v : View PodAccount) : Prop := (β k).contents = .account v

def Mint (k : Pubkey) (m : View PodMint) : Prop := (β k).contents = .mint m

/-- Lamports from `a` to `b`. -/
def pay (a b : Pubkey) (x : UInt64) : Book :=
  let β₁ := β.set a { β a with lamports := (β a).lamports - x }
  β₁.set b { β₁ b with lamports := (β₁ b).lamports + x }

/-- The payment neither overdraws nor overflows. -/
structure CanPay (a b : Pubkey) (x : UInt64) : Prop where
  enough : x ≤ (β a).lamports
  fits : a ≠ b → (β b).lamports.toNat + x.toNat < 2 ^ 64

variable {β}

@[simp] theorem contents_pay (a b k : Pubkey) (x : UInt64) :
    ((β.pay a b x) k).contents = (β k).contents := by
  simp only [pay, set, Function.update_apply]
  split_ifs with hb ha
  · rw [hb, ha]
  · rw [hb]
  · rw [‹k = a›]
  · rfl

@[simp] theorem size_pay (a b k : Pubkey) (x : UInt64) :
    ((β.pay a b x) k).size = (β k).size := by
  simp only [pay, set, Function.update_apply]
  split_ifs with hb ha
  · rw [hb, ha]
  · rw [hb]
  · rw [‹k = a›]
  · rfl

theorem Account.unique {k : Pubkey} {v w : View PodAccount} (h : β.Account k v)
    (h' : β.Account k w) : v = w := Contents.account.inj (h.symm.trans h')

theorem Mint.unique {k : Pubkey} {m n : View PodMint} (h : β.Mint k m) (h' : β.Mint k n) :
    m = n := Contents.mint.inj (h.symm.trans h')

theorem Account.not_mint {k : Pubkey} {v : View PodAccount} {m : View PodMint}
    (h : β.Account k v) : ¬ β.Mint k m := fun h' => Contents.noConfusion (h.symm.trans h')

theorem Account.put_of_ne {k j : Pubkey} {v : View PodAccount} (h : β.Account k v) (c : Contents)
    (hne : k ≠ j) : (β.put j c).Account k v := by
  rw [Account, Book.put_of_ne _ _ hne]
  exact h

theorem Mint.put_of_ne {k j : Pubkey} {m : View PodMint} (h : β.Mint k m) (c : Contents)
    (hne : k ≠ j) : (β.put j c).Mint k m := by
  rw [Mint, Book.put_of_ne _ _ hne]
  exact h

theorem account_put (β : Book) (k : Pubkey) (v : View PodAccount) :
    (β.put k (.account v)).Account k v := by
  rw [Account, put_same]

theorem mint_put (β : Book) (k : Pubkey) (m : View PodMint) : (β.put k (.mint m)).Mint k m := by
  rw [Mint, put_same]

end Book

/-! ## Instructions -/

/-- Instructions that move, make, destroy or convert tokens. -/
def Instruction.trades : Instruction → Bool
  | .transfer _ | .transferChecked .. | .transferCheckedWithFee .. | .mintTo _ | .mintToChecked ..
  | .burn _ | .burnChecked .. | .deposit .. | .withdraw .. | .confidentialTransfer _
  | .confidentialMint _ | .confidentialBurn _ => true
  | _ => false

/-- Instructions that move tokens from one account to another. -/
def Instruction.transfers : Instruction → Bool
  | .transfer _ | .transferChecked .. | .transferCheckedWithFee .. | .confidentialTransfer _ => true
  | _ => false

/-- Where a transfer expects the destination. -/
def Instruction.destinationIndex : Instruction → ℕ
  | .transfer _ => 1
  | _ => 2

/-- Instructions that make tokens in the open, or take them in and out of hiding. -/
def Instruction.converts : Instruction → Bool
  | .mintTo _ | .mintToChecked .. | .deposit .. | .withdraw .. => true
  | _ => false

/-- Instructions that pay out withheld fees. -/
def Instruction.collects : Instruction → Bool
  | .withdrawWithheldTokensFromMint | .withdrawWithheldTokensFromAccounts _
  | .confidentialWithdrawWithheldTokensFromMint ..
  | .confidentialWithdrawWithheldTokensFromAccounts .. => true
  | _ => false

/-- Instructions that settle the key of a confidential account. -/
def Instruction.configures : Instruction → Bool
  | .configureAccount .. | .configureAccountWithRegistry => true
  | _ => false

/-- What of the things a mint shows an instruction may change. -/
def Instruction.rewrites : Instruction → ExtensionType → Bool
  | .updateRate _, t => t == .interestBearingConfig
  | .updateMultiplier .., t => t == .scaledUiAmount
  | .initializeGroup .., t | .updateGroupMaxSize _, t | .updateGroupAuthority _, t =>
    t == .tokenGroup
  | .initializeMember, t => t == .tokenGroup || t == .tokenGroupMember
  | _, _ => false

/-- The rest is left as it is. -/
structure Instruction.Rewrites (i : Instruction) (r r' : MintRecords) : Prop where
  interest : i.rewrites .interestBearingConfig = true ∨ r'.interest = r.interest
  multiplier : i.rewrites .scaledUiAmount = true ∨ r'.multiplier = r.multiplier
  group : i.rewrites .tokenGroup = true ∨ r'.group = r.group
  member : i.rewrites .tokenGroupMember = true ∨ r'.member = r.member

theorem View.rewrites_setExt {m : View PodMint} {i : Instruction} {t : ExtensionType} {b : Bytes}
    (h : t = .tokenMetadata ∨ i.rewrites t = true) :
    i.Rewrites m.records (m.setExt t b).records := by
  have hget : ∀ (V : Type) [Pod V] [Extension V], Extension.type V ≠ .tokenMetadata →
      i.rewrites (Extension.type V) = true ∨ (m.setExt t b).get V = m.get V := by
    intro V _ _ hV
    by_cases ht : Extension.type V = t
    · exact .inl (ht ▸ h.resolve_left (ht ▸ hV))
    · exact .inr (get_setExt_of_ne m b ht)
  constructor
  · exact (hget InterestBearingConfig (by decide)).imp_right (congrArg (Option.map _))
  · exact (hget ScaledUiAmountConfig (by decide)).imp_right (congrArg (Option.map _))
  · exact hget Token.TokenGroup (by decide)
  · exact hget TokenGroupMember (by decide)

/-- One instruction and what it sees when it starts. -/
structure Call where
  ctx : Context
  accounts : List AccountInfo
  instruction : Instruction
  σ : Ledger

namespace Call

variable (c : Call)

def run (rt : Runtime) : Result Ledger := process rt c.ctx c.accounts c.instruction c.σ

/-- The key at a position of the account list. -/
def key? (n : Nat) : Option Pubkey := (c.accounts[n]?).map (·.key)

/-- The key is one of an account that was passed. -/
def Given (k : Pubkey) : Prop := ∃ info ∈ c.accounts, info.key = k

/-- `validate_owner` succeeded for the key, on some of the accounts passed. -/
def Endorsed (key : Pubkey) : Prop :=
  ∃ authorityInfo ∈ c.accounts, ∃ signers, signers.Sublist c.accounts ∧
    checkOwner c.σ authorityInfo signers key = .ok ()

/-- Where a transfer or a burn expects the mint and the authority. -/
def spendLayout : Instruction → Option (Option Nat × Nat)
  | .transfer _ => some (none, 2)
  | .transferChecked .. | .transferCheckedWithFee .. => some (some 1, 3)
  | .burn _ | .burnChecked .. => some (some 1, 2)
  | _ => none

/-- The authority of an instruction in which several keys may act for one account: a
transfer, a burn or a close. -/
def authority : Option Pubkey :=
  match c.instruction with
  | .closeAccount => c.key? 2
  | i => (spendLayout i).bind fun p => c.key? p.2

/-- The permanent delegate that a transfer or a burn reads. -/
def permanentDelegate : Option Pubkey :=
  (spendLayout c.instruction).bind fun p => p.1.bind fun n => (c.key? n).bind fun M =>
    (toOption (load c.σ PodMint M)).bind getPermanentDelegate

def isBurn : Bool :=
  match c.instruction with
  | .burn _ | .burnChecked .. => true
  | _ => false

/-- The instruction sets the allowance of `k` anew. -/
def Resets (k : Pubkey) : Prop :=
  c.key? 0 = some k ∧
    match c.instruction with
    | .approve _ | .approveChecked .. | .revoke | .setAuthority .accountOwner _ => True
    | _ => False

/-- The instruction is about the mint at `M`, or starts with an account of it. -/
def Concerns (M : Pubkey) : Prop :=
  c.key? 0 = some M ∨ ∃ k v, c.key? 0 = some k ∧ c.σ.book.Account k v ∧ v.base.mint = M

/-- The instruction closes the account at `k`. -/
def Closes (k : Pubkey) : Prop := c.key? 0 = some k ∧ c.instruction = .closeAccount

/-- The instruction applies the pending balance of the account at `k`, with this counter and
this balance of the owner's. -/
def Applies (k : Pubkey) (n : UInt64) (b : PodAeCiphertext) : Prop :=
  c.key? 0 = some k ∧ c.instruction = .applyPendingBalance n b

/-- What was checked before the account at `k` was closed, its lamports going to `d`. -/
structure Closable (v : View PodAccount) (d : Pubkey) : Prop where
  target : c.key? 1 = some d
  empty : v.base.isNative = false → v.base.amount = 0
  withheld : v.withheld = 0
  hidden : ∀ e, v.core.secret = some e → e.closable = .ok ()
  fees : ∀ y, v.core.fees = some y → y.withheldAmount = .zeroed
  guarded : v.locked = true → c.ctx.inCpi = true →
    d = v.base.owner ∨
      v.base.isOwnedBySystemProgramOrIncinerator = true ∧ d = Keys.incinerator

/-- The instruction initialises a token account. -/
def isInitializeAccount : Bool :=
  match c.instruction with
  | .initializeAccount | .initializeAccount2 _ | .initializeAccount3 _ => true
  | _ => false

/-- The instruction initialises the mint at `M`, whose extensions are in place. -/
def Initializes (M : Pubkey) (m : View PodMint) : Prop :=
  c.key? 0 = some M ∧ (∃ s, unpackUninitialized PodMint (c.σ M).data = .ok s ∧ m.ext = s.view.ext) ∧
    match c.instruction with
    | .initializeMint .. | .initializeMint2 .. => True
    | _ => False

/-- Who stood behind taking `x` from an account, and the allowance afterwards. -/
inductive SpentBy (v : View PodAccount) (x : UInt64) : PodCOption Pubkey → UInt64 → Prop
  | permanent {d m} (acts : c.authority = some d) (delegate : c.permanentDelegate = some d)
      (read : load c.σ PodMint v.base.mint = .ok m) (of : getPermanentDelegate m = some d)
      (endorsed : c.Endorsed d) : SpentBy v x v.base.delegate v.base.delegatedAmount
  | delegate {d r} (acts : c.authority = some d) (other : c.permanentDelegate ≠ some d)
      (delegate : v.base.delegate.toOption = some d)
      (owned : c.isBurn = true → v.base.isOwnedBySystemProgramOrIncinerator = false)
      (endorsed : c.Endorsed d) (rest : r.toNat + x.toNat = v.base.delegatedAmount.toNat) :
      SpentBy v x (if r = 0 then .none else v.base.delegate) r
  | owner (other : c.permanentDelegate ≠ c.authority)
      (other' : v.base.delegate.toOption ≠ c.authority) (endorsed : c.Endorsed v.base.owner) :
      SpentBy v x v.base.delegate v.base.delegatedAmount
  | ownerless (burn : c.isBurn = true) (own : v.base.isOwnedBySystemProgramOrIncinerator = true) :
      SpentBy v x v.base.delegate v.base.delegatedAmount

/-- What a transfer of `x` was told: the fee and the program to call, by a mint that is
not paused, or by an account without the markers that would have asked for the mint. -/
inductive Consults (v : View PodAccount) (x : UInt64) : UInt64 → Option Pubkey → Prop
  | mint {m fee} (read : load c.σ PodMint v.base.mint = .ok m) (running : m.view.paused = false)
      (charged : calculatedFee c.ctx m x = .ok fee) : Consults v x fee m.view.hookProgram
  | markers (hook : v.get TransferHookAccount = none) (fee : v.get TransferFeeAmount = none)
      (pause : v.get PausableAccount = none) : Consults v x 0 none

/-- The CPI guard lets the authority of the instruction act on the account. -/
def Guarded (v : View PodAccount) : Prop :=
  v.locked = true → c.ctx.inCpi = true → ∃ a, c.authority = some a ∧ a ≠ v.base.owner

/-- The account is not locked, or nobody calls the program. -/
def Unguarded (v : View PodAccount) : Prop := v.locked = true → c.ctx.inCpi = false

/-- How the key of a confidential account was settled: its owner was endorsed and the key
proved, or a registry of that owner names it. -/
inductive Chosen (owner : Pubkey) (key : PodElGamalPubkey) : Prop
  | proved {p : PubkeyValidityProofContext} (proof : Attested .pubkeyValidity c.ctx c.σ p)
      (key : p.pubkey = key) (endorsed : c.Endorsed owner)
  | registered {r : Pubkey} (registry : (c.σ r).owner = Keys.elgamalRegistryProgram)
      (entry : Pod.decode? ConfidentialTransfer.ElGamalRegistry (c.σ r).data =
        some ⟨owner, key⟩)

end Call

end SolanaEasy.Token
