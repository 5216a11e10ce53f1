import SolanaEasy.Lib.Pod
import SolanaEasy.Token.Error
import Mathlib.Data.Fintype.EquivFin

/-!
# Base state — mints, token accounts and multisigs

The Pod views of `interface/src/pod.rs`, field by field. A `Pubkey` is the 256
bits of its 32 bytes; an option is the tag word together with a value that is
present in the bytes whatever the tag says.
-/

namespace SolanaEasy.Token

abbrev Pubkey := BitVec 256

namespace Keys

/-- `solana_sdk_ids::system_program::ID`. -/
def systemProgram : Pubkey := 0
/-- `solana_sdk_ids::incinerator::ID`. -/
def incinerator : Pubkey := 0xe13800e1a69cf7cccd2e4dd4db00ffbf11c9bd796011348d72903300
/-- `solana_sdk_ids::sysvar::rent::ID`. -/
def rentSysvar : Pubkey := 0x8ad9dbe344fda19b08eeda587ff14a3d4cc98c21515c2c1917d5a706
/-- `solana_sdk_ids::sysvar::instructions::ID`. -/
def instructionsSysvar : Pubkey := 0x85fcbbadba57556218fc624c1c0c2fd5504d4da3566d17b1817d5a706
/-- `solana_zk_sdk::zk_elgamal_proof_program::ID`. -/
def zkProofProgram : Pubkey := 0x4065d0056c935574c038f6cc536aa71b684d376b1a28eaaee2ac756308
/-- `spl_elgamal_registry_interface::ID`. -/
def elgamalRegistryProgram : Pubkey :=
  0x87a63ad65caaaab6f01ba0de850b603023d3388158d0377d3914d44ac910b80c
/-- `spl_token_2022_interface::ID`. -/
def tokenProgram : Pubkey := 0xfc8ba1d828f9bdfe270db9834dfc1ab6dacd6ce4bc5d4218de8f75eee1f6dd06
/-- `native_mint::ID`. -/
def nativeMint : Pubkey := 0x5e5b3e5cd849dfc919fa90ad4a26bbc68a1ee976a4047caab8e65fde9ffc0d83

end Keys

/-! ## Machine integers -/

/-- `u64::checked_add`. -/
def checkedAdd (a b : UInt64) : Option UInt64 :=
  if a.toNat + b.toNat < 2 ^ 64 then some (a + b) else none

/-- `u64::checked_sub`. -/
def checkedSub (a b : UInt64) : Option UInt64 :=
  if b.toNat ≤ a.toNat then some (a - b) else none

/-- `u64::saturating_sub`. -/
def saturatingSub (a b : UInt64) : UInt64 :=
  if b ≤ a then a - b else 0

theorem checkedAdd_eq_some {a b c : UInt64} :
    checkedAdd a b = some c ↔ c.toNat = a.toNat + b.toNat := by
  unfold checkedAdd
  split
  · rename_i h
    rw [Option.some.injEq, ← UInt64.toNat_inj, UInt64.toNat_add, Nat.mod_eq_of_lt h]
    exact eq_comm
  · rename_i h
    have := c.toNat_lt
    simp only [reduceCtorEq, false_iff]
    omega

theorem checkedSub_eq_some {a b c : UInt64} :
    checkedSub a b = some c ↔ c.toNat + b.toNat = a.toNat := by
  unfold checkedSub
  split
  · rename_i h
    rw [Option.some.injEq, ← UInt64.toNat_inj,
      UInt64.toNat_sub_of_le a b (UInt64.le_iff_toNat_le.mpr h)]
    omega
  · rename_i h
    simp only [reduceCtorEq, false_iff]
    omega

/-! ## Pod primitives -/

/-- A boolean byte: every nonzero byte reads as `true`. -/
structure PodBool where
  byte : UInt8
deriving DecidableEq, Repr, Inhabited

namespace PodBool

def toBool (b : PodBool) : Bool := b.byte != 0

def ofBool (b : Bool) : PodBool := ⟨if b then 1 else 0⟩

instance : Coe PodBool Bool := ⟨toBool⟩

@[simp] theorem toBool_ofBool (b : Bool) : (ofBool b).toBool = b := by cases b <;> rfl

instance : Pod PodBool := Pod.ofEquiv PodBool PodBool.byte PodBool.mk (fun _ => rfl) (fun _ => rfl)

end PodBool

/-- `PodCOption<T>`: a four-byte tag and a value. -/
structure PodCOption (α : Type) where
  option : BitVec 32
  value : α
deriving DecidableEq, Repr

namespace PodCOption

variable {α : Type}

def NONE : BitVec 32 := 0
def SOME : BitVec 32 := 1

def none [Inhabited α] : PodCOption α := ⟨NONE, default⟩

def some (a : α) : PodCOption α := ⟨SOME, a⟩

def isSome (o : PodCOption α) : Bool := o.option == SOME

def isNone (o : PodCOption α) : Bool := o.option == NONE

def unwrapOr (o : PodCOption α) (d : α) : α := if o.option == NONE then d else o.value

/-- `ok_or`, and the pattern `PodCOption { option: SOME, value }`. -/
def toOption (o : PodCOption α) : Option α := if o.option == SOME then .some o.value else .none

/-- `From<COption<T>>`. -/
def ofOption [Inhabited α] : Option α → PodCOption α
  | .none => none
  | .some a => some a

@[simp] theorem isSome_none [Inhabited α] : (none : PodCOption α).isSome = false := rfl
@[simp] theorem isNone_none [Inhabited α] : (none : PodCOption α).isNone = true := rfl
@[simp] theorem isSome_some (a : α) : (some a).isSome = true := rfl
@[simp] theorem isNone_some (a : α) : (some a).isNone = false := rfl
@[simp] theorem toOption_none [Inhabited α] : (none : PodCOption α).toOption = .none := rfl
@[simp] theorem toOption_some (a : α) : (some a).toOption = .some a := rfl

theorem isSome_toOption (o : PodCOption α) : o.toOption.isSome = o.isSome := by
  rw [toOption, isSome]
  cases o.option == SOME with
  | true => rfl
  | false => rfl

instance [Pod α] : Pod (PodCOption α) :=
  Pod.ofEquiv (PodCOption α) (fun o => (o.option, o.value)) (fun p => ⟨p.1, p.2⟩)
    (fun _ => rfl) (fun _ => rfl)

end PodCOption

/-- `OptionalNonZeroPubkey`: the zero key stands for `None`. -/
structure OptionalNonZeroPubkey where
  key : Pubkey
deriving DecidableEq, Repr, Inhabited

namespace OptionalNonZeroPubkey

/-- `Option::<Pubkey>::from`. -/
def toOption (o : OptionalNonZeroPubkey) : Option Pubkey :=
  if o.key == 0 then none else some o.key

/-- `TryFrom<PodCOption<Pubkey>>`. -/
def ofPodCOption (p : PodCOption Pubkey) : Result OptionalNonZeroPubkey :=
  if p.option == PodCOption.SOME then
    if p.value == 0 then .error .invalidArgument else .ok ⟨p.value⟩
  else .ok ⟨0⟩

/-- `TryFrom<Option<Pubkey>>` and `TryFrom<COption<Pubkey>>`. -/
def ofOption : Option Pubkey → Result OptionalNonZeroPubkey
  | none => .ok ⟨0⟩
  | some k => if k == 0 then .error .invalidArgument else .ok ⟨k⟩

instance : Pod OptionalNonZeroPubkey :=
  Pod.ofEquiv OptionalNonZeroPubkey key mk (fun _ => rfl) (fun _ => rfl)

end OptionalNonZeroPubkey

/-! ## The base states -/

/-- `AccountState`, as the byte it is stored as. -/
inductive AccountState where
  | uninitialized
  | initialized
  | frozen
deriving DecidableEq, Repr

namespace AccountState

def toU8 : AccountState → UInt8
  | uninitialized => 0
  | initialized => 1
  | frozen => 2

/-- `AccountState::try_from_primitive`. -/
def ofU8 (b : UInt8) : Option AccountState :=
  if b == 0 then some uninitialized
  else if b == 1 then some initialized
  else if b == 2 then some frozen
  else none

end AccountState

structure PodMint where
  mintAuthority : PodCOption Pubkey
  supply : UInt64
  decimals : UInt8
  isInitialized : PodBool
  freezeAuthority : PodCOption Pubkey
deriving DecidableEq

instance : Pod PodMint :=
  Pod.ofEquiv PodMint
    (fun m => (m.mintAuthority, m.supply, m.decimals, m.isInitialized, m.freezeAuthority))
    (fun p => ⟨p.1, p.2.1, p.2.2.1, p.2.2.2.1, p.2.2.2.2⟩) (fun _ => rfl) (fun _ => rfl)

structure PodAccount where
  mint : Pubkey
  owner : Pubkey
  amount : UInt64
  delegate : PodCOption Pubkey
  state : UInt8
  isNativeOption : PodCOption UInt64
  delegatedAmount : UInt64
  closeAuthority : PodCOption Pubkey
deriving DecidableEq

namespace PodAccount

instance : Pod PodAccount :=
  Pod.ofEquiv PodAccount
    (fun a => (a.mint, a.owner, a.amount, a.delegate, a.state, a.isNativeOption,
      a.delegatedAmount, a.closeAuthority))
    (fun p => ⟨p.1, p.2.1, p.2.2.1, p.2.2.2.1, p.2.2.2.2.1, p.2.2.2.2.2.1, p.2.2.2.2.2.2.1,
      p.2.2.2.2.2.2.2⟩) (fun _ => rfl) (fun _ => rfl)

def isInitialized (a : PodAccount) : Bool :=
  a.state == AccountState.initialized.toU8 || a.state == AccountState.frozen.toU8

def isFrozen (a : PodAccount) : Bool := a.state == AccountState.frozen.toU8

def isNative (a : PodAccount) : Bool := a.isNativeOption.isSome

def isOwnedBySystemProgramOrIncinerator (a : PodAccount) : Bool :=
  a.owner == Keys.systemProgram || a.owner == Keys.incinerator

end PodAccount

/-- `MAX_SIGNERS`. -/
def maxSigners : Nat := 11

structure PodMultisig where
  m : UInt8
  n : UInt8
  isInitialized : PodBool
  signers : PodArray Pubkey 11
deriving DecidableEq

instance : Pod PodMultisig :=
  Pod.ofEquiv PodMultisig (fun s => (s.m, s.n, s.isInitialized, s.signers))
    (fun p => ⟨p.1, p.2.1, p.2.2.1, p.2.2.2⟩) (fun _ => rfl) (fun _ => rfl)

/-- `Account::LEN`. -/
def accountLen : Nat := 165
/-- `Mint::LEN`. -/
def mintLen : Nat := 82
/-- `Multisig::LEN`. -/
def multisigLen : Nat := 355

theorem size_podMint : Pod.size PodMint = mintLen := rfl
theorem size_podAccount : Pod.size PodAccount = accountLen := rfl
theorem size_podMultisig : Pod.size PodMultisig = multisigLen := rfl

end SolanaEasy.Token
