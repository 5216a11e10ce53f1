import SolanaEasy.Token.Run

/-!
# ElGamal registry — the keys of wallets

A program of its own: at an address derived from a wallet it keeps the ElGamal key which that
wallet has chosen. The token program reads such an account when it configures a token account
for somebody who does not sign.
-/

namespace SolanaEasy.Token.Registry

open Processor.ConfidentialTransfer (ElGamalRegistry)

/-- `RegistryInstruction`. -/
inductive RegistryInstruction where
  | createRegistry (proofInstructionOffset : Int8)
  | updateRegistry (proofInstructionOffset : Int8)
deriving DecidableEq

/-- `RegistryInstruction::unpack`. -/
def RegistryInstruction.unpack : Bytes → Result RegistryInstruction
  | 0 :: offset :: _ => .ok (.createRegistry offset.toInt8)
  | 1 :: offset :: _ => .ok (.updateRegistry offset.toInt8)
  | _ => .error .invalidInstructionData

/-- `ELGAMAL_REGISTRY_ACCOUNT_LEN`. -/
def elgamalRegistryAccountLen : Nat := 64

/-- The program writes to an account of its own. -/
def writeRegistry (σ : Ledger) (k : Pubkey) (registry : ElGamalRegistry) : Ledger :=
  σ.set k { σ k with data := Pod.toBytes registry }

/-- `create_pda_account`. The system program's `allocate` and `assign` are signed with the
seeds of the address. -/
def createPdaAccount (rt : Runtime) (space : Nat) (newPdaAccount : Pubkey) (σ : Ledger) :
    Result Ledger := do
  let requiredLamports := saturatingSub (rt.minimumBalance space) (σ newPdaAccount).lamports
  failIf (requiredLamports > 0) .accountNotRentExempt
  failIf ((σ newPdaAccount).owner != Keys.systemProgram || !(σ newPdaAccount).data.isEmpty)
    RuntimeFault.systemTransfer
  return σ.set newPdaAccount
    ⟨(σ newPdaAccount).lamports, Keys.elgamalRegistryProgram, zeros space⟩

/-- `process_create_registry_account`; `address` is `get_elgamal_registry_address`. -/
def processCreateRegistryAccount (rt : Runtime) (address : Pubkey → Pubkey) (ctx : Context)
    (accounts : List AccountInfo) (proofInstructionOffset : Int) (σ : Ledger) : Result Ledger :=
  match accounts with
  | registryInfo :: walletInfo :: _ :: rest => do
    failIf (!walletInfo.isSigner) .missingRequiredSignature
    let (proofContext, _) ← verifyAndExtractContext PubkeyValidityProofContext .pubkeyValidity
      ctx σ proofInstructionOffset none rest
    failIf (address walletInfo.key != registryInfo.key) .invalidSeeds
    let σ ← createPdaAccount rt elgamalRegistryAccountLen registryInfo.key σ
    let registry ← okOr .invalidArgument (Pod.decode? ElGamalRegistry (σ registryInfo.key).data)
    return writeRegistry σ registryInfo.key
      { registry with owner := walletInfo.key, elgamalPubkey := proofContext.pubkey }
  | _ => .error .notEnoughAccountKeys

/-- `validate_registry_owner`. -/
def validateRegistryOwner (ownerInfo : AccountInfo) (expectedOwner : Pubkey) : Result Unit := do
  failIf (expectedOwner != ownerInfo.key) .invalidAccountOwner
  failIf (!ownerInfo.isSigner) .missingRequiredSignature

/-- `validate_program_owner`. -/
def validateProgramOwner (σ : Ledger) (registryKey : Pubkey) : Result Unit :=
  failIf ((σ registryKey).owner != Keys.elgamalRegistryProgram) .invalidAccountOwner

/-- `process_update_registry_account`. -/
def processUpdateRegistryAccount (ctx : Context) (accounts : List AccountInfo)
    (proofInstructionOffset : Int) (σ : Ledger) : Result Ledger :=
  match accounts with
  | registryInfo :: rest => do
    let registry ← okOr .invalidArgument (Pod.decode? ElGamalRegistry (σ registryInfo.key).data)
    let (proofContext, rest) ← verifyAndExtractContext PubkeyValidityProofContext .pubkeyValidity
      ctx σ proofInstructionOffset none rest
    match rest with
    | ownerInfo :: _ => do
      validateRegistryOwner ownerInfo registry.owner
      validateProgramOwner σ registryInfo.key
      return writeRegistry σ registryInfo.key
        { registry with elgamalPubkey := proofContext.pubkey }
    | [] => .error .notEnoughAccountKeys
  | [] => .error .notEnoughAccountKeys

/-- An instruction of the registry program, and what it sees when it starts. -/
structure RegistryCall where
  ctx : Context
  accounts : List AccountInfo
  input : Bytes
  σ : Ledger

namespace RegistryCall

variable (r : RegistryCall)

/-- `process_instruction`. -/
def run (rt : Runtime) (address : Pubkey → Pubkey) : Result Ledger := do
  match ← RegistryInstruction.unpack r.input with
  | .createRegistry offset =>
    processCreateRegistryAccount rt address r.ctx r.accounts offset.toInt r.σ
  | .updateRegistry offset => processUpdateRegistryAccount r.ctx r.accounts offset.toInt r.σ

/-- The account that the instruction is about. -/
def key? : Option Pubkey := r.accounts.head?.map (·.key)

/-- The owner signed, and the key was proved. -/
structure Certifies (owner : Pubkey) (key : PodElGamalPubkey) : Prop where
  signed : ∃ info ∈ r.accounts, info.key = owner ∧ info.isSigner = true
  proved : ∃ p : PubkeyValidityProofContext, Attested .pubkeyValidity r.ctx r.σ p ∧ p.pubkey = key

end RegistryCall

/-! ## What an instruction does -/

section Run

variable {rt : Runtime} {address : Pubkey → Pubkey} {r : RegistryCall} {σ' : Ledger} {k : Pubkey}

/-- The instruction leaves one account with an owner that signed and a key that was proved. -/
structure RegistryCall.Writes (r : RegistryCall) (σ' : Ledger) (k owner : Pubkey)
    (key : PodElGamalPubkey) : Prop where
  head : r.key? = some k
  foreign : (r.σ k).owner ≠ Keys.tokenProgram
  eq : σ' = r.σ.set k
    ⟨(r.σ k).lamports, Keys.elgamalRegistryProgram, Pod.toBytes (⟨owner, key⟩ : ElGamalRegistry)⟩
  certified : r.Certifies owner key

theorem processCreateRegistryAccount_writes {offset : Int}
    (h : processCreateRegistryAccount rt address r.ctx r.accounts offset r.σ = .ok σ') :
    ∃ k owner key, r.Writes σ' k owner key := by
  unfold processCreateRegistryAccount at h
  split at h
  · rename_i registryInfo walletInfo systemInfo rest haccounts
    simp only [createPdaAccount, bind_eq_ok, exists_unit, failIf_eq_ok, Prod.exists,
      bne_eq_false_iff_eq, Bool.not_eq_false', Bool.or_eq_false_iff, pure_eq_ok] at h
    obtain ⟨hsigner, p, _, hproof, haddress, _, ⟨_, ⟨howner, _⟩, rfl⟩, _, _, rfl⟩ := h
    refine ⟨registryInfo.key, walletInfo.key, p.pubkey, ?_, ?_, ?_, ⟨walletInfo, ?_, rfl, hsigner⟩,
      p, ⟨_, _, _, _, hproof⟩, rfl⟩
    · rw [RegistryCall.key?, haccounts]
      rfl
    · rw [howner]
      decide
    · rw [writeRegistry, Ledger.set_same, Ledger.set_set]
    · rw [haccounts]
      simp
  · cases h

theorem processUpdateRegistryAccount_writes {offset : Int}
    (h : processUpdateRegistryAccount r.ctx r.accounts offset r.σ = .ok σ') :
    ∃ k owner key, r.Writes σ' k owner key := by
  unfold processUpdateRegistryAccount at h
  split at h
  · rename_i registryInfo rest haccounts
    simp only [bind_eq_ok, Prod.exists] at h
    obtain ⟨registry, _, p, rest', hproof, h⟩ := h
    obtain _ | ⟨ownerInfo, more⟩ := rest'
    · cases h
    simp only [validateRegistryOwner, validateProgramOwner, bind_eq_ok, exists_unit, failIf_eq_ok,
      bne_eq_false_iff_eq, Bool.not_eq_false', pure_eq_ok] at h
    obtain ⟨⟨howner, hsigner⟩, hprogram, rfl⟩ := h
    have hmem : ownerInfo ∈ r.accounts := by
      rw [haccounts]
      exact List.mem_cons_of_mem _
        ((verifyAndExtractContext_suffix hproof).mem (by simp))
    refine ⟨registryInfo.key, registry.owner, p.pubkey, ?_, ?_, ?_,
      ⟨ownerInfo, hmem, howner.symm, hsigner⟩, p, ⟨_, _, _, _, hproof⟩, rfl⟩
    · rw [RegistryCall.key?, haccounts]
      rfl
    · rw [hprogram]
      decide
    · rw [writeRegistry, ← hprogram]
  · cases h

theorem RegistryCall.run_writes (h : r.run rt address = .ok σ') :
    ∃ k owner key, r.Writes σ' k owner key := by
  simp only [run, bind_eq_ok] at h
  obtain ⟨i, _, h⟩ := h
  cases i with
  | createRegistry offset => exact processCreateRegistryAccount_writes h
  | updateRegistry offset => exact processUpdateRegistryAccount_writes h

/-- To the token program the registry is one of the others. -/
theorem RegistryCall.run_envStep (h : r.run rt address = .ok σ') : EnvStep r.σ σ' := by
  obtain ⟨k, owner, key, hwrites⟩ := run_writes h
  intro j
  rw [hwrites.eq]
  by_cases hj : j = k
  · subst hj
    rw [Ledger.set_same]
    refine ⟨fun howner => absurd howner hwrites.foreign, fun _ howner => ?_⟩
    exact absurd howner (by decide : Keys.elgamalRegistryProgram ≠ Keys.tokenProgram)
  · rw [Ledger.set_of_ne _ _ hj]
    exact .refl j _

end Run

end SolanaEasy.Token.Registry
