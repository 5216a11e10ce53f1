import SolanaEasy.Token.Confidential.Curve
import SolanaEasy.Token.Run

/-!
# Honest scripts — runs in which what is shown is true

An account that the program does not own can be gone before the next instruction. Where no
proof account is left, an instruction is shown the proofs of its own transaction and no
others, and a reading is sound as soon as these are true of it.
-/

namespace SolanaEasy.Token

open Processor

/-! ## Ledgers without proof accounts -/

namespace Ledger

/-- The accounts of the program, without any other. -/
def cleared (σ : Ledger) : Ledger := fun k =>
  if (σ k).owner = Keys.tokenProgram then σ k else .empty

/-- Nothing belongs to the proof program. -/
def Unproved (σ : Ledger) : Prop := ∀ k, (σ k).owner ≠ Keys.zkProofProgram

variable (σ : Ledger)

theorem cleared_envStep : EnvStep σ σ.cleared := by
  intro k
  by_cases howner : (σ k).owner = Keys.tokenProgram
  · rw [cleared, if_pos howner]
    exact .refl k (σ k)
  · rw [cleared, if_neg howner]
    refine ⟨fun h => absurd h howner, fun _ h => ?_⟩
    exact absurd h (by decide : Cell.empty.owner ≠ Keys.tokenProgram)

theorem unproved_cleared : σ.cleared.Unproved := by
  intro k
  by_cases howner : (σ k).owner = Keys.tokenProgram
  · rw [cleared, if_pos howner, howner]
    decide
  · rw [cleared, if_neg howner]
    decide

theorem unproved_blank (cells : List (Pubkey × Nat)) : (blank cells).Unproved := by
  intro k
  rw [blank]
  split <;> simp only [Cell.empty] <;> decide

end Ledger

/-! ## Proofs of a transaction -/

namespace ProofInstruction

/-- The instruction that verifies a proof of this context. -/
def verifying {U : Type} [Pod U] (t : ProofType) (c : U) : ProofInstruction :=
  ⟨Keys.zkProofProgram, t.toU8, Pod.toBytes c⟩

end ProofInstruction

/-- An instruction that follows upon these, counted from one. -/
def Context.showing (proofs : List ProofInstruction) : Context :=
  { Context.plain with
    getInstructionRelative := fun offset =>
      if 0 < offset then proofs[(offset - 1).toNat]? else none }

theorem ProofType.toU8_injective : Function.Injective ProofType.toU8 := by
  intro s t h
  cases s <;> cases t <;> first | rfl | exact absurd h (by decide)

section Attested

variable {U : Type} [Pod U] {t : ProofType} {σ : Ledger} {proofs : List ProofInstruction} {c : U}

theorem Context.mem_of_showing {offset : Int} {i : ProofInstruction}
    (h : (Context.showing proofs).getInstructionRelative offset = some i) : i ∈ proofs := by
  simp only [showing] at h
  split at h
  · exact List.mem_of_getElem? h
  · cases h

theorem Attested.mem (h : Attested t (.showing proofs) σ c) (hσ : σ.Unproved) :
    ∃ i ∈ proofs, i.instructionType = t.toU8 ∧ Pod.decode? U i.contextData = some c := by
  obtain ⟨offset, sysvar, accounts, rest, h⟩ := h
  unfold verifyAndExtractContext at h
  split at h
  · obtain _ | ⟨info, infos⟩ := accounts
    · cases h
    simp only [bind_eq_ok, exists_unit, failIf_eq_ok, bne_eq_false_iff_eq] at h
    exact absurd h.1 (hσ _)
  · cases sysvar with
    | some info =>
      simp only [ok_bind, bind_eq_ok, exists_unit, failIf_eq_ok, okOr_eq_ok, pure_eq_ok,
        Bool.or_eq_false_iff, bne_eq_false_iff_eq, Prod.mk.injEq] at h
      obtain ⟨_, i, hi, ⟨_, htype⟩, _, hdecode, rfl, _⟩ := h
      exact ⟨i, Context.mem_of_showing hi, htype, hdecode⟩
    | none =>
      obtain _ | ⟨info, infos⟩ := accounts
      · cases h
      simp only [ok_bind, bind_eq_ok, exists_unit, failIf_eq_ok, okOr_eq_ok, pure_eq_ok,
        Bool.or_eq_false_iff, bne_eq_false_iff_eq, Prod.mk.injEq] at h
      obtain ⟨_, i, hi, ⟨_, htype⟩, _, hdecode, rfl, _⟩ := h
      exact ⟨i, Context.mem_of_showing hi, htype, hdecode⟩

end Attested

/-! ## True proofs -/

section Truth

variable {l : ℕ} {rt : Runtime} (R : Reading l rt)

/-- What a proof of this type says of the context that the bytes hold. -/
def Reading.Truth : ProofType → Bytes → Prop
  | .zeroCiphertext, b => ∀ c, Pod.decode? ZeroCiphertextProofContext b = some c →
    R.pt c.pubkey c.ciphertext = 0
  | .ciphertextCiphertextEquality, b =>
    ∀ c, Pod.decode? CiphertextCiphertextEqualityProofContext b = some c →
      R.pt c.firstPubkey c.firstCiphertext = R.pt c.secondPubkey c.secondCiphertext
  | .ciphertextCommitmentEquality, b =>
    ∀ c, Pod.decode? CiphertextCommitmentEqualityProofContext b = some c →
      R.pt c.pubkey c.ciphertext = R.val c.commitment
  | .batchedRangeProofU64, b | .batchedRangeProofU128, b | .batchedRangeProofU256, b =>
    ∀ c, Pod.decode? BatchedRangeProofContext b = some c → R.InRange c
  | .batchedGroupedCiphertext2HandlesValidity, b =>
    ∀ c, Pod.decode? BatchedGroupedCiphertext2HandlesValidityProofContext b = some c →
      R.Valid2 c.firstPubkey c.secondPubkey c.groupedCiphertextLo ∧
        R.Valid2 c.firstPubkey c.secondPubkey c.groupedCiphertextHi
  | .batchedGroupedCiphertext3HandlesValidity, b =>
    ∀ c, Pod.decode? BatchedGroupedCiphertext3HandlesValidityProofContext b = some c →
      R.Valid3 c.firstPubkey c.secondPubkey c.thirdPubkey c.groupedCiphertextLo ∧
        R.Valid3 c.firstPubkey c.secondPubkey c.thirdPubkey c.groupedCiphertextHi
  | .pubkeyValidity, _ | .percentageWithCap, _ => True

/-- The instruction proves nothing false. -/
def Reading.Honest (i : ProofInstruction) : Prop :=
  ∀ t : ProofType, i.instructionType = t.toU8 → R.Truth t i.contextData

variable {R}

theorem Reading.honest_verifying {U : Type} [Pod U] {t : ProofType} {c : U}
    (h : R.Truth t (Pod.toBytes c)) : R.Honest (.verifying t c) := by
  intro t' ht
  obtain rfl := ProofType.toU8_injective ht
  exact h

theorem Reading.sound_of_honest {proofs : List ProofInstruction} {σ : Ledger}
    (h : ∀ i ∈ proofs, R.Honest i) (hσ : σ.Unproved) : R.Sound (.showing proofs) σ where
  zero c hc := by
    obtain ⟨i, hi, ht, hd⟩ := hc.mem hσ
    exact h i hi .zeroCiphertext ht c hd
  ciphertexts c hc := by
    obtain ⟨i, hi, ht, hd⟩ := hc.mem hσ
    exact h i hi .ciphertextCiphertextEquality ht c hd
  equality c hc := by
    obtain ⟨i, hi, ht, hd⟩ := hc.mem hσ
    exact h i hi .ciphertextCommitmentEquality ht c hd
  range64 c hc := by
    obtain ⟨i, hi, ht, hd⟩ := hc.mem hσ
    exact h i hi .batchedRangeProofU64 ht c hd
  range128 c hc := by
    obtain ⟨i, hi, ht, hd⟩ := hc.mem hσ
    exact h i hi .batchedRangeProofU128 ht c hd
  range256 c hc := by
    obtain ⟨i, hi, ht, hd⟩ := hc.mem hσ
    exact h i hi .batchedRangeProofU256 ht c hd
  validity2 c hc := by
    obtain ⟨i, hi, ht, hd⟩ := hc.mem hσ
    exact h i hi .batchedGroupedCiphertext2HandlesValidity ht c hd
  validity3 c hc := by
    obtain ⟨i, hi, ht, hd⟩ := hc.mem hσ
    exact h i hi .batchedGroupedCiphertext3HandlesValidity ht c hd

end Truth

/-! ## Amounts on the curve of residues

Without randomness a commitment is the point of its residue, and every handle is zero. -/

/-- The proofs behind a transfer, a mint or a burn of `lo + 2 ^ 16 * hi`, where the keys `first`
and `second` read the amount and `balance` is what the key `balanceKey` reads afterwards. -/
def amountProofs (n : ℕ) (balanceKey first second : PodElGamalPubkey) (balance lo hi : ℕ) :
    List ProofInstruction :=
  [.verifying .ciphertextCommitmentEquality
      (⟨balanceKey, ⟨pointOf n balance, 0⟩, pointOf n balance⟩ :
        CiphertextCommitmentEqualityProofContext),
    .verifying .batchedGroupedCiphertext3HandlesValidity
      (⟨first, second, 0, ⟨pointOf n lo, 0, 0, 0⟩, ⟨pointOf n hi, 0, 0, 0⟩⟩ :
        BatchedGroupedCiphertext3HandlesValidityProofContext),
    .verifying .batchedRangeProofU128
      (⟨⟨[pointOf n balance, pointOf n lo, pointOf n hi, 0, 0, 0, 0, 0], rfl⟩,
        ⟨[64, 16, 32, 16, 0, 0, 0, 0], rfl⟩⟩ : BatchedRangeProofContext)]

theorem amountProofs_type {n : ℕ} {balanceKey first second : PodElGamalPubkey}
    {balance lo hi : ℕ} : ∀ i ∈ amountProofs n balanceKey first second balance lo hi,
      i.instructionType ≠ ProofType.ciphertextCiphertextEquality.toU8 := by
  intro i hi
  simp only [amountProofs, List.mem_cons, List.not_mem_nil, or_false] at hi
  rcases hi with rfl | rfl | rfl
  · show ProofType.ciphertextCommitmentEquality.toU8 ≠ _
    decide
  · show ProofType.batchedGroupedCiphertext3HandlesValidity.toU8 ≠ _
    decide
  · show ProofType.batchedRangeProofU128.toU8 ≠ _
    decide

/-- The proofs behind a withdrawal after which `balance` is left. -/
def withdrawProofs (n : ℕ) (key : PodElGamalPubkey) (balance : ℕ) : List ProofInstruction :=
  [.verifying .ciphertextCommitmentEquality
      (⟨key, ⟨pointOf n balance, 0⟩, pointOf n balance⟩ :
        CiphertextCommitmentEqualityProofContext),
    .verifying .batchedRangeProofU64
      (⟨⟨[pointOf n balance, 0, 0, 0, 0, 0, 0, 0], rfl⟩,
        ⟨[64, 0, 0, 0, 0, 0, 0, 0], rfl⟩⟩ : BatchedRangeProofContext)]

section Modular

variable {n : ℕ} (hpos : 0 < n) (hn : n ≤ 2 ^ 256)

theorem Reading.modular_val {x : ℕ} : (Reading.modular n hpos hn).val (pointOf n x) = x :=
  cast_residue_pointOf hpos hn x

theorem Reading.modular_val_zero : (Reading.modular n hpos hn).val 0 = 0 :=
  (Reading.modular n hpos hn).pt_zeroed 0

theorem Reading.honest_equality {key : PodElGamalPubkey} {balance : ℕ} :
    (Reading.modular n hpos hn).Honest (.verifying .ciphertextCommitmentEquality
      (⟨key, ⟨pointOf n balance, 0⟩, pointOf n balance⟩ :
        CiphertextCommitmentEqualityProofContext)) := by
  refine Reading.honest_verifying fun c hc => ?_
  obtain rfl := Option.some.inj ((Pod.decode?_toBytes _).symm.trans hc)
  rfl

theorem Reading.in_range_zero (b : UInt8) :
    ∃ m : ℕ, m < 2 ^ b.toNat ∧ (Reading.modular n hpos hn).val 0 = m :=
  ⟨0, Nat.two_pow_pos _, (Reading.modular_val_zero hpos hn).trans Nat.cast_zero.symm⟩

theorem amountProofs_honest {balanceKey first second : PodElGamalPubkey} {balance lo hi : ℕ}
    (hbalance : balance < 2 ^ 64) (hlo : lo < 2 ^ 16) (hhi : hi < 2 ^ 32) :
    ∀ i ∈ amountProofs n balanceKey first second balance lo hi,
      (Reading.modular n hpos hn).Honest i := by
  intro i hi
  simp only [amountProofs, List.mem_cons, List.not_mem_nil, or_false] at hi
  rcases hi with rfl | rfl | rfl
  · exact Reading.honest_equality hpos hn
  · refine Reading.honest_verifying fun c hc => ?_
    obtain rfl := Option.some.inj ((Pod.decode?_toBytes _).symm.trans hc)
    exact ⟨⟨rfl, rfl, rfl⟩, rfl, rfl, rfl⟩
  · refine Reading.honest_verifying fun c hc => ?_
    obtain rfl := Option.some.inj ((Pod.decode?_toBytes _).symm.trans hc)
    intro p b hmem
    have hzero := Reading.in_range_zero hpos hn b
    simp only [List.zip_cons_cons, List.zip_nil_right, List.mem_cons, Prod.mk.injEq,
      List.not_mem_nil, or_false] at hmem
    rcases hmem with ⟨rfl, rfl⟩ | ⟨rfl, rfl⟩ | ⟨rfl, rfl⟩ | ⟨rfl, -⟩ | ⟨rfl, -⟩ | ⟨rfl, -⟩ |
      ⟨rfl, -⟩ | ⟨rfl, -⟩
    · exact ⟨balance, hbalance, Reading.modular_val hpos hn⟩
    · exact ⟨lo, hlo, Reading.modular_val hpos hn⟩
    · exact ⟨hi, hhi, Reading.modular_val hpos hn⟩
    · exact hzero
    · exact hzero
    · exact hzero
    · exact hzero
    · exact hzero

theorem withdrawProofs_honest {key : PodElGamalPubkey} {balance : ℕ} (hbalance : balance < 2 ^ 64) :
    ∀ i ∈ withdrawProofs n key balance, (Reading.modular n hpos hn).Honest i := by
  intro i hi
  simp only [withdrawProofs, List.mem_cons, List.not_mem_nil, or_false] at hi
  rcases hi with rfl | rfl
  · exact Reading.honest_equality hpos hn
  · refine Reading.honest_verifying fun c hc => ?_
    obtain rfl := Option.some.inj ((Pod.decode?_toBytes _).symm.trans hc)
    intro p b hmem
    have hzero := Reading.in_range_zero hpos hn b
    simp only [List.zip_cons_cons, List.zip_nil_right, List.mem_cons, Prod.mk.injEq,
      List.not_mem_nil, or_false] at hmem
    rcases hmem with ⟨rfl, rfl⟩ | ⟨rfl, -⟩ | ⟨rfl, -⟩ | ⟨rfl, -⟩ | ⟨rfl, -⟩ | ⟨rfl, -⟩ |
      ⟨rfl, -⟩ | ⟨rfl, -⟩
    · exact ⟨balance, hbalance, Reading.modular_val hpos hn⟩
    · exact hzero
    · exact hzero
    · exact hzero
    · exact hzero
    · exact hzero
    · exact hzero
    · exact hzero

end Modular

/-! ## The real order

On the curve of residues everything is in the open. -/

/-- The order of the Ristretto group. -/
def ristrettoOrder : ℕ := 2 ^ 252 + 27742317777372353535851937790883648493

theorem ristrettoOrder_le : ristrettoOrder ≤ 2 ^ 256 := by decide

theorem le_ristrettoOrder : 2 ^ 65 - 1 ≤ ristrettoOrder := by decide

theorem ristrettoOrder_pos : 0 < ristrettoOrder := by decide

theorem one_lt_ristrettoOrder : 1 < ristrettoOrder := by decide

instance neZero_ristrettoOrder : NeZero ristrettoOrder := ⟨ristrettoOrder_pos.ne'⟩

theorem searched_le_ristrettoOrder : 2 ^ 32 ≤ ristrettoOrder := by decide

def openReading : Reading ristrettoOrder (.modular ristrettoOrder) :=
  .modular ristrettoOrder ristrettoOrder_pos ristrettoOrder_le

/-! ## Scripts -/

/-- Instructions one after the other, each with the proofs of its transaction, and with nothing
but the accounts of the program left in between. -/
def honestScript (rt : Runtime) :
    List (List ProofInstruction × List AccountInfo × Instruction) → Ledger → Option Ledger
  | [], σ => some σ
  | (proofs, accounts, i) :: rest, σ =>
    (toOption (process rt (.showing proofs) accounts i σ)).bind fun σ' =>
      honestScript rt rest σ'.cleared

/-- The ledger such a script ends on. -/
def honestLedger (rt : Runtime)
    (steps : List (List ProofInstruction × List AccountInfo × Instruction)) (σ : Ledger) : Ledger :=
  (honestScript rt steps σ).getD σ

theorem honestScript_append {rt : Runtime}
    (steps rest : List (List ProofInstruction × List AccountInfo × Instruction)) :
    ∀ σ, honestScript rt (steps ++ rest) σ =
      (honestScript rt steps σ).bind (honestScript rt rest) := by
  induction steps with
  | nil => exact fun _ => rfl
  | cons p steps ih =>
    intro σ
    rw [List.cons_append, honestScript, honestScript, Option.bind_assoc]
    exact Option.bind_congr fun σ' _ => ih σ'.cleared

section Scripts

variable {rt : Runtime} {allow : Call → Prop}
  {steps : List (List ProofInstruction × List AccountInfo × Instruction)}

theorem Run.of_honestScript :
    ∀ {σ : Ledger}, σ.Unproved →
      (∀ p ∈ steps, ∀ σ : Ledger, σ.Unproved → allow ⟨.showing p.1, p.2.1, p.2.2, σ⟩) →
      (honestScript rt steps σ).isSome = true →
      Run rt allow σ (honestLedger rt steps σ) ∧ (honestLedger rt steps σ).Unproved := by
  induction steps with
  | nil => exact fun hσ _ _ => ⟨.refl, hσ⟩
  | cons p rest ih =>
    obtain ⟨proofs, accounts, i⟩ := p
    intro σ hσ hallow h
    rw [honestScript] at h
    rw [honestLedger, honestScript]
    cases hp : toOption (process rt (.showing proofs) accounts i σ) with
    | none =>
      rw [hp] at h
      cases h
    | some σ₁ =>
      rw [hp, Option.bind_some] at h
      have hstep : Step rt allow σ σ₁ :=
        .call (c := ⟨.showing proofs, accounts, i, σ⟩) (hallow _ List.mem_cons_self σ hσ)
          (toOption_eq_some.mp hp)
      have hclear : Step rt allow σ₁ σ₁.cleared := .outside σ₁.cleared_envStep
      obtain ⟨hrest, hend⟩ := ih σ₁.unproved_cleared
        (fun p hp => hallow p (List.mem_cons_of_mem _ hp)) h
      obtain ⟨σ₂, hσ₂⟩ := Option.isSome_iff_exists.mp h
      rw [honestLedger, hσ₂] at hrest hend
      rw [Option.bind_some, hσ₂]
      exact ⟨.head hstep (.head hclear hrest), hend⟩

theorem Reachable.honest {cells : List (Pubkey × Nat)}
    (hnative : cells.lookup Keys.nativeMint = none)
    (hallow : ∀ p ∈ steps, ∀ σ : Ledger, σ.Unproved → allow ⟨.showing p.1, p.2.1, p.2.2, σ⟩)
    (h : (honestScript rt steps (blank cells)).isSome = true) :
    Reachable rt allow (honestLedger rt steps (blank cells)) ∧
      (honestLedger rt steps (blank cells)).Unproved := by
  obtain ⟨hrun, hend⟩ := Run.of_honestScript (Ledger.unproved_blank cells) hallow h
  exact ⟨(reachable_blank rt allow hnative).run hrun, hend⟩

/-- The script is run once, for what the ledger shows in the end. -/
theorem Reachable.honest_any {cells : List (Pubkey × Nat)} {p : Ledger → Bool}
    (hnative : cells.lookup Keys.nativeMint = none)
    (hallow : ∀ p ∈ steps, ∀ σ : Ledger, σ.Unproved → allow ⟨.showing p.1, p.2.1, p.2.2, σ⟩)
    (h : (honestScript rt steps (blank cells)).any p = true) :
    Reachable rt allow (honestLedger rt steps (blank cells)) ∧
      (honestLedger rt steps (blank cells)).Unproved ∧
      p (honestLedger rt steps (blank cells)) = true := by
  obtain ⟨σ, hσ, hp⟩ := (Option.any_eq_true _ _).mp h
  obtain ⟨hreach, hend⟩ := Reachable.honest hnative hallow (Option.isSome_iff_exists.mpr ⟨σ, hσ⟩)
  refine ⟨hreach, hend, ?_⟩
  rw [honestLedger, hσ]
  exact hp

/-- The instruction closes nothing, and what it is shown is true. -/
def Reading.HonestStep {l : ℕ} (R : Reading l rt)
    (p : List ProofInstruction × List AccountInfo × Instruction) : Prop :=
  p.2.2 ≠ .closeAccount ∧ ∀ i ∈ p.1, R.Honest i

theorem Reachable.honest_sound {l : ℕ} {R : Reading l rt} {M : Pubkey}
    {cells : List (Pubkey × Nat)} {p : Ledger → Bool}
    (hnative : cells.lookup Keys.nativeMint = none) (hsteps : ∀ p ∈ steps, R.HonestStep p)
    (h : (honestScript rt steps (blank cells)).any p = true) :
    Reachable rt (fun c => ¬ c.Closes M ∧ R.Sound c.ctx c.σ)
        (honestLedger rt steps (blank cells)) ∧
      (honestLedger rt steps (blank cells)).Unproved ∧
      p (honestLedger rt steps (blank cells)) = true :=
  Reachable.honest_any hnative (fun p hp _ hσ =>
    ⟨fun hc => (hsteps p hp).1 hc.2, Reading.sound_of_honest (hsteps p hp).2 hσ⟩) h

end Scripts

end SolanaEasy.Token
