import SolanaEasy.Token.Confidential.Generation
import SolanaEasy.Token.Law.ConfidentialFee
import SolanaEasy.Token.Law.FeeCalculators
import SolanaEasy.Token.Run

/-!
# Proof generation — what a client proves is what the program checks

The generators form commitments in the order, with the bit lengths and the halves that the
extractors expect, so that with a complete proof system whatever they return is accepted,
and the instruction moves exactly the amount that was asked for.
-/

namespace SolanaEasy.Token

open ElGamal Processor ConfidentialTransfer

/-! ## Halves -/

theorem trySplitU64_eq {b : ℕ} (hpos : 0 < b) (hlt : b < 64) (amount : UInt64) :
    ∃ lo hi, trySplitU64 amount b = some (lo, hi) ∧ lo.toNat = amount.toNat % 2 ^ b ∧
      hi.toNat = amount.toNat / 2 ^ b := by
  refine ⟨_, _, (if_neg (by omega)).trans (if_pos hlt), ?_, ?_⟩
  · have hshift : (UInt64.ofNat (64 - b)).toNat % 64 = 64 - b := by
      rw [UInt64.toNat_ofNat_of_lt' (show 64 - b < 2 ^ 64 by omega), Nat.mod_eq_of_lt (by omega)]
    have hword : 2 ^ 64 = 2 ^ b * 2 ^ (64 - b) := by
      rw [← Nat.pow_add, Nat.add_sub_cancel' hlt.le]
    rw [UInt64.toNat_shiftRight, UInt64.toNat_shiftLeft, hshift, Nat.shiftLeft_eq,
      Nat.shiftRight_eq_div_pow, hword, Nat.mul_mod_mul_right,
      Nat.mul_div_cancel _ (Nat.two_pow_pos _)]
  · have hshift : (UInt64.ofNat b).toNat % 64 = b := by
      rw [UInt64.toNat_ofNat_of_lt' (show b < 2 ^ 64 by omega), Nat.mod_eq_of_lt hlt]
    rw [UInt64.toNat_shiftRight, hshift, Nat.shiftRight_eq_div_pow]

/-- The two halves of an amount, as the source splits it. -/
structure Halves (amount lo hi : UInt64) : Prop where
  split : trySplitU64 amount transferAmountLoBits = some (lo, hi)
  short : lo.toNat < 2 ^ 16
  sum : amount.toNat = lo.toNat + 2 ^ 16 * hi.toNat

theorem exists_halves (amount : UInt64) : ∃ lo hi, Halves amount lo hi := by
  obtain ⟨lo, hi, hsplit, hlo, hhi⟩ := trySplitU64_eq (b := 16) (by omega) (by omega) amount
  refine ⟨lo, hi, hsplit, ?_, ?_⟩
  · rw [hlo]
    exact Nat.mod_lt _ (Nat.two_pow_pos _)
  · rw [hlo, hhi, Nat.mod_add_div]

theorem Halves.high_lt {amount lo hi : UInt64} (h : Halves amount lo hi)
    (hamount : amount.toNat < 2 ^ 48) : hi.toNat < 2 ^ 32 := by
  have hsum := h.sum
  omega

section Generation

variable {rt : Runtime} {F P : Type} [CommRing F] [AddCommGroup P] [Module F P]

/-! ## Completeness -/

/-- A number that a range proof covers. -/
structure RangeItem (F : Type) where
  amount : UInt64
  bitLength : ℕ
  opening : F

def RangeItem.commitment (B : Bases P) (i : RangeItem F) : P :=
  B.commit (i.amount.toNat : F) i.opening

/-- The eight slots of a range context, of which the last may be unused. -/
def padded {α : Type} (l : List α) (unused : α) : PodArray α 8 :=
  ⟨(l ++ List.replicate 8 unused).take 8, by simp⟩

def Curve.rangeContext (C : Curve rt F P) (items : List (RangeItem F)) :
    BatchedRangeProofContext :=
  ⟨padded (items.map fun i => C.compress (i.commitment C.bases)) 0,
    padded (items.map fun i => UInt8.ofNat i.bitLength) 0⟩

/-- A constructor returns a proof about this context, and the proof is accepted. -/
def ProofSystem.Yields {B : Bases P} (Z : ProofSystem F B) {U : Type} [Pod U] (t : ProofType)
    (result : Option (ProofData U)) (context : U) : Prop :=
  ∃ d, result = some d ∧ d.contextData = context ∧ Z.Verifies t d

/-- Numbers that fit their bit lengths have a range proof. -/
def ProofSystem.RangeComplete (C : Curve rt F P) (Z : ProofSystem F C.bases) (t : ProofType)
    (total : ℕ) (prover : RangeProver F P) : Prop :=
  ∀ items : List (RangeItem F), items.length ≤ 8 →
    (∀ i ∈ items, 0 < i.bitLength ∧ i.bitLength ≤ 64 ∧ i.amount.toNat < 2 ^ i.bitLength) →
    (items.map RangeItem.bitLength).sum = total →
    Z.Yields t (prover (items.map (RangeItem.commitment C.bases)) (items.map RangeItem.amount)
      (items.map RangeItem.bitLength) (items.map RangeItem.opening)) (C.rangeContext items)

/-- Of a true statement the constructors make a proof that is accepted. -/
structure ProofSystem.Complete (C : Curve rt F P) (Z : ProofSystem F C.bases) : Prop where
  equality : ∀ (k : Keypair F C.bases) c (r : F) (x : UInt64),
    C.bases.Decrypts k.secret c (x.toNat : F) →
    Z.Yields .ciphertextCommitmentEquality (Z.equality k c (C.bases.commit (x.toNat : F) r) r x)
      ⟨C.compress k.pubkey, C.pod c, C.compress (C.bases.commit (x.toNat : F) r)⟩
  validity3 : ∀ (keys : Fin 3 → P) (lo hi : UInt64) (r s : F),
    Z.Yields .batchedGroupedCiphertext3HandlesValidity
      (Z.validity3 keys (amountCiphertext C.bases keys lo r) (amountCiphertext C.bases keys hi s)
        lo hi r s)
      ⟨C.compress (keys 0), C.compress (keys 1), C.compress (keys 2),
        C.pod3 (amountCiphertext C.bases keys lo r), C.pod3 (amountCiphertext C.bases keys hi s)⟩
  validity2 : ∀ (keys : Fin 2 → P) (lo hi : UInt64) (r s : F),
    Z.Yields .batchedGroupedCiphertext2HandlesValidity
      (Z.validity2 keys (amountCiphertext C.bases keys lo r) (amountCiphertext C.bases keys hi s)
        lo hi r s)
      ⟨C.compress (keys 0), C.compress (keys 1), C.pod2 (amountCiphertext C.bases keys lo r),
        C.pod2 (amountCiphertext C.bases keys hi s)⟩
  /-- Either the fee is the maximum, or the delta is the one that is claimed. -/
  percentageWithCap : ∀ (fee delta max : UInt64) (feeOpening deltaOpening claimedOpening : F)
      (deltaCommitment : P), fee.toNat ≤ max.toNat →
    (fee = max ∨ deltaCommitment = C.bases.commit (delta.toNat : F) deltaOpening) →
    Z.Yields .percentageWithCap
      (Z.percentageWithCap (C.bases.commit (fee.toNat : F) feeOpening) feeOpening fee
        deltaCommitment deltaOpening delta (C.bases.commit (delta.toNat : F) claimedOpening)
        claimedOpening max)
      ⟨C.compress (C.bases.commit (fee.toNat : F) feeOpening), C.compress deltaCommitment,
        C.compress (C.bases.commit (delta.toNat : F) claimedOpening), max⟩
  rangeU64 : Z.RangeComplete C .batchedRangeProofU64 64 Z.rangeU64
  rangeU128 : Z.RangeComplete C .batchedRangeProofU128 128 Z.rangeU128
  rangeU256 : Z.RangeComplete C .batchedRangeProofU256 256 Z.rangeU256

variable (C : Curve rt F P) {Z : ProofSystem F C.bases}

/-! ## Amounts -/

def AmountProofData.contexts (d : AmountProofData) : AmountProof :=
  ⟨d.equalityProofData.contextData,
    d.ciphertextValidityProofDataWithCiphertext.proofData.contextData,
    d.rangeProofData.contextData⟩

/-- All three proofs are accepted. -/
structure AmountProofData.Verified (Z : ProofSystem F C.bases) (d : AmountProofData) : Prop where
  equality : Z.Verifies .ciphertextCommitmentEquality d.equalityProofData
  validity : Z.Verifies .batchedGroupedCiphertext3HandlesValidity
    d.ciphertextValidityProofDataWithCiphertext.proofData
  range : Z.Verifies .batchedRangeProofU128 d.rangeProofData

/-- The contexts of the proofs about an amount. -/
def Curve.amountContexts (key : P) (keys : Fin 3 → P) (c : Ciphertext P)
    (newBalance lo hi : UInt64) (r : AmountOpenings F) : AmountProof where
  equality := ⟨C.compress key, C.pod c,
    C.compress (C.bases.commit (newBalance.toNat : F) r.balance)⟩
  validity := ⟨C.compress (keys 0), C.compress (keys 1), C.compress (keys 2),
    C.pod3 (amountCiphertext C.bases keys lo r.lo), C.pod3 (amountCiphertext C.bases keys hi r.hi)⟩
  range := C.rangeContext [⟨newBalance, 64, r.balance⟩, ⟨lo, 16, r.lo⟩, ⟨hi, 32, r.hi⟩,
    ⟨0, 16, r.padding⟩]

theorem Curve.amountContexts_verify (key : P) (keys : Fin 3 → P) (c : Ciphertext P)
    (newBalance lo hi : UInt64) (r : AmountOpenings F) :
    (C.amountContexts key keys c newBalance lo hi r).verify (C.compress key) = .ok () := by
  simp [amountContexts, AmountProof.verify, rangeContext, padded, agrees, RangeItem.commitment,
    pod3, amountCiphertext]

/-- The auditor's ciphertexts are those of the context. -/
theorem validityProofData_eq (hZ : Z.Complete C) (keys : Fin 3 → P) (lo hi : UInt64) (r s : F) :
    ∃ d, validityProofData Z keys lo hi r s = .ok d ∧
      d.proofData.contextData = ⟨C.compress (keys 0), C.compress (keys 1), C.compress (keys 2),
        C.pod3 (amountCiphertext C.bases keys lo r),
        C.pod3 (amountCiphertext C.bases keys hi s)⟩ ∧
      Z.Verifies .batchedGroupedCiphertext3HandlesValidity d.proofData ∧
      d.ciphertextLo = C.pod (C.bases.encrypt (keys 2) (lo.toNat : F) r) ∧
      d.ciphertextHi = C.pod (C.bases.encrypt (keys 2) (hi.toNat : F) s) := by
  obtain ⟨d, hd, hcontext, hverifies⟩ := hZ.validity3 keys lo hi r s
  refine ⟨⟨d, _, _⟩, ?_, hcontext, hverifies, rfl, rfl⟩
  simp only [validityProofData, hd, okOr, ok_bind, hcontext]
  rfl

/-- What is proved about an amount is accepted, with the contexts that were meant. -/
structure AmountProofData.Proves (Z : ProofSystem F C.bases) (key : P) (keys : Fin 3 → P)
    (c : Ciphertext P) (newBalance lo hi : UInt64) (r : AmountOpenings F) (d : AmountProofData) :
    Prop where
  verified : d.Verified C Z
  contexts : d.contexts = C.amountContexts key keys c newBalance lo hi r
  auditorLo : d.ciphertextValidityProofDataWithCiphertext.ciphertextLo =
    C.pod (C.bases.encrypt (keys 2) (lo.toNat : F) r.lo)
  auditorHi : d.ciphertextValidityProofDataWithCiphertext.ciphertextHi =
    C.pod (C.bases.encrypt (keys 2) (hi.toNat : F) r.hi)

theorem amountProofData_eq (hZ : Z.Complete C) {k : Keypair F C.bases} {keys : Fin 3 → P}
    {c : Ciphertext P} {newBalance lo hi : UInt64} (r : AmountOpenings F)
    (hbalance : C.bases.Decrypts k.secret c (newBalance.toNat : F)) (hlo : lo.toNat < 2 ^ 16)
    (hhi : hi.toNat < 2 ^ 32) :
    ∃ d, amountProofData Z k keys c newBalance lo hi r = .ok d ∧
      d.Proves C Z k.pubkey keys c newBalance lo hi r := by
  obtain ⟨e, he, heContext, heVerifies⟩ := hZ.equality k c r.balance newBalance hbalance
  obtain ⟨v, hv, hvContext, hvVerifies, hauditorLo, hauditorHi⟩ :=
    validityProofData_eq C hZ keys lo hi r.lo r.hi
  obtain ⟨q, hq, hqContext, hqVerifies⟩ := hZ.rangeU128
    [⟨newBalance, 64, r.balance⟩, ⟨lo, 16, r.lo⟩, ⟨hi, 32, r.hi⟩, ⟨0, 16, r.padding⟩]
    (by simp) (by simpa using ⟨newBalance.toNat_lt, hlo, hhi⟩) rfl
  have hzero : C.bases.commit (0 : F) r.padding =
      C.bases.commit (((0 : UInt64).toNat : ℕ) : F) r.padding := by
    rw [show (0 : UInt64).toNat = 0 from rfl, Nat.cast_zero]
  have hrange : Z.rangeU128 [C.bases.commit (newBalance.toNat : F) r.balance,
      (amountCiphertext C.bases keys lo r.lo).commitment,
      (amountCiphertext C.bases keys hi r.hi).commitment, C.bases.commit 0 r.padding]
      [newBalance, lo, hi, 0] [remainingBalanceBitLength, transferAmountLoBits,
        transferAmountHiBits, rangeProofPaddingBitLength] [r.balance, r.lo, r.hi, r.padding] =
      some q := by
    rw [hzero]
    exact hq
  refine ⟨⟨e, v, q⟩, ?_, ⟨heVerifies, hvVerifies, hqVerifies⟩, ?_, hauditorLo, hauditorHi⟩
  · simp only [amountProofData, he, hv, hrange, okOr, ok_bind]
    rfl
  · rw [AmountProofData.contexts, heContext, hvContext, hqContext, Curve.amountContexts]

/-! ## Effects -/

theorem Halves.cast {x lo hi : UInt64} (h : Halves x lo hi) :
    (x.toNat : F) = lo.toNat + ((65536 : ℕ) : F) * hi.toNat := by
  rw [h.sum]
  push_cast
  norm_num

namespace Curve

/-- The ciphertexts encrypt the halves of `x` under the key. -/
def Encrypts (key : P) (lo hi : PodElGamalCiphertext) (x : UInt64) : Prop :=
  ∃ a b, Halves x a b ∧ ∃ r s, lo = C.pod (C.bases.encrypt key (a.toNat : F) r) ∧
    hi = C.pod (C.bases.encrypt key (b.toNat : F) s)

/-- Wherever `c` is the available balance, the update succeeds and leaves `rest` there. -/
def Debits (k : Keypair F C.bases) (c : Ciphertext P) (rest : ℕ)
    (update : ConfidentialTransferAccount → Result ConfidentialTransferAccount) : Prop :=
  ∀ e, e.validAsSource = .ok () → e.elgamalPubkey = C.compress k.pubkey →
    e.availableBalance = C.pod c → ∃ available decryptable,
      update e = .ok { e with
        availableBalance := available
        decryptableAvailableBalance := decryptable } ∧ C.Hides k.secret available rest

/-- What the pending balance of the account hides. -/
def Pending (s : F) (e : ConfidentialTransferAccount) (x : F) : Prop :=
  ∃ lo hi, C.Hides s e.pendingBalanceLo lo ∧ C.Hides s e.pendingBalanceHi hi ∧
    x = lo + ((65536 : ℕ) : F) * hi

variable {C} in
theorem Pending.unique {s x y : F} {e : ConfidentialTransferAccount} (hx : C.Pending s e x)
    (hy : C.Pending s e y) : x = y := by
  obtain ⟨lo, hi, hlo, hhi, rfl⟩ := hx
  obtain ⟨lo', hi', hlo', hhi', rfl⟩ := hy
  rw [hlo.unique hlo', hhi.unique hhi']

/-- Wherever credits are allowed, the update succeeds and adds `x` to what is pending. -/
def Credits (key : P) (x : ℕ)
    (update : ConfidentialTransferAccount → Result ConfidentialTransferAccount) : Prop :=
  ∀ s e y, C.bases.Pairs s key → e.validAsDestination = .ok () →
    e.elgamalPubkey = C.compress key → C.Pending s e y → ∃ lo hi,
      update e = .ok { e with
        pendingBalanceLo := lo
        pendingBalanceHi := hi
        pendingBalanceCreditCounter := e.pendingBalanceCreditCounter + 1 } ∧
      C.Pending s { e with pendingBalanceLo := lo, pendingBalanceHi := hi } (y + x)

variable {C}

theorem Encrypts.reads {key : P} {lo hi : PodElGamalCiphertext} {x : UInt64}
    (h : C.Encrypts key lo hi x) {s : F} (hs : C.bases.Pairs s key) :
    ∃ a b, C.Hides s lo a ∧ C.Hides s hi b ∧ (x.toNat : F) = a + ((65536 : ℕ) : F) * b := by
  obtain ⟨a, b, hx, r, t, rfl, rfl⟩ := h
  exact ⟨a.toNat, b.toNat, ⟨_, rfl, Bases.decrypts_encrypt hs _ _⟩,
    ⟨_, rfl, Bases.decrypts_encrypt hs _ _⟩, hx.cast⟩

/-! ### Balances -/

open CiphertextArithmetic

theorem debits_debited {k : Keypair F C.bases} {c : Ciphertext P} {lo hi : GroupedCiphertext 3 P}
    {rest : ℕ} (hrest : C.bases.Decrypts k.secret (c - (lo.toElgamalCiphertext 0 +
      ((65536 : ℕ) : F) • hi.toElgamalCiphertext 0)) (rest : F)) (aes : PodAeCiphertext) :
    C.Debits k c rest (debited rt (C.compress k.pubkey) (C.pod3 lo) (C.pod3 hi)
      (C.pod (c - (lo.toElgamalCiphertext 0 + ((65536 : ℕ) : F) • hi.toElgamalCiphertext 0)))
      aes) := by
  intro e hvalid hkey hbalance
  have hsubtract := C.subtractWithLoHi_pod c (lo.toElgamalCiphertext 0) (hi.toElgamalCiphertext 0)
  have hlo : (C.pod3 lo).tryExtractCiphertext 0 = .ok (C.pod (lo.toElgamalCiphertext 0)) := rfl
  have hhi : (C.pod3 hi).tryExtractCiphertext 0 = .ok (C.pod (hi.toElgamalCiphertext 0)) := rfl
  refine ⟨_, aes, ?_, _, rfl, hrest⟩
  simp only [debited, hvalid, hkey, hbalance, hlo, hhi, hsubtract, arithmetic, okOr, ok_bind,
    bne_self_eq_false, failIf, Bool.false_eq_true, if_false]
  rfl

theorem increment_of_validAsDestination {e : ConfidentialTransferAccount}
    (h : e.validAsDestination = .ok ()) (lo hi : PodElGamalCiphertext) :
    { e with
      pendingBalanceLo := lo
      pendingBalanceHi := hi }.incrementPendingBalanceCreditCounter =
      .ok { e with
        pendingBalanceLo := lo
        pendingBalanceHi := hi
        pendingBalanceCreditCounter := e.pendingBalanceCreditCounter + 1 } := by
  simp only [ConfidentialTransferAccount.validAsDestination, bind_eq_ok, exists_unit,
    okOr_eq_ok] at h
  obtain ⟨_, _, counter, hcounter, _⟩ := h
  have hsum : checkedAdd e.pendingBalanceCreditCounter 1 =
      some (e.pendingBalanceCreditCounter + 1) := by
    rw [checkedAdd] at hcounter ⊢
    split at hcounter
    · rename_i hlt
      rw [if_pos hlt]
    · cases hcounter
  rw [ConfidentialTransferAccount.incrementPendingBalanceCreditCounter]
  simp only [hsum, okOr, ok_bind]
  rfl

/-- Ciphertexts of two numbers join what is pending. -/
theorem Pending.add {s y a b : F} {e : ConfidentialTransferAccount} {lo hi : Ciphertext P}
    (h : C.Pending s e y) (hlo : C.bases.Decrypts s lo a) (hhi : C.bases.Decrypts s hi b) :
    ∃ lo' hi', add rt e.pendingBalanceLo (C.pod lo) = some lo' ∧
      add rt e.pendingBalanceHi (C.pod hi) = some hi' ∧
      C.Pending s { e with pendingBalanceLo := lo', pendingBalanceHi := hi' }
        (y + (a + ((65536 : ℕ) : F) * b)) := by
  obtain ⟨_, _, hpendingLo, hpendingHi, rfl⟩ := h
  obtain ⟨lo', hlo', hlo''⟩ := hpendingLo.add_pod hlo
  obtain ⟨hi', hhi', hhi''⟩ := hpendingHi.add_pod hhi
  exact ⟨lo', hi', hlo', hhi', _, _, hlo'', hhi'', by ring⟩

theorem Pending.subtract {s y a b : F} {e : ConfidentialTransferAccount} {lo hi : Ciphertext P}
    (h : C.Pending s e y) (hlo : C.bases.Decrypts s lo a) (hhi : C.bases.Decrypts s hi b) :
    ∃ lo' hi', subtract rt e.pendingBalanceLo (C.pod lo) = some lo' ∧
      subtract rt e.pendingBalanceHi (C.pod hi) = some hi' ∧
      C.Pending s { e with pendingBalanceLo := lo', pendingBalanceHi := hi' }
        (y - (a + ((65536 : ℕ) : F) * b)) := by
  obtain ⟨_, _, hpendingLo, hpendingHi, rfl⟩ := h
  obtain ⟨lo', hlo', hlo''⟩ := hpendingLo.subtract_pod hlo
  obtain ⟨hi', hhi', hhi''⟩ := hpendingHi.subtract_pod hhi
  exact ⟨lo', hi', hlo', hhi', _, _, hlo'', hhi'', by ring⟩

theorem credits_credited (keys : Fin 3 → P) {x lo hi : UInt64} (hx : Halves x lo hi) (r s : F) :
    C.Credits (keys 1) x.toNat (credited rt (C.compress (keys 1))
      (C.pod3 (amountCiphertext C.bases keys lo r))
      (C.pod3 (amountCiphertext C.bases keys hi s))) := by
  intro t e y ht hvalid hkey hpending
  have hlo : (C.pod3 (amountCiphertext C.bases keys lo r)).tryExtractCiphertext 1 =
    .ok (C.pod (C.bases.encrypt (keys 1) (lo.toNat : F) r)) := rfl
  have hhi : (C.pod3 (amountCiphertext C.bases keys hi s)).tryExtractCiphertext 1 =
    .ok (C.pod (C.bases.encrypt (keys 1) (hi.toNat : F) s)) := rfl
  obtain ⟨lo', hi', hlo', hhi', hnew⟩ := hpending.add (Bases.decrypts_encrypt ht (lo.toNat : F) r)
    (Bases.decrypts_encrypt ht (hi.toNat : F) s)
  have hsame : (C.compress (keys 1) != e.elgamalPubkey) = false := by
    rw [hkey, bne_self_eq_false]
  refine ⟨lo', hi', ?_, hx.cast (F := F) ▸ hnew⟩
  simp only [credited, hvalid, hsame, hlo, hhi, hlo', hhi', arithmetic, okOr, ok_bind, failIf,
    Bool.false_eq_true, if_false]
  exact increment_of_validAsDestination hvalid lo' hi'

end Curve

/-! ## Auditors -/

/-- The mint names the auditor for whom the proofs were made, or none. -/
def Curve.Audits (C : Curve rt F P) (m : ConfidentialTransferMint) (auditor : Option P) : Prop :=
  m.auditorElgamalPubkey.toOption = auditor.map C.compress

theorem Curve.Audits.equals {m : ConfidentialTransferMint} {auditor : Option P}
    (h : C.Audits m auditor) :
    m.auditorElgamalPubkey.equals (C.compress (auditor.getD 0)) = true := by
  rw [Audits, OptionalNonZeroElGamalPubkey.toOption] at h
  rw [OptionalNonZeroElGamalPubkey.equals, beq_iff_eq]
  split at h
  · rename_i hzero
    cases auditor with
    | none => rw [Option.getD_none, C.compress_zero, eq_of_beq hzero]
    | some a => cases h
  · cases auditor with
    | none => cases h
    | some a => exact Option.some.inj h

theorem Curve.Audits.checkAuditor_eq {m : ConfidentialTransferMint} {auditor : Option P}
    (h : C.Audits m auditor) :
    ConfidentialMintBurn.checkAuditor m (C.compress (auditor.getD 0)) = .ok () := by
  rw [ConfidentialMintBurn.checkAuditor, failIf_eq_ok, h]
  cases auditor with
  | none => rfl
  | some a => simp

/-! ## Transfers -/

theorem tryCombineLoHiCiphertexts_eq (lo hi : Ciphertext P) :
    tryCombineLoHiCiphertexts F lo hi transferAmountLoBits =
      some (lo + ((65536 : ℕ) : F) • hi) := rfl

/-- Subtracting the ciphertexts of an amount from those of a balance. -/
theorem decrypts_sub_halves {s : F} {key : P} {c : Ciphertext P}
    {balance amount rest lo hi : UInt64}
    (hs : C.bases.Pairs s key) (hbalance : C.bases.Decrypts s c (balance.toNat : F))
    (hrest : checkedSub balance amount = some rest) (hx : Halves amount lo hi) (r t : F) :
    C.bases.Decrypts s (c - (C.bases.encrypt key (lo.toNat : F) r +
      ((65536 : ℕ) : F) • C.bases.encrypt key (hi.toNat : F) t)) (rest.toNat : F) := by
  have hsum : (balance.toNat : F) = rest.toNat + amount.toNat := by
    rw [← Nat.cast_add, checkedSub_eq_some.mp hrest]
  have h := hbalance.sub ((Bases.decrypts_encrypt hs (lo.toNat : F) r).add
    ((Bases.decrypts_encrypt hs (hi.toNat : F) t).smul ((65536 : ℕ) : F)))
  rwa [← hx.cast, hsum, add_sub_cancel_right] at h

/-- What is proved of an amount that leaves a balance. -/
structure AmountProofData.Spends (Z : ProofSystem F C.bases) (k : Keypair F C.bases)
    (second auditor : P) (c : Ciphertext P) (balance amount rest lo hi : UInt64)
    (r : AmountOpenings F) (d : AmountProofData) : Prop where
  halves : Halves amount lo hi
  left : checkedSub balance amount = some rest
  proves : d.Proves C Z k.pubkey ![k.pubkey, second, auditor]
    (c - (C.bases.encrypt k.pubkey (lo.toNat : F) r.lo +
      ((65536 : ℕ) : F) • C.bases.encrypt k.pubkey (hi.toNat : F) r.hi)) rest lo hi r

variable {C} {current : Ciphertext P} {balance amount : UInt64} {k : Keypair F C.bases}
  {second : P} {auditor : Option P} {r : AmountOpenings F} {d : AmountProofData}

theorem spends_of_amountProofData (hZ : Z.Complete C)
    (hbalance : C.bases.Decrypts k.secret current (balance.toNat : F))
    (hamount : amount.toNat < 2 ^ 48) {auditorKey : P} {lo hi rest : UInt64}
    (hsplit : trySplitU64 amount transferAmountLoBits = some (lo, hi))
    (hrest : checkedSub balance amount = some rest)
    (h : amountProofData Z k ![k.pubkey, second, auditorKey]
      (current - (C.bases.encrypt k.pubkey (lo.toNat : F) r.lo +
        ((65536 : ℕ) : F) • C.bases.encrypt k.pubkey (hi.toNat : F) r.hi)) rest lo hi r = .ok d) :
    d.Spends C Z k second auditorKey current balance amount rest lo hi r := by
  obtain ⟨lo', hi', hx⟩ := exists_halves amount
  obtain ⟨rfl, rfl⟩ := Prod.mk.inj (Option.some.inj (hsplit.symm.trans hx.split))
  obtain ⟨d', hd', hproves⟩ := amountProofData_eq C hZ r
    (decrypts_sub_halves C k.pairs hbalance hrest hx r.lo r.hi) hx.short (hx.high_lt hamount)
  obtain rfl := Except.ok.inj (h.symm.trans hd')
  exact ⟨hx, hrest, hproves⟩

theorem transferSplitProofData_ok (hZ : Z.Complete C)
    (hbalance : C.bases.Decrypts k.secret current (balance.toNat : F))
    (hamount : amount.toNat < 2 ^ 48)
    (h : transferSplitProofData Z current (some balance) amount k second auditor r = .ok d) :
    ∃ rest lo hi, d.Spends C Z k second (auditor.getD 0) current balance amount rest lo hi r := by
  simp only [transferSplitProofData, bind_eq_ok, okOr_eq_ok, Prod.exists,
    tryCombineLoHiCiphertexts_eq, Option.some.injEq] at h
  obtain ⟨lo, hi, hsplit, _, rfl, rest, hrest, _, rfl, h⟩ := h
  exact ⟨rest, lo, hi, spends_of_amountProofData hZ hbalance hamount hsplit hrest h⟩

theorem burnSplitProofData_ok (hZ : Z.Complete C)
    (hbalance : C.bases.Decrypts k.secret current (balance.toNat : F))
    (hamount : amount.toNat < 2 ^ 48)
    (h : burnSplitProofData Z current (some balance) amount k second auditor r = .ok d) :
    ∃ rest lo hi, d.Spends C Z k second (auditor.getD 0) current balance amount rest lo hi r := by
  simp only [burnSplitProofData, bind_eq_ok, okOr_eq_ok, Prod.exists,
    tryCombineLoHiCiphertexts_eq, Option.some.injEq] at h
  obtain ⟨lo, hi, hsplit, _, rfl, _, rfl, rest, hrest, h⟩ := h
  exact ⟨rest, lo, hi, spends_of_amountProofData hZ hbalance hamount hsplit hrest h⟩

/-- A transfer that the program accepts: it leaves what is left of the balance, credits the
amount, and shows the auditor its halves. -/
structure TransferAccepted (C : Curve rt F P) (Z : ProofSystem F C.bases)
    (source : Keypair F C.bases) (destination : P) (auditor : Option P) (current : Ciphertext P)
    (balance amount : UInt64) (d : AmountProofData) (t : TransferProofContext) : Prop where
  verified : d.Verified C Z
  enough : amount.toNat ≤ balance.toNat
  extracted : TransferProofContext.verifyAndExtract d.contexts = .ok t
  audited : ∀ m, C.Audits m auditor → m.auditorElgamalPubkey.equals t.auditor = true
  auditorChecked : checkAuditorCiphertext
    d.ciphertextValidityProofDataWithCiphertext.ciphertextLo
    d.ciphertextValidityProofDataWithCiphertext.ciphertextHi t.ciphertextLo t.ciphertextHi = .ok ()
  auditorReads : C.Encrypts (auditor.getD 0)
    d.ciphertextValidityProofDataWithCiphertext.ciphertextLo
    d.ciphertextValidityProofDataWithCiphertext.ciphertextHi amount
  debits : ∀ aes, C.Debits source current (balance.toNat - amount.toNat)
    (debited rt t.source t.ciphertextLo t.ciphertextHi t.newSourceCiphertext aes)
  credits : C.Credits destination amount.toNat
    (credited rt t.destination t.ciphertextLo t.ciphertextHi)

namespace AmountProofData.Spends

variable {auditorKey : P} {rest lo hi : UInt64}

theorem rest_eq (h : d.Spends C Z k second auditorKey current balance amount rest lo hi r) :
    rest.toNat = balance.toNat - amount.toNat := by
  have hrest := checkedSub_eq_some.mp h.left
  omega

theorem encrypts (h : d.Spends C Z k second auditorKey current balance amount rest lo hi r) :
    C.Encrypts auditorKey d.ciphertextValidityProofDataWithCiphertext.ciphertextLo
      d.ciphertextValidityProofDataWithCiphertext.ciphertextHi amount :=
  ⟨lo, hi, h.halves, r.lo, r.hi, h.proves.auditorLo, h.proves.auditorHi⟩

end AmountProofData.Spends

theorem checkAuditorCiphertext_pod3 (lo hi : GroupedCiphertext 3 P) :
    checkAuditorCiphertext (C.pod (lo.toElgamalCiphertext 2)) (C.pod (hi.toElgamalCiphertext 2))
      (C.pod3 lo) (C.pod3 hi) = .ok () := by
  have hlo : (C.pod3 lo).tryExtractCiphertext 2 = .ok (C.pod (lo.toElgamalCiphertext 2)) := rfl
  have hhi : (C.pod3 hi).tryExtractCiphertext 2 = .ok (C.pod (hi.toElgamalCiphertext 2)) := rfl
  simp only [checkAuditorCiphertext, hlo, hhi, ok_bind, bne_self_eq_false, failIf,
    Bool.false_eq_true, if_false]

theorem transferAccepted_of_ok (hZ : Z.Complete C)
    (hbalance : C.bases.Decrypts k.secret current (balance.toNat : F))
    (hamount : amount.toNat < 2 ^ 48)
    (h : transferSplitProofData Z current (some balance) amount k second auditor r = .ok d) :
    ∃ t, TransferAccepted C Z k second auditor current balance amount d t := by
  obtain ⟨rest, lo, hi, hs⟩ := transferSplitProofData_ok hZ hbalance hamount h
  have hrest := checkedSub_eq_some.mp hs.left
  have hdecrypts := decrypts_sub_halves C k.pairs hbalance hs.left hs.halves r.lo r.hi
  rw [hs.rest_eq] at hdecrypts
  refine ⟨⟨_, _, _, _, _, _⟩, hs.proves.verified, by omega, ?_, fun _ h => h.equals, ?_,
      hs.encrypts,
    fun aes => Curve.debits_debited hdecrypts aes,
    Curve.credits_credited ![k.pubkey, second, auditor.getD 0] hs.halves r.lo r.hi⟩
  · have hverify := C.amountContexts_verify k.pubkey ![k.pubkey, second, auditor.getD 0]
      (current - (C.bases.encrypt k.pubkey (lo.toNat : F) r.lo +
        ((65536 : ℕ) : F) • C.bases.encrypt k.pubkey (hi.toNat : F) r.hi)) rest lo hi r
    rw [hs.proves.contexts]
    exact (congrArg (· >>= _) hverify).trans rfl
  · rw [hs.proves.auditorLo, hs.proves.auditorHi]
    exact checkAuditorCiphertext_pod3 _ _

/-! ## Burns -/

/-- Wherever the supply has this key, the update succeeds and adds `x` to the pending burn. -/
def Curve.Burns (C : Curve rt F P) (key : P) (x : ℕ)
    (update : Token.ConfidentialMintBurn → Result Token.ConfidentialMintBurn) : Prop :=
  ∀ s u (z : F), C.bases.Pairs s key → u.supplyElgamalPubkey = C.compress key →
    C.Hides s u.pendingBurn z → ∃ pending,
      update u = .ok { u with pendingBurn := pending } ∧ C.Hides s pending (z + x)

structure BurnAccepted (C : Curve rt F P) (Z : ProofSystem F C.bases) (source : Keypair F C.bases)
    (supply : P) (auditor : Option P) (current : Ciphertext P) (balance amount : UInt64)
    (d : AmountProofData) (t : BurnProofContext) : Prop where
  verified : d.Verified C Z
  enough : amount.toNat ≤ balance.toNat
  extracted : BurnProofContext.verifyAndExtract d.contexts = .ok t
  auditorReads : C.Encrypts (auditor.getD 0)
    d.ciphertextValidityProofDataWithCiphertext.ciphertextLo
    d.ciphertextValidityProofDataWithCiphertext.ciphertextHi amount
  debits : ∀ data : ConfidentialMintBurn.InstructionData,
    data.auditorCiphertextLo = d.ciphertextValidityProofDataWithCiphertext.ciphertextLo →
    data.auditorCiphertextHi = d.ciphertextValidityProofDataWithCiphertext.ciphertextHi →
    C.Debits source current (balance.toNat - amount.toNat)
      (ConfidentialMintBurn.burnedFrom rt t data)
  burns : ∀ m, C.Audits m auditor →
    C.Burns supply amount.toNat (ConfidentialMintBurn.supplyBurned rt m t)

/-- A burn debits as a transfer does, once the auditor's ciphertexts are found to agree. -/
theorem burnedFrom_eq {t : BurnProofContext} {data : ConfidentialMintBurn.InstructionData}
    (h : checkAuditorCiphertext data.auditorCiphertextLo data.auditorCiphertextHi
      t.burnAmountCiphertextLo t.burnAmountCiphertextHi = .ok ())
    (e : ConfidentialTransferAccount) :
    ConfidentialMintBurn.burnedFrom rt t data e =
      debited rt t.source t.burnAmountCiphertextLo t.burnAmountCiphertextHi
        t.remainingBalanceCiphertext data.newDecryptableBalance e := by
  simp only [ConfidentialMintBurn.burnedFrom, h, ok_bind]
  rfl

theorem burns_supplyBurned {m : ConfidentialTransferMint} (keys : Fin 3 → P) {t : BurnProofContext}
    {lo hi : UInt64} (haudit : ConfidentialMintBurn.checkAuditor m t.auditor = .ok ())
    (hx : Halves amount lo hi) (x y : F) (hsupply : t.supply = C.compress (keys 1))
    (hlo : t.burnAmountCiphertextLo = C.pod3 (amountCiphertext C.bases keys lo x))
    (hhi : t.burnAmountCiphertextHi = C.pod3 (amountCiphertext C.bases keys hi y)) :
    C.Burns (keys 1) amount.toNat (ConfidentialMintBurn.supplyBurned rt m t) := by
  intro s u z hs hkey hburn
  obtain ⟨pending, hpending, hhides⟩ := hburn.addWithLoHi_pod
    (Bases.decrypts_encrypt hs (lo.toNat : F) x) (Bases.decrypts_encrypt hs (hi.toNat : F) y)
  have hlo' : t.burnAmountCiphertextLo.tryExtractCiphertext 1 =
      .ok (C.pod (C.bases.encrypt (keys 1) (lo.toNat : F) x)) := by
    rw [hlo]
    rfl
  have hhi' : t.burnAmountCiphertextHi.tryExtractCiphertext 1 =
      .ok (C.pod (C.bases.encrypt (keys 1) (hi.toNat : F) y)) := by
    rw [hhi]
    rfl
  have hsame : (u.supplyElgamalPubkey != t.supply) = false := by
    rw [hkey, hsupply, bne_self_eq_false]
  refine ⟨pending, ?_, hx.cast (F := F) ▸ hhides⟩
  simp only [ConfidentialMintBurn.supplyBurned, haudit, hsame, hlo', hhi', hpending, mapErr,
    arithmetic, okOr, failIf, ok_bind, Bool.false_eq_true, if_false]
  rfl

theorem burnAccepted_of_ok (hZ : Z.Complete C)
    (hbalance : C.bases.Decrypts k.secret current (balance.toNat : F))
    (hamount : amount.toNat < 2 ^ 48)
    (h : burnSplitProofData Z current (some balance) amount k second auditor r = .ok d) :
    ∃ t, BurnAccepted C Z k second auditor current balance amount d t := by
  obtain ⟨rest, lo, hi, hs⟩ := burnSplitProofData_ok hZ hbalance hamount h
  have hrest := checkedSub_eq_some.mp hs.left
  have hdecrypts := decrypts_sub_halves C k.pairs hbalance hs.left hs.halves r.lo r.hi
  rw [hs.rest_eq] at hdecrypts
  have hextracted : BurnProofContext.verifyAndExtract d.contexts = .ok
      ⟨C.pod3 (amountCiphertext C.bases ![k.pubkey, second, auditor.getD 0] lo r.lo),
        C.pod3 (amountCiphertext C.bases ![k.pubkey, second, auditor.getD 0] hi r.hi),
        C.compress k.pubkey, C.compress second, C.compress (auditor.getD 0),
        C.pod (current - (C.bases.encrypt k.pubkey (lo.toNat : F) r.lo +
          ((65536 : ℕ) : F) • C.bases.encrypt k.pubkey (hi.toNat : F) r.hi))⟩ := by
    rw [hs.proves.contexts]
    exact (congrArg (· >>= _) (C.amountContexts_verify k.pubkey _ _ rest lo hi r)).trans rfl
  refine ⟨_, hs.proves.verified, by omega, hextracted, hs.encrypts, ?_, fun m hm => ?_⟩
  · intro data hlo hhi e hvalid hkey hbalance
    rw [burnedFrom_eq]
    · exact Curve.debits_debited hdecrypts data.newDecryptableBalance e hvalid hkey hbalance
    · rw [hlo, hhi, hs.proves.auditorLo, hs.proves.auditorHi]
      exact checkAuditorCiphertext_pod3 _ _
  · exact burns_supplyBurned ![k.pubkey, second, auditor.getD 0] hm.checkAuditor_eq
      hs.halves r.lo r.hi rfl rfl rfl

/-! ## Withdrawals -/

structure WithdrawProofData.Verified (Z : ProofSystem F C.bases) (d : WithdrawProofData) :
    Prop where
  equality : Z.Verifies .ciphertextCommitmentEquality d.equalityProofData
  range : Z.Verifies .batchedRangeProofU64 d.rangeProofData

structure WithdrawAccepted (C : Curve rt F P) (Z : ProofSystem F C.bases) (k : Keypair F C.bases)
    (current : Ciphertext P) (balance amount : UInt64) (d : WithdrawProofData)
    (t : WithdrawProofContext) : Prop where
  verified : WithdrawProofData.Verified (C := C) Z d
  enough : amount.toNat ≤ balance.toNat
  extracted : WithdrawProofContext.verifyAndExtract d.equalityProofData.contextData
    d.rangeProofData.contextData = .ok t
  debits : ∀ aes, C.Debits k current (balance.toNat - amount.toNat) (withdrawn rt amount t aes)

theorem debits_withdrawn {c : Ciphertext P} {rest : ℕ} (hrest : C.bases.Decrypts k.secret
      (c - C.bases.encode (amount.toNat : F)) (rest : F)) (aes : PodAeCiphertext) :
    C.Debits k c rest (withdrawn rt amount
      ⟨C.compress k.pubkey, C.pod (c - C.bases.encode (amount.toNat : F))⟩ aes) := by
  intro e hvalid hkey hbalance
  have hsame : (e.elgamalPubkey != C.compress k.pubkey) = false := by
    rw [hkey, bne_self_eq_false]
  refine ⟨_, aes, ?_, _, rfl, hrest⟩
  by_cases hpos : amount > 0
  · have hsubtract := C.subtractFrom_pod amount.toNat_lt c
    simp only [withdrawn, hvalid, hsame, hbalance, hsubtract, if_pos hpos, arithmetic, okOr,
      bne_self_eq_false, failIf, ok_bind, Bool.false_eq_true, if_false]
    rfl
  · -- nothing is subtracted
    have hzero : amount.toNat = 0 :=
      Nat.le_zero.mp (UInt64.le_iff_toNat_le.mp (UInt64.not_lt.mp hpos))
    have hsame' : C.pod (c - C.bases.encode (amount.toNat : F)) = C.pod c := by
      rw [hzero, Nat.cast_zero]
      show C.pod ⟨c.commitment - (0 : F) • C.bases.G, c.handle - 0⟩ = _
      rw [zero_smul, sub_zero, sub_zero]
    have hkept : (e.availableBalance != C.pod (c - C.bases.encode (amount.toNat : F))) = false := by
      rw [hbalance, hsame', bne_self_eq_false]
    simp only [withdrawn, hvalid, hsame, if_neg hpos, hkept, failIf, ok_bind, Bool.false_eq_true,
      if_false]
    rw [hsame', ← hbalance]
    rfl

theorem withdrawAccepted_of_ok (hZ : Z.Complete C) {opening : F} {d : WithdrawProofData}
    (hbalance : C.bases.Decrypts k.secret current (balance.toNat : F))
    (h : withdrawProofData Z current balance amount k opening = .ok d) :
    ∃ t, WithdrawAccepted C Z k current balance amount d t := by
  simp only [withdrawProofData, bind_eq_ok, okOr_eq_ok, pure_eq_ok] at h
  obtain ⟨rest, hrest, e, he, q, hq, rfl⟩ := h
  have hsum := checkedSub_eq_some.mp hrest
  have hdecrypts : C.bases.Decrypts k.secret (current - C.bases.encode (amount.toNat : F))
      (rest.toNat : F) := by
    have hsub := hbalance.sub (Bases.decrypts_encode (B := C.bases) k.secret (amount.toNat : F))
    rwa [← hsum, Nat.cast_add, add_sub_cancel_right] at hsub
  obtain ⟨e', he', heContext, heVerifies⟩ := hZ.equality k _ opening rest hdecrypts
  obtain ⟨q', hq', hqContext, hqVerifies⟩ := hZ.rangeU64 [⟨rest, 64, opening⟩] (by simp)
    (by simpa using rest.toNat_lt) rfl
  obtain rfl := Option.some.inj (he.symm.trans he')
  obtain rfl := Option.some.inj (hq.symm.trans hq')
  have hleft : rest.toNat = balance.toNat - amount.toNat := by omega
  rw [hleft] at hdecrypts
  refine ⟨_, ⟨heVerifies, hqVerifies⟩, by omega, ?_, fun aes => debits_withdrawn hdecrypts aes⟩
  rw [heContext, hqContext]
  simp [WithdrawProofContext.verifyAndExtract, Curve.rangeContext, padded, RangeItem.commitment]
  rfl

/-! ## Mints -/

/-- Wherever `c` is the supply, the update succeeds and makes it `x`. -/
def Curve.Supplies (C : Curve rt F P) (k : Keypair F C.bases) (c : Ciphertext P) (x : ℕ)
    (update : Token.ConfidentialMintBurn → Result Token.ConfidentialMintBurn) : Prop :=
  ∀ u, u.supplyElgamalPubkey = C.compress k.pubkey → u.confidentialSupply = C.pod c →
    ∃ supply decryptable, update u = .ok { u with
      confidentialSupply := supply
      decryptableSupply := decryptable } ∧ C.Hides k.secret supply x

structure MintAccepted (C : Curve rt F P) (Z : ProofSystem F C.bases) (supply : Keypair F C.bases)
    (destination : P) (auditor : Option P) (current : Ciphertext P) (before amount : UInt64)
    (d : AmountProofData) (t : MintProofContext) : Prop where
  verified : d.Verified C Z
  extracted : MintProofContext.verifyAndExtract d.contexts = .ok t
  auditorReads : C.Encrypts (auditor.getD 0)
    d.ciphertextValidityProofDataWithCiphertext.ciphertextLo
    d.ciphertextValidityProofDataWithCiphertext.ciphertextHi amount
  credits : ∀ m (data : ConfidentialMintBurn.InstructionData), C.Audits m auditor →
    data.auditorCiphertextLo = d.ciphertextValidityProofDataWithCiphertext.ciphertextLo →
    data.auditorCiphertextHi = d.ciphertextValidityProofDataWithCiphertext.ciphertextHi →
    C.Credits destination amount.toNat (ConfidentialMintBurn.mintedTo rt m t data)
  supplies : ∀ data, C.Supplies supply current (before.toNat + amount.toNat)
    (ConfidentialMintBurn.supplyMinted rt t data)

theorem credits_mintedTo {m : ConfidentialTransferMint} (keys : Fin 3 → P) {t : MintProofContext}
    {data : ConfidentialMintBurn.InstructionData} {lo hi : UInt64}
    (haudit : ConfidentialMintBurn.checkAuditor m t.auditor = .ok ())
    (hcheck : checkAuditorCiphertext data.auditorCiphertextLo data.auditorCiphertextHi
      t.mintAmountCiphertextLo t.mintAmountCiphertextHi = .ok ())
    (hx : Halves amount lo hi) (x y : F) (hkey : t.destination = C.compress (keys 0))
    (hlo : t.mintAmountCiphertextLo = C.pod3 (amountCiphertext C.bases keys lo x))
    (hhi : t.mintAmountCiphertextHi = C.pod3 (amountCiphertext C.bases keys hi y)) :
    C.Credits (keys 0) amount.toNat (ConfidentialMintBurn.mintedTo rt m t data) := by
  intro s e z hs hvalid hkey' hpending
  obtain ⟨lo', hi', hlo', hhi', hnew⟩ := hpending.add (Bases.decrypts_encrypt hs (lo.toNat : F) x)
    (Bases.decrypts_encrypt hs (hi.toNat : F) y)
  have hextractLo : t.mintAmountCiphertextLo.tryExtractCiphertext 0 =
      .ok (C.pod (C.bases.encrypt (keys 0) (lo.toNat : F) x)) := by
    rw [hlo]
    rfl
  have hextractHi : t.mintAmountCiphertextHi.tryExtractCiphertext 0 =
      .ok (C.pod (C.bases.encrypt (keys 0) (hi.toNat : F) y)) := by
    rw [hhi]
    rfl
  have hsame : (t.destination != e.elgamalPubkey) = false := by
    rw [hkey, hkey', bne_self_eq_false]
  refine ⟨lo', hi', ?_, hx.cast (F := F) ▸ hnew⟩
  simp only [ConfidentialMintBurn.mintedTo, hvalid, hsame, haudit, hcheck, hextractLo, hextractHi,
    hlo', hhi', arithmetic, okOr, ok_bind, failIf, Bool.false_eq_true, if_false]
  exact Curve.increment_of_validAsDestination hvalid lo' hi'

theorem supplies_supplyMinted {t : MintProofContext} {c : Ciphertext P} {x : ℕ}
    {lo hi : GroupedCiphertext 3 P} (hkey : t.supply = C.compress k.pubkey)
    (hlo : t.mintAmountCiphertextLo = C.pod3 lo) (hhi : t.mintAmountCiphertextHi = C.pod3 hi)
    (hnew : t.newSupplyCiphertext = C.pod (c + (lo.toElgamalCiphertext 1 +
      ((65536 : ℕ) : F) • hi.toElgamalCiphertext 1)))
    (hx : C.bases.Decrypts k.secret (c + (lo.toElgamalCiphertext 1 +
      ((65536 : ℕ) : F) • hi.toElgamalCiphertext 1)) (x : F))
    (data : ConfidentialMintBurn.InstructionData) :
    C.Supplies k c x (ConfidentialMintBurn.supplyMinted rt t data) := by
  intro u hkey' hsupply
  have hadd := C.addWithLoHi_pod c (lo.toElgamalCiphertext 1) (hi.toElgamalCiphertext 1)
  have hextractLo : t.mintAmountCiphertextLo.tryExtractCiphertext 1 =
      .ok (C.pod (lo.toElgamalCiphertext 1)) := by
    rw [hlo]
    rfl
  have hextractHi : t.mintAmountCiphertextHi.tryExtractCiphertext 1 =
      .ok (C.pod (hi.toElgamalCiphertext 1)) := by
    rw [hhi]
    rfl
  have hsame : (u.supplyElgamalPubkey != t.supply) = false := by
    rw [hkey, hkey', bne_self_eq_false]
  refine ⟨_, data.newDecryptableBalance, ?_, _, rfl, hx⟩
  simp only [ConfidentialMintBurn.supplyMinted, hsame, hsupply, hextractLo, hextractHi, hadd, hnew,
    mapErr, arithmetic, okOr, ok_bind, failIf, bne_self_eq_false, Bool.false_eq_true, if_false]
  rfl

theorem mintAccepted_of_ok (hZ : Z.Complete C) {before : UInt64}
    (hsupply : C.bases.Decrypts k.secret current (before.toNat : F))
    (hamount : amount.toNat < 2 ^ 48)
    (h : mintSplitProofData Z current amount before k second auditor r = .ok d) :
    ∃ t, MintAccepted C Z k second auditor current before amount d t := by
  simp only [mintSplitProofData, bind_eq_ok, okOr_eq_ok, Prod.exists,
    tryCombineLoHiCiphertexts_eq, Option.some.injEq] at h
  obtain ⟨lo, hi, hsplit, _, rfl, after, hafter, h⟩ := h
  obtain ⟨lo', hi', hx⟩ := exists_halves amount
  obtain ⟨rfl, rfl⟩ := Prod.mk.inj (Option.some.inj (hsplit.symm.trans hx.split))
  have hsum := checkedAdd_eq_some.mp hafter
  have hdecrypts := hsupply.add ((Bases.decrypts_encrypt k.pairs (lo.toNat : F) r.lo).add
    ((Bases.decrypts_encrypt k.pairs (hi.toNat : F) r.hi).smul ((65536 : ℕ) : F)))
  rw [← hx.cast, ← Nat.cast_add, ← hsum] at hdecrypts
  obtain ⟨d', hd', hproves⟩ := amountProofData_eq C hZ r hdecrypts hx.short (hx.high_lt hamount)
  obtain rfl := Except.ok.inj (h.symm.trans hd')
  have hextracted : MintProofContext.verifyAndExtract d.contexts = .ok
      ⟨C.pod3 (amountCiphertext C.bases ![second, k.pubkey, auditor.getD 0] lo r.lo),
        C.pod3 (amountCiphertext C.bases ![second, k.pubkey, auditor.getD 0] hi r.hi),
        C.compress second, C.compress k.pubkey, C.compress (auditor.getD 0),
        C.pod (current + (C.bases.encrypt k.pubkey (lo.toNat : F) r.lo +
          ((65536 : ℕ) : F) • C.bases.encrypt k.pubkey (hi.toNat : F) r.hi))⟩ := by
    rw [hproves.contexts]
    exact (congrArg (· >>= _) (C.amountContexts_verify k.pubkey _ _ after lo hi r)).trans rfl
  rw [hsum] at hdecrypts
  refine ⟨_, hproves.verified, hextracted, ⟨lo, hi, hx, r.lo, r.hi, hproves.auditorLo,
    hproves.auditorHi⟩, fun m data hm hlo hhi => ?_, fun data => ?_⟩
  · refine credits_mintedTo ![second, k.pubkey, auditor.getD 0] hm.checkAuditor_eq ?_ hx
      r.lo r.hi rfl rfl rfl
    rw [hlo, hhi, hproves.auditorLo, hproves.auditorHi]
    exact checkAuditorCiphertext_pod3 _ _
  · exact supplies_supplyMinted rfl rfl rfl rfl hdecrypts data

/-! ## Transfers with fee -/

variable (C)

/-- The commitments to two halves combine to one of the whole. -/
theorem combine_commit {x lo hi : UInt64} (hx : Halves x lo hi) (r s : F) :
    C.bases.commit (lo.toNat : F) r + ((65536 : ℕ) : F) • C.bases.commit (hi.toNat : F) s =
      C.bases.commit (x.toNat : F) (r + ((65536 : ℕ) : F) * s) := by
  rw [Bases.smul_commit, Bases.commit_add, ← hx.cast]

/-- The numbers of a transfer with fee. -/
structure FeeAmounts (amount : UInt64) (bps : UInt16) (max : UInt64) where
  rest : UInt64
  lo : UInt64
  hi : UInt64
  fee : UInt64
  delta : UInt64
  complement : UInt64
  feeLo : UInt64
  feeHi : UInt64
  net : UInt64
  halves : Halves amount lo hi
  withheld : Withheld amount bps max fee delta
  feeHalves : Halves fee feeLo feeHi
  complements : complement.toNat + delta.toNat = 9999
  split : net.toNat + fee.toNat = amount.toNat

namespace FeeAmounts

variable {C} {bps : UInt16} {max : UInt64} (n : FeeAmounts amount bps max) (r : FeeProofOpenings F)

/-- What opens the amount. -/
def opening : F := r.lo + ((65536 : ℕ) : F) * r.hi

/-- What opens the fee. -/
def feeOpening : F := r.feeLo + ((65536 : ℕ) : F) * r.feeHi

variable (C)

/-- The commitment to how far the fee is from the percentage. -/
def deltaCommitment : P :=
  (10000 : F) • C.bases.commit (n.fee.toNat : F) (feeOpening r) -
    (bps.toNat : F) • C.bases.commit (amount.toNat : F) (opening r)

def items : List (RangeItem F) :=
  [⟨n.rest, 64, r.balance⟩, ⟨n.lo, 16, r.lo⟩, ⟨n.hi, 32, r.hi⟩, ⟨n.delta, 16, r.claimed⟩,
    ⟨n.complement, 16, 0 - r.claimed⟩, ⟨n.feeLo, 16, r.feeLo⟩, ⟨n.feeHi, 32, r.feeHi⟩,
    ⟨n.net, 64, opening r - feeOpening r⟩]

/-- The contexts of the five proofs. -/
def contexts (key : P) (keys : Fin 3 → P) (feeKeys : Fin 2 → P) (c : Ciphertext P) : FeeProof where
  equality := ⟨C.compress key, C.pod c, C.compress (C.bases.commit (n.rest.toNat : F) r.balance)⟩
  validity := ⟨C.compress (keys 0), C.compress (keys 1), C.compress (keys 2),
    C.pod3 (amountCiphertext C.bases keys n.lo r.lo),
    C.pod3 (amountCiphertext C.bases keys n.hi r.hi)⟩
  sigma := ⟨C.compress (C.bases.commit (n.fee.toNat : F) (feeOpening r)),
    C.compress (n.deltaCommitment C r), C.compress (C.bases.commit (n.delta.toNat : F) r.claimed),
    max⟩
  feeValidity := ⟨C.compress (feeKeys 0), C.compress (feeKeys 1),
    C.pod2 (amountCiphertext C.bases feeKeys n.feeLo r.feeLo),
    C.pod2 (amountCiphertext C.bases feeKeys n.feeHi r.feeHi)⟩
  range := C.rangeContext (n.items r)

variable {r}

theorem complement_commit : (9999 : F) • C.bases.G - C.bases.commit (n.delta.toNat : F) r.claimed =
    C.bases.commit (n.complement.toNat : F) (0 - r.claimed) := by
  have hsum : (n.complement.toNat : F) = 9999 - n.delta.toNat := by
    rw [eq_sub_iff_add_eq, ← Nat.cast_add, n.complements]
    norm_num
  rw [← Bases.commit_zero_right, Bases.commit_sub, hsum]

theorem net_commit : C.bases.commit (amount.toNat : F) (opening r) -
      C.bases.commit (n.fee.toNat : F) (feeOpening r) =
    C.bases.commit (n.net.toNat : F) (opening r - feeOpening r) := by
  have hsum : (n.net.toNat : F) = amount.toNat - n.fee.toNat := by
    rw [eq_sub_iff_add_eq, ← Nat.cast_add, n.split]
  rw [Bases.commit_sub, hsum]

theorem deltaCommitment_eq :
    n.deltaCommitment C r = C.bases.commit (10000 * (n.fee.toNat : F) - bps.toNat * amount.toNat)
      (10000 * feeOpening r - bps.toNat * opening r) := by
  rw [deltaCommitment, Bases.smul_commit, Bases.smul_commit, Bases.commit_sub]

theorem expectedCommitments_eq (key : P) (keys : Fin 3 → P) (feeKeys : Fin 2 → P)
    (c : Ciphertext P) :
    (n.contexts C r key keys feeKeys c).expectedCommitments rt =
      .ok ((n.items r).map fun i => C.compress (i.commitment C.bases)) := by
  have hmax : rt.multiplyRistretto (natToScalar 9999) ristrettoG =
      some (C.compress ((9999 : F) • C.bases.G)) := by
    rw [← C.compress_G, C.multiply_eq 9999 _ (by omega)]
    norm_num
  have hpoint := C.combineLoHiPedersenPoints_eq (C.bases.commit (n.lo.toNat : F) r.lo)
    (C.bases.commit (n.hi.toNat : F) r.hi)
  rw [combine_commit C n.halves] at hpoint
  have hlo : (n.contexts C r key keys feeKeys c).validity.groupedCiphertextLo.commitment =
    C.compress (C.bases.commit (n.lo.toNat : F) r.lo) := rfl
  have hhi : (n.contexts C r key keys feeKeys c).validity.groupedCiphertextHi.commitment =
    C.compress (C.bases.commit (n.hi.toNat : F) r.hi) := rfl
  have hclaimed : (n.contexts C r key keys feeKeys c).sigma.claimedCommitment =
    C.compress (C.bases.commit (n.delta.toNat : F) r.claimed) := rfl
  have hfee : (n.contexts C r key keys feeKeys c).sigma.percentageCommitment =
    C.compress (C.bases.commit (n.fee.toNat : F) (feeOpening r)) := rfl
  simp only [FeeProof.expectedCommitments, hmax, hlo, hhi, hclaimed, hfee, hpoint, curve, okOr,
    ok_bind, C.subtract_eq, n.complement_commit C]
  have hnet := n.net_commit C (r := r)
  simp only [opening] at hnet
  rw [hnet]
  rfl

theorem verifyDeltaCommitment_eq (key : P) (keys : Fin 3 → P) (feeKeys : Fin 2 → P)
    (c : Ciphertext P) :
    verifyDeltaCommitment rt
      (n.contexts C r key keys feeKeys c).validity.groupedCiphertextLo.commitment
      (n.contexts C r key keys feeKeys c).validity.groupedCiphertextHi.commitment
      (n.contexts C r key keys feeKeys c).sigma.percentageCommitment
      (n.contexts C r key keys feeKeys c).sigma.deltaCommitment bps = .ok () := by
  have hbps := bps.toNat_lt
  have hpoint := C.combineLoHiPedersenPoints_eq (C.bases.commit (n.lo.toNat : F) r.lo)
    (C.bases.commit (n.hi.toNat : F) r.hi)
  rw [combine_commit C n.halves] at hpoint
  have hlo : (n.contexts C r key keys feeKeys c).validity.groupedCiphertextLo.commitment =
    C.compress (C.bases.commit (n.lo.toNat : F) r.lo) := rfl
  have hhi : (n.contexts C r key keys feeKeys c).validity.groupedCiphertextHi.commitment =
    C.compress (C.bases.commit (n.hi.toNat : F) r.hi) := rfl
  have hfee : (n.contexts C r key keys feeKeys c).sigma.percentageCommitment =
    C.compress (C.bases.commit (n.fee.toNat : F) (feeOpening r)) := rfl
  have hdelta : (n.contexts C r key keys feeKeys c).sigma.deltaCommitment =
    C.compress (((10000 : ℕ) : F) • C.bases.commit (n.fee.toNat : F) (feeOpening r) -
      (bps.toNat : F) • C.bases.commit (amount.toNat : F) (opening r)) := by
    rw [Nat.cast_ofNat]
    rfl
  have hscaled := C.multiply_eq bps.toNat (C.bases.commit (amount.toNat : F)
    (r.lo + ((65536 : ℕ) : F) * r.hi)) (by omega)
  have hscaledFee := C.multiply_eq 10000 (C.bases.commit (n.fee.toNat : F) (feeOpening r))
      (by omega)
  simp only [verifyDeltaCommitment, hlo, hhi, hfee, hdelta, hpoint, curve, okOr, ok_bind, hscaled,
    hscaledFee, C.subtract_eq, opening, bne_self_eq_false, failIf, Bool.false_eq_true, if_false]

/-- The extractor accepts the contexts, under the same fee parameters. -/
theorem contexts_extracted (key : P) (second auditorKey withheldKey : P) (c : Ciphertext P) :
    TransferWithFeeProofContext.verifyAndExtract rt
      (n.contexts C r key ![key, second, auditorKey] ![second, withheldKey] c) bps max =
      .ok ⟨C.pod3 (amountCiphertext C.bases ![key, second, auditorKey] n.lo r.lo),
        C.pod3 (amountCiphertext C.bases ![key, second, auditorKey] n.hi r.hi), C.compress key,
        C.compress second, C.compress auditorKey, C.compress withheldKey, C.pod c,
        C.pod2 (amountCiphertext C.bases ![second, withheldKey] n.feeLo r.feeLo),
        C.pod2 (amountCiphertext C.bases ![second, withheldKey] n.feeHi r.feeHi)⟩ := by
  generalize hp : n.contexts C r key ![key, second, auditorKey] ![second, withheldKey] c = p
  have hexpected := n.expectedCommitments_eq C (r := r) key ![key, second, auditorKey]
    ![second, withheldKey] c
  have hdelta := n.verifyDeltaCommitment_eq C (r := r) key ![key, second, auditorKey]
    ![second, withheldKey] c
  have hpoint := C.combineLoHiPedersenPoints_eq (C.bases.commit (n.feeLo.toNat : F) r.feeLo)
    (C.bases.commit (n.feeHi.toNat : F) r.feeHi)
  rw [combine_commit C n.feeHalves] at hpoint
  rw [hp] at hexpected hdelta
  have hmax : p.sigma.maxValue = max := hp ▸ rfl
  have hsecond : p.feeValidity.firstPubkey = p.validity.secondPubkey := hp ▸ rfl
  have hkey : p.validity.firstPubkey = p.equality.pubkey := hp ▸ rfl
  have hcommitments : agrees p.range.commitments.toList
      ((n.items r).map fun i => C.compress (i.commitment C.bases)) = true := by
    subst hp
    simp [contexts, Curve.rangeContext, padded, items, agrees]
  have hbits : agrees p.range.bitLengths.toList [64, 16, 32, 16, 16, 16, 32, 64] = true := by
    subst hp
    rfl
  have hfee : combineLoHiPedersenPoints rt p.feeValidity.groupedCiphertextLo.commitment
      p.feeValidity.groupedCiphertextHi.commitment = .ok p.sigma.percentageCommitment := by
    subst hp
    exact hpoint
  simp only [TransferWithFeeProofContext.verifyAndExtract, hmax, hsecond, hkey, hexpected,
    hcommitments, hbits, hfee, hdelta, ok_bind, bne_self_eq_false, Bool.not_true, failIf,
    Bool.false_eq_true, if_false]
  subst hp
  rfl

omit C in
theorem items_short (hamount : amount.toNat < 2 ^ 48) : ∀ i ∈ n.items r,
    0 < i.bitLength ∧ i.bitLength ≤ 64 ∧ i.amount.toNat < 2 ^ i.bitLength := by
  have hhi := n.halves.high_lt hamount
  have hfeeHi := n.feeHalves.high_lt (n.withheld.le.trans_lt hamount)
  have hdelta := n.withheld.short
  have hcomplement : n.complement.toNat < 2 ^ 16 := by
    have hsum := n.complements
    omega
  simp only [items, List.forall_mem_cons, List.not_mem_nil, false_imp_iff, implies_true, and_true]
  exact ⟨⟨by omega, by omega, n.rest.toNat_lt⟩, ⟨by omega, by omega, n.halves.short⟩,
    ⟨by omega, by omega, hhi⟩, ⟨by omega, by omega, by omega⟩, ⟨by omega, by omega, hcomplement⟩,
    ⟨by omega, by omega, n.feeHalves.short⟩, ⟨by omega, by omega, hfeeHi⟩,
    by omega, by omega, n.net.toNat_lt⟩

end FeeAmounts

def TransferWithFeeProofData.contexts (d : TransferWithFeeProofData) : FeeProof :=
  ⟨d.equalityProofData.contextData,
    d.transferAmountCiphertextValidityProofDataWithCiphertext.proofData.contextData,
    d.percentageWithCapProofData.contextData, d.feeCiphertextValidityProofData.contextData,
    d.rangeProofData.contextData⟩

structure TransferWithFeeProofData.Verified (Z : ProofSystem F C.bases)
    (d : TransferWithFeeProofData) : Prop where
  equality : Z.Verifies .ciphertextCommitmentEquality d.equalityProofData
  validity : Z.Verifies .batchedGroupedCiphertext3HandlesValidity
    d.transferAmountCiphertextValidityProofDataWithCiphertext.proofData
  sigma : Z.Verifies .percentageWithCap d.percentageWithCapProofData
  feeValidity : Z.Verifies .batchedGroupedCiphertext2HandlesValidity
    d.feeCiphertextValidityProofData
  range : Z.Verifies .batchedRangeProofU256 d.rangeProofData

variable {C}

theorem feeProofData_ok (hZ : Z.Complete C) {keys : Fin 3 → P} {feeKeys : Fin 2 → P}
    {bps : UInt16} {max rest lo hi : UInt64} {r : FeeProofOpenings F}
    {sigma : ProofData PercentageWithCapProofContext}
    {feeValidity : ProofData BatchedGroupedCiphertext2HandlesValidityProofContext}
    {range : ProofData BatchedRangeProofContext} (hamount : amount.toNat < 2 ^ 48)
    (hbps : bps.toNat ≤ 10000) (hx : Halves amount lo hi)
    (h : feeProofData Z keys feeKeys amount rest lo hi bps max r =
      .ok (sigma, feeValidity, range)) :
    ∃ n : FeeAmounts amount bps max, n.rest = rest ∧ n.lo = lo ∧ n.hi = hi ∧
      (∀ key c, sigma.contextData = (n.contexts C r key keys feeKeys c).sigma ∧
        feeValidity.contextData = (n.contexts C r key keys feeKeys c).feeValidity ∧
        range.contextData = (n.contexts C r key keys feeKeys c).range) ∧
      Z.Verifies .percentageWithCap sigma ∧
      Z.Verifies .batchedGroupedCiphertext2HandlesValidity feeValidity ∧
      Z.Verifies .batchedRangeProofU256 range := by
  obtain ⟨raw, rawDelta, hcalculate, hw⟩ := exists_withheld amount hbps max
  rcases hcap : cappedFee max raw rawDelta with ⟨fee, delta⟩
  rw [hcap] at hw
  obtain ⟨feeLo, feeHi, hfee⟩ := exists_halves fee
  have hcommitments : ∀ a b : P, tryCombineLoHiCommitments F a b transferAmountLoBits =
    some (a + ((65536 : ℕ) : F) • b) := fun _ _ => rfl
  have hopenings : ∀ a b : F, tryCombineLoHiOpenings a b transferAmountLoBits =
    some (a + ((65536 : ℕ) : F) * b) := fun _ _ => rfl
  simp only [feeProofData, bind_eq_ok, okOr_eq_ok, hcalculate, hcap, hfee.split, hcommitments,
    hopenings, Option.some.injEq, exists_eq_left', Prod.mk.injEq, pure_eq_ok] at h
  obtain ⟨net, hnet, _, hsigma, _, hvalidity, complement, hcomplement, _, hrange, rfl, rfl,
    rfl⟩ := h
  have hsum : complement.toNat + delta.toNat = 9999 := checkedSub_eq_some.mp hcomplement
  let n : FeeAmounts amount bps max :=
    { rest, lo, hi, fee, delta, complement, feeLo, feeHi, net
      halves := hx
      withheld := hw
      feeHalves := hfee
      complements := hsum
      split := checkedSub_eq_some.mp hnet }
  have hcombined : (amountCiphertext C.bases keys lo r.lo).commitment + ((65536 : ℕ) : F) •
      (amountCiphertext C.bases keys hi r.hi).commitment =
        C.bases.commit (amount.toNat : F) (FeeAmounts.opening r) := combine_commit C hx r.lo r.hi
  have hcombinedFee : (amountCiphertext C.bases feeKeys feeLo r.feeLo).commitment +
      ((65536 : ℕ) : F) • (amountCiphertext C.bases feeKeys feeHi r.feeHi).commitment =
        C.bases.commit (fee.toNat : F) (FeeAmounts.feeOpening r) :=
    combine_commit C hfee r.feeLo r.feeHi
  have hone : (oneInBasisPoints : F) = 10000 := by rw [oneInBasisPoints, Nat.cast_ofNat]
  simp only [hcombined, hcombinedFee, computeDeltaCommitmentAndOpening, hone] at hsigma hrange
  obtain ⟨s, hs, hsContext, hsVerifies⟩ := hZ.percentageWithCap fee delta max
    (FeeAmounts.feeOpening r) (10000 * FeeAmounts.feeOpening r - bps.toNat * FeeAmounts.opening r)
    r.claimed (n.deltaCommitment C r) hw.le_max <| by
      refine hw.exact.imp_right fun hexact => ?_
      have hcast : 10000 * (fee.toNat : F) - bps.toNat * amount.toNat = delta.toNat := by
        rw [sub_eq_iff_eq_add, mul_comm (bps.toNat : F), add_comm]
        exact_mod_cast congrArg (Nat.cast : ℕ → F) hexact
      rw [n.deltaCommitment_eq C, ← hcast]
  obtain ⟨v, hv, hvContext, hvVerifies⟩ := hZ.validity2 feeKeys feeLo feeHi r.feeLo r.feeHi
  obtain ⟨q, hq, hqContext, hqVerifies⟩ := hZ.rangeU256 (n.items r) (by simp [FeeAmounts.items])
    (n.items_short hamount) rfl
  obtain rfl := Option.some.inj (hsigma.symm.trans hs)
  obtain rfl := Option.some.inj (hvalidity.symm.trans hv)
  have hclaimed : C.bases.commit (maxFeeBasisPointsSubOne : F) 0 -
      C.bases.commit (delta.toNat : F) r.claimed =
        C.bases.commit (complement.toNat : F) (0 - r.claimed) := by
    rw [maxFeeBasisPointsSubOne, Nat.cast_ofNat, Bases.commit_zero_right]
    exact n.complement_commit C
  rw [hclaimed, n.net_commit C] at hrange
  obtain rfl := Option.some.inj (hrange.symm.trans hq)
  exact ⟨n, rfl, rfl, rfl, fun key c => ⟨hsContext, hvContext, hqContext⟩, hsVerifies, hvVerifies,
    hqVerifies⟩

/-- Where the destination is another account, or the source itself, the credit succeeds,
`net` joins what is pending and `fee` what is withheld. -/
def Curve.FeeCredits (C : Curve rt F P) (destination withheldKey : P)
    (t : TransferWithFeeProofContext) (self : Bool) (net fee : ℕ) : Prop :=
  ∀ (ctx : Context) (σ : Ledger) (destinationInfo mintInfo : AccountInfo)
      (account : PodState PodAccount) (e : ConfidentialTransferAccount)
      (f : ConfidentialTransferFeeAmount) (s w y z : F),
    σ.Wf → loadDestination ctx σ destinationInfo mintInfo = .ok account →
    account.getExtension ConfidentialTransferAccount = .ok e →
    account.getExtension ConfidentialTransferFeeAmount = .ok f →
    C.bases.Pairs s destination → C.bases.Pairs w withheldKey → e.validAsDestination = .ok () →
    e.elgamalPubkey = C.compress destination → C.Pending s e y → C.Hides w f.withheldAmount z →
    ∃ σ' account' lo hi withheld,
      processDestinationForTransferWithFee rt ctx σ destinationInfo mintInfo t self = .ok σ' ∧
      load σ' PodAccount destinationInfo.key = .ok account' ∧
      account'.getExtension ConfidentialTransferAccount = .ok { e with
        pendingBalanceLo := lo
        pendingBalanceHi := hi
        pendingBalanceCreditCounter := e.pendingBalanceCreditCounter + 1 } ∧
      account'.getExtension ConfidentialTransferFeeAmount = .ok ⟨withheld⟩ ∧
      C.Pending s { e with pendingBalanceLo := lo, pendingBalanceHi := hi } (y + net) ∧
      C.Hides w withheld (z + fee)

/-- A state that was read and changed is written. -/
theorem exists_store {σ : Ledger} {k : Pubkey} {s s' : PodState PodAccount} {v : View PodAccount}
    (hwf : σ.Wf) (howner : (σ k).owner = Keys.tokenProgram) (hload : load σ PodAccount k = .ok s)
    (hst : s.Stored s' v) (hbase : v.base = s.base) :
    ∃ σ', store σ k s' = .ok σ' ∧ load σ' PodAccount k = .ok s' := by
  have hstore : store σ k s' = .ok (σ.set k { σ k with data := s'.bytes }) :=
    store_eq_ok.mpr ⟨.inl howner, rfl⟩
  have hinit : BaseState.isInitialized v.base = true := by
    rw [hbase]
    exact (packed_of_load hload).initialized
  exact ⟨_, hstore, (store_held hwf howner hload hst hinit trivial hstore).load⟩

theorem feeCredits_self (keys : Fin 3 → P) {t : TransferWithFeeProofContext} {lo hi : UInt64}
    (withheldKey : P) (hx : Halves amount lo hi) (x y : F)
    (hkey : t.destination = C.compress (keys 1))
    (hlo : t.ciphertextLo = C.pod3 (amountCiphertext C.bases keys lo x))
    (hhi : t.ciphertextHi = C.pod3 (amountCiphertext C.bases keys hi y)) :
    C.FeeCredits (keys 1) withheldKey t true amount.toNat 0 := by
  intro ctx σ destinationInfo mintInfo account e f s w u z hwf hload hget hgetf hs _ hvalid hkey'
    hpending hwithheld
  obtain ⟨howner, hloaded, _⟩ := loadDestination_ok hload
  obtain ⟨hswf, _⟩ := hwf.load howner hloaded
  obtain ⟨lo', hi', hcredit, hnew⟩ :=
      Curve.credits_credited keys hx x y s e u hs hvalid hkey' hpending
  rw [← hlo, ← hhi, ← hkey] at hcredit
  rw [PodState.getExtension_eq_ok] at hget hgetf
  obtain ⟨account', hset⟩ := PodState.exists_setExtension hget { e with
    pendingBalanceLo := lo'
    pendingBalanceHi := hi'
    pendingBalanceCreditCounter := e.pendingBalanceCreditCounter + 1 }
  have hst := (PodState.setExtension_ok hswf hset).1
  obtain ⟨σ', hstore, hload'⟩ := exists_store hwf howner hloaded hst rfl
  refine ⟨σ', account', lo', hi', f.withheldAmount, ?_, hload', ?_, ?_, hnew, ?_⟩
  · simp only [processDestinationForTransferWithFee, hload, PodState.getExtension_eq_ok.mpr hget,
      hcredit, hset, ok_bind, if_true]
    exact hstore
  · rw [PodState.getExtension_eq_ok, hst.view, View.get_set_same]
  · rw [PodState.getExtension_eq_ok, hst.view, View.get_set_of_ne _ _ (by decide)]
    exact hgetf
  · rwa [Nat.cast_zero, add_zero]

theorem feeCredits_other (keys : Fin 3 → P) (feeKeys : Fin 2 → P)
    {t : TransferWithFeeProofContext} {fee lo hi feeLo feeHi : UInt64} (hx : Halves amount lo hi)
    (hfee : Halves fee feeLo feeHi) (hle : fee.toNat ≤ amount.toNat) (x y p q : F)
    (hkeys : feeKeys 0 = keys 1) (hkey : t.destination = C.compress (keys 1))
    (hlo : t.ciphertextLo = C.pod3 (amountCiphertext C.bases keys lo x))
    (hhi : t.ciphertextHi = C.pod3 (amountCiphertext C.bases keys hi y))
    (hfeeLo : t.feeCiphertextLo = C.pod2 (amountCiphertext C.bases feeKeys feeLo p))
    (hfeeHi : t.feeCiphertextHi = C.pod2 (amountCiphertext C.bases feeKeys feeHi q)) :
    C.FeeCredits (keys 1) (feeKeys 1) t false (amount.toNat - fee.toNat) fee.toNat := by
  intro ctx σ destinationInfo mintInfo account e f s w u z hwf hload hget hgetf hs hw hvalid hkey'
    hpending hwithheld
  obtain ⟨howner, hloaded, _⟩ := loadDestination_ok hload
  obtain ⟨hswf, _⟩ := hwf.load howner hloaded
  obtain ⟨lo', hi', hcredit, hnew⟩ :=
      Curve.credits_credited keys hx x y s e u hs hvalid hkey' hpending
  rw [← hlo, ← hhi, ← hkey] at hcredit
  -- the fee leaves the pending balance again
  have hs' : C.bases.Pairs s (feeKeys 0) := hkeys ▸ hs
  obtain ⟨lo'', hi'', hlo'', hhi'', hnew'⟩ := hnew.subtract
    (Bases.decrypts_encrypt hs' (feeLo.toNat : F) p)
    (Bases.decrypts_encrypt hs' (feeHi.toNat : F) q)
  rw [← hfee.cast, add_sub_assoc, ← Nat.cast_sub hle] at hnew'
  obtain ⟨withheld, hadd, hhides⟩ := hwithheld.addWithLoHi_pod
    (Bases.decrypts_encrypt hw (feeLo.toNat : F) p) (Bases.decrypts_encrypt hw (feeHi.toNat : F) q)
  rw [← hfee.cast] at hhides
  rw [PodState.getExtension_eq_ok] at hget hgetf
  obtain ⟨account₁, hset₁⟩ := PodState.exists_setExtension hget { e with
    pendingBalanceLo := lo''
    pendingBalanceHi := hi''
    pendingBalanceCreditCounter := e.pendingBalanceCreditCounter + 1 }
  have hst₁ := (PodState.setExtension_ok hswf hset₁).1
  have hgetf₁ : account₁.view.get ConfidentialTransferFeeAmount = some f := by
    rw [hst₁.view, View.get_set_of_ne _ _ (by decide)]
    exact hgetf
  obtain ⟨account₂, hset₂⟩ := PodState.exists_setExtension hgetf₁ { f with
    withheldAmount := withheld }
  have hst₂ := (PodState.setExtension_ok hst₁.wf hset₂).1
  obtain ⟨σ', hstore, hload'⟩ := exists_store hwf howner hloaded (hst₁.trans hst₂) (by
    rw [hst₁.view]
    rfl)
  have hdestLo : t.feeCiphertextLo.tryExtractCiphertext 0 =
      .ok (C.pod (C.bases.encrypt (feeKeys 0) (feeLo.toNat : F) p)) := by
    rw [hfeeLo]
    rfl
  have hdestHi : t.feeCiphertextHi.tryExtractCiphertext 0 =
      .ok (C.pod (C.bases.encrypt (feeKeys 0) (feeHi.toNat : F) q)) := by
    rw [hfeeHi]
    rfl
  have hauthorityLo : t.feeCiphertextLo.tryExtractCiphertext 1 =
      .ok (C.pod (C.bases.encrypt (feeKeys 1) (feeLo.toNat : F) p)) := by
    rw [hfeeLo]
    rfl
  have hauthorityHi : t.feeCiphertextHi.tryExtractCiphertext 1 =
      .ok (C.pod (C.bases.encrypt (feeKeys 1) (feeHi.toNat : F) q)) := by
    rw [hfeeHi]
    rfl
  refine ⟨σ', account₂, lo'', hi'', withheld, ?_, hload', ?_, ?_, hnew', hhides⟩
  · simp only [processDestinationForTransferWithFee, withholdFee, hload,
      PodState.getExtension_eq_ok.mpr hget, hcredit, hdestLo, hdestHi, hlo'', hhi'', arithmetic,
      okOr, hset₁, hauthorityLo, hauthorityHi, PodState.getExtension_eq_ok.mpr hgetf₁, hadd, hset₂,
      ok_bind, Bool.false_eq_true, if_false]
    exact hstore
  · rw [PodState.getExtension_eq_ok, hst₂.view, View.get_set_of_ne _ _ (by decide), hst₁.view,
      View.get_set_same]
  · rw [PodState.getExtension_eq_ok, hst₂.view, View.get_set_same]

/-- A transfer with fee that the program accepts under the same parameters: another account is
credited what the public fee leaves of the amount, the source itself all of it. -/
structure TransferWithFeeAccepted (C : Curve rt F P) (Z : ProofSystem F C.bases)
    (source : Keypair F C.bases) (destination : P) (auditor : Option P) (withheldKey : P)
    (current : Ciphertext P) (balance amount : UInt64) (bps : UInt16) (max : UInt64)
    (d : TransferWithFeeProofData) (t : TransferWithFeeProofContext) (fee : UInt64) : Prop where
  verified : d.Verified C Z
  enough : amount.toNat ≤ balance.toNat
  rule : ∀ epoch, (⟨epoch, max, bps⟩ : TransferFee).calculateFee amount = some fee
  le : fee.toNat ≤ amount.toNat
  extracted : TransferWithFeeProofContext.verifyAndExtract rt d.contexts bps max = .ok t
  audited : ∀ m, C.Audits m auditor → m.auditorElgamalPubkey.equals t.auditor = true
  auditorChecked : checkAuditorCiphertext
    d.transferAmountCiphertextValidityProofDataWithCiphertext.ciphertextLo
    d.transferAmountCiphertextValidityProofDataWithCiphertext.ciphertextHi
    t.ciphertextLo t.ciphertextHi = .ok ()
  auditorReads : C.Encrypts (auditor.getD 0)
    d.transferAmountCiphertextValidityProofDataWithCiphertext.ciphertextLo
    d.transferAmountCiphertextValidityProofDataWithCiphertext.ciphertextHi amount
  collector : t.withdrawWithheldAuthority = C.compress withheldKey
  debits : ∀ aes, C.Debits source current (balance.toNat - amount.toNat)
    (debited rt t.source t.ciphertextLo t.ciphertextHi t.newSourceCiphertext aes)
  credits : C.FeeCredits destination withheldKey t false (amount.toNat - fee.toNat) fee.toNat
  itself : C.FeeCredits destination withheldKey t true amount.toNat 0

theorem transferWithFeeAccepted_of_ok (hZ : Z.Complete C) {withheldKey : P} {bps : UInt16}
    {max : UInt64} {r : FeeProofOpenings F} {d : TransferWithFeeProofData}
    (hbalance : C.bases.Decrypts k.secret current (balance.toNat : F))
    (hamount : amount.toNat < 2 ^ 48) (hbps : bps.toNat ≤ 10000)
    (h : transferWithFeeSplitProofData Z current (some balance) amount k second auditor withheldKey
      bps max r = .ok d) :
    ∃ t fee, TransferWithFeeAccepted C Z k second auditor withheldKey current balance amount bps max
      d t fee := by
  simp only [transferWithFeeSplitProofData, bind_eq_ok, okOr_eq_ok, Prod.exists, pure_eq_ok,
    tryCombineLoHiCiphertexts_eq, Option.some.injEq] at h
  obtain ⟨lo, hi, hsplit, _, rfl, rest, hrest, _, rfl, e, he, v, hv, sigma, feeValidity, range,
    hfee, rfl⟩ := h
  obtain ⟨lo', hi', hx⟩ := exists_halves amount
  obtain ⟨rfl, rfl⟩ := Prod.mk.inj (Option.some.inj (hsplit.symm.trans hx.split))
  have hsum := checkedSub_eq_some.mp hrest
  have hdecrypts := decrypts_sub_halves C k.pairs hbalance hrest hx r.lo r.hi
  obtain ⟨e', he', heContext, heVerifies⟩ := hZ.equality k _ r.balance rest hdecrypts
  obtain rfl := Option.some.inj (he.symm.trans he')
  obtain ⟨v', hv', hvContext, hvVerifies, hauditorLo, hauditorHi⟩ := validityProofData_eq C hZ
    ![k.pubkey, second, auditor.getD 0] lo hi r.lo r.hi
  obtain rfl := Except.ok.inj (hv.symm.trans hv')
  obtain ⟨n, rfl, rfl, rfl, hcontexts, hsVerifies, hfVerifies, hrVerifies⟩ :=
    feeProofData_ok hZ hamount hbps hx hfee
  obtain ⟨hsContext, hfContext, hrContext⟩ := hcontexts k.pubkey
    (current - (C.bases.encrypt k.pubkey (n.lo.toNat : F) r.lo +
      ((65536 : ℕ) : F) • C.bases.encrypt k.pubkey (n.hi.toNat : F) r.hi))
  have hextracted := n.contexts_extracted C (r := r) k.pubkey second (auditor.getD 0) withheldKey
    (current - (C.bases.encrypt k.pubkey (n.lo.toNat : F) r.lo +
      ((65536 : ℕ) : F) • C.bases.encrypt k.pubkey (n.hi.toNat : F) r.hi))
  have hsame : TransferWithFeeProofData.contexts ⟨e, v, sigma, feeValidity, range⟩ =
      n.contexts C r k.pubkey ![k.pubkey, second, auditor.getD 0] ![second, withheldKey]
        (current - (C.bases.encrypt k.pubkey (n.lo.toNat : F) r.lo +
          ((65536 : ℕ) : F) • C.bases.encrypt k.pubkey (n.hi.toNat : F) r.hi)) := by
    rw [TransferWithFeeProofData.contexts, hvContext, hsContext, hfContext, hrContext]
    exact congrArg (FeeProof.mk · _ _ _ _) heContext
  have hleft : n.rest.toNat = balance.toNat - amount.toNat := by omega
  rw [hleft] at hdecrypts
  refine ⟨_, n.fee, ⟨heVerifies, hvVerifies, hsVerifies, hfVerifies, hrVerifies⟩, by omega,
    n.withheld.rule, n.withheld.le, (congrArg (TransferWithFeeProofContext.verifyAndExtract rt · bps
      max) hsame).trans hextracted, fun _ h => h.equals, ?_,
    ⟨n.lo, n.hi, hx, r.lo, r.hi, hauditorLo, hauditorHi⟩, rfl,
    fun aes => Curve.debits_debited hdecrypts aes, ?_, ?_⟩
  · rw [hauditorLo, hauditorHi]
    exact checkAuditorCiphertext_pod3 _ _
  · exact feeCredits_other ![k.pubkey, second, auditor.getD 0] ![second, withheldKey] hx
      n.feeHalves n.withheld.le r.lo r.hi r.feeLo r.feeHi rfl rfl rfl rfl rfl rfl
  · exact feeCredits_self ![k.pubkey, second, auditor.getD 0] withheldKey hx r.lo r.hi rfl rfl rfl

/-! ## All five -/

/-- Whatever the generators return of an amount below `2⁴⁸` is accepted, and the instruction
has exactly the effect that was asked for. -/
theorem proof_generation_accepted (C : Curve rt F P) (Z : ProofSystem F C.bases)
    (hZ : Z.Complete C) :
    (∀ (current : Ciphertext P) (balance amount : UInt64) (source : Keypair F C.bases)
        (destination : P) (auditor : Option P) (r : AmountOpenings F) (d : AmountProofData),
      C.bases.Decrypts source.secret current (balance.toNat : F) → amount.toNat < 2 ^ 48 →
      transferSplitProofData Z current (some balance) amount source destination auditor r =
        .ok d →
      ∃ t, TransferAccepted C Z source destination auditor current balance amount d t) ∧
    (∀ (current : Ciphertext P) (balance amount : UInt64) (source : Keypair F C.bases)
        (destination : P) (auditor : Option P) (withheldKey : P) (bps : UInt16) (max : UInt64)
        (r : FeeProofOpenings F) (d : TransferWithFeeProofData),
      C.bases.Decrypts source.secret current (balance.toNat : F) → amount.toNat < 2 ^ 48 →
      bps.toNat ≤ 10000 →
      transferWithFeeSplitProofData Z current (some balance) amount source destination auditor
        withheldKey bps max r = .ok d →
      ∃ t fee, TransferWithFeeAccepted C Z source destination auditor withheldKey current balance
        amount bps max d t fee) ∧
    (∀ (current : Ciphertext P) (balance amount : UInt64) (k : Keypair F C.bases) (opening : F)
        (d : WithdrawProofData),
      C.bases.Decrypts k.secret current (balance.toNat : F) →
      withdrawProofData Z current balance amount k opening = .ok d →
      ∃ t, WithdrawAccepted C Z k current balance amount d t) ∧
    (∀ (current : Ciphertext P) (before amount : UInt64) (supply : Keypair F C.bases)
        (destination : P) (auditor : Option P) (r : AmountOpenings F) (d : AmountProofData),
      C.bases.Decrypts supply.secret current (before.toNat : F) → amount.toNat < 2 ^ 48 →
      mintSplitProofData Z current amount before supply destination auditor r = .ok d →
      ∃ t, MintAccepted C Z supply destination auditor current before amount d t) ∧
    (∀ (current : Ciphertext P) (balance amount : UInt64) (source : Keypair F C.bases)
        (supply : P) (auditor : Option P) (r : AmountOpenings F) (d : AmountProofData),
      C.bases.Decrypts source.secret current (balance.toNat : F) → amount.toNat < 2 ^ 48 →
      burnSplitProofData Z current (some balance) amount source supply auditor r = .ok d →
      ∃ t, BurnAccepted C Z source supply auditor current balance amount d t) := by
  refine ⟨?_, ?_, ?_, ?_, ?_⟩
  · intro current balance amount source destination auditor r d hbalance hamount h
    exact transferAccepted_of_ok hZ hbalance hamount h
  · intro current balance amount source destination auditor withheldKey bps max r d hbalance hamount
      hbps h
    exact transferWithFeeAccepted_of_ok hZ hbalance hamount hbps h
  · intro current balance amount k opening d hbalance h
    exact withdrawAccepted_of_ok hZ hbalance h
  · intro current before amount supply destination auditor r d hsupply hamount h
    exact mintAccepted_of_ok hZ hsupply hamount h
  · intro current balance amount source supply auditor r d hbalance hamount h
    exact burnAccepted_of_ok hZ hbalance hamount h

/-! ## An honest proof system -/

/-- Constructors that form the context and prove nothing, and a program that believes them. -/
def ProofSystem.honest (C : Curve rt F P) : ProofSystem F C.bases where
  equality k c p _ _ := some ⟨⟨C.compress k.pubkey, C.pod c, C.compress p⟩, []⟩
  validity3 keys lo hi _ _ _ _ := some ⟨⟨C.compress (keys 0), C.compress (keys 1),
    C.compress (keys 2), C.pod3 lo, C.pod3 hi⟩, []⟩
  validity2 keys lo hi _ _ _ _ := some ⟨⟨C.compress (keys 0), C.compress (keys 1), C.pod2 lo,
    C.pod2 hi⟩, []⟩
  percentageWithCap fee _ _ delta _ _ claimed _ max :=
    some ⟨⟨C.compress fee, C.compress delta, C.compress claimed, max⟩, []⟩
  rangeU64 ps _ bits _ := some ⟨⟨padded (ps.map C.compress) 0, padded (bits.map UInt8.ofNat) 0⟩, []⟩
  rangeU128 ps _ bits _ :=
      some ⟨⟨padded (ps.map C.compress) 0, padded (bits.map UInt8.ofNat) 0⟩, []⟩
  rangeU256 ps _ bits _ :=
      some ⟨⟨padded (ps.map C.compress) 0, padded (bits.map UInt8.ofNat) 0⟩, []⟩
  verify _ _ _ := true

theorem ProofSystem.honest_complete (C : Curve rt F P) : (ProofSystem.honest C).Complete C := by
  have hrange : ∀ (t : ProofType) (n : ℕ), (ProofSystem.honest C).RangeComplete C t n
      (fun ps _ bits _ =>
        some ⟨⟨padded (ps.map C.compress) 0, padded (bits.map UInt8.ofNat) 0⟩, []⟩) := by
    intro t n items _ _ _
    refine ⟨_, rfl, ?_, rfl⟩
    simp only [List.map_map]
    rfl
  exact
    { equality := fun _ _ _ _ _ => ⟨_, rfl, rfl, rfl⟩
      validity3 := fun _ _ _ _ _ => ⟨_, rfl, rfl, rfl⟩
      validity2 := fun _ _ _ _ _ => ⟨_, rfl, rfl, rfl⟩
      percentageWithCap := fun _ _ _ _ _ _ _ _ _ => ⟨_, rfl, rfl, rfl⟩
      rangeU64 := hrange _ _
      rangeU128 := hrange _ _
      rangeU256 := hrange _ _ }

end Generation

/-! ## A hundred tokens

Amounts of 100 over the order of the Ristretto group, at one per cent with a maximum of 5. -/

def plainCurve : Curve (.modular ristrettoOrder) (ZMod ristrettoOrder) (ZMod ristrettoOrder) :=
  .modular ristrettoOrder (by decide) (by decide) 3

/-- A holder whose secret is one. -/
def plainKeypair : Keypair (ZMod ristrettoOrder) plainCurve.bases where
  secret := 1
  pubkey := 3
  pairs := one_smul _ _

theorem plainKeypair_decrypts (x r : ZMod ristrettoOrder) :
    plainCurve.bases.Decrypts plainKeypair.secret
      (plainCurve.bases.encrypt plainKeypair.pubkey x r) x :=
  Bases.decrypts_encrypt plainKeypair.pairs x r

theorem proof_generation_accepted_hundred :
    let C := plainCurve
    let Z := ProofSystem.honest plainCurve
    let current := C.bases.encrypt plainKeypair.pubkey
        ((150 : UInt64).toNat : ZMod ristrettoOrder) 7
    (∃ d t, TransferAccepted C Z plainKeypair 6 none current 150 100 d t) ∧
    (∃ d t fee,
      TransferWithFeeAccepted C Z plainKeypair 6 (some 9) 3 current 150 100 100 5 d t fee) ∧
    (∃ d t, WithdrawAccepted C Z plainKeypair current 150 100 d t) ∧
    (∃ d t, MintAccepted C Z plainKeypair 6 none current 150 100 d t) ∧
    (∃ d t, BurnAccepted C Z plainKeypair 6 (some 9) current 150 100 d t) := by
  intro C Z current
  have hcurrent := plainKeypair_decrypts ((150 : UInt64).toNat : ZMod ristrettoOrder) 7
  obtain ⟨hplain, hfee, hwithdraw, hmint, hburn⟩ :=
    proof_generation_accepted C Z (ProofSystem.honest_complete plainCurve)
  obtain ⟨d₁, hd₁⟩ := Option.isSome_iff_exists.mp (show (toOption (transferSplitProofData Z current
    (some 150) 100 plainKeypair 6 none ⟨1, 2, 3, 4⟩)).isSome = true from rfl)
  obtain ⟨d₂, hd₂⟩ := Option.isSome_iff_exists.mp (show (toOption (transferWithFeeSplitProofData Z
    current (some 150) 100 plainKeypair 6 (some 9) 3 100 5 ⟨1, 2, 3, 4, 5, 6⟩)).isSome = true
    from rfl)
  obtain ⟨d₃, hd₃⟩ := Option.isSome_iff_exists.mp (show (toOption (withdrawProofData Z
    current 150 100 plainKeypair 2)).isSome = true from rfl)
  obtain ⟨d₄, hd₄⟩ := Option.isSome_iff_exists.mp (show (toOption (mintSplitProofData Z current 100
    150 plainKeypair 6 none ⟨1, 2, 3, 4⟩)).isSome = true from rfl)
  obtain ⟨d₅, hd₅⟩ := Option.isSome_iff_exists.mp (show (toOption (burnSplitProofData Z current
    (some 150) 100 plainKeypair 6 (some 9) ⟨1, 2, 3, 4⟩)).isSome = true from rfl)
  have hsmall : (100 : UInt64).toNat < 2 ^ 48 := by decide
  have hbps : (100 : UInt16).toNat ≤ 10000 := by decide
  exact ⟨⟨d₁, hplain _ _ _ _ _ _ _ _ hcurrent hsmall (toOption_eq_some.mp hd₁)⟩,
    ⟨d₂, hfee _ _ _ _ _ _ _ _ _ _ _ hcurrent hsmall hbps (toOption_eq_some.mp hd₂)⟩,
    ⟨d₃, hwithdraw _ _ _ _ _ _ hcurrent (toOption_eq_some.mp hd₃)⟩,
    ⟨d₄, hmint _ _ _ _ _ _ _ _ hcurrent hsmall (toOption_eq_some.mp hd₄)⟩,
    ⟨d₅, hburn _ _ _ _ _ _ _ _ hcurrent hsmall (toOption_eq_some.mp hd₅)⟩⟩

/-! A holder that configured its account, of a mint whose fees `3` collects, and sends a hundred
tokens to itself. -/

def keyContext : Context :=
  { Context.plain with
    getInstructionRelative := fun _ => some ⟨Keys.zkProofProgram, ProofType.pubkeyValidity.toU8,
      Pod.toBytes (⟨plainCurve.compress plainKeypair.pubkey⟩ : PubkeyValidityProofContext)⟩ }

def selfLedger : Ledger :=
  scripted (.modular ristrettoOrder)
    [(.plain, [⟨1, false⟩], .initializeTransferFeeConfig none none 100 5),
     (.plain, [⟨1, false⟩], .initializeConfidentialTransferMint ⟨0⟩ (.ofBool true) ⟨0⟩),
     (.plain, [⟨1, false⟩], .initializeConfidentialTransferFeeConfig ⟨0⟩ (plainCurve.compress 3)),
     (.plain, [⟨1, false⟩], .initializeMint2 6 5 none),
     (.plain, [⟨2, false⟩, ⟨1, false⟩], .initializeAccount3 7),
     (keyContext, [⟨2, false⟩, ⟨1, false⟩, ⟨Keys.instructionsSysvar, false⟩, ⟨7, true⟩],
      .configureAccount 0 10 1)]
    (blank [(1, 480), (2, 545)])

theorem selfLedger_reachable : Reachable (.modular ristrettoOrder) (fun _ => True) selfLedger :=
  .scripted (by decide) (fun _ _ _ => trivial) (by decide +kernel)

theorem selfLedger_account :
    ∃ account, loadDestination .plain selfLedger ⟨2, false⟩ ⟨1, false⟩ = .ok account ∧
      account.getExtension ConfidentialTransferAccount =
        .ok (configuredAccount (.ofBool true) (plainCurve.compress plainKeypair.pubkey) 0 10) ∧
      account.getExtension ConfidentialTransferFeeAmount = .ok ⟨.zeroed⟩ := by
  have h : (toOption (loadDestination .plain selfLedger ⟨2, false⟩ ⟨1, false⟩)).any (fun account =>
      decide (toOption (account.getExtension ConfidentialTransferAccount) = some
        (configuredAccount (.ofBool true) (plainCurve.compress plainKeypair.pubkey) 0 10) ∧
        toOption (account.getExtension ConfidentialTransferFeeAmount) =
          some ⟨.zeroed⟩)) = true := by
    decide +kernel
  obtain ⟨account, hload, hsome⟩ := Option.any_eq_true .. |>.mp h
  obtain ⟨hget, hgetf⟩ := of_decide_eq_true hsome
  exact ⟨account, toOption_eq_some.mp hload, toOption_eq_some.mp hget, toOption_eq_some.mp hgetf⟩

/-- To itself the source sends all of it: nothing is withheld, although the proofs are made for
a fee of one. -/
theorem self_transfer_pays_no_fee :
    ∃ d t, transferWithFeeSplitProofData (.honest plainCurve)
        (plainCurve.bases.encrypt plainKeypair.pubkey
            ((150 : UInt64).toNat : ZMod ristrettoOrder) 7)
        (some 150) 100 plainKeypair plainKeypair.pubkey none 3 100 5 ⟨1, 2, 3, 4, 5, 6⟩ = .ok d ∧
      TransferWithFeeProofContext.verifyAndExtract (.modular ristrettoOrder) d.contexts 100 5 =
        .ok t ∧
      (⟨0, 5, 100⟩ : TransferFee).calculateFee 100 = some 1 ∧
      plainCurve.FeeCredits plainKeypair.pubkey 3 t true 100 0 ∧
      ¬ plainCurve.FeeCredits plainKeypair.pubkey 3 t true (100 - 1) 1 := by
  obtain ⟨d, hd⟩ := Option.isSome_iff_exists.mp (show (toOption (transferWithFeeSplitProofData
    (.honest plainCurve) (plainCurve.bases.encrypt plainKeypair.pubkey
      ((150 : UInt64).toNat : ZMod ristrettoOrder) 7) (some 150) 100 plainKeypair
    plainKeypair.pubkey none 3 100 5 ⟨1, 2, 3, 4, 5, 6⟩)).isSome = true from rfl)
  rw [toOption_eq_some] at hd
  obtain ⟨t, fee, ht⟩ := transferWithFeeAccepted_of_ok (ProofSystem.honest_complete plainCurve)
    (plainKeypair_decrypts ((150 : UInt64).toNat : ZMod ristrettoOrder) 7) (by decide)
    (by decide) hd
  refine ⟨d, t, hd, ht.extracted, by decide +kernel, ht.itself, fun h => ?_⟩
  obtain ⟨account, hload, hget, hgetf⟩ := selfLedger_account
  have hzero : plainCurve.Pending 1
      (configuredAccount (.ofBool true) (plainCurve.compress plainKeypair.pubkey) 0 10) 0 :=
    ⟨0, 0, Curve.hides_zeroed 1, Curve.hides_zeroed 1, by ring⟩
  have hall := fun net fee (h : plainCurve.FeeCredits plainKeypair.pubkey 3 t true net fee) =>
    h .plain selfLedger ⟨2, false⟩ ⟨1, false⟩ account _ _ 1 1 0 0 selfLedger_reachable.wf hload hget
      hgetf plainKeypair.pairs plainKeypair.pairs rfl rfl hzero (Curve.hides_zeroed 1)
  obtain ⟨σ', account', lo, hi, _, hrun, hload', hget', _, hpending, _⟩ := hall 100 0 ht.itself
  obtain ⟨σ'', account'', lo', hi', _, hrun', hload'', hget'', _, hpending', _⟩ :=
      hall (100 - 1) 1 h
  obtain rfl := Except.ok.inj (hrun.symm.trans hrun')
  obtain rfl := Except.ok.inj (hload'.symm.trans hload'')
  have hsame := Except.ok.inj (hget'.symm.trans hget'')
  simp only [ConfidentialTransferAccount.mk.injEq, true_and, and_true] at hsame
  obtain ⟨rfl, rfl⟩ := hsame
  exact absurd (hpending.unique hpending') (by decide +kernel)

end SolanaEasy.Token
