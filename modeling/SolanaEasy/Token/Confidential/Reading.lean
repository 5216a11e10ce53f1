import SolanaEasy.Token.Confidential.Proof
import Mathlib.Data.ZMod.Basic

/-!
# Readings — ciphertexts as the plaintexts they hide

The program never decrypts. To say what its arithmetic does to balances, a
`Reading` assigns to every commitment and, under every key, to every ciphertext a
residue modulo `l`, in a way the Ristretto system calls respect. What the
zero-knowledge programs have verified enters as `Reading.Sound`: every context
that an instruction can be shown is true of the reading.
-/

namespace SolanaEasy.Token

open CiphertextArithmetic

structure Reading (l : ℕ) (rt : Runtime) where
  /-- The opening of a commitment. -/
  val : PodPedersenCommitment → ZMod l
  /-- The plaintext of a ciphertext under a key. -/
  pt : PodElGamalPubkey → PodElGamalCiphertext → ZMod l
  val_add : ∀ {p q r}, rt.addRistretto p q = some r → val r = val p + val q
  val_sub : ∀ {p q r}, rt.subtractRistretto p q = some r → val r = val p - val q
  val_mul : ∀ {n p r}, n < 2 ^ 64 → rt.multiplyRistretto (natToScalar n) p = some r →
    val r = n * val p
  val_G : val ristrettoG = 1
  pt_zeroed : ∀ k, pt k .zeroed = 0
  pt_add : ∀ {a b c} k, add rt a b = some c → pt k c = pt k a + pt k b
  pt_sub : ∀ {a b c} k, subtract rt a b = some c → pt k c = pt k a - pt k b
  pt_mul : ∀ {n a c} k, n < 2 ^ 64 → multiply rt (natToScalar n) a = some c → pt k c = n * pt k a
  pt_addTo : ∀ {a n c} k, n < 2 ^ 64 → addTo rt a n = some c → pt k c = pt k a + n
  pt_subtractFrom : ∀ {a n c} k, n < 2 ^ 64 → subtractFrom rt a n = some c → pt k c = pt k a - n

/-- A context that `verify_and_extract_context` hands out, at some offset and for
some list of accounts. -/
def Attested {U : Type} [Pod U] (proofType : ProofType) (ctx : Context) (σ : Ledger) (c : U) :
    Prop :=
  ∃ offset sysvarAccount accounts rest,
    verifyAndExtractContext U proofType ctx σ offset sysvarAccount accounts = .ok (c, rest)

/-! ## Soundness -/

namespace Reading

variable {l : ℕ} {rt : Runtime} (R : Reading l rt)

/-- Each commitment of a range proof opens to a number of its bit length. -/
def InRange (c : BatchedRangeProofContext) : Prop :=
  ∀ p b, (p, b) ∈ c.commitments.toList.zip c.bitLengths.toList →
    ∃ n : ℕ, n < 2 ^ b.toNat ∧ R.val p = n

/-- Under each of its keys a grouped ciphertext hides what its commitment opens to. -/
def Valid2 (first second : PodElGamalPubkey) (c : PodGroupedElGamalCiphertext2Handles) : Prop :=
  R.pt first ⟨c.commitment, c.first⟩ = R.val c.commitment ∧
    R.pt second ⟨c.commitment, c.second⟩ = R.val c.commitment

def Valid3 (first second third : PodElGamalPubkey) (c : PodGroupedElGamalCiphertext3Handles) :
    Prop :=
  R.pt first ⟨c.commitment, c.first⟩ = R.val c.commitment ∧
    R.pt second ⟨c.commitment, c.second⟩ = R.val c.commitment ∧
    R.pt third ⟨c.commitment, c.third⟩ = R.val c.commitment

/-- What is proved is true. Percentage-with-cap proofs decide how large a fee is,
not whether balances add up; nothing is assumed of them. -/
structure Sound (ctx : Context) (σ : Ledger) : Prop where
  zero : ∀ c : ZeroCiphertextProofContext, Attested .zeroCiphertext ctx σ c →
    R.pt c.pubkey c.ciphertext = 0
  ciphertexts : ∀ c : CiphertextCiphertextEqualityProofContext,
    Attested .ciphertextCiphertextEquality ctx σ c →
    R.pt c.firstPubkey c.firstCiphertext = R.pt c.secondPubkey c.secondCiphertext
  equality : ∀ c : CiphertextCommitmentEqualityProofContext,
    Attested .ciphertextCommitmentEquality ctx σ c →
    R.pt c.pubkey c.ciphertext = R.val c.commitment
  range64 : ∀ c, Attested .batchedRangeProofU64 ctx σ c → R.InRange c
  range128 : ∀ c, Attested .batchedRangeProofU128 ctx σ c → R.InRange c
  range256 : ∀ c, Attested .batchedRangeProofU256 ctx σ c → R.InRange c
  validity2 : ∀ c : BatchedGroupedCiphertext2HandlesValidityProofContext,
    Attested .batchedGroupedCiphertext2HandlesValidity ctx σ c →
    R.Valid2 c.firstPubkey c.secondPubkey c.groupedCiphertextLo ∧
      R.Valid2 c.firstPubkey c.secondPubkey c.groupedCiphertextHi
  validity3 : ∀ c : BatchedGroupedCiphertext3HandlesValidityProofContext,
    Attested .batchedGroupedCiphertext3HandlesValidity ctx σ c →
    R.Valid3 c.firstPubkey c.secondPubkey c.thirdPubkey c.groupedCiphertextLo ∧
      R.Valid3 c.firstPubkey c.secondPubkey c.thirdPubkey c.groupedCiphertextHi

end Reading

/-! ## The trivial reading

Modulo one nothing is hidden, and everything that is proved is true. What does not
depend on hidden amounts can be read off here.
-/

def Reading.trivial (rt : Runtime) : Reading 1 rt where
  val _ := 0
  pt _ _ := 0
  val_add _ := Subsingleton.elim _ _
  val_sub _ := Subsingleton.elim _ _
  val_mul _ _ := Subsingleton.elim _ _
  val_G := Subsingleton.elim _ _
  pt_zeroed _ := rfl
  pt_add _ _ := Subsingleton.elim _ _
  pt_sub _ _ := Subsingleton.elim _ _
  pt_mul _ _ _ := Subsingleton.elim _ _
  pt_addTo _ _ _ := Subsingleton.elim _ _
  pt_subtractFrom _ _ _ := Subsingleton.elim _ _

theorem Reading.trivial_sound (rt : Runtime) (ctx : Context) (σ : Ledger) :
    (Reading.trivial rt).Sound ctx σ where
  zero _ _ := rfl
  ciphertexts _ _ := rfl
  equality _ _ := rfl
  range64 _ _ _ _ _ := ⟨0, Nat.two_pow_pos _, Subsingleton.elim _ _⟩
  range128 _ _ _ _ _ := ⟨0, Nat.two_pow_pos _, Subsingleton.elim _ _⟩
  range256 _ _ _ _ _ := ⟨0, Nat.two_pow_pos _, Subsingleton.elim _ _⟩
  validity2 _ _ := ⟨⟨rfl, rfl⟩, rfl, rfl⟩
  validity3 _ _ := ⟨⟨rfl, rfl, rfl⟩, rfl, rfl, rfl⟩

/-! ## Residues as points

The least curve on which a reading exists: a point is a residue modulo `n`, and
the generator, whose bytes the source fixes, trades places with one. -/

/-- The residue a point stands for. -/
def residue (n : ℕ) (p : PodRistrettoPoint) : ℕ :=
  (if p = ristrettoG then 1 else if p = 1 then ristrettoG.toNat else p.toNat) % n

/-- The point of a residue. -/
def pointOf (n r : ℕ) : PodRistrettoPoint :=
  let r := r % n
  if r = 1 then ristrettoG
  else if r = ristrettoG.toNat then 1
  else BitVec.ofNat 256 r

theorem one_ne_ristrettoG : (1 : PodRistrettoPoint) ≠ ristrettoG := by decide

theorem residue_lt {n : ℕ} (hpos : 0 < n) (p : PodRistrettoPoint) : residue n p < n :=
  Nat.mod_lt _ hpos

theorem residue_pointOf {n : ℕ} (hpos : 0 < n) (hn : n ≤ 2 ^ 256) (r : ℕ) :
    residue n (pointOf n r) = r % n := by
  have hlt : r % n < n := Nat.mod_lt r hpos
  have hmod : r % n % n = r % n := Nat.mod_mod r n
  by_cases h₁ : r % n = 1
  · have hp : pointOf n r = ristrettoG := if_pos h₁
    rw [hp, residue, if_pos rfl, ← h₁, hmod]
  · by_cases h₂ : r % n = ristrettoG.toNat
    · have hp : pointOf n r = 1 := (if_neg h₁).trans (if_pos h₂)
      rw [hp, residue, if_neg one_ne_ristrettoG, if_pos rfl, ← h₂, hmod]
    · have hp : pointOf n r = BitVec.ofNat 256 (r % n) := (if_neg h₁).trans (if_neg h₂)
      have hval : (BitVec.ofNat 256 (r % n)).toNat = r % n := by
        rw [BitVec.toNat_ofNat, Nat.mod_eq_of_lt (by omega)]
      have hG : BitVec.ofNat 256 (r % n) ≠ ristrettoG := by
        intro h
        exact h₂ (by rw [← h, hval])
      have hone : BitVec.ofNat 256 (r % n) ≠ 1 := by
        intro h
        exact h₁ (by rw [← hval, h]; rfl)
      rw [hp, residue, if_neg hG, if_neg hone, hval, hmod]

/-- The runtime of this curve, with a flat rent and no metadata. -/
def Runtime.modular (n : ℕ) : Runtime where
  minimumBalance _ := 1
  addRistretto p q := some (pointOf n (residue n p + residue n q))
  subtractRistretto p q := some (pointOf n (residue n p + (n - residue n q)))
  multiplyRistretto s p := some (pointOf n (s.toNat * residue n p))
  packTokenMetadata _ := []
  unpackTokenMetadata _ := none

section Modular

variable {n : ℕ} (hpos : 0 < n) (hn : n ≤ 2 ^ 256)
include hpos hn

theorem cast_residue_pointOf (r : ℕ) : ((residue n (pointOf n r) : ℕ) : ZMod n) = r := by
  rw [residue_pointOf hpos hn, ZMod.natCast_mod]

theorem cast_residue_add {p q r : PodRistrettoPoint}
    (h : (Runtime.modular n).addRistretto p q = some r) :
    ((residue n r : ℕ) : ZMod n) = residue n p + residue n q := by
  obtain rfl := Option.some.inj h
  rw [cast_residue_pointOf hpos hn, Nat.cast_add]

theorem cast_residue_sub {p q r : PodRistrettoPoint}
    (h : (Runtime.modular n).subtractRistretto p q = some r) :
    ((residue n r : ℕ) : ZMod n) = residue n p - residue n q := by
  obtain rfl := Option.some.inj h
  rw [cast_residue_pointOf hpos hn, Nat.cast_add, Nat.cast_sub (residue_lt hpos q).le,
    ZMod.natCast_self, zero_sub, sub_eq_add_neg]

theorem cast_residue_mul {m : ℕ} {p r : PodRistrettoPoint} (hm : m < 2 ^ 64)
    (h : (Runtime.modular n).multiplyRistretto (natToScalar m) p = some r) :
    ((residue n r : ℕ) : ZMod n) = m * residue n p := by
  obtain rfl := Option.some.inj h
  have hval : (natToScalar m).toNat = m := by
    rw [natToScalar, BitVec.toNat_ofNat, Nat.mod_eq_of_lt (by omega)]
  rw [cast_residue_pointOf hpos hn, Nat.cast_mul, hval]

end Modular

theorem cast_residue_G (n : ℕ) : ((residue n ristrettoG : ℕ) : ZMod n) = 1 := by
  rw [residue, if_pos rfl, ZMod.natCast_mod, Nat.cast_one]

/-- On this curve a ciphertext hides the residue of its commitment, under every key. -/
def Reading.modular (n : ℕ) (hpos : 0 < n) (hn : n ≤ 2 ^ 256) : Reading n (Runtime.modular n) where
  val p := residue n p
  pt _ c := residue n c.commitment
  val_add := cast_residue_add hpos hn
  val_sub := cast_residue_sub hpos hn
  val_mul := cast_residue_mul hpos hn
  val_G := cast_residue_G n
  pt_zeroed _ := by
    have hzero : residue n 0 = 0 := by
      rw [residue, if_neg (by decide), if_neg (by decide)]
      exact Nat.zero_mod n
    rw [show PodElGamalCiphertext.zeroed.commitment = 0 from rfl, hzero, Nat.cast_zero]
  pt_add _ h := by
    simp only [add, Option.bind_eq_bind, Option.bind_eq_some_iff, Option.pure_def,
      Option.some.injEq] at h
    obtain ⟨_, hc, _, _, rfl⟩ := h
    exact cast_residue_add hpos hn hc
  pt_sub _ h := by
    simp only [subtract, Option.bind_eq_bind, Option.bind_eq_some_iff, Option.pure_def,
      Option.some.injEq] at h
    obtain ⟨_, hc, _, _, rfl⟩ := h
    exact cast_residue_sub hpos hn hc
  pt_mul _ hm h := by
    simp only [multiply, Option.bind_eq_bind, Option.bind_eq_some_iff, Option.pure_def,
      Option.some.injEq] at h
    obtain ⟨_, hc, _, _, rfl⟩ := h
    exact cast_residue_mul hpos hn hm hc
  pt_addTo _ hm h := by
    simp only [addTo, Option.bind_eq_bind, Option.bind_eq_some_iff, Option.pure_def,
      Option.some.injEq] at h
    obtain ⟨_, hp, _, hc, rfl⟩ := h
    rw [cast_residue_add hpos hn hc, cast_residue_mul hpos hn hm hp, cast_residue_G, mul_one]
  pt_subtractFrom _ hm h := by
    simp only [subtractFrom, Option.bind_eq_bind, Option.bind_eq_some_iff, Option.pure_def,
      Option.some.injEq] at h
    obtain ⟨_, hp, _, hc, rfl⟩ := h
    rw [cast_residue_sub hpos hn hc, cast_residue_mul hpos hn hm hp, cast_residue_G, mul_one]

end SolanaEasy.Token
