import SolanaEasy.Token.Confidential.Curve

/-!
# Account information — what the holder of a key reads

`account_info.rs` of the confidential transfer extension and of confidential minting and
burning. The keys are those of `solana_zk_sdk`, which is not part of the repository: what
it decrypts is an argument.
-/

namespace SolanaEasy.Token

open ElGamal

section Keys

variable {rt : Runtime} {F P : Type} [CommRing F] [AddCommGroup P] [Module F P]

/-- `AeKey`; the nonce is drawn at random. -/
structure AeKey where
  encrypt : Bytes → UInt64 → PodAeCiphertext
  decrypt : PodAeCiphertext → Option UInt64
  decrypt_encrypt : ∀ nonce x, decrypt (encrypt nonce x) = some x

/-- `ElGamalCiphertext::try_from` and `ElGamalSecretKey::decrypt_u32`: a search for the
plaintext among the numbers of 32 bits. -/
structure Curve.Decryption (C : Curve rt F P) where
  tryFrom : PodElGamalCiphertext → Option (Ciphertext P)
  decryptU32 : F → Ciphertext P → Option UInt64
  tryFrom_eq_some : ∀ {p c}, tryFrom p = some c ↔ p = C.pod c
  decryptU32_eq_some : ∀ {s c x},
    decryptU32 s c = some x ↔ x.toNat < 2 ^ 32 ∧ C.bases.Decrypts s c (x.toNat : F)

/-- What the system calls return are encodings of points. -/
structure Curve.Encodes (C : Curve rt F P) : Prop where
  add : ∀ {p q r}, rt.addRistretto p q = some r → r ∈ Set.range C.compress
  subtract : ∀ {p q r}, rt.subtractRistretto p q = some r → r ∈ Set.range C.compress

variable {C : Curve rt F P}

/-! ## Pending balances -/

structure ApplyPendingBalanceAccountInfo where
  pendingBalanceCreditCounter : UInt64
  pendingBalanceLo : PodElGamalCiphertext
  pendingBalanceHi : PodElGamalCiphertext
  decryptableAvailableBalance : PodAeCiphertext

namespace ApplyPendingBalanceAccountInfo

def new (account : ConfidentialTransferAccount) : ApplyPendingBalanceAccountInfo where
  pendingBalanceCreditCounter := account.pendingBalanceCreditCounter
  pendingBalanceLo := account.pendingBalanceLo
  pendingBalanceHi := account.pendingBalanceHi
  decryptableAvailableBalance := account.decryptableAvailableBalance

variable (i : ApplyPendingBalanceAccountInfo) (D : C.Decryption) (secret : F) (aes : AeKey)

def decryptedPendingBalanceLo : Result UInt64 := do
  let pendingBalanceLo ← okOr TokenError.malformedCiphertext (D.tryFrom i.pendingBalanceLo)
  okOr TokenError.accountDecryption (D.decryptU32 secret pendingBalanceLo)

def decryptedPendingBalanceHi : Result UInt64 := do
  let pendingBalanceHi ← okOr TokenError.malformedCiphertext (D.tryFrom i.pendingBalanceHi)
  okOr TokenError.accountDecryption (D.decryptU32 secret pendingBalanceHi)

def decryptedAvailableBalance : Result UInt64 :=
  okOr TokenError.accountDecryption (aes.decrypt i.decryptableAvailableBalance)

/-- `combine_balances`; a shift by 16 is never refused. -/
def combineBalances (balanceLo balanceHi : UInt64) : Option UInt64 :=
  checkedAdd (balanceHi <<< 16) balanceLo

def getPendingBalance : Result UInt64 := do
  let decryptedLo ← i.decryptedPendingBalanceLo D secret
  let decryptedHi ← i.decryptedPendingBalanceHi D secret
  okOr TokenError.accountDecryption (combineBalances decryptedLo decryptedHi)

def newDecryptableAvailableBalance (nonce : Bytes) : Result PodAeCiphertext := do
  let decryptedPendingBalanceLo ← i.decryptedPendingBalanceLo D secret
  let decryptedPendingBalanceHi ← i.decryptedPendingBalanceHi D secret
  let pendingBalance ← okOr TokenError.accountDecryption
    (combineBalances decryptedPendingBalanceLo decryptedPendingBalanceHi)
  let currentAvailableBalance ← i.decryptedAvailableBalance aes
  -- `unwrap`: the total balance is taken to be a word
  let newDecryptedAvailableBalance ←
    okOr RuntimeFault.panic (checkedAdd currentAvailableBalance pendingBalance)
  return aes.encrypt nonce newDecryptedAvailableBalance

end ApplyPendingBalanceAccountInfo

/-! ## Supplies -/

structure SupplyAccountInfo where
  currentSupply : PodElGamalCiphertext
  decryptableSupply : PodAeCiphertext
  supplyElgamalPubkey : PodElGamalPubkey

namespace SupplyAccountInfo

def new (extension : ConfidentialMintBurn) : SupplyAccountInfo where
  currentSupply := extension.confidentialSupply
  decryptableSupply := extension.decryptableSupply
  supplyElgamalPubkey := extension.supplyElgamalPubkey

variable (i : SupplyAccountInfo) (D : C.Decryption) (aes : AeKey)
  (elgamalKeypair : Keypair F C.bases) (opening : F)

/-- `decrypted_current_supply`; `opening` is drawn for the encryption of the decryptable
supply. -/
def decryptedCurrentSupply : Result UInt64 := do
  let currentDecryptableSupply ←
    okOr TokenError.accountDecryption (aes.decrypt i.decryptableSupply)
  let decryptableSupplyCiphertext :=
    C.bases.encrypt elgamalKeypair.pubkey (currentDecryptableSupply.toNat : F) opening
  let currentSupply ← okOr TokenError.malformedCiphertext (D.tryFrom i.currentSupply)
  let supplyDeltaCiphertext := decryptableSupplyCiphertext - currentSupply
  let decryptableToCurrentDiff ← okOr TokenError.accountDecryption
    (D.decryptU32 elgamalKeypair.secret supplyDeltaCiphertext)
  okOr TokenError.overflow (checkedSub currentDecryptableSupply decryptableToCurrentDiff)

/-- `new_decryptable_supply`. -/
def newDecryptableSupply (mintAmount : UInt64) (nonce : Bytes) : Result PodAeCiphertext := do
  let currentDecryptedSupply ← i.decryptedCurrentSupply D aes elgamalKeypair opening
  let newDecryptedAvailableBalance ←
    okOr TokenError.overflow (checkedAdd currentDecryptedSupply mintAmount)
  return aes.encrypt nonce newDecryptedAvailableBalance

end SupplyAccountInfo

/-! ## Encoded ciphertexts -/

/-- The points are encodings. -/
def Curve.Encoded (C : Curve rt F P) (p : PodElGamalCiphertext) : Prop := ∃ c, p = C.pod c

theorem Curve.encoded_of_range {p q : PodRistrettoPoint} (hp : p ∈ Set.range C.compress)
    (hq : q ∈ Set.range C.compress) : C.Encoded ⟨p, q⟩ := by
  obtain ⟨x, rfl⟩ := hp
  obtain ⟨y, rfl⟩ := hq
  exact ⟨⟨x, y⟩, rfl⟩

theorem Curve.encoded_zeroed (C : Curve rt F P) : C.Encoded .zeroed := by
  have hzero : (0 : PodRistrettoPoint) ∈ Set.range C.compress := ⟨0, C.compress_zero⟩
  exact encoded_of_range hzero hzero

theorem Curve.Encoded.handle {p : PodElGamalCiphertext} (h : C.Encoded p) :
    p.handle ∈ Set.range C.compress := by
  obtain ⟨c, rfl⟩ := h
  exact ⟨c.handle, rfl⟩

open CiphertextArithmetic

theorem Curve.Encodes.encoded_add (hC : C.Encodes) {a b c : PodElGamalCiphertext}
    (h : CiphertextArithmetic.add rt a b = some c) : C.Encoded c := by
  simp only [CiphertextArithmetic.add, Option.bind_eq_bind, Option.bind_eq_some_iff,
    Option.pure_def, Option.some.injEq] at h
  obtain ⟨p, hp, q, hq, rfl⟩ := h
  exact encoded_of_range (hC.add hp) (hC.add hq)

theorem Curve.Encodes.encoded_subtract (hC : C.Encodes) {a b c : PodElGamalCiphertext}
    (h : CiphertextArithmetic.subtract rt a b = some c) : C.Encoded c := by
  simp only [CiphertextArithmetic.subtract, Option.bind_eq_bind, Option.bind_eq_some_iff,
    Option.pure_def, Option.some.injEq] at h
  obtain ⟨p, hp, q, hq, rfl⟩ := h
  exact encoded_of_range (hC.subtract hp) (hC.subtract hq)

theorem Curve.Encodes.encoded_addWithLoHi (hC : C.Encodes) {a lo hi c : PodElGamalCiphertext}
    (h : addWithLoHi rt a lo hi = some c) : C.Encoded c := by
  simp only [addWithLoHi, Option.bind_eq_bind, Option.bind_eq_some_iff] at h
  obtain ⟨_, _, _, _, h⟩ := h
  exact hC.encoded_add h

theorem Curve.Encodes.encoded_addTo (hC : C.Encodes) {a c : PodElGamalCiphertext} {n : ℕ}
    (ha : C.Encoded a) (h : addTo rt a n = some c) : C.Encoded c := by
  simp only [addTo, Option.bind_eq_bind, Option.bind_eq_some_iff, Option.pure_def,
    Option.some.injEq] at h
  obtain ⟨_, _, q, hq, rfl⟩ := h
  exact encoded_of_range (hC.add hq) ha.handle

theorem Curve.Decryption.tryFrom_pod (D : C.Decryption) (c : Ciphertext P) :
    D.tryFrom (C.pod c) = some c := D.tryFrom_eq_some.mpr rfl

end Keys

/-! ## Residues -/

section Residues

variable {l : ℕ} {rt : Runtime} {P : Type} [AddCommGroup P] [Module (ZMod l) P]
  {C : Curve rt (ZMod l) P}

/-- What the reading finds under a key is what its secret decrypts. -/
def Curve.Reads (C : Curve rt (ZMod l) P) (R : Reading l rt) (secret : ZMod l)
    (key : PodElGamalPubkey) : Prop :=
  ∀ c, C.bases.Decrypts secret c (R.pt key (C.pod c))

/-- Words that are congruent to a number of their size are that number. -/
theorem eq_of_cast_eq {z : ℤ} {x : ℕ} (hl : 2 ^ 64 ≤ l) (hx : x < 2 ^ 32) (hlo : -2 ^ 63 ≤ z)
    (hhi : z < 2 ^ 64) (h : ((x : ℕ) : ZMod l) = ((z : ℤ) : ZMod l)) : (x : ℤ) = z := by
  have hdvd : (l : ℤ) ∣ z - x := by
    rw [← ZMod.intCast_eq_intCast_iff_dvd_sub, Int.cast_natCast, h]
  have habs : |z - x| < l := by
    rw [abs_lt]
    constructor
    · omega
    · omega
  have hzero := Int.eq_zero_of_abs_lt_dvd hdvd habs
  omega

/-- The search finds the number that is hidden, if it is one of 32 bits, and nothing else. -/
theorem Curve.Decryption.decryptU32_eq_some_iff (D : C.Decryption) (hl : 2 ^ 64 ≤ l)
    {s : ZMod l} {c : Ciphertext P} {z : ℤ} {x : UInt64}
    (h : C.bases.Decrypts s c ((z : ℤ) : ZMod l)) (hlo : -2 ^ 63 ≤ z) (hhi : z < 2 ^ 64) :
    D.decryptU32 s c = some x ↔ x.toNat < 2 ^ 32 ∧ (x.toNat : ℤ) = z := by
  rw [D.decryptU32_eq_some]
  refine and_congr_right fun hx => ⟨fun hdecrypts => ?_, fun hz => ?_⟩
  · exact eq_of_cast_eq hl hx hlo hhi (hdecrypts.unique C.scalars_apart h)
  · rw [← hz, Int.cast_natCast] at h
    exact h

end Residues

/-! ## The curve of residues

Where openings weigh nothing, the secret zero reads every ciphertext, and so does everyone. -/

/-- A key that keeps nothing secret. -/
def AeKey.plain : AeKey where
  encrypt _ x := BitVec.ofNat 288 x.toNat
  decrypt c := if c.toNat < 2 ^ 64 then some (UInt64.ofNat c.toNat) else none
  decrypt_encrypt _ x := by
    have hword := x.toNat_lt
    have hval : (BitVec.ofNat 288 x.toNat).toNat = x.toNat := by
      rw [BitVec.toNat_ofNat, Nat.mod_eq_of_lt (by omega)]
    rw [hval, if_pos hword, UInt64.ofNat_toNat]

section Modular

variable {n : ℕ}

/-- The ciphertext that two points encode. -/
def residues (n : ℕ) (p : PodElGamalCiphertext) : Ciphertext (ZMod n) :=
  ⟨residue n p.commitment, residue n p.handle⟩

variable (hpos : 1 < n) (hn : n ≤ 2 ^ 256) (h : ZMod n)

theorem residues_pod (c : Ciphertext (ZMod n)) :
    residues n ((Curve.modular n hpos hn h).pod c) = c := by
  have : NeZero n := ⟨by omega⟩
  have hval : ∀ x : ZMod n, ((residue n (pointOf n x.val) : ℕ) : ZMod n) = x := fun x => by
    rw [cast_residue_pointOf (by omega) hn, ZMod.natCast_zmod_val]
  show (⟨_, _⟩ : Ciphertext (ZMod n)) = ⟨c.commitment, c.handle⟩
  rw [Ciphertext.mk.injEq]
  exact ⟨hval c.commitment, hval c.handle⟩

theorem search_eq_some (hsize : 2 ^ 32 ≤ n) {y : ZMod n} {x : UInt64} :
    (if y.val < 2 ^ 32 then some (UInt64.ofNat y.val) else none) = some x ↔
      x.toNat < 2 ^ 32 ∧ y = (x.toNat : ZMod n) := by
  have : NeZero n := ⟨by omega⟩
  constructor
  · intro hx
    split at hx
    · rename_i hlt
      have hword : (UInt64.ofNat y.val).toNat = y.val :=
        UInt64.toNat_ofNat_of_lt' (show y.val < 2 ^ 64 by omega)
      obtain rfl := Option.some.inj hx
      rw [hword]
      exact ⟨hlt, (ZMod.natCast_zmod_val y).symm⟩
    · cases hx
  · rintro ⟨hlt, rfl⟩
    rw [ZMod.val_natCast_of_lt (by omega), if_pos hlt, UInt64.ofNat_toNat]

/-- The search is a comparison, as the point of a number is the number. -/
def Curve.Decryption.modular (hsize : 2 ^ 32 ≤ n) : (Curve.modular n hpos hn h).Decryption where
  tryFrom p :=
    if p = (Curve.modular n hpos hn h).pod (residues n p) then some (residues n p) else none
  decryptU32 s c :=
    let y := c.commitment - s * c.handle
    if y.val < 2 ^ 32 then some (UInt64.ofNat y.val) else none
  tryFrom_eq_some := by
    intro p c
    constructor
    · intro hp
      split at hp
      · rename_i heq
        rwa [← Option.some.inj hp]
      · cases hp
    · rintro rfl
      rw [residues_pod, if_pos rfl]
  decryptU32_eq_some := by
    intro s c x
    refine (search_eq_some hsize).trans (and_congr_right fun _ => ?_)
    show _ ↔ c.commitment - s • c.handle = (x.toNat : ZMod n) • (1 : ZMod n)
    rw [smul_eq_mul, smul_eq_mul, mul_one]

theorem Curve.modular_encodes : (Curve.modular n hpos hn h).Encodes where
  add heq := by
    obtain rfl := Option.some.inj heq
    exact ⟨_, pointOf_val_cast _⟩
  subtract heq := by
    obtain rfl := Option.some.inj heq
    exact ⟨_, pointOf_val_cast _⟩

theorem Curve.modular_reads (key : PodElGamalPubkey) :
    (Curve.modular n hpos hn h).Reads (Reading.modular n (by omega) hn) 0 key := by
  have : NeZero n := ⟨by omega⟩
  intro c
  show c.commitment - (0 : ZMod n) • c.handle =
    ((residue n (pointOf n c.commitment.val) : ℕ) : ZMod n) • (1 : ZMod n)
  rw [cast_residue_pointOf (by omega) hn, ZMod.natCast_zmod_val, zero_smul, sub_zero, smul_eq_mul,
    mul_one]

end Modular

end SolanaEasy.Token
