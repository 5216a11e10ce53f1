import Mathlib.Algebra.Module.Basic
import Mathlib.Tactic.Module

/-!
# ElGamal — twisted encryption over a module

Pedersen commitments to two bases, and ciphertexts that add a handle for the key: linear
in the plaintext and in the opening, so that what a ciphertext decrypts to follows every
operation on it. One commitment can carry handles for several keys.
-/

namespace SolanaEasy.ElGamal

variable {F P : Type} [CommRing F] [AddCommGroup P] [Module F P]

/-! The handles of two or three keys are numbered by numerals. -/

instance neZero_two : NeZero 2 := ⟨two_ne_zero⟩

instance neZero_three : NeZero 3 := ⟨three_ne_zero⟩

/-- What commitments are formed from: the base of the plaintext and that of the opening. -/
structure Bases (P : Type) where
  G : P
  H : P

structure Ciphertext (P : Type) where
  commitment : P
  handle : P
deriving DecidableEq

/-- One commitment with a handle for each of `n` keys. -/
structure GroupedCiphertext (n : ℕ) (P : Type) where
  commitment : P
  handles : Fin n → P

namespace Ciphertext

instance : Add (Ciphertext P) := ⟨fun a b => ⟨a.commitment + b.commitment, a.handle + b.handle⟩⟩

instance : Sub (Ciphertext P) := ⟨fun a b => ⟨a.commitment - b.commitment, a.handle - b.handle⟩⟩

instance : SMul F (Ciphertext P) := ⟨fun k a => ⟨k • a.commitment, k • a.handle⟩⟩

end Ciphertext

/-- The ciphertext for the `i`-th key. -/
def GroupedCiphertext.toElgamalCiphertext {n : ℕ} (c : GroupedCiphertext n P) (i : Fin n) :
    Ciphertext P := ⟨c.commitment, c.handles i⟩

namespace Bases

variable (B : Bases P)

/-! ## Commitments -/

/-- The commitment to `x` that `r` opens. -/
def commit (x r : F) : P := x • B.G + r • B.H

theorem commit_add (x y r s : F) : B.commit x r + B.commit y s = B.commit (x + y) (r + s) := by
  simp only [commit]
  module

theorem commit_sub (x y r s : F) : B.commit x r - B.commit y s = B.commit (x - y) (r - s) := by
  simp only [commit]
  module

theorem smul_commit (k x r : F) : k • B.commit x r = B.commit (k * x) (k * r) := by
  simp only [commit]
  module

theorem commit_zero_right (x : F) : B.commit x 0 = x • B.G := by
  rw [commit, zero_smul, add_zero]

/-! ## Encryption -/

/-- `s` is the secret of the key `p`. -/
def Pairs (s : F) (p : P) : Prop := s • p = B.H

def encrypt (key : P) (x r : F) : Ciphertext P := ⟨B.commit x r, r • key⟩

/-- The encryption of a number everyone knows, without randomness. -/
def encode (x : F) : Ciphertext P := ⟨x • B.G, 0⟩

def encryptWith {n : ℕ} (keys : Fin n → P) (x r : F) : GroupedCiphertext n P :=
  ⟨B.commit x r, fun i => r • keys i⟩

@[simp] theorem encryptWith_commitment {n : ℕ} (keys : Fin n → P) (x r : F) :
    (B.encryptWith keys x r).commitment = B.commit x r := rfl

@[simp] theorem toElgamalCiphertext_encryptWith {n : ℕ} (keys : Fin n → P) (x r : F) (i : Fin n) :
    (B.encryptWith keys x r).toElgamalCiphertext i = B.encrypt (keys i) x r := rfl

/-! ## Decryption -/

/-- Under the secret `s` the ciphertext hides `x`. -/
def Decrypts (s : F) (c : Ciphertext P) (x : F) : Prop :=
  c.commitment - s • c.handle = x • B.G

variable {B} {s x y : F} {a b : Ciphertext P} {key : P}

theorem decrypts_encrypt (h : B.Pairs s key) (x r : F) : B.Decrypts s (B.encrypt key x r) x := by
  show x • B.G + r • B.H - s • r • key = x • B.G
  have hkey : s • r • key = r • B.H := by rw [smul_comm, h]
  rw [hkey, add_sub_cancel_right]

theorem decrypts_encode (s x : F) : B.Decrypts s (B.encode x) x := by
  show x • B.G - s • (0 : P) = x • B.G
  rw [smul_zero, sub_zero]

theorem Decrypts.add (ha : B.Decrypts s a x) (hb : B.Decrypts s b y) :
    B.Decrypts s (a + b) (x + y) := by
  show a.commitment + b.commitment - s • (a.handle + b.handle) = (x + y) • B.G
  rw [add_smul, ← ha, ← hb]
  module

theorem Decrypts.sub (ha : B.Decrypts s a x) (hb : B.Decrypts s b y) :
    B.Decrypts s (a - b) (x - y) := by
  show a.commitment - b.commitment - s • (a.handle - b.handle) = (x - y) • B.G
  rw [sub_smul, ← ha, ← hb]
  module

theorem Decrypts.smul (k : F) (ha : B.Decrypts s a x) : B.Decrypts s (k • a) (k * x) := by
  show k • a.commitment - s • k • a.handle = (k * x) • B.G
  rw [mul_smul, ← ha]
  module

/-- A secret reads at most one plaintext, where the base tells scalars apart. -/
theorem Decrypts.unique (hG : Function.Injective fun x : F => x • B.G) (hx : B.Decrypts s a x)
    (hy : B.Decrypts s a y) : x = y :=
  hG (hx.symm.trans hy)

end Bases

/-- A secret with its key. -/
structure Keypair (F : Type) [CommRing F] [Module F P] (B : Bases P) where
  secret : F
  pubkey : P
  pairs : B.Pairs secret pubkey

end SolanaEasy.ElGamal
