import SolanaEasy.Token.Runtime

/-!
# Ciphertext arithmetic

`confidential/ciphertext-arithmetic/src/lib.rs`: a ciphertext is two points, a
Pedersen commitment and a decrypt handle, and every operation acts on both. The
point operations are those of the runtime.
-/

namespace SolanaEasy.Token

/-- The Ristretto generator `G`. -/
def ristrettoG : PodRistrettoPoint :=
  0x762d8de04559a6b68ddd82a56a0be3585f5100c561a984a8714ebc6a0aaef2e2

/-- `u64_to_scalar`, `u16_to_scalar`. -/
def natToScalar (n : Nat) : PodScalar := BitVec.ofNat 256 n

/-- `1_u64 << SHIFT_BITS`, as a scalar. -/
def shiftScalar : PodScalar := natToScalar 65536

namespace CiphertextArithmetic

variable (rt : Runtime)

/-- `add`. -/
def add (left right : PodElGamalCiphertext) : Option PodElGamalCiphertext := do
  let commitment ← rt.addRistretto left.commitment right.commitment
  let handle ← rt.addRistretto left.handle right.handle
  return ⟨commitment, handle⟩

/-- `subtract`. -/
def subtract (left right : PodElGamalCiphertext) : Option PodElGamalCiphertext := do
  let commitment ← rt.subtractRistretto left.commitment right.commitment
  let handle ← rt.subtractRistretto left.handle right.handle
  return ⟨commitment, handle⟩

/-- `multiply`. -/
def multiply (scalar : PodScalar) (ciphertext : PodElGamalCiphertext) :
    Option PodElGamalCiphertext := do
  let commitment ← rt.multiplyRistretto scalar ciphertext.commitment
  let handle ← rt.multiplyRistretto scalar ciphertext.handle
  return ⟨commitment, handle⟩

/-- `add_with_lo_hi`: `left + (lo + 2¹⁶ · hi)`. -/
def addWithLoHi (left rightLo rightHi : PodElGamalCiphertext) : Option PodElGamalCiphertext := do
  let shifted ← multiply rt shiftScalar rightHi
  let combined ← add rt rightLo shifted
  add rt left combined

/-- `subtract_with_lo_hi`: `left - (lo + 2¹⁶ · hi)`. -/
def subtractWithLoHi (left rightLo rightHi : PodElGamalCiphertext) :
    Option PodElGamalCiphertext := do
  let shifted ← multiply rt shiftScalar rightHi
  let combined ← add rt rightLo shifted
  subtract rt left combined

/-- `add_to`. -/
def addTo (ciphertext : PodElGamalCiphertext) (amount : Nat) : Option PodElGamalCiphertext := do
  let amountPoint ← rt.multiplyRistretto (natToScalar amount) ristrettoG
  let commitment ← rt.addRistretto ciphertext.commitment amountPoint
  return ⟨commitment, ciphertext.handle⟩

/-- `subtract_from`. -/
def subtractFrom (ciphertext : PodElGamalCiphertext) (amount : Nat) :
    Option PodElGamalCiphertext := do
  let amountPoint ← rt.multiplyRistretto (natToScalar amount) ristrettoG
  let commitment ← rt.subtractRistretto ciphertext.commitment amountPoint
  return ⟨commitment, ciphertext.handle⟩

end CiphertextArithmetic

end SolanaEasy.Token
