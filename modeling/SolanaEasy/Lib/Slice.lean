import SolanaEasy.Lib.Pod

/-!
# Slices — fields at fixed offsets

Ranges of a byte string, and big-endian integers. A message that is a concatenation of
fields gives each field back at the offsets where it was put.
-/

namespace SolanaEasy

section Slice

variable {α : Type}

/-- `message[i..j]`, if the range is within the message. -/
def slice? (message : List α) (i j : ℕ) : Option (List α) :=
  if i ≤ j ∧ j ≤ message.length then some ((message.take j).drop i) else none

/-- The field between `a` and `c`. -/
theorem slice?_append {a b c : List α} {i j : ℕ} (hi : i = a.length) (hj : j = i + b.length) :
    slice? (a ++ (b ++ c)) i j = some b := by
  have hfits : i ≤ j ∧ j ≤ (a ++ (b ++ c)).length := by
    simp only [List.length_append]
    omega
  have htake : (a ++ (b ++ c)).take j = a ++ b := by
    rw [← List.append_assoc, List.take_left']
    simp only [List.length_append]
    omega
  rw [slice?, if_pos hfits, htake, hi, List.drop_left]

end Slice

/-! ## Big-endian naturals -/

/-- The `w` low bytes of `n`, most significant first. -/
def beBytes (w n : ℕ) : Bytes := (leBytes w n).reverse

/-- The number whose big-endian bytes are given. -/
def beNat (b : Bytes) : ℕ := leNat b.reverse

@[simp] theorem length_beBytes (w n : ℕ) : (beBytes w n).length = w := by
  rw [beBytes, List.length_reverse, length_leBytes]

theorem beNat_beBytes {w n : ℕ} (h : n < 256 ^ w) : beNat (beBytes w n) = n := by
  rw [beNat, beBytes, List.reverse_reverse, leNat_leBytes h]

end SolanaEasy
