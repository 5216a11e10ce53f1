import Mathlib.Data.List.DropRight
import Mathlib.Data.Rat.Cast.Order
import Mathlib.Tactic.FieldSimp
import Mathlib.Tactic.Ring

/-!
# Numeral — decimal numerals as text

Digits before and after a point, and the number they denote. Zeros at the end of the
fraction denote nothing, and a numeral without them is scaled to a whole number exactly by
the powers of ten that cover its places.
-/

namespace SolanaEasy

/-- ASCII digits and nothing else. -/
def Digits (t : List Char) : Prop := ∀ c ∈ t, c.isDigit = true

/-- The number that digits spell. -/
def number (t : List Char) : ℕ := Nat.ofDigitChars 10 t 0

/-- Without the zeros at the end. -/
def trimZeros (t : List Char) : List Char := t.rdropWhile (· == '0')

section Digits

variable {t u : List Char}

instance (t : List Char) : Decidable (Digits t) :=
  decidable_of_iff (t.all Char.isDigit = true) List.all_eq_true

theorem digits_nil : Digits [] := fun _ h => absurd h List.not_mem_nil

theorem digits_append : Digits (t ++ u) ↔ Digits t ∧ Digits u := List.forall_mem_append

theorem digits_cons {c : Char} : Digits (c :: t) ↔ c.isDigit = true ∧ Digits t :=
  List.forall_mem_cons

theorem digits_zeros (n : ℕ) : Digits (List.replicate n '0') := by
  intro c hc
  rw [List.eq_of_mem_replicate hc]
  rfl

theorem digits_toDigits (n : ℕ) : Digits (Nat.toDigits 10 n) :=
  fun _ hc => Nat.isDigit_of_mem_toDigits (by decide) (by decide) hc

theorem Digits.not_mem (h : Digits t) {c : Char} (hc : c.isDigit = false) : c ∉ t := by
  intro hmem
  rw [h c hmem] at hc
  cases hc

theorem number_nil : number [] = 0 := Nat.ofDigitChars_nil

theorem number_append (t u : List Char) :
    number (t ++ u) = number t * 10 ^ u.length + number u := by
  rw [number, Nat.ofDigitChars_append, Nat.ofDigitChars_eq_ofDigitChars_zero, Nat.mul_comm]
  rfl

theorem number_zeros (n : ℕ) : number (List.replicate n '0') = 0 := by
  rw [number, Nat.ofDigitChars_replicate_zero, Nat.mul_zero]

theorem number_append_zeros (t : List Char) (n : ℕ) :
    number (t ++ List.replicate n '0') = number t * 10 ^ n := by
  rw [number_append, List.length_replicate, number_zeros, Nat.add_zero]

theorem number_zeros_append (n : ℕ) (t : List Char) :
    number (List.replicate n '0' ++ t) = number t := by
  rw [number_append, number_zeros, Nat.zero_mul, Nat.zero_add]

theorem number_toDigits (n : ℕ) : number (Nat.toDigits 10 n) = n := Nat.ofDigitChars_ten_toDigits

/-- A last digit that divides by ten is a zero. -/
theorem eq_zero_of_dvd_number {c : Char} (hc : c.isDigit = true) (h : 10 ∣ number (t ++ [c])) :
    c = '0' := by
  rw [number_append] at h
  have hlast : number [c] = c.toNat - 48 := by
    rw [number, Nat.ofDigitChars_cons, Nat.ofDigitChars_nil, Nat.mul_zero, Nat.zero_add]
    rfl
  rw [List.length_singleton, pow_one, hlast] at h
  rw [Char.isDigit, Bool.and_eq_true, decide_eq_true_eq, decide_eq_true_eq] at hc
  have hrange : 48 ≤ c.toNat ∧ c.toNat ≤ 57 :=
    ⟨UInt32.le_iff_toNat_le.mp hc.1, UInt32.le_iff_toNat_le.mp hc.2⟩
  have heq : c.toNat = 48 := by omega
  exact Char.toNat_inj.mp heq

theorem exists_trimZeros (t : List Char) : ∃ n, t = trimZeros t ++ List.replicate n '0' := by
  refine ⟨(t.rtakeWhile (· == '0')).length, ?_⟩
  have hzeros : t.rtakeWhile (· == '0') =
      List.replicate (t.rtakeWhile (· == '0')).length '0' :=
    List.eq_replicate_iff.mpr ⟨rfl, fun c hc => by simpa using List.mem_rtakeWhile_imp hc⟩
  rw [← hzeros]
  exact (List.rdropWhile_append_rtakeWhile ..).symm

theorem trimZeros_zeros (n : ℕ) : trimZeros (List.replicate n '0') = [] := by
  rw [trimZeros, List.rdropWhile_eq_nil_iff]
  intro c hc
  rw [List.eq_of_mem_replicate hc]
  rfl

theorem trimZeros_append_zeros (t : List Char) (n : ℕ) :
    trimZeros (t ++ List.replicate n '0') = trimZeros t := by
  induction n with
  | zero => rw [List.replicate_zero, List.append_nil]
  | succ n ih =>
    rw [List.replicate_succ', ← List.append_assoc, trimZeros, List.rdropWhile_concat_pos _ _ _ rfl]
    exact ih

/-- What is left does not end in a zero. -/
theorem trimZeros_eq_concat {c : Char} (h : trimZeros t = u ++ [c]) : c ≠ '0' := by
  intro hc
  have hne : t.rdropWhile (· == '0') ≠ [] := by
    rw [show t.rdropWhile (· == '0') = _ from h]
    simp
  refine List.rdropWhile_last_not (· == '0') t hne ?_
  rw [show (t.rdropWhile (· == '0')).getLast hne = c from by
    simp only [show t.rdropWhile (· == '0') = _ from h, List.getLast_concat], hc]
  rfl

end Digits

/-! ## Numerals -/

/-- The digits before and after the point. -/
structure Numeral where
  whole : List Char
  fraction : List Char

namespace Numeral

/-- A numeral without a fraction may come without a point. -/
def Spells (n : Numeral) (s : List Char) : Prop :=
  s = n.whole ∧ n.fraction = [] ∨ s = n.whole ++ '.' :: n.fraction

/-- Digits and no sign. -/
def Plain (n : Numeral) : Prop := Digits (n.whole ++ n.fraction)

/-- The number denoted. -/
def value (n : Numeral) : ℚ := number (n.whole ++ n.fraction) / 10 ^ n.fraction.length

/-- The digits as far as place `d` after the point, if the others are zeros. -/
def places (n : Numeral) (d : ℕ) : List Char :=
  n.whole ++ trimZeros n.fraction ++ List.replicate (d - (trimZeros n.fraction).length) '0'

variable (n : Numeral)

/-- Zeros at the end denote nothing. -/
theorem value_eq_trimmed :
    n.value = number (n.whole ++ trimZeros n.fraction) / 10 ^ (trimZeros n.fraction).length := by
  obtain ⟨k, hk⟩ := exists_trimZeros n.fraction
  have hnumber : number (n.whole ++ n.fraction) =
      number (n.whole ++ trimZeros n.fraction) * 10 ^ k := by
    conv_lhs => rw [hk, ← List.append_assoc, number_append_zeros]
  have hlength : n.fraction.length = (trimZeros n.fraction).length + k := by
    conv_lhs => rw [hk, List.length_append, List.length_replicate]
  rw [value, hnumber, hlength, pow_add]
  push_cast
  field_simp

theorem number_places (d : ℕ) :
    number (n.places d) =
      number (n.whole ++ trimZeros n.fraction) * 10 ^ (d - (trimZeros n.fraction).length) :=
  number_append_zeros _ _

/-- With as many places as the fraction needs, the digits spell the scaled value. -/
theorem value_mul {d : ℕ} (h : (trimZeros n.fraction).length ≤ d) :
    n.value * 10 ^ d = number (n.places d) := by
  obtain ⟨k, rfl⟩ := Nat.exists_eq_add_of_le h
  rw [number_places, value_eq_trimmed, Nat.add_sub_cancel_left, pow_add]
  push_cast
  field_simp

/-- A last place beyond `d` that is no zero leaves the scaled value broken. -/
theorem length_le_of_value_mul {d a : ℕ} {c : Char} {u : List Char}
    (hlast : n.whole ++ trimZeros n.fraction = u ++ [c]) (hc : c.isDigit = true) (hzero : c ≠ '0')
    (h : n.value * 10 ^ d = a) : (trimZeros n.fraction).length ≤ d := by
  by_contra hlong
  obtain ⟨k, hk⟩ := Nat.exists_eq_add_of_lt (not_le.mp hlong)
  rw [value_eq_trimmed, hk, hlast] at h
  have hscaled : number (u ++ [c]) = a * 10 ^ k * 10 := by
    have hcast : (number (u ++ [c]) : ℚ) = a * 10 ^ k * 10 := by
      rw [← h, pow_succ, pow_add]
      field_simp
    exact_mod_cast hcast
  exact hzero (eq_zero_of_dvd_number hc (hscaled ▸ Nat.dvd_mul_left 10 _))

end Numeral

end SolanaEasy
