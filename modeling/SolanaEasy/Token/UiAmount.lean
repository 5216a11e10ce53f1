import SolanaEasy.Lib.Numeral
import SolanaEasy.Token.Error

/-!
# UI amounts — amounts as text

The conversions of `program/src/lib.rs` between raw amounts and decimal numerals, for
mints that neither bear interest nor scale their amounts. Text is a list of characters; a
length is counted in bytes of UTF-8, as the source counts it.
-/

namespace SolanaEasy.Token

/-- `format!("{:01$}", amount, width)`. -/
def zeroPadded (amount : UInt64) (width : ℕ) : List Char :=
  let digits := Nat.toDigits 10 amount.toNat
  List.replicate (width - digits.length) '0' ++ digits

/-- `amount_to_ui_amount_string`. -/
def amountToUiAmountString (amount : UInt64) (decimals : UInt8) : String :=
  let decimals := decimals.toNat
  if 0 < decimals then
    -- at least an integer zero before the point
    let s := zeroPadded amount (decimals + 1)
    let point := s.length - decimals
    String.ofList (s.take point ++ '.' :: s.drop point)
  else
    String.ofList (Nat.toDigits 10 amount.toNat)

/-- `trim_ui_amount_string`. -/
def trimUiAmountString (uiAmount : String) (decimals : UInt8) : String :=
  if 0 < decimals.toNat then
    String.ofList ((trimZeros uiAmount.toList).rdropWhile (· == '.'))
  else uiAmount

/-- `amount_to_ui_amount_string_trimmed`. -/
def amountToUiAmountStringTrimmed (amount : UInt64) (decimals : UInt8) : String :=
  trimUiAmountString (amountToUiAmountString amount decimals) decimals

/-- `str::len`. -/
def utf8Len (t : List Char) : ℕ := (t.map Char.utf8Size).sum

/-- What follows a sign. -/
def withoutSign : List Char → List Char
  | '+' :: rest => rest
  | t => t

/-- `str::parse::<u64>`: digits, after at most one `+`. -/
def parseU64 (t : List Char) : Option UInt64 :=
  let digits := withoutSign t
  if digits ≠ [] ∧ Digits digits ∧ number digits < 2 ^ 64 then some (UInt64.ofNat (number digits))
  else none

/-- `try_ui_amount_into_amount`. -/
def tryUiAmountIntoAmount (uiAmount : String) (decimals : UInt8) : Result UInt64 := do
  let decimals := decimals.toNat
  let parts := uiAmount.toList.splitOn '.'
  let amountStr := parts.headD []
  let afterDecimal := trimZeros (parts.getD 1 [])
  failIf ((amountStr.isEmpty && afterDecimal.isEmpty) || parts.length > 2 ||
    utf8Len afterDecimal > decimals) .invalidArgument
  let zeros := List.replicate (decimals - utf8Len afterDecimal) '0'
  okOr .invalidArgument (parseU64 (amountStr ++ afterDecimal ++ zeros))

/-! ## The standard parser -/

/-- A sign in the place of the first digit, read as a zero. -/
def unsigned : List Char → List Char
  | '+' :: rest => '0' :: rest
  | t => t

section Parse

variable {t u : List Char} {a : UInt64}

theorem withoutSign_cons_of_ne {c : Char} (hc : c ≠ '+') : withoutSign (c :: t) = c :: t := by
  rw [withoutSign]
  intro rest heq
  exact hc (List.cons.inj heq).1

theorem unsigned_cons_of_ne {c : Char} (hc : c ≠ '+') : unsigned (c :: t) = c :: t := by
  rw [unsigned]
  intro rest heq
  exact hc (List.cons.inj heq).1

theorem unsigned_append (hne : t ≠ []) : unsigned (t ++ u) = unsigned t ++ u := by
  cases t with
  | nil => exact absurd rfl hne
  | cons c t =>
    by_cases hc : c = '+'
    · rw [hc]
      rfl
    · rw [unsigned_cons_of_ne hc, List.cons_append, unsigned_cons_of_ne hc]

theorem length_unsigned (t : List Char) : (unsigned t).length = t.length := by
  cases t with
  | nil => rfl
  | cons c t =>
    by_cases hc : c = '+'
    · rw [hc]
      rfl
    · rw [unsigned_cons_of_ne hc]

/-- The parser accepts what is digits without its sign, if there is a digit. -/
theorem parseU64_eq_some : parseU64 t = some a ↔
    t ≠ [] ∧ t ≠ ['+'] ∧ Digits (unsigned t) ∧ number (unsigned t) = a.toNat := by
  have hparse : ∀ d : List Char, (if d ≠ [] ∧ Digits d ∧ number d < 2 ^ 64 then
      some (UInt64.ofNat (number d)) else none) = some a ↔
        d ≠ [] ∧ Digits d ∧ number d = a.toNat := by
    intro d
    have ha := a.toNat_lt
    rw [ite_eq_iff]
    constructor
    · rintro (⟨⟨hne, hdigits, hfits⟩, hsome⟩ | ⟨_, hnone⟩)
      · refine ⟨hne, hdigits, ?_⟩
        rw [← Option.some.inj hsome, UInt64.toNat_ofNat_of_lt' hfits]
      · cases hnone
    · rintro ⟨hne, hdigits, heq⟩
      refine .inl ⟨⟨hne, hdigits, heq ▸ ha⟩, ?_⟩
      rw [heq, UInt64.ofNat_toNat]
  show (if withoutSign t ≠ [] ∧ Digits (withoutSign t) ∧ number (withoutSign t) < 2 ^ 64 then _
    else _) = some a ↔ _
  rw [hparse]
  cases t with
  | nil => simp [withoutSign]
  | cons c t =>
    by_cases hc : c = '+'
    · -- the sign stands for a zero in front of the digits
      have hzero : number ('0' :: t) = number t := number_zeros_append 1 t
      subst hc
      rw [withoutSign, unsigned, hzero, digits_cons]
      simp
    · rw [withoutSign_cons_of_ne hc, unsigned_cons_of_ne hc]
      simp [hc]

theorem utf8Len_digits (h : Digits t) : utf8Len t = t.length := by
  induction t with
  | nil => rfl
  | cons c t ih =>
    obtain ⟨hc, ht⟩ := digits_cons.mp h
    have hsize : c.utf8Size = 1 := by
      rw [Char.isDigit, Bool.and_eq_true, decide_eq_true_eq, decide_eq_true_eq] at hc
      have hle := UInt32.le_iff_toNat_le.mp hc.2
      rw [Char.utf8Size_eq_one_iff, UInt32.le_iff_toNat_le]
      exact hle.trans (by decide)
    show c.utf8Size + utf8Len t = _
    rw [hsize, ih ht, List.length_cons, Nat.add_comm]

theorem utf8Len_unsigned (h : Digits (unsigned t)) : utf8Len t = t.length := by
  cases t with
  | nil => rfl
  | cons c t =>
    by_cases hc : c = '+'
    · subst hc
      have ht : Digits t := (digits_cons.mp h).2
      show '+'.utf8Size + utf8Len t = _
      rw [utf8Len_digits ht, List.length_cons, Nat.add_comm]
      rfl
    · rw [unsigned_cons_of_ne hc] at h
      exact utf8Len_digits h

end Parse

end SolanaEasy.Token
