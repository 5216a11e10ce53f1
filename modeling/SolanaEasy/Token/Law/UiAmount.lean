import SolanaEasy.Token.UiAmount

/-!
# UI amounts — which text is read, and that what is printed is read back

The parser splits at the point, drops the zeros at the end of the fraction, joins the parts
and fills up with zeros; so it reads the places of a numeral as one number, and what it
accepts follows from the grammar of that number.
-/

namespace SolanaEasy

/-- The numeral with its sign read as a zero. -/
def Numeral.unsigned (n : Numeral) : Numeral :=
  if n.whole = [] then ⟨[], Token.unsigned n.fraction⟩
  else ⟨Token.unsigned n.whole, n.fraction⟩

end SolanaEasy

namespace SolanaEasy.Token

/-! ## Signs -/

section Sign

variable {t u : List Char} {n : Numeral}

theorem unsigned_of_digits (h : Digits t) : unsigned t = t := by
  cases t with
  | nil => rfl
  | cons c t =>
    refine unsigned_cons_of_ne ?_
    rintro rfl
    exact absurd (digits_cons.mp h).1 (by decide)

/-- A sign counts nothing. -/
theorem number_unsigned (t : List Char) : number (unsigned t) = number t := by
  cases t with
  | nil => rfl
  | cons c t =>
    by_cases hc : c = '+'
    · rw [hc]
      rfl
    · rw [unsigned_cons_of_ne hc]

theorem not_mem_of_unsigned (h : Digits (unsigned t)) : '.' ∉ t := by
  cases t with
  | nil => exact List.not_mem_nil
  | cons c t =>
    by_cases hc : c = '+'
    · subst hc
      rw [List.mem_cons, not_or]
      exact ⟨by decide, Digits.not_mem (digits_cons.mp h).2 rfl⟩
    · rw [unsigned_cons_of_ne hc] at h
      exact h.not_mem rfl

/-- Only the first character can be a sign. -/
theorem digits_unsigned_append (hne : t ≠ []) :
    Digits (unsigned (t ++ u)) ↔ Digits (unsigned t) ∧ Digits u := by
  rw [unsigned_append hne, digits_append]

theorem utf8Len_right (h : Digits (unsigned (t ++ u))) : utf8Len u = u.length := by
  by_cases hne : t = []
  · subst hne
    exact utf8Len_unsigned h
  · exact utf8Len_digits ((digits_unsigned_append hne).mp h).2

theorem Numeral.unsigned_eq (n : Numeral) :
    n.unsigned.whole ++ n.unsigned.fraction = unsigned (n.whole ++ n.fraction) ∧
      n.unsigned.fraction.length = n.fraction.length := by
  by_cases hne : n.whole = []
  · rw [Numeral.unsigned, if_pos hne, hne]
    exact ⟨rfl, length_unsigned _⟩
  · rw [Numeral.unsigned, if_neg hne, unsigned_append hne]
    exact ⟨rfl, rfl⟩

theorem Numeral.unsigned_plain : n.unsigned.Plain ↔ Digits (unsigned (n.whole ++ n.fraction)) := by
  rw [Numeral.Plain, (Numeral.unsigned_eq n).1]

theorem Numeral.unsigned_value (n : Numeral) : n.unsigned.value = n.value := by
  rw [Numeral.value, Numeral.value, (Numeral.unsigned_eq n).1, (Numeral.unsigned_eq n).2,
    number_unsigned]

/-- The zeros at the end of the fraction matter to no sign. -/
theorem Numeral.unsigned_plain_trimmed (hne : n.whole ++ trimZeros n.fraction ≠ []) :
    n.unsigned.Plain ↔ Digits (unsigned (n.whole ++ trimZeros n.fraction)) := by
  obtain ⟨k, hk⟩ := exists_trimZeros n.fraction
  rw [Numeral.unsigned_plain]
  conv_lhs => rw [hk, ← List.append_assoc]
  rw [digits_unsigned_append hne]
  exact and_iff_left (digits_zeros k)

end Sign

/-! ## The parser -/

section Parse

variable {s : String} {d : UInt8} {a : UInt64} {n : Numeral}

/-- The parts that the parser takes: before and after the only point. -/
theorem splitOn_spells {t : List Char} (spells : n.Spells t) (hwhole : '.' ∉ n.whole)
    (hfraction : '.' ∉ n.fraction) :
    (t.splitOn '.').headD [] = n.whole ∧ (t.splitOn '.').getD 1 [] = n.fraction ∧
      (t.splitOn '.').length ≤ 2 := by
  rcases spells with ⟨rfl, hnone⟩ | rfl
  · rw [List.splitOn_eq_singleton hwhole, hnone]
    exact ⟨rfl, rfl, Nat.le_succ 1⟩
  · rw [List.splitOn_append_cons_self_of_not_mem hwhole, List.splitOn_eq_singleton hfraction]
    exact ⟨rfl, rfl, le_rfl⟩

/-- With at most two parts, the text is a whole part and a fraction. -/
theorem exists_spells {t : List Char} (h : (t.splitOn '.').length ≤ 2) :
    ∃ n : Numeral, n.Spells t ∧ '.' ∉ n.whole ∧ '.' ∉ n.fraction := by
  by_cases hpoint : '.' ∈ t
  · obtain ⟨p, q, rfl, hp⟩ := List.eq_append_cons_of_mem hpoint
    refine ⟨⟨p, q⟩, .inr rfl, hp, ?_⟩
    intro hq
    -- a second point would make a third part
    obtain ⟨q, r, rfl, hsecond⟩ := List.eq_append_cons_of_mem hq
    rw [List.splitOn_append_cons_self_of_not_mem hp,
      List.splitOn_append_cons_self_of_not_mem hsecond] at h
    have hpos := List.length_pos_iff.mpr (List.splitOn_ne_nil '.' r)
    simp only [List.length_cons] at h
    omega
  · exact ⟨⟨t, []⟩, .inl ⟨rfl, rfl⟩, hpoint, List.not_mem_nil⟩

/-- A text has one reading as digits around a point. -/
theorem spells_unique {m n : Numeral} {t : List Char} (hm : m.Spells t) (hn : n.Spells t)
    (hm' : m.Plain) (hn' : n.Plain) : m = n := by
  obtain ⟨hmw, hmf⟩ := digits_append.mp hm'
  obtain ⟨hnw, hnf⟩ := digits_append.mp hn'
  obtain ⟨hw, hf, _⟩ := splitOn_spells hm (hmw.not_mem rfl) (hmf.not_mem rfl)
  obtain ⟨hw', hf', _⟩ := splitOn_spells hn (hnw.not_mem rfl) (hnf.not_mem rfl)
  cases m
  cases n
  simp only at hw hf hw' hf'
  rw [← hw, ← hf, hw', hf']

/-- What the parser does with the parts of a numeral. -/
theorem tryUiAmountIntoAmount_spells (spells : n.Spells s.toList) (hwhole : '.' ∉ n.whole)
    (hfraction : '.' ∉ n.fraction) :
    tryUiAmountIntoAmount s d = .ok a ↔
      n.whole ++ trimZeros n.fraction ≠ [] ∧ utf8Len (trimZeros n.fraction) ≤ d.toNat ∧
        parseU64 (n.whole ++ trimZeros n.fraction ++
          List.replicate (d.toNat - utf8Len (trimZeros n.fraction)) '0') = some a := by
  obtain ⟨hhead, hnext, hlength⟩ := splitOn_spells spells hwhole hfraction
  have hempty : (n.whole.isEmpty && (trimZeros n.fraction).isEmpty) = true ↔
      n.whole ++ trimZeros n.fraction = [] := by
    rw [Bool.and_eq_true, List.isEmpty_iff, List.isEmpty_iff, List.append_eq_nil_iff]
  simp only [tryUiAmountIntoAmount, hhead, hnext]
  rw [bind_eq_ok, exists_unit, failIf_eq_ok, okOr_eq_ok, ← Bool.not_eq_true]
  simp only [Bool.or_eq_true, hempty, decide_eq_true_eq, not_or, not_lt]
  tauto

/-- A fraction that the scale makes whole fits its places, unless it is a sign alone. -/
theorem length_trimmed_le (plain : n.unsigned.Plain) (hsign : n.places d.toNat ≠ ['+'])
    (hvalue : n.value * 10 ^ d.toNat = a.toNat) : (trimZeros n.fraction).length ≤ d.toNat := by
  rcases List.eq_nil_or_concat (trimZeros n.fraction) with hnil | ⟨v, c, hlast⟩
  · rw [hnil]
    exact Nat.zero_le _
  rw [List.concat_eq_append] at hlast
  have hzero : c ≠ '0' := trimZeros_eq_concat hlast
  have hsplit : n.whole ++ trimZeros n.fraction = n.whole ++ v ++ [c] := by
    rw [hlast, List.append_assoc]
  have hdigits : Digits (unsigned (n.whole ++ v ++ [c])) := by
    rw [← hsplit]
    exact (Numeral.unsigned_plain_trimmed (by rw [hsplit]; simp)).mp plain
  by_cases hc : c.isDigit = true
  · exact Numeral.length_le_of_value_mul n hsplit hc hzero hvalue
  -- the last character can only be a sign if it is the first
  by_cases hfirst : n.whole ++ v = []
  · rw [hfirst, List.nil_append] at hdigits hsplit
    have hplus : c = '+' := by
      by_contra hne
      rw [unsigned_cons_of_ne hne] at hdigits
      exact hc (digits_cons.mp hdigits).1
    rw [(List.append_eq_nil_iff.mp hfirst).2] at hlast
    rw [hlast, List.nil_append, List.length_singleton]
    by_contra hle
    refine hsign ?_
    rw [Numeral.places, hsplit, hlast, hplus, Nat.sub_eq_zero_of_le (by simp; omega)]
    rfl
  · exact absurd (digits_cons.mp ((digits_unsigned_append hfirst).mp hdigits).2).1 hc

theorem accepted_spells (h : tryUiAmountIntoAmount s d = .ok a) :
    ∃ n : Numeral, n.Spells s.toList ∧ n.unsigned.Plain ∧
      (n.whole ≠ [] ∨ trimZeros n.fraction ≠ []) ∧ n.places d.toNat ≠ ['+'] ∧
        n.unsigned.value * 10 ^ d.toNat = a.toNat := by
  have hparts : (s.toList.splitOn '.').length ≤ 2 := by
    simp only [tryUiAmountIntoAmount] at h
    obtain ⟨_, hguard, _⟩ := bind_eq_ok.mp h
    rw [failIf_eq_ok, ← Bool.not_eq_true] at hguard
    simp only [Bool.or_eq_true, decide_eq_true_eq, not_or, not_lt] at hguard
    exact hguard.1.2
  obtain ⟨n, spells, hwhole, hfraction⟩ := exists_spells hparts
  obtain ⟨hne, hfits, hparse⟩ := (tryUiAmountIntoAmount_spells spells hwhole hfraction).mp h
  obtain ⟨_, hsign, hdigits, hnumber⟩ := parseU64_eq_some.mp hparse
  have hdigits' := ((digits_unsigned_append hne).mp hdigits).1
  -- what parses is one byte a character
  have hlen := utf8Len_right hdigits'
  rw [hlen] at hfits hsign hnumber
  refine ⟨n, spells, (Numeral.unsigned_plain_trimmed hne).mpr hdigits', ?_, hsign, ?_⟩
  · rw [← not_and_or]
    exact fun hnil => hne (List.append_eq_nil_iff.mpr hnil)
  · rw [Numeral.unsigned_value, Numeral.value_mul n hfits, ← hnumber, number_unsigned]
    rfl

theorem spells_accepted (spells : n.Spells s.toList) (plain : n.unsigned.Plain)
    (hnone : n.whole ≠ [] ∨ trimZeros n.fraction ≠ []) (hsign : n.places d.toNat ≠ ['+'])
    (hvalue : n.unsigned.value * 10 ^ d.toNat = a.toNat) :
    tryUiAmountIntoAmount s d = .ok a := by
  rw [Numeral.unsigned_value] at hvalue
  have hpoint := not_mem_of_unsigned (Numeral.unsigned_plain.mp plain)
  rw [List.mem_append, not_or] at hpoint
  have hne : n.whole ++ trimZeros n.fraction ≠ [] := by
    intro hnil
    obtain ⟨hw, hf⟩ := List.append_eq_nil_iff.mp hnil
    exact hnone.elim (absurd hw) (absurd hf)
  have hdigits := (Numeral.unsigned_plain_trimmed hne).mp plain
  have hlen := utf8Len_right hdigits
  have hfits := length_trimmed_le plain hsign hvalue
  rw [tryUiAmountIntoAmount_spells spells hpoint.1 hpoint.2, hlen]
  refine ⟨hne, hfits, parseU64_eq_some.mpr ⟨?_, hsign, ?_, ?_⟩⟩
  · exact List.append_ne_nil_of_left_ne_nil hne _
  · exact (digits_unsigned_append hne).mpr ⟨hdigits, digits_zeros _⟩
  · have hscaled := Numeral.value_mul n hfits
    rw [hvalue] at hscaled
    rw [number_unsigned]
    exact_mod_cast hscaled.symm

theorem spells_accepted_plain (spells : n.Spells s.toList) (plain : n.Plain) (hne : n.whole ≠ [])
    (hvalue : n.value * 10 ^ d.toNat = a.toNat) : tryUiAmountIntoAmount s d = .ok a := by
  have hwhole : Digits n.whole := (digits_append.mp plain).1
  have hsame : n.unsigned = n := by
    rw [Numeral.unsigned, if_neg hne, unsigned_of_digits hwhole]
  refine spells_accepted spells (hsame.symm ▸ plain) (.inl hne) ?_ (hsame.symm ▸ hvalue)
  intro hsign
  obtain ⟨c, t, hcons⟩ := List.exists_cons_of_ne_nil hne
  rw [Numeral.places, hcons] at hsign
  have hplus : c = '+' := (List.cons.inj hsign).1
  rw [hcons, hplus] at hwhole
  exact absurd (digits_cons.mp hwhole).1 (by decide)

theorem tryUiAmountIntoAmount_error {e : ProgramError}
    (h : tryUiAmountIntoAmount s d = .error e) : e = .invalidArgument := by
  by_contra hne
  refine bind_ne_error (failIf_ne_error (Ne.symm hne)) ?_ h
  intro _ _
  exact okOr_ne_error (Ne.symm hne) _

/-- Exactly the decimal numerals are accepted, but for two things: a `+` may stand in the place of
the first digit, where it reads as a zero, and there must be a digit left of the point or one
right of it that is no trailing zero. -/
theorem try_ui_amount_accepts (s : String) (d : UInt8) (a : UInt64) :
    (tryUiAmountIntoAmount s d = .ok a ↔
      ∃ n : Numeral, n.Spells s.toList ∧ n.unsigned.Plain ∧
        (n.whole ≠ [] ∨ trimZeros n.fraction ≠ []) ∧ n.places d.toNat ≠ ['+'] ∧
          n.unsigned.value * 10 ^ d.toNat = a.toNat) ∧
      ∀ e, tryUiAmountIntoAmount s d = .error e → e = .invalidArgument := by
  refine ⟨⟨accepted_spells, ?_⟩, fun e => tryUiAmountIntoAmount_error⟩
  rintro ⟨n, spells, plain, hnone, hsign, hvalue⟩
  exact spells_accepted spells plain hnone hsign hvalue

/-- A sign is accepted, and a numeral for zero is not. -/
theorem try_ui_amount_signed :
    (tryUiAmountIntoAmount "+5" 0 = .ok 5 ∧ ¬ ∃ n : Numeral, n.Spells "+5".toList ∧ n.Plain) ∧
      (tryUiAmountIntoAmount ".0" 1 = .error .invalidArgument ∧
        ∃ n : Numeral, n.Spells ".0".toList ∧ n.Plain ∧ n.whole ++ n.fraction ≠ [] ∧
          n.value * 10 ^ 1 = 0) := by
  refine ⟨⟨by decide +kernel, ?_⟩, by decide +kernel, ⟨[], ['0']⟩, .inr rfl, ?_, ?_, ?_⟩
  · rintro ⟨n, spells, plain⟩
    have hplus : '+' ∈ n.whole ++ n.fraction := by
      rcases spells with ⟨hs, _⟩ | hs
      · rw [← hs]
        simp
      · have hmem : '+' ∈ n.whole ++ '.' :: n.fraction := hs ▸ by simp
        simpa using hmem
    exact absurd (plain _ hplus) (by decide)
  · exact digits_zeros 1
  · exact List.cons_ne_nil _ _
  · have hnumber : number ([] ++ ['0']) = 0 := number_zeros 1
    rw [Numeral.value, hnumber, Nat.cast_zero, zero_div, zero_mul]

end Parse

/-! ## What is printed -/

section Print

variable {s : String} {d : UInt8} {a : UInt64} {n : Numeral}

theorem digits_zeroPadded (a : UInt64) (k : ℕ) : Digits (zeroPadded a k) :=
  digits_append.mpr ⟨digits_zeros _, digits_toDigits _⟩

theorem number_zeroPadded (a : UInt64) (k : ℕ) : number (zeroPadded a k) = a.toNat := by
  rw [zeroPadded, number_zeros_append, number_toDigits]

theorem le_length_zeroPadded (a : UInt64) (k : ℕ) : k ≤ (zeroPadded a k).length := by
  simp only [zeroPadded, List.length_append, List.length_replicate]
  omega

/-- The printed text has `d` places. -/
theorem amountToUiAmountString_spells (a : UInt64) (d : UInt8) :
    ∃ n : Numeral, n.Spells (amountToUiAmountString a d).toList ∧ n.Plain ∧ n.whole ≠ [] ∧
      n.value = a.toNat / 10 ^ d.toNat ∧
        (0 < d.toNat → (amountToUiAmountString a d).toList = n.whole ++ '.' :: n.fraction) := by
  by_cases hd : 0 < d.toNat
  · have hlen := le_length_zeroPadded a (d.toNat + 1)
    have hprint : (amountToUiAmountString a d).toList =
        (zeroPadded a (d.toNat + 1)).take ((zeroPadded a (d.toNat + 1)).length - d.toNat) ++
          '.' :: (zeroPadded a (d.toNat + 1)).drop
            ((zeroPadded a (d.toNat + 1)).length - d.toNat) := by
      rw [amountToUiAmountString, if_pos hd, String.toList_ofList]
    refine ⟨⟨_, _⟩, .inr hprint, ?_, ?_, ?_, fun _ => hprint⟩
    · rw [Numeral.Plain, List.take_append_drop]
      exact digits_zeroPadded _ _
    · rw [Ne, List.take_eq_nil_iff]
      simp only [not_or]
      refine ⟨by omega, ?_⟩
      rw [← List.length_eq_zero_iff]
      omega
    · rw [Numeral.value, List.take_append_drop, number_zeroPadded, List.length_drop]
      congr 2
      omega
  · have hprint : (amountToUiAmountString a d).toList = Nat.toDigits 10 a.toNat := by
      rw [amountToUiAmountString, if_neg hd, String.toList_ofList]
    refine ⟨⟨Nat.toDigits 10 a.toNat, []⟩, .inl ⟨hprint, rfl⟩, ?_, Nat.toDigits_ne_nil, ?_,
      fun h => absurd h hd⟩
    · rw [Numeral.Plain, List.append_nil]
      exact digits_toDigits _
    · rw [Numeral.value, List.append_nil, number_toDigits, Nat.eq_zero_of_not_pos hd]
      rfl

/-- Trimming takes the zeros of the fraction, and the point if nothing else is left of it. -/
theorem trimUiAmountString_spells (hs : s.toList = n.whole ++ '.' :: n.fraction) (plain : n.Plain)
    (hd : 0 < d.toNat) :
    (⟨n.whole, trimZeros n.fraction⟩ : Numeral).Spells (trimUiAmountString s d).toList := by
  obtain ⟨hwhole, hfraction⟩ := digits_append.mp plain
  obtain ⟨k, hk⟩ := exists_trimZeros n.fraction
  have htrim : trimZeros s.toList = trimZeros (n.whole ++ '.' :: trimZeros n.fraction) := by
    conv_lhs => rw [hs, hk, ← List.cons_append, ← List.append_assoc, trimZeros_append_zeros]
  rw [trimUiAmountString, if_pos hd, String.toList_ofList, htrim]
  rcases List.eq_nil_or_concat (trimZeros n.fraction) with hnil | ⟨v, c, hlast⟩
  · refine .inl ⟨?_, hnil⟩
    have hkeep : n.whole.rdropWhile (· == '.') = n.whole := by
      rw [List.rdropWhile_eq_self_iff]
      intro hne hpoint
      exact hwhole.not_mem rfl (beq_iff_eq.mp hpoint ▸ List.getLast_mem hne)
    rw [hnil, trimZeros, List.rdropWhile_concat_neg _ _ _ (by decide),
      List.rdropWhile_concat_pos _ _ _ rfl, hkeep]
  · rw [List.concat_eq_append] at hlast
    have hdigit : c.isDigit = true := by
      refine hfraction c ?_
      rw [hk, hlast]
      simp
    have hpoint : c ≠ '.' := by
      rintro rfl
      exact absurd hdigit (by decide)
    refine .inr ?_
    have hzero : c ≠ '0' := trimZeros_eq_concat hlast
    rw [hlast, ← List.cons_append, ← List.append_assoc, trimZeros,
      List.rdropWhile_concat_neg _ _ _ (by simpa using hzero),
      List.rdropWhile_concat_neg _ _ _ (by simpa using hpoint)]

theorem amountToUiAmountStringTrimmed_spells (a : UInt64) (d : UInt8) :
    ∃ n : Numeral, n.Spells (amountToUiAmountStringTrimmed a d).toList ∧ n.Plain ∧
      n.whole ≠ [] ∧ n.value = a.toNat / 10 ^ d.toNat := by
  obtain ⟨n, spells, plain, hne, hvalue, hprint⟩ := amountToUiAmountString_spells a d
  by_cases hd : 0 < d.toNat
  · refine ⟨⟨n.whole, trimZeros n.fraction⟩, trimUiAmountString_spells (hprint hd) plain hd, ?_,
      hne, ?_⟩
    · obtain ⟨k, hk⟩ := exists_trimZeros n.fraction
      rw [Numeral.Plain, hk, ← List.append_assoc] at plain
      exact (digits_append.mp plain).1
    · rw [← hvalue, n.value_eq_trimmed]
      rfl
  · refine ⟨n, ?_, plain, hne, hvalue⟩
    rw [amountToUiAmountStringTrimmed, trimUiAmountString, if_neg hd]
    exact spells

/-- A text that spells the scaled amount is read as the amount. -/
theorem read_back (h : ∃ n : Numeral, n.Spells s.toList ∧ n.Plain ∧ n.whole ≠ [] ∧
    n.value = a.toNat / 10 ^ d.toNat) : tryUiAmountIntoAmount s d = .ok a := by
  obtain ⟨n, spells, plain, hne, hvalue⟩ := h
  refine spells_accepted_plain spells plain hne ?_
  rw [hvalue]
  exact div_mul_cancel₀ _ (pow_ne_zero _ (by norm_num))

/-- Both printed forms are read back; so they tell amounts apart, and each is a numeral whose
value is the scaled amount. -/
theorem ui_amount_round_trip (a : UInt64) (d : UInt8) :
    (tryUiAmountIntoAmount (amountToUiAmountString a d) d = .ok a ∧
      tryUiAmountIntoAmount (amountToUiAmountStringTrimmed a d) d = .ok a) ∧
    (∀ b, amountToUiAmountString a d = amountToUiAmountString b d ∨
      amountToUiAmountStringTrimmed a d = amountToUiAmountStringTrimmed b d → a = b) ∧
    ∀ s, s = amountToUiAmountString a d ∨ s = amountToUiAmountStringTrimmed a d →
      (∃ n : Numeral, n.Spells s.toList ∧ n.Plain) ∧
        ∀ n : Numeral, n.Spells s.toList → n.Plain → n.value = a.toNat / 10 ^ d.toNat := by
  have full : ∀ a, ∃ n : Numeral, n.Spells (amountToUiAmountString a d).toList ∧ n.Plain ∧
      n.whole ≠ [] ∧ n.value = a.toNat / 10 ^ d.toNat := by
    intro a
    obtain ⟨n, spells, plain, hne, hvalue, _⟩ := amountToUiAmountString_spells a d
    exact ⟨n, spells, plain, hne, hvalue⟩
  have trimmed := fun a => amountToUiAmountStringTrimmed_spells a d
  refine ⟨⟨read_back (full a), read_back (trimmed a)⟩, ?_, ?_⟩
  · rintro b (heq | heq)
    · have hback := read_back (full a)
      rw [heq, read_back (full b)] at hback
      exact (Except.ok.inj hback).symm
    · have hback := read_back (trimmed a)
      rw [heq, read_back (trimmed b)] at hback
      exact (Except.ok.inj hback).symm
  · intro s hs
    have hspelled : ∃ n : Numeral, n.Spells s.toList ∧ n.Plain ∧ n.whole ≠ [] ∧
        n.value = a.toNat / 10 ^ d.toNat := by
      rcases hs with rfl | rfl
      · exact full a
      · exact trimmed a
    obtain ⟨m, spells, plain, _, hvalue⟩ := hspelled
    refine ⟨⟨m, spells, plain⟩, ?_⟩
    intro n spells' plain'
    rw [spells_unique spells' spells plain' plain, hvalue]

end Print

end SolanaEasy.Token
