import SolanaEasy.Token.Law.Input
import SolanaEasy.Token.Law.UiAmount

/-!
# Answers — asking for an amount and for its text

Of a mint that shows its amounts as they are, the two conversions undo each other on the bytes
of their inputs: what one of them answers, the other takes back behind its own tag.
-/

namespace SolanaEasy.Token

open Processor

/-- A mint with these decimals, and neither interest nor a multiplier. -/
def ShowsPlainly (σ : Ledger) (k : Pubkey) (decimals : UInt8) : Prop :=
  (σ k).owner = Keys.tokenProgram ∧ ∃ s, load σ PodMint k = .ok s ∧ s.base.decimals = decimals ∧
    toOption (s.getExtension InterestBearingConfig) = none ∧
    toOption (s.getExtension ScaledUiAmountConfig) = none

section Answers

variable {K : Conversions} {I : SplInterfaces} {ctx : Context} {info : AccountInfo}
  {rest : List AccountInfo} {σ : Ledger} {d : UInt8} {w t : Bytes}

theorem checkProgramAccount_ok : checkProgramAccount Keys.tokenProgram = .ok () := by
  rw [checkProgramAccount, failIf_eq_ok, bne_self_eq_false]

theorem processAmountToUiAmount_plain (h : ShowsPlainly σ info.key d) (a : UInt64) :
    processAmountToUiAmount K ctx (info :: rest) a σ =
      .ok (strBytes (amountToUiAmountStringTrimmed a d)) := by
  obtain ⟨howner, s, hload, rfl, hinterest, hmultiplier⟩ := h
  simp only [processAmountToUiAmount, howner, checkProgramAccount_ok, hload, mapErr, ok_bind,
    hinterest, hmultiplier]
  rfl

theorem processUiAmountToAmount_plain (h : ShowsPlainly σ info.key d) (s : String) :
    processUiAmountToAmount K ctx (info :: rest) s σ =
      (tryUiAmountIntoAmount s d).map Pod.toBytes := by
  obtain ⟨howner, m, hload, rfl, hinterest, hmultiplier⟩ := h
  simp only [processUiAmountToAmount, howner, checkProgramAccount_ok, hload, mapErr, ok_bind,
    hinterest, hmultiplier]
  rfl

theorem answerInput_amountToUiAmount (h : ShowsPlainly σ info.key d) :
    answerInput K I ctx (info :: rest) (23 :: w) σ = .ok (some t) ↔
      ∃ a : UInt64, w = Pod.toBytes a ∧ t = strBytes (amountToUiAmountStringTrimmed a d) := by
  rw [answerInput, interpret_tag (t := .amountToUiAmount) rfl]
  simp only [select, bind_eq_ok, pure_eq_ok, decodeInstructionData_eq_ok]
  constructor
  · rintro ⟨r, ⟨s, ⟨data, rfl, rfl⟩, hr⟩, hanswer⟩
    obtain rfl := Except.ok.inj hr
    simp only [Request.answer, processAmountToUiAmount_plain h, ok_bind, pure_eq_ok,
      Option.some.injEq] at hanswer
    exact ⟨data.amount, rfl, hanswer.symm⟩
  · rintro ⟨a, rfl, rfl⟩
    refine ⟨_, ⟨_, ⟨⟨a⟩, rfl, rfl⟩, rfl⟩, ?_⟩
    rw [Request.answer, processAmountToUiAmount_plain h]
    rfl

theorem answerInput_uiAmountToAmount (h : ShowsPlainly σ info.key d) :
    answerInput K I ctx (info :: rest) (24 :: t) σ = .ok (some w) ↔
      ∃ (s : String) (a : UInt64), t = strBytes s ∧ tryUiAmountIntoAmount s d = .ok a ∧
        w = Pod.toBytes a := by
  rw [answerInput, interpret_tag (t := .uiAmountToAmount) rfl]
  simp only [select, bind_eq_ok, pure_eq_ok, okOr_eq_ok, List.drop_succ_cons, List.drop_zero,
    strFromUtf8_eq_some]
  constructor
  · rintro ⟨r, ⟨s, ⟨uiAmount, rfl, rfl⟩, hr⟩, hanswer⟩
    obtain rfl := Except.ok.inj hr
    simp only [Request.answer, processUiAmountToAmount_plain h, bind_eq_ok, pure_eq_ok,
      Option.some.injEq] at hanswer
    obtain ⟨_, hmap, rfl⟩ := hanswer
    cases hread : tryUiAmountIntoAmount uiAmount d with
    | ok a =>
      rw [hread] at hmap
      exact ⟨uiAmount, a, rfl, hread, (Except.ok.inj hmap).symm⟩
    | error e =>
      rw [hread] at hmap
      cases hmap
  · rintro ⟨s, a, rfl, hread, rfl⟩
    refine ⟨_, ⟨_, ⟨s, rfl, rfl⟩, rfl⟩, ?_⟩
    rw [Request.answer, processUiAmountToAmount_plain h, hread]
    rfl

end Answers

/-- Whatever the program answers to one of the two, on any ledger that holds such a mint, it
takes back behind the tag of the other: the amount is the same, and the text is a numeral whose
value is the scaled amount. Every amount has an answer. -/
theorem answers_invert (K : Conversions) (I : SplInterfaces) (info info' : AccountInfo)
    {σ σ' : Ledger} {d : UInt8} (h : ShowsPlainly σ info.key d) (h' : ShowsPlainly σ' info'.key d)
    (ctx ctx' : Context) (rest rest' : List AccountInfo) :
    (∀ a : UInt64, ∃ s : String,
      answerInput K I ctx (info :: rest) (23 :: Pod.toBytes a) σ = .ok (some (strBytes s)) ∧
        ∃ n : Numeral, n.Spells s.toList ∧ n.Plain ∧ n.value = a.toNat / 10 ^ d.toNat) ∧
    (∀ w t, answerInput K I ctx (info :: rest) (23 :: w) σ = .ok (some t) →
      answerInput K I ctx' (info' :: rest') (24 :: t) σ' = .ok (some w)) ∧
    ∀ t w, answerInput K I ctx (info :: rest) (24 :: t) σ = .ok (some w) →
      ∃ t', answerInput K I ctx' (info' :: rest') (23 :: w) σ' = .ok (some t') ∧
        answerInput K I ctx (info :: rest) (24 :: t') σ = .ok (some w) := by
  refine ⟨fun a => ?_, fun w t ht => ?_, fun t w hw => ?_⟩
  · obtain ⟨n, spells, plain, -, hvalue⟩ := amountToUiAmountStringTrimmed_spells a d
    exact ⟨_, (answerInput_amountToUiAmount h).mpr ⟨a, rfl, rfl⟩, n, spells, plain, hvalue⟩
  · obtain ⟨a, rfl, rfl⟩ := (answerInput_amountToUiAmount h).mp ht
    exact (answerInput_uiAmountToAmount h').mpr
      ⟨_, a, rfl, read_back (amountToUiAmountStringTrimmed_spells a d), rfl⟩
  · obtain ⟨_, a, -, -, rfl⟩ := (answerInput_uiAmountToAmount h).mp hw
    exact ⟨_, (answerInput_amountToUiAmount h').mpr ⟨a, rfl, rfl⟩,
      (answerInput_uiAmountToAmount h).mpr
        ⟨_, a, rfl, read_back (amountToUiAmountStringTrimmed_spells a d), rfl⟩⟩

/-- Every account is a mint with nine decimals. -/
def bareMints : Ledger := fun _ =>
  ⟨0, Keys.tokenProgram, Pod.toBytes (⟨.none, 0, 9, ⟨1⟩, .none⟩ : PodMint)⟩

theorem showsPlainly_bareMints (k : Pubkey) : ShowsPlainly bareMints k 9 :=
  ⟨rfl, ⟨⟨.none, 0, 9, ⟨1⟩, .none⟩, [], []⟩, rfl, rfl, rfl, rfl⟩

theorem answers_invert_bareMints :
    answerInput .none splInterfaces .plain [⟨7, false⟩] (24 :: strBytes "1.5") bareMints =
      .ok (some (Pod.toBytes (1500000000 : UInt64))) :=
  (answers_invert .none splInterfaces ⟨7, false⟩ ⟨7, false⟩ (showsPlainly_bareMints 7)
    (showsPlainly_bareMints 7) .plain .plain [] []).2.1 _ _ (by decide +kernel)

end SolanaEasy.Token
