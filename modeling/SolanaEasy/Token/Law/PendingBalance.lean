import SolanaEasy.Token.Law.DecryptableSupply

/-!
# Pending balance — when an owner can read what it was sent

Every credit is split into 16 and 32 bits, and the parts of a fee are taken out of the parts
of the credit. The owner decrypts the two sums one by one, each by a search among the numbers
of 32 bits.
-/

namespace SolanaEasy.Token

open Processor ConfidentialTransfer ElGamal

/-! ## Credits -/

/-- What is added to the two parts of a pending balance, and what is taken out as a fee. -/
structure Credit where
  lo : ℕ
  hi : ℕ
  feeLo : ℕ
  feeHi : ℕ
  lo_lt : lo < 2 ^ 16
  hi_lt : hi < 2 ^ 32
  feeLo_lt : feeLo < 2 ^ 16
  feeHi_lt : feeHi < 2 ^ 32

namespace Credit

variable (x : Credit)

def low : ℤ := x.lo - x.feeLo

def high : ℤ := x.hi - x.feeHi

/-- The units that are credited. -/
def amount : ℤ := x.low + 2 ^ 16 * x.high

/-- Nothing is withheld. -/
def Free : Prop := x.feeLo = 0 ∧ x.feeHi = 0

theorem abs_low : |x.low| ≤ 2 ^ 16 - 1 := by
  have hlo := x.lo_lt
  have hfeeLo := x.feeLo_lt
  rw [low, abs_le]
  omega

theorem abs_high : |x.high| ≤ 2 ^ 32 := by
  have hhi := x.hi_lt
  have hfeeHi := x.feeHi_lt
  rw [high, abs_le]
  omega

/-- The credit before the fee is taken out of it. -/
def gross : Credit :=
  ⟨x.lo, x.hi, 0, 0, x.lo_lt, x.hi_lt, Nat.two_pow_pos _, Nat.two_pow_pos _⟩

theorem free_gross : x.gross.Free := ⟨rfl, rfl⟩

variable {x}

theorem Free.low_eq (h : x.Free) : x.low = x.lo := by
  rw [low, h.1, Nat.cast_zero, sub_zero]

theorem Free.high_eq (h : x.Free) : x.high = x.hi := by
  rw [high, h.2, Nat.cast_zero, sub_zero]

end Credit

/-- The lower parts, added up. -/
def lowSum (cs : List Credit) : ℤ := (cs.map Credit.low).sum

def highSum (cs : List Credit) : ℤ := (cs.map Credit.high).sum

theorem lowSum_append (cs : List Credit) (x : Credit) :
    lowSum (cs ++ [x]) = lowSum cs + x.low := by
  simp [lowSum]

theorem highSum_append (cs : List Credit) (x : Credit) :
    highSum (cs ++ [x]) = highSum cs + x.high := by
  simp [highSum]

theorem sum_amount (cs : List Credit) :
    (cs.map Credit.amount).sum = lowSum cs + 2 ^ 16 * highSum cs := by
  induction cs with
  | nil => rfl
  | cons x xs ih =>
    simp only [lowSum, highSum, List.map_cons, List.sum_cons] at ih ⊢
    rw [ih, Credit.amount]
    ring

theorem abs_sum_le {f : Credit → ℤ} {b : ℤ} (h : ∀ x, |f x| ≤ b) (cs : List Credit) :
    |(cs.map f).sum| ≤ cs.length * b := by
  induction cs with
  | nil => simp
  | cons x xs ih =>
    have hx := h x
    have hsum := abs_add_le (f x) (xs.map f).sum
    rw [List.map_cons, List.sum_cons, List.length_cons, Nat.cast_succ, add_mul, one_mul]
    omega

/-- With as many credits as the counter allows, the sums are small. -/
theorem abs_sums_le {cs : List Credit} (h : cs.length ≤ 65536) :
    |lowSum cs| < 2 ^ 32 ∧ |highSum cs| ≤ 2 ^ 48 := by
  have hlow := abs_sum_le Credit.abs_low cs
  have hhigh := abs_sum_le Credit.abs_high cs
  rw [lowSum, highSum]
  omega

/-- The sums are numbers of 32 bits. -/
structure Fits (cs : List Credit) : Prop where
  low : 0 ≤ lowSum cs
  high : 0 ≤ highSum cs
  high_lt : highSum cs < 2 ^ 32

section Accounts

variable {l : ℕ} {rt : Runtime} {c : Call} {e e' g : ConfidentialTransferAccount}

/-- A change of an account that its pending balance has no part in. -/
structure PendingKept (e e' : ConfidentialTransferAccount) : Prop where
  lo : e'.pendingBalanceLo = e.pendingBalanceLo
  hi : e'.pendingBalanceHi = e.pendingBalanceHi
  key : e'.elgamalPubkey = e.elgamalPubkey
  counter : e'.pendingBalanceCreditCounter = e.pendingBalanceCreditCounter
  maximum : e'.maximumPendingBalanceCreditCounter = e.maximumPendingBalanceCreditCounter

/-- An update by which an instruction credits `x` to the pending balance. -/
inductive PendingCredit (rt : Runtime) (R : Reading l rt) (c : Call) :
    ConfidentialTransferAccount → ConfidentialTransferAccount → Credit → Prop
  | deposit {e e' x amount} (credit : deposited rt amount e = .ok e')
      (lo : x.lo = amount.toNat % 2 ^ 16) (hi : x.hi = amount.toNat / 2 ^ 16) (free : x.Free) :
      PendingCredit rt R c e e' x
  | mint {e e' x p t i eo vo ro as as'}
      (proved : verifyMintProof c.ctx c.σ eo vo ro as = .ok (p, as'))
      (credit : ConfidentialMintBurn.mintedTo rt t p i e = .ok e')
      (parts : R.Parts p.destination p.mintAmountCiphertextLo.underFirst
        p.mintAmountCiphertextHi.underFirst x.lo x.hi) (free : x.Free) :
      PendingCredit rt R c e e' x
  | transfer {e e' x p eo vo ro as as'}
      (proved : verifyTransferProof c.ctx c.σ eo vo ro as = .ok (p, as'))
      (credit : credited rt p.destination p.ciphertextLo p.ciphertextHi e = .ok e')
      (parts : R.Parts p.destination p.ciphertextLo.underSecond p.ciphertextHi.underSecond
        x.lo x.hi) (free : x.Free) : PendingCredit rt R c e e' x
  | transferToSelf {e e' x p o t as as'}
      (proved : verifyTransferWithFeeProof rt c.ctx c.σ o t as = .ok (p, as'))
      (credit : credited rt p.destination p.ciphertextLo p.ciphertextHi e = .ok e')
      (parts : R.Parts p.destination p.ciphertextLo.underSecond p.ciphertextHi.underSecond
        x.lo x.hi) (free : x.Free) : PendingCredit rt R c e e' x
  | transferWithFee {e g e' x p o t as as' y y'}
      (proved : verifyTransferWithFeeProof rt c.ctx c.σ o t as = .ok (p, as'))
      (credit : credited rt p.destination p.ciphertextLo p.ciphertextHi e = .ok g)
      (withheld : FeeWithheld rt p g e' y y')
      (parts : R.Parts p.destination p.ciphertextLo.underSecond p.ciphertextHi.underSecond
        x.lo x.hi)
      (fee : R.Parts p.destination p.feeCiphertextLo.underFirst p.feeCiphertextHi.underFirst
        x.feeLo x.feeHi) : PendingCredit rt R c e e' x

/-- The credits of an account since it was configured, or since its pending balance was last
applied. -/
inductive Accrued (rt : Runtime) (R : Reading l rt) :
    ConfidentialTransferAccount → List Credit → Prop
  | configured {a k b n} : Accrued rt R (configuredAccount a k b n) []
  | applied {e cs e' n b} (h : Accrued rt R e cs) (update : pendingApplied rt n b e = .ok e') :
      Accrued rt R e' []
  | kept {e cs e'} (h : Accrued rt R e cs) (kept : PendingKept e e') : Accrued rt R e' cs
  | credited {e cs e' x c} (h : Accrued rt R e cs) (sound : R.Sound c.ctx c.σ)
      (credit : PendingCredit rt R c e e' x) : Accrued rt R e' (cs ++ [x])

/-! ## What a credit changes -/

section Credits

variable {P : Type} [AddCommGroup P] [Module (ZMod l) P] {C : Curve rt (ZMod l) P}
  {R : Reading l rt} {x : Credit}

/-- The pending balance of `e'` is that of `e`, with the credit `x`. -/
structure PendingGrown (C : Curve rt (ZMod l) P) (R : Reading l rt)
    (e e' : ConfidentialTransferAccount) (x : Credit) : Prop where
  lo : R.pt e.elgamalPubkey e'.pendingBalanceLo =
    R.pt e.elgamalPubkey e.pendingBalanceLo + (x.low : ℤ)
  hi : R.pt e.elgamalPubkey e'.pendingBalanceHi =
    R.pt e.elgamalPubkey e.pendingBalanceHi + (x.high : ℤ)
  key : e'.elgamalPubkey = e.elgamalPubkey
  counter : e'.pendingBalanceCreditCounter.toNat = e.pendingBalanceCreditCounter.toNat + 1
  maximum : e'.maximumPendingBalanceCreditCounter = e.maximumPendingBalanceCreditCounter
  room : e.pendingBalanceCreditCounter.toNat < e.maximumPendingBalanceCreditCounter.toNat
  encodedLo : C.Encoded e.pendingBalanceLo → C.Encoded e'.pendingBalanceLo
  encodedHi : C.Encoded e.pendingBalanceHi → C.Encoded e'.pendingBalanceHi

theorem validAsDestination_room (h : e.validAsDestination = .ok ()) :
    e.pendingBalanceCreditCounter.toNat < e.maximumPendingBalanceCreditCounter.toNat := by
  simp only [ConfidentialTransferAccount.validAsDestination, bind_eq_ok, exists_unit, okOr_eq_ok,
    checkedAdd_eq_some, failIf_eq_ok, decide_eq_false_iff_not] at h
  obtain ⟨_, _, n, hn, hle⟩ := h
  rw [gt_iff_lt, UInt64.lt_iff_toNat_lt, hn] at hle
  exact Nat.lt_of_succ_le (Nat.le_of_not_lt hle)

/-- The new balances are stored, and the credit is counted. -/
theorem PendingGrown.of_update {a b : PodElGamalCiphertext} (hvalid : e.validAsDestination = .ok ())
    (h : ConfidentialTransferAccount.incrementPendingBalanceCreditCounter
      { e with pendingBalanceLo := a, pendingBalanceHi := b } = .ok e')
    (lo : R.pt e.elgamalPubkey a = R.pt e.elgamalPubkey e.pendingBalanceLo + (x.low : ℤ))
    (hi : R.pt e.elgamalPubkey b = R.pt e.elgamalPubkey e.pendingBalanceHi + (x.high : ℤ))
    (encodedLo : C.Encoded e.pendingBalanceLo → C.Encoded a)
    (encodedHi : C.Encoded e.pendingBalanceHi → C.Encoded b) : PendingGrown C R e e' x := by
  obtain ⟨n, hn, rfl⟩ := incrementPendingBalanceCreditCounter_ok h
  exact ⟨lo, hi, rfl, checkedAdd_eq_some.mp hn, rfl, validAsDestination_room hvalid, encodedLo,
    encodedHi⟩

theorem Curve.Encodes.encoded_addPart (hC : C.Encodes) {a b : PodElGamalCiphertext} {n : ℕ}
    (h : addPart rt a n = .ok b) (ha : C.Encoded a) : C.Encoded b := by
  rw [addPart] at h
  split at h
  · simp only [arithmetic, okOr_eq_ok] at h
    exact hC.encoded_addTo ha h
  · exact (Except.ok.inj h) ▸ ha

theorem deposited_grown (hC : C.Encodes) {amount : UInt64} (h : deposited rt amount e = .ok e')
    (lo : x.lo = amount.toNat % 2 ^ 16) (hi : x.hi = amount.toNat / 2 ^ 16) (free : x.Free) :
    PendingGrown C R e e' x := by
  simp only [deposited, verifyAndSplitDepositAmount, bind_eq_ok, exists_unit, failIf_eq_ok,
    pure_eq_ok, Prod.exists, Prod.mk.injEq] at h
  obtain ⟨hvalid, lo', hi', ⟨_, rfl, rfl⟩, a, ha, b, hb, h⟩ := h
  have hamount := amount.toNat_lt
  refine .of_update hvalid h ?_ ?_ (hC.encoded_addPart ha) (hC.encoded_addPart hb)
  · rw [pt_addPart (by omega) _ ha, free.low_eq, lo, Int.cast_natCast]
  · rw [pt_addPart (by omega) _ hb, free.high_eq, hi, Int.cast_natCast]

/-- Two ciphertexts that were proved are added. -/
theorem PendingGrown.of_add (hC : C.Encodes) {lo hi a b : PodElGamalCiphertext}
    (hvalid : e.validAsDestination = .ok ())
    (parts : R.Parts e.elgamalPubkey lo hi x.lo x.hi) (free : x.Free)
    (ha : CiphertextArithmetic.add rt e.pendingBalanceLo lo = some a)
    (hb : CiphertextArithmetic.add rt e.pendingBalanceHi hi = some b)
    (h : ConfidentialTransferAccount.incrementPendingBalanceCreditCounter
      { e with pendingBalanceLo := a, pendingBalanceHi := b } = .ok e') :
    PendingGrown C R e e' x := by
  refine .of_update hvalid h ?_ ?_ (fun _ => hC.encoded_add ha) fun _ => hC.encoded_add hb
  · rw [R.pt_add _ ha, parts.lo, free.low_eq, Int.cast_natCast]
  · rw [R.pt_add _ hb, parts.hi, free.high_eq, Int.cast_natCast]

theorem mintedTo_grown (hC : C.Encodes) {t : ConfidentialTransferMint} {p : MintProofContext}
    {i : ConfidentialMintBurn.InstructionData}
    (parts : R.Parts p.destination p.mintAmountCiphertextLo.underFirst
      p.mintAmountCiphertextHi.underFirst x.lo x.hi) (free : x.Free)
    (h : ConfidentialMintBurn.mintedTo rt t p i e = .ok e') : PendingGrown C R e e' x := by
  simp only [ConfidentialMintBurn.mintedTo, bind_eq_ok, exists_unit, failIf_eq_ok,
    bne_eq_false_iff_eq, PodGroupedElGamalCiphertext3Handles.tryExtractCiphertext_zero,
    Except.ok.injEq, exists_eq_left', arithmetic, okOr_eq_ok] at h
  obtain ⟨hvalid, hkey, _, _, a, ha, b, hb, h⟩ := h
  exact .of_add hC hvalid (hkey ▸ parts) free ha hb h

theorem credited_grown (hC : C.Encodes) {k : PodElGamalPubkey}
    {lo hi : PodGroupedElGamalCiphertext3Handles}
    (parts : R.Parts k lo.underSecond hi.underSecond x.lo x.hi) (free : x.Free)
    (h : credited rt k lo hi e = .ok e') : PendingGrown C R e e' x ∧ k = e.elgamalPubkey := by
  simp only [credited, bind_eq_ok, exists_unit, failIf_eq_ok, bne_eq_false_iff_eq,
    PodGroupedElGamalCiphertext3Handles.tryExtractCiphertext_one, Except.ok.injEq,
    exists_eq_left', arithmetic, okOr_eq_ok] at h
  obtain ⟨hvalid, hkey, a, ha, b, hb, h⟩ := h
  exact ⟨.of_add hC hvalid (hkey ▸ parts) free ha hb h, hkey⟩

/-- The parts of the fee leave the parts of the credit. -/
theorem PendingGrown.withhold (hC : C.Encodes) {p : TransferWithFeeProofContext}
    {y y' : ConfidentialTransferFeeAmount} (grown : PendingGrown C R e g x.gross)
    (hkey : p.destination = e.elgamalPubkey) (h : FeeWithheld rt p g e' y y')
    (fee : R.Parts p.destination p.feeCiphertextLo.underFirst p.feeCiphertextHi.underFirst
      x.feeLo x.feeHi) : PendingGrown C R e e' x := by
  obtain ⟨lo, hi, lo', hi', a, b, withheld, hlo, hhi, ha, hb, _, _, _, rfl, _⟩ := h
  rw [PodGroupedElGamalCiphertext2Handles.tryExtractCiphertext_zero, Except.ok.injEq] at hlo hhi
  subst hlo hhi
  rw [hkey] at fee
  refine ⟨?_, ?_, grown.key, grown.counter, grown.maximum, grown.room,
    fun _ => hC.encoded_subtract ha, fun _ => hC.encoded_subtract hb⟩
  · show R.pt e.elgamalPubkey a = _
    rw [R.pt_sub _ ha, grown.lo, fee.lo, x.free_gross.low_eq, Credit.low]
    push_cast
    rw [add_sub_assoc]
    rfl
  · show R.pt e.elgamalPubkey b = _
    rw [R.pt_sub _ hb, grown.hi, fee.hi, x.free_gross.high_eq, Credit.high]
    push_cast
    rw [add_sub_assoc]
    rfl

theorem PendingCredit.grown (hC : C.Encodes) (h : PendingCredit rt R c e e' x) :
    PendingGrown C R e e' x := by
  cases h with
  | deposit credit lo hi free => exact deposited_grown hC credit lo hi free
  | mint _ credit parts free => exact mintedTo_grown hC parts free credit
  | transfer _ credit parts free => exact (credited_grown hC parts free credit).1
  | transferToSelf _ credit parts free => exact (credited_grown hC parts free credit).1
  | transferWithFee _ credit withheld parts fee =>
    obtain ⟨hgross, hkey⟩ := credited_grown (x := x.gross) hC parts x.free_gross credit
    exact hgross.withhold hC hkey withheld fee

/-! ## Every account -/

/-- What the credits of an account say about its pending balance. -/
structure PendingState (C : Curve rt (ZMod l) P) (R : Reading l rt)
    (e : ConfidentialTransferAccount) (cs : List Credit) : Prop where
  lo : R.pt e.elgamalPubkey e.pendingBalanceLo = (lowSum cs : ℤ)
  hi : R.pt e.elgamalPubkey e.pendingBalanceHi = (highSum cs : ℤ)
  counter : e.pendingBalanceCreditCounter.toNat = cs.length
  bounded : cs.length ≤ e.maximumPendingBalanceCreditCounter.toNat
  encodedLo : C.Encoded e.pendingBalanceLo
  encodedHi : C.Encoded e.pendingBalanceHi

theorem PendingState.of_zeroed (hlo : e.pendingBalanceLo = .zeroed)
    (hhi : e.pendingBalanceHi = .zeroed) (hcounter : e.pendingBalanceCreditCounter = 0) :
    PendingState C R e [] where
  lo := by rw [hlo, R.pt_zeroed]; exact Int.cast_zero.symm
  hi := by rw [hhi, R.pt_zeroed]; exact Int.cast_zero.symm
  counter := by rw [hcounter]; rfl
  bounded := Nat.zero_le _
  encodedLo := hlo ▸ C.encoded_zeroed
  encodedHi := hhi ▸ C.encoded_zeroed

theorem Accrued.state (hC : C.Encodes) {cs : List Credit} (h : Accrued rt R e cs) :
    PendingState C R e cs := by
  induction h with
  | configured => exact .of_zeroed rfl rfl rfl
  | applied h update ih =>
    simp only [pendingApplied, arithmetic, bind_eq_ok, okOr_eq_ok, pure_eq_ok] at update
    obtain ⟨_, _, rfl⟩ := update
    exact .of_zeroed rfl rfl rfl
  | kept h kept ih =>
    refine ⟨?_, ?_, ?_, ?_, kept.lo ▸ ih.encodedLo, kept.hi ▸ ih.encodedHi⟩
    · rw [kept.key, kept.lo, ih.lo]
    · rw [kept.key, kept.hi, ih.hi]
    · rw [kept.counter, ih.counter]
    · rw [kept.maximum]
      exact ih.bounded
  | credited h sound credit ih =>
    have hgrown := credit.grown hC
    refine ⟨?_, ?_, ?_, ?_, hgrown.encodedLo ih.encodedLo, hgrown.encodedHi ih.encodedHi⟩
    · rw [hgrown.key, hgrown.lo, ih.lo, lowSum_append, Int.cast_add]
    · rw [hgrown.key, hgrown.hi, ih.hi, highSum_append, Int.cast_add]
    · rw [hgrown.counter, ih.counter, List.length_append, List.length_singleton]
    · have hroom := hgrown.room
      rw [hgrown.maximum, List.length_append, List.length_singleton, ← ih.counter]
      omega

end Credits

/-! ## Every run -/

section Runs

variable {R : Reading l rt} {k : Pubkey} {β : Book} {v v' : View PodAccount} {cs : List Credit}

theorem PendingKept.refl (e : ConfidentialTransferAccount) : PendingKept e e :=
  ⟨rfl, rfl, rfl, rfl, rfl⟩

theorem emptied_kept {p : ZeroCiphertextProofContext} (h : emptied p e = .ok e') :
    PendingKept e e' := by
  simp only [emptied, bind_eq_ok, exists_unit, pure_eq_ok] at h
  obtain ⟨_, _, _, rfl⟩ := h
  exact ⟨rfl, rfl, rfl, rfl, rfl⟩

theorem withdrawn_kept {amount : UInt64} {p : WithdrawProofContext} {b : PodAeCiphertext}
    (h : withdrawn rt amount p b e = .ok e') : PendingKept e e' := by
  simp only [withdrawn, bind_eq_ok, exists_unit] at h
  obtain ⟨_, _, h⟩ := h
  split at h
  · simp only [bind_eq_ok, exists_unit, pure_eq_ok] at h
    obtain ⟨_, _, _, rfl⟩ := h
    exact ⟨rfl, rfl, rfl, rfl, rfl⟩
  · simp only [ok_bind, bind_eq_ok, exists_unit, pure_eq_ok] at h
    obtain ⟨_, rfl⟩ := h
    exact ⟨rfl, rfl, rfl, rfl, rfl⟩

theorem debited_kept {key : PodElGamalPubkey} {lo hi : PodGroupedElGamalCiphertext3Handles}
    {balance : PodElGamalCiphertext} {b : PodAeCiphertext}
    (h : debited rt key lo hi balance b e = .ok e') : PendingKept e e' := by
  simp only [debited, bind_eq_ok, exists_unit, pure_eq_ok] at h
  obtain ⟨_, _, _, _, _, _, _, _, _, rfl⟩ := h
  exact ⟨rfl, rfl, rfl, rfl, rfl⟩

theorem burnedFrom_kept {p : BurnProofContext} {i : ConfidentialMintBurn.InstructionData}
    (h : ConfidentialMintBurn.burnedFrom rt p i e = .ok e') : PendingKept e e' := by
  simp only [ConfidentialMintBurn.burnedFrom, bind_eq_ok, exists_unit, pure_eq_ok] at h
  obtain ⟨_, _, _, _, _, _, _, _, _, _, rfl⟩ := h
  exact ⟨rfl, rfl, rfl, rfl, rfl⟩

theorem feeCredited_kept {err : ProgramError} {x : PodElGamalCiphertext} {b : PodAeCiphertext}
    (h : ConfidentialTransferFee.feeCredited rt err x b e = .ok e') : PendingKept e e' := by
  simp only [ConfidentialTransferFee.feeCredited, bind_eq_ok, pure_eq_ok] at h
  obtain ⟨_, _, rfl⟩ := h
  exact ⟨rfl, rfl, rfl, rfl, rfl⟩

/-- The credits behind the balances of an account, if it has any. -/
def View.Accrued (rt : Runtime) (R : Reading l rt) (v : View PodAccount) : Prop :=
  ∀ e, v.core.secret = some e → ∃ cs, Token.Accrued rt R e cs

theorem View.Accrued.of_secret (h : v.Accrued rt R) (same : v'.core.secret = v.core.secret) :
    v'.Accrued rt R := fun e he => h e (same ▸ he)

theorem View.Accrued.update (h : v.Accrued rt R) (secret : v.core.secret = some e)
    (secret' : v'.core.secret = some e')
    (hstep : ∀ {cs}, Token.Accrued rt R e cs → ∃ cs', Token.Accrued rt R e' cs') :
    v'.Accrued rt R := by
  intro g hg
  obtain rfl := Option.some.inj (secret'.symm.trans hg)
  obtain ⟨cs, hcs⟩ := h e secret
  exact hstep hcs

theorem View.Accrued.kept (h : v.Accrued rt R) (secret : v.core.secret = some e)
    (secret' : v'.core.secret = some e') (kept : PendingKept e e') : v'.Accrued rt R :=
  h.update secret secret' fun hcs => ⟨_, hcs.kept kept⟩

theorem Effect.accrued (h : Effect rt c β k v v') (hv : v.Accrued rt R) : v'.Accrued rt R := by
  cases h with
  | quiet core | allowance _ _ _ _ core | owner _ _ _ _ core | closer _ _ core | state _ _ _ core
  | lock _ _ core | native _ _ _ core | harvest core | collect _ _ _ core | secretHarvest _ core =>
    exact hv.of_secret (congrArg Core.secret core :)
  | configure _ _ _ _ _ _ core =>
    intro e he
    obtain rfl := Option.some.inj ((congrArg Core.secret core).symm.trans he)
    exact ⟨[], .configured⟩
  | setting secret core =>
    exact hv.kept secret (congrArg Core.secret core :) ⟨rfl, rfl, rfl, rfl, rfl⟩
  | emptied secret proved update core =>
    exact hv.kept secret (congrArg Core.secret core :) (emptied_kept update)
  | apply _ secret endorsed update core =>
    exact hv.update secret (congrArg Core.secret core :) fun hcs => ⟨[], hcs.applied update⟩
  | secretCollect _ _ secret proved credit core =>
    exact hv.kept secret (congrArg Core.secret core :) (feeCredited_kept credit)

/-- A confidential transfer leaves the pending balance of its source, and is one credit to its
destination. -/
theorem SecretlyMoved.credit {m : View PodMint} {self : Bool}
    {g g' : ConfidentialTransferAccount} {y y' : Option ConfidentialTransferFeeAmount}
    (hR : R.Sound c.ctx c.σ) (h : SecretlyMoved rt c m self e e' g g' y y') :
    PendingKept e e' ∧ ∃ x, PendingCredit rt R c g g' x := by
  cases h with
  | plain free proved debit credit =>
    obtain ⟨a, b, hparts⟩ := verifyTransferProof_parts hR proved
    exact ⟨debited_kept debit,
      ⟨a, b, 0, 0, hparts.lo_lt, hparts.hi_lt, Nat.two_pow_pos _, Nat.two_pow_pos _⟩,
      .transfer proved credit hparts ⟨rfl, rfl⟩⟩
  | withFee config feeConfig proved key debit credit other withheld =>
    obtain ⟨o, ho⟩ := verifyTransferWithFeeProof_opens hR proved
    exact ⟨debited_kept debit,
      ⟨o.lo, o.hi, o.feeLo, o.feeHi, ho.destination.lo_lt, ho.destination.hi_lt, ho.fee.lo_lt,
        ho.fee.hi_lt⟩, .transferWithFee proved credit withheld ho.destination ho.fee⟩
  | selfWithFee config proved debit credit itself =>
    obtain ⟨o, ho⟩ := verifyTransferWithFeeProof_opens hR proved
    exact ⟨debited_kept debit,
      ⟨o.lo, o.hi, 0, 0, ho.destination.lo_lt, ho.destination.hi_lt, Nat.two_pow_pos _,
        Nat.two_pow_pos _⟩, .transferToSelf proved credit ho.destination ⟨rfl, rfl⟩⟩

theorem deposited_credit {amount : UInt64} (h : deposited rt amount e = .ok e') :
    ∃ x, PendingCredit rt R c e e' x := by
  have hsplit : amount.toNat ≤ maximumDepositTransferAmount := by
    simp only [deposited, verifyAndSplitDepositAmount, bind_eq_ok, exists_unit, failIf_eq_ok,
      decide_eq_false_iff_not, not_lt, gt_iff_lt] at h
    obtain ⟨_, _, ⟨hle, _⟩, _⟩ := h
    exact hle
  rw [maximumDepositTransferAmount] at hsplit
  exact ⟨⟨_, _, 0, 0, Nat.mod_lt amount.toNat (Nat.two_pow_pos 16), by omega, Nat.two_pow_pos _,
    Nat.two_pow_pos _⟩, .deposit h rfl rfl ⟨rfl, rfl⟩⟩

theorem Exchange.accrued (hR : R.Sound c.ctx c.σ) (h : Exchange rt c v v')
    (hv : v.Accrued rt R) : v'.Accrued rt R := by
  cases h with
  | sent _ _ _ _ _ core | received _ _ _ core | burned _ _ _ _ _ _ core | minted _ _ _ core =>
    exact hv.of_secret (congrArg Core.secret core :)
  | deposited _ _ _ _ _ secret credit core =>
    obtain ⟨x, hx⟩ := deposited_credit (R := R) (c := c) credit
    exact hv.update secret (congrArg Core.secret core :) fun hcs => ⟨_, hcs.credited hR hx⟩
  | withdrawn _ _ _ _ _ secret proved debit core =>
    exact hv.kept secret (congrArg Core.secret core :) (withdrawn_kept debit)
  | secretSent _ _ _ _ secret moved core =>
    exact hv.kept secret (congrArg Core.secret core :) (moved.credit hR).1
  | secretReceived _ secret moved core =>
    obtain ⟨_, x, hx⟩ := moved.credit hR
    exact hv.update secret (congrArg Core.secret core :) fun hcs => ⟨_, hcs.credited hR hx⟩
  | secretReturned _ _ _ _ secret moved core =>
    obtain ⟨hkept, x, hx⟩ := moved.credit hR
    exact hv.update secret (congrArg Core.secret core :) fun hcs =>
      ⟨_, (hcs.kept hkept).credited hR hx⟩
  | secretMinted _ secret proved credit core =>
    obtain ⟨a, b, hparts⟩ := verifyMintProof_parts hR proved
    refine hv.update secret (congrArg Core.secret core :) fun hcs => ⟨_, hcs.credited hR
      (x := ⟨a, b, 0, 0, hparts.lo_lt, hparts.hi_lt, Nat.two_pow_pos _, Nat.two_pow_pos _⟩) ?_⟩
    exact .mint proved credit hparts ⟨rfl, rfl⟩
  | secretBurned _ _ _ secret proved debit core =>
    exact hv.kept secret (congrArg Core.secret core :) (burnedFrom_kept debit)

/-- In every run all accounts have come about in this way. -/
theorem Reachable.accrued {σ : Ledger} (h : Reachable rt (fun c => R.Sound c.ctx c.σ) σ)
    (held : σ.book.Account k v) (secret : v.core.secret = some e) :
    ∃ cs, Accrued rt R e cs := by
  have hlink : Link rt (fun c => R.Sound c.ctx c.σ) fun v _ => v.Accrued rt R := by
    refine .of_account ?_ (fun _ heffect hv => heffect.accrued hv)
      (fun hR hexchange hv => hexchange.accrued hR hv) fun {v} hv => ?_
    · intro c β k v _ hopen e he
      cases hopen with
      | openAccount _ _ _ _ core =>
        have hnone := (congrArg Core.secret core).symm.trans he
        cases hnone
    · exact hv.of_secret (congrArg Core.secret (v.core_flag false) :)
  exact hlink.reachable h k v held e secret

end Runs

end Accounts

/-! ## What the owner reads -/

section Reads

variable {l : ℕ} {rt : Runtime} {P : Type} [AddCommGroup P] [Module (ZMod l) P]
  {C : Curve rt (ZMod l) P} {R : Reading l rt} {D : C.Decryption} {s : ZMod l}
  {e : ConfidentialTransferAccount} {cs : List Credit}

theorem val_intCast_lt_iff [NeZero l] (hl : 2 ^ 64 ≤ l) {z : ℤ} (hz : |z| ≤ 2 ^ 48) :
    ((z : ℤ) : ZMod l).val < 2 ^ 32 ↔ 0 ≤ z ∧ z < 2 ^ 32 := by
  rw [abs_le] at hz
  constructor
  · intro hlt
    have heq := eq_of_cast_eq hl hlt (by omega) (by omega) (ZMod.natCast_zmod_val _)
    omega
  · rintro ⟨hlo, hhi⟩
    obtain ⟨n, rfl⟩ := Int.eq_ofNat_of_zero_le hlo
    rw [Int.cast_natCast, ZMod.val_natCast_of_lt (by omega)]
    omega

/-- One search, through the bytes that are stored. -/
theorem decrypted_eq_ok (hl : 2 ^ 64 ≤ l) {key : PodElGamalPubkey} (reads : C.Reads R s key)
    {p : PodElGamalCiphertext} (encoded : C.Encoded p) {z : ℤ} (hz : |z| ≤ 2 ^ 48)
    (hp : R.pt key p = ((z : ℤ) : ZMod l)) (x : UInt64) :
    (do let c ← okOr TokenError.malformedCiphertext (D.tryFrom p)
        okOr TokenError.accountDecryption (D.decryptU32 s c) : Result UInt64) = .ok x ↔
      (x.toNat : ℤ) = z ∧ z < 2 ^ 32 := by
  obtain ⟨c, rfl⟩ := encoded
  have hdecrypts := reads c
  rw [hp] at hdecrypts
  rw [abs_le] at hz
  simp only [bind_eq_ok, okOr_eq_ok, D.tryFrom_pod, Option.some.injEq, exists_eq_left']
  rw [D.decryptU32_eq_some_iff hl hdecrypts (by omega) (by omega)]
  omega

theorem combineBalances_eq_some {lo hi x : UInt64} (hhi : hi.toNat < 2 ^ 32) :
    ApplyPendingBalanceAccountInfo.combineBalances lo hi = some x ↔
      x.toNat = lo.toNat + 2 ^ 16 * hi.toNat := by
  have hplaces : (16 : UInt64).toNat % 64 = 16 := by decide
  have hshift : (hi <<< 16).toNat = 2 ^ 16 * hi.toNat := by
    rw [UInt64.toNat_shiftLeft, hplaces, Nat.shiftLeft_eq, Nat.mul_comm]
    exact Nat.mod_eq_of_lt (by omega)
  rw [ApplyPendingBalanceAccountInfo.combineBalances, checkedAdd_eq_some, hshift, Nat.add_comm]

/-- What the owner reads can be added to its figure. -/
theorem exists_newDecryptable {aes : AeKey} {x y : UInt64}
    (read : (ApplyPendingBalanceAccountInfo.new e).getPendingBalance D s = .ok x)
    (figure : aes.decrypt e.decryptableAvailableBalance = some y)
    (hsum : y.toNat + x.toNat < 2 ^ 64) (nonce : Bytes) :
    ∃ b, (ApplyPendingBalanceAccountInfo.new e).newDecryptableAvailableBalance D s aes nonce =
      .ok b := by
  simp only [ApplyPendingBalanceAccountInfo.getPendingBalance, bind_eq_ok, okOr_eq_ok] at read
  obtain ⟨lo, hlo, hi, hhi, hcombined⟩ := read
  have hadd : checkedAdd y x = some (UInt64.ofNat (y.toNat + x.toNat)) := by
    rw [checkedAdd_eq_some]
    exact UInt64.toNat_ofNat_of_lt' hsum
  have hfigure : (ApplyPendingBalanceAccountInfo.new e).decryptedAvailableBalance aes = .ok y :=
    okOr_eq_ok.mpr figure
  simp only [ApplyPendingBalanceAccountInfo.newDecryptableAvailableBalance, bind_eq_ok, okOr_eq_ok,
    pure_eq_ok]
  exact ⟨_, lo, hlo, hi, hhi, x, hcombined, y, hfigure, _, hadd, rfl⟩

namespace PendingState

variable (hl : 2 ^ 64 ≤ l) (h : PendingState C R e cs) (hlen : cs.length ≤ 65536)
include hl h hlen

theorem low_lt [NeZero l] : (R.pt e.elgamalPubkey e.pendingBalanceLo).val < 2 ^ 32 ↔
    0 ≤ lowSum cs := by
  obtain ⟨hlow, _⟩ := abs_sums_le hlen
  rw [h.lo, val_intCast_lt_iff hl (by omega)]
  rw [abs_lt] at hlow
  omega

theorem high_lt [NeZero l] : (R.pt e.elgamalPubkey e.pendingBalanceHi).val < 2 ^ 32 ↔
    0 ≤ highSum cs ∧ highSum cs < 2 ^ 32 := by
  obtain ⟨_, hhigh⟩ := abs_sums_le hlen
  rw [h.hi, val_intCast_lt_iff hl hhigh]

variable (reads : C.Reads R s e.elgamalPubkey)
include reads

theorem decryptedPendingBalanceLo_eq_ok (x : UInt64) :
    (ApplyPendingBalanceAccountInfo.new e).decryptedPendingBalanceLo D s = .ok x ↔
      (x.toNat : ℤ) = lowSum cs := by
  obtain ⟨hlow, _⟩ := abs_sums_le hlen
  refine (decrypted_eq_ok hl reads h.encodedLo (by omega) h.lo x).trans ?_
  rw [abs_lt] at hlow
  omega

theorem decryptedPendingBalanceHi_eq_ok (x : UInt64) :
    (ApplyPendingBalanceAccountInfo.new e).decryptedPendingBalanceHi D s = .ok x ↔
      (x.toNat : ℤ) = highSum cs ∧ highSum cs < 2 ^ 32 := by
  obtain ⟨_, hhigh⟩ := abs_sums_le hlen
  exact decrypted_eq_ok hl reads h.encodedHi hhigh h.hi x

/-- The owner reads what was credited, if it fits, and nothing otherwise. -/
theorem getPendingBalance_eq_ok (x : UInt64) :
    (ApplyPendingBalanceAccountInfo.new e).getPendingBalance D s = .ok x ↔
      Fits cs ∧ (x.toNat : ℤ) = (cs.map Credit.amount).sum := by
  have hlo := h.decryptedPendingBalanceLo_eq_ok (D := D) hl hlen reads
  have hhi := h.decryptedPendingBalanceHi_eq_ok (D := D) hl hlen reads
  simp only [ApplyPendingBalanceAccountInfo.getPendingBalance, bind_eq_ok, okOr_eq_ok, hlo, hhi,
    sum_amount]
  constructor
  · rintro ⟨a, ha, b, ⟨hb, hlt⟩, hsum⟩
    rw [combineBalances_eq_some (by omega)] at hsum
    exact ⟨⟨by omega, by omega, hlt⟩, by omega⟩
  · rintro ⟨⟨hlow, hhigh, hlt⟩, hsum⟩
    obtain ⟨hlowLt, _⟩ := abs_sums_le hlen
    rw [abs_lt] at hlowLt
    obtain ⟨a, ha⟩ := Int.eq_ofNat_of_zero_le hlow
    obtain ⟨b, hb⟩ := Int.eq_ofNat_of_zero_le hhigh
    have hwordLo : (UInt64.ofNat a).toNat = a :=
      UInt64.toNat_ofNat_of_lt' (show a < 2 ^ 64 by omega)
    have hwordHi : (UInt64.ofNat b).toNat = b :=
      UInt64.toNat_ofNat_of_lt' (show b < 2 ^ 64 by omega)
    refine ⟨UInt64.ofNat a, by omega, UInt64.ofNat b, ⟨by omega, hlt⟩, ?_⟩
    rw [combineBalances_eq_some (by omega), hwordLo, hwordHi]
    omega

end PendingState

/-- What an account hides is a number, as long as its mint is not closed. -/
theorem Reachable.hidden_lt [NeZero l] {σ : Ledger} {k : Pubkey} {v : View PodAccount}
    (hl : 2 ^ 65 - 1 ≤ l)
    (h : Reachable rt (fun c => ¬ c.Closes v.base.mint ∧ R.Sound c.ctx c.σ) σ)
    (held : σ.book.Account k v) (secret : v.core.secret = some e) :
    (R.pending e).val + (R.available e).val < 2 ^ 64 := by
  have hlink : Link rt (fun c => ¬ c.Closes v.base.mint ∧ R.Sound c.ctx c.σ)
      (Veiled v.base.mint) := link_veiled fun _ hc => hc.1
  have hveiled := hlink.reachable h k v held rfl
  obtain ⟨m, hm, hsome⟩ := hveiled (by rw [secret]; exact Option.some_ne_none e)
  obtain ⟨f, hf⟩ := σ.book.exists_feeKey v.base.mint
  have hwhole := h.whole hl hm (h.wf.mint_get_isSome hm rfl hsome) (hf m hm)
  have hlt := hwhole.holding_lt (Book.holding_register held rfl)
  rw [Core.whole_eq, secret] at hlt
  simp only [Option.map_some, Option.getD_some] at hlt
  omega

/-- Sums that fit are what the pending balance hides. -/
theorem PendingState.pending_val [NeZero l] (hl : 2 ^ 64 ≤ l) (h : PendingState C R e cs)
    (fits : Fits cs) (hlen : cs.length ≤ 65536) :
    ((R.pending e).val : ℤ) = (cs.map Credit.amount).sum := by
  obtain ⟨hlow, _⟩ := abs_sums_le hlen
  have hhigh := fits.high
  have hhighLt := fits.high_lt
  rw [abs_lt] at hlow
  rw [sum_amount]
  have hnonneg := fits.low
  obtain ⟨n, hn⟩ := Int.eq_ofNat_of_zero_le
    (show 0 ≤ lowSum cs + 2 ^ 16 * highSum cs by omega)
  have hpending : R.pending e = (n : ZMod l) := by
    rw [Reading.pending, h.lo, h.hi, ← Int.cast_natCast, ← hn]
    push_cast
    ring
  rw [hpending, ZMod.val_natCast_of_lt (by omega), hn]

end Reads

/-! ## Maximal deposits

A mint at `1` and an account at `2`, to which all that one deposit may carry is deposited
once, and twice. -/

section Maximal

def pendingSteps : List (List ProofInstruction × List AccountInfo × Instruction) :=
  [([], [⟨1, false⟩], .initializeConfidentialTransferMint ⟨0⟩ (.ofBool true) ⟨0⟩),
   ([], [⟨1, false⟩], .initializeMint2 6 5 none),
   ([], [⟨2, false⟩, ⟨1, false⟩], .initializeAccount3 7),
   ([.verifying .pubkeyValidity (⟨openAccountKey⟩ : PubkeyValidityProofContext)],
    [⟨2, false⟩, ⟨1, false⟩, ⟨Keys.instructionsSysvar, false⟩, ⟨7, true⟩],
    .configureAccount 0 65536 1),
   ([], [⟨1, false⟩, ⟨2, false⟩, ⟨5, true⟩], .mintTo 1000000000000000)]

def maximalDeposit : List ProofInstruction × List AccountInfo × Instruction :=
  ([], [⟨2, false⟩, ⟨1, false⟩, ⟨7, true⟩], .deposit 281474976710655 6)

/-- The account at `2`. -/
def openPending (lo hi : ℕ) (n : UInt64) : ConfidentialTransferAccount :=
  { configuredAccount (.ofBool true) openAccountKey 0 65536 with
    pendingBalanceLo := openPod lo
    pendingBalanceHi := openPod hi
    pendingBalanceCreditCounter := n }

theorem maximal_lo_lt : 65535 < 2 ^ 16 := by decide

theorem maximal_hi_lt : 4294967295 < 2 ^ 32 := by decide

def maximal : Credit :=
  ⟨65535, 4294967295, 0, 0, maximal_lo_lt, maximal_hi_lt, Nat.two_pow_pos _, Nat.two_pow_pos _⟩

theorem honest_pendingSteps {n : ℕ} :
    ∀ p ∈ pendingSteps ++ List.replicate n maximalDeposit, openReading.HonestStep p := by
  intro p hp
  rw [List.mem_append, List.mem_replicate] at hp
  simp only [pendingSteps, List.mem_cons, List.not_mem_nil, or_false] at hp
  rcases hp with (rfl | rfl | rfl | rfl | rfl) | ⟨_, rfl⟩
  · exact ⟨Instruction.noConfusion, by simp⟩
  · exact ⟨Instruction.noConfusion, by simp⟩
  · exact ⟨Instruction.noConfusion, by simp⟩
  · refine ⟨Instruction.noConfusion, fun q hq => ?_⟩
    obtain rfl := List.mem_singleton.mp hq
    exact Reading.honest_verifying trivial
  · exact ⟨Instruction.noConfusion, by simp⟩
  · exact ⟨Instruction.noConfusion, by simp [maximalDeposit]⟩

/-- The script runs, and leaves these balances in the account. -/
def PendingRuns (n : ℕ) (e : ConfidentialTransferAccount) : Prop :=
  (honestScript (.modular ristrettoOrder) (pendingSteps ++ List.replicate n maximalDeposit)
    (blank [(1, 235), (2, 465)])).any (fun σ => σ.checksAccount 2 fun v =>
      decide (v.core.secret = some e ∧ v.base.mint = 1)) = true

theorem PendingRuns.reachable {n : ℕ} {e : ConfidentialTransferAccount} (h : PendingRuns n e) :
    ∃ σ v, Reachable (.modular ristrettoOrder)
        (fun c => ¬ c.Closes v.base.mint ∧ openReading.Sound c.ctx c.σ) σ ∧
      σ.book.Account 2 v ∧ v.core.secret = some e := by
  obtain ⟨hreach, _, hchecks⟩ := Reachable.honest_sound (M := 1) (by decide) honest_pendingSteps h
  obtain ⟨v, held, hv⟩ := exists_of_checksAccount hchecks
  obtain ⟨secret, hmint⟩ := of_decide_eq_true hv
  exact ⟨_, v, hmint ▸ hreach, held, secret⟩

theorem once_runs : PendingRuns 1 (openPending 65535 4294967295 1) := by
  rw [PendingRuns]
  decide +kernel

theorem twice_runs : PendingRuns 2 (openPending 131070 8589934590 2) := by
  rw [PendingRuns]
  decide +kernel

theorem maximal_deposited {e e' : ConfidentialTransferAccount} {cs : List Credit}
    (h : Accrued (.modular ristrettoOrder) openReading e cs)
    (credit : toOption (deposited (.modular ristrettoOrder) 281474976710655 e) = some e') :
    Accrued (.modular ristrettoOrder) openReading e' (cs ++ [maximal]) := by
  have hsound : openReading.Sound (.showing []) (blank []) :=
    Reading.sound_of_honest (by simp) (Ledger.unproved_blank [])
  exact h.credited (c := ⟨.showing [], [], maximalDeposit.2.2, blank []⟩) hsound
    (.deposit (toOption_eq_some.mp credit) (by decide) (by decide) ⟨rfl, rfl⟩)

theorem maximal_once : Accrued (.modular ristrettoOrder) openReading
    (openPending 65535 4294967295 1) [maximal] :=
  maximal_deposited (e := configuredAccount (.ofBool true) openAccountKey 0 65536) .configured
    (by decide +kernel)

theorem maximal_twice : Accrued (.modular ristrettoOrder) openReading
    (openPending 131070 8589934590 2) [maximal, maximal] :=
  maximal_deposited maximal_once (by decide +kernel)

end Maximal

/-- The owner reads what was credited to its pending balance, and can apply it, exactly as long
as the lower and the upper parts that were credited, less those of the fees, each add up to a
number of 32 bits. -/
theorem pending_balance_decrypts {l : ℕ} [NeZero l] {rt : Runtime} {P : Type} [AddCommGroup P]
    [Module (ZMod l) P] {C : Curve rt (ZMod l) P} {R : Reading l rt} {D : C.Decryption}
    {aes : AeKey} {σ : Ledger} {k : Pubkey} {v : View PodAccount} {e : ConfidentialTransferAccount}
    {s : ZMod l} (hl : 2 ^ 65 - 1 ≤ l) (hC : C.Encodes)
    (h : Reachable rt (fun c => R.Sound c.ctx c.σ) σ) (held : σ.book.Account k v)
    (secret : v.core.secret = some e)
    (maximum : e.maximumPendingBalanceCreditCounter.toNat ≤ 65536)
    (reads : C.Reads R s e.elgamalPubkey) :
    (∃ cs, Accrued rt R e cs) ∧ ∀ cs, Accrued rt R e cs →
      ((R.pt e.elgamalPubkey e.pendingBalanceLo).val < 2 ^ 32 ∧
        (R.pt e.elgamalPubkey e.pendingBalanceHi).val < 2 ^ 32 ∧
        (∃ x, (ApplyPendingBalanceAccountInfo.new e).getPendingBalance D s = .ok x ∧
          (x.toNat : ℤ) = (cs.map Credit.amount).sum) ∧
        (∀ y nonce, aes.decrypt e.decryptableAvailableBalance = some y →
          y.toNat = (R.available e).val →
          Reachable rt (fun c => ¬ c.Closes v.base.mint ∧ R.Sound c.ctx c.σ) σ →
          ∃ b, (ApplyPendingBalanceAccountInfo.new e).newDecryptableAvailableBalance D s aes nonce =
            .ok b) ↔
      Fits cs) := by
  refine ⟨h.accrued held secret, fun cs hcs => ?_⟩
  have hstate : PendingState C R e cs := hcs.state hC
  have hlen : cs.length ≤ 65536 := hstate.bounded.trans maximum
  have hword : 2 ^ 64 ≤ l := by omega
  have hread := hstate.getPendingBalance_eq_ok (D := D) hword hlen reads
  rw [hstate.low_lt hword hlen, hstate.high_lt hword hlen]
  constructor
  · rintro ⟨hlow, ⟨hhigh, hhighLt⟩, _⟩
    exact ⟨hlow, hhigh, hhighLt⟩
  · intro fits
    have hval := hstate.pending_val hword fits hlen
    have hlow := (abs_lt.mp (abs_sums_le hlen).1).2
    have hhigh := fits.high_lt
    have hsum := sum_amount cs
    have hx : (UInt64.ofNat (R.pending e).val).toNat = (R.pending e).val :=
      UInt64.toNat_ofNat_of_lt' (show (R.pending e).val < 2 ^ 64 by omega)
    have hok := (hread (UInt64.ofNat (R.pending e).val)).mpr ⟨fits, by rw [hx, hval]⟩
    refine ⟨fits.low, ⟨fits.high, hhigh⟩, ⟨_, hok, by rw [hx, hval]⟩,
      fun y nonce figure right hreach => ?_⟩
    have hlt := hreach.hidden_lt hl held secret
    exact exists_newDecryptable hok figure (by rw [hx, right]; omega) nonce

theorem pending_balance_decrypts_once : ∃ σ v,
    Reachable (.modular ristrettoOrder)
      (fun c => ¬ c.Closes v.base.mint ∧ openReading.Sound c.ctx c.σ) σ ∧
    σ.book.Account 2 v ∧ v.core.secret = some (openPending 65535 4294967295 1) ∧
    (ApplyPendingBalanceAccountInfo.new (openPending 65535 4294967295 1)).getPendingBalance
      openDecryption 0 = .ok 281474976710655 ∧
    ∀ nonce, ∃ b, (ApplyPendingBalanceAccountInfo.new
      (openPending 65535 4294967295 1)).newDecryptableAvailableBalance openDecryption 0 .plain
        nonce = .ok b := by
  obtain ⟨σ, v, hreach, held, secret⟩ := once_runs.reachable
  have hreads : openCurve.Reads openReading 0 openAccountKey :=
    Curve.modular_reads one_lt_ristrettoOrder ristrettoOrder_le 0 _
  obtain ⟨_, _, ⟨x, hx, hsum⟩, happly⟩ := ((pending_balance_decrypts (D := openDecryption)
    le_ristrettoOrder openCurve_encodes (hreach.mono fun _ hc => hc.2) held secret (by decide)
    hreads).2 _ maximal_once).mpr ⟨by decide, by decide, by decide⟩
  have hvalue : x = 281474976710655 := by
    rw [← UInt64.toNat_inj]
    have hamount : (([maximal].map Credit.amount).sum : ℤ) = 281474976710655 := by decide
    rw [hamount] at hsum
    exact_mod_cast hsum
  refine ⟨σ, v, hreach, held, secret, hvalue ▸ hx, fun nonce => ?_⟩
  exact happly 0 nonce (by decide +kernel) (by decide +kernel) hreach

/-- Two deposits of the largest amount, of 65536 that the counter allows, and nothing of them can
be read. -/
theorem pending_balance_unreadable : ∃ σ v,
    Reachable (.modular ristrettoOrder)
      (fun c => ¬ c.Closes v.base.mint ∧ openReading.Sound c.ctx c.σ) σ ∧
    σ.book.Account 2 v ∧ v.core.secret = some (openPending 131070 8589934590 2) ∧
    (openPending 131070 8589934590 2).maximumPendingBalanceCreditCounter = 65536 ∧
    openCurve.Reads openReading 0 (openPending 131070 8589934590 2).elgamalPubkey ∧
    Accrued (.modular ristrettoOrder) openReading (openPending 131070 8589934590 2)
      [maximal, maximal] ∧
    (openReading.pt openAccountKey
      (openPending 131070 8589934590 2).pendingBalanceHi).val = 8589934590 ∧
    (ApplyPendingBalanceAccountInfo.new (openPending 131070 8589934590 2)).getPendingBalance
      openDecryption 0 = .error TokenError.accountDecryption ∧
    ∀ nonce, (ApplyPendingBalanceAccountInfo.new
      (openPending 131070 8589934590 2)).newDecryptableAvailableBalance openDecryption 0 .plain
        nonce = .error TokenError.accountDecryption := by
  obtain ⟨σ, v, hreach, held, secret⟩ := twice_runs.reachable
  have hreads : openCurve.Reads openReading 0 openAccountKey :=
    Curve.modular_reads one_lt_ristrettoOrder ristrettoOrder_le 0 _
  have hlo : (ApplyPendingBalanceAccountInfo.new
      (openPending 131070 8589934590 2)).decryptedPendingBalanceLo openDecryption 0 =
        .ok 131070 := by
    rw [← toOption_eq_some]
    decide +kernel
  have hhi : (ApplyPendingBalanceAccountInfo.new
      (openPending 131070 8589934590 2)).decryptedPendingBalanceHi openDecryption 0 =
        .error TokenError.accountDecryption := by
    rfl
  refine ⟨σ, v, hreach, held, secret, rfl, hreads, maximal_twice, ?_, ?_, fun nonce => ?_⟩
  · rw [openPending, openReading_pt]
    decide +kernel
  · rw [ApplyPendingBalanceAccountInfo.getPendingBalance, hlo, hhi]
    rfl
  · rw [ApplyPendingBalanceAccountInfo.newDecryptableAvailableBalance, hlo, hhi]
    rfl

end SolanaEasy.Token
