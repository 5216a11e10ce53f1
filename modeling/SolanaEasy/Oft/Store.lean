import SolanaEasy.Oft.Message
import SolanaEasy.Token.Processor.Transfer

/-!
# Store — amounts, dust and fees

`OFTStore` of `state/oft.rs` and the amounts of `quote_send.rs`. Local decimals are the
mint's, shared decimals those of the message; what does not divide by the rate between
them is dust. Of a mint with a transfer fee the escrow receives less than is sent, so the
amount sent is worked back from the one that is to arrive.
-/

namespace SolanaEasy.Oft

open Token (Pubkey Ledger PodMint PodState TransferFee TransferFeeConfig load)

/-! ## Why an instruction fails -/

/-- An error of the program, an account that is not what `#[account(..)]` asks for, or the
error of another program or crate. -/
inductive Failure where
  | oft (e : OFTError)
  | constraint
  | invoked (e : Token.ProgramError)
deriving DecidableEq

instance : Coe OFTError Failure := ⟨.oft⟩

abbrev Outcome := Except Failure

/-- `?` on an error of the program. -/
def own {α : Type} (x : Result α) : Outcome α := x.mapError .oft

/-- `?` on an error of the token program or of its interface. -/
def invoke {α : Type} (x : Token.Result α) : Outcome α := x.mapError .invoked

@[simp] theorem own_eq_ok {α : Type} {x : Result α} {a : α} : own x = .ok a ↔ x = .ok a := by
  cases x with
  | error e => simp [own, Except.mapError]
  | ok b => simp [own, Except.mapError]

@[simp] theorem invoke_eq_ok {α : Type} {x : Token.Result α} {a : α} :
    invoke x = .ok a ↔ x = .ok a := by
  cases x with
  | error e => simp [invoke, Except.mapError]
  | ok b => simp [invoke, Except.mapError]

theorem own_ne_oft {α : Type} {x : Result α} {e : OFTError} (h : x ≠ .error e) :
    own x ≠ .error (.oft e) := by
  cases x with
  | error e' => simpa [own, Except.mapError] using h
  | ok b => simp [own, Except.mapError]

theorem invoke_ne_oft {α : Type} (x : Token.Result α) (e : OFTError) :
    invoke x ≠ .error (.oft e) := by
  cases x with
  | error e => simp [invoke, Except.mapError]
  | ok b => simp [invoke, Except.mapError]

/-! ## Arithmetic that panics -/

/-- `+`, compiled with overflow checks. -/
def plus (a b : UInt64) : Result UInt64 := okOr .panic (Token.checkedAdd a b)

/-- `-`. -/
def minus (a b : UInt64) : Result UInt64 := okOr .panic (Token.checkedSub a b)

/-- `*`. -/
def times (a b : UInt64) : Result UInt64 :=
  if a.toNat * b.toNat < 2 ^ 64 then .ok (a * b) else .error .panic

/-- `10u64.pow(n)`. -/
def pow10 (n : Nat) : Result UInt64 :=
  if 10 ^ n < 2 ^ 64 then .ok (UInt64.ofNat (10 ^ n)) else .error .panic

section Arithmetic

variable {a b c : UInt64}

theorem plus_eq_ok : plus a b = .ok c ↔ c.toNat = a.toNat + b.toNat := by
  rw [plus, okOr_eq_ok, Token.checkedAdd_eq_some, eq_comm]

theorem minus_eq_ok : minus a b = .ok c ↔ c.toNat + b.toNat = a.toNat := by
  rw [minus, okOr_eq_ok, Token.checkedSub_eq_some]

theorem minus_ne_panic (h : b.toNat ≤ a.toNat) : minus a b ≠ .error .panic := by
  rw [minus, Token.checkedSub, if_pos h]
  intro h
  cases h

theorem times_eq_ok : times a b = .ok c ↔ c.toNat = a.toNat * b.toNat := by
  rw [times]
  split
  · rename_i hfits
    have hprod : (a * b).toNat = a.toNat * b.toNat := by
      rw [UInt64.toNat_mul]
      exact Nat.mod_eq_of_lt hfits
    rw [Except.ok.injEq, ← UInt64.toNat_inj, hprod, eq_comm]
  · rename_i hfits
    have hlt := c.toNat_lt
    constructor
    · intro h
      cases h
    · intro h
      omega

theorem pow10_pos {n : Nat} (h : pow10 n = .ok c) : 0 < c := by
  rw [pow10] at h
  split at h
  · rename_i hfits
    obtain rfl := Except.ok.inj h
    rw [UInt64.lt_iff_toNat_lt, UInt64.toNat_ofNat', Nat.mod_eq_of_lt hfits]
    exact Nat.pow_pos (by decide)
  · cases h

end Arithmetic

/-! ## The store -/

inductive OFTType where
  | native
  | adapter
deriving DecidableEq

/-- `OFTStore`. The rate is a power of ten. -/
structure OFTStore where
  oftType : OFTType
  ld2sdRate : UInt64
  tokenMint : Pubkey
  tokenEscrow : Pubkey
  tvlLd : UInt64
  admin : Pubkey
  defaultFeeBps : UInt16
  paused : Bool
  pauser : Option Pubkey
  unpauser : Option Pubkey
  rate_pos : 0 < ld2sdRate

namespace OFTStore

variable (s : OFTStore)

def ld2sd (amountLd : UInt64) : UInt64 := amountLd / s.ld2sdRate

def sd2ld (amountSd : UInt64) : Result UInt64 := times amountSd s.ld2sdRate

def removeDust (amountLd : UInt64) : UInt64 := amountLd - amountLd % s.ld2sdRate

variable {s}

theorem toNat_removeDust (x : UInt64) :
    (s.removeDust x).toNat = x.toNat / s.ld2sdRate.toNat * s.ld2sdRate.toNat := by
  have hle : x % s.ld2sdRate ≤ x := by
    rw [UInt64.le_iff_toNat_le, UInt64.toNat_mod]
    exact Nat.mod_le _ _
  rw [removeDust, UInt64.toNat_sub_of_le _ _ hle, UInt64.toNat_mod]
  have hsplit := Nat.div_add_mod' x.toNat s.ld2sdRate.toNat
  omega

theorem rate_dvd_removeDust (x : UInt64) : s.ld2sdRate.toNat ∣ (s.removeDust x).toNat := by
  rw [toNat_removeDust]
  exact Nat.dvd_mul_left _ _

/-- An amount without dust survives the conversion to shared decimals. -/
theorem ld2sd_mul {x : UInt64} (h : s.ld2sdRate.toNat ∣ x.toNat) :
    (s.ld2sd x).toNat * s.ld2sdRate.toNat = x.toNat := by
  rw [ld2sd, UInt64.toNat_div]
  exact Nat.div_mul_cancel h

end OFTStore

/-! ## Fees -/

def maxFeeBasisPoints : Nat := 10000

/-- `calculate_fee` of the program: its own fee, rounded down. -/
def calculateFee (preFeeAmount : UInt64) (defaultFeeBps : UInt16) (feeBps : Option UInt16) :
    UInt64 :=
  let finalFeeBps := (feeBps.getD defaultFeeBps).toNat
  if finalFeeBps == 0 || preFeeAmount == 0 then 0
  else UInt64.ofNat (preFeeAmount.toNat * finalFeeBps / maxFeeBasisPoints)

/-- `TransferFee::calculate_post_fee_amount` of the token interface. -/
def calculatePostFeeAmount (fee : TransferFee) (preFeeAmount : UInt64) : Option UInt64 := do
  Token.checkedSub preFeeAmount (← fee.calculateFee preFeeAmount)

/-- `calculate_pre_fee_amount`, copied into the program from a fixed interface. -/
def calculatePreFeeAmount (fee : TransferFee) (postFeeAmount : UInt64) : Option UInt64 :=
  let bps := fee.transferFeeBasisPoints.toNat
  if bps = 0 then some postFeeAmount
  else if postFeeAmount = 0 then some 0
  else if bps = maxFeeBasisPoints then Token.checkedAdd fee.maximumFee postFeeAmount
  else if bps < maxFeeBasisPoints then
    let raw := TransferFee.ceilDiv (postFeeAmount.toNat * maxFeeBasisPoints)
      (maxFeeBasisPoints - bps)
    if fee.maximumFee.toNat ≤ raw - postFeeAmount.toNat then
      Token.checkedAdd postFeeAmount fee.maximumFee
    else if raw < 2 ^ 64 then some (UInt64.ofNat raw) else none
  else none

/-- The transfer fee that a mint takes in the current epoch, if it takes one. -/
def epochFee (ctx : Token.Context) (σ : Ledger) (mint : Pubkey) : Outcome (Option TransferFee) := do
  let m ← invoke (load σ PodMint mint)
  return (toOption (m.getExtension TransferFeeConfig)).map (·.getEpochFee ctx.epoch)

def getPostFeeAmountLd (ctx : Token.Context) (σ : Ledger) (mint : Pubkey) (amountLd : UInt64) :
    Outcome UInt64 := do
  let fee ← epochFee ctx σ mint
  fee.elim (.ok amountLd) fun fee =>
    okOr (.invoked .invalidArgument) (calculatePostFeeAmount fee amountLd)

def getPreFeeAmountLd (ctx : Token.Context) (σ : Ledger) (mint : Pubkey) (amountLd : UInt64) :
    Outcome UInt64 := do
  let fee ← epochFee ctx σ mint
  fee.elim (.ok amountLd) fun fee =>
    okOr (.invoked .invalidArgument) (calculatePreFeeAmount fee amountLd)

/-- `compute_fee_and_adjust_amount`: what is sent, what is received on the other side, and
the fee of the program. -/
def computeFeeAndAdjustAmount (ctx : Token.Context) (σ : Ledger) (amountLd : UInt64)
    (s : OFTStore) (feeBps : Option UInt16) : Outcome (UInt64 × UInt64 × UInt64) :=
  match s.oftType with
  | .adapter => do
    let grossLd := s.removeDust (← getPostFeeAmountLd ctx σ s.tokenMint amountLd)
    let amountSentLd ← getPreFeeAmountLd ctx σ s.tokenMint grossLd
    let oftFeeLd := s.removeDust (calculateFee grossLd s.defaultFeeBps feeBps)
    let amountReceivedLd ← own (minus grossLd oftFeeLd)
    return (amountSentLd, amountReceivedLd, oftFeeLd)
  | .native => do
    let amountSentLd := s.removeDust amountLd
    let oftFeeLd := s.removeDust (calculateFee amountSentLd s.defaultFeeBps feeBps)
    let amountReceivedLd ← own (minus amountSentLd oftFeeLd)
    return (amountSentLd, amountReceivedLd, oftFeeLd)

/-! ## What arrives -/

section Arrives

variable {fee : TransferFee} {x y f : UInt64}

theorem calculateFee_le (h : fee.calculateFee y = some f) :
    f.toNat ≤ fee.maximumFee.toNat ∧
      f.toNat ≤ TransferFee.ceilDiv (y.toNat * fee.transferFeeBasisPoints.toNat)
        maxFeeBasisPoints := by
  rw [TransferFee.calculateFee] at h
  split at h
  · obtain rfl := Option.some.inj h
    exact ⟨Nat.zero_le _, Nat.zero_le _⟩
  · simp only at h
    split at h
    · rename_i hfits
      obtain rfl := Option.some.inj h
      rw [toNat_min, UInt64.toNat_ofNat', Nat.mod_eq_of_lt hfits]
      exact ⟨Nat.min_le_right _ _, Nat.min_le_left _ _⟩
    · cases h

/-- Taking the rounded-up fee off the rounded-up gross amount leaves the net amount. -/
theorem le_sub_ceilDiv {x bps : ℕ} (h : bps < maxFeeBasisPoints) :
    x + TransferFee.ceilDiv (TransferFee.ceilDiv (x * maxFeeBasisPoints)
        (maxFeeBasisPoints - bps) * bps) maxFeeBasisPoints ≤
      TransferFee.ceilDiv (x * maxFeeBasisPoints) (maxFeeBasisPoints - bps) := by
  set raw := TransferFee.ceilDiv (x * maxFeeBasisPoints) (maxFeeBasisPoints - bps) with hraw
  have hgross : x * maxFeeBasisPoints ≤ raw * (maxFeeBasisPoints - bps) :=
    TransferFee.le_ceilDiv_mul _ (Nat.sub_pos_of_lt h)
  have hx : x ≤ raw := by
    have hle := hgross.trans (Nat.mul_le_mul_left raw (Nat.sub_le _ _))
    exact Nat.le_of_mul_le_mul_right hle (by decide)
  have hfee : raw * bps ≤ (raw - x) * maxFeeBasisPoints := by
    rw [Nat.mul_sub] at hgross
    rw [Nat.sub_mul]
    have hpart : raw * bps ≤ raw * maxFeeBasisPoints := Nat.mul_le_mul_left raw h.le
    omega
  have hceil := TransferFee.ceilDiv_le (by decide) hfee
  omega

/-- What the token program withholds from the amount sent leaves at least the amount that
it was worked back from. -/
theorem calculatePreFeeAmount_covers (h : calculatePreFeeAmount fee x = some y)
    (hfee : fee.calculateFee y = some f) : x.toNat + f.toNat ≤ y.toNat := by
  obtain ⟨hmax, hceil⟩ := calculateFee_le hfee
  simp only [calculatePreFeeAmount] at h
  split at h
  · rename_i hzero
    obtain rfl := Option.some.inj h
    rw [hzero, Nat.mul_zero] at hceil
    exact Nat.add_le_add_left hceil x.toNat
  · split at h
    · rename_i hzero
      obtain rfl := Option.some.inj h
      rw [hzero]
      rw [show (0 : UInt64).toNat = 0 from rfl, Nat.zero_mul] at hceil
      exact Nat.add_le_add_left hceil 0
    · split at h
      · have hsum := Token.checkedAdd_eq_some.mp h
        omega
      · split at h
        · rename_i hbps
          split at h
          · have hsum := Token.checkedAdd_eq_some.mp h
            omega
          · split at h
            · rename_i hfits
              obtain rfl := Option.some.inj h
              rw [UInt64.toNat_ofNat', Nat.mod_eq_of_lt hfits] at hceil ⊢
              exact (Nat.add_le_add_left hceil x.toNat).trans (le_sub_ceilDiv hbps)
            · cases h
        · cases h

end Arrives

section Adjusted

variable {ctx : Token.Context} {σ : Ledger} {s : OFTStore} {x sent received oftFee : UInt64}
  {feeBps : Option UInt16}

/-- What an adapter sends covers what it reports as received, after the fee of the mint; and
no dust is reported. -/
theorem computeFeeAndAdjustAmount_ok (hadapter : s.oftType = .adapter)
    (h : computeFeeAndAdjustAmount ctx σ x s feeBps = .ok (sent, received, oftFee)) :
    s.ld2sdRate.toNat ∣ received.toNat ∧
    ∀ m, load σ PodMint s.tokenMint = .ok m →
      ∀ f, Token.Processor.calculatedFee ctx m sent = .ok f →
        received.toNat + f.toNat ≤ sent.toNat := by
  simp only [computeFeeAndAdjustAmount, hadapter, bind_eq_ok, own_eq_ok, pure_eq_ok,
    Prod.mk.injEq] at h
  obtain ⟨post, _, sent', hsent, received', hreceived, rfl, rfl, _⟩ := h
  have hsum := minus_eq_ok.mp hreceived
  refine ⟨?_, fun m hm f hf => ?_⟩
  · have hrest := Nat.dvd_sub (s.rate_dvd_removeDust post)
      (s.rate_dvd_removeDust (calculateFee (s.removeDust post) s.defaultFeeBps feeBps))
    rwa [← hsum, Nat.add_sub_cancel] at hrest
  · simp only [getPreFeeAmountLd, epochFee, bind_eq_ok, invoke_eq_ok, pure_eq_ok] at hsent
    obtain ⟨_, ⟨m', hm', rfl⟩, hsent⟩ := hsent
    obtain rfl := Except.ok.inj (hm'.symm.trans hm)
    rw [Token.Processor.calculatedFee] at hf
    cases hconfig : toOption (m'.getExtension TransferFeeConfig) with
    | none =>
      rw [hconfig] at hf hsent
      obtain rfl := Except.ok.inj hf
      obtain rfl := Except.ok.inj hsent
      rw [show (0 : UInt64).toNat = 0 from rfl]
      omega
    | some config =>
      rw [hconfig] at hf hsent
      have hcovers := calculatePreFeeAmount_covers (okOr_eq_ok.mp hsent) (okOr_eq_ok.mp hf)
      omega

end Adjusted

end SolanaEasy.Oft
