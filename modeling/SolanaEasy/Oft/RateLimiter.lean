import SolanaEasy.Lib.Bucket
import SolanaEasy.Token.State

/-!
# Rate limiter — the token bucket of a peer

`RateLimiter` of `oft/src/state/peer_config.rs`, with the update of
`set_peer_config.rs`. A method that changes the limiter and then returns an error
leaves the change behind, unless the instruction is rolled back.
-/

namespace SolanaEasy.Oft

/-- `OFTError`, with the panic of an `unwrap` or of an overflow. -/
inductive OFTError where
  | unauthorized
  | invalidSender
  | invalidDecimals
  | slippageExceeded
  | invalidTokenDest
  | rateLimitExceeded
  | invalidFee
  | invalidMintAuthority
  | paused
  | invalidArgument
  | panic
deriving DecidableEq

abbrev Result := Except OFTError

/-! ## Saturating arithmetic -/

/-- `u64::saturating_add`. -/
def saturatingAdd (a b : UInt64) : UInt64 := UInt64.ofNat (min (a.toNat + b.toNat) (2 ^ 64 - 1))

/-- `u64::saturating_mul`. -/
def saturatingMul (a b : UInt64) : UInt64 := UInt64.ofNat (min (a.toNat * b.toNat) (2 ^ 64 - 1))

theorem toNat_saturatingAdd (a b : UInt64) :
    (saturatingAdd a b).toNat = min (a.toNat + b.toNat) (2 ^ 64 - 1) := by
  rw [saturatingAdd, UInt64.toNat_ofNat']
  omega

theorem toNat_saturatingMul (a b : UInt64) :
    (saturatingMul a b).toNat = min (a.toNat * b.toNat) (2 ^ 64 - 1) := by
  rw [saturatingMul, UInt64.toNat_ofNat']
  omega

theorem toNat_min (a b : UInt64) : (min a b).toNat = min a.toNat b.toNat := by
  show (if a ≤ b then a else b).toNat = _
  split
  · rename_i h
    exact (Nat.min_eq_left (UInt64.le_iff_toNat_le.mp h)).symm
  · rename_i h
    rw [UInt64.le_iff_toNat_le] at h
    omega

/-! ## The limiter -/

structure RateLimiter where
  capacity : UInt64
  tokens : UInt64
  refillPerSecond : UInt64
  lastRefillTime : UInt64
deriving DecidableEq, Inhabited

/-- `Clock::get()?.unix_timestamp.try_into().unwrap()`. -/
def currentTime (clock : Int64) : Result UInt64 :=
  if clock < 0 then .error .panic else .ok clock.toUInt64

namespace RateLimiter

variable (r : RateLimiter) (clock : Int64)

def refill (extraTokens : UInt64) : Result RateLimiter := do
  let currentTime ← currentTime clock
  let newTokens :=
    if currentTime > r.lastRefillTime then
      saturatingAdd extraTokens
        (saturatingMul (currentTime - r.lastRefillTime) r.refillPerSecond)
    else extraTokens
  return { r with
    tokens := min r.capacity (saturatingAdd r.tokens newTokens)
    lastRefillTime := currentTime }

def setRate (refillPerSecond : UInt64) : Result RateLimiter := do
  let r ← r.refill clock 0
  return { r with refillPerSecond := refillPerSecond }

def setCapacity (capacity : UInt64) : Result RateLimiter := do
  let currentTime ← currentTime clock
  return { r with capacity := capacity, tokens := capacity, lastRefillTime := currentTime }

/-- `try_consume`: the limiter afterwards, and whether the amount was consumed or
`RateLimitExceeded` returned. -/
def tryConsume (amount : UInt64) : Result (RateLimiter × Bool) := do
  let r ← r.refill clock 0
  match Token.checkedSub r.tokens amount with
  | some newTokens => return ({ r with tokens := newTokens }, true)
  | none => return (r, false)

end RateLimiter

structure RateLimitParams where
  refillPerSecond : Option UInt64
  capacity : Option UInt64

/-- `update_rate_limiter`. -/
def updateRateLimiter (rateLimiter : Option RateLimiter) (clock : Int64) :
    Option RateLimitParams → Result (Option RateLimiter)
  | some param => do
    let limiter := rateLimiter.getD ⟨0, 0, 0, 0⟩
    let limiter ← param.capacity.elim (.ok limiter) (limiter.setCapacity clock)
    let limiter ← param.refillPerSecond.elim (.ok limiter) (limiter.setRate clock)
    return some limiter
  | none => .ok none

/-! ## Calls in any order -/

/-- A call of one of the methods. -/
inductive Operation where
  | setCapacity (capacity : UInt64)
  | setRate (refillPerSecond : UInt64)
  | refill (extraTokens : UInt64)
  | tryConsume (amount : UInt64)

namespace Operation

/-- The limiter after the call, and whether the call returned `Ok`. -/
def apply (clock : Int64) (r : RateLimiter) : Operation → Result (RateLimiter × Bool)
  | setCapacity capacity => do return (← r.setCapacity clock capacity, true)
  | setRate refillPerSecond => do return (← r.setRate clock refillPerSecond, true)
  | refill extraTokens => do return (← r.refill clock extraTokens, true)
  | tryConsume amount => r.tryConsume clock amount

def reconfigures : Operation → Bool
  | setCapacity _ | setRate _ => true
  | _ => false

def extra : Operation → ℕ
  | refill extraTokens => extraTokens.toNat
  | _ => 0

/-- The amount that a call consumes if it returns `Ok`. -/
def consumes : Operation → ℕ
  | tryConsume amount => amount.toNat
  | _ => 0

end Operation

/-- Limiters that calls leave behind, starting from the default one. The clock never goes
back; a call that was rolled back changes nothing. -/
inductive Reachable : Int64 → RateLimiter → Prop
  | default (clock) : Reachable clock ⟨0, 0, 0, 0⟩
  | wait {clock clock' r} (h : Reachable clock r) (later : clock ≤ clock') : Reachable clock' r
  | call {clock r r' b} (h : Reachable clock r) (op : Operation)
      (run : op.apply clock r = .ok (r', b)) : Reachable clock r'

/-- What happens from `clock₀` on without a change of the configuration: the extra tokens
passed to `refill` so far, the amounts consumed, the time and the limiter. -/
inductive Window (clock₀ : Int64) (r₀ : RateLimiter) : ℕ → ℕ → Int64 → RateLimiter → Prop
  | start : Window clock₀ r₀ 0 0 clock₀ r₀
  | wait {e n clock clock' r} (h : Window clock₀ r₀ e n clock r) (later : clock ≤ clock') :
      Window clock₀ r₀ e n clock' r
  | call {e n clock r r' b} (h : Window clock₀ r₀ e n clock r) (op : Operation)
      (same : op.reconfigures = false) (run : op.apply clock r = .ok (r', b)) :
      Window clock₀ r₀ (e + op.extra) (n + if b then op.consumes else 0) clock r'

/-- The seconds of a clock that has not started count as none. -/
def seconds (clock : Int64) : ℕ := clock.toNatClampNeg

/-- `tokens(t)`: what a refill of nothing leaves at that time. -/
def RateLimiter.tokensAt (r : RateLimiter) (clock : Int64) : ℕ :=
  ((toOption (r.refill clock 0)).getD r).tokens.toNat

/-! ## What a call does -/

section Calls

variable {r r' : RateLimiter} {clock clock' : Int64} {x : UInt64} {b : Bool}

theorem seconds_mono (h : clock ≤ clock') : seconds clock ≤ seconds clock' :=
  Int.toNat_le_toNat (Int64.le_iff_toInt_le.mp h)

theorem currentTime_ok {t : UInt64} (h : currentTime clock = .ok t) :
    t.toNat = seconds clock := by
  rw [currentTime] at h
  split at h
  · cases h
  · rename_i hneg
    obtain rfl := Except.ok.inj h
    exact Int64.toNat_toUInt64_of_le (Int64.not_lt.mp hneg)

/-- The bucket behind a limiter. -/
def RateLimiter.bucket (r : RateLimiter) : Bucket := ⟨r.tokens.toNat, r.lastRefillTime.toNat⟩

theorem refill_ok (h : r.refill clock x = .ok r') :
    r'.capacity = r.capacity ∧ r'.refillPerSecond = r.refillPerSecond ∧
      r'.lastRefillTime.toNat = seconds clock ∧
      r'.tokens.toNat = min r.capacity.toNat (r.tokens.toNat +
        (seconds clock - r.lastRefillTime.toNat) * r.refillPerSecond.toNat + x.toNat) := by
  simp only [RateLimiter.refill, bind_eq_ok, pure_eq_ok] at h
  obtain ⟨t, ht, rfl⟩ := h
  have htime := currentTime_ok ht
  refine ⟨rfl, rfl, htime, ?_⟩
  have hcapacity := r.capacity.toNat_lt
  simp only [toNat_min, toNat_saturatingAdd]
  split
  · rename_i hlater
    rw [gt_iff_lt, UInt64.lt_iff_toNat_lt] at hlater
    rw [toNat_saturatingAdd, toNat_saturatingMul,
      UInt64.toNat_sub_of_le _ _ (UInt64.le_iff_toNat_le.mpr hlater.le), htime]
    omega
  · rename_i hlater
    rw [gt_iff_lt, UInt64.lt_iff_toNat_lt, not_lt] at hlater
    rw [← htime, Nat.sub_eq_zero_of_le hlater, Nat.zero_mul]
    omega

/-- No more tokens than the capacity. -/
def RateLimiter.Within (r : RateLimiter) : Prop := r.tokens.toNat ≤ r.capacity.toNat

theorem tokensAt_eq (clock : Int64) (hwithin : r.Within) :
    r.tokensAt clock =
      r.bucket.levelAt r.capacity.toNat r.refillPerSecond.toNat (seconds clock) := by
  rw [RateLimiter.tokensAt]
  cases h : r.refill clock 0 with
  | ok r' => exact (refill_ok h).2.2.2
  | error e =>
    -- only a clock before zero fails, and then no time has passed
    have hzero : seconds clock = 0 := by
      simp only [RateLimiter.refill, currentTime] at h
      split at h
      · rename_i hneg
        exact Int.toNat_of_nonpos (Int64.le_iff_toInt_le.mp (Int64.le_of_lt hneg))
      · cases h
    simp only [toOption_error, Option.getD_none, Bucket.levelAt, RateLimiter.bucket, hzero,
      Nat.zero_sub, Nat.zero_mul, Nat.add_zero]
    exact (Nat.min_eq_right hwithin).symm

theorem refill_within (h : r.refill clock x = .ok r') : r'.Within := by
  obtain ⟨hcapacity, _, _, htokens⟩ := refill_ok h
  rw [RateLimiter.Within, hcapacity, htokens]
  exact Nat.min_le_left _ _

theorem tryConsume_ok (h : r.tryConsume clock x = .ok (r', b)) :
    ∃ r₁, r.refill clock 0 = .ok r₁ ∧
      ((b = true ∧ r'.tokens.toNat + x.toNat = r₁.tokens.toNat ∧
          r' = { r₁ with tokens := r'.tokens }) ∨ (b = false ∧ r' = r₁)) := by
  simp only [RateLimiter.tryConsume, bind_eq_ok] at h
  obtain ⟨r₁, hrefill, h⟩ := h
  refine ⟨r₁, hrefill, ?_⟩
  split at h
  · rename_i rest hrest
    obtain ⟨rfl, rfl⟩ := Prod.mk.inj (pure_eq_ok.mp h)
    exact .inl ⟨rfl, Token.checkedSub_eq_some.mp hrest, rfl⟩
  · obtain ⟨rfl, rfl⟩ := Prod.mk.inj (pure_eq_ok.mp h)
    exact .inr ⟨rfl, rfl⟩

/-- A call that does not reconfigure touches the bucket. -/
theorem apply_touched {op : Operation} (same : op.reconfigures = false)
    (h : op.apply clock r = .ok (r', b)) :
    r'.capacity = r.capacity ∧ r'.refillPerSecond = r.refillPerSecond ∧
      Bucket.Touched r.capacity.toNat r.refillPerSecond.toNat (seconds clock) op.extra
        (if b then op.consumes else 0) r.bucket r'.bucket := by
  cases op with
  | setCapacity => cases same
  | setRate => cases same
  | refill extraTokens =>
    simp only [Operation.apply, bind_eq_ok, pure_eq_ok, Prod.mk.injEq] at h
    obtain ⟨_, hrefill, rfl, rfl⟩ := h
    obtain ⟨hcapacity, hrate, hlast, htokens⟩ := refill_ok hrefill
    exact ⟨hcapacity, hrate, hlast, htokens.le⟩
  | tryConsume amount =>
    obtain ⟨r₁, hrefill, hcase⟩ := tryConsume_ok h
    obtain ⟨hcapacity, hrate, hlast, htokens⟩ := refill_ok hrefill
    rcases hcase with ⟨rfl, hrest, hr⟩ | ⟨rfl, rfl⟩
    · refine ⟨?_, ?_, ?_, ?_⟩
      · rw [hr, hcapacity]
      · rw [hr, hrate]
      · rw [hr]
        exact hlast
      · exact (hrest.trans htokens).le
    · exact ⟨hcapacity, hrate, hlast, htokens.le⟩

theorem setCapacity_ok (h : r.setCapacity clock x = .ok r') :
    r' = ⟨x, x, r.refillPerSecond, r'.lastRefillTime⟩ := by
  simp only [RateLimiter.setCapacity, bind_eq_ok, pure_eq_ok] at h
  obtain ⟨t, _, rfl⟩ := h
  rfl

theorem setRate_ok (h : r.setRate clock x = .ok r') :
    ∃ r₁, r.refill clock 0 = .ok r₁ ∧ r' = { r₁ with refillPerSecond := x } := by
  simp only [RateLimiter.setRate, bind_eq_ok, pure_eq_ok] at h
  obtain ⟨r₁, hrefill, rfl⟩ := h
  exact ⟨r₁, hrefill, rfl⟩

/-- Every call leaves the limiter within its capacity. -/
theorem apply_within {op : Operation} (h : op.apply clock r = .ok (r', b)) : r'.Within := by
  cases op with
  | setCapacity capacity =>
    simp only [Operation.apply, bind_eq_ok, pure_eq_ok, Prod.mk.injEq] at h
    obtain ⟨_, hset, rfl, _⟩ := h
    rw [setCapacity_ok hset]
    exact Nat.le_refl _
  | setRate rate =>
    simp only [Operation.apply, bind_eq_ok, pure_eq_ok, Prod.mk.injEq] at h
    obtain ⟨_, hset, rfl, _⟩ := h
    obtain ⟨r₁, hrefill, rfl⟩ := setRate_ok hset
    have hwithin : r₁.Within := refill_within hrefill
    exact hwithin
  | refill extraTokens =>
    simp only [Operation.apply, bind_eq_ok, pure_eq_ok, Prod.mk.injEq] at h
    obtain ⟨_, hrefill, rfl, _⟩ := h
    exact refill_within hrefill
  | tryConsume amount =>
    obtain ⟨r₁, hrefill, hcase⟩ := tryConsume_ok h
    have hwithin := refill_within hrefill
    rcases hcase with ⟨_, hrest, hr⟩ | ⟨_, rfl⟩
    · have hcapacity : r'.capacity = r₁.capacity := by rw [hr]
      rw [RateLimiter.Within] at hwithin ⊢
      rw [hcapacity]
      omega
    · exact hwithin

end Calls

/-! ## Runs -/

section Runs

variable {r r₀ : RateLimiter} {clock clock₀ : Int64} {e n : ℕ}

theorem Reachable.within (h : Reachable clock r) : r.Within := by
  induction h with
  | default clock => exact Nat.le_refl 0
  | wait _ later ih => exact ih
  | call _ op run _ => exact apply_within run

/-- A new configuration is at most two of the calls, on the old limiter or a default one. -/
theorem updateRateLimiter_reachable {limiter limiter' : Option RateLimiter}
    {params : Option RateLimitParams} (h₀ : ∀ r, limiter = some r → Reachable clock r)
    (h : updateRateLimiter limiter clock params = .ok limiter') {r : RateLimiter}
    (hr : limiter' = some r) : Reachable clock r := by
  cases params with
  | none =>
    obtain rfl := Except.ok.inj h
    cases hr
  | some param =>
    have hstart : Reachable clock (limiter.getD ⟨0, 0, 0, 0⟩) := by
      cases limiter with
      | none => exact .default clock
      | some r₀ => exact h₀ r₀ rfl
    simp only [updateRateLimiter, bind_eq_ok, pure_eq_ok] at h
    obtain ⟨r₁, hcapacity, r₂, hrate, rfl⟩ := h
    obtain rfl := Option.some.inj hr
    have hmiddle : Reachable clock r₁ := by
      cases hc : param.capacity with
      | none =>
        rw [hc] at hcapacity
        exact Except.ok.inj hcapacity ▸ hstart
      | some capacity =>
        rw [hc, Option.elim_some] at hcapacity
        refine hstart.call (.setCapacity capacity) (b := true) ?_
        rw [Operation.apply, hcapacity]
        rfl
    cases hc : param.refillPerSecond with
    | none =>
      rw [hc] at hrate
      exact Except.ok.inj hrate ▸ hmiddle
    | some refillRate =>
      rw [hc, Option.elim_some] at hrate
      refine hmiddle.call (.setRate refillRate) (b := true) ?_
      rw [Operation.apply, hrate]
      rfl

/-- A window is a run of the bucket, under one capacity and one rate. -/
theorem Window.run (h : Window clock₀ r₀ e n clock r) :
    r.capacity = r₀.capacity ∧ r.refillPerSecond = r₀.refillPerSecond ∧
      Bucket.Run r₀.capacity.toNat r₀.refillPerSecond.toNat (seconds clock₀) r₀.bucket e n
        (seconds clock) r.bucket := by
  induction h with
  | start => exact ⟨rfl, rfl, .start⟩
  | wait _ later ih => exact ⟨ih.1, ih.2.1, ih.2.2.wait (seconds_mono later)⟩
  | call _ op same run ih =>
    obtain ⟨hcapacity, hrate, hrun⟩ := ih
    obtain ⟨hcapacity', hrate', htouched⟩ := apply_touched same run
    rw [hcapacity, hrate] at htouched
    exact ⟨hcapacity'.trans hcapacity, hrate'.trans hrate, hrun.touch htouched⟩

theorem Window.reachable (h : Window clock₀ r₀ e n clock r) (h₀ : Reachable clock₀ r₀) :
    Reachable clock r := by
  induction h with
  | start => exact h₀
  | wait _ later ih => exact ih.wait later
  | call _ op _ run ih => exact ih.call op run

end Runs

/-- The limiter never holds more than its capacity; in a window without reconfiguration no
more is consumed than it held at the start, what flowed in at its rate, and the extra tokens;
and a new rate counts from when it was set. -/
theorem rate_limited {clock₀ : Int64} {r₀ : RateLimiter} (h₀ : Reachable clock₀ r₀) :
    r₀.tokens ≤ r₀.capacity ∧
    (∀ e n clock r, Window clock₀ r₀ e n clock r →
      n + r.tokensAt clock ≤ r₀.tokensAt clock₀ +
        r₀.refillPerSecond.toNat * (seconds clock - seconds clock₀) + e) ∧
    ∀ clock rate r, r₀.setRate clock rate = .ok r → ∀ clock',
      r.tokensAt clock' = min r.capacity.toNat
        (r₀.tokensAt clock + rate.toNat * (seconds clock' - seconds clock)) := by
  have hwithin := h₀.within
  refine ⟨UInt64.le_iff_toNat_le.mpr hwithin, ?_, ?_⟩
  · intro e n clock r hwindow
    obtain ⟨hcapacity, hrate, hrun⟩ := hwindow.run
    have hafter := (hwindow.reachable h₀).within
    rw [tokensAt_eq _ hafter, tokensAt_eq _ hwithin, hcapacity, hrate, Nat.mul_comm]
    exact hrun.taken_le.2
  · intro clock rate r hset clock'
    obtain ⟨r₁, hrefill, rfl⟩ := setRate_ok hset
    have hafter := refill_within hrefill
    have hold : r₀.tokensAt clock = r₁.tokens.toNat := by
      rw [RateLimiter.tokensAt, hrefill]
      rfl
    have hlast := (refill_ok hrefill).2.2.1
    rw [tokensAt_eq (r := { r₁ with refillPerSecond := rate }) clock' hafter, hold,
      Nat.mul_comm, ← hlast]
    rfl

/-- A limiter of ten tokens that refills one a second, and was asked for eight at second 100. -/
def spentLimiter : RateLimiter := ⟨10, 2, 1, 100⟩

theorem spentLimiter_reachable : Reachable 100 spentLimiter := by
  have hset : Reachable 100 ⟨10, 10, 0, 100⟩ :=
    (Reachable.default 100).call (.setCapacity 10) (b := true) (by decide)
  have hrate : Reachable 100 ⟨10, 10, 1, 100⟩ := hset.call (.setRate 1) (b := true) (by decide)
  exact hrate.call (.tryConsume 8) (b := true) (by decide)

/-- Three seconds later five tokens are there, and no sixth. -/
theorem spentLimiter_limited :
    spentLimiter.tokens ≤ spentLimiter.capacity ∧ 5 + 0 ≤ 2 + 1 * 3 + 0 := by
  have h := rate_limited spentLimiter_reachable
  have hwindow : Window 100 spentLimiter 0 5 103 ⟨10, 0, 1, 103⟩ :=
    (Window.start.wait (by decide)).call (.tryConsume 5) rfl (b := true) (by decide)
  exact ⟨h.1, h.2.1 _ _ _ _ hwindow⟩

end SolanaEasy.Oft
