import SolanaEasy.Lib.Average
import SolanaEasy.Token.Records

/-!
# Interest rates — the average rate a mint stores

A mint keeps the average of its rates as a running average in whole basis points. A
history lists the calls of `UpdateRate` since the mint was initialised, each with the
clock's time and its rate.
-/

namespace SolanaEasy.Token

open Processor

/-! ## The stored average -/

namespace InterestBearingConfig

variable {e : InterestBearingConfig} {now : Int64} {r : Int16}

/-- The mean of `time_weighted_average_rate`, before it is narrowed to 16 bits. -/
def mean (e : InterestBearingConfig) (now : Int64) : ℤ :=
  weighted e.preUpdateAverageRate.toInt (e.lastUpdateTimestamp.toInt - e.initializationTimestamp.toInt)
    e.currentRate.toInt (now.toInt - e.lastUpdateTimestamp.toInt)

theorem timeWeightedAverageRate_eq (e : InterestBearingConfig) (now : Int64) :
    e.timeWeightedAverageRate now =
      if -2 ^ 15 ≤ e.mean now ∧ e.mean now < 2 ^ 15 then some (Int16.ofInt (e.mean now)) else none :=
  rfl

theorem toInt_averageRate (h : e.timeWeightedAverageRate now = some r) : r.toInt = e.mean now := by
  rw [timeWeightedAverageRate_eq] at h
  split at h
  case isTrue hfits =>
    rw [← Option.some.inj h, Int16.toInt_ofInt]
    exact Int.bmod_eq_of_le (by simp [Int16.size]; omega) (by simp [Int16.size]; omega)
  case isFalse => cases h

/-- The mean of two rates is a rate again, if the clock does not run backwards. -/
theorem averageRate_isSome (hinit : e.initializationTimestamp.toInt ≤ e.lastUpdateTimestamp.toInt)
    (hlast : e.lastUpdateTimestamp.toInt ≤ now.toInt) :
    (e.timeWeightedAverageRate now).isSome = true := by
  obtain ⟨hlower, hupper⟩ := weighted_between (r := e.preUpdateAverageRate.toInt)
    (q := e.currentRate.toInt) (sub_nonneg.mpr hinit) (sub_nonneg.mpr hlast)
  have hr := e.preUpdateAverageRate.le_toInt
  have hr' := e.preUpdateAverageRate.toInt_lt
  have hq := e.currentRate.le_toInt
  have hq' := e.currentRate.toInt_lt
  rw [timeWeightedAverageRate_eq, if_pos]
  · rfl
  · unfold mean
    omega

end InterestBearingConfig

/-! ## One instruction -/

/-- The instruction updates the rate of the mint at `M`. -/
def Call.UpdatesRate (c : Call) (M : Pubkey) : Prop :=
  c.key? 0 = some M ∧ ∃ rate, c.instruction = .updateRate rate

section Instruction

variable {rt : Runtime} {c : Call} {σ σ' : Ledger} {M : Pubkey} {m : View PodMint}
variable {rate : Int16} {e : InterestBearingConfig}

/-- The assignments of `process_update_rate`. -/
def updatedRate (e : InterestBearingConfig) (averageRate : Int16) (now : Int64) (rate : Int16) :
    InterestBearingConfig :=
  { e with preUpdateAverageRate := averageRate, lastUpdateTimestamp := now, currentRate := rate }

theorem interest_of_config (h : m.get InterestBearingConfig = some e) :
    m.records.interest = some (e.initializationTimestamp, e.preUpdateAverageRate,
      e.lastUpdateTimestamp, e.currentRate) :=
  congrArg (Option.map _) h

theorem config_of_interest {t t' : Int64} {r r' : Int16}
    (h : m.records.interest = some (t, r, t', r')) :
    ∃ e, m.get InterestBearingConfig = some e ∧ e.initializationTimestamp = t ∧
      e.preUpdateAverageRate = r ∧ e.lastUpdateTimestamp = t' ∧ e.currentRate = r' := by
  obtain ⟨e, he, hparts⟩ := Option.map_eq_some_iff.mp h
  simp only [Prod.mk.injEq] at hparts
  exact ⟨e, he, hparts⟩

/-- What the handler of `UpdateRate` leaves, exactly. -/
theorem updateRate_book (hwf : c.σ.Wf) (updates : c.instruction = .updateRate rate)
    (head : c.key? 0 = some M) (held : c.σ.book.Mint M m) (h : c.run rt = .ok σ') :
    ∃ e r, m.get InterestBearingConfig = some e ∧
      e.timeWeightedAverageRate c.ctx.unixTimestamp = some r ∧
        σ'.book.Mint M (m.set (updatedRate e r c.ctx.unixTimestamp rate)) := by
  rw [Call.run, updates] at h
  obtain ⟨info, hinfo, rfl⟩ := Option.map_eq_some_iff.mp (c.key?_zero_eq.symm.trans head)
  obtain ⟨rest, haccounts⟩ := List.head?_eq_some_iff.mp hinfo
  obtain ⟨e, e', hget, hupdate, hbook⟩ := updateMintExtension_book
    (by decide) hwf haccounts held h
  simp only [bind_eq_ok, okOr_eq_ok, pure_eq_ok] at hupdate
  obtain ⟨r, hr, rfl⟩ := hupdate
  refine ⟨e, r, hget, hr, ?_⟩
  rw [hbook]
  exact Book.mint_put ..

/-- Other instructions leave the interest alone. -/
theorem Step.interest (hwf : σ.Wf) (held : σ.book.Mint M m)
    (h : Step rt (fun c => ¬ c.UpdatesRate M ∧ ¬ c.Closes M) σ σ') :
    ∃ m', σ'.book.Mint M m' ∧ m'.records.interest = m.records.interest := by
  have hupdates : ∀ i : Instruction, i.rewrites .interestBearingConfig = true →
      ∃ rate, i = .updateRate rate := by
    intro i hi
    cases i <;> first | exact ⟨_, rfl⟩ | cases hi
  refine h.spared (fun _ => Instruction.spares_interest) ?_ ?_ hwf held
  · intro c σ' hrewrites hkey run
    obtain ⟨rate, updates⟩ := hupdates _ hrewrites
    rw [Call.run, updates] at run
    exact updateMintExtension_frame (c.key?_zero_eq ▸ hkey) run
  · intro c hc
    exact ⟨fun hat => hc.1 ⟨hat.1, hupdates _ hat.2⟩, hc.2⟩

end Instruction

/-! ## Errors of the authority check -/

section Errors

theorem matchSigner_ne_overflow (signer : AccountInfo) (keys : List Pubkey) (matched : List Bool)
    (n : ℕ) : matchSigner signer keys matched n ≠ .error TokenError.overflow := by
  induction keys generalizing matched n with
  | nil => exact ok_ne_error
  | cons key keys ih =>
    cases matched with
    | nil => exact ok_ne_error
    | cons b rest =>
      unfold matchSigner
      split
      · apply bind_ne_error (failIf_ne_error (by decide))
        intro _ _
        exact bind_ne_error (ih _ _) fun _ _ => ok_ne_error
      · exact bind_ne_error (ih _ _) fun _ _ => ok_ne_error

theorem matchSigners_ne_overflow (multisig : PodMultisig) (signers : List AccountInfo)
    (matched : List Bool) (n : ℕ) :
    matchSigners multisig signers matched n ≠ .error TokenError.overflow := by
  induction signers generalizing matched n with
  | nil => exact ok_ne_error
  | cons signer signers ih =>
    unfold matchSigners
    apply bind_ne_error (failIf_ne_error (by decide))
    intro _ _
    exact bind_ne_error (matchSigner_ne_overflow _ _ _ _) fun _ _ => ih _ _

/-- The authority check names no error of its own but the owner's. -/
theorem checkOwner_ne_overflow (σ : Ledger) (authorityInfo : AccountInfo)
    (signers : List AccountInfo) (expected : Pubkey) :
    checkOwner σ authorityInfo signers expected ≠ .error TokenError.overflow := by
  unfold checkOwner validateOwner
  apply bind_ne_error (failIf_ne_error (by decide))
  intro _ _
  split
  · apply bind_ne_error (okOr_ne_error (by decide) _)
    intro multisig _
    exact bind_ne_error (matchSigners_ne_overflow _ _ _ _) fun _ _ => failIf_ne_error (by decide)
  · exact failIf_ne_error (by decide)

theorem store_ne_overflow (σ : Ledger) (k : Pubkey) (s : PodState PodMint) :
    store σ k s ≠ .error TokenError.overflow :=
  bind_ne_error (failIf_ne_error (by decide)) fun _ _ => ok_ne_error

/-- With an average that fits, `UpdateRate` does not overflow. -/
theorem updateRate_ne_overflow {rt : Runtime} {ctx : Context} {accounts : List AccountInfo}
    {rate : Int16} {σ : Ledger} {M : Pubkey} {m : View PodMint} {e : InterestBearingConfig}
    (head : accounts.head?.map AccountInfo.key = some M) (held : σ.book.Mint M m)
    (hget : m.get InterestBearingConfig = some e)
    (haverage : (e.timeWeightedAverageRate ctx.unixTimestamp).isSome = true) :
    process rt ctx accounts (.updateRate rate) σ ≠ .error TokenError.overflow := by
  obtain ⟨info, hinfo, rfl⟩ := Option.map_eq_some_iff.mp head
  obtain ⟨rest, rfl⟩ := List.head?_eq_some_iff.mp hinfo
  obtain ⟨_, s, hload, rfl⟩ := load_of_mint held
  obtain ⟨r, hr⟩ := Option.isSome_iff_exists.mp haverage
  show updateMintExtension .. ≠ _
  cases rest with
  | nil => exact fun h => by cases h
  | cons authorityInfo signers =>
    apply bind_ne_error
    · rw [hload]
      exact ok_ne_error
    intro s' hs'
    obtain rfl := Except.ok.inj (hload.symm.trans hs')
    apply bind_ne_error
    · rw [PodState.getExtension_eq_ok.mpr hget]
      exact ok_ne_error
    intro e' he'
    obtain rfl := Except.ok.inj ((PodState.getExtension_eq_ok.mpr hget).symm.trans he')
    apply bind_ne_error (okOr_ne_error (by decide) _)
    intro expected _
    apply bind_ne_error (checkOwner_ne_overflow _ _ _ _)
    intro _ _
    apply bind_ne_error
    · show (okOr _ (e.timeWeightedAverageRate ctx.unixTimestamp) >>= _) ≠ _
      rw [hr]
      exact ok_ne_error
    intro x _
    obtain ⟨s', hs'⟩ := PodState.exists_setExtension hget x
    apply bind_ne_error
    · rw [hs']
      exact ok_ne_error
    intro _ _
    exact store_ne_overflow _ _ _

end Errors

/-! ## Histories -/

/-- The mint at `M` was initialised with the setting `s`, and `history` lists the updates of
its rate since. -/
inductive RateHistory (rt : Runtime) (M : Pubkey) (s : Setting) : List Setting → Ledger → Prop
  | initialised {σ σ' m e} (reach : Reachable rt (fun _ => True) σ)
      (new : ∀ m, ¬ σ.book.Mint M m) (step : Step rt (fun _ => True) σ σ')
      (held : σ'.book.Mint M m) (config : m.get InterestBearingConfig = some e)
      (initial : s = ⟨e.initializationTimestamp.toInt, e.currentRate.toInt⟩) :
      RateHistory rt M s [] σ'
  | update {c : Call} {σ' history rate} (before : RateHistory rt M s history c.σ)
      (head : c.key? 0 = some M) (updates : c.instruction = .updateRate rate)
      (run : c.run rt = .ok σ') :
      RateHistory rt M s (history ++ [⟨c.ctx.unixTimestamp.toInt, rate.toInt⟩]) σ'
  | other {σ σ' history} (before : RateHistory rt M s history σ)
      (step : Step rt (fun c => ¬ c.UpdatesRate M ∧ ¬ c.Closes M) σ σ') :
      RateHistory rt M s history σ'

/-- What a history knows of the mint. -/
structure RateState (rt : Runtime) (M : Pubkey) (s : Setting) (history : List Setting)
    (σ : Ledger) (m : View PodMint) (e : InterestBearingConfig) : Prop where
  reach : Reachable rt (fun _ => True) σ
  held : σ.book.Mint M m
  config : m.get InterestBearingConfig = some e
  since : e.initializationTimestamp.toInt = s.since
  last : e.lastUpdateTimestamp.toInt = (s.last history).since
  current : e.currentRate.toInt = (s.last history).value
  average : e.preUpdateAverageRate.toInt = s.kept history

/-- The invariant of histories. -/
theorem RateHistory.state {rt : Runtime} {M : Pubkey} {s : Setting} {history : List Setting}
    {σ : Ledger} (h : RateHistory rt M s history σ) : ∃ m e, RateState rt M s history σ m e := by
  induction h with
  | @initialised σ σ' m e reach new step held config initial =>
    obtain ⟨hlast, haverage⟩ :=
      (step.freshRecords reach.wf new held).interest _ (interest_of_config config)
    simp only at hlast haverage
    subst initial
    exact ⟨m, e, reach.run (.single step), held, config, rfl, congrArg _ hlast, rfl,
      congrArg _ haverage⟩
  | @update c σ' history rate before head updates run ih =>
    obtain ⟨m, e, hstate⟩ := ih
    obtain ⟨e', r, hget, hr, held'⟩ :=
      updateRate_book hstate.reach.wf updates head hstate.held run
    obtain rfl := Option.some.inj (hstate.config.symm.trans hget)
    refine ⟨_, _, hstate.reach.run (.single (.call trivial run)), held', View.get_set_same ..,
      hstate.since, ?_, ?_, ?_⟩
    · rw [Setting.last_concat]
      rfl
    · rw [Setting.last_concat]
      rfl
    · show r.toInt = _
      rw [InterestBearingConfig.toInt_averageRate hr, InterestBearingConfig.mean,
        Setting.kept_concat, hstate.average, hstate.current, hstate.last, hstate.since]
      rfl
  | @other σ σ' history before step ih =>
    obtain ⟨m, e, hstate⟩ := ih
    obtain ⟨m', held', hsame⟩ := step.interest hstate.reach.wf hstate.held
    rw [interest_of_config hstate.config] at hsame
    obtain ⟨e', he', hinit, haverage, hlast, hcurrent⟩ := config_of_interest hsame
    refine ⟨m', e', hstate.reach.run (Run.mono (.single step) fun _ _ => trivial), held', he',
      ?_, ?_, ?_, ?_⟩
    · rw [hinit, hstate.since]
    · rw [hlast, hstate.last]
    · rw [hcurrent, hstate.current]
    · rw [haverage, hstate.average]

/-! A rate of 0 at the time 0, and of 9 at the times 10, 11 and 12. -/

theorem RateHistory.update_scripted {rt : Runtime} {M : Pubkey} {s : Setting} {σ : Ledger}
    {history : List Setting} (h : RateHistory rt M s history σ) (ctx : Context)
    (accounts : List AccountInfo) (rate : Int16)
    (hhead : (accounts[0]?).map AccountInfo.key = some M)
    (hrun : (toOption (process rt ctx accounts (.updateRate rate) σ)).isSome = true) :
    RateHistory rt M s (history ++ [⟨ctx.unixTimestamp.toInt, rate.toInt⟩])
      (scripted rt [(ctx, accounts, .updateRate rate)] σ) :=
  h.update (c := ⟨ctx, accounts, .updateRate rate, σ⟩) hhead rfl (process_scripted hrun)

def rateBlank : Ledger :=
  scripted (.modular 2) [(.plain, [⟨1, false⟩], .initializeInterestBearingMint ⟨5⟩ 0)]
    (blank [(1, 222)])

def rateMint : Ledger :=
  scripted (.modular 2) [(.plain, [⟨1, false⟩], .initializeMint2 6 5 none)] rateBlank

def rateTen : Ledger :=
  scripted (.modular 2) [({ Context.plain with unixTimestamp := 10 }, [⟨1, false⟩, ⟨5, true⟩],
    .updateRate 9)] rateMint

def rateEleven : Ledger :=
  scripted (.modular 2) [({ Context.plain with unixTimestamp := 11 }, [⟨1, false⟩, ⟨5, true⟩],
    .updateRate 9)] rateTen

def rateTwelve : Ledger :=
  scripted (.modular 2) [({ Context.plain with unixTimestamp := 12 }, [⟨1, false⟩, ⟨5, true⟩],
    .updateRate 9)] rateEleven

theorem rateTwelve_history :
    RateHistory (.modular 2) 1 ⟨0, 0⟩ [⟨10, 9⟩, ⟨11, 9⟩, ⟨12, 9⟩] rateTwelve := by
  have hreach : Reachable (.modular 2) (fun _ => True) rateBlank :=
    .scripted (by decide) (fun _ _ _ => trivial) (by decide +kernel)
  obtain ⟨m, hm, hp⟩ := exists_mint rateMint 1
    (fun m => decide (m.get InterestBearingConfig = some ⟨⟨5⟩, 0, 0, 0, 0⟩)) (by decide +kernel)
      (by decide +kernel)
  have hinitial : RateHistory (.modular 2) 1 ⟨0, 0⟩ [] rateMint :=
    .initialised hreach (not_mint_of_unpack (by decide +kernel))
      (.scripted trivial (by decide +kernel)) hm (of_decide_eq_true hp) rfl
  have hten : RateHistory (.modular 2) 1 ⟨0, 0⟩ [⟨10, 9⟩] rateTen :=
    hinitial.update_scripted { Context.plain with unixTimestamp := 10 } [⟨1, false⟩, ⟨5, true⟩] 9
      rfl (by decide +kernel)
  have heleven : RateHistory (.modular 2) 1 ⟨0, 0⟩ [⟨10, 9⟩, ⟨11, 9⟩] rateEleven :=
    hten.update_scripted { Context.plain with unixTimestamp := 11 } [⟨1, false⟩, ⟨5, true⟩] 9
      rfl (by decide +kernel)
  exact heleven.update_scripted { Context.plain with unixTimestamp := 12 }
    [⟨1, false⟩, ⟨5, true⟩] 9 rfl (by decide +kernel)

theorem rateTwelve_ordered : Setting.Ordered ⟨0, 0⟩ [⟨10, 9⟩, ⟨11, 9⟩, ⟨12, 9⟩] := by
  simp [Setting.Ordered]

/-- At no later time does the average rate overflow, and it is always among the rates set. -/
theorem update_rate_never_stuck {rt : Runtime} {M : Pubkey} {s : Setting}
    {history : List Setting} {σ : Ledger} (h : RateHistory rt M s history σ)
    (hclock : s.Ordered history) :
    ∃ m e, σ.book.Mint M m ∧ m.get InterestBearingConfig = some e ∧
      (∃ v ∈ s :: history, v.value ≤ e.preUpdateAverageRate.toInt) ∧
      (∃ v ∈ s :: history, e.preUpdateAverageRate.toInt ≤ v.value) ∧
      ∀ ctx accounts rate, (s.last history).since ≤ ctx.unixTimestamp.toInt →
        (e.timeWeightedAverageRate ctx.unixTimestamp).isSome = true ∧
          (accounts.head?.map AccountInfo.key = some M →
            process rt ctx accounts (.updateRate rate) σ ≠ .error TokenError.overflow) := by
  obtain ⟨m, e, hstate⟩ := h.state
  obtain ⟨hlower, hupper⟩ := hclock.kept_between
  rw [← hstate.average] at hlower hupper
  refine ⟨m, e, hstate.held, hstate.config, hlower, hupper, ?_⟩
  intro ctx accounts rate hlater
  have hspan := hclock.span_nonneg
  rw [Setting.span, ← hstate.last, ← hstate.since] at hspan
  rw [← hstate.last] at hlater
  have haverage := InterestBearingConfig.averageRate_isSome (sub_nonneg.mp hspan) hlater
  exact ⟨haverage, fun head => updateRate_ne_overflow head hstate.held hstate.config haverage⟩

/-- The next update, at the time of the last one. -/
theorem update_rate_never_stuck_twelve :
    ∃ m e, rateTwelve.book.Mint 1 m ∧ m.get InterestBearingConfig = some e ∧
      (e.timeWeightedAverageRate 12).isSome = true ∧
        process (.modular 2) { Context.plain with unixTimestamp := 12 } [⟨1, false⟩, ⟨5, true⟩]
          (.updateRate 7) rateTwelve ≠ .error TokenError.overflow := by
  obtain ⟨m, e, held, hget, _, _, hnext⟩ :=
    update_rate_never_stuck rateTwelve_history rateTwelve_ordered
  obtain ⟨haverage, hrun⟩ := hnext { Context.plain with unixTimestamp := 12 }
    [⟨1, false⟩, ⟨5, true⟩] 7 (by decide)
  exact ⟨m, e, held, hget, haverage, hrun rfl⟩

/-- The average that is stored differs from the true one by less than a basis point for each
update. -/
theorem average_rate_error {rt : Runtime} {M : Pubkey} {s : Setting} {history : List Setting}
    {σ : Ledger} (h : RateHistory rt M s history σ) (hclock : s.Ordered history) :
    ∃ m e, σ.book.Mint M m ∧ m.get InterestBearingConfig = some e ∧
      e.initializationTimestamp.toInt = s.since ∧
      e.lastUpdateTimestamp.toInt = (s.last history).since ∧
      (e.lastUpdateTimestamp ≠ e.initializationTimestamp →
        |(e.preUpdateAverageRate.toInt : ℚ) - s.area history /
          ((e.lastUpdateTimestamp.toInt - e.initializationTimestamp.toInt : ℤ) : ℚ)| <
            history.length) := by
  obtain ⟨m, e, hstate⟩ := h.state
  refine ⟨m, e, hstate.held, hstate.config, hstate.since, hstate.last, ?_⟩
  intro hne
  have hspan : e.lastUpdateTimestamp.toInt - e.initializationTimestamp.toInt = s.span history := by
    rw [hstate.last, hstate.since, Setting.span]
  rw [hstate.average, hspan]
  refine hclock.abs_kept_sub_average_lt ?_
  rw [← hspan]
  exact sub_ne_zero.mpr fun heq => hne (Int64.toInt_inj.mp heq)

theorem average_rate_error_twelve :
    ∃ m e, rateTwelve.book.Mint 1 m ∧ m.get InterestBearingConfig = some e ∧
      |(e.preUpdateAverageRate.toInt : ℚ) - 18 / 12| < 3 := by
  obtain ⟨m, e, held, hget, hinit, hlast, herror⟩ :=
    average_rate_error rateTwelve_history rateTwelve_ordered
  have hne : e.lastUpdateTimestamp ≠ e.initializationTimestamp := by
    intro heq
    rw [heq, hinit] at hlast
    exact absurd hlast (by decide)
  have hbound := herror hne
  rw [hlast, hinit] at hbound
  exact ⟨m, e, held, hget, hbound⟩

/-- The average stays 0 through three updates, where the true one is 3/2. -/
theorem average_rate_drifts :
    ¬ ∀ (rt : Runtime) (M : Pubkey) (s : Setting) (history : List Setting) (σ : Ledger)
      (m : View PodMint) (e : InterestBearingConfig), RateHistory rt M s history σ →
      s.Ordered history → σ.book.Mint M m → m.get InterestBearingConfig = some e →
      e.lastUpdateTimestamp ≠ e.initializationTimestamp →
        |(e.preUpdateAverageRate.toInt : ℚ) - s.area history /
          ((e.lastUpdateTimestamp.toInt - e.initializationTimestamp.toInt : ℤ) : ℚ)| < 1 := by
  intro hclaim
  obtain ⟨m, hm, hp⟩ := exists_mint rateTwelve 1
    (fun m => decide (m.get InterestBearingConfig = some ⟨⟨5⟩, 0, 0, 12, 9⟩)) (by decide +kernel)
      (by decide +kernel)
  have hbound := hclaim _ _ _ _ _ m ⟨⟨5⟩, 0, 0, 12, 9⟩ rateTwelve_history rateTwelve_ordered hm
    (of_decide_eq_true hp) (by decide)
  have hbelow : |((0 : ℤ) : ℚ) - ((18 : ℤ) : ℚ) / ((12 : ℤ) : ℚ)| < 1 := hbound
  norm_num [abs_lt] at hbelow

end SolanaEasy.Token
