import SolanaEasy.Lib.Schedule
import SolanaEasy.Token.Records

/-!
# Multiplier schedule — which multiplier scales the amounts shown

The two multipliers a mint stores and the time between them, as a schedule in which
every change has a time of its own to take effect. A history lists the calls of
`UpdateMultiplier` since the mint was initialised.
-/

namespace SolanaEasy.Token

open Processor

/-! ## The stored multipliers -/

namespace ScaledUiAmountConfig

variable (e : ScaledUiAmountConfig)

/-- Both multipliers pass `try_validate_multiplier`. -/
def Valid : Prop :=
  isPositiveNormal e.multiplier = true ∧ isPositiveNormal e.newMultiplier = true

/-- `current_multiplier`, at any time. -/
def multiplierAt (t : ℤ) : UInt64 :=
  if e.newMultiplierEffectiveTimestamp.toInt ≤ t then e.newMultiplier else e.multiplier

theorem multiplierAt_toInt (s : Int64) : e.multiplierAt s.toInt = e.currentMultiplier s := by
  rw [multiplierAt, currentMultiplier]
  by_cases h : e.newMultiplierEffectiveTimestamp ≤ s
  · rw [if_pos (Int64.le_iff_toInt_le.mp h)]
    exact (if_pos h).symm
  · rw [if_neg fun h' => h (Int64.le_iff_toInt_le.mpr h')]
    exact (if_neg h).symm

variable {e}

theorem Valid.current (h : e.Valid) (s : Int64) :
    isPositiveNormal (e.currentMultiplier s) = true := by
  rw [currentMultiplier]
  split
  · exact h.2
  · exact h.1

variable {now due : Int64} {x : UInt64}

/-- A time before the epoch is stored as its beginning. -/
theorem toInt_updated_timestamp :
    (ScaledUiAmount.updated e now x due).newMultiplierEffectiveTimestamp.toInt =
      max 0 due.toInt := by
  show (if due < 0 then (0 : Int64) else due).toInt = _
  by_cases hneg : due < 0
  · have hlt := Int64.lt_iff_toInt_lt.mp hneg
    rw [Int64.toInt_zero] at hlt
    rw [if_pos hneg, Int64.toInt_zero]
    omega
  · rw [Int64.lt_iff_toInt_lt, Int64.toInt_zero] at hneg
    rw [if_neg (by rwa [Int64.lt_iff_toInt_lt, Int64.toInt_zero])]
    omega

/-- After an update, what was in effect still is until the new multiplier is due. -/
theorem multiplierAt_updated (hnow : 0 ≤ now.toInt) {t : ℤ} (ht : now.toInt ≤ t) :
    (ScaledUiAmount.updated e now x due).multiplierAt t =
      if due.toInt ≤ t then x else e.multiplierAt now.toInt := by
  rw [multiplierAt, toInt_updated_timestamp]
  by_cases hdue : due.toInt ≤ t
  · rw [if_pos hdue, if_pos (by omega)]
    rfl
  · rw [if_neg hdue, if_neg (by omega), multiplierAt_toInt, currentMultiplier]
    -- the new multiplier is not due when it is asked for
    have hlater : ¬ now ≥ due := fun h => hdue ((Int64.le_iff_toInt_le.mp h).trans ht)
    show (if now ≥ due then x else _) = _
    rw [if_neg hlater]

theorem Valid.updated (h : e.Valid) (hx : isPositiveNormal x = true) :
    (ScaledUiAmount.updated e now x due).Valid := by
  refine ⟨?_, hx⟩
  show isPositiveNormal (if now ≥ due then x else if _ then _ else _) = true
  split
  · exact hx
  · exact h.current now

end ScaledUiAmountConfig

/-! ## One instruction -/

/-- The instruction updates the multiplier of the mint at `M`. -/
def Call.UpdatesMultiplier (c : Call) (M : Pubkey) : Prop :=
  c.key? 0 = some M ∧ ∃ x t, c.instruction = .updateMultiplier x t

section Instruction

variable {rt : Runtime} {c : Call} {σ σ' : Ledger} {M : Pubkey} {m : View PodMint}
variable {x : UInt64} {t : Int64}

theorem config_of_multiplier {a b : UInt64} (h : m.records.multiplier = some (a, t, b)) :
    ∃ e, m.get ScaledUiAmountConfig = some e ∧ e.multiplier = a ∧
      e.newMultiplierEffectiveTimestamp = t ∧ e.newMultiplier = b := by
  obtain ⟨e, he, htriple⟩ := Option.map_eq_some_iff.mp h
  simp only [Prod.mk.injEq] at htriple
  exact ⟨e, he, htriple⟩

theorem multiplier_of_config {e : ScaledUiAmountConfig} (h : m.get ScaledUiAmountConfig = some e) :
    m.records.multiplier =
      some (e.multiplier, e.newMultiplierEffectiveTimestamp, e.newMultiplier) :=
  congrArg (Option.map _) h

/-- What the handler of `UpdateMultiplier` leaves, exactly. -/
theorem updateMultiplier_book (hwf : c.σ.Wf) (updates : c.instruction = .updateMultiplier x t)
    (head : c.key? 0 = some M) (held : c.σ.book.Mint M m) (h : c.run rt = .ok σ') :
    ∃ e, m.get ScaledUiAmountConfig = some e ∧ isPositiveNormal x = true ∧
      σ'.book.Mint M (m.set (ScaledUiAmount.updated e c.ctx.unixTimestamp x t)) := by
  rw [Call.run, updates] at h
  obtain ⟨info, hinfo, rfl⟩ := Option.map_eq_some_iff.mp (c.key?_zero_eq.symm.trans head)
  obtain ⟨rest, haccounts⟩ := List.head?_eq_some_iff.mp hinfo
  obtain ⟨e, e', hget, hupdate, hbook⟩ := updateMintExtension_book
    (by decide) hwf haccounts held h
  simp only [bind_eq_ok, exists_unit, pure_eq_ok, ScaledUiAmount.tryValidateMultiplier,
    failIf_eq_ok, Bool.not_eq_false'] at hupdate
  obtain ⟨hvalid, rfl⟩ := hupdate
  refine ⟨e, hget, hvalid, ?_⟩
  rw [hbook]
  exact Book.mint_put ..

/-- Other instructions leave the multipliers alone. -/
theorem Step.multiplier (hwf : σ.Wf) (held : σ.book.Mint M m)
    (h : Step rt (fun c => ¬ c.UpdatesMultiplier M ∧ ¬ c.Closes M) σ σ') :
    ∃ m', σ'.book.Mint M m' ∧ m'.records.multiplier = m.records.multiplier := by
  have hupdates : ∀ i : Instruction, i.rewrites .scaledUiAmount = true →
      ∃ x t, i = .updateMultiplier x t := by
    intro i hi
    cases i <;> first | exact ⟨_, _, rfl⟩ | cases hi
  refine h.spared (fun _ => Instruction.spares_multiplier) ?_ ?_ hwf held
  · intro c σ' hrewrites hkey run
    obtain ⟨x, t, updates⟩ := hupdates _ hrewrites
    rw [Call.run, updates] at run
    exact updateMintExtension_frame (c.key?_zero_eq ▸ hkey) run
  · intro c hc
    exact ⟨fun hat => hc.1 ⟨hat.1, hupdates _ hat.2⟩, hc.2⟩

end Instruction

/-! ## Histories -/

/-- The mint at `M` was initialised with the multiplier `x`, and `changes` lists the updates
since: when each was made, the time it names and its multiplier. -/
inductive MultiplierHistory (rt : Runtime) (M : Pubkey) (x : UInt64) :
    List (Scheduled ℤ UInt64) → Ledger → Prop
  | initialised {σ σ' m e} (reach : Reachable rt (fun _ => True) σ)
      (new : ∀ m, ¬ σ.book.Mint M m) (step : Step rt (fun _ => True) σ σ')
      (held : σ'.book.Mint M m) (config : m.get ScaledUiAmountConfig = some e)
      (initial : e.multiplier = x) : MultiplierHistory rt M x [] σ'
  | update {c : Call} {σ' changes y t} (before : MultiplierHistory rt M x changes c.σ)
      (head : c.key? 0 = some M) (updates : c.instruction = .updateMultiplier y t)
      (run : c.run rt = .ok σ') :
      MultiplierHistory rt M x (changes ++ [⟨c.ctx.unixTimestamp.toInt, t.toInt, y⟩]) σ'
  | other {σ σ' changes} (before : MultiplierHistory rt M x changes σ)
      (step : Step rt (fun c => ¬ c.UpdatesMultiplier M ∧ ¬ c.Closes M) σ σ') :
      MultiplierHistory rt M x changes σ'

/-- The clock does not run backwards, nor start before its epoch. -/
structure Clocked (changes : List (Scheduled ℤ UInt64)) : Prop where
  sorted : changes.Pairwise fun c d => c.asked ≤ d.asked
  positive : ∀ c ∈ changes, 0 ≤ c.asked

theorem Clocked.of_snoc {changes : List (Scheduled ℤ UInt64)} {c : Scheduled ℤ UInt64}
    (h : Clocked (changes ++ [c])) :
    Clocked changes ∧ (∀ d ∈ changes, d.asked ≤ c.asked) ∧ 0 ≤ c.asked := by
  obtain ⟨hbefore, _, hlast⟩ := List.pairwise_append.mp h.sorted
  exact ⟨⟨hbefore, fun d hd => h.positive d (List.mem_append_left _ hd)⟩,
    fun d hd => hlast d hd c (by simp), h.positive c (by simp)⟩

/-- What a history knows of the mint. -/
structure MultiplierState (rt : Runtime) (M : Pubkey) (x : UInt64)
    (changes : List (Scheduled ℤ UInt64)) (σ : Ledger) (m : View PodMint)
    (e : ScaledUiAmountConfig) : Prop where
  reach : Reachable rt (fun _ => True) σ
  held : σ.book.Mint M m
  config : m.get ScaledUiAmountConfig = some e
  valid : e.Valid
  follows : Clocked changes → Follows x e.multiplierAt changes

/-- The invariant of histories. -/
theorem MultiplierHistory.state {rt : Runtime} {M : Pubkey} {x : UInt64}
    {changes : List (Scheduled ℤ UInt64)} {σ : Ledger} (h : MultiplierHistory rt M x changes σ) :
    ∃ m e, MultiplierState rt M x changes σ m e := by
  induction h with
  | @initialised σ σ' m e reach new step held config initial =>
    obtain ⟨hnew, _, hvalid⟩ :=
      (step.freshRecords reach.wf new held).multiplier _ (multiplier_of_config config)
    refine ⟨m, e, reach.run (.single step), held, config, ⟨hvalid, ?_⟩, fun _ t _ => ?_⟩
    · rw [show e.newMultiplier = _ from hnew]
      exact hvalid
    · have hat : e.multiplierAt t = x := by
        rw [ScaledUiAmountConfig.multiplierAt, show e.newMultiplier = _ from hnew, initial,
            ite_self]
      rw [hat]
      exact decides_nil
  | @update c σ' changes y t before head updates run ih =>
    obtain ⟨m, e, hstate⟩ := ih
    obtain ⟨e', hget, hvalid, held'⟩ :=
      updateMultiplier_book hstate.reach.wf updates head hstate.held run
    obtain rfl := Option.some.inj (hstate.config.symm.trans hget)
    refine ⟨_, _, hstate.reach.run (.single (.call trivial run)), held', View.get_set_same ..,
      hstate.valid.updated hvalid, fun hclock => ?_⟩
    obtain ⟨hbefore, hsorted, hnow⟩ := hclock.of_snoc
    exact (hstate.follows hbefore).change hsorted fun s hs =>
      ScaledUiAmountConfig.multiplierAt_updated hnow hs
  | @other σ σ' changes before step ih =>
    obtain ⟨m, e, hstate⟩ := ih
    obtain ⟨m', held', hsame⟩ := step.multiplier hstate.reach.wf hstate.held
    rw [multiplier_of_config hstate.config] at hsame
    obtain ⟨e', he', hold, htime, hnew⟩ := config_of_multiplier hsame
    refine ⟨m', e', hstate.reach.run (Run.mono (.single step) fun _ _ => trivial), held',
        he', ?_, ?_⟩
    · rw [ScaledUiAmountConfig.Valid, hold, hnew]
      exact hstate.valid
    · have hat : e'.multiplierAt = e.multiplierAt := by
        funext s
        rw [ScaledUiAmountConfig.multiplierAt, hold, htime, hnew]
        rfl
      rw [hat]
      exact hstate.follows

/-- From the last update on, the multiplier of any time is the one the history decides; an
update for later leaves the multiplier of its own time alone, any other is in effect at
once; and every multiplier stored was validated. -/
theorem multiplier_schedule {rt : Runtime} {M : Pubkey} {x : UInt64}
    {changes : List (Scheduled ℤ UInt64)} {σ : Ledger} (h : MultiplierHistory rt M x changes σ)
    (hclock : Clocked changes) :
    ∃ m e, σ.book.Mint M m ∧ m.get ScaledUiAmountConfig = some e ∧ e.Valid ∧
      (∀ s : Int64, (∀ c ∈ changes, c.asked ≤ s.toInt) →
        Decides x changes s.toInt (e.currentMultiplier s) ∧
        isPositiveNormal (e.currentMultiplier s) = true) ∧
      ∀ ctx accounts y t σ', accounts.head?.map AccountInfo.key = some M →
        0 ≤ ctx.unixTimestamp.toInt →
        process rt ctx accounts (.updateMultiplier y t) σ = .ok σ' →
        ∃ m' e', σ'.book.Mint M m' ∧ m'.get ScaledUiAmountConfig = some e' ∧ e'.Valid ∧
          (ctx.unixTimestamp < t →
            e'.currentMultiplier ctx.unixTimestamp = e.currentMultiplier ctx.unixTimestamp) ∧
          (t ≤ ctx.unixTimestamp →
            ∀ s : Int64, ctx.unixTimestamp ≤ s → e'.currentMultiplier s = y) := by
  obtain ⟨m, e, hstate⟩ := h.state
  refine ⟨m, e, hstate.held, hstate.config, hstate.valid, fun s hafter => ?_,
    fun ctx accounts y t σ' hhead hnow hrun => ?_⟩
  · have hdecides := hstate.follows hclock s.toInt hafter
    rw [e.multiplierAt_toInt] at hdecides
    exact ⟨hdecides, hstate.valid.current s⟩
  · let c : Call := ⟨ctx, accounts, .updateMultiplier y t, σ⟩
    obtain ⟨e', hget, hvalid, held'⟩ := updateMultiplier_book (c := c) hstate.reach.wf rfl
      (c.key?_zero_eq.trans hhead) hstate.held hrun
    obtain rfl := Option.some.inj (hstate.config.symm.trans hget)
    refine ⟨_, _, held', View.get_set_same .., hstate.valid.updated hvalid, fun hlater => ?_,
      fun hdue s hs => ?_⟩
    · have hnot : ¬ t.toInt ≤ ctx.unixTimestamp.toInt :=
        not_le.mpr (Int64.lt_iff_toInt_lt.mp hlater)
      rw [← ScaledUiAmountConfig.multiplierAt_toInt,
        ScaledUiAmountConfig.multiplierAt_updated hnow le_rfl, if_neg hnot, e.multiplierAt_toInt]
    · have hle := Int64.le_iff_toInt_le.mp hs
      rw [← ScaledUiAmountConfig.multiplierAt_toInt,
        ScaledUiAmountConfig.multiplierAt_updated hnow hle,
        if_pos ((Int64.le_iff_toInt_le.mp hdue).trans hle)]

/-! A multiplier that is updated at the times 10 and 20, first for 30 and then for 15. -/

theorem MultiplierHistory.update_scripted {rt : Runtime} {M : Pubkey} {x : UInt64} {σ : Ledger}
    {changes : List (Scheduled ℤ UInt64)} (h : MultiplierHistory rt M x changes σ)
    (ctx : Context) (accounts : List AccountInfo) (y : UInt64) (t : Int64)
    (hhead : (accounts[0]?).map AccountInfo.key = some M)
    (hrun : (toOption (process rt ctx accounts (.updateMultiplier y t) σ)).isSome = true) :
    MultiplierHistory rt M x (changes ++ [⟨ctx.unixTimestamp.toInt, t.toInt, y⟩])
      (scripted rt [(ctx, accounts, .updateMultiplier y t)] σ) :=
  h.update (c := ⟨ctx, accounts, .updateMultiplier y t, σ⟩) hhead rfl (process_scripted hrun)

def multiplierBlank : Ledger :=
  scripted (.modular 2)
    [(.plain, [⟨1, false⟩], .initializeScaledUiAmount ⟨5⟩ 0x3FF0000000000000)] (blank [(1, 226)])

def multiplierMint : Ledger :=
  scripted (.modular 2) [(.plain, [⟨1, false⟩], .initializeMint2 6 5 none)] multiplierBlank

def multiplierTen : Ledger :=
  scripted (.modular 2) [({ Context.plain with unixTimestamp := 10 }, [⟨1, false⟩, ⟨5, true⟩],
    .updateMultiplier 0x4000000000000000 30)] multiplierMint

def multiplierTwenty : Ledger :=
  scripted (.modular 2) [({ Context.plain with unixTimestamp := 20 }, [⟨1, false⟩, ⟨5, true⟩],
    .updateMultiplier 0x4008000000000000 15)] multiplierTen

/-- The second update comes before the first is due, and is for the past. -/
theorem multiplier_schedule_scripted :
    ∃ m e, multiplierTwenty.book.Mint 1 m ∧ m.get ScaledUiAmountConfig = some e ∧
      Decides 0x3FF0000000000000
        [⟨10, 30, 0x4000000000000000⟩, ⟨20, 15, 0x4008000000000000⟩] (40 : ℤ)
        (e.currentMultiplier 40) := by
  have hreach : Reachable (.modular 2) (fun _ => True) multiplierBlank :=
    .scripted (by decide) (fun _ _ _ => trivial) (by decide +kernel)
  obtain ⟨m, hm, hp⟩ := exists_mint multiplierMint 1
    (fun m => decide (m.get ScaledUiAmountConfig =
      some ⟨⟨5⟩, 0x3FF0000000000000, 0, 0x3FF0000000000000⟩)) (by decide +kernel)
          (by decide +kernel)
  have hinitial : MultiplierHistory (.modular 2) 1 0x3FF0000000000000 [] multiplierMint :=
    .initialised hreach (not_mint_of_unpack (by decide +kernel))
      (.scripted trivial (by decide +kernel)) hm (of_decide_eq_true hp) rfl
  have hten : MultiplierHistory (.modular 2) 1 0x3FF0000000000000
      [⟨10, 30, 0x4000000000000000⟩] multiplierTen :=
    hinitial.update_scripted { Context.plain with unixTimestamp := 10 } [⟨1, false⟩, ⟨5, true⟩]
      0x4000000000000000 30 rfl (by decide +kernel)
  have htwenty : MultiplierHistory (.modular 2) 1 0x3FF0000000000000
      [⟨10, 30, 0x4000000000000000⟩, ⟨20, 15, 0x4008000000000000⟩] multiplierTwenty :=
    hten.update_scripted { Context.plain with unixTimestamp := 20 } [⟨1, false⟩, ⟨5, true⟩]
      0x4008000000000000 15 rfl (by decide +kernel)
  have hclock : Clocked [⟨10, 30, 0x4000000000000000⟩, ⟨20, 15, 0x4008000000000000⟩] :=
    ⟨by decide, by decide⟩
  obtain ⟨m, e, held, hget, _, hcurrent, _⟩ := multiplier_schedule htwenty hclock
  exact ⟨m, e, held, hget, (hcurrent 40 (by decide)).1⟩

end SolanaEasy.Token
