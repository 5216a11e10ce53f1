import SolanaEasy.Lib.Sweep
import SolanaEasy.Token.Overwrite
import SolanaEasy.Token.Refine.ConfidentialTransferFee

/-!
# Rounds — collecting withheld fees from any list of accounts

Both kinds of fee are collected by the same round: every valid account of the mint gives
what it withholds once and keeps nothing, every other account is passed over. The mint, or
the destination, is borrowed throughout and gets the sum. Nothing is assumed of the ledger.
-/

namespace SolanaEasy.Token

open Processor Sweep

section Round

variable {V : Type} [Pod V] [Extension V] {e x y : V} {M k d : Pubkey} {ks : List Pubkey}
  {σ σ₁ σ' : Ledger}

/-- What is withheld at `k`, where there is a valid account of the mint `M` with the extension. -/
def withheld (V : Type) [Pod V] [Extension V] (M : Pubkey) (σ : Ledger) (k : Pubkey) : Option V :=
  if (σ k).owner = Keys.tokenProgram then
    (toOption (load σ PodAccount k)).bind fun s =>
      if s.base.mint = M then toOption (s.getExtension V) else none
  else none

theorem withheld_eq_some :
    withheld V M σ k = some x ↔ (σ k).owner = Keys.tokenProgram ∧
      ∃ s, load σ PodAccount k = .ok s ∧ s.base.mint = M ∧ s.getExtension V = .ok x := by
  by_cases howner : (σ k).owner = Keys.tokenProgram
  · rw [withheld, if_pos howner, Option.bind_eq_some_iff]
    simp only [toOption_eq_some, howner, true_and]
    refine exists_congr fun s => and_congr_right fun _ => ?_
    by_cases hmint : s.base.mint = M
    · rw [if_pos hmint, toOption_eq_some]
      exact (and_iff_right hmint).symm
    · rw [if_neg hmint]
      exact iff_of_false (by simp) fun h => hmint h.1
  · rw [withheld, if_neg howner]
    exact iff_of_false (by simp) fun h => howner h.1

theorem withheld_congr (h : σ' k = σ k) : withheld V M σ' k = withheld V M σ k := by
  rw [withheld, withheld, load, load, h]

/-- `c'` is `c` with `x` written over the value of its extension, and not a byte besides. -/
def Cell.Overwritten (S : Type) [BaseState S] (c : Cell) (x : V) (c' : Cell) : Prop :=
  ∃ s s', unpack S c.data = .ok s ∧ s.setExtension x = .ok s' ∧ c' = { c with data := s'.bytes }

section Cells

variable {S : Type} [BaseState S] {c c' c'' : Cell}

theorem unpack_overwritten {s s' : PodState S} (hs : unpack S c.data = .ok s)
    (hset : s.setExtension x = .ok s') : unpack S s'.bytes = .ok s' :=
  unpack_eq_ok.mpr ⟨rfl, (PodState.overwrites hset).packed (unpack_eq_ok.mp hs).2⟩

/-- Of two values written to one place the later one stays. -/
theorem Cell.Overwritten.trans (h : c.Overwritten S x c') (h' : c'.Overwritten S y c'') :
    c.Overwritten S y c'' := by
  obtain ⟨s, s₁, hs, hset, rfl⟩ := h
  obtain ⟨s₁', s', hs₁, hset', rfl⟩ := h'
  obtain rfl : s₁ = s₁' := Except.ok.inj ((unpack_overwritten hs hset).symm.trans hs₁)
  rw [(PodState.overwrites hset).again] at hset'
  exact ⟨s, s', hs, hset', rfl⟩

end Cells

/-- The account at `k` has given `x`, and `e` is left in it. -/
structure TakesOut (e : V) (M k : Pubkey) (x : V) (σ σ' : Ledger) : Prop where
  found : withheld V M σ k = some x
  cell : (σ k).Overwritten PodAccount e (σ' k)
  frame : ∀ j, j ≠ k → σ' j = σ j

theorem TakesOut.left (h : TakesOut e M k x σ σ') : withheld V M σ' k = some e := by
  obtain ⟨howner, s, hload, hmint, _⟩ := withheld_eq_some.mp h.found
  obtain ⟨s₀, s', hs, hset, hcell⟩ := h.cell
  obtain rfl : s = s₀ := Except.ok.inj (hload.symm.trans hs)
  have hover := PodState.overwrites hset
  refine withheld_eq_some.mpr ⟨by rw [hcell]; exact howner, s', ?_, ?_, ?_⟩
  · rw [load, hcell]
    exact unpack_overwritten hs hset
  · rw [hover.base, hmint]
  · exact hover.get

/-- The pots of the ledger follow. -/
theorem TakesOut.visit (h : TakesOut e M k x σ σ') :
    withheld V M σ' = Sweep.visit e (withheld V M σ) k := by
  funext j
  by_cases hj : j = k
  · subst hj
    rw [h.left, Sweep.visit, Function.update_self, h.found, Option.map_some]
  · rw [Sweep.visit, Function.update_of_ne hj, withheld_congr (h.frame j hj)]

/-- Whatever is withheld can be taken out. -/
theorem exists_takesOut (h : withheld V M σ k = some x) (e : V) :
    ∃ s s', load σ PodAccount k = .ok s ∧ s.base.mint = M ∧ s.getExtension V = .ok x ∧
      s.setExtension e = .ok s' ∧ store σ k s' = .ok (σ.set k { σ k with data := s'.bytes }) := by
  obtain ⟨howner, s, hload, hmint, hget⟩ := withheld_eq_some.mp h
  obtain ⟨s', hset⟩ := PodState.exists_setExtension (PodState.getExtension_eq_ok.mp hget) e
  exact ⟨s, s', hload, hmint, hget, hset, store_eq_ok.mpr ⟨.inl howner, rfl⟩⟩

theorem takesOut_of_store {s s' : PodState PodAccount} (hload : load σ PodAccount k = .ok s)
    (hmint : s.base.mint = M) (howner : (σ k).owner = Keys.tokenProgram)
    (hget : s.getExtension V = .ok x) (hset : s.setExtension e = .ok s')
    (hstore : store σ k s' = .ok σ') : TakesOut e M k x σ σ' := by
  obtain ⟨_, rfl⟩ := store_eq_ok.mp hstore
  refine ⟨withheld_eq_some.mpr ⟨howner, s, hload, hmint, hget⟩, ⟨s, s', hload, hset, ?_⟩,
    fun j hj => Ledger.set_of_ne _ _ hj⟩
  rw [Ledger.set_same]

/-- What a round through the accounts `ks` does, except to `h`: valid accounts of the mint `M`
keep nothing of what they withheld and all the rest, the others stay as they are. -/
structure Emptied (e : V) (M h : Pubkey) (ks : List Pubkey) (σ σ' : Ledger) : Prop where
  taken : ∀ k ∈ ks, k ≠ h → (withheld V M σ k).isSome = true →
    (σ k).Overwritten PodAccount e (σ' k) ∧ withheld V M σ' k = some e
  kept : ∀ k, k ≠ h → (k ∈ ks → withheld V M σ k = none) → σ' k = σ k

/-- A round in which `h` is borrowed. -/
structure Swept (e : V) (M h : Pubkey) (ks : List Pubkey) (σ σ' : Ledger) : Prop
    extends Emptied e M h ks σ σ' where
  borrowed : σ' h = σ h

namespace Swept

theorem nil (σ : Ledger) : Swept e M d [] σ σ where
  taken _ hk := absurd hk List.not_mem_nil
  kept _ _ _ := rfl
  borrowed := rfl

/-- An account that is passed over. -/
theorem skip (hskip : k = d ∨ withheld V M σ k = none) (h : Swept e M d ks σ σ') :
    Swept e M d (k :: ks) σ σ' where
  taken j hj hne hsome := by
    refine h.taken j ((List.mem_cons.mp hj).resolve_left ?_) hne hsome
    rintro rfl
    rw [hskip.resolve_left hne] at hsome
    cases hsome
  kept j hne hnone := h.kept j hne fun hj => hnone (List.mem_cons_of_mem _ hj)
  borrowed := h.borrowed

/-- An account that gives what it withholds, possibly not for the last time. -/
theorem take (hne : k ≠ d) (ht : TakesOut e M k x σ σ₁) (h : Swept e M d ks σ₁ σ') :
    Swept e M d (k :: ks) σ σ' where
  taken j hj hd hsome := by
    by_cases hjk : j = k
    · subst hjk
      have hleft : withheld V M σ₁ j = some e := ht.left
      by_cases hmem : j ∈ ks
      · obtain ⟨hcell, hlast⟩ := h.taken j hmem hd (by rw [hleft]; rfl)
        exact ⟨ht.cell.trans hcell, hlast⟩
      · have hsame := h.kept j hd fun hj' => absurd hj' hmem
        rw [hsame, withheld_congr hsame]
        exact ⟨ht.cell, hleft⟩
    · have hframe := ht.frame j hjk
      have hlast := h.taken j ((List.mem_cons.mp hj).resolve_left hjk) hd
        (by rw [withheld_congr hframe]; exact hsome)
      rw [hframe] at hlast
      exact hlast
  kept j hd hnone := by
    have hjk : j ≠ k := by
      rintro rfl
      have := hnone List.mem_cons_self
      rw [ht.found] at this
      cases this
    have hframe := ht.frame j hjk
    rw [h.kept j hd fun hj => ?_, hframe]
    rw [withheld_congr hframe]
    exact hnone (List.mem_cons_of_mem _ hj)
  borrowed := h.borrowed.trans (ht.frame d (Ne.symm hne))

end Swept

/-- A round that starts with the sum `a` and ends with `a'`; `own` is the pot of `d` itself, which
is read from the borrowed state. -/
structure Round {A : Type} (plus : A → V → Option A) (e : V) (M d : Pubkey) (ks : List Pubkey)
    (own : Option V) (σ σ' : Ledger) (a a' : A) : Prop where
  swept : Swept e M d ks σ σ'
  apart : ∀ k ∈ ks, k ≠ d → k ≠ M
  sum : (takings e (Function.update (withheld V M σ) d own) ks).foldlM plus a = some a'

/-- The borrowed account is written back. -/
theorem Swept.stored {S : Type} [BaseState S] {s : PodState S} (h : Swept e M d ks σ σ₁)
    (hstore : store σ₁ d s = .ok σ') :
    Emptied e M d ks σ σ' ∧ σ' d = { σ d with data := s.bytes } := by
  obtain ⟨_, rfl⟩ := store_eq_ok.mp hstore
  have hframe : ∀ k, k ≠ d → (σ₁.set d { σ₁ d with data := s.bytes }) k = σ₁ k :=
    fun k hk => Ledger.set_of_ne _ _ hk
  refine ⟨⟨fun k hk hne hsome => ?_, fun k hne hnone => ?_⟩, ?_⟩
  · rw [withheld_congr (hframe k hne), hframe k hne]
    exact h.taken k hk hne hsome
  · rw [hframe k hne]
    exact h.kept k hne hnone
  · rw [Ledger.set_same, h.borrowed]

namespace Round

variable {A : Type} {plus : A → V → Option A} {own : Option V} {a b a' : A}

theorem nil (σ : Ledger) (a : A) : Round plus e M d [] own σ σ a a :=
  ⟨.nil σ, fun _ hk => absurd hk List.not_mem_nil, rfl⟩

theorem skip (hd : k ≠ d) (hM : k ≠ M) (hnone : withheld V M σ k = none)
    (h : Round plus e M d ks own σ σ' a a') : Round plus e M d (k :: ks) own σ σ' a a' where
  swept := h.swept.skip (.inr hnone)
  apart j hj hne := by
    rcases List.mem_cons.mp hj with rfl | hj
    · exact hM
    · exact h.apart j hj hne
  sum := by
    rw [takings_cons_none (by rw [Function.update_of_ne hd, hnone])]
    exact h.sum

theorem take (hd : k ≠ d) (hM : k ≠ M) (ht : TakesOut e M k x σ σ₁) (hplus : plus a x = some b)
    (h : Round plus e M d ks own σ₁ σ' b a') : Round plus e M d (k :: ks) own σ σ' a a' where
  swept := h.swept.take hd ht
  apart j hj hne := by
    rcases List.mem_cons.mp hj with rfl | hj
    · exact hM
    · exact h.apart j hj hne
  sum := by
    rw [takings_cons_some (by rw [Function.update_of_ne hd, ht.found]), List.foldlM_cons, hplus,
      visit_update_of_ne (Ne.symm hd), ← ht.visit]
    exact h.sum

/-- The borrowed account is among the sources itself. -/
theorem self (hplus : plus a x = some b) (h : Round plus e M d ks (some e) σ σ' b a') :
    Round plus e M d (d :: ks) (some x) σ σ' a a' where
  swept := h.swept.skip (.inl rfl)
  apart j hj hne := h.apart j ((List.mem_cons.mp hj).resolve_left hne) hne
  sum := by
    rw [takings_cons_some (Function.update_self ..), visit_update_same, List.foldlM_cons, hplus]
    exact h.sum

end Round

end Round

/-- What the credits to a state do besides: `e` is left in an extension, if it is among the
accounts. -/
structure Cleared {V : Type} [Pod V] [Extension V] (e : V) (own : Prop)
    (t t' : PodState PodAccount) : Prop where
  cleared : own → t.setExtension e = .ok { t' with base := t.base }
  kept : ¬ own → { t' with base := t.base } = t

namespace Cleared

variable {V : Type} [Pod V] [Extension V] {e : V} {own own' : Prop} {t t₁ t' : PodState PodAccount}

theorem refl (e : V) (hown : ¬ own) (t : PodState PodAccount) : Cleared e own t t :=
  ⟨fun h => absurd h hown, fun _ => rfl⟩

/-- A credit comes first. -/
theorem credit {base : PodAccount} (hown : own' ↔ own)
    (h : Cleared e own { t with base := base } t') : Cleared e own' t t' where
  cleared h' := by
    have hset := PodState.setExtension_withBase t.base (h.cleared (hown.mp h'))
    exact hset
  kept h' := congrArg (fun s : PodState PodAccount => { s with base := t.base })
    (h.kept fun hmem => h' (hown.mpr hmem))

/-- Other extensions have no part in it. -/
theorem get_of_ne {W : Type} [Pod W] [Extension W] (h : Cleared e own t t')
    (hne : Extension.type W ≠ Extension.type V) : t'.view.get W = t.view.get W := by
  by_cases hown : own
  · have hget := congrArg (View.get · W) (PodState.overwrites (h.cleared hown)).view
    rw [View.get_set_of_ne _ _ hne] at hget
    exact hget
  · have hget := congrArg (fun s : PodState PodAccount => s.view.get W) (h.kept hown)
    exact hget

/-- The state has been cleared already. -/
theorem again (hown : own') (hset : t.setExtension e = .ok { t₁ with base := t.base })
    (h : Cleared e own t₁ t') : Cleared e own' t t' where
  cleared _ := by
    by_cases hown : own
    · have hset' := PodState.setExtension_withBase t.base (h.cleared hown)
      rw [(PodState.overwrites hset).again] at hset'
      exact hset'
    · have hkept := congrArg (fun s : PodState PodAccount => { s with base := t.base })
        (h.kept hown)
      rw [hset]
      exact congrArg Except.ok hkept.symm
  kept h' := absurd hown h'

end Cleared

section Loops

variable {rt : Runtime} {M k d : Pubkey} {infos : List AccountInfo} {σ σ' : Ledger}

/-! ## Plain fees -/

namespace Processor.TransferFee

/-- What is left in an account. -/
abbrev noFee : TransferFeeAmount := ⟨0⟩

/-- `checked_add` of what an account has withheld. -/
def plus (sum : UInt64) (fee : TransferFeeAmount) : Option UInt64 :=
  checkedAdd sum fee.withheldAmount

theorem takesOut_of_harvest {x : UInt64} (h : harvestFromAccount σ M k = .ok (σ', x)) :
    ∃ fee : TransferFeeAmount, fee.withheldAmount = x ∧ TakesOut noFee M k fee σ σ' := by
  simp only [harvestFromAccount, checkProgramAccount, bind_eq_ok, exists_unit, mapErr_eq_ok,
    failIf_eq_ok, bne_eq_false_iff_eq, pure_eq_ok, Prod.mk.injEq] at h
  obtain ⟨s, hload, hmint, howner, fee, hget, s', hset, σ₁, hstore, rfl, rfl⟩ := h
  exact ⟨fee, rfl, takesOut_of_store hload hmint howner hget hset hstore⟩

theorem withheld_of_no_harvest (h : toOption (harvestFromAccount σ M k) = none) :
    withheld TransferFeeAmount M σ k = none := by
  by_contra hsome
  obtain ⟨fee, hfee⟩ := Option.ne_none_iff_exists'.mp hsome
  obtain ⟨s, s', hload, hmint, hget, hset, hstore⟩ := exists_takesOut hfee noFee
  have howner := (withheld_eq_some.mp hfee).1
  simp [harvestFromAccount, checkProgramAccount, hload, hmint, hget, hset, hstore, howner, failIf,
    mapErr] at h

/-- The loop that harvests to the mint. -/
theorem harvestAll_round {config config' : TransferFeeConfig}
    (h : harvestAll M infos σ config = .ok (σ', config')) :
    M ∉ infos.map (·.key) ∧ ∃ sum, config' = { config with withheldAmount := sum } ∧
      Round plus noFee M M (infos.map (·.key)) (withheld _ M σ M) σ σ' config.withheldAmount
        sum := by
  induction infos generalizing σ config with
  | nil =>
    obtain ⟨rfl, rfl⟩ := Prod.mk.inj (Except.ok.inj h)
    exact ⟨List.not_mem_nil, _, rfl, .nil _ _⟩
  | cons info infos ih =>
    simp only [harvestAll, bind_eq_ok, exists_unit, failIf_eq_ok, beq_eq_false_iff_ne] at h
    obtain ⟨hne, h⟩ := h
    cases hharvest : toOption (harvestFromAccount σ M info.key) with
    | none =>
      rw [hharvest] at h
      obtain ⟨hmem, sum, hconfig, hround⟩ := ih h
      exact ⟨List.not_mem_cons_of_ne_of_not_mem (Ne.symm hne) hmem, sum, hconfig,
        hround.skip hne hne (withheld_of_no_harvest hharvest)⟩
    | some p =>
      obtain ⟨σ₁, x⟩ := p
      rw [hharvest] at h
      simp only [bind_eq_ok, okOr_eq_ok] at h
      obtain ⟨sum, hsum, h⟩ := h
      obtain ⟨fee, rfl, htakes⟩ := takesOut_of_harvest (toOption_eq_some.mp hharvest)
      obtain ⟨hmem, total, rfl, hround⟩ := ih h
      rw [withheld_congr (htakes.frame M (Ne.symm hne))] at hround
      exact ⟨List.not_mem_cons_of_ne_of_not_mem (Ne.symm hne) hmem, total, rfl,
        hround.take hne hne htakes hsum⟩

theorem harvestSelf_credit {t t₁ : PodState PodAccount} (h : harvestSelf t = .ok t₁) :
    ∃ fee : TransferFeeAmount, t.getExtension TransferFeeAmount = .ok fee ∧
      plus t.base.amount fee = some t₁.base.amount ∧
      t₁.base = { t.base with amount := t₁.base.amount } ∧
      t.setExtension noFee = .ok { t₁ with base := t.base } := by
  simp only [harvestSelf, bind_eq_ok, mapErr_eq_ok, okOr_eq_ok, pure_eq_ok] at h
  obtain ⟨fee, hget, t₁, hset, sum, hsum, rfl⟩ := h
  have hbase := (PodState.overwrites hset).base
  rw [hbase] at hsum
  refine ⟨fee, hget, hsum, ?_, ?_⟩
  · rw [hbase]
  · rw [← hbase]
    exact hset

/-- The loop that withdraws to an account. -/
theorem withdrawAll_round {t t' : PodState PodAccount}
    (h : withdrawAll M d infos σ t = .ok (σ', t')) :
    Cleared noFee (d ∈ infos.map (·.key)) t t' ∧
      t'.base = { t.base with amount := t'.base.amount } ∧
      Round plus noFee M d (infos.map (·.key)) (toOption (t.getExtension _)) σ σ' t.base.amount
        t'.base.amount := by
  induction infos generalizing σ t with
  | nil =>
    obtain ⟨rfl, rfl⟩ := Prod.mk.inj (Except.ok.inj h)
    exact ⟨.refl _ List.not_mem_nil _, rfl, .nil _ _⟩
  | cons info infos ih =>
    rw [withdrawAll] at h
    by_cases hself : info.key = d
    · rw [if_pos (by simpa using hself)] at h
      simp only [bind_eq_ok] at h
      obtain ⟨t₁, hharvest, h⟩ := h
      obtain ⟨fee, hget, hsum, hbase, hset⟩ := harvestSelf_credit hharvest
      obtain ⟨hcleared, hbase', hround⟩ := ih h
      have hleft : t₁.getExtension TransferFeeAmount = .ok noFee :=
        (PodState.overwrites hset).get
      rw [hleft] at hround
      rw [List.map_cons, hself, hget]
      exact ⟨hcleared.again List.mem_cons_self hset, by rw [hbase', hbase], hround.self hsum⟩
    · rw [if_neg (by simpa using hself)] at h
      simp only [bind_eq_ok, exists_unit, failIf_eq_ok, beq_eq_false_iff_ne] at h
      obtain ⟨hne, h⟩ := h
      have hmem : d ∈ (info :: infos).map (·.key) ↔ d ∈ infos.map (·.key) :=
        List.mem_cons.trans (or_iff_right (Ne.symm hself))
      cases hharvest : toOption (harvestFromAccount σ M info.key) with
      | none =>
        rw [hharvest] at h
        obtain ⟨hcleared, hbase, hround⟩ := ih h
        exact ⟨hcleared.credit hmem, hbase,
          hround.skip hself hne (withheld_of_no_harvest hharvest)⟩
      | some p =>
        obtain ⟨σ₁, x⟩ := p
        rw [hharvest] at h
        simp only [bind_eq_ok, okOr_eq_ok] at h
        obtain ⟨sum, hsum, h⟩ := h
        obtain ⟨fee, rfl, htakes⟩ := takesOut_of_harvest (toOption_eq_some.mp hharvest)
        obtain ⟨hcleared, hbase, hround⟩ := ih h
        exact ⟨hcleared.credit hmem, by rw [hbase], hround.take hself hne htakes hsum⟩

end Processor.TransferFee

/-! ## Fees under encryption -/

namespace Processor.ConfidentialTransferFee

open CiphertextArithmetic ConfidentialTransfer

abbrev noFee : ConfidentialTransferFeeAmount := ⟨.zeroed⟩

/-- `ciphertext_arithmetic::add` of what an account has withheld. -/
def plus (rt : Runtime) (sum : PodElGamalCiphertext) (fee : ConfidentialTransferFeeAmount) :
    Option PodElGamalCiphertext := add rt sum fee.withheldAmount

theorem takesOut_of_harvest {x : PodElGamalCiphertext}
    (h : harvestFromAccount σ M k = .ok (σ', x)) :
    ∃ fee : ConfidentialTransferFeeAmount, fee.withheldAmount = x ∧
      TakesOut noFee M k fee σ σ' := by
  simp only [harvestFromAccount, checkProgramAccount, bind_eq_ok, exists_unit, mapErr_eq_ok,
    failIf_eq_ok, bne_eq_false_iff_eq, pure_eq_ok, Prod.mk.injEq] at h
  obtain ⟨s, hload, hmint, howner, fee, hget, s', hset, σ₁, hstore, rfl, rfl⟩ := h
  exact ⟨fee, rfl, takesOut_of_store hload hmint howner hget hset hstore⟩

theorem withheld_of_no_harvest (h : toOption (harvestFromAccount σ M k) = none) :
    withheld ConfidentialTransferFeeAmount M σ k = none := by
  by_contra hsome
  obtain ⟨fee, hfee⟩ := Option.ne_none_iff_exists'.mp hsome
  obtain ⟨s, s', hload, hmint, hget, hset, hstore⟩ := exists_takesOut hfee noFee
  have howner := (withheld_eq_some.mp hfee).1
  simp [harvestFromAccount, checkProgramAccount, hload, hmint, hget, hset, hstore, howner, failIf,
    mapErr] at h

/-- The loop that harvests to the mint. -/
theorem harvestAll_round {config config' : ConfidentialTransferFeeConfig}
    (h : harvestAll rt M infos σ config = .ok (σ', config')) :
    M ∉ infos.map (·.key) ∧ ∃ sum, config' = { config with withheldAmount := sum } ∧
      Round (plus rt) noFee M M (infos.map (·.key)) (withheld _ M σ M) σ σ' config.withheldAmount
        sum := by
  induction infos generalizing σ config with
  | nil =>
    obtain ⟨rfl, rfl⟩ := Prod.mk.inj (Except.ok.inj h)
    exact ⟨List.not_mem_nil, _, rfl, .nil _ _⟩
  | cons info infos ih =>
    simp only [harvestAll, bind_eq_ok, exists_unit, failIf_eq_ok, beq_eq_false_iff_ne] at h
    obtain ⟨hne, h⟩ := h
    cases hharvest : toOption (harvestFromAccount σ M info.key) with
    | none =>
      rw [hharvest] at h
      obtain ⟨hmem, sum, hconfig, hround⟩ := ih h
      exact ⟨List.not_mem_cons_of_ne_of_not_mem (Ne.symm hne) hmem, sum, hconfig,
        hround.skip hne hne (withheld_of_no_harvest hharvest)⟩
    | some p =>
      obtain ⟨σ₁, x⟩ := p
      rw [hharvest] at h
      simp only [arithmetic, bind_eq_ok, okOr_eq_ok] at h
      obtain ⟨sum, hsum, h⟩ := h
      obtain ⟨fee, rfl, htakes⟩ := takesOut_of_harvest (toOption_eq_some.mp hharvest)
      obtain ⟨hmem, total, rfl, hround⟩ := ih h
      rw [withheld_congr (htakes.frame M (Ne.symm hne))] at hround
      exact ⟨List.not_mem_cons_of_ne_of_not_mem (Ne.symm hne) hmem, total, rfl,
        hround.take hne hne htakes hsum⟩

/-- The loop that withdraws to an account. -/
theorem withdrawAll_round {t t' : PodState PodAccount} {aggregate aggregate' : PodElGamalCiphertext}
    (h : withdrawAll rt M d infos σ t aggregate = .ok (σ', t', aggregate')) :
    Cleared noFee (d ∈ infos.map (·.key)) t t' ∧ t'.base = t.base ∧
      Round (plus rt) noFee M d (infos.map (·.key)) (toOption (t.getExtension _)) σ σ' aggregate
        aggregate' := by
  induction infos generalizing σ t aggregate with
  | nil =>
    obtain ⟨rfl, hpair⟩ := Prod.mk.inj (Except.ok.inj h)
    obtain ⟨rfl, rfl⟩ := Prod.mk.inj hpair
    exact ⟨.refl _ List.not_mem_nil _, rfl, .nil _ _⟩
  | cons info infos ih =>
    rw [withdrawAll] at h
    by_cases hself : info.key = d
    · rw [if_pos (by simpa using hself)] at h
      simp only [arithmetic, bind_eq_ok, mapErr_eq_ok, okOr_eq_ok] at h
      obtain ⟨fee, hget, sum, hsum, t₁, hset, h⟩ := h
      have hover := PodState.overwrites hset
      obtain ⟨hcleared, hbase, hround⟩ := ih h
      rw [hover.get] at hround
      rw [List.map_cons, hself, hget]
      refine ⟨hcleared.again List.mem_cons_self ?_, by rw [hbase, hover.base], hround.self hsum⟩
      rw [← hover.base]
      exact hset
    · rw [if_neg (by simpa using hself)] at h
      simp only [bind_eq_ok, exists_unit, failIf_eq_ok, beq_eq_false_iff_ne] at h
      obtain ⟨hne, h⟩ := h
      have hmem : d ∈ (info :: infos).map (·.key) ↔ d ∈ infos.map (·.key) :=
        List.mem_cons.trans (or_iff_right (Ne.symm hself))
      cases hharvest : toOption (harvestFromAccount σ M info.key) with
      | none =>
        rw [hharvest] at h
        obtain ⟨hcleared, hbase, hround⟩ := ih h
        exact ⟨hcleared.credit hmem, hbase,
          hround.skip hself hne (withheld_of_no_harvest hharvest)⟩
      | some p =>
        obtain ⟨σ₁, x⟩ := p
        rw [hharvest] at h
        simp only [arithmetic, bind_eq_ok, okOr_eq_ok] at h
        obtain ⟨sum, hsum, h⟩ := h
        obtain ⟨fee, rfl, htakes⟩ := takesOut_of_harvest (toOption_eq_some.mp hharvest)
        obtain ⟨hcleared, hbase, hround⟩ := ih h
        exact ⟨hcleared.credit hmem, hbase, hround.take hself hne htakes hsum⟩

end Processor.ConfidentialTransferFee

end Loops

end SolanaEasy.Token
