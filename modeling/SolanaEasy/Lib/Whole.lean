import SolanaEasy.Lib.Register
import Mathlib.Algebra.Order.BigOperators.Group.Finset

/-!
# Whole numbers — hidden amounts never wrap

Conservation modulo `l` says nothing about the size of a hidden amount. Here the
residues of a register are read as their representatives below `l`, and the
total is conserved as a number: a debit is exact because what remains was shown
to be small, a credit because the total is. Then no hidden amount ever reaches
`2⁶⁴`. What a withdrawal shows leaves sums below `2⁶⁵ - 1`, so that much room is
needed in `l`.
-/

namespace SolanaEasy

/-! ## Representatives -/

section Rep

variable {l : ℕ}

theorem val_add_natCast {x : ZMod l} {n : ℕ} (h : x.val + n < l) : (x + n).val = x.val + n := by
  have hn : (n : ZMod l).val = n := ZMod.val_natCast_of_lt (by omega)
  rw [ZMod.val_add_of_lt (by omega), hn]

theorem Small.val_lt (hl : 2 ^ 64 ≤ l) {x : ZMod l} (h : Small x) : x.val < 2 ^ 64 := by
  obtain ⟨n, hn, rfl⟩ := h
  rwa [ZMod.val_natCast_of_lt (by omega)]

end Rep

/-! ## Totals as numbers -/

def Holding.whole {l : ℕ} (h : Holding (ZMod l)) : ℤ :=
  h.amount + h.withheld + h.secret.pending.val + h.secret.available.val + h.secret.withheld.val

/-- What is hidden, and can be spent at once or after it was applied. -/
def Holding.hidden {l : ℕ} (h : Holding (ZMod l)) : ℕ :=
  h.secret.pending.val + h.secret.available.val

theorem Holding.hidden_zero {l : ℕ} : (0 : Holding (ZMod l)).hidden = 0 := by
  rw [hidden, secret_zero, Secrets.pending_zero, Secrets.available_zero, ZMod.val_zero]

def Issue.whole {l : ℕ} (i : Issue (ZMod l)) : ℤ :=
  i.supply + i.secret.supply.val - i.secret.burned.val - i.withheld - i.secret.withheld.val

theorem whole_nonneg {l : ℕ} (o : Option (Holding (ZMod l))) :
    0 ≤ (o.map Holding.whole).getD 0 := by
  cases o with
  | none => simp
  | some h =>
    simp only [Option.map_some, Option.getD_some, Holding.whole]
    omega

namespace Register

variable {ι : Type} [Fintype ι] {l : ℕ}

def wholeNet (r : Register ι (ZMod l)) : ℤ :=
  ∑ k, ((r.holding k).map Holding.whole).getD 0 - (r.issue.map Issue.whole).getD 0

theorem wholeNet_setIssue (r : Register ι (ZMod l)) (i : Option (Issue (ZMod l))) :
    (r.setIssue i).wholeNet =
      r.wholeNet - ((i.map Issue.whole).getD 0 - (r.issue.map Issue.whole).getD 0) := by
  rw [wholeNet, wholeNet, setIssue]
  abel

theorem wholeNet_setHolding [DecidableEq ι] (r : Register ι (ZMod l)) (k : ι)
    (h : Option (Holding (ZMod l))) :
    (r.setHolding k h).wholeNet = r.wholeNet +
      ((h.map Holding.whole).getD 0 - ((r.holding k).map Holding.whole).getD 0) := by
  have hsum := sum_update r.holding k h fun h => (h.map Holding.whole).getD 0
  rw [wholeNet, wholeNet, setHolding, hsum]
  abel

/-- The total as a number is the one recorded, and it has 64 bits. -/
structure Whole (r : Register ι (ZMod l)) : Prop where
  apart : r.Apart
  net : r.wholeNet = 0
  supplied : ∀ i, r.issue = some i → i.supply < 2 ^ 64 ∧ i.secret.supply.val < 2 ^ 64

theorem empty_whole : (empty : Register ι (ZMod l)).Whole where
  apart := empty_apart
  net := by simp [wholeNet, empty]
  supplied _ hi := nomatch hi

namespace Whole

variable {r r' : Register ι (ZMod l)} {k : ι} {h : Holding (ZMod l)} {i : Issue (ZMod l)}

theorem sum_eq (hw : r.Whole) (issued : r.issue = some i) :
    ∑ k, ((r.holding k).map Holding.whole).getD 0 = i.whole := by
  have hnet := hw.net
  rw [wholeNet, issued, Option.map_some, Option.getD_some] at hnet
  omega

/-- Public and secret supply are not both there. -/
theorem supply_lt (hw : r.Whole) (issued : r.issue = some i) :
    i.supply + i.secret.supply.val < 2 ^ 64 := by
  obtain ⟨hpublic, hsecret⟩ := hw.supplied i issued
  by_cases hsec : i.secretly
  · have hzero := (hw.apart.secretly i issued hsec).1
    omega
  · have hzero := (hw.apart.openly i issued hsec).1
    rw [hzero, ZMod.val_zero]
    omega

theorem holding_le (hw : r.Whole) (issued : r.issue = some i) (held : r.holding k = some h) :
    h.whole ≤ i.whole := by
  have hle := Finset.single_le_sum (fun j _ => whole_nonneg (r.holding j)) (Finset.mem_univ k)
  rw [hw.sum_eq issued, held] at hle
  exact hle

theorem issue_nonneg (hw : r.Whole) (issued : r.issue = some i) : 0 ≤ i.whole := by
  rw [← hw.sum_eq issued]
  exact Finset.sum_nonneg fun j _ => whole_nonneg (r.holding j)

theorem holding_lt (hw : r.Whole) (held : r.holding k = some h) : h.whole < 2 ^ 64 := by
  cases issued : r.issue with
  | none =>
    obtain rfl := hw.apart.unissued issued k h held
    simp [Holding.whole]
  | some i =>
    have hle := hw.holding_le issued held
    have hlt := hw.supply_lt issued
    have hwhole : i.whole ≤ i.supply + i.secret.supply.val := by
      rw [Issue.whole]
      omega
    omega

/-- What is recorded as burned or withheld is part of the supply. -/
theorem issue_le (hw : r.Whole) (issued : r.issue = some i) :
    i.secret.burned.val + i.withheld + i.secret.withheld.val ≤
      i.supply + i.secret.supply.val := by
  have hnonneg := hw.issue_nonneg issued
  rw [Issue.whole] at hnonneg
  omega

theorem burned_le (hw : r.Whole) (issued : r.issue = some i) :
    i.secret.burned.val ≤ i.secret.supply.val := by
  have hle := hw.issue_le issued
  by_cases hsec : i.secretly
  · have hzero := (hw.apart.secretly i issued hsec).1
    omega
  · rw [(hw.apart.openly i issued hsec).2, ZMod.val_zero]
    exact Nat.zero_le _

/-- Where nothing is recorded as outstanding, nobody holds anything. -/
theorem holding_eq_zero (hw : r.Whole) (issued : r.issue = some i)
    (hsupply : i.supply = 0) (hsecret : i.secret.supply = i.secret.burned)
    (held : r.holding k = some h) : h = 0 := by
  have hle := hw.holding_le issued held
  rw [Holding.whole, Issue.whole, hsecret, hsupply] at hle
  have hp : h.secret.pending = 0 := (ZMod.val_eq_zero _).mp (by omega)
  have ha : h.secret.available = 0 := (ZMod.val_eq_zero _).mp (by omega)
  have hx : h.secret.withheld = 0 := (ZMod.val_eq_zero _).mp (by omega)
  obtain ⟨amount, withheld, secret⟩ := h
  have hsec : secret = 0 := Secrets.ext hp ha hx
  simp only at hle
  obtain rfl : amount = 0 := by omega
  obtain rfl : withheld = 0 := by omega
  rw [hsec]
  rfl

/-- The issuer of nothing outstanding may retire. -/
theorem retire (hw : r.Whole) (issued : r.issue = some i) (hsupply : i.supply = 0)
    (hsecret : i.secret.supply = i.secret.burned) : (r.setIssue none).Whole where
  apart :=
    { secretly := by simp
      openly := by simp
      unissued := fun _ _ _ held => hw.holding_eq_zero issued hsupply hsecret held }
  net := by
    have hnonneg := hw.issue_nonneg issued
    have hzero : i.whole = 0 := by
      rw [Issue.whole, hsecret, hsupply] at hnonneg ⊢
      omega
    rw [wholeNet_setIssue, issued, hw.net]
    simp [hzero]
  supplied := by simp

/-! Additions that do not wrap. -/

theorem val_apply (hl : 2 ^ 65 - 1 ≤ l) (hw : r.Whole) (held : r.holding k = some h) :
    (h.secret.available + h.secret.pending).val =
      h.secret.available.val + h.secret.pending.val := by
  have hlt := hw.holding_lt held
  rw [Holding.whole] at hlt
  exact ZMod.val_add_of_lt (by omega)

theorem val_collectIssue (hl : 2 ^ 65 - 1 ≤ l) (hw : r.Whole) (held : r.holding k = some h)
    (issued : r.issue = some i) :
    (h.secret.available + i.secret.withheld).val =
      h.secret.available.val + i.secret.withheld.val := by
  have hlt := hw.holding_lt held
  have hle := hw.issue_le issued
  have hsupply := hw.supply_lt issued
  rw [Holding.whole] at hlt
  exact ZMod.val_add_of_lt (by omega)

end Whole

variable [DecidableEq ι] {Converts : Prop} {r r' : Register ι (ZMod l)}

/-- What a holding has after another one, or the same, has changed. -/
theorem holding_setHolding_cases {ι G : Type} [DecidableEq ι] {r : Register ι G} {s d : ι}
    {h' g : Holding G} (h : (r.setHolding s (some h')).holding d = some g) :
    (d = s ∧ g = h') ∨ (d ≠ s ∧ r.holding d = some g) := by
  by_cases hd : d = s
  · subst hd
    rw [holding_setHolding_same] at h
    exact .inl ⟨rfl, (Option.some.inj h).symm⟩
  · rw [holding_setHolding_of_ne _ _ hd] at h
    exact .inr ⟨hd, h⟩

theorem Whole.val_collect (hl : 2 ^ 65 - 1 ≤ l) (hw : r.Whole) {a d : ι} {h g : Holding (ZMod l)}
    (source : r.holding a = some h)
    (target : (r.setHolding a (some { h with secret :=
      { h.secret with withheld := 0 } })).holding d = some g) :
    (g.secret.available + h.secret.withheld).val =
      g.secret.available.val + h.secret.withheld.val := by
  have hlt := hw.holding_lt source
  have hpre : ∃ g', Holding.whole g' < 2 ^ 64 ∧ g.secret.available = g'.secret.available := by
    rcases holding_setHolding_cases target with ⟨_, rfl⟩ | ⟨_, hd⟩
    · exact ⟨h, hlt, rfl⟩
    · exact ⟨g, hw.holding_lt hd, rfl⟩
  obtain ⟨g', hlt', hga⟩ := hpre
  rw [Holding.whole] at hlt hlt'
  apply ZMod.val_add_of_lt
  rw [hga]
  omega

variable [NeZero l]

/-- Every step conserves the total as a number. -/
theorem Step.wholeNet (hl : 2 ^ 65 - 1 ≤ l) (h : Step Converts r r') (hw : r.Whole) :
    r'.wholeNet = r.wholeNet := by
  cases h with
  | openHolding new issued =>
    rw [wholeNet_setHolding, new]
    simp [Holding.whole]
  | closeHolding zero =>
    rw [wholeNet_setHolding, zero]
    simp [Holding.whole]
  | found secretly new =>
    rw [wholeNet_setIssue, new]
    simp [Issue.whole]
  | mint x held issued open' fits =>
    rw [wholeNet_setIssue, wholeNet_setHolding, issue_setHolding, held, issued]
    simp only [Option.map_some, Option.getD_some, Holding.whole, Issue.whole]
    omega
  | burn x held issued enough supplied =>
    rw [wholeNet_setIssue, wholeNet_setHolding, issue_setHolding, held, issued]
    simp only [Option.map_some, Option.getD_some, Holding.whole, Issue.whole]
    omega
  | transfer x fee ne source target enough part =>
    rw [wholeNet_setHolding, wholeNet_setHolding, holding_setHolding_of_ne _ _ ne, source, target]
    simp only [Option.map_some, Option.getD_some, Holding.whole]
    omega
  | harvest held issued =>
    rw [wholeNet_setIssue, wholeNet_setHolding, issue_setHolding, held, issued]
    simp only [Option.map_some, Option.getD_some, Holding.whole, Issue.whole]
    omega
  | collectIssue held issued =>
    rw [wholeNet_setIssue, wholeNet_setHolding, issue_setHolding, held, issued]
    simp only [Option.map_some, Option.getD_some, Holding.whole, Issue.whole]
    omega
  | collect source issued target =>
    rw [wholeNet_setHolding, wholeNet_setHolding, source, target]
    simp only [Option.map_some, Option.getD_some, Holding.whole]
    omega
  | @deposit k h i x may held issued open' enough =>
    have hlt := hw.holding_lt held
    have hpending : (h.secret.pending + x).val = h.secret.pending.val + x := by
      apply val_add_natCast
      rw [Holding.whole] at hlt
      omega
    rw [wholeNet_setHolding, held]
    simp only [Option.map_some, Option.getD_some, Holding.whole, hpending]
    omega
  | @withdraw k h i x rest may held issued open' word small shown =>
    have hsmall := small.val_lt (by omega)
    have hrest : (rest + x).val = rest.val + x := val_add_natCast (by omega)
    rw [wholeNet_setHolding, held]
    simp only [Option.map_some, Option.getD_some, Holding.whole, shown, hrest]
    omega
  | apply held =>
    rw [wholeNet_setHolding, held]
    simp only [Option.map_some, Option.getD_some, Holding.whole, hw.val_apply hl held,
      ZMod.val_zero]
    omega
  | @secretTransfer s d h g i x fee net rest source issued small shown short shortFee word split
      target =>
    have hsmall := small.val_lt (by omega)
    have hrest : (rest + x).val = rest.val + x := val_add_natCast (by omega)
    -- the parts of the amount add up as numbers
    have hsplit : x = fee + net := by
      have hval := congrArg ZMod.val split
      rwa [← Nat.cast_add, ZMod.val_natCast_of_lt (by omega), ZMod.val_natCast_of_lt (by omega)]
        at hval
    have hpre : ∃ g', Holding.whole g' < 2 ^ 64 ∧ g.secret.pending = g'.secret.pending ∧
        g.secret.withheld = g'.secret.withheld := by
      rcases holding_setHolding_cases target with ⟨_, rfl⟩ | ⟨_, hd⟩
      · exact ⟨h, hw.holding_lt source, rfl, rfl⟩
      · exact ⟨g, hw.holding_lt hd, rfl, rfl⟩
    obtain ⟨g', hlt, hgp, hgw⟩ := hpre
    rw [Holding.whole] at hlt
    have hpending : (g.secret.pending + net).val = g.secret.pending.val + net := by
      apply val_add_natCast
      rw [hgp]
      omega
    have hwithheld : (g.secret.withheld + fee).val = g.secret.withheld.val + fee := by
      apply val_add_natCast
      rw [hgw]
      omega
    rw [wholeNet_setHolding, wholeNet_setHolding, source, target]
    simp only [Option.map_some, Option.getD_some, Holding.whole, shown, hrest, hpending, hwithheld]
    omega
  | @secretHarvest a h i held issued =>
    have hlt := hw.holding_lt held
    have hle := hw.issue_le issued
    have hsupply := hw.supply_lt issued
    have hsum : (i.secret.withheld + h.secret.withheld).val =
        i.secret.withheld.val + h.secret.withheld.val := by
      apply ZMod.val_add_of_lt
      rw [Holding.whole] at hlt
      omega
    rw [wholeNet_setIssue, wholeNet_setHolding, issue_setHolding, held, issued]
    simp only [Option.map_some, Option.getD_some, Holding.whole, Issue.whole, hsum, ZMod.val_zero]
    omega
  | secretCollectIssue held issued =>
    have hsum := hw.val_collectIssue hl held issued
    rw [wholeNet_setIssue, wholeNet_setHolding, issue_setHolding, held, issued]
    simp only [Option.map_some, Option.getD_some, Holding.whole, Issue.whole, hsum, ZMod.val_zero]
    omega
  | secretCollect source issued target =>
    rw [wholeNet_setHolding, wholeNet_setHolding, source, target]
    simp only [Option.map_some, Option.getD_some, Holding.whole, hw.val_collect hl source target,
      ZMod.val_zero]
    omega
  | @secretMint d h i x held issued secret short small =>
    have hlt := hw.holding_lt held
    have hsupply := hw.supply_lt issued
    rw [Holding.whole] at hlt
    have hpending : (h.secret.pending + x).val = h.secret.pending.val + x :=
      val_add_natCast (by omega)
    have hsum : (i.secret.supply + x).val = i.secret.supply.val + x :=
      val_add_natCast (by omega)
    rw [wholeNet_setIssue, wholeNet_setHolding, issue_setHolding, held, issued]
    simp only [Option.map_some, Option.getD_some, Holding.whole, Issue.whole, hpending, hsum]
    omega
  | @secretBurn s h i x rest held issued secret short small shown =>
    have hsmall := small.val_lt (by omega)
    have hrest : (rest + x).val = rest.val + x := val_add_natCast (by omega)
    have hle := hw.issue_le issued
    have hsupply := hw.supply_lt issued
    have hburned : (i.secret.burned + x).val = i.secret.burned.val + x :=
      val_add_natCast (by omega)
    rw [wholeNet_setIssue, wholeNet_setHolding, issue_setHolding, held, issued]
    simp only [Option.map_some, Option.getD_some, Holding.whole, Issue.whole, shown, hrest,
      hburned]
    omega
  | @applyBurn i issued =>
    have hle := hw.burned_le issued
    have hsub := ZMod.val_sub hle
    rw [wholeNet_setIssue, issued]
    simp only [Option.map_some, Option.getD_some, Issue.whole, hsub, ZMod.val_zero]
    omega

/-- The public supply fits a word, the secret supply is shown to. -/
theorem Step.supplied (hl : 2 ^ 65 - 1 ≤ l) (h : Step Converts r r') (hw : r.Whole) {i}
    (issued : r'.issue = some i) : i.supply < 2 ^ 64 ∧ i.secret.supply.val < 2 ^ 64 := by
  cases h with
  | openHolding new issued' => exact hw.supplied i issued
  | closeHolding zero => exact hw.supplied i issued
  | found secretly new =>
    obtain rfl := Option.some.inj issued
    simp
  | mint x held issued' open' fits =>
    obtain rfl := Option.some.inj issued
    exact ⟨fits, (hw.supplied _ issued').2⟩
  | burn x held issued' enough supplied =>
    obtain rfl := Option.some.inj issued
    exact ⟨(Nat.sub_le _ _).trans_lt (hw.supplied _ issued').1, (hw.supplied _ issued').2⟩
  | transfer x fee ne source target enough part => exact hw.supplied i issued
  | harvest held issued' =>
    obtain rfl := Option.some.inj issued
    have hold := hw.supplied _ issued'
    exact ⟨hold.1, hold.2⟩
  | collectIssue held issued' =>
    obtain rfl := Option.some.inj issued
    have hold := hw.supplied _ issued'
    exact ⟨hold.1, hold.2⟩
  | collect source issued' target => exact hw.supplied i issued
  | deposit x may held issued' open' enough => exact hw.supplied i issued
  | withdraw x rest may held issued' open' word small shown => exact hw.supplied i issued
  | apply held => exact hw.supplied i issued
  | secretTransfer x fee net rest source issued' small shown short shortFee word split target =>
    exact hw.supplied i issued
  | secretHarvest held issued' =>
    obtain rfl := Option.some.inj issued
    have hold := hw.supplied _ issued'
    exact ⟨hold.1, hold.2⟩
  | secretCollectIssue held issued' =>
    obtain rfl := Option.some.inj issued
    have hold := hw.supplied _ issued'
    exact ⟨hold.1, hold.2⟩
  | secretCollect source issued' target => exact hw.supplied i issued
  | secretMint x held issued' secret short small =>
    obtain rfl := Option.some.inj issued
    exact ⟨(hw.supplied _ issued').1, small.val_lt (by omega)⟩
  | secretBurn x rest held issued' secret short small shown =>
    obtain rfl := Option.some.inj issued
    have hold := hw.supplied _ issued'
    exact ⟨hold.1, hold.2⟩
  | @applyBurn j issued' =>
    obtain rfl := Option.some.inj issued
    refine ⟨(hw.supplied _ issued').1, ?_⟩
    show (j.secret.supply - j.secret.burned).val < _
    rw [ZMod.val_sub (hw.burned_le issued')]
    exact (Nat.sub_le _ _).trans_lt (hw.supplied _ issued').2

theorem Step.whole (hl : 2 ^ 65 - 1 ≤ l) (h : Step Converts r r') (hw : r.Whole) : r'.Whole where
  apart := h.apart hw.apart
  net := (h.wholeNet hl hw).trans hw.net
  supplied _ hi := h.supplied hl hw hi

theorem Steps.whole (hl : 2 ^ 65 - 1 ≤ l) (h : Steps Converts r r') (hw : r.Whole) :
    r'.Whole := by
  induction h with
  | refl => exact hw
  | tail _ hstep ih => exact hstep.whole hl ih

end Register

/-! ## Gains -/

namespace Register

section Gains

variable {ι : Type} {l : ℕ} {r r' : Register ι (ZMod l)}

/-- What is held in the open, and what is hidden, at `k`. -/
def openAt (r : Register ι (ZMod l)) (k : ι) : ℕ := ((r.holding k).map Holding.amount).getD 0

def hiddenAt (r : Register ι (ZMod l)) (k : ι) : ℕ := ((r.holding k).map Holding.hidden).getD 0

/-- Nobody has less than before. -/
structure Gains (r r' : Register ι (ZMod l)) : Prop where
  openly : ∀ k, r.openAt k ≤ r'.openAt k
  hidden : ∀ k, r.hiddenAt k ≤ r'.hiddenAt k

theorem Gains.refl (r : Register ι (ZMod l)) : r.Gains r := ⟨fun _ => le_rfl, fun _ => le_rfl⟩

theorem Gains.trans {r₁ r₂ r₃ : Register ι (ZMod l)} (h : r₁.Gains r₂) (h' : r₂.Gains r₃) :
    r₁.Gains r₃ :=
  ⟨fun k => (h.openly k).trans (h'.openly k), fun k => (h.hidden k).trans (h'.hidden k)⟩

variable [DecidableEq ι]

theorem gains_setHolding {k : ι} {h : Option (Holding (ZMod l))}
    (openly : r.openAt k ≤ (h.map Holding.amount).getD 0)
    (hidden : r.hiddenAt k ≤ (h.map Holding.hidden).getD 0) : r.Gains (r.setHolding k h) := by
  constructor
  · intro j
    by_cases hj : j = k
    · subst hj
      rwa [openAt, openAt, holding_setHolding_same]
    · rw [openAt, openAt, holding_setHolding_of_ne _ _ hj]
  · intro j
    by_cases hj : j = k
    · subst hj
      rwa [hiddenAt, hiddenAt, holding_setHolding_same]
    · rw [hiddenAt, hiddenAt, holding_setHolding_of_ne _ _ hj]

/-- A holding that grows. -/
theorem gains_setHolding_some {k : ι} {h h' : Holding (ZMod l)} (held : r.holding k = some h)
    (openly : h.amount ≤ h'.amount) (hidden : h.hidden ≤ h'.hidden) :
    r.Gains (r.setHolding k (some h')) := by
  apply gains_setHolding
  · rwa [openAt, held]
  · rwa [hiddenAt, held]

/-- Whatever the issuer records. -/
theorem gains_setIssue {k : ι} {h h' : Holding (ZMod l)} {i : Option (Issue (ZMod l))}
    (held : r.holding k = some h) (openly : h.amount ≤ h'.amount) (hidden : h.hidden ≤ h'.hidden) :
    r.Gains ((r.setHolding k (some h')).setIssue i) :=
  have hgains := gains_setHolding_some held openly hidden
  ⟨hgains.openly, hgains.hidden⟩

end Gains

variable {ι : Type} [Fintype ι] [DecidableEq ι] {l : ℕ} {r r' : Register ι (ZMod l)}

/-- Nobody has less after an idle step. -/
theorem Idle.gains (hl : 2 ^ 65 - 1 ≤ l) (h : Idle r r') (hw : r.Whole) : r.Gains r' := by
  cases h with
  | openHolding new issued =>
    apply gains_setHolding
    · rw [openAt, new]
      exact Nat.zero_le _
    · rw [hiddenAt, new]
      exact Nat.zero_le _
  | closeHolding zero =>
    apply gains_setHolding
    · rw [openAt, zero]
      exact Nat.le_refl _
    · rw [hiddenAt, zero, Option.map_some, Option.getD_some, Holding.hidden_zero]
      exact Nat.zero_le _
  | found secretly new => exact ⟨fun _ => le_rfl, fun _ => le_rfl⟩
  | harvest held issued => exact gains_setIssue held le_rfl le_rfl
  | collectIssue held issued => exact gains_setIssue held (Nat.le_add_right ..) le_rfl
  | @collect a d h g i source issued target =>
    have hsource : r.Gains (r.setHolding a (some { h with withheld := 0 })) :=
      gains_setHolding_some source le_rfl le_rfl
    exact hsource.trans (gains_setHolding_some target (Nat.le_add_right ..) le_rfl)
  | apply held =>
    refine gains_setHolding_some held le_rfl ?_
    rw [Holding.hidden, Holding.hidden, hw.val_apply hl held, ZMod.val_zero]
    omega
  | secretHarvest held issued => exact gains_setIssue held le_rfl le_rfl
  | @secretCollectIssue d h i held issued =>
    refine gains_setIssue held le_rfl (Nat.add_le_add_left ?_ _)
    show h.secret.available.val ≤ (h.secret.available + i.secret.withheld).val
    rw [hw.val_collectIssue hl held issued]
    exact Nat.le_add_right ..
  | @secretCollect a d h g i source issued target =>
    have hsource : r.Gains (r.setHolding a (some { h with secret :=
        { h.secret with withheld := 0 } })) := gains_setHolding_some source le_rfl le_rfl
    refine hsource.trans (gains_setHolding_some target le_rfl (Nat.add_le_add_left ?_ _))
    show g.secret.available.val ≤ (g.secret.available + h.secret.withheld).val
    rw [hw.val_collect hl source target]
    exact Nat.le_add_right ..
  | applyBurn issued => exact ⟨fun _ => le_rfl, fun _ => le_rfl⟩

theorem Idles.gains [NeZero l] (hl : 2 ^ 65 - 1 ≤ l) (h : Idles r r') (hw : r.Whole) :
    r.Gains r' := by
  induction h with
  | refl => exact .refl r
  | tail hbefore hstep ih =>
    have hsteps : Steps True r _ := Idles.steps hbefore
    exact ih.trans (hstep.gains hl (hsteps.whole hl hw))

end Register

end SolanaEasy
