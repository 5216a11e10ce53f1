import Mathlib.Algebra.BigOperators.Group.Finset.Piecewise
import Mathlib.Data.Fintype.BigOperators
import Mathlib.Data.ZMod.Basic
import Mathlib.Logic.Relation
import Mathlib.Tactic.Ring
import Mathlib.Tactic.Abel

/-!
# Register — who holds how much of one token, in public and in secret

An abstract model of a token whose units may be held in the open, as natural
numbers, or hidden, as residues modulo `l` that can only be added, subtracted and
shown to be small. A `Register` lists the holdings of one token and what its
issuer has recorded; `Step` lists everything that may happen to it. The two
theorems of this module are the conservation of the total, modulo `l`, and of the
public total as a number. Nothing here knows of accounts, bytes or keys.
-/

namespace SolanaEasy

/-- The hidden part of a holding. -/
structure Secrets (G : Type) where
  pending : G
  available : G
  withheld : G

structure Holding (G : Type) where
  amount : ℕ
  withheld : ℕ
  secret : Secrets G

/-- The hidden part of what the issuer records. -/
structure IssueSecrets (G : Type) where
  withheld : G
  supply : G
  burned : G

/-- What the issuer records. A token issued in secret has no public supply. -/
structure Issue (G : Type) where
  secretly : Prop
  supply : ℕ
  withheld : ℕ
  secret : IssueSecrets G

structure Register (ι G : Type) where
  holding : ι → Option (Holding G)
  issue : Option (Issue G)

namespace Secrets

instance {G : Type} [Zero G] : Zero (Secrets G) := ⟨⟨0, 0, 0⟩⟩

@[simp] theorem pending_zero {G : Type} [Zero G] : (0 : Secrets G).pending = 0 := rfl
@[simp] theorem available_zero {G : Type} [Zero G] : (0 : Secrets G).available = 0 := rfl
@[simp] theorem withheld_zero {G : Type} [Zero G] : (0 : Secrets G).withheld = 0 := rfl

@[ext] theorem ext {G : Type} {a b : Secrets G} (hp : a.pending = b.pending)
    (ha : a.available = b.available) (hw : a.withheld = b.withheld) : a = b := by
  cases a; cases b; cases hp; cases ha; cases hw; rfl

end Secrets

namespace Holding

variable {G : Type}

instance [Zero G] : Zero (Holding G) := ⟨⟨0, 0, 0⟩⟩

@[simp] theorem amount_zero [Zero G] : (0 : Holding G).amount = 0 := rfl
@[simp] theorem withheld_zero [Zero G] : (0 : Holding G).withheld = 0 := rfl
@[simp] theorem secret_zero [Zero G] : (0 : Holding G).secret = 0 := rfl

@[ext] theorem ext {a b : Holding G} (ha : a.amount = b.amount) (hw : a.withheld = b.withheld)
    (hs : a.secret = b.secret) : a = b := by
  cases a; cases b; cases ha; cases hw; cases hs; rfl

/-- Everything a holding is worth. -/
def worth [AddCommGroupWithOne G] (h : Holding G) : G :=
  h.amount + h.withheld + h.secret.pending + h.secret.available + h.secret.withheld

/-- What it holds in the open. -/
def openly (h : Holding G) : ℤ := h.amount + h.withheld

end Holding

namespace Issue

variable {G : Type}

/-- What the holdings must add up to. -/
def owed [AddCommGroupWithOne G] (i : Issue G) : G :=
  i.supply + i.secret.supply - i.secret.burned - i.withheld - i.secret.withheld

def openly (i : Issue G) : ℤ := i.supply - i.withheld

end Issue

namespace Register

variable {ι G : Type}

/-- Nothing is issued and nobody holds anything. -/
def empty : Register ι G := ⟨fun _ => none, none⟩

/-- The register with other records of the issuer. -/
def setIssue (r : Register ι G) (i : Option (Issue G)) : Register ι G := { r with issue := i }

@[simp] theorem holding_setIssue (r : Register ι G) (i : Option (Issue G)) :
    (r.setIssue i).holding = r.holding := rfl

@[simp] theorem issue_setIssue (r : Register ι G) (i : Option (Issue G)) :
    (r.setIssue i).issue = i := rfl

theorem setIssue_self (r : Register ι G) {i : Option (Issue G)} (hi : r.issue = i) :
    r.setIssue i = r := by
  rw [setIssue, ← hi]

variable [DecidableEq ι]

/-- The register with another holding at `k`. -/
def setHolding (r : Register ι G) (k : ι) (h : Option (Holding G)) : Register ι G :=
  { r with holding := Function.update r.holding k h }

@[simp] theorem issue_setHolding (r : Register ι G) (k : ι) (h : Option (Holding G)) :
    (r.setHolding k h).issue = r.issue := rfl

@[simp] theorem holding_setHolding_same (r : Register ι G) (k : ι) (h : Option (Holding G)) :
    (r.setHolding k h).holding k = h := by
  simp [setHolding]

theorem holding_setHolding_of_ne (r : Register ι G) {k j : ι} (h : Option (Holding G))
    (hj : j ≠ k) : (r.setHolding k h).holding j = r.holding j := by
  simp [setHolding, hj]

theorem setHolding_self (r : Register ι G) {k : ι} {h : Option (Holding G)}
    (hk : r.holding k = h) : r.setHolding k h = r := by
  rw [setHolding, ← hk, Function.update_eq_self]

@[simp] theorem setHolding_setHolding (r : Register ι G) (k : ι) (h g : Option (Holding G)) :
    (r.setHolding k h).setHolding k g = r.setHolding k g := by
  simp [setHolding]

theorem setHolding_comm (r : Register ι G) {k j : ι} (h g : Option (Holding G)) (hj : k ≠ j) :
    (r.setHolding k h).setHolding j g = (r.setHolding j g).setHolding k h := by
  simp only [setHolding, mk.injEq, and_true]
  exact Function.update_comm hj h g r.holding

end Register

/-! ## Steps -/

/-- A residue that was shown to be a number of 64 bits. -/
def Small {l : ℕ} (x : ZMod l) : Prop := ∃ n : ℕ, n < 2 ^ 64 ∧ x = n

namespace Register

variable {ι : Type} [DecidableEq ι] {l : ℕ}

/-- Everything that may happen to a register. `Converts` says whether units may
pass between the open and the hidden part. Amounts are named by numbers, also
where only residues are known. -/
inductive Step (Converts : Prop) : Register ι (ZMod l) → Register ι (ZMod l) → Prop
  | openHolding {r k i} (new : r.holding k = none) (issued : r.issue = some i) :
      Step Converts r (r.setHolding k (some 0))
  | closeHolding {r k} (zero : r.holding k = some 0) : Step Converts r (r.setHolding k none)
  | found {r} (secretly : Prop) (new : r.issue = none) :
      Step Converts r (r.setIssue (some ⟨secretly, 0, 0, ⟨0, 0, 0⟩⟩))
  | mint {r d h i} (x : ℕ) (held : r.holding d = some h) (issued : r.issue = some i)
      (open' : ¬ i.secretly) (fits : i.supply + x < 2 ^ 64) :
      Step Converts r ((r.setHolding d (some { h with amount := h.amount + x })).setIssue
        (some { i with supply := i.supply + x }))
  | burn {r s h i} (x : ℕ) (held : r.holding s = some h) (issued : r.issue = some i)
      (enough : x ≤ h.amount) (supplied : x ≤ i.supply) :
      Step Converts r ((r.setHolding s (some { h with amount := h.amount - x })).setIssue
        (some { i with supply := i.supply - x }))
  | transfer {r s d h g} (x fee : ℕ) (ne : d ≠ s) (source : r.holding s = some h)
      (target : r.holding d = some g) (enough : x ≤ h.amount) (part : fee ≤ x) :
      Step Converts r ((r.setHolding s (some { h with amount := h.amount - x })).setHolding d
        (some { g with amount := g.amount + (x - fee), withheld := g.withheld + fee }))
  | harvest {r a h i} (held : r.holding a = some h) (issued : r.issue = some i) :
      Step Converts r ((r.setHolding a (some { h with withheld := 0 })).setIssue
        (some { i with withheld := i.withheld + h.withheld }))
  | collectIssue {r d h i} (held : r.holding d = some h) (issued : r.issue = some i) :
      Step Converts r ((r.setHolding d (some { h with amount := h.amount + i.withheld })).setIssue
        (some { i with withheld := 0 }))
  | collect {r a d h g i} (source : r.holding a = some h) (issued : r.issue = some i)
      (target : (r.setHolding a (some { h with withheld := 0 })).holding d = some g) :
      Step Converts r ((r.setHolding a (some { h with withheld := 0 })).setHolding d
        (some { g with amount := g.amount + h.withheld }))
  | deposit {r k h i} (x : ℕ) (may : Converts) (held : r.holding k = some h)
      (issued : r.issue = some i) (open' : ¬ i.secretly) (enough : x ≤ h.amount) :
      Step Converts r (r.setHolding k (some { h with
        amount := h.amount - x
        secret := { h.secret with pending := h.secret.pending + x } }))
  | withdraw {r k h i} (x : ℕ) (rest : ZMod l) (may : Converts) (held : r.holding k = some h)
      (issued : r.issue = some i) (open' : ¬ i.secretly) (word : x < 2 ^ 64) (small : Small rest)
      (shown : h.secret.available = rest + x) :
      Step Converts r (r.setHolding k (some { h with
        amount := h.amount + x
        secret := { h.secret with available := rest } }))
  | apply {r k h} (held : r.holding k = some h) :
      Step Converts r (r.setHolding k (some { h with secret :=
        { h.secret with
          pending := 0
          available := h.secret.available + h.secret.pending } }))
  | secretTransfer {r s d h g i} (x fee net : ℕ) (rest : ZMod l) (source : r.holding s = some h)
      (issued : r.issue = some i) (small : Small rest) (shown : h.secret.available = rest + x)
      (short : x < 2 ^ 49)
      (shortFee : fee < 2 ^ 49) (word : net < 2 ^ 64) (split : (x : ZMod l) = fee + net)
      (target : (r.setHolding s (some { h with secret :=
        { h.secret with available := rest } })).holding d = some g) :
      Step Converts r ((r.setHolding s (some { h with secret :=
        { h.secret with available := rest } })).setHolding d (some { g with secret :=
        { g.secret with
          pending := g.secret.pending + net
          withheld := g.secret.withheld + fee } }))
  | secretHarvest {r a h i} (held : r.holding a = some h) (issued : r.issue = some i) :
      Step Converts r ((r.setHolding a (some { h with secret :=
        { h.secret with withheld := 0 } })).setIssue (some { i with secret :=
        { i.secret with withheld := i.secret.withheld + h.secret.withheld } }))
  | secretCollectIssue {r d h i} (held : r.holding d = some h) (issued : r.issue = some i) :
      Step Converts r ((r.setHolding d (some { h with secret :=
        { h.secret with available := h.secret.available + i.secret.withheld } })).setIssue
        (some { i with secret := { i.secret with withheld := 0 } }))
  | secretCollect {r a d h g i} (source : r.holding a = some h) (issued : r.issue = some i)
      (target : (r.setHolding a (some { h with secret :=
        { h.secret with withheld := 0 } })).holding d = some g) :
      Step Converts r ((r.setHolding a (some { h with secret :=
        { h.secret with withheld := 0 } })).setHolding d (some { g with secret :=
        { g.secret with available := g.secret.available + h.secret.withheld } }))
  | secretMint {r d h i} (x : ℕ) (held : r.holding d = some h) (issued : r.issue = some i)
      (secret : i.secretly) (short : x < 2 ^ 49)
      (small : Small (i.secret.supply + (x : ZMod l))) :
      Step Converts r ((r.setHolding d (some { h with secret :=
        { h.secret with pending := h.secret.pending + x } })).setIssue (some { i with secret :=
        { i.secret with supply := i.secret.supply + x } }))
  | secretBurn {r s h i} (x : ℕ) (rest : ZMod l) (held : r.holding s = some h)
      (issued : r.issue = some i) (secret : i.secretly) (short : x < 2 ^ 49) (small : Small rest)
      (shown : h.secret.available = rest + x) :
      Step Converts r ((r.setHolding s (some { h with secret :=
        { h.secret with available := rest } })).setIssue (some { i with secret :=
        { i.secret with burned := i.secret.burned + x } }))
  | applyBurn {r i} (issued : r.issue = some i) :
      Step Converts r (r.setIssue (some { i with secret :=
        { i.secret with supply := i.secret.supply - i.secret.burned, burned := 0 } }))

/-- The steps that take nothing from what anyone can spend: fees are gathered and paid out, what
is pending becomes available, and holdings come and go while they are empty. -/
inductive Idle : Register ι (ZMod l) → Register ι (ZMod l) → Prop
  | openHolding {r k i} (new : r.holding k = none) (issued : r.issue = some i) :
      Idle r (r.setHolding k (some 0))
  | closeHolding {r k} (zero : r.holding k = some 0) : Idle r (r.setHolding k none)
  | found {r} (secretly : Prop) (new : r.issue = none) :
      Idle r (r.setIssue (some ⟨secretly, 0, 0, ⟨0, 0, 0⟩⟩))
  | harvest {r a h i} (held : r.holding a = some h) (issued : r.issue = some i) :
      Idle r ((r.setHolding a (some { h with withheld := 0 })).setIssue
        (some { i with withheld := i.withheld + h.withheld }))
  | collectIssue {r d h i} (held : r.holding d = some h) (issued : r.issue = some i) :
      Idle r ((r.setHolding d (some { h with amount := h.amount + i.withheld })).setIssue
        (some { i with withheld := 0 }))
  | collect {r a d h g i} (source : r.holding a = some h) (issued : r.issue = some i)
      (target : (r.setHolding a (some { h with withheld := 0 })).holding d = some g) :
      Idle r ((r.setHolding a (some { h with withheld := 0 })).setHolding d
        (some { g with amount := g.amount + h.withheld }))
  | apply {r k h} (held : r.holding k = some h) :
      Idle r (r.setHolding k (some { h with secret :=
        { h.secret with
          pending := 0
          available := h.secret.available + h.secret.pending } }))
  | secretHarvest {r a h i} (held : r.holding a = some h) (issued : r.issue = some i) :
      Idle r ((r.setHolding a (some { h with secret :=
        { h.secret with withheld := 0 } })).setIssue (some { i with secret :=
        { i.secret with withheld := i.secret.withheld + h.secret.withheld } }))
  | secretCollectIssue {r d h i} (held : r.holding d = some h) (issued : r.issue = some i) :
      Idle r ((r.setHolding d (some { h with secret :=
        { h.secret with available := h.secret.available + i.secret.withheld } })).setIssue
        (some { i with secret := { i.secret with withheld := 0 } }))
  | secretCollect {r a d h g i} (source : r.holding a = some h) (issued : r.issue = some i)
      (target : (r.setHolding a (some { h with secret :=
        { h.secret with withheld := 0 } })).holding d = some g) :
      Idle r ((r.setHolding a (some { h with secret :=
        { h.secret with withheld := 0 } })).setHolding d (some { g with secret :=
        { g.secret with available := g.secret.available + h.secret.withheld } }))
  | applyBurn {r i} (issued : r.issue = some i) :
      Idle r (r.setIssue (some { i with secret :=
        { i.secret with supply := i.secret.supply - i.secret.burned, burned := 0 } }))

end Register

/-! ## Runs -/

namespace Register

variable {ι : Type} [DecidableEq ι] {l : ℕ} {Converts : Prop}

/-- Any number of steps. -/
abbrev Steps (Converts : Prop) : Register ι (ZMod l) → Register ι (ZMod l) → Prop :=
  Relation.ReflTransGen (Step Converts)

abbrev Idles : Register ι (ZMod l) → Register ι (ZMod l) → Prop := Relation.ReflTransGen Idle

theorem Idle.step {r r' : Register ι (ZMod l)} (h : Idle r r') : Step Converts r r' := by
  cases h with
  | openHolding new issued => exact .openHolding new issued
  | closeHolding zero => exact .closeHolding zero
  | found secretly new => exact .found secretly new
  | harvest held issued => exact .harvest held issued
  | collectIssue held issued => exact .collectIssue held issued
  | collect source issued target => exact .collect source issued target
  | apply held => exact .apply held
  | secretHarvest held issued => exact .secretHarvest held issued
  | secretCollectIssue held issued => exact .secretCollectIssue held issued
  | secretCollect source issued target => exact .secretCollect source issued target
  | applyBurn issued => exact .applyBurn issued

theorem Idles.steps {r r' : Register ι (ZMod l)} (h : Idles r r') : Steps Converts r r' :=
  Relation.ReflTransGen.mono (fun _ _ => Idle.step) _ _ h

/-- The register with `z` more available at `d`. -/
def credit (r : Register ι (ZMod l)) (d : ι) (z : ZMod l) : Register ι (ZMod l) :=
  match r.holding d with
  | some h => r.setHolding d (some { h with secret :=
      { h.secret with available := h.secret.available + z } })
  | none => r

variable {r : Register ι (ZMod l)} {d a : ι} {h g : Holding (ZMod l)}

theorem credit_of_holding (held : r.holding d = some g) (z : ZMod l) :
    r.credit d z = r.setHolding d (some { g with secret :=
      { g.secret with available := g.secret.available + z } }) := by
  rw [credit, held]

@[simp] theorem credit_zero (r : Register ι (ZMod l)) (d : ι) : r.credit d 0 = r := by
  rw [credit]
  split
  · rename_i held
    rw [add_zero]
    exact r.setHolding_self held
  · rfl

/-- What is collected later joins what was collected before. -/
theorem Idle.secretCollect_credit {i : Issue (ZMod l)} (z : ZMod l)
    (source : r.holding a = some h) (target : r.holding d = some g) (issued : r.issue = some i) :
    Idle (r.credit d z) ((r.setHolding a (some { h with secret :=
      { h.secret with withheld := 0 } })).credit d (z + h.secret.withheld)) := by
  rw [credit_of_holding target]
  by_cases had : a = d
  · subst had
    obtain rfl := Option.some.inj (source.symm.trans target)
    have hstep : Idle _ _ := .secretCollect
      (r.holding_setHolding_same a (some { h with secret :=
        { h.secret with available := h.secret.available + z } })) issued
      (holding_setHolding_same ..)
    simp only [setHolding_setHolding, add_assoc] at hstep
    rw [credit_of_holding (holding_setHolding_same ..), setHolding_setHolding]
    exact hstep
  · have hstep : Idle _ _ := .secretCollect
      ((r.holding_setHolding_of_ne _ had).trans source) issued
      ((holding_setHolding_of_ne _ _ (Ne.symm had)).trans (r.holding_setHolding_same d (some
        { g with secret := { g.secret with available := g.secret.available + z } })))
    rw [credit_of_holding ((holding_setHolding_of_ne _ _ (Ne.symm had)).trans target)]
    rw [setHolding_comm _ _ _ (Ne.symm had), setHolding_setHolding] at hstep
    simp only [add_assoc] at hstep
    exact hstep

end Register

/-! ## Totals -/

section Total

variable {ι G : Type} [DecidableEq ι] [Fintype ι] [AddCommGroup G]

/-- One summand of a finite sum changes. -/
theorem sum_update {α : Type} (f : ι → α) (k : ι) (a : α) (w : α → G) :
    ∑ j, w (Function.update f k a j) = ∑ j, w (f j) + (w a - w (f k)) := by
  have hcomp : (fun j => w (Function.update f k a j)) =
      Function.update (fun j => w (f j)) k (w a) := by
    funext j
    by_cases h : j = k
    · subst h
      simp
    · simp [h]
  have hsplit := Finset.sum_erase_eq_sub (f := fun j => w (f j)) (Finset.mem_univ k)
  rw [hcomp, Finset.sum_update_of_mem (Finset.mem_univ k), ← Finset.erase_eq, hsplit]
  abel

end Total

namespace Register

variable {ι G : Type} [Fintype ι]

/-- What the holdings hold beyond what the issuer's records say they must. -/
def net [AddCommGroupWithOne G] (r : Register ι G) : G :=
  ∑ k, ((r.holding k).map Holding.worth).getD 0 - (r.issue.map Issue.owed).getD 0

/-- The same of the public part, as a number. -/
def openNet (r : Register ι G) : ℤ :=
  ∑ k, ((r.holding k).map Holding.openly).getD 0 - (r.issue.map Issue.openly).getD 0

theorem net_setIssue [AddCommGroupWithOne G] (r : Register ι G) (i : Option (Issue G)) :
    (r.setIssue i).net =
      r.net - ((i.map Issue.owed).getD 0 - (r.issue.map Issue.owed).getD 0) := by
  rw [net, net, setIssue]
  abel

theorem openNet_setIssue (r : Register ι G) (i : Option (Issue G)) :
    (r.setIssue i).openNet =
      r.openNet - ((i.map Issue.openly).getD 0 - (r.issue.map Issue.openly).getD 0) := by
  rw [openNet, openNet, setIssue]
  abel

@[simp] theorem net_empty [AddCommGroupWithOne G] : (empty : Register ι G).net = 0 := by
  simp [net, empty]

@[simp] theorem openNet_empty : (empty : Register ι G).openNet = 0 := by
  simp [openNet, empty]

variable [DecidableEq ι]

theorem net_setHolding [AddCommGroupWithOne G] (r : Register ι G) (k : ι)
    (h : Option (Holding G)) :
    (r.setHolding k h).net =
      r.net + ((h.map Holding.worth).getD 0 - ((r.holding k).map Holding.worth).getD 0) := by
  have hsum := sum_update r.holding k h fun h => (h.map Holding.worth).getD 0
  rw [net, net, setHolding, hsum]
  abel

theorem openNet_setHolding (r : Register ι G) (k : ι) (h : Option (Holding G)) :
    (r.setHolding k h).openNet = r.openNet +
      ((h.map Holding.openly).getD 0 - ((r.holding k).map Holding.openly).getD 0) := by
  have hsum := sum_update r.holding k h fun h => (h.map Holding.openly).getD 0
  rw [openNet, openNet, setHolding, hsum]
  abel

end Register

/-! ## Conservation -/

namespace Register

variable {ι : Type} [DecidableEq ι] [Fintype ι] {l : ℕ} {Converts : Prop}
  {r r' : Register ι (ZMod l)}

/-- No step creates or loses a unit. -/
theorem Step.net (h : Step Converts r r') : r'.net = r.net := by
  cases h with
  | openHolding new issued =>
    rw [net_setHolding, new]
    simp [Holding.worth]
  | closeHolding zero =>
    rw [net_setHolding, zero]
    simp [Holding.worth]
  | found secretly new =>
    rw [net_setIssue, new]
    simp [Issue.owed]
  | mint x held issued open' fits =>
    rw [net_setIssue, net_setHolding, issue_setHolding, held, issued]
    simp only [Option.map_some, Option.getD_some, Holding.worth, Issue.owed]
    push_cast
    ring
  | burn x held issued enough supplied =>
    rw [net_setIssue, net_setHolding, issue_setHolding, held, issued]
    simp only [Option.map_some, Option.getD_some, Holding.worth, Issue.owed]
    push_cast [enough, supplied]
    ring
  | transfer x fee ne source target enough part =>
    rw [net_setHolding, net_setHolding, holding_setHolding_of_ne _ _ ne, source, target]
    simp only [Option.map_some, Option.getD_some, Holding.worth]
    push_cast [enough, part]
    ring
  | harvest held issued =>
    rw [net_setIssue, net_setHolding, issue_setHolding, held, issued]
    simp only [Option.map_some, Option.getD_some, Holding.worth, Issue.owed]
    push_cast
    ring
  | collectIssue held issued =>
    rw [net_setIssue, net_setHolding, issue_setHolding, held, issued]
    simp only [Option.map_some, Option.getD_some, Holding.worth, Issue.owed]
    push_cast
    ring
  | collect source issued target =>
    rw [net_setHolding, net_setHolding, source, target]
    simp only [Option.map_some, Option.getD_some, Holding.worth]
    push_cast
    ring
  | deposit x may held issued open' enough =>
    rw [net_setHolding, held]
    simp only [Option.map_some, Option.getD_some, Holding.worth]
    push_cast [enough]
    ring
  | withdraw x rest may held issued open' word small shown =>
    rw [net_setHolding, held]
    simp only [Option.map_some, Option.getD_some, Holding.worth, shown]
    push_cast
    ring
  | apply held =>
    rw [net_setHolding, held]
    simp only [Option.map_some, Option.getD_some, Holding.worth]
    ring
  | secretTransfer x fee net rest source issued small shown short shortFee word split target =>
    rw [net_setHolding, net_setHolding, source, target]
    simp only [Option.map_some, Option.getD_some, Holding.worth, shown, split]
    ring
  | secretHarvest held issued =>
    rw [net_setIssue, net_setHolding, issue_setHolding, held, issued]
    simp only [Option.map_some, Option.getD_some, Holding.worth, Issue.owed]
    ring
  | secretCollectIssue held issued =>
    rw [net_setIssue, net_setHolding, issue_setHolding, held, issued]
    simp only [Option.map_some, Option.getD_some, Holding.worth, Issue.owed]
    ring
  | secretCollect source issued target =>
    rw [net_setHolding, net_setHolding, source, target]
    simp only [Option.map_some, Option.getD_some, Holding.worth]
    ring
  | secretMint x held issued secret short small =>
    rw [net_setIssue, net_setHolding, issue_setHolding, held, issued]
    simp only [Option.map_some, Option.getD_some, Holding.worth, Issue.owed]
    ring
  | secretBurn x rest held issued secret short small shown =>
    rw [net_setIssue, net_setHolding, issue_setHolding, held, issued]
    simp only [Option.map_some, Option.getD_some, Holding.worth, Issue.owed, shown]
    ring
  | applyBurn issued =>
    rw [net_setIssue, issued]
    simp only [Option.map_some, Option.getD_some, Issue.owed]
    ring

/-- Where nothing passes between the two parts, neither gains nor loses. -/
theorem Step.openNet (h : Step Converts r r') (hc : ¬ Converts) : r'.openNet = r.openNet := by
  cases h with
  | openHolding new issued =>
    rw [openNet_setHolding, new]
    simp [Holding.openly]
  | closeHolding zero =>
    rw [openNet_setHolding, zero]
    simp [Holding.openly]
  | found secretly new =>
    rw [openNet_setIssue, new]
    simp [Issue.openly]
  | mint x held issued open' fits =>
    rw [openNet_setIssue, openNet_setHolding, issue_setHolding, held, issued]
    simp only [Option.map_some, Option.getD_some, Holding.openly, Issue.openly]
    omega
  | burn x held issued enough supplied =>
    rw [openNet_setIssue, openNet_setHolding, issue_setHolding, held, issued]
    simp only [Option.map_some, Option.getD_some, Holding.openly, Issue.openly]
    omega
  | transfer x fee ne source target enough part =>
    rw [openNet_setHolding, openNet_setHolding, holding_setHolding_of_ne _ _ ne, source, target]
    simp only [Option.map_some, Option.getD_some, Holding.openly]
    omega
  | harvest held issued =>
    rw [openNet_setIssue, openNet_setHolding, issue_setHolding, held, issued]
    simp only [Option.map_some, Option.getD_some, Holding.openly, Issue.openly]
    omega
  | collectIssue held issued =>
    rw [openNet_setIssue, openNet_setHolding, issue_setHolding, held, issued]
    simp only [Option.map_some, Option.getD_some, Holding.openly, Issue.openly]
    omega
  | collect source issued target =>
    rw [openNet_setHolding, openNet_setHolding, source, target]
    simp only [Option.map_some, Option.getD_some, Holding.openly]
    omega
  | deposit x may held issued open' enough => exact absurd may hc
  | withdraw x rest may held issued open' word small shown => exact absurd may hc
  | apply held =>
    rw [openNet_setHolding, held]
    simp [Holding.openly]
  | secretTransfer x fee net rest source issued small shown short shortFee word split target =>
    rw [openNet_setHolding, openNet_setHolding, source, target]
    simp [Holding.openly]
  | secretHarvest held issued =>
    rw [openNet_setIssue, openNet_setHolding, issue_setHolding, held, issued]
    simp [Holding.openly, Issue.openly]
  | secretCollectIssue held issued =>
    rw [openNet_setIssue, openNet_setHolding, issue_setHolding, held, issued]
    simp [Holding.openly, Issue.openly]
  | secretCollect source issued target =>
    rw [openNet_setHolding, openNet_setHolding, source, target]
    simp [Holding.openly]
  | secretMint x held issued secret short small =>
    rw [openNet_setIssue, openNet_setHolding, issue_setHolding, held, issued]
    simp [Holding.openly, Issue.openly]
  | secretBurn x rest held issued secret short small shown =>
    rw [openNet_setIssue, openNet_setHolding, issue_setHolding, held, issued]
    simp [Holding.openly, Issue.openly]
  | applyBurn issued =>
    rw [openNet_setIssue, issued]
    simp [Issue.openly]

theorem Steps.net (h : Steps Converts r r') : r'.net = r.net := by
  induction h with
  | refl => rfl
  | tail _ hstep ih => exact hstep.net.trans ih

theorem Steps.openNet (h : Steps Converts r r') (hc : ¬ Converts) : r'.openNet = r.openNet := by
  induction h with
  | refl => rfl
  | tail _ hstep ih => exact (hstep.openNet hc).trans ih

end Register

/-! ## Open and secret issue -/

namespace Register

/-- A token issued in secret is nowhere held in the open, a token issued in the
open has no secret supply, and a token not issued is not held. -/
structure Apart {ι G : Type} [Zero G] (r : Register ι G) : Prop where
  secretly : ∀ i, r.issue = some i → i.secretly → i.supply = 0 ∧ i.withheld = 0 ∧
    ∀ k h, r.holding k = some h → h.amount = 0 ∧ h.withheld = 0
  openly : ∀ i, r.issue = some i → ¬ i.secretly → i.secret.supply = 0 ∧ i.secret.burned = 0
  unissued : r.issue = none → ∀ k h, r.holding k = some h → h = 0

theorem empty_apart {ι G : Type} [Zero G] : (empty : Register ι G).Apart where
  secretly _ hi := nomatch hi
  openly _ hi := nomatch hi
  unissued _ _ _ hh := nomatch hh

variable {ι : Type} {l : ℕ} {Converts : Prop} {r r' : Register ι (ZMod l)}

/-- Records that keep to the side the token is issued on. -/
theorem Apart.setIssue (ha : r.Apart) {i i' : Issue (ZMod l)} (hi : r.issue = some i)
    (hside : i'.secretly ↔ i.secretly)
    (hs : i.secretly → i'.supply = 0 ∧ i'.withheld = 0)
    (ho : ¬ i.secretly → i'.secret.supply = 0 ∧ i'.secret.burned = 0) :
    (r.setIssue (some i')).Apart where
  secretly j hj hsec := by
    obtain rfl := Option.some.inj hj
    obtain ⟨_, _, hall⟩ := ha.secretly i hi (hside.mp hsec)
    obtain ⟨hsupply, hwithheld⟩ := hs (hside.mp hsec)
    exact ⟨hsupply, hwithheld, hall⟩
  openly j hj hopen := by
    obtain rfl := Option.some.inj hj
    exact ho (fun h => hopen (hside.mpr h))
  unissued hj := by simp at hj

variable [DecidableEq ι]

/-- Holdings that stay empty in the open when the token is issued in secret, and
empty altogether when it is not issued. -/
theorem Apart.setHolding (ha : r.Apart) {k : ι} {h' : Option (Holding (ZMod l))}
    (hs : ∀ i, r.issue = some i → i.secretly → ∀ h, h' = some h → h.amount = 0 ∧ h.withheld = 0)
    (hu : r.issue = none → ∀ h, h' = some h → h = 0) : (r.setHolding k h').Apart where
  secretly i hi hsec := by
    obtain ⟨hsupply, hwithheld, hall⟩ := ha.secretly i hi hsec
    refine ⟨hsupply, hwithheld, fun j h hj => ?_⟩
    by_cases hjk : j = k
    · subst hjk
      rw [holding_setHolding_same] at hj
      exact hs i hi hsec h hj
    · rw [holding_setHolding_of_ne _ _ hjk] at hj
      exact hall j h hj
  openly := ha.openly
  unissued hi j h hj := by
    by_cases hjk : j = k
    · subst hjk
      rw [holding_setHolding_same] at hj
      exact hu hi h hj
    · rw [holding_setHolding_of_ne _ _ hjk] at hj
      exact ha.unissued hi j h hj

theorem Apart.update (ha : r.Apart) {k : ι} {h h' : Holding (ZMod l)}
    (held : r.holding k = some h)
    (hs : h.amount = 0 → h.withheld = 0 → h'.amount = 0 ∧ h'.withheld = 0) (hu : h = 0 → h' = 0) :
    (r.setHolding k (some h')).Apart := by
  apply ha.setHolding
  · rintro i hi hsec _ ⟨⟩
    obtain ⟨hamount, hwithheld⟩ := (ha.secretly i hi hsec).2.2 k h held
    exact hs hamount hwithheld
  · rintro hnone _ ⟨⟩
    exact hu (ha.unissued hnone k h held)

theorem Apart.updateIssued (ha : r.Apart) {k : ι} {h h' : Holding (ZMod l)} {i : Issue (ZMod l)}
    (held : r.holding k = some h) (issued : r.issue = some i)
    (hs : i.secretly → h.amount = 0 → h.withheld = 0 → h'.amount = 0 ∧ h'.withheld = 0) :
    (r.setHolding k (some h')).Apart := by
  apply ha.setHolding
  · rintro j hj hsec _ ⟨⟩
    obtain rfl := Option.some.inj (issued.symm.trans hj)
    obtain ⟨hamount, hwithheld⟩ := (ha.secretly i issued hsec).2.2 k h held
    exact hs hsec hamount hwithheld
  · intro hnone
    rw [issued] at hnone
    cases hnone

/-- The two sides stay apart. -/
theorem Step.apart (h : Step Converts r r') (ha : r.Apart) : r'.Apart := by
  cases h with
  | openHolding new issued =>
    apply ha.setHolding
    · rintro _ _ _ _ ⟨⟩
      exact ⟨rfl, rfl⟩
    · rintro _ _ ⟨⟩
      rfl
  | closeHolding zero => exact ha.setHolding (by simp) (by simp)
  | found secretly new =>
    refine ⟨?_, ?_, by simp⟩
    · rintro _ ⟨⟩ _
      refine ⟨rfl, rfl, fun k h hk => ?_⟩
      obtain rfl := ha.unissued new k h hk
      exact ⟨rfl, rfl⟩
    · rintro _ ⟨⟩ _
      exact ⟨rfl, rfl⟩
  | mint x held issued open' fits =>
    refine Apart.setIssue (ha.updateIssued held issued ?_) issued Iff.rfl ?_ (ha.openly _ issued)
    · exact fun hsec => absurd hsec open'
    · exact fun hsec => absurd hsec open'
  | burn x held issued enough supplied =>
    refine Apart.setIssue (ha.updateIssued held issued ?_) issued Iff.rfl ?_ (ha.openly _ issued)
    · exact fun _ hamount hwithheld => ⟨by simp [hamount], hwithheld⟩
    · intro hsec
      obtain ⟨hsupply, hwithheld, _⟩ := ha.secretly _ issued hsec
      exact ⟨by simp [hsupply], hwithheld⟩
  | @transfer s d h g x fee ne source target enough part =>
    -- of nothing only nothing can be sent
    have hnothing : h.amount = 0 → x - fee = 0 ∧ fee = 0 := by omega
    apply (ha.update source ?_ ?_).setHolding
    · rintro i hi hsec _ ⟨⟩
      have hall := (ha.secretly i hi hsec).2.2
      obtain ⟨hx, hfee⟩ := hnothing (hall s h source).1
      obtain ⟨hamount, hwithheld⟩ := hall d g target
      exact ⟨by simp [hamount, hx], by simp [hwithheld, hfee]⟩
    · rintro hnone _ ⟨⟩
      obtain ⟨hx, hfee⟩ := hnothing (by rw [ha.unissued hnone s h source]; rfl)
      obtain rfl := ha.unissued hnone d g target
      rw [hx, hfee]
      rfl
    · exact fun hamount hwithheld => ⟨by simp [hamount], hwithheld⟩
    · rintro rfl
      simp only [Holding.amount_zero, Nat.zero_sub]
      rfl
  | harvest held issued =>
    refine Apart.setIssue (ha.updateIssued held issued ?_) issued Iff.rfl ?_ (ha.openly _ issued)
    · exact fun _ hamount _ => ⟨hamount, rfl⟩
    · intro hsec
      obtain ⟨hsupply, hwithheld, hall⟩ := ha.secretly _ issued hsec
      exact ⟨hsupply, by simp [hwithheld, (hall _ _ held).2]⟩
  | collectIssue held issued =>
    refine Apart.setIssue (ha.updateIssued held issued ?_) issued Iff.rfl ?_ (ha.openly _ issued)
    · intro hsec hamount hwithheld
      exact ⟨by simp [hamount, (ha.secretly _ issued hsec).2.1], hwithheld⟩
    · exact fun hsec => ⟨(ha.secretly _ issued hsec).1, rfl⟩
  | collect source issued target =>
    refine Apart.updateIssued (ha.updateIssued source issued ?_) target issued ?_
    · exact fun _ hamount _ => ⟨hamount, rfl⟩
    · intro hsec hamount hwithheld
      exact ⟨by simp [hamount, ((ha.secretly _ issued hsec).2.2 _ _ source).2], hwithheld⟩
  | deposit x may held issued open' enough =>
    exact ha.updateIssued held issued fun hsec => absurd hsec open'
  | withdraw x rest may held issued open' word small shown =>
    exact ha.updateIssued held issued fun hsec => absurd hsec open'
  | apply held =>
    refine ha.update held (fun hamount hwithheld => ⟨hamount, hwithheld⟩) ?_
    rintro rfl
    simp only [Holding.secret_zero, Secrets.available_zero, Secrets.pending_zero, add_zero]
    rfl
  | secretTransfer x fee net rest source issued small shown short shortFee word split target =>
    refine Apart.updateIssued (ha.updateIssued source issued ?_) target issued ?_
    · exact fun _ hamount hwithheld => ⟨hamount, hwithheld⟩
    · exact fun _ hamount hwithheld => ⟨hamount, hwithheld⟩
  | secretHarvest held issued =>
    refine Apart.setIssue (ha.updateIssued held issued ?_) issued Iff.rfl ?_ (ha.openly _ issued)
    · exact fun _ hamount hwithheld => ⟨hamount, hwithheld⟩
    · intro hsec
      obtain ⟨hsupply, hwithheld, _⟩ := ha.secretly _ issued hsec
      exact ⟨hsupply, hwithheld⟩
  | secretCollectIssue held issued =>
    refine Apart.setIssue (ha.updateIssued held issued ?_) issued Iff.rfl ?_ (ha.openly _ issued)
    · exact fun _ hamount hwithheld => ⟨hamount, hwithheld⟩
    · intro hsec
      obtain ⟨hsupply, hwithheld, _⟩ := ha.secretly _ issued hsec
      exact ⟨hsupply, hwithheld⟩
  | secretCollect source issued target =>
    refine Apart.updateIssued (ha.updateIssued source issued ?_) target issued ?_
    · exact fun _ hamount hwithheld => ⟨hamount, hwithheld⟩
    · exact fun _ hamount hwithheld => ⟨hamount, hwithheld⟩
  | secretMint x held issued secret short small =>
    refine Apart.setIssue (ha.updateIssued held issued ?_) issued Iff.rfl ?_ ?_
    · exact fun _ hamount hwithheld => ⟨hamount, hwithheld⟩
    · intro hsec
      obtain ⟨hsupply, hwithheld, _⟩ := ha.secretly _ issued hsec
      exact ⟨hsupply, hwithheld⟩
    · exact fun hopen => absurd secret hopen
  | secretBurn x rest held issued secret short small shown =>
    refine Apart.setIssue (ha.updateIssued held issued ?_) issued Iff.rfl ?_ ?_
    · exact fun _ hamount hwithheld => ⟨hamount, hwithheld⟩
    · intro hsec
      obtain ⟨hsupply, hwithheld, _⟩ := ha.secretly _ issued hsec
      exact ⟨hsupply, hwithheld⟩
    · exact fun hopen => absurd secret hopen
  | applyBurn issued =>
    refine Apart.setIssue ha issued Iff.rfl ?_ ?_
    · intro hsec
      obtain ⟨hsupply, hwithheld, _⟩ := ha.secretly _ issued hsec
      exact ⟨hsupply, hwithheld⟩
    · intro hopen
      obtain ⟨hsupply, hburned⟩ := ha.openly _ issued hopen
      exact ⟨by simp [hsupply, hburned], rfl⟩

theorem Steps.apart (h : Steps Converts r r') (ha : r.Apart) : r'.Apart := by
  induction h with
  | refl => exact ha
  | tail _ hstep ih => exact hstep.apart ih

end Register

end SolanaEasy
