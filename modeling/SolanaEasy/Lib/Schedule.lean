import Mathlib.Data.List.Basic
import Mathlib.Order.Defs.LinearOrder
import Mathlib.Tactic.Ring

/-!
# Schedule — an unbounded history of changes in two slots

A setting whose changes take effect some time after they are made, stored as the
pending change and what was in force before it. `Decides` says, of the whole
history, which change is in effect at a time; what the store says at any time
from the last change on agrees with it. `Governs` is the case of a fixed delay.
-/

namespace SolanaEasy

/-! ## What a history says -/

/-- A change asked for at one time, to take effect from another. -/
structure Scheduled (T P : Type) where
  asked : T
  due : T
  value : P

section Scheduled

variable {T P : Type} [LinearOrder T]

/-- The change has matured by `t`, and no later one came before it had. -/
def Scheduled.Stands (c : Scheduled T P) (later : List (Scheduled T P)) (t : T) : Prop :=
  c.asked ≤ t ∧ c.due ≤ t ∧ ∀ j ∈ later, c.due ≤ j.asked

/-- `p` is the value of the last change that stands, or the initial one if none does. -/
def Decides (initial : P) (changes : List (Scheduled T P)) (t : T) (p : P) : Prop :=
  (∃ earlier c later, changes = earlier ++ c :: later ∧ c.Stands later t ∧ p = c.value ∧
    ∀ mid c' later', later = mid ++ c' :: later' → ¬ c'.Stands later' t) ∨
  (p = initial ∧ ∀ earlier c later, changes = earlier ++ c :: later → ¬ c.Stands later t)

variable {initial : P} {changes : List (Scheduled T P)} {c : Scheduled T P} {t : T} {p : P}

/-- Changes before `c` stand after it exactly if they stood when it came. -/
theorem Scheduled.stands_snoc {d : Scheduled T P} {later : List (Scheduled T P)}
    (hd : d.asked ≤ c.asked)
    (hc : c.asked ≤ t) : d.Stands (later ++ [c]) t ↔ d.Stands later c.asked := by
  simp only [Stands, List.mem_append, List.mem_singleton]
  constructor
  · rintro ⟨_, _, hall⟩
    exact ⟨hd, hall c (.inr rfl), fun j hj => hall j (.inl hj)⟩
  · rintro ⟨_, hdue, hall⟩
    refine ⟨hd.trans hc, hdue.trans hc, fun j hj => ?_⟩
    rcases hj with hj | rfl
    · exact hall j hj
    · exact hdue

/-- Splits of a list with one more element. -/
theorem split_snoc {α : Type} {xs earlier later : List α} {x y : α}
    (h : xs ++ [x] = earlier ++ y :: later) :
    (later = [] ∧ y = x ∧ earlier = xs) ∨
      ∃ later', later = later' ++ [x] ∧ xs = earlier ++ y :: later' := by
  rcases List.eq_nil_or_concat later with rfl | ⟨later', z, rfl⟩
  · left
    obtain ⟨hxs, hlast⟩ := List.append_inj' h rfl
    exact ⟨rfl, (List.singleton_inj.mp hlast).symm, hxs.symm⟩
  · right
    rw [List.concat_eq_append, ← List.cons_append, ← List.append_assoc] at h
    obtain ⟨hxs, hlast⟩ := List.append_inj' h rfl
    obtain rfl := List.singleton_inj.mp hlast
    exact ⟨later', List.concat_eq_append .., hxs⟩

theorem decides_nil : Decides (T := T) initial [] t initial := by
  refine .inr ⟨rfl, fun earlier c later h => ?_⟩
  simp at h

theorem decides_last (hc : c.asked ≤ t) (hdue : c.due ≤ t) :
    Decides initial (changes ++ [c]) t c.value := by
  refine .inl ⟨changes, c, [], rfl, ⟨hc, hdue, by simp⟩, rfl, fun mid c' later' h => ?_⟩
  simp at h

/-- While the last change is pending, what was in force when it came still is. -/
theorem decides_pending (hsorted : ∀ d ∈ changes, d.asked ≤ c.asked) (hc : c.asked ≤ t)
    (hpending : ¬ c.due ≤ t) (h : Decides initial changes c.asked p) :
    Decides initial (changes ++ [c]) t p := by
  have hlast : ¬ c.Stands [] t := fun hs => hpending hs.2.1
  rcases h with ⟨earlier, d, later, rfl, hstands, rfl, hnone⟩ | ⟨rfl, hnone⟩
  · have hd : d.asked ≤ c.asked := hsorted d (by simp)
    refine .inl ⟨earlier, d, later ++ [c], by simp,
        (Scheduled.stands_snoc hd hc).mpr hstands, rfl, ?_⟩
    intro mid c' later' hsplit hs
    rcases split_snoc hsplit with ⟨rfl, rfl, _⟩ | ⟨later'', rfl, rfl⟩
    · exact hlast hs
    · exact hnone _ _ _ rfl ((Scheduled.stands_snoc (hsorted c' (by simp)) hc).mp hs)
  · refine .inr ⟨rfl, fun earlier d later hsplit hs => ?_⟩
    rcases split_snoc hsplit with ⟨rfl, rfl, _⟩ | ⟨later', rfl, rfl⟩
    · exact hlast hs
    · exact hnone _ _ _ rfl ((Scheduled.stands_snoc (hsorted d (by simp)) hc).mp hs)

/-- Whatever is in effect was asked for, or was there. -/
theorem Decides.asked (h : Decides initial changes t p) :
    p = initial ∨ ∃ c ∈ changes, c.asked ≤ t ∧ c.due ≤ t ∧ p = c.value := by
  rcases h with ⟨earlier, d, later, rfl, hstands, rfl, _⟩ | ⟨rfl, _⟩
  · exact .inr ⟨d, by simp, hstands.1, hstands.2.1, rfl⟩
  · exact .inl rfl

/-- What a store says is in force, `f`, agrees with a history at every time from its last
change on. -/
def Follows (initial : P) (f : T → P) (changes : List (Scheduled T P)) : Prop :=
  ∀ t, (∀ c ∈ changes, c.asked ≤ t) → Decides initial changes t (f t)

/-- A store keeps up if, after a change, it says what it said when the change came until
the change is due. -/
theorem Follows.change {f f' : T → P} (h : Follows initial f changes)
    (hsorted : ∀ d ∈ changes, d.asked ≤ c.asked)
    (hf : ∀ t, c.asked ≤ t → f' t = if c.due ≤ t then c.value else f c.asked) :
    Follows initial f' (changes ++ [c]) := by
  intro t ht
  have hc : c.asked ≤ t := ht c (by simp)
  rw [hf t hc]
  by_cases hdue : c.due ≤ t
  · rw [if_pos hdue]
    exact decides_last hc hdue
  · rw [if_neg hdue]
    exact decides_pending hsorted hc hdue (h c.asked hsorted)

end Scheduled

/-! ## A fixed delay, and two slots -/

/-- A value and a time: when it was asked for, or when it takes effect. -/
structure Timed (P : Type) where
  time : ℕ
  value : P

/-- The two slots. Times are those from which the values are in effect. -/
structure Slots (P : Type) where
  older : Timed P
  newer : Timed P

namespace Slots

variable {P : Type} (s : Slots P) (delay t : ℕ) (p : P)

def inForce : P := if s.newer.time ≤ t then s.newer.value else s.older.value

/-- A change asked for at `t`: the pending one moves over if it has matured. -/
def change : Slots P :=
  ⟨if s.newer.time ≤ t then s.newer else s.older, ⟨t + delay, p⟩⟩

/-- Until a change matures, what was in force when it came still is. -/
theorem inForce_change (t' : ℕ) :
    (s.change delay t p).inForce t' = if t + delay ≤ t' then p else s.inForce t := by
  rw [inForce, change, inForce]
  by_cases hle : s.newer.time ≤ t
  · rw [if_pos hle, if_pos hle]
  · rw [if_neg hle, if_neg hle]

end Slots

section Delay

variable {P : Type} (delay : ℕ) (initial : P)

/-- The change has matured by `t`, and no later one came before it had. -/
def Stands (c : Timed P) (later : List (Timed P)) (t : ℕ) : Prop :=
  c.time + delay ≤ t ∧ ∀ j ∈ later, c.time + delay ≤ j.time

/-- `p` is the value of the last change that stands, or the initial one if none does. -/
def Governs (changes : List (Timed P)) (t : ℕ) (p : P) : Prop :=
  (∃ earlier c later, changes = earlier ++ c :: later ∧ Stands delay c later t ∧ p = c.value ∧
    ∀ mid c' later', later = mid ++ c' :: later' → ¬ Stands delay c' later' t) ∨
  (p = initial ∧ ∀ earlier c later, changes = earlier ++ c :: later → ¬ Stands delay c later t)

/-- The change, as one with a time of its own to take effect. -/
def Timed.after (c : Timed P) : Scheduled ℕ P := ⟨c.time, c.time + delay, c.value⟩

variable {delay initial} {changes : List (Timed P)} {t : ℕ} {p : P}

theorem Timed.stands_after {c : Timed P} {later : List (Timed P)} :
    (c.after delay).Stands (later.map (after delay)) t ↔ Stands delay c later t := by
  simp only [Scheduled.Stands, SolanaEasy.Stands, after, List.forall_mem_map]
  constructor
  · rintro ⟨_, hdue, hall⟩
    exact ⟨hdue, hall⟩
  · rintro ⟨hdue, hall⟩
    exact ⟨by omega, hdue, hall⟩

/-- Splits of a mapped list. -/
theorem split_map {α β : Type} {f : α → β} {xs : List α} {earlier later : List β} {y : β}
    (h : xs.map f = earlier ++ y :: later) :
    ∃ earlier' x later', xs = earlier' ++ x :: later' ∧ earlier = earlier'.map f ∧ y = f x ∧
      later = later'.map f := by
  obtain ⟨earlier', rest, rfl, rfl, hrest⟩ := List.map_eq_append_iff.mp h
  obtain ⟨x, later', rfl, rfl, rfl⟩ := List.map_eq_cons_iff.mp hrest
  exact ⟨earlier', x, later', rfl, rfl, rfl, rfl⟩

theorem decides_after :
    Decides initial (changes.map (Timed.after delay)) t p ↔ Governs delay initial changes t p := by
  constructor
  · rintro (⟨earlier, c, later, hsplit, hstands, rfl, hnone⟩ | ⟨rfl, hnone⟩)
    · obtain ⟨earlier, c, later, rfl, rfl, rfl, rfl⟩ := split_map hsplit
      refine .inl ⟨earlier, c, later, rfl, Timed.stands_after.mp hstands, rfl, ?_⟩
      rintro mid c' later' rfl hs
      exact hnone _ _ _ List.map_append (Timed.stands_after.mpr hs)
    · refine .inr ⟨rfl, ?_⟩
      rintro earlier c later rfl hs
      exact hnone _ _ _ List.map_append (Timed.stands_after.mpr hs)
  · rintro (⟨earlier, c, later, rfl, hstands, rfl, hnone⟩ | ⟨rfl, hnone⟩)
    · refine .inl ⟨_, _, _, List.map_append, Timed.stands_after.mpr hstands, rfl, ?_⟩
      intro mid c' later' hsplit hs
      obtain ⟨mid, c', later', rfl, rfl, rfl, rfl⟩ := split_map hsplit
      exact hnone _ _ _ rfl (Timed.stands_after.mp hs)
    · refine .inr ⟨rfl, fun earlier c later hsplit hs => ?_⟩
      obtain ⟨earlier, c, later, rfl, rfl, rfl, rfl⟩ := split_map hsplit
      exact hnone _ _ _ rfl (Timed.stands_after.mp hs)

/-- Whatever governs was asked for long enough ago. -/
theorem Governs.early (h : Governs delay initial changes t p) :
    p = initial ∨ ∃ c ∈ changes, c.time + delay ≤ t ∧ p = c.value := by
  rcases (decides_after.mpr h).asked with rfl | ⟨_, hmem, _, hdue, rfl⟩
  · exact .inl rfl
  · obtain ⟨c, hc, rfl⟩ := List.mem_map.mp hmem
    exact .inr ⟨c, hc, hdue, rfl⟩

end Delay

/-! ## The slots know the history -/

section Slots

variable {P : Type} {delay : ℕ} {initial : P}

/-- Slots that agree with a history, at every time from its last change on. -/
def Slots.Follows (delay : ℕ) (initial : P) (s : Slots P) (changes : List (Timed P)) : Prop :=
  ∀ t, (∀ c ∈ changes, c.time ≤ t) → Governs delay initial changes t (s.inForce t)

theorem follows_nil {a b : ℕ} :
    (⟨⟨a, initial⟩, ⟨b, initial⟩⟩ : Slots P).Follows delay initial [] := by
  intro t _
  refine .inr ⟨?_, fun earlier c later h => ?_⟩
  · rw [Slots.inForce]
    split
    · rfl
    · rfl
  · simp at h

theorem Slots.Follows.change {s : Slots P} {changes : List (Timed P)} {c : Timed P}
    (h : s.Follows delay initial changes) (hsorted : ∀ d ∈ changes, d.time ≤ c.time) :
    (s.change delay c.time c.value).Follows delay initial (changes ++ [c]) := by
  have hbefore : SolanaEasy.Follows initial s.inForce (changes.map (Timed.after delay)) :=
    fun t ht => decides_after.mpr (h t fun d hd => ht _ (List.mem_map_of_mem hd))
  intro t ht
  refine decides_after.mp ?_
  rw [List.map_append]
  refine hbefore.change (c := c.after delay) ?_ (fun t _ => s.inForce_change ..) t ?_
  · simpa [Timed.after] using hsorted
  · simpa [Timed.after, or_imp, forall_and] using ht

end Slots

end SolanaEasy
