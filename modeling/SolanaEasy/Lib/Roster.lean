import Mathlib.Logic.Function.Basic
import Mathlib.Data.Nat.Notation

/-!
# Roster — members numbered in the order they join

Groups and members, each under a key. A group counts who joins it and hands its count out
as their numbers; its authority decides who joins and may change the bound on the count,
or itself. Keys may lose what they have.
-/

namespace SolanaEasy

structure Club (K : Type) where
  authority : Option K
  size : ℕ
  maxSize : ℕ

structure Seat (K : Type) where
  group : K
  number : ℕ

@[ext] structure Roster (K : Type) where
  group : K → Option (Club K)
  member : K → Option (Seat K)

namespace Roster

section Steps

variable {K : Type}

def empty : Roster K := ⟨fun _ => none, fun _ => none⟩

/-- `n` members have joined `G`: it counts them, and their numbers are apart. -/
structure Numbered (r : Roster K) (G : K) (n : ℕ) : Prop where
  size : ∀ g, r.group G = some g → g.size = n ∧ g.size ≤ g.maxSize
  unfounded : r.group G = none → n = 0
  range : ∀ k x, r.member k = some x → x.group = G → 1 ≤ x.number ∧ x.number ≤ n
  distinct : ∀ j k x y, r.member j = some x → r.member k = some y → x.group = G → y.group = G →
    x.number = y.number → j = k

theorem empty_numbered {G : K} : (empty : Roster K).Numbered G 0 where
  size _ hg := by cases hg
  unfounded _ := rfl
  range _ _ hx := by cases hx
  distinct _ _ _ _ hx := by cases hx

variable [DecidableEq K]

def setGroup (r : Roster K) (k : K) (g : Club K) : Roster K :=
  { r with group := Function.update r.group k (some g) }

def setMember (r : Roster K) (k : K) (x : Seat K) : Roster K :=
  { r with member := Function.update r.member k (some x) }

@[simp] theorem group_setGroup_same (r : Roster K) (k : K) (g : Club K) :
    (r.setGroup k g).group k = some g := Function.update_self ..

theorem group_setGroup_of_ne (r : Roster K) {j k : K} (g : Club K) (h : j ≠ k) :
    (r.setGroup k g).group j = r.group j := Function.update_of_ne h ..

@[simp] theorem member_setGroup (r : Roster K) (k : K) (g : Club K) :
    (r.setGroup k g).member = r.member := rfl

@[simp] theorem member_setMember_same (r : Roster K) (k : K) (x : Seat K) :
    (r.setMember k x).member k = some x := Function.update_self ..

theorem member_setMember_of_ne (r : Roster K) {j k : K} (x : Seat K) (h : j ≠ k) :
    (r.setMember k x).member j = r.member j := Function.update_of_ne h ..

@[simp] theorem group_setMember (r : Roster K) (k : K) (x : Seat K) :
    (r.setMember k x).group = r.group := rfl

/-- One step, and the group that it gives a member. The keys of `gone` may lose what they
have. -/
inductive Step (gone : K → Prop) : Option K → Roster K → Roster K → Prop
  | forget {r r'} (h : ∀ k, (r'.group k = r.group k ∧ r'.member k = r.member k) ∨
      (gone k ∧ r'.group k = none ∧ r'.member k = none)) : Step gone none r r'
  | found {r} (k : K) (g : Club K) (new : r.group k = none) (blank : g.size = 0) :
      Step gone none r (r.setGroup k g)
  | revise {r k g} (g' : Club K) (held : r.group k = some g) (may : g.authority.isSome = true)
      (size : g'.size = g.size) (room : g'.maxSize = g.maxSize ∨ g.size ≤ g'.maxSize) :
      Step gone none r (r.setGroup k g')
  | join {r k G g} (held : r.group G = some g) (may : g.authority.isSome = true)
      (room : g.size + 1 ≤ g.maxSize) (new : r.member k = none) :
      Step gone (some G) r
        ((r.setGroup G { g with size := g.size + 1 }).setMember k ⟨G, g.size + 1⟩)

variable {gone : K → Prop} {joined : Option K} {r r' : Roster K} {G k : K} {n : ℕ} {g : Club K}

/-- A group that is changed, and nobody joins. -/
theorem Numbered.setGroup (h : r.Numbered G n)
    (hg : k = G → g.size = n ∧ g.size ≤ g.maxSize) : (r.setGroup k g).Numbered G n where
  size g' hg' := by
    by_cases hk : G = k
    · subst hk
      rw [group_setGroup_same, Option.some.injEq] at hg'
      exact hg' ▸ hg rfl
    · rw [group_setGroup_of_ne _ _ hk] at hg'
      exact h.size g' hg'
  unfounded hnone := by
    by_cases hk : G = k
    · subst hk
      rw [group_setGroup_same] at hnone
      cases hnone
    · rw [group_setGroup_of_ne _ _ hk] at hnone
      exact h.unfounded hnone
  range := h.range
  distinct := h.distinct

/-- A member of another group. -/
theorem Numbered.setMember {x : Seat K} (h : r.Numbered G n) (hx : x.group ≠ G) :
    (r.setMember k x).Numbered G n := by
  have hmember : ∀ j y, (r.setMember k x).member j = some y → y.group = G →
      r.member j = some y := by
    intro j y hy hG
    by_cases hj : j = k
    · subst hj
      rw [member_setMember_same, Option.some.injEq] at hy
      exact absurd (hy ▸ hG) hx
    · rwa [member_setMember_of_ne _ _ hj] at hy
  exact
    { size := h.size
      unfounded := h.unfounded
      range := fun j y hy hG => h.range j y (hmember j y hy hG) hG
      distinct := fun i j y z hy hz hyG hzG =>
        h.distinct i j y z (hmember i y hy hyG) (hmember j z hz hzG) hyG hzG }

/-- The next number is new. -/
theorem Numbered.join (h : r.Numbered G n) (held : r.group G = some g)
    (room : g.size + 1 ≤ g.maxSize) :
    ((r.setGroup G { g with size := g.size + 1 }).setMember k ⟨G, g.size + 1⟩).Numbered G
      (n + 1) := by
  obtain ⟨rfl, _⟩ := h.size g held
  have hmember : ∀ j y, (r.setMember k ⟨G, g.size + 1⟩).member j = some y → y.group = G →
      (j = k ∧ y.number = g.size + 1) ∨ (r.member j = some y ∧ y.number ≤ g.size) := by
    intro j y hy hG
    by_cases hj : j = k
    · subst hj
      rw [member_setMember_same, Option.some.injEq] at hy
      exact .inl ⟨rfl, hy ▸ rfl⟩
    · rw [member_setMember_of_ne _ _ hj] at hy
      exact .inr ⟨hy, (h.range j y hy hG).2⟩
  refine ⟨fun g' hg' => ?_, fun hnone => ?_, fun j y hy hG => ?_,
    fun i j y z hy hz hyG hzG hsame => ?_⟩
  · rw [group_setMember, group_setGroup_same, Option.some.injEq] at hg'
    exact hg' ▸ ⟨rfl, room⟩
  · rw [group_setMember, group_setGroup_same] at hnone
    cases hnone
  · rcases hmember j y hy hG with ⟨_, hlast⟩ | ⟨hold, _⟩
    · omega
    · have hrange := h.range j y hold hG
      omega
  · rcases hmember i y hy hyG with ⟨rfl, hlast⟩ | ⟨hold, hle⟩
    · rcases hmember j z hz hzG with ⟨rfl, _⟩ | ⟨_, hle⟩
      · rfl
      · omega
    · rcases hmember j z hz hzG with ⟨rfl, _⟩ | ⟨hold', _⟩
      · omega
      · exact h.distinct i j y z hold hold' hyG hzG hsame

/-- The count keeps up, as long as the group is not lost. -/
theorem Step.numbered (h : Step gone joined r r') (hG : ¬ gone G) (hr : r.Numbered G n) :
    r'.Numbered G (if joined = some G then n + 1 else n) := by
  cases h with
  | forget h =>
    rw [if_neg (by simp)]
    have hmember : ∀ k x, r'.member k = some x → r.member k = some x := by
      intro k x hx
      rcases h k with ⟨_, hsame⟩ | ⟨_, _, hnone⟩
      · rwa [hsame] at hx
      · rw [hnone] at hx
        cases hx
    have hgroup : r'.group G = r.group G := by
      rcases h G with ⟨hsame, _⟩ | ⟨hgone, _⟩
      · exact hsame
      · exact absurd hgone hG
    exact
      { size := fun g hg => hr.size g (hgroup ▸ hg)
        unfounded := fun hnone => hr.unfounded (hgroup ▸ hnone)
        range := fun k x hx => hr.range k x (hmember k x hx)
        distinct := fun j k x y hx hy => hr.distinct j k x y (hmember j x hx) (hmember k y hy) }
  | found k g new blank =>
    rw [if_neg (by simp)]
    refine hr.setGroup ?_
    rintro rfl
    rw [hr.unfounded new, blank]
    exact ⟨rfl, Nat.zero_le _⟩
  | @revise _ k g g' held _ size room =>
    rw [if_neg (by simp)]
    refine hr.setGroup ?_
    rintro rfl
    obtain ⟨hsize, hle⟩ := hr.size g held
    omega
  | @join _ k G' g held _ room _ =>
    by_cases hsame : G' = G
    · subst hsame
      rw [if_pos rfl]
      exact hr.join held room
    · rw [if_neg (by simpa using hsame)]
      exact (hr.setGroup fun he => absurd he hsame).setMember hsame

/-- Without an authority, a group stays as it is. -/
theorem Step.closed (h : Step gone joined r r') (hG : ¬ gone G) (held : r.group G = some g)
    (hnone : g.authority = none) :
    r'.group G = some g ∧ joined ≠ some G ∧
      ∀ k x, r'.member k = some x → x.group = G → r.member k = some x := by
  cases h with
  | forget h =>
    refine ⟨?_, by simp, fun k x hx _ => ?_⟩
    · rcases h G with ⟨hsame, _⟩ | ⟨hgone, _⟩
      · rw [hsame, held]
      · exact absurd hgone hG
    · rcases h k with ⟨_, hsame⟩ | ⟨_, _, hlost⟩
      · rwa [hsame] at hx
      · rw [hlost] at hx
        cases hx
  | found k g' new _ =>
    have hk : G ≠ k := by
      rintro rfl
      rw [new] at held
      cases held
    exact ⟨(group_setGroup_of_ne _ _ hk).trans held, by simp, fun _ _ hx _ => hx⟩
  | @revise _ k g₀ g' held' may _ _ =>
    have hk : G ≠ k := by
      rintro rfl
      obtain rfl := Option.some.inj (held.symm.trans held')
      simp [hnone] at may
    exact ⟨(group_setGroup_of_ne _ _ hk).trans held, by simp, fun _ _ hx _ => hx⟩
  | @join _ k G' g₀ held' may _ _ =>
    have hne : G ≠ G' := by
      rintro rfl
      obtain rfl := Option.some.inj (held.symm.trans held')
      simp [hnone] at may
    refine ⟨(group_setGroup_of_ne _ _ hne).trans held, fun he => hne (Option.some.inj he).symm,
      fun j x hx hG => ?_⟩
    by_cases hj : j = k
    · subst hj
      rw [member_setMember_same, Option.some.injEq] at hx
      exact absurd (hx ▸ hG).symm hne
    · rwa [member_setMember_of_ne _ _ hj] at hx

/-- A member stays what it is. -/
theorem Step.member_kept {x : Seat K} (h : Step gone joined r r') (hk : ¬ gone k)
    (held : r.member k = some x) : r'.member k = some x := by
  cases h with
  | forget h =>
    rcases h k with ⟨_, hsame⟩ | ⟨hgone, _⟩
    · rw [hsame, held]
    · exact absurd hgone hk
  | found | revise => exact held
  | @join _ j G' g _ _ _ new =>
    have hne : k ≠ j := by
      rintro rfl
      rw [new] at held
      cases held
    exact (member_setMember_of_ne _ _ hne).trans held

end Steps

end Roster

end SolanaEasy
