import Mathlib.Logic.Basic

/-!
# Results — inverting fallible code

A function that may fail is written in `Except`: every check is one bind. The
lemmas here turn "this computation returned `.ok`" into the list of checks that
passed and the values they produced, so that a success hypothesis is taken
apart by `simp only` and `obtain`, never by splitting on the code.
-/

namespace SolanaEasy

/-- Fail with `e` when the condition holds (`if c { return Err(e) }`). -/
def failIf {ε : Type} (c : Bool) (e : ε) : Except ε Unit :=
  if c then .error e else .ok ()

/-- `Option::ok_or`. -/
def okOr {ε α : Type} (e : ε) : Option α → Except ε α
  | some a => .ok a
  | none => .error e

/-- `Result::map_err` with an error that forgets the old one. -/
def mapErr {ε δ α : Type} (e : δ) : Except ε α → Except δ α
  | .ok a => .ok a
  | .error _ => .error e

/-- `Result::ok`. -/
def toOption {ε α : Type} : Except ε α → Option α
  | .ok a => some a
  | .error _ => none

section Inversion

variable {ε δ α β : Type}

@[simp] theorem bind_eq_ok {x : Except ε α} {f : α → Except ε β} {b : β} :
    (x >>= f) = .ok b ↔ ∃ a, x = .ok a ∧ f a = .ok b := by
  cases x with
  | error e => simp [Bind.bind, Except.bind]
  | ok a => simp [Bind.bind, Except.bind]

theorem ok_ne_error {a : α} {e : ε} : (Except.ok a : Except ε α) ≠ .error e := by
  intro h
  cases h

/-- An error that no part of a computation ends with. -/
theorem bind_ne_error {x : Except ε α} {f : α → Except ε β} {e : ε} (hx : x ≠ .error e)
    (hf : ∀ a, x = .ok a → f a ≠ .error e) : (x >>= f) ≠ .error e := by
  cases x with
  | error e' =>
    intro h
    exact hx (congrArg Except.error (Except.error.inj h))
  | ok a => exact hf a rfl

/-- A check that passed returned nothing else. -/
@[simp] theorem exists_unit {p : Unit → Prop} : (∃ u, p u) ↔ p () := by
  constructor
  · rintro ⟨⟨⟩, h⟩
    exact h
  · exact fun h => ⟨(), h⟩

@[simp] theorem pure_eq_ok {a b : α} : (pure a : Except ε α) = .ok b ↔ a = b := by
  simp [Pure.pure, Except.pure]

@[simp] theorem failIf_eq_ok {c : Bool} {e : ε} {u : Unit} :
    failIf c e = .ok u ↔ c = false := by
  cases c <;> simp [failIf]

theorem failIf_ne_error {c : Bool} {e e' : ε} (h : e ≠ e') : failIf c e ≠ .error e' := by
  cases c <;> simp [failIf, h]

theorem okOr_ne_error {e e' : ε} (h : e ≠ e') (o : Option α) : okOr e o ≠ .error e' := by
  cases o <;> simp [okOr, h]

@[simp] theorem okOr_eq_ok {e : ε} {o : Option α} {a : α} :
    okOr e o = .ok a ↔ o = some a := by
  cases o <;> simp [okOr]

@[simp] theorem mapErr_eq_ok {e : δ} {x : Except ε α} {a : α} :
    mapErr e x = .ok a ↔ x = .ok a := by
  cases x <;> simp [mapErr]

@[simp] theorem toOption_eq_some {x : Except ε α} {a : α} :
    toOption x = some a ↔ x = .ok a := by
  cases x <;> simp [toOption]

@[simp] theorem toOption_eq_none {x : Except ε α} :
    toOption x = none ↔ ∀ a, x ≠ .ok a := by
  cases x <;> simp [toOption]

@[simp] theorem toOption_ok {a : α} : toOption (.ok a : Except ε α) = some a := rfl

@[simp] theorem toOption_error {e : ε} : toOption (.error e : Except ε α) = none := rfl

@[simp] theorem ok_bind {a : α} {f : α → Except ε β} :
    ((Except.ok a : Except ε α) >>= f) = f a := rfl

@[simp] theorem error_bind {e : ε} {f : α → Except ε β} :
    ((Except.error e : Except ε α) >>= f) = .error e := rfl

/-- A loop none of whose steps fails. -/
theorem mapM_eq_ok_map {f : α → Except ε β} {g : α → β} {l : List α}
    (h : ∀ a ∈ l, f a = .ok (g a)) : l.mapM f = .ok (l.map g) := by
  induction l with
  | nil => rfl
  | cons a l ih =>
    rw [List.mapM_cons, h a List.mem_cons_self, ok_bind,
      ih fun b hb => h b (List.mem_cons_of_mem a hb)]
    rfl

end Inversion

end SolanaEasy
