import SolanaEasy.Lib.Wire

/-!
# Formats — readers that a writer determines

A reader that takes a value off the front of a byte string accepts exactly the strings that
begin with an image of the value, and returns what follows it. Such readers are put one after
the other, brought to the end of the string, and tried in turn.
-/

namespace SolanaEasy

variable {α β I : Type}

/-- An image of a value that satisfies `P` is taken off the front, and nothing else. -/
def Splits (split : Bytes → Option (α × Bytes)) (write : α → Bytes) (P : α → Prop) : Prop :=
  ∀ b a r, split b = some (a, r) ↔ P a ∧ b = write a ++ r

/-- The whole string is the image of a value that satisfies `P`. -/
def Reads (read : Bytes → Option I) (write : I → Bytes) (P : I → Prop) : Prop :=
  ∀ b i, read b = some i ↔ P i ∧ b = write i

/-! ## Taking values off the front -/

section Splits

variable {f : Bytes → Option (α × Bytes)} {g : Bytes → Option (β × Bytes)} {w : α → Bytes}
  {v : β → Bytes} {P : α → Prop} {Q : β → Prop}

theorem Splits.pod (α : Type) [Pod α] : Splits (splitPod α) Pod.toBytes fun _ => True :=
  fun _ _ _ => by rw [splitPod_eq_some, true_and]

theorem Splits.sizedStr : Splits splitSizedStr SolanaEasy.sizedStr Sized :=
  fun _ _ _ => splitSizedStr_eq_some

/-- The bytes `d` are there. -/
def splitLiteral (d : Bytes) (b : Bytes) : Option (Unit × Bytes) :=
  if b.take d.length = d then some ((), b.drop d.length) else none

theorem Splits.literal (d : Bytes) : Splits (splitLiteral d) (fun _ => d) fun _ => True := by
  intro b a r
  rw [splitLiteral, true_and]
  constructor
  · intro h
    split at h
    · rename_i htake
      obtain rfl := (Prod.mk.inj (Option.some.inj h)).2
      conv_lhs => rw [← List.take_append_drop d.length b, htake]
    · cases h
  · rintro rfl
    rw [List.take_left, if_pos rfl, List.drop_left]

/-- One value, then another. -/
def splitBoth (f : Bytes → Option (α × Bytes)) (g : Bytes → Option (β × Bytes)) (b : Bytes) :
    Option ((α × β) × Bytes) := do
  let (a, r) ← f b
  let (c, r) ← g r
  return ((a, c), r)

theorem Splits.both (hf : Splits f w P) (hg : Splits g v Q) :
    Splits (splitBoth f g) (fun p => w p.1 ++ v p.2) fun p => P p.1 ∧ Q p.2 := by
  rintro b ⟨a, c⟩ r
  simp only [splitBoth, Option.bind_eq_bind, Option.bind_eq_some_iff, Prod.exists, Option.pure_def,
    Option.some.injEq, Prod.mk.injEq, hf _ _ _, hg _ _ _]
  constructor
  · rintro ⟨a, _, ⟨ha, rfl⟩, c, r, ⟨hc, rfl⟩, ⟨rfl, rfl⟩, rfl⟩
    exact ⟨⟨ha, hc⟩, (List.append_assoc ..).symm⟩
  · rintro ⟨⟨ha, hc⟩, rfl⟩
    exact ⟨a, v c ++ r, ⟨ha, List.append_assoc ..⟩, c, r, ⟨hc, rfl⟩, ⟨rfl, rfl⟩, rfl⟩

end Splits

/-! ## Reading to the end -/

section Reads

variable {f : Bytes → Option (α × Bytes)} {read read' : Bytes → Option I} {w : α → Bytes}
  {pack : I → Bytes} {P : α → Prop} {Q R : I → Prop}

/-- A value that fills the string, and what is made of it. -/
def readAll (f : Bytes → Option (α × Bytes)) (make : α → I) (b : Bytes) : Option I :=
  (f b).bind fun p => if p.2 = [] then some (make p.1) else none

theorem Splits.readAll (hf : Splits f w P) {make : α → I} (hpack : ∀ a, pack (make a) = w a) :
    Reads (readAll f make) pack fun i => ∃ a, P a ∧ i = make a := by
  intro b i
  simp only [SolanaEasy.readAll, Option.bind_eq_some_iff, Prod.exists, hf _ _ _]
  constructor
  · rintro ⟨a, r, ⟨ha, rfl⟩, h⟩
    split at h
    · rename_i hr
      obtain rfl := Option.some.inj h
      exact ⟨⟨a, ha, rfl⟩, by rw [hpack, hr, List.append_nil]⟩
    · cases h
  · rintro ⟨⟨a, ha, rfl⟩, rfl⟩
    exact ⟨a, [], ⟨ha, by rw [hpack, List.append_nil]⟩, if_pos rfl⟩

/-- A value that fills what follows the bytes `d`. -/
def readBehind (d : Bytes) (f : Bytes → Option (α × Bytes)) (make : α → I) : Bytes → Option I :=
  readAll (splitBoth (splitLiteral d) f) fun p => make p.2

theorem Splits.readBehind (hf : Splits f w P) {d : Bytes} {make : α → I}
    (hpack : ∀ a, pack (make a) = d ++ w a) :
    Reads (readBehind d f make) pack fun i => ∃ a, P a ∧ i = make a := by
  intro b i
  have h := ((Splits.literal d).both hf).readAll fun p => hpack p.2
  rw [SolanaEasy.readBehind, h b i]
  simp only [true_and, Prod.exists, exists_unit]

/-- Another reader has its turn where the first one fails. -/
theorem Reads.orElse (h : Reads read pack Q) (h' : Reads read' pack R)
    (hne : ∀ i j, Q i → R j → pack i ≠ pack j) :
    Reads (fun b => (read b).or (read' b)) pack fun i => Q i ∨ R i := by
  intro b i
  show (read b).or (read' b) = some i ↔ (Q i ∨ R i) ∧ b = pack i
  cases hb : read b with
  | some j =>
    obtain ⟨hj, rfl⟩ := (h b j).mp hb
    rw [Option.some_or, Option.some.injEq]
    constructor
    · rintro rfl
      exact ⟨.inl hj, rfl⟩
    · rintro ⟨hi | hi, heq⟩
      · rw [(h _ i).mpr ⟨hi, heq⟩] at hb
        exact (Option.some.inj hb).symm
      · exact absurd heq (hne j i hj hi)
  | none =>
    rw [Option.none_or, h' b i]
    refine and_congr_left fun heq => ⟨.inr, fun hi => hi.resolve_left fun hi => ?_⟩
    rw [(h b i).mpr ⟨hi, heq⟩] at hb
    cases hb

end Reads

end SolanaEasy
