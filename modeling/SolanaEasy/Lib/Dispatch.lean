import SolanaEasy.Lib.Wire

/-!
# Dispatch — a byte that selects a branch

The first byte of a message is the number of a branch. A branch either reads a value that
must fill the rest of the message, or does not look at the rest. A table of branches agrees
with an encoder when every branch makes what the encoder writes under its number; such a
table reads back what was written, and reads nothing else.
-/

namespace SolanaEasy

/-- What stands behind a number, and what is made of it. -/
inductive Branch (I : Type) : Type 1 where
  | data {D : Type} [Pod D] (make : D → I)
  | plain (i : I)

namespace Branch

variable {I ε : Type} {short : ε} {b : Branch I} {rest tail w : Bytes} {more : Bool} {i : I}

def read (short : ε) : Branch I → Bytes → Except ε I
  | @data _ D _ make, rest => okOr short ((Pod.decode? D rest).map make)
  | plain i, _ => .ok i

/-- The branch makes `i` of `w`, and takes `more` behind it if it does not look there. -/
inductive Makes : Branch I → Bytes → Bool → I → Prop
  | data {D : Type} [Pod D] {make : D → I} (d : D) :
      Makes (.data make) (Pod.toBytes d) false (make d)
  | plain {i : I} : Makes (.plain i) [] true i

theorem Makes.of_read (h : b.read short rest = .ok i) :
    ∃ w more tail, b.Makes w more i ∧ rest = w ++ tail ∧ (tail = [] ∨ more = true) := by
  cases b with
  | data make =>
    simp only [read, okOr_eq_ok, Option.map_eq_some_iff, Pod.decode?_eq_some] at h
    obtain ⟨d, rfl, rfl⟩ := h
    exact ⟨_, _, [], .data d, (List.append_nil _).symm, .inl rfl⟩
  | plain j =>
    obtain rfl := Except.ok.inj h
    exact ⟨_, _, rest, .plain, rfl, .inr rfl⟩

theorem Makes.read (h : b.Makes w more i) (hend : tail = [] ∨ more = true) :
    b.read short (w ++ tail) = .ok i := by
  cases h with
  | data d =>
    obtain rfl : tail = [] := hend.resolve_right Bool.false_ne_true
    rw [List.append_nil, Branch.read, Pod.decode?_toBytes]
    rfl
  | plain => rfl

end Branch

/-- How requests are written: which of them can be, and which may have anything behind them. -/
structure Encoding (I : Type) where
  pack : I → Bytes
  lenient : I → Bool
  valid : I → Prop

/-- The input is what is written for `i`, with a tail where that is allowed. -/
def Encoding.Writes {I : Type} (F : Encoding I) (i : I) (input : Bytes) : Prop :=
  F.valid i ∧ ∃ tail, input = F.pack i ++ tail ∧ (tail = [] ∨ F.lenient i = true)

section Dispatch

variable {I ε : Type} {short unknown : ε} {bs : List (Branch I)} {F : Encoding I}
  {pre input tail : Bytes} {i : I} {n k : ℕ}

/-- The branch that the first byte selects, on the rest. -/
def dispatch (short unknown : ε) (bs : List (Branch I)) : Bytes → Except ε I
  | [] => .error short
  | tag :: rest =>
    match bs[tag.toNat]? with
    | some b => b.read short rest
    | none => .error unknown

/-- From the number `n` on, what the branches read is written behind `pre`. -/
def Agrees (pre : Bytes) (F : Encoding I) : ℕ → List (Branch I) → Prop
  | _, [] => True
  | n, @Branch.data _ D _ make :: bs =>
    (∀ d : D, F.pack (make d) = pre ++ UInt8.ofNat n :: Pod.toBytes d ∧
        F.lenient (make d) = false ∧ F.valid (make d)) ∧
      Agrees pre F (n + 1) bs
  | n, .plain i :: bs =>
    (F.pack i = pre ++ [UInt8.ofNat n] ∧ F.lenient i = true ∧ F.valid i) ∧
      Agrees pre F (n + 1) bs

theorem Agrees.makes (h : Agrees pre F n bs) {b : Branch I} (hb : bs[k]? = some b)
    {w : Bytes} {more : Bool} (hmakes : b.Makes w more i) :
    F.pack i = pre ++ UInt8.ofNat (n + k) :: w ∧ F.lenient i = more ∧ F.valid i := by
  induction bs generalizing n k with
  | nil => cases hb
  | cons a bs ih =>
    cases k with
    | zero =>
      obtain rfl : a = b := Option.some.inj hb
      cases hmakes with
      | data d => exact h.1 d
      | plain => exact h.1
    | succ k =>
      have hrest : Agrees pre F (n + 1) bs := by
        cases a with
        | data make => exact h.2
        | plain j => exact h.2
      rw [show n + (k + 1) = n + 1 + k by omega]
      exact ih hrest hb

/-- What was read begins with what is written. -/
theorem Agrees.of_dispatch (hagrees : Agrees pre F 0 bs)
    (h : dispatch short unknown bs input = .ok i) : F.Writes i (pre ++ input) := by
  cases input with
  | nil => cases h
  | cons tag rest =>
    rw [SolanaEasy.dispatch] at h
    cases hb : bs[tag.toNat]? with
    | none =>
      rw [hb] at h
      cases h
    | some b =>
      rw [hb] at h
      obtain ⟨w, more, tail, hmakes, rfl, hend⟩ := Branch.Makes.of_read h
      obtain ⟨hpack, hlenient, hvalid⟩ := hagrees.makes hb hmakes
      rw [Nat.zero_add, UInt8.ofNat_toNat] at hpack
      exact ⟨hvalid, tail, by rw [hpack, List.append_assoc, List.cons_append], hlenient ▸ hend⟩

/-- What is written is read back. -/
theorem Agrees.dispatch (hagrees : Agrees pre F 0 bs) (hn : bs.length ≤ 256)
    {b : Branch I} {w : Bytes} {more : Bool} (hb : bs[k]? = some b) (hmakes : b.Makes w more i)
    (h : F.Writes i input) :
    ∃ rest, input = pre ++ rest ∧ SolanaEasy.dispatch short unknown bs rest = .ok i := by
  obtain ⟨-, tail, rfl, hend⟩ := h
  obtain ⟨hpack, hlenient, -⟩ := hagrees.makes hb hmakes
  have hk : k < bs.length := (List.getElem?_eq_some_iff.mp hb).1
  have htag : (UInt8.ofNat k).toNat = k := by
    rw [UInt8.toNat_ofNat']
    omega
  refine ⟨UInt8.ofNat k :: (w ++ tail), ?_, ?_⟩
  · rw [hpack, Nat.zero_add, List.append_assoc, List.cons_append]
  · rw [SolanaEasy.dispatch, htag, hb]
    exact hmakes.read (hlenient ▸ hend)

end Dispatch

end SolanaEasy
