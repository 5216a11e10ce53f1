import Mathlib.Data.BitVec
import Mathlib.Tactic.Ring

/-!
# Plain-old-data — fixed-width byte images

`Pod α` is a bijection between `α` and the byte strings of one fixed length:
every value has an image, and every byte string of that length is the image of
exactly one value. Integers are little-endian; a record is the concatenation of
its fields. Nothing here knows what the records are.
-/

namespace SolanaEasy

abbrev Bytes := List UInt8

/-- `n` zero bytes. -/
abbrev zeros (n : Nat) : Bytes := List.replicate n 0

/-! ## Little-endian naturals -/

/-- The `w` low bytes of `n`, least significant first. -/
def leBytes : Nat → Nat → Bytes
  | 0, _ => []
  | w + 1, n => UInt8.ofNat n :: leBytes w (n / 256)

/-- The number whose little-endian bytes are given. -/
def leNat : Bytes → Nat
  | [] => 0
  | b :: bs => b.toNat + 256 * leNat bs

@[simp] theorem length_leBytes (w n : Nat) : (leBytes w n).length = w := by
  induction w generalizing n with
  | zero => rfl
  | succ w ih => simp [leBytes, ih]

theorem leNat_leBytes {w n : Nat} (h : n < 256 ^ w) : leNat (leBytes w n) = n := by
  induction w generalizing n with
  | zero => simp at h; simp [leBytes, leNat, h]
  | succ w ih =>
    have hdiv : n / 256 < 256 ^ w := by
      rw [Nat.div_lt_iff_lt_mul (by norm_num), ← pow_succ]
      exact h
    rw [leBytes, leNat, ih hdiv, UInt8.toNat_ofNat']
    omega

theorem leNat_lt (bs : Bytes) : leNat bs < 256 ^ bs.length := by
  induction bs with
  | nil => simp [leNat]
  | cons b bs ih =>
    have hb : b.toNat < 256 := b.toNat_lt
    rw [leNat, List.length_cons, pow_succ]
    omega

theorem leBytes_leNat (bs : Bytes) : leBytes bs.length (leNat bs) = bs := by
  induction bs with
  | nil => rfl
  | cons b bs ih =>
    have hb : b.toNat < 256 := b.toNat_lt
    have hdiv : (b.toNat + 256 * leNat bs) / 256 = leNat bs := by omega
    have hmod : UInt8.ofNat (b.toNat + 256 * leNat bs) = b := by
      apply UInt8.toNat_inj.mp
      rw [UInt8.toNat_ofNat']
      omega
    rw [leNat, List.length_cons, leBytes, hdiv, ih, hmod]

@[simp] theorem leBytes_zero (w : Nat) : leBytes w 0 = zeros w := by
  induction w with
  | zero => rfl
  | succ w ih => simpa [leBytes, List.replicate_succ] using ih

/-! ## The class -/

/-- A type whose values are exactly the byte strings of length `size`. -/
class Pod (α : Type) where
  size : Nat
  toBytes : α → Bytes
  ofBytes : Bytes → α
  length_toBytes : ∀ a, (toBytes a).length = size
  ofBytes_toBytes : ∀ a, ofBytes (toBytes a) = a
  toBytes_ofBytes : ∀ b, b.length = size → toBytes (ofBytes b) = b

namespace Pod

attribute [simp] length_toBytes ofBytes_toBytes

variable {α β : Type} [Pod α] [Pod β]

/-- Reading a byte string as an `α`: only the exact length is accepted. -/
def decode? (α : Type) [Pod α] (b : Bytes) : Option α :=
  if b.length = size α then some (ofBytes b) else none

theorem decode?_eq_some {b : Bytes} {a : α} :
    decode? α b = some a ↔ b = toBytes a := by
  unfold decode?
  split
  · rename_i h
    constructor
    · rintro h'
      rw [← Option.some.inj h', toBytes_ofBytes b h]
    · rintro rfl
      simp
  · rename_i h
    constructor
    · rintro ⟨⟩
    · rintro rfl
      exact absurd (length_toBytes a) h

@[simp] theorem decode?_toBytes (a : α) : decode? α (toBytes a) = some a :=
  decode?_eq_some.mpr rfl

theorem toBytes_injective {a b : α} (h : toBytes a = toBytes b) : a = b := by
  have := congrArg (ofBytes (α := α)) h
  simpa using this

/-- An integer type read through its value. -/
@[reducible] def ofNatCodec (α : Type) (w : Nat) (toNat : α → Nat) (ofNat : Nat → α)
    (lt : ∀ a, toNat a < 256 ^ w) (ofNat_toNat : ∀ a, ofNat (toNat a) = a)
    (toNat_ofNat : ∀ n, n < 256 ^ w → toNat (ofNat n) = n) : Pod α where
  size := w
  toBytes a := leBytes w (toNat a)
  ofBytes b := ofNat (leNat b)
  length_toBytes _ := by simp
  ofBytes_toBytes a := by rw [leNat_leBytes (lt a), ofNat_toNat]
  toBytes_ofBytes b h := by
    have hlt : leNat b < 256 ^ w := h ▸ leNat_lt b
    rw [toNat_ofNat _ hlt]
    exact h ▸ leBytes_leNat b

/-- A record read through the tuple of its fields. -/
@[reducible] def ofEquiv (α : Type) {β : Type} [Pod β] (f : α → β) (g : β → α)
    (gf : ∀ a, g (f a) = a) (fg : ∀ b, f (g b) = b) : Pod α where
  size := size β
  toBytes a := toBytes (f a)
  ofBytes b := g (ofBytes b)
  length_toBytes _ := by simp
  ofBytes_toBytes a := by simp [gf]
  toBytes_ofBytes b h := by rw [fg, toBytes_ofBytes b h]

instance : Pod Unit where
  size := 0
  toBytes _ := []
  ofBytes _ := ()
  length_toBytes _ := rfl
  ofBytes_toBytes _ := rfl
  toBytes_ofBytes _ h := (List.length_eq_zero_iff.mp h).symm

instance : Pod UInt8 :=
  ofNatCodec UInt8 1 UInt8.toNat UInt8.ofNat (fun a => a.toNat_lt)
    (fun _ => UInt8.ofNat_toNat) (fun n h => by rw [UInt8.toNat_ofNat']; omega)

theorem toBytes_uint8 (b : UInt8) : toBytes b = [b] := by
  show [UInt8.ofNat b.toNat] = [b]
  rw [UInt8.ofNat_toNat]

instance : Pod UInt16 :=
  ofNatCodec UInt16 2 UInt16.toNat UInt16.ofNat (fun a => a.toNat_lt)
    (fun _ => UInt16.ofNat_toNat) (fun n h => by rw [UInt16.toNat_ofNat']; omega)

instance : Pod UInt64 :=
  ofNatCodec UInt64 8 UInt64.toNat UInt64.ofNat (fun a => a.toNat_lt)
    (fun _ => UInt64.ofNat_toNat) (fun n h => by rw [UInt64.toNat_ofNat']; omega)

instance : Pod Int8 := ofEquiv Int8 Int8.toUInt8 Int8.ofUInt8 (fun _ => rfl) (fun _ => rfl)

instance : Pod Int16 := ofEquiv Int16 Int16.toUInt16 Int16.ofUInt16 (fun _ => rfl) (fun _ => rfl)

instance : Pod Int64 := ofEquiv Int64 Int64.toUInt64 Int64.ofUInt64 (fun _ => rfl) (fun _ => rfl)

/-- A bit vector of `w` bytes. -/
@[reducible] def ofBitVec (w k : Nat) (h : k = 8 * w) : Pod (BitVec k) :=
  have hp : 2 ^ k = 256 ^ w := by rw [h, pow_mul]; norm_num
  ofNatCodec (BitVec k) w BitVec.toNat (BitVec.ofNat k) (fun a => hp ▸ a.isLt)
    (fun _ => by simp) (fun n hn => by
      rw [BitVec.toNat_ofNat, hp]
      exact Nat.mod_eq_of_lt hn)

instance : Pod (BitVec 32) := ofBitVec 4 32 rfl
instance : Pod (BitVec 256) := ofBitVec 32 256 rfl
instance : Pod (BitVec 288) := ofBitVec 36 288 rfl

instance : Pod (α × β) where
  size := size α + size β
  toBytes p := toBytes p.1 ++ toBytes p.2
  ofBytes b := (ofBytes (b.take (size α)), ofBytes (b.drop (size α)))
  length_toBytes p := by simp
  ofBytes_toBytes p := by
    rw [List.take_left' (length_toBytes _), List.drop_left' (length_toBytes _)]
    simp
  toBytes_ofBytes b h := by
    have h₁ : (b.take (size α)).length = size α := by rw [List.length_take]; omega
    have h₂ : (b.drop (size α)).length = size β := by rw [List.length_drop]; omega
    rw [toBytes_ofBytes _ h₁, toBytes_ofBytes _ h₂, List.take_append_drop]

end Pod

/-! ## Arrays -/

/-- `[α; n]`. -/
structure PodArray (α : Type) (n : Nat) where
  toList : List α
  length_eq : toList.length = n
deriving DecidableEq

namespace PodArray

@[ext] theorem ext {α : Type} {n : Nat} {a b : PodArray α n} (h : a.toList = b.toList) : a = b := by
  cases a; cases b; cases h; rfl

/-- The array with its first elements replaced by those of `l`. -/
def setPrefix {α : Type} {n : Nat} (a : PodArray α n) (l : List α) : PodArray α n :=
  ⟨(l ++ a.toList.drop l.length).take n, by
    rw [List.length_take, List.length_append, List.length_drop, a.length_eq]; omega⟩

variable {α : Type} [Pod α]

/-- Split off `n` consecutive images. -/
def chunks (α : Type) [Pod α] : Nat → Bytes → List α
  | 0, _ => []
  | n + 1, b => Pod.ofBytes (b.take (Pod.size α)) :: chunks α n (b.drop (Pod.size α))

theorem length_chunks (n : Nat) (b : Bytes) : (chunks α n b).length = n := by
  induction n generalizing b with
  | zero => rfl
  | succ n ih => simp [chunks, ih]

theorem length_flatMap (l : List α) : (l.flatMap Pod.toBytes).length = l.length * Pod.size α := by
  induction l with
  | nil => simp
  | cons a l ih => rw [List.flatMap_cons, List.length_append, ih, List.length_cons,
      Pod.length_toBytes]; ring

theorem chunks_flatMap (l : List α) : chunks α l.length (l.flatMap Pod.toBytes) = l := by
  induction l with
  | nil => rfl
  | cons a l ih =>
    rw [List.length_cons, chunks, List.flatMap_cons, List.take_left' (Pod.length_toBytes a),
      List.drop_left' (Pod.length_toBytes a), ih, Pod.ofBytes_toBytes]

theorem flatMap_chunks (n : Nat) (b : Bytes) (h : b.length = n * Pod.size α) :
    (chunks α n b).flatMap Pod.toBytes = b := by
  induction n generalizing b with
  | zero => simp at h; simp [chunks, h]
  | succ n ih =>
    have hle : Pod.size α ≤ b.length := by rw [h, Nat.succ_mul]; omega
    have h₁ : (b.take (Pod.size α)).length = Pod.size α := by rw [List.length_take]; omega
    have h₂ : (b.drop (Pod.size α)).length = n * Pod.size α := by
      rw [List.length_drop, h, Nat.succ_mul]; omega
    rw [chunks, List.flatMap_cons, Pod.toBytes_ofBytes _ h₁, ih _ h₂, List.take_append_drop]

instance (n : Nat) : Pod (PodArray α n) where
  size := n * Pod.size α
  toBytes a := a.toList.flatMap Pod.toBytes
  ofBytes b := ⟨chunks α n b, length_chunks n b⟩
  length_toBytes a := by rw [length_flatMap, a.length_eq]
  ofBytes_toBytes a := by
    apply PodArray.ext
    have h := chunks_flatMap a.toList
    rwa [a.length_eq] at h
  toBytes_ofBytes b h := flatMap_chunks n b h

end PodArray

end SolanaEasy
