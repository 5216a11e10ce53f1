import SolanaEasy.Lib.ElGamal
import SolanaEasy.Token.Confidential.Reading

/-!
# Curves — the group behind the points

Off the chain ciphertexts are pairs of group elements, on the chain pairs of encodings.
A `Curve` says that the Ristretto system calls compute on encodings what the group
operations compute on elements, so that the arithmetic of the program is that of ElGamal.
-/

namespace SolanaEasy.Token

open ElGamal CiphertextArithmetic

structure Curve (rt : Runtime) (F P : Type) [CommRing F] [AddCommGroup P] [Module F P] where
  bases : Bases P
  /-- The 32 bytes of an element. -/
  compress : P → PodRistrettoPoint
  compress_injective : Function.Injective compress
  scalars_apart : Function.Injective fun x : F => x • bases.G
  compress_zero : compress 0 = 0
  compress_G : compress bases.G = ristrettoG
  add_eq : ∀ p q, rt.addRistretto (compress p) (compress q) = some (compress (p + q))
  subtract_eq : ∀ p q, rt.subtractRistretto (compress p) (compress q) = some (compress (p - q))
  multiply_eq : ∀ (n : ℕ) p, n < 2 ^ 64 →
    rt.multiplyRistretto (natToScalar n) (compress p) = some (compress ((n : F) • p))

namespace Curve

variable {rt : Runtime} {F P : Type} [CommRing F] [AddCommGroup P] [Module F P]
  (C : Curve rt F P)

/-- `PodElGamalCiphertext::from`. -/
def pod (c : Ciphertext P) : PodElGamalCiphertext := ⟨C.compress c.commitment, C.compress c.handle⟩

def pod3 (c : GroupedCiphertext 3 P) : PodGroupedElGamalCiphertext3Handles :=
  ⟨C.compress c.commitment, C.compress (c.handles 0), C.compress (c.handles 1),
    C.compress (c.handles 2)⟩

def pod2 (c : GroupedCiphertext 2 P) : PodGroupedElGamalCiphertext2Handles :=
  ⟨C.compress c.commitment, C.compress (c.handles 0), C.compress (c.handles 1)⟩

theorem pod_injective : Function.Injective C.pod := by
  rintro ⟨p, q⟩ ⟨p', q'⟩ h
  obtain ⟨hp, hq⟩ := PodElGamalCiphertext.mk.inj h
  obtain rfl : p = p' := C.compress_injective hp
  obtain rfl : q = q' := C.compress_injective hq
  rfl

/-! ## The arithmetic of the program -/

theorem add_pod (a b : Ciphertext P) : add rt (C.pod a) (C.pod b) = some (C.pod (a + b)) := by
  simp only [add, pod, C.add_eq]
  rfl

theorem subtract_pod (a b : Ciphertext P) :
    subtract rt (C.pod a) (C.pod b) = some (C.pod (a - b)) := by
  simp only [subtract, pod, C.subtract_eq]
  rfl

theorem multiply_pod {n : ℕ} (hn : n < 2 ^ 64) (a : Ciphertext P) :
    multiply rt (natToScalar n) (C.pod a) = some (C.pod ((n : F) • a)) := by
  simp only [multiply, pod, C.multiply_eq _ _ hn]
  rfl

theorem addWithLoHi_pod (a lo hi : Ciphertext P) :
    addWithLoHi rt (C.pod a) (C.pod lo) (C.pod hi) =
      some (C.pod (a + (lo + ((65536 : ℕ) : F) • hi))) := by
  have hshift := C.multiply_pod (n := 65536) (by omega) hi
  simp only [addWithLoHi, shiftScalar, hshift, Option.bind_eq_bind, Option.bind_some, add_pod]

theorem subtractWithLoHi_pod (a lo hi : Ciphertext P) :
    subtractWithLoHi rt (C.pod a) (C.pod lo) (C.pod hi) =
      some (C.pod (a - (lo + ((65536 : ℕ) : F) • hi))) := by
  have hshift := C.multiply_pod (n := 65536) (by omega) hi
  simp only [subtractWithLoHi, shiftScalar, hshift, Option.bind_eq_bind, Option.bind_some, add_pod,
    subtract_pod]

theorem subtractFrom_pod {n : ℕ} (hn : n < 2 ^ 64) (a : Ciphertext P) :
    subtractFrom rt (C.pod a) n = some (C.pod (a - C.bases.encode (n : F))) := by
  have hzero : a.handle - 0 = a.handle := sub_zero _
  simp only [subtractFrom, pod, ← C.compress_G, C.multiply_eq _ _ hn, Option.bind_eq_bind,
    Option.bind_some, C.subtract_eq]
  show some (⟨_, _⟩ : PodElGamalCiphertext) = some ⟨_, C.compress (a.handle - 0)⟩
  rw [hzero]
  rfl

theorem combineLoHiPedersenPoints_eq (lo hi : P) :
    combineLoHiPedersenPoints rt (C.compress lo) (C.compress hi) =
      .ok (C.compress (lo + ((65536 : ℕ) : F) • hi)) := by
  have hshift := C.multiply_eq 65536 hi (by omega)
  simp only [combineLoHiPedersenPoints, curve, hshift, okOr, ok_bind, C.add_eq]

/-! ## What points hide -/

/-- Under the secret `s` the points encode a ciphertext that hides `x`. -/
def Hides (s : F) (c : PodElGamalCiphertext) (x : F) : Prop :=
  ∃ c', c = C.pod c' ∧ C.bases.Decrypts s c' x

variable {C}

theorem Hides.unique {s x y : F} {c : PodElGamalCiphertext} (hx : C.Hides s c x)
    (hy : C.Hides s c y) : x = y := by
  obtain ⟨a, rfl, ha⟩ := hx
  obtain ⟨b, hab, hb⟩ := hy
  obtain rfl := C.pod_injective hab
  exact ha.unique C.scalars_apart hb

theorem Hides.add_pod {s x y : F} {c : PodElGamalCiphertext} {b : Ciphertext P}
    (hc : C.Hides s c x) (hb : C.bases.Decrypts s b y) :
    ∃ c', add rt c (C.pod b) = some c' ∧ C.Hides s c' (x + y) := by
  obtain ⟨a, rfl, ha⟩ := hc
  exact ⟨_, C.add_pod a b, _, rfl, ha.add hb⟩

theorem Hides.subtract_pod {s x y : F} {c : PodElGamalCiphertext} {b : Ciphertext P}
    (hc : C.Hides s c x) (hb : C.bases.Decrypts s b y) :
    ∃ c', subtract rt c (C.pod b) = some c' ∧ C.Hides s c' (x - y) := by
  obtain ⟨a, rfl, ha⟩ := hc
  exact ⟨_, C.subtract_pod a b, _, rfl, ha.sub hb⟩

theorem Hides.addWithLoHi_pod {s x y z : F} {c : PodElGamalCiphertext} {lo hi : Ciphertext P}
    (hc : C.Hides s c x) (hlo : C.bases.Decrypts s lo y) (hhi : C.bases.Decrypts s hi z) :
    ∃ c', addWithLoHi rt c (C.pod lo) (C.pod hi) = some c' ∧
      C.Hides s c' (x + (y + ((65536 : ℕ) : F) * z)) := by
  obtain ⟨a, rfl, ha⟩ := hc
  exact ⟨_, C.addWithLoHi_pod a lo hi, _, rfl, ha.add (hlo.add (hhi.smul _))⟩

theorem hides_zeroed (s : F) : C.Hides s .zeroed 0 := by
  refine ⟨⟨0, 0⟩, ?_, ?_⟩
  · show (⟨0, 0⟩ : PodElGamalCiphertext) = ⟨C.compress 0, C.compress 0⟩
    rw [C.compress_zero]
  · show (0 : P) - s • (0 : P) = (0 : F) • C.bases.G
    rw [smul_zero, sub_zero, zero_smul]

end Curve

/-! ## Residues again -/

section Modular

variable {n : ℕ}

theorem pointOf_val_cast (r : ℕ) : pointOf n (r : ZMod n).val = pointOf n r := by
  rw [pointOf, pointOf, ZMod.val_natCast, Nat.mod_mod]

theorem pointOf_eq {r : ℕ} {x : ZMod n} (h : (r : ZMod n) = x) : pointOf n r = pointOf n x.val := by
  rw [← h, pointOf_val_cast]

theorem pointOf_val_zero : pointOf n (0 : ZMod n).val = 0 := by
  rw [ZMod.val_zero, pointOf, if_neg, if_neg]
  · rw [Nat.zero_mod]
    rfl
  · rw [Nat.zero_mod]
    decide
  · rw [Nat.zero_mod]
    decide

theorem smul_one_injective : Function.Injective fun x : ZMod n => x • (1 : ZMod n) := by
  intro x y hxy
  simpa using hxy

section Order

variable (hpos : 1 < n) (hn : n ≤ 2 ^ 256)

include hpos

theorem pointOf_val_one : pointOf n (1 : ZMod n).val = ristrettoG := by
  have hone : (1 : ZMod n).val = 1 := ZMod.val_one'' (by omega)
  rw [hone, pointOf, if_pos (Nat.mod_eq_of_lt hpos)]

include hn

theorem pointOf_val_injective : Function.Injective fun x : ZMod n => pointOf n x.val := by
  have : NeZero n := ⟨by omega⟩
  intro x y hxy
  have hres := congrArg (residue n) hxy
  simp only [residue_pointOf (by omega : 0 < n) hn, Nat.mod_eq_of_lt (ZMod.val_lt _)] at hres
  exact ZMod.val_injective n hres

theorem addRistretto_pointOf (p q : ZMod n) :
    (Runtime.modular n).addRistretto (pointOf n p.val) (pointOf n q.val) =
      some (pointOf n (p + q).val) := by
  have : NeZero n := ⟨by omega⟩
  refine congrArg some (pointOf_eq ?_)
  rw [Nat.cast_add, cast_residue_pointOf (by omega) hn, cast_residue_pointOf (by omega) hn,
    ZMod.natCast_zmod_val, ZMod.natCast_zmod_val]

theorem subtractRistretto_pointOf (p q : ZMod n) :
    (Runtime.modular n).subtractRistretto (pointOf n p.val) (pointOf n q.val) =
      some (pointOf n (p - q).val) := by
  have : NeZero n := ⟨by omega⟩
  refine congrArg some (pointOf_eq ?_)
  rw [Nat.cast_add, Nat.cast_sub (residue_lt (by omega) _).le, ZMod.natCast_self,
    cast_residue_pointOf (by omega) hn, cast_residue_pointOf (by omega) hn,
    ZMod.natCast_zmod_val, ZMod.natCast_zmod_val]
  ring

theorem multiplyRistretto_pointOf (m : ℕ) (p : ZMod n) (hm : m < 2 ^ 64) :
    (Runtime.modular n).multiplyRistretto (natToScalar m) (pointOf n p.val) =
      some (pointOf n ((m : ZMod n) • p).val) := by
  have : NeZero n := ⟨by omega⟩
  refine congrArg some (pointOf_eq ?_)
  have hval : (natToScalar m).toNat = m := by
    rw [natToScalar, BitVec.toNat_ofNat, Nat.mod_eq_of_lt (by omega)]
  rw [Nat.cast_mul, cast_residue_pointOf (by omega) hn, ZMod.natCast_zmod_val, hval,
    smul_eq_mul]

end Order

/-- The curve of the residues modulo `n`, on which the opening weighs `h`. -/
def Curve.modular (n : ℕ) (hpos : 1 < n) (hn : n ≤ 2 ^ 256) (h : ZMod n) :
    Curve (Runtime.modular n) (ZMod n) (ZMod n) where
  bases := ⟨1, h⟩
  compress := fun x => pointOf n x.val
  compress_injective := pointOf_val_injective hpos hn
  scalars_apart := smul_one_injective
  compress_zero := pointOf_val_zero
  compress_G := pointOf_val_one hpos
  add_eq := addRistretto_pointOf hpos hn
  subtract_eq := subtractRistretto_pointOf hpos hn
  multiply_eq := multiplyRistretto_pointOf hpos hn

end Modular

end SolanaEasy.Token
