import SolanaEasy.Lib.Pod
import SolanaEasy.Lib.Result

/-!
# Wire — reading a message from its front

Readers that split a value off a byte string and return the rest, chunks of a fixed length,
and text. Each reader undoes its writer whatever follows, and accepts nothing else.
-/

namespace SolanaEasy

section Split

variable {α : Type} [Pod α]

/-- Split the image of an `α` off. -/
def splitPod (α : Type) [Pod α] (b : Bytes) : Option (α × Bytes) :=
  if Pod.size α ≤ b.length then
    some (Pod.ofBytes (b.take (Pod.size α)), b.drop (Pod.size α))
  else none

@[simp] theorem splitPod_append (a : α) (r : Bytes) :
    splitPod α (Pod.toBytes a ++ r) = some (a, r) := by
  have hlen : (Pod.toBytes a).length = Pod.size α := Pod.length_toBytes a
  rw [splitPod, if_pos (by rw [List.length_append, hlen]; omega), List.take_left' hlen,
    List.drop_left' hlen, Pod.ofBytes_toBytes]

@[simp] theorem splitPod_toBytes (a : α) : splitPod α (Pod.toBytes a) = some (a, []) := by
  have h := splitPod_append a []
  rwa [List.append_nil] at h

theorem splitPod_eq_some {b r : Bytes} {a : α} :
    splitPod α b = some (a, r) ↔ b = Pod.toBytes a ++ r := by
  constructor
  · intro h
    rw [splitPod] at h
    split at h
    · rename_i hle
      obtain ⟨rfl, rfl⟩ := Prod.mk.inj (Option.some.inj h)
      rw [Pod.toBytes_ofBytes, List.take_append_drop]
      rw [List.length_take, Nat.min_eq_left hle]
    · cases h
  · rintro rfl
    exact splitPod_append a r

end Split

/-! ## Chunks -/

section Chunks

variable {α β ε : Type}

/-- `slice.chunks(n)`: the last chunk may be shorter. -/
def chunks (n : ℕ) (l : List α) : List (List α) :=
  if l = [] ∨ n = 0 then [] else l.take n :: chunks n (l.drop n)
termination_by l.length
decreasing_by
  rename_i h
  have := List.length_pos_iff.mpr (not_or.mp h).1
  rw [List.length_drop]
  omega

@[simp] theorem chunks_nil (n : ℕ) : chunks n ([] : List α) = [] := by
  rw [chunks, if_pos (.inl rfl)]

theorem chunks_append {n : ℕ} {a r : List α} (hn : 0 < n) (ha : a.length = n) :
    chunks n (a ++ r) = a :: chunks n r := by
  have hne : ¬ (a ++ r = [] ∨ n = 0) := by
    rintro (h | h)
    · rw [(List.append_eq_nil_iff.mp h).1] at ha
      exact absurd ha (Nat.ne_of_lt hn)
    · omega
  rw [chunks, if_neg hne, List.take_left' ha, List.drop_left' ha]

/-- A concatenation of pieces of length `n` falls into these pieces. -/
theorem chunks_flatMap {n : ℕ} {f : β → List α} (hn : 0 < n) (hf : ∀ b, (f b).length = n)
    (l : List β) : chunks n (l.flatMap f) = l.map f := by
  induction l with
  | nil => exact chunks_nil n
  | cons b l ih => rw [List.flatMap_cons, chunks_append hn (hf b), ih, List.map_cons]

/-- The pieces, put together again. -/
theorem flatten_chunks {n : ℕ} (hn : 0 < n) (l : List α) : (chunks n l).flatten = l := by
  induction l using chunks.induct n with
  | case1 l h =>
    rw [chunks, if_pos h, List.flatten_nil]
    exact (h.resolve_right (Nat.ne_of_gt hn)).symm
  | case2 l h ih => rw [chunks, if_neg h, List.flatten_cons, ih, List.take_append_drop]

/-- What was read, element by element, was written. -/
theorem eq_map_of_mapM {f : β → α} {g : α → Except ε β} (hg : ∀ a b, g a = .ok b → a = f b)
    {l : List α} {m : List β} (h : l.mapM g = .ok m) : l = m.map f := by
  induction l generalizing m with
  | nil =>
    obtain rfl := Except.ok.inj h
    rfl
  | cons a l ih =>
    simp only [List.mapM_cons, bind_eq_ok, pure_eq_ok] at h
    obtain ⟨b, hb, bs, hbs, rfl⟩ := h
    rw [List.map_cons, ← hg a b hb, ← ih hbs]

/-- Reading back what was written, element by element. -/
theorem mapM_map_eq_ok {f : β → α} {g : α → Except ε β} (hg : ∀ b, g (f b) = .ok b)
    (l : List β) : (l.map f).mapM g = .ok l := by
  induction l with
  | nil => rfl
  | cons b l ih => rw [List.map_cons, List.mapM_cons, hg, ih]; rfl

end Chunks

/-! ## Text -/

/-- `str::as_bytes`. -/
def strBytes (s : String) : Bytes := s.toUTF8.data.toList

/-- `str::from_utf8`. -/
def strFromUtf8 (b : Bytes) : Option String := String.fromUTF8? ⟨b.toArray⟩

@[simp] theorem strFromUtf8_strBytes (s : String) : strFromUtf8 (strBytes s) = some s := by
  have h : (⟨(strBytes s).toArray⟩ : ByteArray) = s.toByteArray := by
    rw [strBytes, Array.toArray_toList]
    rfl
  rw [strFromUtf8, h, String.fromUTF8?, dif_pos s.isValidUTF8]
  rfl

theorem strFromUtf8_eq_some {b : Bytes} {s : String} : strFromUtf8 b = some s ↔ b = strBytes s := by
  constructor
  · intro h
    rw [strFromUtf8, String.fromUTF8?] at h
    split at h
    · rw [← Option.some.inj h]
      rfl
    · cases h
  · rintro rfl
    exact strFromUtf8_strBytes s

/-- Text behind its length, which has four bytes. -/
def sizedStr (s : String) : Bytes := leBytes 4 (strBytes s).length ++ strBytes s

/-- The length of the text has four bytes. -/
def Sized (s : String) : Prop := (strBytes s).length < 2 ^ 32

def splitSizedStr (b : Bytes) : Option (String × Bytes) := do
  let (n, rest) ← splitPod (BitVec 32) b
  if n.toNat ≤ rest.length then
    (strFromUtf8 (rest.take n.toNat)).map fun s => (s, rest.drop n.toNat)
  else none

theorem toBytes_length {s : String} (h : Sized s) :
    Pod.toBytes (BitVec.ofNat 32 (strBytes s).length) = leBytes 4 (strBytes s).length := by
  show leBytes 4 (BitVec.ofNat 32 (strBytes s).length).toNat = _
  rw [BitVec.toNat_ofNat, Nat.mod_eq_of_lt h]

theorem splitSizedStr_eq_some {b r : Bytes} {s : String} :
    splitSizedStr b = some (s, r) ↔ Sized s ∧ b = sizedStr s ++ r := by
  simp only [splitSizedStr, Option.bind_eq_bind, Option.bind_eq_some_iff, Prod.exists,
    splitPod_eq_some]
  constructor
  · rintro ⟨n, rest, rfl, h⟩
    split at h
    · rename_i hle
      simp only [Option.map_eq_some_iff, Prod.mk.injEq, strFromUtf8_eq_some] at h
      obtain ⟨s, hs, rfl, rfl⟩ := h
      have hlen : (strBytes s).length = n.toNat := by
        rw [← hs, List.length_take, Nat.min_eq_left hle]
      constructor
      · rw [Sized, hlen]
        exact n.isLt
      · rw [sizedStr, hlen, ← hs, List.append_assoc, List.take_append_drop]
        rfl
    · cases h
  · rintro ⟨hs, rfl⟩
    refine ⟨BitVec.ofNat 32 (strBytes s).length, strBytes s ++ r, ?_, ?_⟩
    · rw [toBytes_length hs, sizedStr, List.append_assoc]
    · have hn : (BitVec.ofNat 32 (strBytes s).length).toNat = (strBytes s).length :=
        Nat.mod_eq_of_lt hs
      rw [hn, if_pos (by rw [List.length_append]; omega), List.take_left, List.drop_left,
        strFromUtf8_strBytes]
      rfl

end SolanaEasy
