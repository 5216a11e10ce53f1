import SolanaEasy.Token.TlvBuffer

/-!
# Views — an account as a base and a partial map of extensions

A `PodState` still knows where its bytes lie. Its `View` forgets that: a base and,
for every extension type, the value stored under it. Reading an extension is a
lookup in the view, and the two ways to write one are a `set` of the view, on the
states whose buffer is well formed.
-/

namespace SolanaEasy.Token

/-- What an account says, without its layout. -/
structure View (S : Type) where
  base : S
  ext : ExtensionType → Option Bytes

/-- An extension whose type knows its size. -/
class SizedExtension (V : Type) [Pod V] [Extension V] : Prop where
  size_eq : (Extension.type V).sized = true → Pod.size V = (Extension.type V).typeLen := by decide

instance : SizedExtension TransferFeeConfig where
instance : SizedExtension TransferFeeAmount where
instance : SizedExtension ConfidentialTransferMint where
instance : SizedExtension ConfidentialTransferAccount where
instance : SizedExtension ConfidentialTransferFeeConfig where
instance : SizedExtension ConfidentialTransferFeeAmount where
instance : SizedExtension ConfidentialMintBurn where
instance : SizedExtension MintCloseAuthority where
instance : SizedExtension DefaultAccountState where
instance : SizedExtension PermanentDelegate where
instance : SizedExtension InterestBearingConfig where
instance : SizedExtension TransferHook where
instance : SizedExtension MetadataPointer where
instance : SizedExtension GroupPointer where
instance : SizedExtension GroupMemberPointer where
instance : SizedExtension TokenGroup where
instance : SizedExtension TokenGroupMember where
instance : SizedExtension ScaledUiAmountConfig where
instance : SizedExtension PausableConfig where
instance : SizedExtension MemoTransfer where
instance : SizedExtension CpiGuard where
instance : SizedExtension TransferHookAccount where
instance : SizedExtension NonTransferable where
instance : SizedExtension NonTransferableAccount where
instance : SizedExtension ImmutableOwner where
instance : SizedExtension PausableAccount where

namespace View

variable {S V W : Type} [Pod V] [Extension V] [Pod W] [Extension W]

/-- The extension `V` of an account. -/
def get (v : View S) (V : Type) [Pod V] [Extension V] : Option V :=
  (v.ext (Extension.type V)).bind (Pod.decode? V)

/-- The view with a value under a type. -/
def setExt (v : View S) (t : ExtensionType) (bytes : Bytes) : View S :=
  { v with ext := Function.update v.ext t (some bytes) }

/-- The view with another value for `V`. -/
def set (v : View S) (x : V) : View S := v.setExt (Extension.type V) (Pod.toBytes x)

/-- The view with another base. -/
def withBase (v : View S) (base : S) : View S := { v with base := base }

@[simp] theorem base_setExt (v : View S) (t : ExtensionType) (b : Bytes) :
    (v.setExt t b).base = v.base := rfl

@[simp] theorem base_set (v : View S) (x : V) : (v.set x).base = v.base := rfl

@[simp] theorem base_withBase (v : View S) (base : S) : (v.withBase base).base = base := rfl

@[simp] theorem ext_withBase (v : View S) (base : S) : (v.withBase base).ext = v.ext := rfl

@[simp] theorem get_withBase (v : View S) (base : S) : (v.withBase base).get V = v.get V := rfl

@[simp] theorem set_withBase (v : View S) (base : S) (x : V) :
    (v.withBase base).set x = (v.set x).withBase base := rfl

@[simp] theorem withBase_base (v : View S) : v.withBase v.base = v := rfl

@[simp] theorem withBase_withBase (v : View S) (a b : S) :
    (v.withBase a).withBase b = v.withBase b := rfl

theorem ext_setExt (v : View S) (t s : ExtensionType) (b : Bytes) :
    (v.setExt t b).ext s = if s = t then some b else v.ext s := Function.update_apply ..

@[simp] theorem get_set_same (v : View S) (x : V) : (v.set x).get V = some x := by
  simp [get, set, ext_setExt]

theorem get_setExt_of_ne (v : View S) {t : ExtensionType} (b : Bytes) (h : Extension.type W ≠ t) :
    (v.setExt t b).get W = v.get W := by
  simp [get, ext_setExt, h]

theorem get_set_of_ne (v : View S) (x : V) (h : Extension.type W ≠ Extension.type V) :
    (v.set x).get W = v.get W := get_setExt_of_ne v _ h

theorem ext_set_isSome (v : View S) (x : V) (t : ExtensionType) :
    ((v.set x).ext t).isSome = true ↔ t = Extension.type V ∨ (v.ext t).isSome = true := by
  rw [set, ext_setExt]
  by_cases h : t = Extension.type V
  · simp [h]
  · simp [h]

theorem ext_isSome_of_get {v : View S} {x : V} (h : v.get V = some x) :
    (v.ext (Extension.type V)).isSome = true := by
  unfold get at h
  cases hext : v.ext (Extension.type V) with
  | none => simp [hext] at h
  | some b => rfl

theorem ext_eq_of_get {v : View S} {x : V} (h : v.get V = some x) :
    v.ext (Extension.type V) = some (Pod.toBytes x) := by
  unfold get at h
  obtain ⟨b, hext, hdecode⟩ := Option.bind_eq_some_iff.mp h
  rw [hext, Pod.decode?_eq_some.mp hdecode]

theorem get_eq_none_of_ext {v : View S} (h : v.ext (Extension.type V) = none) :
    v.get V = none := by
  rw [get, h]
  rfl

end View

/-! ## The view of a state -/

namespace PodState

variable {S : Type} [BaseState S] {V : Type} [Pod V] [Extension V]

def view (s : PodState S) : View S where
  base := s.base
  ext t := toOption (getExtensionBytes S t s.tlvData)

/-- The buffer is one the program can have written. -/
def Wf (s : PodState S) : Prop := ∃ b : TlvBuffer (BaseState.accountType S), b.bytes = s.tlvData

@[simp] theorem base_view (s : PodState S) : s.view.base = s.base := rfl

@[simp] theorem view_withBase (s : PodState S) (base : S) :
    ({ s with base := base } : PodState S).view = s.view.withBase base := rfl

theorem getExtension_eq_ok {s : PodState S} {x : V} :
    s.getExtension V = .ok x ↔ s.view.get V = some x := by
  have hext : s.view.ext (Extension.type V) =
      toOption (getExtensionBytes S (Extension.type V) s.tlvData) := rfl
  rw [getExtension, View.get, hext]
  cases getExtensionBytes S (Extension.type V) s.tlvData with
  | error e => simp
  | ok b => simp

@[simp] theorem toOption_getExtension (s : PodState S) :
    toOption (s.getExtension V) = s.view.get V := by
  ext x
  rw [toOption_eq_some, getExtension_eq_ok]

@[simp] theorem hasExtension_eq (s : PodState S) :
    s.hasExtension V = (s.view.get V).isSome := by
  rw [hasExtension, toOption_getExtension]

theorem ext_view_eq {s : PodState S} {b : TlvBuffer (BaseState.accountType S)}
    (hb : b.bytes = s.tlvData) (t : ExtensionType) : s.view.ext t = b.get t := by
  ext v
  show toOption (getExtensionBytes S t s.tlvData) = some v ↔ _
  rw [toOption_eq_some, ← hb, TlvBuffer.getExtensionBytes_eq_ok]

/-- The listed types are those under which something is stored. -/
theorem getExtensionTypes_ok {s : PodState S} (hwf : s.Wf) {ts : List ExtensionType}
    (h : s.getExtensionTypes = .ok ts) (t : ExtensionType) :
    t ∈ ts ↔ (s.view.ext t).isSome = true := by
  obtain ⟨b, hb⟩ := hwf
  rw [getExtensionTypes, ← hb, TlvBuffer.getTlvDataInfo_bytes] at h
  obtain rfl := Except.ok.inj h
  rw [ext_view_eq hb, TlvBuffer.mem_types]

/-- Values of a fixed size have it. -/
theorem get_isSome_iff [SizedExtension V] {s : PodState S} (hwf : s.Wf)
    (hsized : (Extension.type V).sized = true) :
    (s.view.get V).isSome = true ↔ (s.view.ext (Extension.type V)).isSome = true := by
  obtain ⟨b, hb⟩ := hwf
  rw [View.get, ext_view_eq hb]
  cases hget : b.get (Extension.type V) with
  | none => simp
  | some v =>
    have hlen := (TlvBuffer.belongs_of_get hget).sized hsized
    have hsize : v.length = Pod.size V := hlen.trans (SizedExtension.size_eq hsized).symm
    simp [Pod.decode?, hsize]

theorem ext_eq_none_of_get [SizedExtension V] {s : PodState S} (hwf : s.Wf)
    (hsized : (Extension.type V).sized = true) (h : s.view.get V = none) :
    s.view.ext (Extension.type V) = none := by
  have hiff := get_isSome_iff (V := V) hwf hsized
  rw [h] at hiff
  simpa using hiff

/-- `s'` is `s` with the view `v`, in the same layout. -/
structure Stored (s s' : PodState S) (v : View S) : Prop where
  wf : s'.Wf
  view : s'.view = v
  accountType : s'.accountType = s.accountType
  length : s'.tlvData.length = s.tlvData.length

namespace Stored

variable {s s' s'' : PodState S} {v v' : View S}

theorem refl (hwf : s.Wf) : s.Stored s s.view := ⟨hwf, rfl, rfl, rfl⟩

theorem base_eq (h : s.Stored s' v) : s'.base = v.base := by rw [← h.view, base_view]

theorem trans (h : s.Stored s' v) (h' : s'.Stored s'' v') : s.Stored s'' v' :=
  ⟨h'.wf, h'.view, h'.accountType.trans h.accountType, h'.length.trans h.length⟩

theorem withBase (h : s.Stored s' v) (base : S) :
    s.Stored { s' with base := base } (v.withBase base) :=
  ⟨h.wf, by rw [view_withBase, h.view], h.accountType, h.length⟩

end Stored

theorem view_eq_setExt {s s' : PodState S} {b b' : TlvBuffer (BaseState.accountType S)}
    {t : ExtensionType} {v : Bytes} (hb : b.bytes = s.tlvData) (hb' : b'.bytes = s'.tlvData)
    (hbase : s'.base = s.base) (hsets : b.Sets t v b') : s'.view = s.view.setExt t v := by
  have hext : s'.view.ext = Function.update s.view.ext t (some v) := by
    funext u
    rw [ext_view_eq hb', hsets.get, Function.update_apply, Function.update_apply, ext_view_eq hb]
  show (⟨s'.base, s'.view.ext⟩ : View S) = ⟨s.base, Function.update s.view.ext t (some v)⟩
  rw [hbase, hext]

/-- `*get_extension_mut()? = x`: allowed when the extension is there. -/
theorem setExtension_ok {s s' : PodState S} {x : V} (hwf : s.Wf)
    (h : s.setExtension x = .ok s') :
    s.Stored s' (s.view.set x) ∧ (s.view.ext (Extension.type V)).isSome = true := by
  obtain ⟨b, hb⟩ := hwf
  simp only [setExtension, bind_eq_ok, failIf_eq_ok, bne_eq_false_iff_eq, pure_eq_ok,
    Prod.exists] at h
  obtain ⟨i, j, hrange, _, hlen, rfl⟩ := h
  rw [← hb] at hrange
  obtain ⟨b', hb', hsets, hmem⟩ := TlvBuffer.exists_set hrange
    ((Pod.length_toBytes x).trans hlen.symm)
  obtain ⟨pre, old, post, hes, rfl, rfl⟩ := TlvBuffer.getExtensionRange_eq_ok.mp hrange
  have hle := lt_length_of_drop_eq (b := b.bytes) (TlvData.drop_of_split (d := b.data) hes)
    (by rw [TlvEntry.length_bytes]; omega)
  have hold : (⟨Extension.type V, old⟩ : TlvEntry).bytes.length = 4 + old.length :=
    TlvEntry.length_bytes _
  rw [hold] at hle
  refine ⟨⟨⟨b', by rw [hb', hb]⟩, view_eq_setExt hb (by rw [hb', hb]) rfl hsets, rfl, ?_⟩, ?_⟩
  · show (splice s.tlvData _ _).length = _
    rw [← hb, length_splice]
    rw [Pod.length_toBytes]
    omega
  · rw [ext_view_eq hb, ← TlvBuffer.mem_types]
    exact hmem

/-- What can be read can be written. -/
theorem exists_setExtension {s : PodState S} {x : V} (h : s.view.get V = some x) (y : V) :
    ∃ s', s.setExtension y = .ok s' := by
  rw [← getExtension_eq_ok] at h
  simp only [getExtension, getExtensionBytes, bind_eq_ok, okOr_eq_ok, pure_eq_ok, Prod.exists] at h
  obtain ⟨_, ⟨i, j, hrange, rfl⟩, hx⟩ := h
  have hbound := hrange
  simp only [getExtensionRange, bind_eq_ok, failIf_eq_ok, pure_eq_ok, Prod.mk.injEq,
    decide_eq_false_iff_not, exists_unit] at hbound
  obtain ⟨_, ix, _, hle, rfl, rfl⟩ := hbound
  have hlen := congrArg List.length (Pod.decode?_eq_some.mp hx)
  rw [Pod.length_toBytes, slice, List.length_take, List.length_drop, Nat.min_eq_left (by omega)]
    at hlen
  simp only [setExtension, hrange, ok_bind, bind_eq_ok, failIf_eq_ok, exists_unit, hlen,
    bne_self_eq_false, pure_eq_ok, true_and, exists_eq']

/-- `*init_extension(overwrite)? = x`. -/
theorem initExtension_ok [SizedExtension V] {s s' : PodState S} {x : V} {overwrite : Bool}
    (hwf : s.Wf) (h : s.initExtension x overwrite = .ok s') :
    s.Stored s' (s.view.set x) ∧
      (overwrite = false → s.view.ext (Extension.type V) = none) := by
  obtain ⟨b, hb⟩ := hwf
  rw [initExtension, ← hb] at h
  cases halloc : alloc S (Extension.type V) (Pod.size V) overwrite b.bytes with
  | mk result tlv =>
    rw [halloc] at h
    simp only [bind_eq_ok, pure_eq_ok, Prod.exists] at h
    obtain ⟨i, j, rfl, rfl⟩ := h
    rw [← Pod.length_toBytes x] at halloc
    obtain ⟨b', hb', hsets, hlen, hfresh⟩ := TlvBuffer.exists_alloc halloc
      (fun hs => (Pod.length_toBytes x).trans (SizedExtension.size_eq hs))
    refine ⟨⟨⟨b', hb'⟩, view_eq_setExt hb hb' rfl hsets, rfl, ?_⟩, ?_⟩
    · show (splice tlv i (Pod.toBytes x)).length = _
      rw [← hb', hlen, hb]
    · intro how
      rw [ext_view_eq hb, TlvBuffer.get_eq_none]
      exact hfresh how

end PodState

end SolanaEasy.Token
