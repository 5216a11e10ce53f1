import SolanaEasy.Token.Refine.Initialize

/-!
# Pack — the strict view of a base state

`Mint` and `Account` as `interface/src/state.rs` reads and writes them, byte slice by
byte slice, and `StateWithExtensions` over them. The strict view refuses tags, booleans
and states out of range; where it accepts the bytes it reads what the Pod view reads, and
writing it back changes no byte.
-/

namespace SolanaEasy.Token

/-! ## The Pack implementations -/

/-- `Pack` and `IsInitialized`. -/
class Pack (A : Type) where
  len : ℕ
  unpackFromSlice : Bytes → Result A
  packIntoSlice : A → Bytes → Bytes
  isInitialized : A → Bool

/-- The next field of `array_refs!`, and what is behind it. -/
def arrayRef (n : ℕ) (src : Bytes) : Bytes × Bytes := (src.take n, src.drop n)

/-- `unpack_coption_key`, `unpack_coption_u64`, on the bytes. -/
def unpackCOptionBytes (α : Type) [Pod α] (src : Bytes) : Result (Option α) :=
  let (tag, body) := arrayRef 4 src
  if tag = [0, 0, 0, 0] then .ok none
  else if tag = [1, 0, 0, 0] then .ok (some (Pod.ofBytes body))
  else .error .invalidAccountData

/-- `pack_coption_key`, `pack_coption_u64`, on the bytes: `None` writes the tag only. -/
def packCOptionBytes {α : Type} [Pod α] (src : Option α) (dst : Bytes) : Bytes :=
  let (_, body) := arrayRef 4 dst
  match src with
  | some a => [1, 0, 0, 0] ++ Pod.toBytes a
  | none => [0, 0, 0, 0] ++ body

/-- The byte of a `bool`. -/
def unpackBool : Bytes → Result Bool
  | [0] => .ok false
  | [1] => .ok true
  | _ => .error .invalidAccountData

structure Mint where
  mintAuthority : Option Pubkey
  supply : UInt64
  decimals : UInt8
  isInitialized : Bool
  freezeAuthority : Option Pubkey
deriving DecidableEq

instance : Pack Mint where
  len := mintLen
  unpackFromSlice src := do
    let (mintAuthority, src) := arrayRef 36 src
    let (supply, src) := arrayRef 8 src
    let (decimals, src) := arrayRef 1 src
    let (isInitialized, src) := arrayRef 1 src
    let (freezeAuthority, _) := arrayRef 36 src
    let mintAuthority ← unpackCOptionBytes Pubkey mintAuthority
    let isInitialized ← unpackBool isInitialized
    let freezeAuthority ← unpackCOptionBytes Pubkey freezeAuthority
    return ⟨mintAuthority, Pod.ofBytes supply, decimals.headD 0, isInitialized, freezeAuthority⟩
  packIntoSlice m dst :=
    let (mintAuthorityDst, dst) := arrayRef 36 dst
    let (_, dst) := arrayRef 8 dst
    let (_, dst) := arrayRef 1 dst
    let (_, dst) := arrayRef 1 dst
    let (freezeAuthorityDst, rest) := arrayRef 36 dst
    packCOptionBytes m.mintAuthority mintAuthorityDst ++ (Pod.toBytes m.supply ++
      ([m.decimals] ++ ([if m.isInitialized then 1 else 0] ++
        (packCOptionBytes m.freezeAuthority freezeAuthorityDst ++ rest))))
  isInitialized m := m.isInitialized

instance : Pack Account where
  len := accountLen
  unpackFromSlice src := do
    let (mint, src) := arrayRef 32 src
    let (owner, src) := arrayRef 32 src
    let (amount, src) := arrayRef 8 src
    let (delegate, src) := arrayRef 36 src
    let (state, src) := arrayRef 1 src
    let (isNative, src) := arrayRef 12 src
    let (delegatedAmount, src) := arrayRef 8 src
    let (closeAuthority, _) := arrayRef 36 src
    let delegate ← unpackCOptionBytes Pubkey delegate
    let state ← okOr .invalidAccountData (AccountState.ofU8 (state.headD 0))
    let isNative ← unpackCOptionBytes UInt64 isNative
    let closeAuthority ← unpackCOptionBytes Pubkey closeAuthority
    return ⟨Pod.ofBytes mint, Pod.ofBytes owner, Pod.ofBytes amount, delegate, state, isNative,
      Pod.ofBytes delegatedAmount, closeAuthority⟩
  packIntoSlice a dst :=
    let (_, dst) := arrayRef 32 dst
    let (_, dst) := arrayRef 32 dst
    let (_, dst) := arrayRef 8 dst
    let (delegateDst, dst) := arrayRef 36 dst
    let (_, dst) := arrayRef 1 dst
    let (isNativeDst, dst) := arrayRef 12 dst
    let (_, dst) := arrayRef 8 dst
    let (closeAuthorityDst, rest) := arrayRef 36 dst
    Pod.toBytes a.mint ++ (Pod.toBytes a.owner ++ (Pod.toBytes a.amount ++
      (packCOptionBytes a.delegate delegateDst ++ ([a.state.toU8] ++
        (packCOptionBytes a.isNative isNativeDst ++ (Pod.toBytes a.delegatedAmount ++
          (packCOptionBytes a.closeAuthority closeAuthorityDst ++ rest)))))))
  isInitialized a := a.state != .uninitialized

/-- `Pack::unpack`. -/
def Pack.unpack (A : Type) [Pack A] (input : Bytes) : Result A := do
  failIf (input.length != Pack.len A) .invalidAccountData
  let value : A ← Pack.unpackFromSlice input
  failIf (!Pack.isInitialized value) .uninitializedAccount
  return value

/-! ## What the two views have in common -/

/-- The tag is one of the two that are ever written. -/
def PodCOption.InRange {α : Type} (o : PodCOption α) : Prop :=
  o.option = PodCOption.NONE ∨ o.option = PodCOption.SOME

structure PodMint.InRange (p : PodMint) : Prop where
  mintAuthority : p.mintAuthority.InRange
  isInitialized : p.isInitialized.byte = 0 ∨ p.isInitialized.byte = 1
  freezeAuthority : p.freezeAuthority.InRange

structure PodAccount.InRange (p : PodAccount) : Prop where
  delegate : p.delegate.InRange
  state : p.state.toNat ≤ 2
  isNative : p.isNativeOption.InRange
  closeAuthority : p.closeAuthority.InRange

/-- The same values, field by field. -/
structure Mint.Agrees (m : Mint) (p : PodMint) : Prop where
  mintAuthority : m.mintAuthority = p.mintAuthority.toOption
  supply : m.supply = p.supply
  decimals : m.decimals = p.decimals
  isInitialized : m.isInitialized = p.isInitialized.toBool
  freezeAuthority : m.freezeAuthority = p.freezeAuthority.toOption

/-- The same values, field by field. -/
structure Account.Agrees (a : Account) (p : PodAccount) : Prop where
  mint : a.mint = p.mint
  owner : a.owner = p.owner
  amount : a.amount = p.amount
  delegate : a.delegate = p.delegate.toOption
  state : a.state.toU8 = p.state
  isNative : a.isNative = p.isNativeOption.toOption
  delegatedAmount : a.delegatedAmount = p.delegatedAmount
  closeAuthority : a.closeAuthority = p.closeAuthority.toOption

/-- `A` and `S` are the strict and the Pod view of the same bytes: the strict view accepts
an image in range, with the values of the Pod view, and writes it back unchanged. -/
class PodTwin (A : Type) [Pack A] (S : Type) [BaseState S] where
  InRange : S → Prop
  Agrees : A → S → Prop
  len_eq : Pack.len A = Pod.size S
  unpack_iff : ∀ {p : S} {a : A},
    Pack.unpackFromSlice (Pod.toBytes p) = .ok a ↔ InRange p ∧ Agrees a p
  pack_eq : ∀ {p : S} {a : A}, InRange p → Agrees a p →
    Pack.packIntoSlice a (Pod.toBytes p) = Pod.toBytes p
  initialized_eq : ∀ {p : S} {a : A}, Agrees a p →
    Pack.isInitialized a = BaseState.isInitialized p
  total : ∀ {p : S}, InRange p → ∃ a, Agrees a p

/-! ## Options, booleans and states -/

section Fields

variable {α : Type}

theorem arrayRef_append {x y : Bytes} {n : ℕ} (h : x.length = n) :
    arrayRef n (x ++ y) = (x, y) := by
  rw [arrayRef, List.take_left' h, List.drop_left' h]

theorem arrayRef_field [Pod α] {n : ℕ} (hn : n = Pod.size α) (a : α) (y : Bytes) :
    arrayRef n (Pod.toBytes a ++ y) = (Pod.toBytes a, y) :=
  arrayRef_append (hn ▸ Pod.length_toBytes a)

theorem toBytes_pcoption [Pod α] (o : PodCOption α) :
    Pod.toBytes o = Pod.toBytes o.option ++ Pod.toBytes o.value := rfl

theorem arrayRef_pcoption [Pod α] (o : PodCOption α) :
    arrayRef 4 (Pod.toBytes o) = (Pod.toBytes o.option, Pod.toBytes o.value) :=
  arrayRef_field rfl o.option _

theorem toBytes_none : Pod.toBytes PodCOption.NONE = [0, 0, 0, 0] := by decide

theorem toBytes_some : Pod.toBytes PodCOption.SOME = [1, 0, 0, 0] := by decide

/-- The tag bytes and the tag word are compared alike. -/
theorem unpackCOptionBytes_eq [Pod α] (o : PodCOption α) :
    unpackCOptionBytes α (Pod.toBytes o) = unpackCOption o := by
  have hnone : Pod.toBytes o.option = [0, 0, 0, 0] ↔ o.option = PodCOption.NONE := by
    rw [← toBytes_none]
    exact ⟨Pod.toBytes_injective, congrArg Pod.toBytes⟩
  have hsome : Pod.toBytes o.option = [1, 0, 0, 0] ↔ o.option = PodCOption.SOME := by
    rw [← toBytes_some]
    exact ⟨Pod.toBytes_injective, congrArg Pod.toBytes⟩
  simp only [unpackCOptionBytes, arrayRef_pcoption, hnone, hsome, unpackCOption, beq_iff_eq,
    Pod.ofBytes_toBytes]

theorem packCOptionBytes_eq [Pod α] (a : Option α) (o : PodCOption α) :
    packCOptionBytes a (Pod.toBytes o) = Pod.toBytes (packCOption a o) := by
  rw [packCOptionBytes, arrayRef_pcoption, toBytes_pcoption]
  cases a with
  | none => rw [packCOption, toBytes_none]
  | some a => rw [packCOption, PodCOption.some, toBytes_some]

theorem unpackCOption_iff {o : PodCOption α} {a : Option α} :
    unpackCOption o = .ok a ↔ o.InRange ∧ a = o.toOption := by
  constructor
  · intro h
    refine ⟨?_, (packCOption_unpackCOption h).2⟩
    rw [unpackCOption] at h
    by_cases h0 : o.option = PodCOption.NONE
    · exact .inl h0
    · by_cases h1 : o.option = PodCOption.SOME
      · exact .inr h1
      · simp [h0, h1] at h
  · obtain ⟨tag, value⟩ := o
    rintro ⟨rfl | rfl, rfl⟩
    · rfl
    · rfl

theorem headD_toBytes (b : UInt8) : (Pod.toBytes b).headD 0 = b := by
  rw [Pod.toBytes_uint8, List.headD_cons]

theorem toBytes_bool (b : PodBool) : Pod.toBytes b = [b.byte] := Pod.toBytes_uint8 b.byte

theorem unpackBool_iff {p : PodBool} {b : Bool} :
    unpackBool (Pod.toBytes p) = .ok b ↔ (p.byte = 0 ∨ p.byte = 1) ∧ b = p.toBool := by
  obtain ⟨byte⟩ := p
  rw [toBytes_bool]
  constructor
  · intro h
    rw [unpackBool.eq_def] at h
    split at h
    · rename_i hb
      obtain rfl : byte = 0 := List.singleton_inj.mp hb
      exact ⟨.inl rfl, (Except.ok.inj h).symm⟩
    · rename_i hb
      obtain rfl : byte = 1 := List.singleton_inj.mp hb
      exact ⟨.inr rfl, (Except.ok.inj h).symm⟩
    · cases h
  · rintro ⟨rfl | rfl, rfl⟩
    · rfl
    · rfl

/-- A boolean byte of 2 is initialized in the Pod view and refused by the strict one. -/
example : unpackBool [2] = .error .invalidAccountData ∧ (PodBool.mk 2).toBool = true := by decide

theorem AccountState.ofU8_iff {byte : UInt8} {s : AccountState} :
    AccountState.ofU8 byte = some s ↔ s.toU8 = byte := by
  constructor
  · intro h
    simp only [ofU8, beq_iff_eq] at h
    split_ifs at h with h0 h1 h2
    · rw [← Option.some.inj h, h0]
      rfl
    · rw [← Option.some.inj h, h1]
      rfl
    · rw [← Option.some.inj h, h2]
      rfl
  · rintro rfl
    cases s with
    | uninitialized => rfl
    | initialized => rfl
    | frozen => rfl

/-- The state bytes in range. -/
theorem AccountState.exists_toU8 {byte : UInt8} :
    (∃ s : AccountState, s.toU8 = byte) ↔ byte.toNat ≤ 2 := by
  constructor
  · rintro ⟨s, rfl⟩
    cases s with
    | uninitialized => decide
    | initialized => decide
    | frozen => decide
  · intro h
    obtain h0 | h1 | h2 : byte.toNat = 0 ∨ byte.toNat = 1 ∨ byte.toNat = 2 := by omega
    · exact ⟨.uninitialized, UInt8.toNat_inj.mp h0.symm⟩
    · exact ⟨.initialized, UInt8.toNat_inj.mp h1.symm⟩
    · exact ⟨.frozen, UInt8.toNat_inj.mp h2.symm⟩

end Fields

/-! ## Accounts -/

theorem toBytes_podAccount (p : PodAccount) :
    Pod.toBytes p = Pod.toBytes p.mint ++ (Pod.toBytes p.owner ++ (Pod.toBytes p.amount ++
      (Pod.toBytes p.delegate ++ (Pod.toBytes p.state ++ (Pod.toBytes p.isNativeOption ++
        (Pod.toBytes p.delegatedAmount ++ (Pod.toBytes p.closeAuthority ++ []))))))) := by
  rw [List.append_nil]
  rfl

namespace Account

/-- The fields are where the Pod view has them. -/
theorem unpackFromSlice_toBytes (p : PodAccount) :
    Pack.unpackFromSlice (Pod.toBytes p) = Account.unpackFromSlice p := by
  rw [toBytes_podAccount]
  simp (disch := decide) only [Pack.unpackFromSlice, arrayRef_field, unpackCOptionBytes_eq,
    headD_toBytes, Pod.ofBytes_toBytes]
  rfl

theorem packIntoSlice_toBytes (a : Account) (p : PodAccount) :
    Pack.packIntoSlice a (Pod.toBytes p) = Pod.toBytes (a.packIntoSlice p) := by
  rw [toBytes_podAccount p, toBytes_podAccount]
  simp (disch := decide) only [Pack.packIntoSlice, arrayRef_field, packCOptionBytes_eq,
    Account.packIntoSlice]
  rw [Pod.toBytes_uint8]

theorem unpackFromSlice_iff {p : PodAccount} {a : Account} :
    Account.unpackFromSlice p = .ok a ↔ p.InRange ∧ a.Agrees p := by
  simp only [Account.unpackFromSlice, bind_eq_ok, okOr_eq_ok, pure_eq_ok, unpackCOption_iff,
    AccountState.ofU8_iff]
  constructor
  · rintro ⟨_, ⟨hdelegate, rfl⟩, state, hstate, _, ⟨hnative, rfl⟩, _, ⟨hcloser, rfl⟩, rfl⟩
    exact ⟨⟨hdelegate, AccountState.exists_toU8.mp ⟨state, hstate⟩, hnative, hcloser⟩,
      ⟨rfl, rfl, rfl, rfl, hstate, rfl, rfl, rfl⟩⟩
  · rintro ⟨hr, ha⟩
    refine ⟨_, ⟨hr.delegate, rfl⟩, a.state, ha.state, _, ⟨hr.isNative, rfl⟩, _,
      ⟨hr.closeAuthority, rfl⟩, ?_⟩
    rw [← ha.mint, ← ha.owner, ← ha.amount, ← ha.delegate, ← ha.isNative, ← ha.delegatedAmount,
      ← ha.closeAuthority]

theorem packIntoSlice_of_agrees {p : PodAccount} {a : Account} (hr : p.InRange)
    (ha : a.Agrees p) : a.packIntoSlice p = p := by
  have hdelegate := packCOption_unpackCOption (unpackCOption_iff.mpr ⟨hr.delegate, ha.delegate⟩)
  have hnative := packCOption_unpackCOption (unpackCOption_iff.mpr ⟨hr.isNative, ha.isNative⟩)
  have hcloser :=
    packCOption_unpackCOption (unpackCOption_iff.mpr ⟨hr.closeAuthority, ha.closeAuthority⟩)
  rw [Account.packIntoSlice, hdelegate.1, hnative.1, hcloser.1, ha.mint, ha.owner, ha.amount,
    ha.state, ha.delegatedAmount]

end Account

instance : PodTwin Account PodAccount where
  InRange := PodAccount.InRange
  Agrees := Account.Agrees
  len_eq := rfl
  unpack_iff := by
    intro p a
    rw [Account.unpackFromSlice_toBytes, Account.unpackFromSlice_iff]
  pack_eq := by
    intro p a hr ha
    rw [Account.packIntoSlice_toBytes, Account.packIntoSlice_of_agrees hr ha]
  initialized_eq := by
    intro p a ha
    show (a.state != .uninitialized) = p.isInitialized
    rw [PodAccount.isInitialized, ← ha.state]
    cases a.state with
    | uninitialized => rfl
    | initialized => rfl
    | frozen => rfl
  total := by
    intro p hr
    obtain ⟨state, hstate⟩ := AccountState.exists_toU8.mpr hr.state
    exact ⟨⟨_, _, _, _, state, _, _, _⟩, rfl, rfl, rfl, rfl, hstate, rfl, rfl, rfl⟩

/-! ## Mints -/

theorem toBytes_podMint (p : PodMint) :
    Pod.toBytes p = Pod.toBytes p.mintAuthority ++ (Pod.toBytes p.supply ++
      (Pod.toBytes p.decimals ++ (Pod.toBytes p.isInitialized ++
        (Pod.toBytes p.freezeAuthority ++ [])))) := by
  rw [List.append_nil]
  rfl

namespace Mint

theorem unpackFromSlice_iff {p : PodMint} {m : Mint} :
    Pack.unpackFromSlice (Pod.toBytes p) = .ok m ↔ p.InRange ∧ m.Agrees p := by
  rw [toBytes_podMint]
  simp (disch := decide) only [Pack.unpackFromSlice, arrayRef_field, unpackCOptionBytes_eq,
    headD_toBytes, Pod.ofBytes_toBytes, bind_eq_ok, pure_eq_ok, unpackCOption_iff,
    unpackBool_iff]
  constructor
  · rintro ⟨_, ⟨hminter, rfl⟩, _, ⟨hinit, rfl⟩, _, ⟨hfreezer, rfl⟩, rfl⟩
    exact ⟨⟨hminter, hinit, hfreezer⟩, ⟨rfl, rfl, rfl, rfl, rfl⟩⟩
  · rintro ⟨hr, hm⟩
    refine ⟨_, ⟨hr.mintAuthority, rfl⟩, _, ⟨hr.isInitialized, rfl⟩, _,
      ⟨hr.freezeAuthority, rfl⟩, ?_⟩
    rw [← hm.mintAuthority, ← hm.supply, ← hm.decimals, ← hm.isInitialized, ← hm.freezeAuthority]

theorem packIntoSlice_of_agrees {p : PodMint} {m : Mint} (hr : p.InRange) (hm : m.Agrees p) :
    Pack.packIntoSlice m (Pod.toBytes p) = Pod.toBytes p := by
  have hminter :=
    packCOption_unpackCOption (unpackCOption_iff.mpr ⟨hr.mintAuthority, hm.mintAuthority⟩)
  have hfreezer :=
    packCOption_unpackCOption (unpackCOption_iff.mpr ⟨hr.freezeAuthority, hm.freezeAuthority⟩)
  have hinit : (if m.isInitialized then (1 : UInt8) else 0) = p.isInitialized.byte := by
    rw [hm.isInitialized, PodBool.toBool]
    rcases hr.isInitialized with h | h
    · rw [h]
      rfl
    · rw [h]
      rfl
  rw [toBytes_podMint p]
  simp (disch := decide) only [Pack.packIntoSlice, arrayRef_field, packCOptionBytes_eq, hminter.1,
    hfreezer.1, hinit, hm.supply, hm.decimals]
  rw [Pod.toBytes_uint8, toBytes_bool]

end Mint

instance : PodTwin Mint PodMint where
  InRange := PodMint.InRange
  Agrees := Mint.Agrees
  len_eq := rfl
  unpack_iff := Mint.unpackFromSlice_iff
  pack_eq := Mint.packIntoSlice_of_agrees
  initialized_eq hm := hm.isInitialized
  total _ := ⟨⟨_, _, _, _, _⟩, rfl, rfl, rfl, rfl, rfl⟩

/-! ## States -/

/-- `StateWithExtensions<A>`. -/
structure StateWithExtensions (A : Type) where
  base : A
  tlvData : Bytes

/-- `StateWithExtensionsMut<A>`: the base as read, and the borrowed parts of the data. -/
structure StateWithExtensionsMut (A : Type) where
  base : A
  baseData : Bytes
  accountType : Bytes
  tlvData : Bytes

section States

section

variable (A S : Type) [Pack A] [BaseState S]

/-- `StateWithExtensions::<A>::unpack`. The functions on the bytes behind the base use its
size and account type only; they are those of its Pod view `S`. -/
def StateWithExtensions.unpack (input : Bytes) : Result (StateWithExtensions A) := do
  checkMinLenAndNotMultisig input (Pack.len A)
  let base ← Pack.unpack A (input.take (Pack.len A))
  let (_, tlvData) ←
    unpackTypeAndTlvDataWithCheck S (input.drop (Pack.len A)) (checkAccountType S)
  return ⟨base, tlvData⟩

/-- `StateWithExtensionsMut::<A>::unpack`. -/
def StateWithExtensionsMut.unpack (input : Bytes) : Result (StateWithExtensionsMut A) := do
  checkMinLenAndNotMultisig input (Pack.len A)
  let baseData := input.take (Pack.len A)
  let base ← Pack.unpack A baseData
  let (accountType, tlvData) ←
    unpackTypeAndTlvDataWithCheck S (input.drop (Pack.len A)) (checkAccountType S)
  return ⟨base, baseData, accountType, tlvData⟩

end

variable {A S : Type} [Pack A] [BaseState S]

/-- `pack_base`. -/
def StateWithExtensionsMut.packBase (s : StateWithExtensionsMut A) : StateWithExtensionsMut A :=
  { s with baseData := Pack.packIntoSlice s.base s.baseData }

/-- The data the parts were borrowed from. -/
def StateWithExtensionsMut.bytes (s : StateWithExtensionsMut A) : Bytes :=
  s.baseData ++
    if s.accountType.isEmpty then []
    else zeros (accountLen - Pack.len A) ++ s.accountType ++ s.tlvData

variable [PodTwin A S]

/-- The strict reading of the base, in the terms of the Pod view. -/
theorem Pack.unpack_iff {p : S} {a : A} :
    Pack.unpack A (Pod.toBytes p) = .ok a ↔
      PodTwin.InRange A p ∧ PodTwin.Agrees a p ∧ BaseState.isInitialized p = true := by
  have hlen : ((Pod.toBytes p).length != Pack.len A) = false := by
    rw [Pod.length_toBytes, PodTwin.len_eq (A := A) (S := S), bne_self_eq_false]
  simp only [Pack.unpack, bind_eq_ok, exists_unit, failIf_eq_ok, pure_eq_ok, hlen, true_and,
    PodTwin.unpack_iff, Bool.not_eq_false']
  constructor
  · rintro ⟨_, ⟨hr, ha⟩, hinit, rfl⟩
    exact ⟨hr, ha, PodTwin.initialized_eq ha ▸ hinit⟩
  · rintro ⟨hr, ha, hinit⟩
    exact ⟨a, ⟨hr, ha⟩, (PodTwin.initialized_eq ha).trans hinit, rfl⟩

/-- The bytes of the base. -/
theorem take_eq_toBytes {input : Bytes} (h : Pod.size S ≤ input.length) :
    input.take (Pod.size S) = Pod.toBytes (Pod.ofBytes (input.take (Pod.size S)) : S) := by
  rw [Pod.toBytes_ofBytes]
  rw [List.length_take, Nat.min_eq_left h]

/-- The strict view accepts what the Pod view accepts and finds in range. -/
theorem StateWithExtensionsMut.unpack_iff {input : Bytes} {s : StateWithExtensionsMut A} :
    StateWithExtensionsMut.unpack A S input = .ok s ↔
      ∃ p, SolanaEasy.Token.unpack S input = .ok p ∧
        PodTwin.InRange A p.base ∧ PodTwin.Agrees s.base p.base ∧
        s = ⟨s.base, Pod.toBytes p.base, p.accountType, p.tlvData⟩ := by
  have hlen : Pack.len A = Pod.size S := PodTwin.len_eq
  simp only [StateWithExtensionsMut.unpack, SolanaEasy.Token.unpack, bind_eq_ok, exists_unit,
    Prod.exists, pure_eq_ok, failIf_eq_ok, Bool.not_eq_false', hlen]
  constructor
  · rintro ⟨hmin, a, ha, at', tlv, hrest, rfl⟩
    have htake := take_eq_toBytes (S := S) (checkMinLen_eq_ok.mp hmin).2
    rw [htake] at ha
    obtain ⟨hr, hagrees, hinit⟩ := Pack.unpack_iff.mp ha
    refine ⟨_, ⟨hmin, hinit, at', tlv, hrest, rfl⟩, hr, hagrees, ?_⟩
    rw [← htake]
  · rintro ⟨p, ⟨hmin, hinit, at', tlv, hrest, rfl⟩, hr, hagrees, hs⟩
    have htake := take_eq_toBytes (S := S) (checkMinLen_eq_ok.mp hmin).2
    refine ⟨hmin, s.base, ?_, at', tlv, hrest, ?_⟩
    · rw [htake]
      exact Pack.unpack_iff.mpr ⟨hr, hagrees, hinit⟩
    · rw [htake]
      exact hs.symm

omit [PodTwin A S] in
/-- The read-only twin performs the same checks. -/
theorem StateWithExtensions.unpack_eq (input : Bytes) :
    StateWithExtensions.unpack A S input =
      (do
        let s ← StateWithExtensionsMut.unpack A S input
        return ⟨s.base, s.tlvData⟩) := by
  simp only [StateWithExtensions.unpack, StateWithExtensionsMut.unpack, bind_assoc, pure_bind]

theorem StateWithExtensions.unpack_iff {input : Bytes} {s : StateWithExtensions A} :
    StateWithExtensions.unpack A S input = .ok s ↔
      ∃ p, SolanaEasy.Token.unpack S input = .ok p ∧
        PodTwin.InRange A p.base ∧ PodTwin.Agrees s.base p.base ∧ s.tlvData = p.tlvData := by
  simp only [StateWithExtensions.unpack_eq, bind_eq_ok, pure_eq_ok,
    StateWithExtensionsMut.unpack_iff]
  constructor
  · rintro ⟨t, ⟨p, hp, hr, hagrees, ht⟩, rfl⟩
    exact ⟨p, hp, hr, hagrees, congrArg StateWithExtensionsMut.tlvData ht⟩
  · rintro ⟨p, hp, hr, hagrees, htlv⟩
    refine ⟨⟨s.base, Pod.toBytes p.base, p.accountType, p.tlvData⟩, ⟨p, hp, hr, hagrees, rfl⟩, ?_⟩
    rw [← htlv]

/-- Reading strictly and writing back changes no byte. -/
theorem StateWithExtensionsMut.bytes_packBase {input : Bytes} {s : StateWithExtensionsMut A}
    (h : StateWithExtensionsMut.unpack A S input = .ok s) : s.packBase.bytes = input := by
  obtain ⟨p, hp, hr, hagrees, hs⟩ := StateWithExtensionsMut.unpack_iff.mp h
  have hlen : Pack.len A = Pod.size S := PodTwin.len_eq
  rw [(unpack_eq_ok.mp hp).1, hs, StateWithExtensionsMut.packBase, StateWithExtensionsMut.bytes,
    PodTwin.pack_eq hr hagrees, hlen]
  rfl

end States

/-- The strict reading of an account is that of its fields. -/
theorem Account.unpack_toBytes (p : PodAccount) :
    Pack.unpack Account (Pod.toBytes p) = (do
      let base ← Account.unpackFromSlice p
      failIf (base.state == .uninitialized) .uninitializedAccount
      return base) := by
  have hlen : ((Pod.toBytes p).length != Pack.len Account) = false := by
    rw [Pod.length_toBytes]
    rfl
  have hstate : ∀ a : Account, (!Pack.isInitialized a) = (a.state == .uninitialized) :=
    fun a => Bool.not_not _
  simp only [Pack.unpack, hlen, Account.unpackFromSlice_toBytes, hstate]
  rfl

/-- The view that `Reallocate` takes of an account is this one. -/
theorem unpackAccount_eq (input : Bytes) :
    unpackAccount input =
      (do
        let s ← StateWithExtensionsMut.unpack Account PodAccount input
        return (s.base, ⟨Pod.ofBytes s.baseData, s.accountType, s.tlvData⟩)) := by
  rw [unpackAccount, StateWithExtensionsMut.unpack, show Pack.len Account = accountLen from rfl]
  cases hmin : checkMinLenAndNotMultisig input accountLen with
  | error e => rfl
  | ok _ =>
    have htake := take_eq_toBytes (S := PodAccount) (checkMinLen_eq_ok.mp hmin).2
    rw [show Pod.size PodAccount = accountLen from rfl] at htake
    generalize (Pod.ofBytes (input.take accountLen) : PodAccount) = p at htake ⊢
    rw [htake]
    simp only [ok_bind, Account.unpack_toBytes, bind_assoc, pure_bind, Pod.ofBytes_toBytes]

/-! ## The two views -/

/-- On one byte string the strict and the Pod view agree. -/
structure ViewsAgree (A S : Type) [Pack A] [BaseState S] [PodTwin A S] (input : Bytes) : Prop where
  pod_of_pack : ∀ s, StateWithExtensions.unpack A S input = .ok s →
    ∃ p, unpack S input = .ok p ∧ PodTwin.Agrees s.base p.base ∧ p.tlvData = s.tlvData
  pack_of_pod : ∀ p, unpack S input = .ok p → PodTwin.InRange A p.base →
    ∃ s, StateWithExtensions.unpack A S input = .ok s ∧ PodTwin.Agrees s.base p.base ∧
      s.tlvData = p.tlvData
  pack_base : ∀ s, StateWithExtensionsMut.unpack A S input = .ok s → s.packBase.bytes = input

theorem viewsAgree {A S : Type} [Pack A] [BaseState S] [PodTwin A S] (input : Bytes) :
    ViewsAgree A S input where
  pod_of_pack := by
    intro s hs
    obtain ⟨p, hp, _, hagrees, htlv⟩ := StateWithExtensions.unpack_iff.mp hs
    exact ⟨p, hp, hagrees, htlv.symm⟩
  pack_of_pod := by
    intro p hp hr
    obtain ⟨a, hagrees⟩ := PodTwin.total hr
    exact ⟨⟨a, p.tlvData⟩, StateWithExtensions.unpack_iff.mpr ⟨p, hp, hr, hagrees, rfl⟩, hagrees,
      rfl⟩
  pack_base _ hs := StateWithExtensionsMut.bytes_packBase hs

/-- The strict and the Pod view of token accounts and mints agree on every byte string. -/
theorem pack_agrees_pod (input : Bytes) :
    ViewsAgree Account PodAccount input ∧ ViewsAgree Mint PodMint input :=
  ⟨viewsAgree input, viewsAgree input⟩

end SolanaEasy.Token
