import SolanaEasy.Lib.Slice
import SolanaEasy.Oft.RateLimiter

/-!
# Messages — what one chain tells the other

`msg_codec.rs` and `compose_msg_codec.rs`: fields at fixed offsets, and a tail that is
there or not. The tail of a message, with the sender in front, is what the second codec
hands on.
-/

namespace SolanaEasy.Oft

open Token (Pubkey)

/-- `[u8; 32]`. -/
abbrev Address := Vector UInt8 32

/-- `copy_from_slice` into an array of thirty-two bytes. -/
def toAddress (b : Bytes) : Result Address :=
  if h : b.length = 32 then .ok ⟨b.toArray, by simpa using h⟩ else .error .panic

/-- `from_be_bytes` of a range that has the width of the integer. -/
def toUInt64 (b : Bytes) : UInt64 := UInt64.ofNat (beNat b)

def toUInt32 (b : Bytes) : UInt32 := UInt32.ofNat (beNat b)

/-- Slicing out of range panics. -/
def range (message : Bytes) (i j : ℕ) : Result Bytes := okOr .panic (slice? message i j)

/-! ## The message -/

namespace MsgCodec

def sendAmountSdOffset : ℕ := 32
def composeMsgOffset : ℕ := 40

def encode (sendTo : Address) (amountSd : UInt64) (sender : Pubkey) (composeMsg : Option Bytes) :
    Bytes :=
  match composeMsg with
  | some msg => sendTo.toList ++ (beBytes 8 amountSd.toNat ++ (Pod.toBytes sender ++ msg))
  | none => sendTo.toList ++ (beBytes 8 amountSd.toNat ++ [])

def sendTo (message : Bytes) : Result Address := do
  toAddress (← range message 0 sendAmountSdOffset)

def amountSd (message : Bytes) : Result UInt64 := do
  return toUInt64 (← range message sendAmountSdOffset composeMsgOffset)

def composeMsg (message : Bytes) : Option Bytes :=
  if message.length > composeMsgOffset then some (message.drop composeMsgOffset) else none

end MsgCodec

/-! ## The composed message -/

namespace ComposeMsgCodec

def srcEidOffset : ℕ := 8
def amountLdOffset : ℕ := 12
def composeFromOffset : ℕ := 20
def composeMsgOffset : ℕ := 52

def encode (nonce : UInt64) (srcEid : UInt32) (amountLd : UInt64) (composeMsg : Bytes) : Bytes :=
  beBytes 8 nonce.toNat ++ (beBytes 4 srcEid.toNat ++ (beBytes 8 amountLd.toNat ++ composeMsg))

def nonce (message : Bytes) : Result UInt64 := do
  return toUInt64 (← range message 0 srcEidOffset)

def srcEid (message : Bytes) : Result UInt32 := do
  return toUInt32 (← range message srcEidOffset amountLdOffset)

def amountLd (message : Bytes) : Result UInt64 := do
  return toUInt64 (← range message amountLdOffset composeFromOffset)

def composeFrom (message : Bytes) : Result Address := do
  toAddress (← range message composeFromOffset composeMsgOffset)

def composeMsg (message : Bytes) : Bytes :=
  if message.length > composeMsgOffset then message.drop composeMsgOffset else []

end ComposeMsgCodec

/-! ## Fields -/

theorem toAddress_toList (a : Address) : toAddress a.toList = .ok a := by
  rw [toAddress, dif_pos Vector.length_toList]
  rfl

theorem toUInt64_beBytes (x : UInt64) : toUInt64 (beBytes 8 x.toNat) = x := by
  rw [toUInt64, beNat_beBytes x.toNat_lt]
  exact UInt64.ofNat_toNat

theorem toUInt32_beBytes (x : UInt32) : toUInt32 (beBytes 4 x.toNat) = x := by
  rw [toUInt32, beNat_beBytes x.toNat_lt]
  exact UInt32.ofNat_toNat

theorem range_append {a b c : Bytes} {i j : ℕ} (hi : i = a.length) (hj : j = i + b.length) :
    range (a ++ (b ++ c)) i j = .ok b := by
  rw [range, slice?_append hi hj]
  rfl

section MsgCodec

open MsgCodec

variable (a : Address) (x : UInt64) (s : Pubkey) (m : Option Bytes)

/-- What follows the amount. -/
def MsgCodec.tail (s : Pubkey) (m : Option Bytes) : Bytes := (m.map (Pod.toBytes s ++ ·)).getD []

theorem encode_eq : encode a x s m = a.toList ++ (beBytes 8 x.toNat ++ tail s m) := by
  cases m with
  | none => rfl
  | some msg => rfl

theorem sendTo_encode : sendTo (encode a x s m) = .ok a := by
  have hrange : range (encode a x s m) 0 sendAmountSdOffset = .ok a.toList := by
    rw [encode_eq]
    exact range_append (a := []) rfl (by simp [sendAmountSdOffset])
  rw [sendTo, hrange]
  exact toAddress_toList a

theorem amountSd_encode : amountSd (encode a x s m) = .ok x := by
  have hrange : range (encode a x s m) sendAmountSdOffset composeMsgOffset =
      .ok (beBytes 8 x.toNat) := by
    rw [encode_eq]
    exact range_append (by simp [sendAmountSdOffset])
      (by simp [sendAmountSdOffset, composeMsgOffset])
  rw [amountSd, hrange]
  exact congrArg Except.ok (toUInt64_beBytes x)

theorem composeMsg_encode : composeMsg (encode a x s m) = m.map (Pod.toBytes s ++ ·) := by
  have hhead : (a.toList ++ beBytes 8 x.toNat).length = composeMsgOffset := by
    simp [composeMsgOffset]
  rw [composeMsg, encode_eq, ← List.append_assoc, ← hhead, List.drop_left, List.length_append]
  cases m with
  | none => rw [tail, Option.map_none, Option.getD_none, List.length_nil, if_neg (by omega)]
  | some msg =>
    -- the sender alone makes the tail longer than nothing
    have hpos : 0 < (tail s (some msg)).length := by
      rw [tail, Option.map_some, Option.getD_some, List.length_append, Pod.length_toBytes]
      exact Nat.lt_of_lt_of_le (by decide) (Nat.le_add_right _ _)
    rw [if_pos (by omega)]
    rfl

end MsgCodec

section ComposeMsgCodec

open ComposeMsgCodec

variable (n : UInt64) (e : UInt32) (x : UInt64) (m : Bytes)

theorem nonce_encode : nonce (encode n e x m) = .ok n := by
  have hrange : range (encode n e x m) 0 srcEidOffset = .ok (beBytes 8 n.toNat) :=
    range_append (a := []) (b := beBytes 8 n.toNat) rfl (by simp [srcEidOffset])
  rw [nonce, hrange]
  exact congrArg Except.ok (toUInt64_beBytes n)

theorem srcEid_encode : srcEid (encode n e x m) = .ok e := by
  have hrange : range (encode n e x m) srcEidOffset amountLdOffset = .ok (beBytes 4 e.toNat) :=
    range_append (a := beBytes 8 n.toNat) (by simp [srcEidOffset])
      (by simp [srcEidOffset, amountLdOffset])
  rw [srcEid, hrange]
  exact congrArg Except.ok (toUInt32_beBytes e)

theorem amountLd_encode : amountLd (encode n e x m) = .ok x := by
  have hrange : range (encode n e x m) amountLdOffset composeFromOffset =
      .ok (beBytes 8 x.toNat) := by
    rw [encode, ← List.append_assoc (beBytes 8 n.toNat)]
    exact range_append (by simp [amountLdOffset]) (by simp [amountLdOffset, composeFromOffset])
  rw [amountLd, hrange]
  exact congrArg Except.ok (toUInt64_beBytes x)

/-- The head of a composed message. -/
theorem encode_head : encode n e x m =
    (beBytes 8 n.toNat ++ beBytes 4 e.toNat ++ beBytes 8 x.toNat) ++ m := by
  rw [encode, List.append_assoc, List.append_assoc]

theorem composeFrom_encode (a : Address) (p : Bytes) :
    composeFrom (encode n e x (a.toList ++ p)) = .ok a := by
  have hrange : range (encode n e x (a.toList ++ p)) composeFromOffset composeMsgOffset =
      .ok a.toList := by
    rw [encode_head]
    exact range_append (by simp [composeFromOffset]) (by simp [composeFromOffset, composeMsgOffset])
  rw [composeFrom, hrange]
  exact toAddress_toList a

theorem composeMsg_compose (a : Address) (p : Bytes) :
    composeMsg (encode n e x (a.toList ++ p)) = p := by
  have hhead : (beBytes 8 n.toNat ++ beBytes 4 e.toNat ++ beBytes 8 x.toNat ++ a.toList).length =
      composeMsgOffset := by
    simp [composeMsgOffset]
  rw [composeMsg, encode_head, ← List.append_assoc, ← hhead, List.drop_left, List.length_append]
  split
  · rfl
  · -- no byte follows the sender
    rename_i hshort
    exact (List.length_eq_zero_iff.mp (by omega)).symm

end ComposeMsgCodec

/-- The bytes of a key, as the composed message hands them on. -/
def senderAddress (s : Pubkey) : Address := ⟨(Pod.toBytes s).toArray, by simp; rfl⟩

theorem MsgCodec.encode_inj {a a' : Address} {x x' : UInt64} {s s' : Pubkey}
    {m m' : Option Bytes} :
    encode a x s m = encode a' x' s' m' ↔
      a = a' ∧ x = x' ∧ m = m' ∧ (m.isSome = true → s = s') := by
  constructor
  · intro h
    have hto := (sendTo_encode a x s m).symm.trans (h ▸ sendTo_encode a' x' s' m')
    have hamount := (amountSd_encode a x s m).symm.trans (h ▸ amountSd_encode a' x' s' m')
    have hcompose := (composeMsg_encode a x s m).symm.trans (h ▸ composeMsg_encode a' x' s' m')
    refine ⟨Except.ok.inj hto, Except.ok.inj hamount, ?_⟩
    cases m with
    | none =>
      cases m' with
      | none => exact ⟨rfl, nofun⟩
      | some p' => cases hcompose
    | some p =>
      cases m' with
      | none => cases hcompose
      | some p' =>
        obtain ⟨hsender, rfl⟩ := List.append_inj (Option.some.inj hcompose) (by simp)
        exact ⟨rfl, fun _ => Pod.toBytes_injective hsender⟩
  · rintro ⟨rfl, rfl, rfl, hsender⟩
    cases m with
    | none => rfl
    | some p => rw [hsender rfl]

/-- Both codecs give back what was put in, through each other, and two messages are the same
exactly if recipient, amount and payload are, and the sender where there is a payload. -/
theorem codecs_round_trip (sendTo : Address) (amountSd : UInt64) (sender : Pubkey)
    (payload : Option Bytes) :
    let message := MsgCodec.encode sendTo amountSd sender payload
    MsgCodec.sendTo message = .ok sendTo ∧ MsgCodec.amountSd message = .ok amountSd ∧
    (MsgCodec.composeMsg message = payload.map (Pod.toBytes sender ++ ·)) ∧
    (∀ composed, MsgCodec.composeMsg message = some composed →
      ∀ (nonce : UInt64) (srcEid : UInt32) (amountLd : UInt64),
        let handed := ComposeMsgCodec.encode nonce srcEid amountLd composed
        ComposeMsgCodec.nonce handed = .ok nonce ∧ ComposeMsgCodec.srcEid handed = .ok srcEid ∧
        ComposeMsgCodec.amountLd handed = .ok amountLd ∧
        ComposeMsgCodec.composeFrom handed = .ok (senderAddress sender) ∧
        some (ComposeMsgCodec.composeMsg handed) = payload) ∧
    ∀ sendTo' amountSd' sender' payload',
      message = MsgCodec.encode sendTo' amountSd' sender' payload' ↔
        sendTo = sendTo' ∧ amountSd = amountSd' ∧ payload = payload' ∧
          (payload.isSome = true → sender = sender') := by
  intro message
  have hcompose := composeMsg_encode sendTo amountSd sender payload
  refine ⟨sendTo_encode .., amountSd_encode .., hcompose, ?_, fun _ _ _ _ => MsgCodec.encode_inj⟩
  intro composed hcomposed nonce srcEid amountLd handed
  cases payload with
  | none => cases hcompose.symm.trans hcomposed
  | some p =>
    obtain rfl : Pod.toBytes sender ++ p = composed :=
      Option.some.inj (hcompose.symm.trans hcomposed)
    exact ⟨nonce_encode .., srcEid_encode .., amountLd_encode ..,
      composeFrom_encode nonce srcEid amountLd (senderAddress sender) p,
      congrArg some (composeMsg_compose nonce srcEid amountLd (senderAddress sender) p)⟩

/-- Without a payload the sender is not in the message. -/
theorem encode_not_injective :
    ¬ Function.Injective fun t : Address × UInt64 × Pubkey × Option Bytes =>
      MsgCodec.encode t.1 t.2.1 t.2.2.1 t.2.2.2 := by
  intro h
  have hsame : (1 : Pubkey) = 2 := congrArg (fun t => t.2.2.1)
    (@h (.replicate 32 0, 5, 1, none) (.replicate 32 0, 5, 2, none) rfl)
  exact absurd hsame (by decide)

end SolanaEasy.Oft
