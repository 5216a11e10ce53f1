import SolanaEasy.Lib.Format
import SolanaEasy.Token.Processor.TokenMetadata

/-!
# Interface instructions — metadata and groups on the wire

The instructions of the token-metadata and the token-group interface: eight bytes that tell
them apart, then their fields, as the generated client encodes them. The interface crates
decode them; what they accept is exactly what the encoders write.
-/

namespace SolanaEasy.Token

open Processor.TokenMetadata (Field)

/-! ## The instructions and their encoders -/

inductive TokenMetadataInstruction where
  | initializeMetadata (name symbol uri : String)
  | updateField (field : Field) (value : String)
  | removeKey (idempotent : Bool) (key : String)
  | updateAuthority (newAuthority : OptionalNonZeroPubkey)
  | emit (start last : Option UInt64)

inductive TokenGroupInstruction where
  | initializeGroup (updateAuthority : OptionalNonZeroPubkey) (maxSize : UInt64)
  | updateGroupMaxSize (maxSize : UInt64)
  | updateGroupAuthority (newAuthority : OptionalNonZeroPubkey)
  | initializeMember

/-- `getTokenMetadataFieldEncoder`. -/
def fieldBytes : Field → Bytes
  | .name => [0]
  | .symbol => [1]
  | .uri => [2]
  | .key k => 3 :: sizedStr k

def Field.Sized : Field → Prop
  | .key k => SolanaEasy.Sized k
  | _ => True

/-- `getBooleanEncoder`. -/
def boolBytes (b : Bool) : Bytes := if b then [1] else [0]

/-- `getOptionEncoder(getU64Encoder())`. -/
def optionBytes : Option UInt64 → Bytes
  | none => [0]
  | some n => 1 :: Pod.toBytes n

namespace TokenMetadataInstruction

def initializeDiscriminator : Bytes := [210, 225, 30, 162, 88, 184, 77, 141]
def updateFieldDiscriminator : Bytes := [221, 233, 49, 45, 181, 202, 220, 200]
def removeKeyDiscriminator : Bytes := [234, 18, 32, 56, 89, 141, 37, 181]
def updateAuthorityDiscriminator : Bytes := [215, 228, 166, 228, 84, 100, 86, 123]
def emitDiscriminator : Bytes := [250, 166, 180, 250, 13, 12, 184, 70]

def pack : TokenMetadataInstruction → Bytes
  | initializeMetadata name symbol uri =>
    initializeDiscriminator ++ (sizedStr name ++ (sizedStr symbol ++ sizedStr uri))
  | updateField field value => updateFieldDiscriminator ++ (fieldBytes field ++ sizedStr value)
  | removeKey idempotent key => removeKeyDiscriminator ++ (boolBytes idempotent ++ sizedStr key)
  | updateAuthority newAuthority => updateAuthorityDiscriminator ++ Pod.toBytes newAuthority
  | emit start last => emitDiscriminator ++ (optionBytes start ++ optionBytes last)

/-- The texts have lengths that the format can tell. -/
def Sized : TokenMetadataInstruction → Prop
  | initializeMetadata name symbol uri =>
    SolanaEasy.Sized name ∧ SolanaEasy.Sized symbol ∧ SolanaEasy.Sized uri
  | updateField field value => Field.Sized field ∧ SolanaEasy.Sized value
  | removeKey _ key => SolanaEasy.Sized key
  | _ => True

end TokenMetadataInstruction

namespace TokenGroupInstruction

def initializeGroupDiscriminator : Bytes := [121, 113, 108, 39, 54, 51, 0, 4]
def updateGroupMaxSizeDiscriminator : Bytes := [108, 37, 171, 143, 248, 30, 18, 110]
def updateGroupAuthorityDiscriminator : Bytes := [161, 105, 88, 1, 237, 221, 216, 203]
def initializeMemberDiscriminator : Bytes := [152, 32, 222, 176, 223, 237, 116, 134]

def pack : TokenGroupInstruction → Bytes
  | initializeGroup updateAuthority maxSize =>
    initializeGroupDiscriminator ++ (Pod.toBytes updateAuthority ++ Pod.toBytes maxSize)
  | updateGroupMaxSize maxSize => updateGroupMaxSizeDiscriminator ++ Pod.toBytes maxSize
  | updateGroupAuthority newAuthority =>
    updateGroupAuthorityDiscriminator ++ Pod.toBytes newAuthority
  | initializeMember => initializeMemberDiscriminator

end TokenGroupInstruction

/-- The decoders of the interface crates. -/
structure SplInterfaces where
  metadata : Bytes → Option TokenMetadataInstruction
  group : Bytes → Option TokenGroupInstruction

/-- They read what the encoders write, to the end, and nothing else. -/
structure SplInterfaces.Lawful (I : SplInterfaces) : Prop where
  metadata : Reads I.metadata TokenMetadataInstruction.pack TokenMetadataInstruction.Sized
  group : Reads I.group TokenGroupInstruction.pack fun _ => True

/-! ## Readers of the fields -/

def splitField : Bytes → Option (Field × Bytes)
  | 0 :: r => some (.name, r)
  | 1 :: r => some (.symbol, r)
  | 2 :: r => some (.uri, r)
  | 3 :: r => (splitSizedStr r).map fun p => (.key p.1, p.2)
  | _ => none

theorem Splits.field : Splits splitField fieldBytes Field.Sized := by
  intro b x r
  constructor
  · intro h
    rw [splitField.eq_def] at h
    split at h
    · obtain ⟨rfl, rfl⟩ := Prod.mk.inj (Option.some.inj h)
      exact ⟨trivial, rfl⟩
    · obtain ⟨rfl, rfl⟩ := Prod.mk.inj (Option.some.inj h)
      exact ⟨trivial, rfl⟩
    · obtain ⟨rfl, rfl⟩ := Prod.mk.inj (Option.some.inj h)
      exact ⟨trivial, rfl⟩
    · simp only [Option.map_eq_some_iff, Prod.exists, Prod.mk.injEq] at h
      obtain ⟨k, _, hk, rfl, rfl⟩ := h
      obtain ⟨hsized, rfl⟩ := splitSizedStr_eq_some.mp hk
      exact ⟨hsized, rfl⟩
    · cases h
  · rintro ⟨hsized, rfl⟩
    cases x with
    | key k =>
      have hk : splitSizedStr (sizedStr k ++ r) = some (k, r) :=
        splitSizedStr_eq_some.mpr ⟨hsized, rfl⟩
      rw [fieldBytes, List.cons_append, splitField, hk]
      rfl
    | _ => rfl

def splitBool : Bytes → Option (Bool × Bytes)
  | 0 :: r => some (false, r)
  | 1 :: r => some (true, r)
  | _ => none

theorem Splits.bool : Splits splitBool boolBytes fun _ => True := by
  intro b x r
  rw [true_and]
  constructor
  · intro h
    rw [splitBool.eq_def] at h
    split at h
    · obtain ⟨rfl, rfl⟩ := Prod.mk.inj (Option.some.inj h)
      rfl
    · obtain ⟨rfl, rfl⟩ := Prod.mk.inj (Option.some.inj h)
      rfl
    · cases h
  · rintro rfl
    cases x <;> rfl

def splitOption : Bytes → Option (Option UInt64 × Bytes)
  | 0 :: r => some (none, r)
  | 1 :: r => (splitPod UInt64 r).map fun p => (some p.1, p.2)
  | _ => none

theorem Splits.option : Splits splitOption optionBytes fun _ => True := by
  intro b x r
  rw [true_and]
  constructor
  · intro h
    rw [splitOption.eq_def] at h
    split at h
    · obtain ⟨rfl, rfl⟩ := Prod.mk.inj (Option.some.inj h)
      rfl
    · simp only [Option.map_eq_some_iff, Prod.exists, Prod.mk.injEq, splitPod_eq_some] at h
      obtain ⟨n, _, rfl, rfl, rfl⟩ := h
      rfl
    · cases h
  · rintro rfl
    cases x with
    | none => rfl
    | some n =>
      rw [optionBytes, List.cons_append, splitOption, splitPod_append]
      rfl

/-! ## The instructions read back -/

theorem ne_of_cons {a b : UInt8} (h : a ≠ b) (v w : Bytes) : a :: v ≠ b :: w :=
  fun heq => h (List.cons.inj heq).1

namespace TokenMetadataInstruction

def readInitialize : Bytes → Option TokenMetadataInstruction :=
  readBehind initializeDiscriminator
    (splitBoth splitSizedStr (splitBoth splitSizedStr splitSizedStr))
    fun p => initializeMetadata p.1 p.2.1 p.2.2

def readUpdateField : Bytes → Option TokenMetadataInstruction :=
  readBehind updateFieldDiscriminator (splitBoth splitField splitSizedStr)
    fun p => updateField p.1 p.2

def readRemoveKey : Bytes → Option TokenMetadataInstruction :=
  readBehind removeKeyDiscriminator (splitBoth splitBool splitSizedStr) fun p => removeKey p.1 p.2

def readUpdateAuthority : Bytes → Option TokenMetadataInstruction :=
  readBehind updateAuthorityDiscriminator (splitPod OptionalNonZeroPubkey) updateAuthority

def readEmit : Bytes → Option TokenMetadataInstruction :=
  readBehind emitDiscriminator (splitBoth splitOption splitOption) fun p => emit p.1 p.2

def read (b : Bytes) : Option TokenMetadataInstruction :=
  (readInitialize b).or ((readUpdateField b).or ((readRemoveKey b).or
    ((readUpdateAuthority b).or (readEmit b))))

theorem reads : Reads read pack Sized := by
  have hinit : Reads readInitialize pack _ :=
    (Splits.sizedStr.both (Splits.sizedStr.both Splits.sizedStr)).readBehind fun _ => rfl
  have hfield : Reads readUpdateField pack _ :=
    (Splits.field.both Splits.sizedStr).readBehind fun _ => rfl
  have hremove : Reads readRemoveKey pack _ :=
    (Splits.bool.both Splits.sizedStr).readBehind fun _ => rfl
  have hauthority : Reads readUpdateAuthority pack _ :=
    (Splits.pod OptionalNonZeroPubkey).readBehind fun _ => rfl
  have hemit : Reads readEmit pack _ :=
    (Splits.option.both Splits.option).readBehind fun _ => rfl
  -- the discriminators differ in their first bytes
  have hlast := hauthority.orElse hemit (by
    rintro _ _ ⟨_, -, rfl⟩ ⟨_, -, rfl⟩
    exact ne_of_cons (by decide) _ _)
  have hthird := hremove.orElse hlast (by
    rintro _ _ ⟨_, -, rfl⟩ (⟨_, -, rfl⟩ | ⟨_, -, rfl⟩)
    all_goals exact ne_of_cons (by decide) _ _)
  have hsecond := hfield.orElse hthird (by
    rintro _ _ ⟨_, -, rfl⟩ (⟨_, -, rfl⟩ | ⟨_, -, rfl⟩ | ⟨_, -, rfl⟩)
    all_goals exact ne_of_cons (by decide) _ _)
  have hall := hinit.orElse hsecond (by
    rintro _ _ ⟨_, -, rfl⟩ (⟨_, -, rfl⟩ | ⟨_, -, rfl⟩ | ⟨_, -, rfl⟩ | ⟨_, -, rfl⟩)
    all_goals exact ne_of_cons (by decide) _ _)
  intro b i
  refine (hall b i).trans (and_congr_left fun _ => ?_)
  cases i <;> simp [Sized]

end TokenMetadataInstruction

namespace TokenGroupInstruction

def read (b : Bytes) : Option TokenGroupInstruction :=
  (readBehind initializeGroupDiscriminator
      (splitBoth (splitPod OptionalNonZeroPubkey) (splitPod UInt64))
      (fun p => initializeGroup p.1 p.2) b).or
    ((readBehind updateGroupMaxSizeDiscriminator (splitPod UInt64) updateGroupMaxSize b).or
      ((readBehind updateGroupAuthorityDiscriminator (splitPod OptionalNonZeroPubkey)
          updateGroupAuthority b).or
        (readBehind initializeMemberDiscriminator (splitPod Unit) (fun _ => initializeMember) b)))

theorem reads : Reads read pack fun _ => True := by
  have hinit : Reads (readBehind initializeGroupDiscriminator _ _) pack _ :=
    ((Splits.pod OptionalNonZeroPubkey).both (Splits.pod UInt64)).readBehind
      fun p => (rfl : pack (initializeGroup p.1 p.2) = _)
  have hsize : Reads (readBehind updateGroupMaxSizeDiscriminator _ _) pack _ :=
    (Splits.pod UInt64).readBehind fun n => (rfl : pack (updateGroupMaxSize n) = _)
  have hauthority : Reads (readBehind updateGroupAuthorityDiscriminator _ _) pack _ :=
    (Splits.pod OptionalNonZeroPubkey).readBehind
      fun k => (rfl : pack (updateGroupAuthority k) = _)
  have hmember : Reads (readBehind initializeMemberDiscriminator _ _) pack _ :=
    (Splits.pod Unit).readBehind fun _ => (rfl : pack initializeMember = _)
  have hlast := hauthority.orElse hmember (by
    rintro _ _ ⟨_, -, rfl⟩ ⟨_, -, rfl⟩
    exact ne_of_cons (by decide) _ _)
  have hsecond := hsize.orElse hlast (by
    rintro _ _ ⟨_, -, rfl⟩ (⟨_, -, rfl⟩ | ⟨_, -, rfl⟩)
    all_goals exact ne_of_cons (by decide) _ _)
  have hall := hinit.orElse hsecond (by
    rintro _ _ ⟨_, -, rfl⟩ (⟨_, -, rfl⟩ | ⟨_, -, rfl⟩ | ⟨_, -, rfl⟩)
    all_goals exact ne_of_cons (by decide) _ _)
  intro b i
  refine (hall b i).trans (and_congr_left fun _ => ?_)
  cases i <;> simp

end TokenGroupInstruction

/-- Decoders that behave as the interface crates do. -/
def splInterfaces : SplInterfaces where
  metadata := TokenMetadataInstruction.read
  group := TokenGroupInstruction.read

theorem splInterfaces_lawful : splInterfaces.Lawful where
  metadata := TokenMetadataInstruction.reads
  group := TokenGroupInstruction.reads

end SolanaEasy.Token
