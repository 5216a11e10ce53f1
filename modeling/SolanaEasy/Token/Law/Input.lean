import SolanaEasy.Token.Entrypoint
import SolanaEasy.Token.Pack

/-!
# Law: the bytes of an input

The program accepts exactly the bytes that the builders write, behind some instructions with
anything after them, and calls the handler that was meant. So what happens on a chain of
inputs is what happens on a chain of instructions.
-/

namespace SolanaEasy.Token

open Processor

/-! ## The tables of the extensions -/

section Tables

theorem agrees_metadataPointer : Agrees TokenInstruction.metadataPointerExtension.pack
    Request.encoding 0 metadataPointerInstruction :=
  ⟨fun _ => ⟨rfl, rfl, trivial⟩, fun _ => ⟨rfl, rfl, trivial⟩, trivial⟩

theorem agrees_groupPointer : Agrees TokenInstruction.groupPointerExtension.pack
    Request.encoding 0 groupPointerInstruction :=
  ⟨fun _ => ⟨rfl, rfl, trivial⟩, fun _ => ⟨rfl, rfl, trivial⟩, trivial⟩

theorem agrees_groupMemberPointer : Agrees TokenInstruction.groupMemberPointerExtension.pack
    Request.encoding 0 groupMemberPointerInstruction :=
  ⟨fun _ => ⟨rfl, rfl, trivial⟩, fun _ => ⟨rfl, rfl, trivial⟩, trivial⟩

theorem agrees_transferHook : Agrees TokenInstruction.transferHookExtension.pack
    Request.encoding 0 transferHookInstruction :=
  ⟨fun _ => ⟨rfl, rfl, trivial⟩, fun _ => ⟨rfl, rfl, trivial⟩, trivial⟩

theorem agrees_cpiGuard : Agrees TokenInstruction.cpiGuardExtension.pack
    Request.encoding 0 cpiGuardInstruction :=
  ⟨⟨rfl, rfl, trivial⟩, ⟨rfl, rfl, trivial⟩, trivial⟩

theorem agrees_memoTransfer : Agrees TokenInstruction.memoTransferExtension.pack
    Request.encoding 0 requiredMemoTransfersInstruction :=
  ⟨⟨rfl, rfl, trivial⟩, ⟨rfl, rfl, trivial⟩, trivial⟩

theorem agrees_pausable : Agrees TokenInstruction.pausableExtension.pack
    Request.encoding 0 pausableInstruction :=
  ⟨fun _ => ⟨rfl, rfl, trivial⟩, ⟨rfl, rfl, trivial⟩, ⟨rfl, rfl, trivial⟩, trivial⟩

theorem agrees_interestBearing : Agrees TokenInstruction.interestBearingMintExtension.pack
    Request.encoding 0 interestBearingMintInstruction :=
  ⟨fun _ => ⟨rfl, rfl, trivial⟩, fun _ => ⟨rfl, rfl, trivial⟩, trivial⟩

theorem agrees_scaledUiAmount : Agrees TokenInstruction.scaledUiAmountExtension.pack
    Request.encoding 0 scaledUiAmountMintInstruction :=
  ⟨fun _ => ⟨rfl, rfl, trivial⟩, fun _ => ⟨rfl, rfl, trivial⟩, trivial⟩

theorem fitsOffset_toInt (x : Int8) : FitsOffset x.toInt :=
  ⟨Int8.le_toInt x, Int8.toInt_lt x⟩

/-- An offset that was read is written back. -/
theorem agrees_confidentialTransfer :
    Agrees TokenInstruction.confidentialTransferExtension.pack Request.encoding 0
      confidentialTransferInstruction := by
  have hoffset := Int8.ofInt_toInt
  have hfits := fitsOffset_toInt
  refine ⟨fun _ => ⟨rfl, rfl, trivial⟩, fun _ => ⟨rfl, rfl, trivial⟩,
    fun d => ⟨?_, rfl, hfits _⟩, ⟨rfl, rfl, trivial⟩, fun d => ⟨?_, rfl, hfits _⟩,
    fun _ => ⟨rfl, rfl, trivial⟩, fun d => ⟨?_, rfl, hfits _, hfits _⟩,
    fun d => ⟨?_, rfl, hfits _, hfits _, hfits _, .inl ⟨rfl, rfl⟩⟩,
    fun _ => ⟨rfl, rfl, trivial⟩, ⟨rfl, rfl, trivial⟩, ⟨rfl, rfl, trivial⟩, ⟨rfl, rfl, trivial⟩,
    ⟨rfl, rfl, trivial⟩, fun d => ⟨?_, rfl, hfits _, hfits _, hfits _,
      .inr ⟨_, _, rfl, rfl, hfits _, hfits _⟩⟩, ⟨rfl, rfl, trivial⟩, trivial⟩
  · simp only [Request.encoding, Request.pack, Instruction.pack, hoffset]
    rfl
  · simp only [Request.encoding, Request.pack, Instruction.pack, hoffset]
    rfl
  · simp only [Request.encoding, Request.pack, Instruction.pack, hoffset]
    rfl
  · simp only [Request.encoding, Request.pack, Instruction.pack, TransferData.pack,
      TransferInstructionData.transferData, hoffset]
    rfl
  · simp only [Request.encoding, Request.pack, Instruction.pack, TransferData.pack,
      TransferWithFeeInstructionData.transferData, hoffset]
    rfl

theorem agrees_confidentialTransferFee :
    Agrees TokenInstruction.confidentialTransferFeeExtension.pack Request.encoding 0
      confidentialTransferFeeInstruction := by
  have hoffset := Int8.ofInt_toInt
  have hfits := fitsOffset_toInt
  refine ⟨fun _ => ⟨rfl, rfl, trivial⟩, fun d => ⟨?_, rfl, hfits _⟩, fun d => ⟨?_, rfl, hfits _⟩,
    ⟨rfl, rfl, trivial⟩, ⟨rfl, rfl, trivial⟩, ⟨rfl, rfl, trivial⟩, trivial⟩
  · simp only [Request.encoding, Request.pack, Instruction.pack, hoffset]
    rfl
  · simp only [Request.encoding, Request.pack, Instruction.pack, hoffset]
    rfl

theorem instructionData_encode (d : AmountInstructionData) :
    InstructionData.encode d.instructionData = d := by
  simp only [InstructionData.encode, AmountInstructionData.instructionData, Int8.ofInt_toInt]

theorem agrees_confidentialMintBurn :
    Agrees TokenInstruction.confidentialMintBurnExtension.pack Request.encoding 0
      confidentialMintBurnInstruction := by
  have hfits := fitsOffset_toInt
  refine ⟨fun _ => ⟨rfl, rfl, trivial⟩, fun d => ⟨rfl, rfl, trivial⟩,
    fun _ => ⟨rfl, rfl, trivial⟩, fun d => ⟨?_, rfl, hfits _, hfits _, hfits _⟩,
    fun d => ⟨?_, rfl, hfits _, hfits _, hfits _⟩, ⟨rfl, rfl, trivial⟩, trivial⟩
  · simp only [Request.encoding, Request.pack, Instruction.pack, instructionData_encode]
    rfl
  · simp only [Request.encoding, Request.pack, Instruction.pack, instructionData_encode]
    rfl

end Tables

/-! ## What was read was written -/

section Written

variable {rest input tail : Bytes} {r : Request}

theorem writes_strict (hvalid : r.Encodable) (hinput : input = r.pack) :
    Request.encoding.Writes r input :=
  ⟨hvalid, [], by rw [hinput, List.append_nil]; rfl, .inl rfl⟩

theorem writes_lenient (hvalid : r.Encodable) (hlenient : r.lenient = true)
    (hinput : input = r.pack ++ tail) : Request.encoding.Writes r input :=
  ⟨hvalid, tail, hinput, .inr hlenient⟩

theorem unpackList_eq_ok {types : List ExtensionType}
    (h : (chunks 2 rest).mapM ExtensionType.tryFrom = .ok types) :
    rest = types.flatMap ExtensionType.toBytes := by
  have htype : ∀ a t, ExtensionType.tryFrom a = .ok t → a = t.toBytes := by
    intro a t ha
    rw [ExtensionType.tryFrom] at ha
    split at ha
    · rename_i hlen
      rw [ExtensionType.toBytes, ← ExtensionType.ofNat?_eq_some (okOr_eq_ok.mp ha), ← hlen,
        leBytes_leNat]
    · cases ha
  rw [← flatten_chunks Nat.zero_lt_two rest, eq_map_of_mapM htype h]
  rfl

/-- The documented decoder of the transfer-fee instructions reads what the encoder writes. -/
theorem of_unpackTransferFee {f : TransferFeeInstruction}
    (h : TransferFeeInstruction.unpack input = .ok f) : ∃ tail, input = f.pack ++ tail := by
  simp only [TransferFeeInstruction.unpack, bind_eq_ok, Prod.exists,
    TokenInstruction.splitFirst_eq_ok] at h
  obtain ⟨tag, rest, rfl, h⟩ := h
  have htag := UInt8.ofNat_toNat (x := tag)
  split at h
  · rename_i hn
    rw [hn] at htag
    simp only [bind_eq_ok, Prod.exists, pure_eq_ok, TokenInstruction.unpackU16,
      TokenInstruction.unpackU64, okOr_eq_ok, splitPod_eq_some,
      TokenInstruction.unpackPubkeyOption_eq_ok] at h
    obtain ⟨k, _, rfl, k', _, rfl, bps, _, rfl, fee, r, rfl, rfl⟩ := h
    exact ⟨r, by simp [TransferFeeInstruction.pack, ← htag]⟩
  · rename_i hn
    rw [hn] at htag
    simp only [bind_eq_ok, Prod.exists, pure_eq_ok, TokenInstruction.unpackU64, okOr_eq_ok,
      splitPod_eq_some, TokenInstruction.unpackAmountDecimals_eq_ok] at h
    obtain ⟨n, d, _, rfl, fee, r, rfl, rfl⟩ := h
    exact ⟨r, by simp [TransferFeeInstruction.pack, ← htag]⟩
  · rename_i hn
    rw [hn] at htag
    obtain rfl := Except.ok.inj h
    exact ⟨rest, by simp [TransferFeeInstruction.pack, ← htag]⟩
  · rename_i hn
    rw [hn] at htag
    simp only [bind_eq_ok, Prod.exists, pure_eq_ok, TokenInstruction.splitFirst_eq_ok] at h
    obtain ⟨num, r, rfl, rfl⟩ := h
    exact ⟨r, by simp [TransferFeeInstruction.pack, ← htag]⟩
  · rename_i hn
    rw [hn] at htag
    obtain rfl := Except.ok.inj h
    exact ⟨rest, by simp [TransferFeeInstruction.pack, ← htag]⟩
  · rename_i hn
    rw [hn] at htag
    simp only [bind_eq_ok, Prod.exists, pure_eq_ok, TokenInstruction.unpackU16,
      TokenInstruction.unpackU64, okOr_eq_ok, splitPod_eq_some] at h
    obtain ⟨bps, _, rfl, fee, r, rfl, rfl⟩ := h
    exact ⟨r, by simp [TransferFeeInstruction.pack, ← htag]⟩
  · cases h

theorem writes_of_transferFee {i : Instruction} (h : decodeTransferFee input = .ok i) :
    Request.encoding.Writes (.instruction i)
      (TokenInstruction.transferFeeExtension.pack ++ input) := by
  simp only [decodeTransferFee, bind_eq_ok, pure_eq_ok] at h
  obtain ⟨f, hf, rfl⟩ := h
  obtain ⟨tail, rfl⟩ := of_unpackTransferFee hf
  rw [← List.append_assoc]
  cases f <;> exact writes_lenient trivial rfl rfl

theorem writes_of_defaultAccountState (h : decodeDefaultAccountState input = .ok r) :
    Request.encoding.Writes r (TokenInstruction.defaultAccountStateExtension.pack ++ input) := by
  rw [decodeDefaultAccountState.eq_def] at h
  split at h
  · rename_i tag byte
    simp only [bind_eq_ok, exists_unit, failIf_eq_ok, decide_eq_false_iff_not, not_le, okOr_eq_ok,
      pure_eq_ok] at h
    obtain ⟨htag, state, hstate, rfl⟩ := h
    have hbyte := AccountState.ofU8_iff.mp hstate
    split
    · rename_i hzero
      exact writes_strict trivial (by rw [hzero, ← hbyte]; rfl)
    · rename_i hne
      have hone : tag = 1 := by
        apply UInt8.toNat_inj.mp
        have : tag.toNat ≠ 0 := fun h => hne (UInt8.toNat_inj.mp h)
        show tag.toNat = 1
        omega
      exact writes_strict trivial (by rw [hone, ← hbyte]; rfl)
  · cases h

/-- What the processor of an extension reads. -/
theorem writes_of_extension {t : PodTokenInstruction} (h : decodeExtension input t = .ok r) :
    Request.encoding.Writes r (UInt8.ofNat t.ctorIdx :: input) := by
  cases t with
  | transferFeeExtension =>
    simp only [decodeExtension, bind_eq_ok, pure_eq_ok] at h
    obtain ⟨i, hi, rfl⟩ := h
    exact writes_of_transferFee hi
  | defaultAccountStateExtension => exact writes_of_defaultAccountState h
  | confidentialTransferExtension => exact agrees_confidentialTransfer.of_dispatch h
  | memoTransferExtension => exact agrees_memoTransfer.of_dispatch h
  | interestBearingMintExtension => exact agrees_interestBearing.of_dispatch h
  | cpiGuardExtension => exact agrees_cpiGuard.of_dispatch h
  | transferHookExtension => exact agrees_transferHook.of_dispatch h
  | confidentialTransferFeeExtension => exact agrees_confidentialTransferFee.of_dispatch h
  | metadataPointerExtension => exact agrees_metadataPointer.of_dispatch h
  | groupPointerExtension => exact agrees_groupPointer.of_dispatch h
  | groupMemberPointerExtension => exact agrees_groupMemberPointer.of_dispatch h
  | confidentialMintBurnExtension => exact agrees_confidentialMintBurn.of_dispatch h
  | scaledUiAmountExtension => exact agrees_scaledUiAmount.of_dispatch h
  | pausableExtension => exact agrees_pausable.of_dispatch h
  | _ => cases h

/-- What the dispatcher reads by itself. -/
theorem writes_of_select {tag : UInt8} {t : PodTokenInstruction} {s : Selected}
    (ht : PodTokenInstruction.ofU8 tag = some t) (h : select (tag :: rest) t = .ok s)
    (hr : s.request = .ok r) : Request.encoding.Writes r (tag :: rest) := by
  have htag : tag = UInt8.ofNat t.ctorIdx := by
    rw [← PodTokenInstruction.ofU8_eq_some ht, UInt8.ofNat_toNat]
  rw [htag]
  cases t with
  | initializeMint | initializeMint2 =>
    simp only [select, bind_eq_ok, Prod.exists, pure_eq_ok, decodeWithCOption_eq_ok] at h
    obtain ⟨data, _, ⟨k, tail, rfl, rfl⟩, rfl⟩ := h
    obtain rfl := Except.ok.inj hr
    rw [toOption_ofOption, toBytes_initializeMintData, ← List.append_assoc]
    exact writes_lenient trivial rfl rfl
  | transfer | approve | mintTo | burn | amountToUiAmount =>
    simp only [select, bind_eq_ok, pure_eq_ok, decodeInstructionData_eq_ok] at h
    obtain ⟨data, rfl, rfl⟩ := h
    obtain rfl := Except.ok.inj hr
    exact writes_strict trivial rfl
  | transferChecked | approveChecked | mintToChecked | burnChecked =>
    simp only [select, bind_eq_ok, pure_eq_ok, decodeInstructionData_eq_ok] at h
    obtain ⟨data, rfl, rfl⟩ := h
    obtain rfl := Except.ok.inj hr
    rw [toBytes_amountCheckedData]
    exact writes_strict trivial rfl
  | initializeAccount2 | initializeAccount3 | initializePermanentDelegate =>
    simp only [select, bind_eq_ok, pure_eq_ok, decodeInstructionData_eq_ok] at h
    obtain ⟨key, rfl, rfl⟩ := h
    obtain rfl := Except.ok.inj hr
    exact writes_strict trivial rfl
  | initializeMultisig | initializeMultisig2 =>
    simp only [select, bind_eq_ok, pure_eq_ok, decodeInstructionData_eq_ok] at h
    obtain ⟨data, rfl, rfl⟩ := h
    obtain rfl := Except.ok.inj hr
    rw [toBytes_initializeMultisigData]
    exact writes_strict trivial rfl
  | setAuthority =>
    simp only [select, bind_eq_ok, Prod.exists, pure_eq_ok, decodeWithCOption_eq_ok] at h
    obtain ⟨data, _, ⟨k, tail, rfl, rfl⟩, authorityType, htype, rfl⟩ := h
    obtain rfl := Except.ok.inj hr
    rw [toOption_ofOption, toBytes_setAuthorityData, AuthorityType.ofU8_eq_ok htype]
    exact writes_lenient trivial rfl rfl
  | initializeMintCloseAuthority =>
    simp only [select, bind_eq_ok, Prod.exists, pure_eq_ok, decodeWithCOption_eq_ok] at h
    obtain ⟨_, _, ⟨k, tail, rfl, rfl⟩, rfl⟩ := h
    obtain rfl := Except.ok.inj hr
    rw [toOption_ofOption]
    exact writes_lenient trivial rfl rfl
  | getAccountDataSize | reallocate =>
    simp only [select, bind_eq_ok, pure_eq_ok, List.drop_succ_cons, List.drop_zero] at h
    obtain ⟨types, htypes, rfl⟩ := h
    obtain rfl := Except.ok.inj hr
    rw [unpackList_eq_ok htypes]
    exact writes_strict trivial rfl
  | uiAmountToAmount =>
    simp only [select, bind_eq_ok, pure_eq_ok, okOr_eq_ok, List.drop_succ_cons, List.drop_zero,
      strFromUtf8_eq_some] at h
    obtain ⟨uiAmount, rfl, rfl⟩ := h
    obtain rfl := Except.ok.inj hr
    exact writes_strict trivial rfl
  | initializeAccount | revoke | closeAccount | freezeAccount | thawAccount | syncNative
  | initializeImmutableOwner | createNativeMint | initializeNonTransferableMint
  | withdrawExcessLamports =>
    obtain rfl := Except.ok.inj h
    obtain rfl := Except.ok.inj hr
    exact writes_lenient trivial rfl rfl
  | _ =>
    obtain rfl := Except.ok.inj h
    exact writes_of_extension hr

/-- What the program understands has been written for it. -/
theorem writes_of_interpret {I : SplInterfaces} (hI : I.Lawful) (h : interpret I input = .ok r) :
    Request.encoding.Writes r input := by
  rw [interpret] at h
  split at h
  · rename_i t htype
    obtain ⟨s, hs, hr⟩ := bind_eq_ok.mp h
    cases input with
    | nil => cases htype
    | cons tag rest => exact writes_of_select (okOr_eq_ok.mp htype) hs hr
  · split at h
    · rename_i i hi
      obtain ⟨hsized, hinput⟩ := (hI.metadata _ _).mp hi
      obtain rfl := Except.ok.inj h
      cases i <;> exact writes_strict hsized hinput
    · split at h
      · rename_i i hi
        obtain ⟨-, hinput⟩ := (hI.group _ _).mp hi
        obtain rfl := Except.ok.inj h
        cases i <;> exact writes_strict trivial hinput
      · cases h

end Written

/-! ## What was written is read -/

section Read

variable {I : SplInterfaces} {rest input tail : Bytes} {r : Request}

/-- An input that begins with a tag is the dispatcher's. -/
theorem interpret_tag {tag : UInt8} {t : PodTokenInstruction}
    (ht : PodTokenInstruction.ofU8 tag = some t) :
    interpret I (tag :: rest) = select (tag :: rest) t >>= Selected.request := by
  rw [interpret, decodeInstructionType, ht]
  rfl

theorem interpret_cons {tag : UInt8} {t : PodTokenInstruction} {s : Selected}
    (ht : PodTokenInstruction.ofU8 tag = some t) (h : select (tag :: rest) t = .ok s) :
    interpret I (tag :: rest) = s.request := by
  rw [interpret_tag ht, h, ok_bind]

theorem interpret_instruction {tag : UInt8} {t : PodTokenInstruction} {i : Instruction}
    (ht : PodTokenInstruction.ofU8 tag = some t)
    (h : select (tag :: rest) t = .ok (.instruction i)) :
    interpret I (tag :: rest) = .ok (.instruction i) := interpret_cons ht h

/-- A table of an extension reads what was written for one of its branches. -/
theorem interpret_branch {tag : UInt8} {bs : List (Branch Request)}
    {b : Branch Request} {w : Bytes} {more : Bool} {k : ℕ}
    (hagrees : Agrees [tag] Request.encoding 0 bs)
    (htag : ∀ rest, interpret I (tag :: rest) = decodeBranches bs rest)
    (hn : bs.length ≤ 256) (hb : bs[k]? = some b) (hmakes : b.Makes w more r)
    (h : Request.encoding.Writes r input) : interpret I input = .ok r := by
  have hread : ∃ rest, input = [tag] ++ rest ∧ decodeBranches bs rest = .ok r :=
    hagrees.dispatch hn hb hmakes h
  obtain ⟨rest, rfl, hrest⟩ := hread
  exact (htag rest).trans hrest

theorem makes_calls {D : Type} [Pod D] {make : D → Instruction} (d : D) :
    (calls make).Makes (Pod.toBytes d) false (.instruction (make d)) := .data d

theorem exists_of_fitsOffset {x : Int} (h : FitsOffset x) : ∃ y : Int8, x = y.toInt :=
  ⟨.ofInt x, (Int8.toInt_ofInt_of_le h.1 h.2).symm⟩

theorem eq_pack_of_writes (h : Request.encoding.Writes r input) (hstrict : r.lenient = false) :
    input = r.pack := by
  obtain ⟨-, tail, rfl, hend⟩ := h
  have htail : tail = [] := hend.resolve_right (by
    show ¬ r.lenient = true
    rw [hstrict]
    exact Bool.false_ne_true)
  rw [htail, List.append_nil]
  rfl

/-- The decoder of the transfer-fee instructions looks no further than the encoder writes. -/
theorem unpackTransferFee_append (f : TransferFeeInstruction) :
    TransferFeeInstruction.unpack (f.pack ++ tail) = .ok f := by
  cases f with
  | initializeTransferFeeConfig =>
    simp only [TransferFeeInstruction.pack, List.cons_append, List.append_assoc,
      TransferFeeInstruction.unpack, TokenInstruction.splitFirst_cons, ok_bind,
      UInt8.reduceToNat, TokenInstruction.unpackPubkeyOption_append,
      TokenInstruction.unpackU16_append, TokenInstruction.unpackU64_append]
    rfl
  | transferCheckedWithFee =>
    simp only [TransferFeeInstruction.pack, List.cons_append, List.append_assoc,
      TransferFeeInstruction.unpack, TokenInstruction.splitFirst_cons, ok_bind,
      UInt8.reduceToNat, TokenInstruction.unpackAmountDecimals_append,
      TokenInstruction.unpackU64_append]
    rfl
  | setTransferFee =>
    simp only [TransferFeeInstruction.pack, List.cons_append, List.append_assoc,
      TransferFeeInstruction.unpack, TokenInstruction.splitFirst_cons, ok_bind,
      UInt8.reduceToNat, TokenInstruction.unpackU16_append, TokenInstruction.unpackU64_append]
    rfl
  | _ => rfl

theorem interpret_transferFee (f : TransferFeeInstruction)
    (h : Request.encoding.Writes r input)
    (hpack : r.pack = TokenInstruction.transferFeeExtension.pack ++ f.pack)
    (hr : r = .instruction f.selected) : interpret I input = .ok r := by
  obtain ⟨-, tail, rfl, -⟩ := h
  show interpret I (r.pack ++ tail) = _
  rw [hpack, List.append_assoc]
  refine (interpret_cons (s := .extension .transferFeeExtension (f.pack ++ tail)) rfl rfl).trans ?_
  rw [Selected.request, decodeExtension, decodeTransferFee, unpackTransferFee_append, hr]
  rfl

theorem interpret_metadata (hI : I.Lawful) (i : TokenMetadataInstruction) (hsized : i.Sized) :
    interpret I i.pack = .ok i.request := by
  have htype : decodeInstructionType i.pack = .error TokenError.invalidInstruction := by
    cases i <;> rfl
  rw [interpret, htype, (hI.metadata _ _).mpr ⟨hsized, rfl⟩]

theorem interpret_group (hI : I.Lawful) (i : TokenGroupInstruction) :
    interpret I i.pack = .ok i.request := by
  have htype : decodeInstructionType i.pack = .error TokenError.invalidInstruction := by
    cases i <;> rfl
  have hmetadata : I.metadata i.pack = none := by
    cases hj : I.metadata i.pack with
    | none => rfl
    | some j =>
      -- no two discriminators begin with the same byte
      have heq := ((hI.metadata _ _).mp hj).2
      cases i <;> cases j <;> exact absurd heq (ne_of_cons (by decide) _ _)
  rw [interpret, htype, hmetadata, (hI.group _ _).mpr ⟨trivial, rfl⟩]

/-- What is written for an instruction of the step function reaches its handler. -/
theorem interpret_of_writes_instruction (hI : I.Lawful) {i : Instruction}
    (hvalid : i.Encodable) (h : Request.encoding.Writes (.instruction i) input) :
    interpret I input = .ok (.instruction i) := by
  cases i with
  | initializeMint d m f | initializeMint2 d m f =>
    obtain ⟨-, tail, rfl, -⟩ := h
    refine interpret_instruction rfl ?_
    simp only [select, bind_eq_ok, Prod.exists, pure_eq_ok, decodeWithCOption_eq_ok]
    refine ⟨⟨d, m⟩, _, ⟨f, tail, rfl, ?_⟩, by rw [toOption_ofOption]⟩
    rw [toBytes_initializeMintData, List.cons_append, ← List.append_assoc]
    rfl
  | transfer n | approve n | mintTo n | burn n =>
    obtain rfl := eq_pack_of_writes h rfl
    refine interpret_instruction rfl ?_
    simp only [select, bind_eq_ok, pure_eq_ok, decodeInstructionData_eq_ok]
    exact ⟨⟨n⟩, (toBytes_amountData _).symm, rfl⟩
  | transferChecked n d | approveChecked n d | mintToChecked n d | burnChecked n d =>
    obtain rfl := eq_pack_of_writes h rfl
    refine interpret_instruction rfl ?_
    simp only [select, bind_eq_ok, pure_eq_ok, decodeInstructionData_eq_ok]
    exact ⟨⟨n, d⟩, (toBytes_amountCheckedData ⟨n, d⟩).symm, rfl⟩
  | initializeAccount2 k | initializeAccount3 k | initializePermanentDelegate k =>
    obtain rfl := eq_pack_of_writes h rfl
    refine interpret_instruction rfl ?_
    simp only [select, bind_eq_ok, pure_eq_ok, decodeInstructionData_eq_ok]
    exact ⟨k, rfl, rfl⟩
  | initializeMultisig m | initializeMultisig2 m =>
    obtain rfl := eq_pack_of_writes h rfl
    refine interpret_instruction rfl ?_
    simp only [select, bind_eq_ok, pure_eq_ok, decodeInstructionData_eq_ok]
    exact ⟨⟨m⟩, (toBytes_initializeMultisigData _).symm, rfl⟩
  | setAuthority t f =>
    obtain ⟨-, tail, rfl, -⟩ := h
    refine interpret_instruction rfl ?_
    simp only [select, bind_eq_ok, Prod.exists, pure_eq_ok, decodeWithCOption_eq_ok]
    refine ⟨⟨t.into⟩, _, ⟨f, tail, rfl, ?_⟩, t, AuthorityType.ofU8_into t, ?_⟩
    · rw [toBytes_setAuthorityData]
      rfl
    · rw [toOption_ofOption]
  | initializeMintCloseAuthority f =>
    obtain ⟨-, tail, rfl, -⟩ := h
    refine interpret_instruction rfl ?_
    simp only [select, bind_eq_ok, Prod.exists, pure_eq_ok, decodeWithCOption_eq_ok]
    exact ⟨(), _, ⟨f, tail, rfl, rfl⟩, by rw [toOption_ofOption]⟩
  | getAccountDataSize types | reallocate types =>
    obtain rfl := eq_pack_of_writes h rfl
    refine interpret_instruction rfl ?_
    have htypes := ExtensionType.unpackList_flatMap types
    rw [ExtensionType.unpackList] at htypes
    simp only [select, List.drop_succ_cons, List.drop_zero, htypes]
    rfl
  | initializeAccount | revoke | closeAccount | freezeAccount | thawAccount | syncNative
  | initializeImmutableOwner | createNativeMint | initializeNonTransferableMint
  | withdrawExcessLamports =>
    obtain ⟨-, tail, rfl, -⟩ := h
    exact interpret_instruction rfl rfl
  | initializeTransferFeeConfig a w bps fee =>
    exact interpret_transferFee (.initializeTransferFeeConfig a w bps fee) h rfl rfl
  | transferCheckedWithFee n d fee =>
    exact interpret_transferFee (.transferCheckedWithFee n d fee) h rfl rfl
  | withdrawWithheldTokensFromMint =>
    exact interpret_transferFee .withdrawWithheldTokensFromMint h rfl rfl
  | withdrawWithheldTokensFromAccounts n =>
    exact interpret_transferFee (.withdrawWithheldTokensFromAccounts n) h rfl rfl
  | harvestWithheldTokensToMint =>
    exact interpret_transferFee .harvestWithheldTokensToMint h rfl rfl
  | setTransferFee bps fee => exact interpret_transferFee (.setTransferFee bps fee) h rfl rfl
  | initializeDefaultAccountState state | updateDefaultAccountState state =>
    obtain rfl := eq_pack_of_writes h rfl
    cases state <;> rfl
  | requiredMemoTransfers enable =>
    cases enable
    · exact interpret_branch (k := 1) agrees_memoTransfer (fun _ => rfl) (by decide) rfl .plain h
    · exact interpret_branch (k := 0) agrees_memoTransfer (fun _ => rfl) (by decide) rfl .plain h
  | cpiGuard enable =>
    cases enable
    · exact interpret_branch (k := 1) agrees_cpiGuard (fun _ => rfl) (by decide) rfl .plain h
    · exact interpret_branch (k := 0) agrees_cpiGuard (fun _ => rfl) (by decide) rfl .plain h
  | initializeInterestBearingMint a rate =>
    exact interpret_branch (k := 0) agrees_interestBearing (fun _ => rfl) (by decide) rfl
      (makes_calls (⟨a, rate⟩ : InitializeInterestData)) h
  | updateRate rate =>
    exact interpret_branch (k := 1) agrees_interestBearing (fun _ => rfl) (by decide) rfl
      (makes_calls rate) h
  | initializeTransferHook a b =>
    exact interpret_branch (k := 0) agrees_transferHook (fun _ => rfl) (by decide) rfl
      (makes_calls (⟨a, b⟩ : InitializeAddressData)) h
  | updateTransferHook b =>
    exact interpret_branch (k := 1) agrees_transferHook (fun _ => rfl) (by decide) rfl
      (makes_calls b) h
  | initializeMetadataPointer a b =>
    exact interpret_branch (k := 0) agrees_metadataPointer (fun _ => rfl) (by decide) rfl
      (makes_calls (⟨a, b⟩ : InitializeAddressData)) h
  | updateMetadataPointer b =>
    exact interpret_branch (k := 1) agrees_metadataPointer (fun _ => rfl) (by decide) rfl
      (makes_calls b) h
  | initializeGroupPointer a b =>
    exact interpret_branch (k := 0) agrees_groupPointer (fun _ => rfl) (by decide) rfl
      (makes_calls (⟨a, b⟩ : InitializeAddressData)) h
  | updateGroupPointer b =>
    exact interpret_branch (k := 1) agrees_groupPointer (fun _ => rfl) (by decide) rfl
      (makes_calls b) h
  | initializeGroupMemberPointer a b =>
    exact interpret_branch (k := 0) agrees_groupMemberPointer (fun _ => rfl) (by decide) rfl
      (makes_calls (⟨a, b⟩ : InitializeAddressData)) h
  | updateGroupMemberPointer b =>
    exact interpret_branch (k := 1) agrees_groupMemberPointer (fun _ => rfl) (by decide) rfl
      (makes_calls b) h
  | initializeScaledUiAmount a multiplier =>
    exact interpret_branch (k := 0) agrees_scaledUiAmount (fun _ => rfl) (by decide) rfl
      (makes_calls (⟨a, multiplier⟩ : InitializeMultiplierData)) h
  | updateMultiplier multiplier timestamp =>
    exact interpret_branch (k := 1) agrees_scaledUiAmount (fun _ => rfl) (by decide) rfl
      (makes_calls (⟨multiplier, timestamp⟩ : UpdateMultiplierInstructionData)) h
  | initializePausable a =>
    exact interpret_branch (k := 0) agrees_pausable (fun _ => rfl) (by decide) rfl
      (makes_calls a) h
  | pause =>
    exact interpret_branch (k := 1) agrees_pausable (fun _ => rfl) (by decide) rfl .plain h
  | resume =>
    exact interpret_branch (k := 2) agrees_pausable (fun _ => rfl) (by decide) rfl .plain h
  | initializeConfidentialTransferMint a autoApprove auditor =>
    exact interpret_branch (k := 0) agrees_confidentialTransfer (fun _ => rfl) (by decide) rfl
      (makes_calls (⟨a, autoApprove, auditor⟩ : InitializeSecretMintData)) h
  | updateConfidentialTransferMint autoApprove auditor =>
    exact interpret_branch (k := 1) agrees_confidentialTransfer (fun _ => rfl) (by decide) rfl
      (makes_calls (⟨autoApprove, auditor⟩ : UpdateMintData)) h
  | configureAccount balance counter offset =>
    obtain ⟨offset, rfl⟩ := exists_of_fitsOffset hvalid
    exact interpret_branch (k := 2) agrees_confidentialTransfer (fun _ => rfl) (by decide) rfl
      (makes_calls (⟨balance, counter, offset⟩ : ConfigureAccountInstructionData)) h
  | configureAccountWithRegistry =>
    exact interpret_branch (k := 14) agrees_confidentialTransfer (fun _ => rfl) (by decide) rfl
      .plain h
  | approveAccount =>
    exact interpret_branch (k := 3) agrees_confidentialTransfer (fun _ => rfl) (by decide) rfl
      .plain h
  | emptyAccount offset =>
    obtain ⟨offset, rfl⟩ := exists_of_fitsOffset hvalid
    exact interpret_branch (k := 4) agrees_confidentialTransfer (fun _ => rfl) (by decide) rfl
      (makes_calls offset) h
  | deposit n d =>
    exact interpret_branch (k := 5) agrees_confidentialTransfer (fun _ => rfl) (by decide) rfl
      (makes_calls (⟨n, d⟩ : DepositInstructionData)) h
  | withdraw n d balance equality range =>
    obtain ⟨equality, rfl⟩ := exists_of_fitsOffset hvalid.1
    obtain ⟨range, rfl⟩ := exists_of_fitsOffset hvalid.2
    exact interpret_branch (k := 6) agrees_confidentialTransfer (fun _ => rfl) (by decide) rfl
      (makes_calls (⟨n, d, balance, equality, range⟩ : WithdrawInstructionData)) h
  | confidentialTransfer data =>
    obtain ⟨balance, lo, hi, equality, validity, sigma, feeValidity, range⟩ := data
    obtain ⟨hequality, hvalidity, hrange, hfee⟩ := hvalid
    obtain ⟨equality, rfl⟩ := exists_of_fitsOffset hequality
    obtain ⟨validity, rfl⟩ := exists_of_fitsOffset hvalidity
    obtain ⟨range, rfl⟩ := exists_of_fitsOffset hrange
    rcases hfee with ⟨hsigma, hfeeValidity⟩ | ⟨s, v, hsigma, hfeeValidity, hs, hv⟩
    · obtain rfl := hsigma
      obtain rfl := hfeeValidity
      exact interpret_branch (k := 7) agrees_confidentialTransfer (fun _ => rfl) (by decide) rfl
        (makes_calls (⟨balance, lo, hi, equality, validity, range⟩ : TransferInstructionData)) h
    · obtain ⟨s, rfl⟩ := exists_of_fitsOffset hs
      obtain ⟨v, rfl⟩ := exists_of_fitsOffset hv
      obtain rfl := hsigma
      obtain rfl := hfeeValidity
      exact interpret_branch (k := 13) agrees_confidentialTransfer (fun _ => rfl) (by decide) rfl
        (makes_calls (⟨balance, lo, hi, equality, validity, s, v, range⟩ :
          TransferWithFeeInstructionData)) h
  | applyPendingBalance counter balance =>
    exact interpret_branch (k := 8) agrees_confidentialTransfer (fun _ => rfl) (by decide) rfl
      (makes_calls (⟨counter, balance⟩ : ApplyPendingBalanceData)) h
  | confidentialCredits enable =>
    cases enable
    · exact interpret_branch (k := 10) agrees_confidentialTransfer (fun _ => rfl) (by decide) rfl
        .plain h
    · exact interpret_branch (k := 9) agrees_confidentialTransfer (fun _ => rfl) (by decide) rfl
        .plain h
  | nonConfidentialCredits enable =>
    cases enable
    · exact interpret_branch (k := 12) agrees_confidentialTransfer (fun _ => rfl) (by decide) rfl
        .plain h
    · exact interpret_branch (k := 11) agrees_confidentialTransfer (fun _ => rfl) (by decide) rfl
        .plain h
  | initializeConfidentialTransferFeeConfig a key =>
    exact interpret_branch (k := 0) agrees_confidentialTransferFee (fun _ => rfl) (by decide) rfl
      (makes_calls (⟨a, key⟩ : InitializeConfidentialTransferFeeConfigData)) h
  | confidentialWithdrawWithheldTokensFromMint balance offset =>
    obtain ⟨offset, rfl⟩ := exists_of_fitsOffset hvalid
    exact interpret_branch (k := 1) agrees_confidentialTransferFee (fun _ => rfl) (by decide) rfl
      (makes_calls (⟨offset, balance⟩ : WithdrawWithheldTokensFromMintData)) h
  | confidentialWithdrawWithheldTokensFromAccounts n balance offset =>
    obtain ⟨offset, rfl⟩ := exists_of_fitsOffset hvalid
    exact interpret_branch (k := 2) agrees_confidentialTransferFee (fun _ => rfl) (by decide) rfl
      (makes_calls (⟨n, offset, balance⟩ : WithdrawWithheldTokensFromAccountsData)) h
  | confidentialHarvestWithheldTokensToMint =>
    exact interpret_branch (k := 3) agrees_confidentialTransferFee (fun _ => rfl) (by decide) rfl
      .plain h
  | harvestToMint enable =>
    cases enable
    · exact interpret_branch (k := 5) agrees_confidentialTransferFee (fun _ => rfl) (by decide)
        rfl .plain h
    · exact interpret_branch (k := 4) agrees_confidentialTransferFee (fun _ => rfl) (by decide)
        rfl .plain h
  | initializeConfidentialMintBurn key supply =>
    exact interpret_branch (k := 0) agrees_confidentialMintBurn (fun _ => rfl) (by decide) rfl
      (makes_calls (⟨key, supply⟩ : InitializeMintBurnData)) h
  | rotateSupplyElGamalPubkey offset => exact h.1.elim
  | updateDecryptableSupply supply =>
    exact interpret_branch (k := 2) agrees_confidentialMintBurn (fun _ => rfl) (by decide) rfl
      (makes_calls supply) h
  | confidentialMint data =>
    obtain ⟨balance, lo, hi, equality, validity, range⟩ := data
    obtain ⟨equality, rfl⟩ := exists_of_fitsOffset hvalid.1
    obtain ⟨validity, rfl⟩ := exists_of_fitsOffset hvalid.2.1
    obtain ⟨range, rfl⟩ := exists_of_fitsOffset hvalid.2.2
    exact interpret_branch (k := 3) agrees_confidentialMintBurn (fun _ => rfl) (by decide) rfl
      (makes_calls (⟨balance, lo, hi, equality, validity, range⟩ : AmountInstructionData)) h
  | confidentialBurn data =>
    obtain ⟨balance, lo, hi, equality, validity, range⟩ := data
    obtain ⟨equality, rfl⟩ := exists_of_fitsOffset hvalid.1
    obtain ⟨validity, rfl⟩ := exists_of_fitsOffset hvalid.2.1
    obtain ⟨range, rfl⟩ := exists_of_fitsOffset hvalid.2.2
    exact interpret_branch (k := 4) agrees_confidentialMintBurn (fun _ => rfl) (by decide) rfl
      (makes_calls (⟨balance, lo, hi, equality, validity, range⟩ : AmountInstructionData)) h
  | applyPendingBurn =>
    exact interpret_branch (k := 5) agrees_confidentialMintBurn (fun _ => rfl) (by decide) rfl
      .plain h
  | initializeTokenMetadata name symbol uri =>
    obtain rfl := eq_pack_of_writes h rfl
    exact interpret_metadata hI (.initializeMetadata name symbol uri) hvalid
  | updateTokenMetadataField field value =>
    obtain rfl := eq_pack_of_writes h rfl
    exact interpret_metadata hI (.updateField field value) hvalid
  | removeTokenMetadataKey key idempotent =>
    obtain rfl := eq_pack_of_writes h rfl
    exact interpret_metadata hI (.removeKey idempotent key) hvalid
  | updateTokenMetadataAuthority newAuthority =>
    obtain rfl := eq_pack_of_writes h rfl
    exact interpret_metadata hI (.updateAuthority newAuthority) trivial
  | initializeGroup a maxSize =>
    obtain rfl := eq_pack_of_writes h rfl
    exact interpret_group hI (.initializeGroup a maxSize)
  | updateGroupMaxSize maxSize =>
    obtain rfl := eq_pack_of_writes h rfl
    exact interpret_group hI (.updateGroupMaxSize maxSize)
  | updateGroupAuthority newAuthority =>
    obtain rfl := eq_pack_of_writes h rfl
    exact interpret_group hI (.updateGroupAuthority newAuthority)
  | initializeMember =>
    obtain rfl := eq_pack_of_writes h rfl
    exact interpret_group hI .initializeMember

theorem Request.Encodable.instruction {i : Instruction}
    (h : (Request.instruction i).Encodable) : i.Encodable := by
  cases i <;> first | exact h | exact h.elim

/-- What is written reaches the handler it was written for. -/
theorem interpret_of_writes (hI : I.Lawful) (h : Request.encoding.Writes r input) :
    interpret I input = .ok r := by
  cases r with
  | instruction i => exact interpret_of_writes_instruction hI (Request.Encodable.instruction h.1) h
  | rotateSupplyElGamalPubkey key offset =>
    exact interpret_branch (k := 1) agrees_confidentialMintBurn (fun _ => rfl) (by decide) rfl
      (.data (⟨key, offset⟩ : RotateSupplyElGamalPubkeyData)) h
  | amountToUiAmount n =>
    obtain rfl := eq_pack_of_writes h rfl
    refine interpret_cons (s := .amountToUiAmount n) rfl ?_
    simp only [select, bind_eq_ok, pure_eq_ok, decodeInstructionData_eq_ok]
    exact ⟨⟨n⟩, (toBytes_amountData _).symm, rfl⟩
  | uiAmountToAmount uiAmount =>
    obtain rfl := eq_pack_of_writes h rfl
    refine interpret_cons (s := .uiAmountToAmount uiAmount) rfl ?_
    simp only [select, List.drop_succ_cons, List.drop_zero, strFromUtf8_strBytes]
    rfl
  | emit first last =>
    obtain rfl := eq_pack_of_writes h rfl
    exact interpret_metadata hI (.emit first last) trivial

end Read

/-! ## Chains of inputs -/

section Chains

variable {K : Conversions} {I : SplInterfaces} {rt : Runtime} {ctx : Context}
  {accounts : List AccountInfo} {σ σ' : Ledger}

/-- An instruction of the step function has an input that means it. -/
theorem exists_request (i : Instruction) (h : i.Encodable) :
    ∃ r : Request, r.Encodable ∧ ∀ (K : Conversions) (rt : Runtime) ctx accounts σ,
      r.process K rt ctx accounts σ = process rt ctx accounts i σ := by
  by_cases hi : ∃ offset, i = .rotateSupplyElGamalPubkey offset
  · obtain ⟨offset, rfl⟩ := hi
    obtain ⟨x, rfl⟩ := exists_of_fitsOffset h
    exact ⟨.rotateSupplyElGamalPubkey 0 x, trivial, fun _ _ _ _ _ => rfl⟩
  · refine ⟨.instruction i, ?_, fun _ _ _ _ _ => rfl⟩
    cases i <;> first | exact h | exact absurd ⟨_, rfl⟩ hi

/-- A request that is carried out is an instruction, or changes nothing. -/
theorem Request.Encodable.process {r : Request} (h : r.Encodable)
    (hr : r.process K rt ctx accounts σ = .ok σ') :
    (∃ i : Instruction, i.Encodable ∧ Token.process rt ctx accounts i σ = .ok σ') ∨ σ' = σ := by
  cases r with
  | instruction i => exact .inl ⟨i, Request.Encodable.instruction h, hr⟩
  | rotateSupplyElGamalPubkey key offset =>
    exact .inl ⟨.rotateSupplyElGamalPubkey offset.toInt, fitsOffset_toInt offset, hr⟩
  | _ =>
    simp only [Request.process, bind_eq_ok, pure_eq_ok] at hr
    obtain ⟨_, -, rfl⟩ := hr
    exact .inr rfl

theorem run_of_inputStep (hI : I.Lawful) (h : InputStep K I rt σ σ') :
    Run rt (fun c => c.instruction.Encodable) σ σ' := by
  cases h with
  | @input ctx accounts input _ _ h =>
    obtain ⟨r, hr, hprocess⟩ := bind_eq_ok.mp h
    rcases (writes_of_interpret hI hr).1.process hprocess with ⟨i, hi, hrun⟩ | rfl
    · exact .single (.call (c := ⟨ctx, accounts, i, σ⟩) hi hrun)
    · exact .refl
  | outside h => exact .single (.outside h)

theorem inputStep_of_step (hI : I.Lawful)
    (h : Step rt (fun c => c.instruction.Encodable) σ σ') : InputStep K I rt σ σ' := by
  cases h with
  | @call c σ' may run =>
    obtain ⟨r, hvalid, hprocess⟩ := exists_request c.instruction may
    have hr : interpret I r.pack = .ok r := interpret_of_writes hI (writes_strict hvalid rfl)
    have hinput : processInput K I rt c.ctx c.accounts r.pack c.σ = .ok σ' := by
      rw [processInput, hr, ok_bind, hprocess]
      exact run
    exact .input hinput
  | outside h => exact .outside h

/-- The program accepts the bytes that are written for some request, and carries that request
out: no bytes are written for two. Chains of inputs are the runs of the step function. -/
theorem inputs_are_instructions (I : SplInterfaces) (hI : I.Lawful) :
    (∀ input r, interpret I input = .ok r ↔ Request.encoding.Writes r input) ∧
    (∀ input r r', Request.encoding.Writes r input → Request.encoding.Writes r' input → r = r') ∧
    ∀ (K : Conversions) (rt : Runtime) σ σ', Relation.ReflTransGen (InputStep K I rt) σ σ' ↔
      Run rt (fun c => c.instruction.Encodable) σ σ' := by
  have hreads : ∀ input r, interpret I input = .ok r ↔ Request.encoding.Writes r input :=
    fun _ _ => ⟨writes_of_interpret hI, interpret_of_writes hI⟩
  refine ⟨hreads, fun input r r' h h' => ?_, fun K rt σ σ' => ⟨fun h => ?_, fun h => ?_⟩⟩
  · have heq := (hreads input r).mpr h
    rw [(hreads input r').mpr h'] at heq
    exact (Except.ok.inj heq).symm
  · induction h with
    | refl => exact .refl
    | tail _ hstep ih => exact ih.trans (run_of_inputStep hI hstep)
  · exact Relation.ReflTransGen.mono (fun _ _ hstep => inputStep_of_step hI hstep) _ _ h

/-- Closing an account may have a byte behind its tag, a new size of a group may not. -/
theorem inputs_are_instructions_read :
    interpret splInterfaces [9, 7] = .ok (.instruction .closeAccount) ∧
      interpret splInterfaces (Instruction.pack (.updateGroupMaxSize 5) ++ [7]) ≠
        .ok (.instruction (.updateGroupMaxSize 5)) := by
  have hreads := (inputs_are_instructions splInterfaces splInterfaces_lawful).1
  refine ⟨(hreads _ _).mpr ⟨trivial, [7], rfl, .inr rfl⟩, fun h => ?_⟩
  obtain ⟨-, tail, heq, hend⟩ := (hreads _ _).mp h
  obtain rfl := List.append_cancel_left heq
  rcases hend with hend | hend <;> cases hend

end Chains

end SolanaEasy.Token
