import SolanaEasy.Token.Run

/-!
# The client's reader — entries of a mint or an account, read outside the program

`getExtensionTypes` and `getExtensionData` of `extensionType.ts`, beside the readers of the
program. The client looks for a header wherever a byte is left, so zeros behind the last
entry are types to it, or the end of the buffer.
-/

namespace SolanaEasy.Token

namespace Client

/-! ## The reader -/

inductive Thrown where
  | rangeError
  | tokenAccountNotFoundError
  | tokenInvalidAccountOwnerError
  | tokenInvalidAccountSizeError
  | tokenInvalidMintError
  | error (message : String)
deriving DecidableEq

/-- `Buffer.readUInt16LE`. -/
def readUInt16LE (tlvData : Bytes) (offset : ℕ) : Except Thrown ℕ :=
  if offset + 2 ≤ tlvData.length then .ok (readU16 tlvData offset (offset + 2))
  else .error .rangeError

/-- The loop of `getExtensionTypes`; an entry type is the number that was read. -/
def extensionTypesFrom (tlvData : Bytes) : ℕ → ℕ → List ℕ → Except Thrown (List ℕ)
  | 0, _, extensionTypes => .ok extensionTypes
  | fuel + 1, extensionTypeIndex, extensionTypes =>
    if extensionTypeIndex < tlvData.length then do
      let entryType ← readUInt16LE tlvData extensionTypeIndex
      let entryLength ← readUInt16LE tlvData (extensionTypeIndex + 2)
      extensionTypesFrom tlvData fuel (extensionTypeIndex + addTypeAndLengthToLen entryLength)
        (extensionTypes ++ [entryType])
    else .ok extensionTypes

def getExtensionTypes (tlvData : Bytes) : Except Thrown (List ℕ) :=
  extensionTypesFrom tlvData (tlvData.length + 1) 0 []

/-- The loop of `getExtensionData`; `none` is `null`. -/
def extensionDataFrom (extension : ExtensionType) (tlvData : Bytes) :
    ℕ → ℕ → Except Thrown (Option Bytes)
  | 0, _ => .ok none
  | fuel + 1, extensionTypeIndex =>
    if addTypeAndLengthToLen extensionTypeIndex ≤ tlvData.length then do
      let entryType ← readUInt16LE tlvData extensionTypeIndex
      let entryLength ← readUInt16LE tlvData (extensionTypeIndex + 2)
      let typeIndex := addTypeAndLengthToLen extensionTypeIndex
      if entryType == extension.toNat then
        -- `slice` ends at the end of the buffer at the latest
        return some (slice tlvData typeIndex (typeIndex + entryLength))
      else extensionDataFrom extension tlvData fuel (typeIndex + entryLength)
    else .ok none

def getExtensionData (extension : ExtensionType) (tlvData : Bytes) :
    Except Thrown (Option Bytes) :=
  extensionDataFrom extension tlvData (tlvData.length + 1) 0

/-! ## The loop of `getExtensionTypes` -/

section Scan

variable {tlv rest : Bytes} {e : TlvEntry} {i p fuel : ℕ}

theorem readUInt16LE_of_le (h : i + 2 ≤ tlv.length) :
    readUInt16LE tlv i = .ok (readU16 tlv i (i + 2)) := if_pos h

theorem readUInt16LE_of_lt (h : tlv.length < i + 2) :
    readUInt16LE tlv i = .error .rangeError := if_neg (Nat.not_le.mpr h)

theorem extensionTypesFrom_end (ts : List ℕ) (h : tlv.length ≤ i) :
    extensionTypesFrom tlv fuel i ts = .ok ts := by
  cases fuel with
  | zero => rfl
  | succ fuel => exact if_neg (Nat.not_lt.mpr h)

/-- Four bytes are left: a header is read, and what it names is stepped over. -/
theorem extensionTypesFrom_succ (ts : List ℕ) (h : i + 4 ≤ tlv.length) :
    extensionTypesFrom tlv (fuel + 1) i ts =
      extensionTypesFrom tlv fuel (i + (readU16 tlv (i + 2) (i + 4) + 4))
        (ts ++ [readU16 tlv i (i + 2)]) := by
  rw [extensionTypesFrom, if_pos (by omega), readUInt16LE_of_le (by omega),
    readUInt16LE_of_le (by omega)]
  rfl

/-- One to three bytes are left. -/
theorem extensionTypesFrom_short (ts : List ℕ) (h : i < tlv.length) (hshort : tlv.length < i + 4) :
    extensionTypesFrom tlv (fuel + 1) i ts = .error .rangeError := by
  rw [extensionTypesFrom, if_pos h]
  by_cases htype : tlv.length < i + 2
  · rw [readUInt16LE_of_lt htype]
    rfl
  · rw [readUInt16LE_of_le (Nat.not_lt.mp htype), readUInt16LE_of_lt hshort]
    rfl

theorem length_of_drop_zeros (h : tlv.drop i = zeros p) (hp : 0 < p) : tlv.length = i + p := by
  have hlen := congrArg List.length h
  rw [List.length_drop, List.length_replicate] at hlen
  omega

/-- Zeros are read as headers of type zero, as long as they last. -/
theorem extensionTypesFrom_zeros {ts : List ℕ} (hfuel : p < 4 * fuel) (h : tlv.drop i = zeros p) :
    extensionTypesFrom tlv fuel i ts =
      if p % 4 = 0 then .ok (ts ++ List.replicate (p / 4) 0) else .error .rangeError := by
  induction fuel generalizing i p ts with
  | zero => omega
  | succ fuel ih =>
    obtain rfl | hp := Nat.eq_zero_or_pos p
    · rw [extensionTypesFrom_end ts (List.drop_eq_nil_iff.mp h)]
      simp
    · have hlen := length_of_drop_zeros h hp
      by_cases hfour : p < 4
      · rw [extensionTypesFrom_short ts (by omega) (by omega), if_neg (by omega)]
      · have htail : ∀ n ≤ p, tlv.drop (i + n) = zeros (p - n) := by
          intro n _
          rw [← List.drop_drop, h, zeros, List.drop_replicate]
        have htype : readU16 tlv i (i + 2) = 0 := readU16_zeros (by omega) h
        have hzero : readU16 tlv (i + 2) (i + 4) = 0 :=
          readU16_zeros (p := p - 2) (by omega) (htail 2 (by omega))
        rw [extensionTypesFrom_succ ts (by omega), htype, hzero, Nat.zero_add,
          ih (by omega) (htail 4 (by omega)), List.append_assoc, List.singleton_append,
          ← List.replicate_succ]
        have hmod : (p - 4) % 4 = p % 4 := by omega
        have hdiv : (p - 4) / 4 + 1 = p / 4 := by omega
        rw [hmod, hdiv]

/-- The entries are listed, then what the zeros behind them are taken for. -/
theorem extensionTypesFrom_spec {es : List TlvEntry} {ts : List ℕ} (hwf : ∀ e ∈ es, e.Wf)
    (hfuel : 4 * es.length + p < 4 * fuel) (h : tlv.drop i = entriesBytes es ++ zeros p) :
    extensionTypesFrom tlv fuel i ts =
      if p % 4 = 0 then .ok (ts ++ es.map (·.type.toNat) ++ List.replicate (p / 4) 0)
      else .error .rangeError := by
  induction es generalizing fuel i ts with
  | nil =>
    rw [List.map_nil, List.append_nil]
    exact extensionTypesFrom_zeros (by simpa using hfuel) h
  | cons e es ih =>
    rw [List.length_cons] at hfuel
    obtain ⟨fuel, rfl⟩ := Nat.exists_eq_add_one_of_ne_zero (n := fuel) (by omega)
    rw [entriesBytes_cons, List.append_assoc] at h
    have hnext := drop_add_of_drop_eq h
    have hlen := lt_length_of_drop_eq h (by rw [TlvEntry.length_bytes]; omega)
    rw [TlvEntry.length_bytes] at hlen hnext
    have he := hwf e List.mem_cons_self
    rw [extensionTypesFrom_succ ts (by omega), readType_of_drop_eq h,
      readLength_of_drop_eq he.length_lt h, Nat.add_comm e.value.length 4,
      ih (fun x hx => hwf x (List.mem_cons_of_mem _ hx)) (by omega) hnext, List.map_cons,
      List.append_assoc ts, List.singleton_append]

/-! ## The loop of `getExtensionData` -/

theorem extensionDataFrom_end (t : ExtensionType) (h : tlv.length < i + 4) :
    extensionDataFrom t tlv fuel i = .ok none := by
  cases fuel with
  | zero => rfl
  | succ fuel => exact if_neg (Nat.not_le.mpr h)

theorem extensionDataFrom_succ (t : ExtensionType) (h : i + 4 ≤ tlv.length) :
    extensionDataFrom t tlv (fuel + 1) i =
      if readU16 tlv i (i + 2) = t.toNat then
        .ok (some (slice tlv (i + 4) (i + 4 + readU16 tlv (i + 2) (i + 4))))
      else extensionDataFrom t tlv fuel (i + 4 + readU16 tlv (i + 2) (i + 4)) := by
  rw [extensionDataFrom, addTypeAndLengthToLen, if_pos h, readUInt16LE_of_le (by omega),
    readUInt16LE_of_le (by omega)]
  by_cases hhit : readU16 tlv i (i + 2) = t.toNat
  · rw [if_pos hhit, hhit]
    simp only [bind, Except.bind, beq_self_eq_true, if_true]
    rfl
  · rw [if_neg hhit]
    simp only [bind, Except.bind, beq_eq_false_iff_ne.mpr hhit, Bool.false_eq_true, if_false]

/-- Only the type zero is found among zeros. -/
theorem extensionDataFrom_zeros {t : ExtensionType} (ht : t = .uninitialized → p < 4)
    (h : tlv.drop i = zeros p) : extensionDataFrom t tlv fuel i = .ok none := by
  induction fuel generalizing i p with
  | zero => rfl
  | succ fuel ih =>
    by_cases hend : tlv.length < i + 4
    · exact extensionDataFrom_end t hend
    · have hlen := congrArg List.length h
      rw [List.length_drop, List.length_replicate] at hlen
      have htail : ∀ n, tlv.drop (i + n) = zeros (p - n) := by
        intro n
        rw [← List.drop_drop, h, zeros, List.drop_replicate]
      have htype : readU16 tlv i (i + 2) = 0 := readU16_zeros (by omega) h
      have hne : (0 : ℕ) ≠ t.toNat := by
        intro hzero
        have := ht (ExtensionType.toNat_eq_zero.mp hzero.symm)
        omega
      rw [extensionDataFrom_succ t (by omega), htype, if_neg hne, Nat.add_assoc]
      exact ih (fun h => lt_of_le_of_lt (Nat.sub_le _ _) (ht h)) (htail _)

/-- The value of the first entry of the type. -/
theorem extensionDataFrom_spec {t : ExtensionType} {es : List TlvEntry}
    (ht : t = .uninitialized → p < 4) (hwf : ∀ e ∈ es, e.Wf) (hfuel : es.length < fuel)
    (h : tlv.drop i = entriesBytes es ++ zeros p) :
    extensionDataFrom t tlv fuel i = .ok (lookup es t) := by
  induction es generalizing fuel i with
  | nil => exact extensionDataFrom_zeros ht h
  | cons e es ih =>
    obtain ⟨fuel, rfl⟩ := Nat.exists_eq_add_one_of_ne_zero (Nat.ne_of_gt (Nat.zero_lt_of_lt hfuel))
    rw [entriesBytes_cons, List.append_assoc] at h
    have hnext := drop_add_of_drop_eq h
    have hlen := lt_length_of_drop_eq h (by rw [TlvEntry.length_bytes]; omega)
    rw [TlvEntry.length_bytes] at hlen hnext
    have he := hwf e List.mem_cons_self
    rw [extensionDataFrom_succ t (by omega), readType_of_drop_eq h,
      readLength_of_drop_eq he.length_lt h, lookup_cons]
    by_cases hit : e.type = t
    · rw [TlvEntry.bytes, List.append_assoc] at h
      have hvalue := drop_add_of_drop_eq h
      rw [List.length_append, length_leBytes, length_leBytes] at hvalue
      rw [if_pos hit, if_pos (congrArg ExtensionType.toNat hit), slice_of_drop_eq hvalue]
    · rw [if_neg hit, if_neg fun h => hit (ExtensionType.toNat_injective h), Nat.add_assoc,
        ih (fun x hx => hwf x (List.mem_cons_of_mem _ hx)) (by simpa using hfuel) hnext]

end Scan

theorem getExtensionTypes_bytes (d : TlvData) :
    getExtensionTypes d.bytes =
      if d.padding % 4 = 0 then
        .ok (d.types.map ExtensionType.toNat ++ List.replicate (d.padding / 4) 0)
      else .error .rangeError := by
  have h : d.bytes.drop 0 = entriesBytes d.entries ++ zeros d.padding := rfl
  have hfour := four_mul_length_le d.entries
  have hlen := d.length_bytes
  rw [TlvData.usedLen] at hlen
  rw [getExtensionTypes, extensionTypesFrom_spec d.wf (by omega) h, List.nil_append,
    TlvData.types, List.map_map]
  rfl

theorem getExtensionData_bytes (d : TlvData) {t : ExtensionType}
    (ht : t = .uninitialized → d.padding < 4) : getExtensionData t d.bytes = .ok (d.get t) := by
  have h : d.bytes.drop 0 = entriesBytes d.entries ++ zeros d.padding := rfl
  rw [getExtensionData, extensionDataFrom_spec ht d.wf d.fuel_lt h, TlvData.get]

end Client

/-! ## Both readers -/

/-- The client and the program read the same from the buffer behind a base `S`. -/
structure ReadsAlike (S : Type) [BaseState S] (tlvData : Bytes) : Prop where
  types : ∃ info, getTlvDataInfo tlvData = .ok info ∧
    Client.getExtensionTypes tlvData = .ok (info.extensionTypes.map ExtensionType.toNat)
  data : ∀ t, Client.getExtensionData t tlvData = .ok (toOption (getExtensionBytes S t tlvData))

/-- The buffer ends with its last entry. -/
def Filled (tlvData : Bytes) : Prop :=
  ∃ es : List TlvEntry, (∀ e ∈ es, e.Wf) ∧ tlvData = entriesBytes es

section Alike

variable {S : Type} [BaseState S]

theorem TlvData.filled_iff {d : TlvData} : Filled d.bytes ↔ d.padding = 0 := by
  constructor
  · rintro ⟨es, hwf, hes⟩
    have h : d.bytes.drop 0 = entriesBytes es ++ zeros 0 := by rw [hes]; simp
    have hfour := four_mul_length_le es
    have hlen := congrArg List.length hes
    -- the program finds the same end, whichever entries the buffer is read as
    have hfrom : tlvDataInfoFrom d.bytes (d.bytes.length + 1) 0 [] =
        .ok ⟨[] ++ es.map (·.type), 0 + (entriesBytes es).length⟩ :=
      tlvDataInfoFrom_spec hwf (by omega) h
    have hend := hfrom.symm.trans d.getTlvDataInfo_bytes
    have hused := congrArg TlvDataInfo.usedLen (Except.ok.inj hend)
    rw [length_bytes] at hlen
    simp only [Nat.zero_add] at hused
    omega
  · intro hp
    exact ⟨d.entries, d.wf, by rw [bytes, hp]; simp⟩

/-- The entries are of the kind of the base, so a type of the other kind is absent. -/
theorem toOption_getExtensionBytes {b : TlvBuffer (BaseState.accountType S)} (t : ExtensionType) :
    toOption (getExtensionBytes S t b.bytes) = b.get t := by
  rw [Option.ext_iff]
  intro v
  rw [toOption_eq_some]
  exact TlvBuffer.getExtensionBytes_eq_ok

theorem TlvBuffer.readsAlike_iff (b : TlvBuffer (BaseState.accountType S)) :
    ReadsAlike S b.bytes ↔ Filled b.bytes := by
  refine Iff.trans ?_ (TlvData.filled_iff (d := b.data)).symm
  have htypes := Client.getExtensionTypes_bytes b.data
  constructor
  · rintro ⟨⟨info, hinfo, hclient⟩, _⟩
    obtain rfl := Except.ok.inj (b.getTlvDataInfo_bytes.symm.trans hinfo)
    by_contra hp
    have heq := htypes.symm.trans hclient
    by_cases hmod : b.data.padding % 4 = 0
    · rw [if_pos hmod, Except.ok.injEq] at heq
      have hlen := congrArg List.length heq
      rw [List.length_append, List.length_map, List.length_map, List.length_replicate] at hlen
      have hlen : b.types.length + b.data.padding / 4 = b.types.length := hlen
      omega
    · rw [if_neg hmod] at heq
      cases heq
  · intro hp
    refine ⟨⟨_, b.getTlvDataInfo_bytes, ?_⟩, fun t => ?_⟩
    · rw [hp] at htypes
      refine htypes.trans ?_
      simp [TlvData.types, TlvBuffer.types, TlvBuffer.data]
    · rw [toOption_getExtensionBytes]
      exact Client.getExtensionData_bytes b.data fun _ => by omega

end Alike

/-- The client reads a mint or an account as the program does where the buffer ends with its
last entry, and nowhere else; the values it finds are right in any case. -/
theorem client_reads_alike_iff {S : Type} [BaseState S] [Held S] (rt : Runtime)
    (allow : Call → Prop) (σ : Ledger) (hreach : Reachable rt allow σ) (k : Pubkey)
    (howner : (σ k).owner = Keys.tokenProgram) (s : PodState S) (hload : load σ S k = .ok s) :
    (ReadsAlike S s.tlvData ↔ Filled s.tlvData) ∧
      ∀ t, t ≠ .uninitialized → Client.getExtensionData t s.tlvData =
        .ok (toOption (getExtensionBytes S t s.tlvData)) := by
  obtain ⟨b, hb⟩ := (hreach.wf.load howner hload).1
  rw [← hb]
  refine ⟨b.readsAlike_iff, fun t ht => ?_⟩
  rw [toOption_getExtensionBytes]
  exact Client.getExtensionData_bytes b.data fun h => absurd h ht

/-- A mint whose four extensions would end at the length of a multisig. -/
def bumpedLedger : Ledger :=
  scripted (.modular 2)
    [(.plain, [⟨1, false⟩], .initializeTransferFeeConfig (some 5) none 100 50),
      (.plain, [⟨1, false⟩], .initializeMintCloseAuthority (some 5)),
      (.plain, [⟨1, false⟩], .initializeDefaultAccountState .initialized),
      (.plain, [⟨1, false⟩], .initializePermanentDelegate 6),
      (.plain, [⟨1, false⟩], .initializeMint2 6 5 none)] (blank [(1, 357)])

theorem bumpedLedger_reachable : Reachable (.modular 2) (fun _ => True) bumpedLedger :=
  .scripted (by decide) (fun _ _ _ => trivial) (by decide +kernel)

/-- The client throws on the two zeros that the bumped length leaves. -/
theorem client_reads_otherwise :
    Reachable (.modular 2) (fun _ => True) bumpedLedger ∧
      ∃ s, load bumpedLedger PodMint 1 = .ok s ∧
        Client.getExtensionTypes s.tlvData = .error .rangeError ∧
        ¬ ReadsAlike PodMint s.tlvData := by
  have hthrows : (toOption (load bumpedLedger PodMint 1)).any (fun s => decide
      (Client.getExtensionTypes s.tlvData = .error .rangeError)) = true := by decide +kernel
  obtain ⟨s, hs, hp⟩ := (Option.any_eq_true _ _).mp hthrows
  have hclient := of_decide_eq_true hp
  refine ⟨bumpedLedger_reachable, s, toOption_eq_some.mp hs, hclient, ?_⟩
  rintro ⟨⟨info, _, htypes⟩, _⟩
  rw [hclient] at htypes
  cases htypes

theorem client_reads_alike_iff_bumped :
    ∃ s, load bumpedLedger PodMint 1 = .ok s ∧ (ReadsAlike PodMint s.tlvData ↔ Filled s.tlvData) ∧
      Client.getExtensionData .permanentDelegate s.tlvData =
        .ok (some (Pod.toBytes (6 : Pubkey))) := by
  have hdelegate : (toOption (load bumpedLedger PodMint 1)).any (fun s => decide
      (toOption (getExtensionBytes PodMint .permanentDelegate s.tlvData) =
        some (Pod.toBytes (6 : Pubkey)))) = true := by decide +kernel
  obtain ⟨s, hs, hp⟩ := (Option.any_eq_true _ _).mp hdelegate
  have hload : load bumpedLedger PodMint 1 = .ok s := toOption_eq_some.mp hs
  obtain ⟨hiff, hdata⟩ := client_reads_alike_iff _ _ _ bumpedLedger_reachable 1 (by decide +kernel)
    s hload
  exact ⟨s, hload, hiff, (hdata _ (by decide)).trans (congrArg _ (of_decide_eq_true hp))⟩

end SolanaEasy.Token
