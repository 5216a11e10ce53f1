import SolanaEasy.Token.Law.Transfers
import SolanaEasy.Token.Onchain

/-!
# On-chain transfers — the accounts that are left out had nothing to say

An account whose key is no member of the multisig passes the counting loop of
`validate_owner` without a trace, so the filter of the helper does not change the verdict.
The metas that the helper appends ask for the signature of every member it was given; a
member who has not signed makes the call fail, as he would make the loop fail.
-/

namespace SolanaEasy.Token

open Processor

/-! ## The filter and the loop -/

theorem matchSigner_of_not_mem {signer : AccountInfo} {keys : List Pubkey}
    (h : signer.key ∉ keys) (matched : List Bool) (k : ℕ) :
    matchSigner signer keys matched k = .ok (matched, k) := by
  induction keys generalizing matched k with
  | nil => rfl
  | cons key keys ih =>
    rw [List.mem_cons, not_or] at h
    cases matched with
    | nil => rfl
    | cons m matched =>
      rw [matchSigner, beq_false_of_ne (Ne.symm h.1), Bool.false_and,
        if_neg Bool.false_ne_true, ih h.2]
      rfl

section Filter

variable {multisig : PodMultisig}

/-- The members among some accounts. -/
def PodMultisig.members (multisig : PodMultisig) (accounts : List AccountInfo) :
    List AccountInfo :=
  accounts.filter fun account => multisig.slots.contains account.key

theorem PodMultisig.mem_members {accounts : List AccountInfo} {info : AccountInfo} :
    info ∈ multisig.members accounts ↔ info ∈ accounts ∧ info.key ∈ multisig.slots := by
  rw [members, List.mem_filter, List.contains_iff_mem]

theorem PodMultisig.members_cons (info : AccountInfo) (accounts : List AccountInfo) :
    multisig.members (info :: accounts) =
      if multisig.slots.contains info.key then info :: multisig.members accounts
      else multisig.members accounts := List.filter_cons

theorem matchSigners_members (hn : multisig.n.toNat ≤ maxSigners) (accounts : List AccountInfo)
    (matched : List Bool) (k : ℕ) :
    matchSigners multisig (multisig.members accounts) matched k =
      matchSigners multisig accounts matched k := by
  induction accounts generalizing matched k with
  | nil => rfl
  | cons info accounts ih =>
    rw [matchSigners_cons hn, PodMultisig.members_cons]
    by_cases hmem : multisig.slots.contains info.key = true
    · rw [if_pos hmem, matchSigners_cons hn]
      exact congrArg _ (funext fun p => ih p.1 p.2)
    · rw [if_neg hmem, matchSigner_of_not_mem (mt List.contains_iff_mem.mpr hmem), ok_bind]
      exact ih matched k

theorem signersUpToN_eq (hn : multisig.n.toNat ≤ maxSigners) :
    multisig.signersUpToN = .ok multisig.slots := by
  have hbound : (failIf (decide (multisig.n.toNat > maxSigners)) RuntimeFault.panic :
      Result Unit) = .ok () := failIf_eq_ok.mpr (decide_eq_false (Nat.not_lt.mpr hn))
  rw [PodMultisig.signersUpToN, hbound]
  rfl

theorem n_le_of_signersUpToN {signers : List Pubkey} (h : multisig.signersUpToN = .ok signers) :
    multisig.n.toNat ≤ maxSigners := by
  simp only [PodMultisig.signersUpToN, bind_eq_ok, exists_unit, failIf_eq_ok,
    decide_eq_false_iff_not, Nat.not_lt] at h
  exact h.1

theorem pushMultisigAccounts_eq (hn : multisig.n.toNat ≤ maxSigners)
    (accounts : List AccountInfo) :
    pushMultisigAccounts multisig accounts = .ok (multisig.members accounts) := by
  induction accounts with
  | nil => rfl
  | cons info accounts ih =>
    rw [pushMultisigAccounts, signersUpToN_eq hn, ok_bind, ih, ok_bind, PodMultisig.members_cons]
    cases multisig.slots.contains info.key <;> rfl

/-- The loop returns the members, and a multisig with too many slots only for no account. -/
theorem pushMultisigAccounts_ok {accounts kept : List AccountInfo}
    (h : pushMultisigAccounts multisig accounts = .ok kept) :
    kept = accounts ∧ accounts = [] ∨
      multisig.n.toNat ≤ maxSigners ∧ kept = multisig.members accounts := by
  cases accounts with
  | nil => exact .inl ⟨(Except.ok.inj h).symm, rfl⟩
  | cons info accounts =>
    have hn : multisig.n.toNat ≤ maxSigners := by
      rw [pushMultisigAccounts, bind_eq_ok] at h
      obtain ⟨signers, hsigners, _⟩ := h
      exact n_le_of_signersUpToN hsigners
    rw [pushMultisigAccounts_eq hn, Except.ok.injEq] at h
    exact .inr ⟨hn, h.symm⟩

end Filter

/-! ## The verdict -/

section Verdict

variable {σ : Ledger} {authority : AccountInfo}

theorem isMultisigAccount_of_isMultisig (h : (σ authority.key).IsMultisig Keys.tokenProgram) :
    isMultisigAccount σ authority = true := by
  rw [isMultisigAccount, h.1, h.2]
  simp

/-- The filter changes nothing, whatever the authority is. -/
theorem checkOwner_extracted {accounts kept : List AccountInfo}
    (h : extractMultisigAccounts σ authority accounts = .ok kept) (expectedOwner : Pubkey) :
    checkOwner σ authority kept expectedOwner = checkOwner σ authority accounts expectedOwner := by
  rw [checkOwner, checkOwner, validateOwner, validateOwner]
  by_cases hmultisig : (σ authority.key).IsMultisig Keys.tokenProgram
  · rw [extractMultisigAccounts, isMultisigAccount_of_isMultisig hmultisig] at h
    simp only [Bool.not_true, Bool.false_eq_true, if_false, bind_eq_ok, okOr_eq_ok] at h
    obtain ⟨multisig, hdecode, hpush⟩ := h
    rw [hdecode, okOr, ok_bind, ok_bind]
    rcases pushMultisigAccounts_ok hpush with ⟨rfl, rfl⟩ | ⟨hn, rfl⟩
    · rfl
    · rw [matchSigners_members hn]
  · have hcond : (Keys.tokenProgram == (σ authority.key).owner &&
        (σ authority.key).data.length == multisigLen) = false := by
      rw [Bool.and_eq_false_iff, beq_eq_false_iff_ne, beq_eq_false_iff_ne, ← not_and_or]
      exact fun h => hmultisig ⟨h.1.symm, h.2⟩
    rw [hcond]
    rfl

end Verdict

/-! ## The slots that are in use -/

/-- The bytes of the program, read as a multisig, use no slot past the eleventh. -/
theorem n_le_of_wf {σ : Ledger} {k : Pubkey} {multisig : PodMultisig} (hwf : σ.Wf)
    (howner : (σ k).owner = Keys.tokenProgram) (h : (σ k).data = Pod.toBytes multisig) :
    multisig.n.toNat ≤ maxSigners := by
  have hlen := length_of_multisig h
  rcases hwf.data k howner with ⟨hdata, hn⟩ | ⟨hs, _⟩ | ⟨hs, _, _⟩ | hfresh
  · rwa [Pod.toBytes_injective (h.symm.trans hdata)]
  · exact absurd hlen (unpack_length_ne hs)
  · exact absurd hlen (unpack_length_ne hs)
  · have htake := zeros_of_freshData hfresh 2 (by decide) (by rw [hlen]; decide)
    have hbytes : Pod.toBytes multisig = multisig.m :: multisig.n ::
        Pod.toBytes (multisig.isInitialized, multisig.signers) := by
      show Pod.toBytes multisig.m ++ (Pod.toBytes multisig.n ++ _) = _
      rw [Pod.toBytes_uint8, Pod.toBytes_uint8]
      rfl
    rw [h, hbytes] at htake
    have hzero : multisig.n = 0 := (List.cons.inj (List.cons.inj htake).2).1
    rw [hzero]
    decide

/-! ## What the helper builds -/

section Shape

variable {hook : TransferHookInterface} {σ : Ledger} {a : TransferArgs}

/-- The metas of the four accounts that every transfer names. -/
def TransferArgs.metas (a : TransferArgs) (authoritySigns : Bool) : List AccountMeta :=
  [.new a.sourceInfo.key false, .newReadonly a.mintInfo.key false,
    .new a.destinationInfo.key false, .newReadonly a.authorityInfo.key authoritySigns]

/-- The four accounts. -/
def TransferArgs.infos (a : TransferArgs) : List AccountInfo :=
  [a.sourceInfo, a.mintInfo, a.destinationInfo, a.authorityInfo]

/-- The data name the instruction, in the decoder of the program. -/
def NamesInstruction (data : Bytes) (i : Instruction) : Prop :=
  decode data = .ok (.instruction i) ∨
    ∃ rest, decode data = .ok (.extension .transferFeeExtension rest) ∧
      decodeTransferFee rest = .ok i

theorem TransferArgs.instruction_ok {ix : CpiInstruction} (h : a.instruction = .ok ix) :
    ix.programId = a.tokenProgramId ∧ ix.accounts = a.metas true ∧
      NamesInstruction ix.data a.transfer := by
  rw [instruction] at h
  cases hfee : a.fee with
  | none =>
    simp only [hfee, Token.transferChecked, bind_eq_ok, pure_eq_ok] at h
    obtain ⟨_, _, rfl⟩ := h
    refine ⟨rfl, rfl, .inl ?_⟩
    rw [decode_pack, transfer, hfee]
    rfl
  | some fee =>
    simp only [hfee, Token.transferCheckedWithFee, bind_eq_ok, pure_eq_ok] at h
    obtain ⟨_, _, rfl⟩ := h
    refine ⟨rfl, rfl, .inr ⟨_, decode_transferFee _, ?_⟩⟩
    rw [decodeTransferFee_pack, transfer, hfee]
    rfl

/-- The correction appends the accounts that are kept, for any authority. -/
theorem addSigners_ok {built ix : CpiInstruction} {infos kept : List AccountInfo}
    (hmetas : built.accounts = a.metas true) (h : a.addSigners σ built = .ok (ix, infos))
    (hkept : extractMultisigAccounts σ a.authorityInfo a.additionalAccounts = .ok kept) :
    ix.programId = built.programId ∧ ix.data = built.data ∧
      ix.accounts = a.metas (!isMultisigAccount σ a.authorityInfo) ++
        kept.map (.newReadonly ·.key true) ∧ infos = a.infos ++ kept := by
  rw [TransferArgs.addSigners] at h
  rw [extractMultisigAccounts] at hkept
  by_cases hmultisig : isMultisigAccount σ a.authorityInfo = true
  · rw [hmultisig] at hkept ⊢
    simp only [Bool.not_true, Bool.false_eq_true, if_false, bind_eq_ok, okOr_eq_ok] at hkept
    obtain ⟨multisig, hdecode, hpush⟩ := hkept
    rw [if_pos hmultisig, bind_eq_ok] at h
    obtain ⟨members, hmembers, h⟩ := h
    simp only [pure_eq_ok, Prod.mk.injEq] at h
    obtain ⟨rfl, rfl⟩ := h
    simp only [TransferArgs.signerInfos, hdecode, okOr_eq_ok, bind_eq_ok, Option.some.injEq,
      exists_eq_left', pure_eq_ok] at hmembers
    obtain ⟨signers, hsigners, rfl⟩ := hmembers
    have hn := n_le_of_signersUpToN hsigners
    rw [signersUpToN_eq hn, Except.ok.injEq] at hsigners
    rw [pushMultisigAccounts_eq hn, Except.ok.injEq] at hpush
    subst hsigners hpush
    refine ⟨rfl, rfl, ?_, rfl⟩
    rw [CpiInstruction.clearAuthority, hmetas]
    rfl
  · rw [Bool.not_eq_true] at hmultisig
    rw [hmultisig] at hkept ⊢
    obtain rfl : [] = kept := Except.ok.inj hkept
    rw [hmultisig, if_neg Bool.false_ne_true, Except.ok.injEq, Prod.mk.injEq] at h
    obtain ⟨rfl, rfl⟩ := h
    refine ⟨rfl, rfl, ?_, ?_⟩
    · rw [hmetas, List.map_nil, List.append_nil]
      rfl
    · rw [List.append_nil]
      rfl

theorem transferInstructionAndAccountInfos_ok {ix : CpiInstruction} {infos kept : List AccountInfo}
    (h : transferInstructionAndAccountInfos hook σ a = .ok (ix, infos))
    (hkept : extractMultisigAccounts σ a.authorityInfo a.additionalAccounts = .ok kept) :
    ∃ extraMetas extraInfos, a.hookAccounts hook σ = .ok (extraMetas, extraInfos) ∧
      ix.programId = a.tokenProgramId ∧ NamesInstruction ix.data a.transfer ∧
      ix.accounts = a.metas (!isMultisigAccount σ a.authorityInfo) ++
        kept.map (.newReadonly ·.key true) ++ extraMetas ∧
      infos = a.infos ++ kept ++ extraInfos := by
  simp only [transferInstructionAndAccountInfos, bind_eq_ok, pure_eq_ok, Prod.mk.injEq,
    Prod.exists] at h
  obtain ⟨built, hbuilt, head, headInfos, hhead, extraMetas, extraInfos, hextra, rfl, rfl⟩ := h
  obtain ⟨hid, hmetas, hdata⟩ := a.instruction_ok hbuilt
  obtain ⟨hid', hdata', hmetas', rfl⟩ := addSigners_ok hmetas hhead hkept
  exact ⟨extraMetas, extraInfos, hextra, hid'.trans hid, by rwa [hdata'], by rw [hmetas'], rfl⟩

end Shape

/-! ## The transfer behind the call -/

section Process

variable {rt : Runtime} {ctx : Context} {σ σ' : Ledger} {a : TransferArgs} {s m d u : Pubkey}
  {b₁ b₂ b₃ b₄ c₁ c₂ c₃ c₄ : Bool} {signers signers' : List AccountInfo}

/-- A transfer asks nothing of the further accounts but whether the authority stands. -/
theorem processTransfer_congr
    (hcheck : ∀ e, checkOwner σ ⟨u, b₄⟩ signers e = checkOwner σ ⟨u, c₄⟩ signers' e)
    (amount : UInt64) {t : TransferInstruction} (ht : t.decimals?.isSome = true) :
    processTransfer ctx (⟨s, b₁⟩ :: ⟨m, b₂⟩ :: ⟨d, b₃⟩ :: ⟨u, b₄⟩ :: signers) amount t σ =
      processTransfer ctx (⟨s, c₁⟩ :: ⟨m, c₂⟩ :: ⟨d, c₃⟩ :: ⟨u, c₄⟩ :: signers') amount t σ := by
  have hauthority : ∀ base delegate amount self,
      transferAuthority σ base ⟨u, b₄⟩ signers delegate amount self =
        transferAuthority σ base ⟨u, c₄⟩ signers' delegate amount self := by
    intro base delegate amount self
    simp only [transferAuthority, hcheck]
  obtain ⟨decimals, hdecimals⟩ := Option.isSome_iff_exists.mp ht
  simp only [processTransfer, transferAccounts, takeExpectedMint, hdecimals, ok_bind, pure_bind,
    hauthority]
  rfl

/-- Without the authority there is no transfer. -/
theorem processTransfer_refused {source mint destination authority : AccountInfo}
    (hcheck : ∀ e, checkOwner σ authority signers e ≠ .ok ()) (amount : UInt64)
    (t : TransferInstruction) :
    processTransfer ctx (t.infos source mint destination authority signers) amount t σ ≠
      .ok σ' := by
  intro h
  obtain ⟨_, _, _, transferred⟩ := processTransfer_ok h
  have hby := transferred.by'
  rw [transferAuthority] at hby
  split at hby
  · obtain ⟨_, hok, _⟩ := bind_eq_ok.mp hby
    exact hcheck _ hok
  · split at hby
    · obtain ⟨_, hok, _⟩ := bind_eq_ok.mp hby
      exact hcheck _ hok
    · obtain ⟨_, hok, _⟩ := bind_eq_ok.mp hby
      exact hcheck _ hok

/-- The variant of the transfer. -/
def TransferArgs.variant (a : TransferArgs) : TransferInstruction :=
  match a.fee with
  | none => .checked a.decimals
  | some fee => .checkedWithFee a.decimals fee

theorem TransferArgs.process_transfer (a : TransferArgs) (accounts : List AccountInfo) :
    process rt ctx accounts a.transfer σ = processTransfer ctx accounts a.amount a.variant σ := by
  rw [transfer, variant]
  cases a.fee with
  | none => rfl
  | some fee => rfl

theorem TransferArgs.infos_variant (a : TransferArgs) (s m d u : AccountInfo)
    (signers : List AccountInfo) :
    a.variant.infos s m d u signers = s :: m :: d :: u :: signers := by
  rw [variant]
  cases a.fee with
  | none => rfl
  | some fee => rfl

end Process

/-! ## Who has signed -/

section Members

variable {σ : Ledger} {u : Pubkey} {b c : Bool} {multisig : PodMultisig}
  {signers signers' : List AccountInfo}

/-- Where every member that is passed has signed, it counts who is passed. -/
theorem checkOwner_congr (howner : (σ u).owner = Keys.tokenProgram)
    (hdecode : Pod.decode? PodMultisig (σ u).data = some multisig)
    (hn : multisig.n.toNat ≤ maxSigners)
    (hall : ∀ info ∈ signers, info.key ∈ multisig.slots → info.isSigner = true)
    (hall' : ∀ info ∈ signers', info.key ∈ multisig.slots → info.isSigner = true)
    (hsame : ∀ key ∈ multisig.slots, key ∈ signers.map (·.key) ↔ key ∈ signers'.map (·.key))
    (e : Pubkey) : checkOwner σ ⟨u, b⟩ signers e = checkOwner σ ⟨u, c⟩ signers' e := by
  have hopen : ∀ {l : List AccountInfo},
      (∀ info ∈ l, info.key ∈ multisig.slots → info.isSigner = true) →
        ¬ Blocked multisig.slots l := by
    rintro l hl ⟨before, info, after, rfl, hsigner, hmem, _⟩
    rw [hl info (by simp) hmem] at hsigner
    cases hsigner
  have hsigned : ∀ {l : List AccountInfo},
      (∀ info ∈ l, info.key ∈ multisig.slots → info.isSigner = true) →
        ∀ key ∈ multisig.slots, signed l key = true ↔ key ∈ l.map (·.key) := by
    intro l hl key hkey
    simp only [signed, List.any_eq_true, Bool.and_eq_true, beq_iff_eq, List.mem_map]
    constructor
    · rintro ⟨info, hmem, _, rfl⟩
      exact ⟨info, hmem, rfl⟩
    · rintro ⟨info, hmem, rfl⟩
      exact ⟨info, hmem, hl info hmem hkey, rfl⟩
  have hcount : multisig.slots.countP (signed signers) = multisig.slots.countP (signed signers') :=
    List.countP_congr fun key hkey =>
      (hsigned hall key hkey).trans ((hsame key hkey).trans (hsigned hall' key hkey).symm)
  by_cases he : e = u
  · subst he
    obtain ⟨hok, herror⟩ := @validateOwner_multisig σ _ ⟨e, b⟩ multisig howner hdecode hn signers
    obtain ⟨hok', herror'⟩ := @validateOwner_multisig σ _ ⟨e, c⟩ multisig howner hdecode hn signers'
    rw [iff_true_intro (hopen hall), true_and, hcount] at hok
    rw [iff_true_intro (hopen hall'), true_and, ← hok] at hok'
    rw [checkOwner, checkOwner]
    by_cases h : validateOwner σ Keys.tokenProgram e ⟨e, b⟩ (σ e).data.length signers = .ok ()
    · rw [h, hok'.mpr h]
    · rw [herror h, herror' fun h' => h (hok'.mp h')]
  · rw [checkOwner, checkOwner, validateOwner, validateOwner, bne_iff_ne.mpr he]
    rfl

/-- A member that is passed and has not signed stops it, each key having one flag. -/
theorem checkOwner_refused (howner : (σ u).owner = Keys.tokenProgram)
    (hdecode : Pod.decode? PodMultisig (σ u).data = some multisig)
    (hn : multisig.n.toNat ≤ maxSigners) (hconsistent : Consistent signers)
    (hout : ∃ info ∈ signers, info.isSigner = false ∧ info.key ∈ multisig.slots) (e : Pubkey) :
    checkOwner σ ⟨u, b⟩ signers e ≠ .ok () := by
  intro h
  obtain ⟨rfl, _⟩ := validateOwner_eq_ok.mp h
  exact (((@validateOwner_multisig σ _ ⟨e, b⟩ multisig howner hdecode hn signers).1.mp h).1)
    (hconsistent.blocked_iff.mpr hout)

end Members

/-! ## The call -/

/-- The key is passed as a signer. -/
def flagged (metas : List AccountMeta) (key : Pubkey) : Bool :=
  metas.any fun m => m.isSigner && m.pubkey == key

/-- The accounts as the callee sees them. -/
def seen (metas : List AccountMeta) (passed : List AccountMeta) : List AccountInfo :=
  passed.map fun m => ⟨m.pubkey, flagged metas m.pubkey⟩

section Seen

variable {metas passed : List AccountMeta} {info : AccountInfo}

theorem flagged_of_mem {m : AccountMeta} (hm : m ∈ metas) (hsigner : m.isSigner = true) :
    flagged metas m.pubkey = true := by
  rw [flagged, List.any_eq_true]
  exact ⟨m, hm, by rw [hsigner, beq_self_eq_true]; rfl⟩

theorem signed_of_flagged {signed : Pubkey → Bool}
    (h : ∀ m ∈ metas, m.isSigner = true → signed m.pubkey = true) {key : Pubkey}
    (hflag : flagged metas key = true) : signed key = true := by
  rw [flagged, List.any_eq_true] at hflag
  obtain ⟨m, hm, hboth⟩ := hflag
  rw [Bool.and_eq_true, beq_iff_eq] at hboth
  exact hboth.2 ▸ h m hm hboth.1

theorem mem_seen : info ∈ seen metas passed ↔
    info.key ∈ passed.map (·.pubkey) ∧ info.isSigner = flagged metas info.key := by
  rw [seen, List.mem_map, List.mem_map]
  constructor
  · rintro ⟨m, hm, rfl⟩
    exact ⟨⟨m, hm, rfl⟩, rfl⟩
  · rintro ⟨⟨m, hm, hkey⟩, hflag⟩
    refine ⟨m, hm, ?_⟩
    obtain ⟨key, signer⟩ := info
    obtain rfl : m.pubkey = key := hkey
    rw [← hflag]

theorem keys_seen : (seen metas passed).map (·.key) = passed.map (·.pubkey) := by
  rw [seen, List.map_map]
  rfl

/-- A key that some meta asks to sign is seen signed everywhere. -/
theorem isSigner_of_mem_seen (hinfo : info ∈ seen metas passed)
    (h : ∃ m ∈ metas, m.isSigner = true ∧ m.pubkey = info.key) : info.isSigner = true := by
  obtain ⟨m, hm, hsigner, hkey⟩ := h
  rw [(mem_seen.mp hinfo).2, ← hkey]
  exact flagged_of_mem hm hsigner

theorem consistent_seen : Consistent (seen metas passed) := by
  intro x hx y hy hkey
  rw [(mem_seen.mp hx).2, (mem_seen.mp hy).2, hkey]

end Seen

section Call

variable (hook : TransferHookInterface) (σ : Ledger) (a : TransferArgs) (rt : Runtime)
  (ctx : Context) (cpi : Cpi) (signed : Pubkey → Bool)

/-- The accounts of the hook, behind the four accounts and those that are passed for the
authority. -/
def TransferArgs.invokeWith (passed : List AccountMeta) (passedInfos : List AccountInfo)
    (extra : List AccountMeta × List AccountInfo) : Result Ledger := do
  let accounts ← cpi.enter signed (a.metas false ++ (passed ++ extra.1))
    (a.infos ++ (passedInfos ++ extra.2))
  process rt ctx accounts a.transfer σ

/-- The same transfer by a multisig with no account left out, each with the signature it has. -/
def invokePassingAll : Result Ledger := do
  let _ ← a.instruction
  let extra ← a.hookAccounts hook σ
  a.invokeWith σ rt ctx cpi signed
    (a.additionalAccounts.map fun info => .newReadonly info.key (signed info.key))
    a.additionalAccounts extra

variable {hook σ a rt ctx cpi signed} {passed : List AccountMeta}
  {passedInfos : List AccountInfo} {extra : List AccountMeta × List AccountInfo}

theorem invokeWith_refused
    (h : ∃ m ∈ passed ++ extra.1, m.isSigner = true ∧ signed m.pubkey = false) :
    ∃ e, a.invokeWith σ rt ctx cpi signed passed passedInfos extra = .error e := by
  obtain ⟨m, hm, hsigner⟩ := h
  obtain ⟨e, he⟩ : ∃ e, cpi.enter signed (a.metas false ++ (passed ++ extra.1))
      (a.infos ++ (passedInfos ++ extra.2)) = .error e :=
    cpi.refuses ⟨m, List.mem_append_right (a.metas false) hm, hsigner⟩
  exact ⟨e, by rw [TransferArgs.invokeWith, he]; rfl⟩

/-- The four accounts ask for no signature. -/
theorem signed_of_metas
    (hsigned : ∀ m ∈ passed ++ extra.1, m.isSigner = true → signed m.pubkey = true) :
    ∀ m ∈ a.metas false ++ (passed ++ extra.1), m.isSigner = true → signed m.pubkey = true := by
  intro m hm hsigner
  rcases List.mem_append.mp hm with hbase | hm
  · simp only [TransferArgs.metas, AccountMeta.new, AccountMeta.newReadonly, List.mem_cons,
      List.not_mem_nil, or_false] at hbase
    rcases hbase with rfl | rfl | rfl | rfl <;> cases hsigner
  · exact hsigned m hm hsigner

/-- The call, with the signatures it asks for. -/
theorem invokeWith_admitted
    (hsigned : ∀ m ∈ passed ++ extra.1, m.isSigner = true → signed m.pubkey = true)
    (hkeys : passedInfos.map (·.key) = passed.map (·.pubkey))
    (hextra : extra.2.map (·.key) = extra.1.map (·.pubkey)) :
    ∃ b₁ b₂ b₃ b₄, a.invokeWith σ rt ctx cpi signed passed passedInfos extra =
      processTransfer ctx (⟨a.sourceInfo.key, b₁⟩ :: ⟨a.mintInfo.key, b₂⟩ ::
        ⟨a.destinationInfo.key, b₃⟩ :: ⟨a.authorityInfo.key, b₄⟩ ::
          seen (a.metas false ++ (passed ++ extra.1)) (passed ++ extra.1))
        a.amount a.variant σ := by
  have hpresent : ∀ m ∈ a.metas false ++ (passed ++ extra.1),
      m.pubkey ∈ (a.infos ++ (passedInfos ++ extra.2)).map (·.key) := by
    intro m hm
    rw [List.map_append, List.map_append, hkeys, hextra, ← List.map_append]
    have hbase : a.infos.map (·.key) = (a.metas false).map (·.pubkey) := rfl
    rw [hbase, ← List.map_append]
    exact List.mem_map_of_mem hm
  rw [TransferArgs.invokeWith, cpi.admits (signed_of_metas hsigned) hpresent, ok_bind,
    TransferArgs.process_transfer, List.map_append]
  exact ⟨_, _, _, _, rfl⟩

section Passed

variable {l : List AccountInfo} {f : AccountInfo → Bool} {metas : List AccountMeta}

theorem keys_newReadonly : (l.map fun info => AccountMeta.newReadonly info.key (f info)).map
    (·.pubkey) = l.map (·.key) := by
  rw [List.map_map]
  rfl

theorem newReadonly_mem {info : AccountInfo} (h : info ∈ l) :
    .newReadonly info.key (f info) ∈ l.map fun info => AccountMeta.newReadonly info.key (f info) :=
  List.mem_map.mpr ⟨info, h, rfl⟩

/-- Where neither those that are passed nor the hook ask for a signature that is missing. -/
theorem signed_of_passed (hl : ∀ info ∈ l, f info = true → signed info.key = true)
    (hextra : ∀ m ∈ extra.1, m.isSigner = true → signed m.pubkey = true) :
    ∀ m ∈ (l.map fun info => AccountMeta.newReadonly info.key (f info)) ++ extra.1,
      m.isSigner = true → signed m.pubkey = true := by
  intro m hm hsigner
  rcases List.mem_append.mp hm with hm | hm
  · obtain ⟨info, hmem, rfl⟩ := List.mem_map.mp hm
    exact hl info hmem hsigner
  · exact hextra m hm hsigner

theorem mem_keys_seen {key : Pubkey} :
    key ∈ (seen metas ((l.map fun info => AccountMeta.newReadonly info.key (f info)) ++
        extra.1)).map (·.key) ↔ key ∈ l.map (·.key) ∨ key ∈ extra.1.map (·.pubkey) := by
  rw [keys_seen, List.map_append, keys_newReadonly, List.mem_append]

/-- Who is passed with a signature is seen signed. -/
theorem isSigner_of_passed {info member : AccountInfo}
    (hinfo : info ∈ seen (a.metas false ++ ((l.map fun info =>
      AccountMeta.newReadonly info.key (f info)) ++ extra.1)) passed)
    (hmem : member ∈ l) (hf : f member = true) (hkey : member.key = info.key) :
    info.isSigner = true :=
  isSigner_of_mem_seen hinfo ⟨.newReadonly member.key (f member),
    List.mem_append_right _ (List.mem_append_left _ (newReadonly_mem hmem)), hf, hkey⟩

end Passed

/-! ### All accounts or the members -/

section AllOrMembers

variable {multisig : PodMultisig}

theorem key_mem_members {key : Pubkey} (hslot : key ∈ multisig.slots)
    (h : key ∈ a.additionalAccounts.map (·.key)) :
    ∃ member ∈ multisig.members a.additionalAccounts, member.key = key := by
  obtain ⟨info, hinfo, rfl⟩ := List.mem_map.mp h
  exact ⟨info, PodMultisig.mem_members.mpr ⟨hinfo, hslot⟩, rfl⟩

theorem key_mem_of_members {key : Pubkey}
    (h : key ∈ (multisig.members a.additionalAccounts).map (·.key)) :
    key ∈ a.additionalAccounts.map (·.key) := by
  obtain ⟨info, hinfo, rfl⟩ := List.mem_map.mp h
  exact List.mem_map_of_mem (PodMultisig.mem_members.mp hinfo).1

/-- A member has not signed: the call of the helper is refused, the loop of the other stops. -/
theorem invokeWith_unsigned_member
    (howner : (σ a.authorityInfo.key).owner = Keys.tokenProgram)
    (hdecode : Pod.decode? PodMultisig (σ a.authorityInfo.key).data = some multisig)
    (hn : multisig.n.toNat ≤ maxSigners)
    (hextra : extra.2.map (·.key) = extra.1.map (·.pubkey))
    (hsigned : ∀ m ∈ extra.1, m.isSigner = true → signed m.pubkey = true)
    (hout : ∃ info ∈ multisig.members a.additionalAccounts, signed info.key = false)
    (σ' : Ledger) :
    a.invokeWith σ rt ctx cpi signed
        ((multisig.members a.additionalAccounts).map (.newReadonly ·.key true))
        (multisig.members a.additionalAccounts) extra ≠ .ok σ' ∧
      a.invokeWith σ rt ctx cpi signed
        (a.additionalAccounts.map fun info => .newReadonly info.key (signed info.key))
        a.additionalAccounts extra ≠ .ok σ' := by
  obtain ⟨info, hmem, hout⟩ := hout
  obtain ⟨hinfo, hslot⟩ := PodMultisig.mem_members.mp hmem
  constructor
  · obtain ⟨e, he⟩ : ∃ e, a.invokeWith σ rt ctx cpi signed
        ((multisig.members a.additionalAccounts).map (.newReadonly ·.key true))
        (multisig.members a.additionalAccounts) extra = .error e :=
      invokeWith_refused ⟨.newReadonly info.key true,
        List.mem_append_left extra.1 (newReadonly_mem hmem), rfl, hout⟩
    rw [he]
    exact ok_ne_error.symm
  · have hall := signed_of_passed (l := a.additionalAccounts) (f := fun info => signed info.key)
      (fun _ _ h => h) hsigned
    obtain ⟨c₁, c₂, c₃, c₄, hright⟩ := invokeWith_admitted hall keys_newReadonly.symm hextra
    rw [hright, ← a.infos_variant]
    refine processTransfer_refused (checkOwner_refused howner hdecode hn consistent_seen ?_) _ _
    have hpassed : info.key ∈ ((a.additionalAccounts.map fun info =>
        AccountMeta.newReadonly info.key (signed info.key)) ++ extra.1).map (·.pubkey) := by
      rw [List.map_append, keys_newReadonly]
      exact List.mem_append_left _ (List.mem_map_of_mem hinfo)
    refine ⟨⟨info.key, flagged (a.metas false ++ _) info.key⟩, mem_seen.mpr ⟨hpassed, rfl⟩, ?_,
      hslot⟩
    rw [← Bool.not_eq_true]
    intro hflag
    have hin := signed_of_flagged (@signed_of_metas a signed _ _ hall) hflag
    rw [hout] at hin
    cases hin

/-- Every member that is passed has signed: both calls do the same. -/
theorem invokeWith_signed_members
    (howner : (σ a.authorityInfo.key).owner = Keys.tokenProgram)
    (hdecode : Pod.decode? PodMultisig (σ a.authorityInfo.key).data = some multisig)
    (hn : multisig.n.toNat ≤ maxSigners)
    (hextra : extra.2.map (·.key) = extra.1.map (·.pubkey))
    (hgiven : ∀ info ∈ extra.2, info ∈ a.additionalAccounts)
    (hsigned : ∀ m ∈ extra.1, m.isSigner = true → signed m.pubkey = true)
    (hall : ∀ info ∈ multisig.members a.additionalAccounts, signed info.key = true) :
    a.invokeWith σ rt ctx cpi signed
        ((multisig.members a.additionalAccounts).map (.newReadonly ·.key true))
        (multisig.members a.additionalAccounts) extra =
      a.invokeWith σ rt ctx cpi signed
        (a.additionalAccounts.map fun info => .newReadonly info.key (signed info.key))
        a.additionalAccounts extra := by
  have hextraKeys : ∀ key ∈ extra.1.map (·.pubkey), key ∈ a.additionalAccounts.map (·.key) := by
    intro key hkey
    rw [← hextra] at hkey
    obtain ⟨info, hmem, rfl⟩ := List.mem_map.mp hkey
    exact List.mem_map_of_mem (hgiven info hmem)
  obtain ⟨b₁, b₂, b₃, b₄, hleft⟩ := invokeWith_admitted
    (signed_of_passed (fun info hinfo _ => hall info hinfo) hsigned) keys_newReadonly.symm hextra
  obtain ⟨c₁, c₂, c₃, c₄, hright⟩ := invokeWith_admitted
    (signed_of_passed (fun _ _ h => h) hsigned) keys_newReadonly.symm hextra
  have hvariant : a.variant.decimals?.isSome = true := by
    rw [TransferArgs.variant]
    cases a.fee <;> rfl
  rw [hleft, hright]
  refine processTransfer_congr (checkOwner_congr howner hdecode hn ?_ ?_ ?_) a.amount hvariant
  · intro info hinfo hslot
    have hkey := mem_keys_seen.mp (List.mem_map_of_mem hinfo)
    obtain ⟨member, hmem, hsame⟩ :=
      key_mem_members hslot (hkey.elim key_mem_of_members (hextraKeys _))
    exact isSigner_of_passed hinfo hmem rfl hsame
  · intro info hinfo hslot
    have hkey := mem_keys_seen.mp (List.mem_map_of_mem hinfo)
    obtain ⟨member, hmem, hsame⟩ := key_mem_members hslot (hkey.elim id (hextraKeys _))
    exact isSigner_of_passed hinfo (PodMultisig.mem_members.mp hmem).1 (hall member hmem) hsame
  · intro key hslot
    rw [mem_keys_seen, mem_keys_seen]
    refine or_congr_left' fun _ => ⟨key_mem_of_members, fun h => ?_⟩
    obtain ⟨member, hmem, rfl⟩ := key_mem_members hslot h
    exact List.mem_map_of_mem hmem

/-- The members, each with a signature, do what all accounts do with the signatures they have. -/
theorem invokeWith_members
    (howner : (σ a.authorityInfo.key).owner = Keys.tokenProgram)
    (hdecode : Pod.decode? PodMultisig (σ a.authorityInfo.key).data = some multisig)
    (hn : multisig.n.toNat ≤ maxSigners)
    (hextra : extra.2.map (·.key) = extra.1.map (·.pubkey))
    (hgiven : ∀ info ∈ extra.2, info ∈ a.additionalAccounts) (σ' : Ledger) :
    a.invokeWith σ rt ctx cpi signed
        ((multisig.members a.additionalAccounts).map (.newReadonly ·.key true))
        (multisig.members a.additionalAccounts) extra = .ok σ' ↔
      a.invokeWith σ rt ctx cpi signed
        (a.additionalAccounts.map fun info => .newReadonly info.key (signed info.key))
        a.additionalAccounts extra = .ok σ' := by
  by_cases hhook : ∃ m ∈ extra.1, m.isSigner = true ∧ signed m.pubkey = false
  · -- the hook asks for a signature that is missing
    have hrefused : ∀ (passed : List AccountMeta) (passedInfos : List AccountInfo),
        a.invokeWith σ rt ctx cpi signed passed passedInfos extra ≠ .ok σ' := by
      intro passed passedInfos
      obtain ⟨m, hm, hsigner⟩ := hhook
      obtain ⟨e, he⟩ : ∃ e, a.invokeWith σ rt ctx cpi signed passed passedInfos extra = .error e :=
        invokeWith_refused ⟨m, List.mem_append_right passed hm, hsigner⟩
      rw [he]
      exact ok_ne_error.symm
    exact iff_of_false (hrefused _ _) (hrefused _ _)
  · have hsigned : ∀ m ∈ extra.1, m.isSigner = true → signed m.pubkey = true := by
      intro m hm hsigner
      by_contra hnot
      exact hhook ⟨m, hm, hsigner, Bool.not_eq_true _ ▸ hnot⟩
    by_cases hout : ∃ info ∈ multisig.members a.additionalAccounts, signed info.key = false
    · obtain ⟨hleft, hright⟩ := invokeWith_unsigned_member howner hdecode hn hextra hsigned hout σ'
      exact iff_of_false hleft hright
    · rw [invokeWith_signed_members howner hdecode hn hextra hgiven hsigned]
      intro info hinfo
      by_contra hnot
      exact hout ⟨info, hinfo, Bool.not_eq_true _ ▸ hnot⟩

end AllOrMembers

/-- The helper for a multisig: its members are passed. -/
theorem invokeTransferInternal_eq {multisig : PodMultisig}
    (hmultisig : (σ a.authorityInfo.key).IsMultisig Keys.tokenProgram)
    (hdecode : Pod.decode? PodMultisig (σ a.authorityInfo.key).data = some multisig)
    (hn : multisig.n.toNat ≤ maxSigners) :
    invokeTransferInternal hook σ a rt ctx cpi signed = (do
      let _ ← a.instruction
      let extra ← a.hookAccounts hook σ
      a.invokeWith σ rt ctx cpi signed
        ((multisig.members a.additionalAccounts).map (.newReadonly ·.key true))
        (multisig.members a.additionalAccounts) extra) := by
  rw [invokeTransferInternal, transferInstructionAndAccountInfos]
  cases hbuilt : a.instruction with
  | error e => rfl
  | ok built =>
    obtain ⟨_, hmetas, _⟩ := a.instruction_ok hbuilt
    have hinfos : a.signerInfos σ = .ok (multisig.members a.additionalAccounts) := by
      rw [TransferArgs.signerInfos, hdecode, okOr, ok_bind, signersUpToN_eq hn]
      rfl
    rw [ok_bind, ok_bind, TransferArgs.addSigners, isMultisigAccount_of_isMultisig hmultisig,
      if_pos rfl, hinfos]
    cases a.hookAccounts hook σ with
    | error e => rfl
    | ok extra =>
      simp only [ok_bind, pure_bind, CpiInstruction.clearAuthority, hmetas,
        TransferArgs.invokeWith, List.append_assoc]
      rfl

end Call

/-! ## The helper -/

/-- The helper of on-chain transfers preserves the authority of a multisig: leaving accounts
out does not change the verdict of `validate_owner`, no slice is out of range, the metas that
are appended are those of the accounts that are kept, and the call succeeds exactly when it
does with all accounts. -/
theorem transfer_helper_keeps_multisig {rt : Runtime} {σ : Ledger}
    (h : Reachable rt (fun _ => True) σ) :
    (∀ (authority : AccountInfo) (accounts kept : List AccountInfo),
      extractMultisigAccounts σ authority accounts = .ok kept → ∀ expectedOwner,
        validateOwner σ Keys.tokenProgram expectedOwner authority (σ authority.key).data.length
            kept =
          validateOwner σ Keys.tokenProgram expectedOwner authority (σ authority.key).data.length
            accounts) ∧
    (∀ a : TransferArgs, (σ a.authorityInfo.key).owner ≠ Keys.inlineSplToken → ∃ kept,
      extractMultisigAccounts σ a.authorityInfo a.additionalAccounts = .ok kept ∧
        (isMultisigAccount σ a.authorityInfo = true → a.signerInfos σ = .ok kept)) ∧
    (∀ (hook : TransferHookInterface) (a : TransferArgs) (ix : CpiInstruction)
        (infos kept : List AccountInfo),
      transferInstructionAndAccountInfos hook σ a = .ok (ix, infos) →
      extractMultisigAccounts σ a.authorityInfo a.additionalAccounts = .ok kept →
      ∃ extraMetas extraInfos, a.hookAccounts hook σ = .ok (extraMetas, extraInfos) ∧
        ix.programId = a.tokenProgramId ∧ NamesInstruction ix.data a.transfer ∧
        ix.accounts = a.metas (!isMultisigAccount σ a.authorityInfo) ++
          kept.map (.newReadonly ·.key true) ++ extraMetas ∧
        infos = a.infos ++ kept ++ extraInfos) ∧
    ∀ (hook : TransferHookInterface) (a : TransferArgs) (ctx : Context) (cpi : Cpi)
        (signed : Pubkey → Bool),
      a.tokenProgramId = Keys.tokenProgram →
      (σ a.authorityInfo.key).IsMultisig Keys.tokenProgram → ∀ σ',
        invokeTransferInternal hook σ a rt ctx cpi signed = .ok σ' ↔
          invokePassingAll hook σ a rt ctx cpi signed = .ok σ' := by
  have hread : ∀ k, (σ k).IsMultisig Keys.tokenProgram → ∃ multisig,
      Pod.decode? PodMultisig (σ k).data = some multisig ∧ multisig.n.toNat ≤ maxSigners := by
    intro k hmultisig
    obtain ⟨multisig, hdecode⟩ : ∃ multisig, Pod.decode? PodMultisig (σ k).data = some multisig :=
      ⟨_, if_pos (hmultisig.2.trans size_podMultisig.symm)⟩
    exact ⟨multisig, hdecode, n_le_of_wf h.wf hmultisig.1 (Pod.decode?_eq_some.mp hdecode)⟩
  refine ⟨?_, ?_, ?_, ?_⟩
  · intro authority accounts kept hkept expectedOwner
    exact checkOwner_extracted hkept expectedOwner
  · intro a howner
    by_cases hmultisig : isMultisigAccount σ a.authorityInfo = true
    · have hboth := hmultisig
      rw [isMultisigAccount, Bool.and_eq_true, Bool.or_eq_true, beq_iff_eq, beq_iff_eq,
        beq_iff_eq] at hboth
      obtain ⟨multisig, hdecode, hn⟩ := hread a.authorityInfo.key
        ⟨hboth.1.resolve_right howner, hboth.2⟩
      refine ⟨multisig.members a.additionalAccounts, ?_, fun _ => ?_⟩
      · rw [extractMultisigAccounts, hmultisig, hdecode]
        exact pushMultisigAccounts_eq hn a.additionalAccounts
      · rw [TransferArgs.signerInfos, hdecode, okOr, ok_bind, signersUpToN_eq hn]
        rfl
    · refine ⟨[], ?_, fun hm => absurd hm hmultisig⟩
      rw [Bool.not_eq_true] at hmultisig
      rw [extractMultisigAccounts, hmultisig]
      rfl
  · intro hook a ix infos kept hix hkept
    exact transferInstructionAndAccountInfos_ok hix hkept
  · intro hook a ctx cpi signed _ hmultisig σ'
    obtain ⟨multisig, hdecode, hn⟩ := hread a.authorityInfo.key hmultisig
    rw [invokeTransferInternal_eq hmultisig hdecode hn, invokePassingAll]
    simp only [bind_eq_ok]
    refine exists_congr fun _ => and_congr_right fun _ => exists_congr fun extra =>
      and_congr_right fun hextra => ?_
    have hfound : extra.2.map (·.key) = extra.1.map (·.pubkey) ∧
        ∀ info ∈ extra.2, info ∈ a.additionalAccounts := by
      simp only [TransferArgs.hookAccounts, bind_eq_ok] at hextra
      obtain ⟨mint, _, hextra⟩ := hextra
      split at hextra
      · exact hook.found hextra
      · rw [← pure_eq_ok.mp hextra]
        exact ⟨rfl, fun _ hmem => absurd hmem List.not_mem_nil⟩
    exact invokeWith_members hmultisig.1 hdecode hn hfound.1 hfound.2 σ'

/-! ### A multisig that pays -/

/-- The rule for signatures, run. -/
def Cpi.plain : Cpi where
  enter signed metas infos :=
    if metas.any fun m => m.isSigner && !signed m.pubkey then .error .missingRequiredSignature
    else if metas.any fun m => !(infos.map (·.key)).contains m.pubkey then
      .error .notEnoughAccountKeys
    else .ok (seen metas metas)
  refuses := by
    rintro signed metas infos ⟨m, hm, hsigner, hout⟩
    refine ⟨_, if_pos (List.any_eq_true.mpr ⟨m, hm, ?_⟩)⟩
    rw [hsigner, hout]
    rfl
  admits := by
    intro signed metas infos hsigned hpresent
    rw [if_neg, if_neg]
    · rfl
    · rw [Bool.not_eq_true, List.any_eq_false]
      intro m hm h
      rw [Bool.not_eq_true', List.contains_eq_mem, decide_eq_false_iff_not] at h
      exact h (hpresent m hm)
    · rw [Bool.not_eq_true, List.any_eq_false]
      intro m hm h
      rw [Bool.and_eq_true, Bool.not_eq_true'] at h
      rw [hsigned m hm h.1] at h
      cases h.2

/-- Looks up the program and nothing else, as for a mint whose hook wants no accounts. -/
def TransferHookInterface.plain : TransferHookInterface where
  addExtraAccounts _ programId _ _ _ _ _ additional :=
    match additional.find? (·.key == programId) with
    | some info => .ok ([.newReadonly info.key false], [info])
    | none => .error .invalidAccountData
  found := by
    intro σ programId source mint destination authority amount additional metas infos h
    split at h
    · rename_i info hfind
      rw [Except.ok.injEq, Prod.mk.injEq] at h
      obtain ⟨rfl, rfl⟩ := h
      refine ⟨rfl, fun x hx => ?_⟩
      rw [List.mem_singleton.mp hx]
      exact List.mem_of_find?_eq_some hfind
    · cases h

/-- Mint 1, the account 2 of a multisig 7 of three, two of whom are to sign, and account 3. -/
def multisigSteps : List (Context × List AccountInfo × Instruction) :=
  [(.plain, [⟨1, false⟩], .initializeMint2 6 5 none),
    (.plain, [⟨7, false⟩, ⟨8, false⟩, ⟨9, false⟩, ⟨10, false⟩], .initializeMultisig2 2),
    (.plain, [⟨2, false⟩, ⟨1, false⟩], .initializeAccount3 7),
    (.plain, [⟨3, false⟩, ⟨1, false⟩], .initializeAccount3 5),
    (.plain, [⟨1, false⟩, ⟨2, false⟩, ⟨5, true⟩], .mintTo 100)]

def multisigLedger : Ledger :=
  scripted (.modular 2) multisigSteps (blank [(1, 82), (2, 165), (3, 165), (7, 355)])

/-- Two members, one of them twice, among accounts of others. -/
def multisigTransfer : TransferArgs :=
  ⟨Keys.tokenProgram, ⟨2, false⟩, ⟨1, false⟩, ⟨3, false⟩, ⟨7, false⟩,
    [⟨20, false⟩, ⟨9, true⟩, ⟨8, true⟩, ⟨21, true⟩, ⟨9, true⟩], 40, 6, none⟩

theorem transfer_helper_keeps_multisig_pays :
    ∃ σ', invokeTransferInternal .plain multisigLedger multisigTransfer (.modular 2) .plain .plain
      (fun key => key == 8 || key == 9 || key == 21) = .ok σ' := by
  have hreach : Reachable (.modular 2) (fun _ => True) multisigLedger :=
    .scripted (by decide) (fun _ _ _ => trivial) (by decide +kernel)
  have hmultisig : (multisigLedger 7).IsMultisig Keys.tokenProgram :=
    ⟨by decide +kernel, by decide +kernel⟩
  have hall : (toOption (invokePassingAll .plain multisigLedger multisigTransfer (.modular 2) .plain
      .plain (fun key => key == 8 || key == 9 || key == 21))).isSome = true := by
    decide +kernel
  obtain ⟨σ', hall⟩ := Option.isSome_iff_exists.mp hall
  exact ⟨σ', ((transfer_helper_keeps_multisig hreach).2.2.2 .plain multisigTransfer .plain .plain
    _ rfl hmultisig σ').mpr (toOption_eq_some.mp hall)⟩

end SolanaEasy.Token
