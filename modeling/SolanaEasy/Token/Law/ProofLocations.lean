import SolanaEasy.Token.Law.Input
import SolanaEasy.Token.ProofLocation

/-!
# Law: proofs are found where the client put them

What the builders list and what the handlers take off their accounts agree, wherever the
proofs are; so it does not matter where they are. Mints and burns are the exception: there the
program looks for the sysvar only if the first proof is an instruction.
-/

namespace SolanaEasy.Token

open Processor

/-- The account holds a verified proof with this context. -/
def ProofStored {U : Type} [Pod U] (σ : Ledger) (t : ProofType) (c : U) (k : Pubkey) : Prop :=
  (σ k).owner = Keys.zkProofProgram ∧
    ∃ a, (σ k).data = Pod.toBytes (⟨a, t.toU8, c⟩ : ProofContextState U)

/-- The location leads the program to this context. -/
def ProofLocation.Shows {U : Type} [Pod U] (ctx : Context) (σ : Ledger) (t : ProofType) (c : U) :
    ProofLocation U → Prop
  | .instructionOffset offset _ _ =>
    ctx.getInstructionRelative offset.toInt = some (.verifying t c)
  | .contextStateAccount k => ProofStored σ t c k

/-- The client has a proof with this context, or the account does. -/
def ProofLocation.Has {U : Type} [Pod U] (σ : Ledger) (t : ProofType) (c : U) :
    ProofLocation U → Prop
  | .instructionOffset _ _ proofData => proofData = c
  | .contextStateAccount k => ProofStored σ t c k

/-- These instructions follow in the transaction. -/
def Context.Precedes (ctx : Context) (proofs : List ProofInstruction) : Prop :=
  ∀ (i : ℕ) (p : ProofInstruction), proofs[i]? = some p →
    ctx.getInstructionRelative (i + 1) = some p

/-! ## Reading one location -/

theorem ProofLocation.toInt_offset_ne_zero {offset : Int8} (h : offset ≠ 0) : offset.toInt ≠ 0 := by
  intro hzero
  apply h
  rw [← Int8.ofInt_toInt offset, hzero]
  rfl

/-- An offset tells whether the proof is an instruction. -/
theorem ProofLocation.offset_bne_zero {U : Type} (proof : ProofLocation U) :
    (proof.offset.toInt != 0) = proof.isInstructionOffset := by
  cases proof with
  | instructionOffset offset hne d => exact bne_iff_ne.mpr (toInt_offset_ne_zero hne)
  | contextStateAccount k => rfl

section Extract

variable {U : Type} [Pod U] {ctx : Context} {σ : Ledger} {t : ProofType} {c : U}
  {proof : ProofLocation U} {sysvar : Option AccountInfo} {rest : List AccountInfo}

theorem extract_contextState {k : Pubkey}
    (h : (ProofLocation.contextStateAccount k : ProofLocation U).Shows ctx σ t c) :
    verifyAndExtractContext U t ctx σ 0 sysvar (⟨k, false⟩ :: rest) = .ok (c, rest) := by
  obtain ⟨howner, a, hdata⟩ := h
  simp only [verifyAndExtractContext, beq_self_eq_true, if_true, bind_eq_ok, exists_unit,
    failIf_eq_ok, okOr_eq_ok, pure_eq_ok, bne_eq_false_iff_eq]
  exact ⟨howner, _, by rw [hdata, Pod.decode?_toBytes], rfl, rfl⟩

/-- The sysvar is at hand, or it is the next account. -/
theorem extract_instruction {offset : Int8} {accounts : List AccountInfo} (hne : offset ≠ 0)
    (h : ctx.getInstructionRelative offset.toInt = some (.verifying t c))
    (hsysvar : sysvar = some instructionsSysvarMeta ∧ accounts = rest ∨
      sysvar = none ∧ accounts = instructionsSysvarMeta :: rest) :
    verifyAndExtractContext U t ctx σ offset.toInt sysvar accounts = .ok (c, rest) := by
  have hzero := beq_eq_false_iff_ne.mpr (ProofLocation.toInt_offset_ne_zero hne)
  rcases hsysvar with ⟨rfl, rfl⟩ | ⟨rfl, rfl⟩
  all_goals
    simp only [verifyAndExtractContext, hzero, Bool.false_eq_true, if_false, ok_bind, bind_eq_ok,
      exists_unit, failIf_eq_ok, okOr_eq_ok, pure_eq_ok, Bool.or_eq_false_iff,
      bne_eq_false_iff_eq]
    exact ⟨rfl, _, h, ⟨rfl, rfl⟩, c, Pod.decode?_toBytes c, rfl⟩

/-- The only proof of an instruction. -/
theorem extract_proofAccounts (h : proof.Shows ctx σ t c) :
    verifyAndExtractContext U t ctx σ proof.offset.toInt none (proof.proofAccounts ++ rest) =
      .ok (c, rest) := by
  cases proof with
  | instructionOffset offset hne d => exact extract_instruction hne h (.inr ⟨rfl, rfl⟩)
  | contextStateAccount k => exact extract_contextState h

/-- One of several proofs, with the sysvar at hand if it is needed. -/
theorem extract_contextAccounts (h : proof.Shows ctx σ t c)
    (hsysvar : proof.isInstructionOffset = true → sysvar = some instructionsSysvarMeta) :
    verifyAndExtractContext U t ctx σ proof.offset.toInt sysvar (proof.contextAccounts ++ rest) =
      .ok (c, rest) := by
  cases proof with
  | instructionOffset offset hne d =>
    exact extract_instruction hne h (.inl ⟨hsysvar rfl, rfl⟩)
  | contextStateAccount k => exact extract_contextState h

theorem takeSysvar_sysvarAccounts (wanted : Bool) :
    takeSysvar wanted (sysvarAccounts wanted ++ rest) =
      .ok (if wanted then some instructionsSysvarMeta else none, rest) := by
  cases wanted <;> rfl

end Extract

/-! ## Reading several locations -/

section Several

variable {rt : Runtime} {ctx : Context} {σ : Ledger} {rest : List AccountInfo}
  {equality : ProofLocation CiphertextCommitmentEqualityProofContext}
  {validity : ProofLocation BatchedGroupedCiphertext3HandlesValidityProofContext}
  {feeSigma : ProofLocation PercentageWithCapProofContext}
  {feeValidity : ProofLocation BatchedGroupedCiphertext2HandlesValidityProofContext}
  {range : ProofLocation BatchedRangeProofContext}
  {c₁ : CiphertextCommitmentEqualityProofContext}
  {c₂ : BatchedGroupedCiphertext3HandlesValidityProofContext} {c₃ : PercentageWithCapProofContext}
  {c₄ : BatchedGroupedCiphertext2HandlesValidityProofContext} {c : BatchedRangeProofContext}

theorem verifyWithdrawProof_placed
    (h₁ : equality.Shows ctx σ .ciphertextCommitmentEquality c₁)
    (h : range.Shows ctx σ .batchedRangeProofU64 c) :
    verifyWithdrawProof ctx σ equality.offset.toInt range.offset.toInt
        (sysvarAccounts (equality.isInstructionOffset || range.isInstructionOffset) ++
          (equality.contextAccounts ++ (range.contextAccounts ++ rest))) =
      (WithdrawProofContext.verifyAndExtract c₁ c).map (·, rest) := by
  rw [verifyWithdrawProof, ProofLocation.offset_bne_zero, ProofLocation.offset_bne_zero,
    takeSysvar_sysvarAccounts]
  simp only [ok_bind]
  rw [extract_contextAccounts h₁ fun hi => if_pos (by rw [hi, Bool.true_or])]
  simp only [ok_bind]
  rw [extract_contextAccounts h fun hi => if_pos (by rw [hi, Bool.or_true])]
  rfl

/-- The three proofs of a transfer, a mint or a burn, where the sysvar comes first if any of
them needs it. -/
theorem takeAmountProof_placed {wanted : Bool}
    (hwanted : (equality.isInstructionOffset || validity.isInstructionOffset ||
      range.isInstructionOffset) = true → wanted = true)
    (h₁ : equality.Shows ctx σ .ciphertextCommitmentEquality c₁)
    (h₂ : validity.Shows ctx σ .batchedGroupedCiphertext3HandlesValidity c₂)
    (h : range.Shows ctx σ .batchedRangeProofU128 c) :
    takeAmountProof ctx σ wanted equality.offset.toInt validity.offset.toInt range.offset.toInt
        (sysvarAccounts wanted ++ (equality.contextAccounts ++ (validity.contextAccounts ++
          (range.contextAccounts ++ rest)))) = .ok (⟨c₁, c₂, c⟩, rest) := by
  rw [takeAmountProof, takeSysvar_sysvarAccounts]
  simp only [ok_bind]
  rw [extract_contextAccounts h₁ fun hi => if_pos (hwanted (by simp [hi]))]
  simp only [ok_bind]
  rw [extract_contextAccounts h₂ fun hi => if_pos (hwanted (by simp [hi]))]
  simp only [ok_bind]
  rw [extract_contextAccounts h fun hi => if_pos (hwanted (by simp [hi]))]
  rfl

theorem verifyTransferProof_placed
    (h₁ : equality.Shows ctx σ .ciphertextCommitmentEquality c₁)
    (h₂ : validity.Shows ctx σ .batchedGroupedCiphertext3HandlesValidity c₂)
    (h : range.Shows ctx σ .batchedRangeProofU128 c) :
    verifyTransferProof ctx σ equality.offset.toInt validity.offset.toInt range.offset.toInt
        (sysvarAccounts (equality.isInstructionOffset || validity.isInstructionOffset ||
            range.isInstructionOffset) ++
          (equality.contextAccounts ++ (validity.contextAccounts ++
            (range.contextAccounts ++ rest)))) =
      (TransferProofContext.verifyAndExtract ⟨c₁, c₂, c⟩).map (·, rest) := by
  rw [verifyTransferProof, ProofLocation.offset_bne_zero, ProofLocation.offset_bne_zero,
    ProofLocation.offset_bne_zero, takeAmountProof_placed id h₁ h₂ h]
  rfl

theorem verifyTransferWithFeeProof_placed {parameters : TransferFee}
    (h₁ : equality.Shows ctx σ .ciphertextCommitmentEquality c₁)
    (h₂ : validity.Shows ctx σ .batchedGroupedCiphertext3HandlesValidity c₂)
    (h₃ : feeSigma.Shows ctx σ .percentageWithCap c₃)
    (h₄ : feeValidity.Shows ctx σ .batchedGroupedCiphertext2HandlesValidity c₄)
    (h : range.Shows ctx σ .batchedRangeProofU256 c) :
    verifyTransferWithFeeProof rt ctx σ ⟨equality.offset.toInt, validity.offset.toInt,
        feeSigma.offset.toInt, feeValidity.offset.toInt, range.offset.toInt⟩ parameters
        (sysvarAccounts (equality.isInstructionOffset || validity.isInstructionOffset ||
            feeSigma.isInstructionOffset || feeValidity.isInstructionOffset ||
            range.isInstructionOffset) ++
          (equality.contextAccounts ++ (validity.contextAccounts ++ (feeSigma.contextAccounts ++
            (feeValidity.contextAccounts ++ (range.contextAccounts ++ rest)))))) =
      (TransferWithFeeProofContext.verifyAndExtract rt ⟨c₁, c₂, c₃, c₄, c⟩
        parameters.transferFeeBasisPoints parameters.maximumFee).map (·, rest) := by
  rw [verifyTransferWithFeeProof]
  simp only [ProofLocation.offset_bne_zero]
  rw [takeSysvar_sysvarAccounts]
  simp only [ok_bind]
  rw [extract_contextAccounts h₁ fun hi => if_pos (by simp [hi])]
  simp only [ok_bind]
  rw [extract_contextAccounts h₂ fun hi => if_pos (by simp [hi])]
  simp only [ok_bind]
  rw [extract_contextAccounts h₃ fun hi => if_pos (by simp [hi])]
  simp only [ok_bind]
  rw [extract_contextAccounts h₄ fun hi => if_pos (by simp [hi])]
  simp only [ok_bind]
  rw [extract_contextAccounts h fun hi => if_pos (by simp [hi])]
  rfl

end Several

/-! ## Placement -/

section Placement

variable {K : Conversions} {I : SplInterfaces} {rt : Runtime} {ctx : Context} {σ : Ledger}

theorem process_built {accounts : List AccountInfo} {data : Bytes} {r : Request}
    (h : interpret I data = .ok r) :
    (BuiltInstruction.mk accounts data).process K I rt ctx σ =
      r.process K rt ctx accounts σ := by
  rw [BuiltInstruction.process, processInput, h]
  rfl

/-- What was encoded for a branch of a table is read from it. -/
theorem interpret_encoded {tag : UInt8} {bs : List (Branch Request)} {b : Branch Request}
    {w : Bytes} {more : Bool} {k : ℕ} {r : Request} (hagrees : Agrees [tag] Request.encoding 0 bs)
    (htag : ∀ rest, interpret I (tag :: rest) = decodeBranches bs rest) (hn : bs.length ≤ 256)
    (hb : bs[k]? = some b) (hmakes : b.Makes w more r) :
    interpret I (tag :: UInt8.ofNat k :: w) = .ok r := by
  obtain ⟨hpack, -, hvalid⟩ := hagrees.makes hb hmakes
  refine interpret_branch hagrees htag hn hb hmakes ⟨hvalid, [], ?_, .inl rfl⟩
  rw [hpack, Nat.zero_add, List.append_nil]
  rfl

/-- The handler of a branch gets the data that was encoded for it. -/
theorem process_calls {D : Type} [Pod D] {make : D → Instruction} {tag : UInt8}
    {bs : List (Branch Request)} {accounts : List AccountInfo} (d : D) (k : ℕ)
    (hagrees : Agrees [tag] Request.encoding 0 bs)
    (htag : ∀ rest, interpret I (tag :: rest) = decodeBranches bs rest) (hn : bs.length ≤ 256)
    (hb : bs[k]? = some (calls make)) :
    (BuiltInstruction.mk accounts (tag :: UInt8.ofNat k :: Pod.toBytes d)).process K I rt ctx σ =
      Token.process rt ctx accounts (make d) σ :=
  (process_built (interpret_encoded hagrees htag hn hb (makes_calls d))).trans rfl

/-- An instruction of the confidential transfer extension. -/
theorem process_confidentialTransfer {D : Type} [Pod D] {make : D → Instruction} (d : D) (k : ℕ)
    {accounts : List AccountInfo}
    (hb : confidentialTransferInstruction[k]? = some (calls make)) :
    (BuiltInstruction.mk accounts
        (encodeInstruction .confidentialTransferExtension (UInt8.ofNat k) d)).process
        K I rt ctx σ = Token.process rt ctx accounts (make d) σ :=
  process_calls d k agrees_confidentialTransfer (fun _ => rfl) (by decide) hb

/-- An instruction of the confidential transfer fee extension. -/
theorem process_confidentialTransferFee {D : Type} [Pod D] {make : D → Instruction} (d : D)
    (k : ℕ) {accounts : List AccountInfo}
    (hb : confidentialTransferFeeInstruction[k]? = some (calls make)) :
    (BuiltInstruction.mk accounts
        (encodeInstruction .confidentialTransferFeeExtension (UInt8.ofNat k) d)).process
        K I rt ctx σ = Token.process rt ctx accounts (make d) σ :=
  process_calls d k agrees_confidentialTransferFee (fun _ => rfl) (by decide) hb

/-- An instruction of the confidential mint and burn extension. -/
theorem process_confidentialMintBurn {D : Type} [Pod D] {make : D → Instruction} (d : D) (k : ℕ)
    {accounts : List AccountInfo}
    (hb : confidentialMintBurnInstruction[k]? = some (calls make)) :
    (BuiltInstruction.mk accounts
        (encodeInstruction .confidentialMintBurnExtension (UInt8.ofNat k) d)).process
        K I rt ctx σ = Token.process rt ctx accounts (make d) σ :=
  process_calls d k agrees_confidentialMintBurn (fun _ => rfl) (by decide) hb

end Placement

/-! ## The same proofs in other places -/

section SameProofs

variable {K : Conversions} {I : SplInterfaces} {rt : Runtime} {ctx : Context} {σ : Ledger}
  {tokenAccount mint source destination authority : Pubkey} {signers sources : List Pubkey}
  {balance : PodAeCiphertext} {n amount : UInt64} {decimals : UInt8}
  {auditorLo auditorHi : PodElGamalCiphertext} {newKey : PodElGamalPubkey}

section Key

variable {c : PubkeyValidityProofContext} {proof proof' : ProofLocation PubkeyValidityProofContext}

theorem process_innerConfigureAccount :
    (Builder.innerConfigureAccount tokenAccount mint balance n authority signers proof).process
        K I rt ctx σ =
      ConfidentialTransfer.processConfigureAccount ctx (⟨tokenAccount, false⟩ :: ⟨mint, false⟩ ::
        (proof.proofAccounts ++ authorityAccounts authority signers)) balance n
        proof.offset.toInt σ :=
  process_confidentialTransfer
    (⟨balance, n, proof.offset⟩ : ConfigureAccountInstructionData) 2 rfl

theorem configureAccount_placement (h : proof.Shows ctx σ .pubkeyValidity c)
    (h' : proof'.Shows ctx σ .pubkeyValidity c) :
    (Builder.innerConfigureAccount tokenAccount mint balance n authority signers proof).process
        K I rt ctx σ =
      (Builder.innerConfigureAccount tokenAccount mint balance n authority signers proof').process
        K I rt ctx σ := by
  rw [process_innerConfigureAccount, process_innerConfigureAccount]
  simp only [ConfidentialTransfer.processConfigureAccount, extract_proofAccounts h,
    extract_proofAccounts h']

end Key

section Empty

variable {c : ZeroCiphertextProofContext} {proof proof' : ProofLocation ZeroCiphertextProofContext}

theorem process_innerEmptyAccount :
    (Builder.innerEmptyAccount tokenAccount authority signers proof).process K I rt ctx σ =
      ConfidentialTransfer.processEmptyAccount ctx (⟨tokenAccount, false⟩ ::
        (proof.proofAccounts ++ authorityAccounts authority signers)) proof.offset.toInt σ :=
  process_confidentialTransfer proof.offset 4 rfl

theorem emptyAccount_placement (h : proof.Shows ctx σ .zeroCiphertext c)
    (h' : proof'.Shows ctx σ .zeroCiphertext c) :
    (Builder.innerEmptyAccount tokenAccount authority signers proof).process K I rt ctx σ =
      (Builder.innerEmptyAccount tokenAccount authority signers proof').process K I rt ctx σ := by
  rw [process_innerEmptyAccount, process_innerEmptyAccount]
  simp only [ConfidentialTransfer.processEmptyAccount, extract_proofAccounts h,
    extract_proofAccounts h']

end Empty

section Withheld

variable {c : CiphertextCiphertextEqualityProofContext}
  {proof proof' : ProofLocation CiphertextCiphertextEqualityProofContext}

theorem process_innerWithdrawWithheldTokensFromMint :
    (Builder.innerWithdrawWithheldTokensFromMint mint destination balance authority signers
        proof).process K I rt ctx σ =
      ConfidentialTransferFee.processWithdrawWithheldTokensFromMint rt ctx
        (⟨mint, false⟩ :: ⟨destination, false⟩ ::
          (proof.proofAccounts ++ authorityAccounts authority signers)) balance
        proof.offset.toInt σ :=
  process_confidentialTransferFee
    (⟨proof.offset, balance⟩ : WithdrawWithheldTokensFromMintData) 1 rfl

theorem withdrawWithheldFromMint_placement
    (h : proof.Shows ctx σ .ciphertextCiphertextEquality c)
    (h' : proof'.Shows ctx σ .ciphertextCiphertextEquality c) :
    (Builder.innerWithdrawWithheldTokensFromMint mint destination balance authority signers
        proof).process K I rt ctx σ =
      (Builder.innerWithdrawWithheldTokensFromMint mint destination balance authority signers
        proof').process K I rt ctx σ := by
  rw [process_innerWithdrawWithheldTokensFromMint, process_innerWithdrawWithheldTokensFromMint]
  simp only [ConfidentialTransferFee.processWithdrawWithheldTokensFromMint,
    extract_proofAccounts h, extract_proofAccounts h']

theorem process_innerWithdrawWithheldTokensFromAccounts {b : BuiltInstruction}
    (hb : Builder.innerWithdrawWithheldTokensFromAccounts mint destination balance authority
      signers sources proof = .ok b) :
    b.process K I rt ctx σ =
      ConfidentialTransferFee.processWithdrawWithheldTokensFromAccounts rt ctx
        (⟨mint, false⟩ :: ⟨destination, false⟩ :: (proof.proofAccounts ++
          (authorityAccounts authority signers ++ sources.map fun k => ⟨k, false⟩)))
        (UInt8.ofNat sources.length) balance proof.offset.toInt σ := by
  simp only [Builder.innerWithdrawWithheldTokensFromAccounts, bind_eq_ok, exists_unit,
    pure_eq_ok] at hb
  obtain ⟨-, rfl⟩ := hb
  exact process_confidentialTransferFee (⟨UInt8.ofNat sources.length, proof.offset, balance⟩ :
    WithdrawWithheldTokensFromAccountsData) 2 rfl

theorem withdrawWithheldFromAccounts_placement {b b' : BuiltInstruction}
    (hb : Builder.innerWithdrawWithheldTokensFromAccounts mint destination balance authority
      signers sources proof = .ok b)
    (hb' : Builder.innerWithdrawWithheldTokensFromAccounts mint destination balance authority
      signers sources proof' = .ok b')
    (h : proof.Shows ctx σ .ciphertextCiphertextEquality c)
    (h' : proof'.Shows ctx σ .ciphertextCiphertextEquality c) :
    b.process K I rt ctx σ = b'.process K I rt ctx σ := by
  rw [process_innerWithdrawWithheldTokensFromAccounts hb,
    process_innerWithdrawWithheldTokensFromAccounts hb']
  simp only [ConfidentialTransferFee.processWithdrawWithheldTokensFromAccounts,
    extract_proofAccounts h, extract_proofAccounts h']

end Withheld

section Transfers

variable {equality equality' : ProofLocation CiphertextCommitmentEqualityProofContext}
  {validity validity' : ProofLocation BatchedGroupedCiphertext3HandlesValidityProofContext}
  {feeSigma feeSigma' : ProofLocation PercentageWithCapProofContext}
  {feeValidity feeValidity' : ProofLocation BatchedGroupedCiphertext2HandlesValidityProofContext}
  {range range' : ProofLocation BatchedRangeProofContext}
  {c₁ : CiphertextCommitmentEqualityProofContext}
  {c₂ : BatchedGroupedCiphertext3HandlesValidityProofContext} {c₃ : PercentageWithCapProofContext}
  {c₄ : BatchedGroupedCiphertext2HandlesValidityProofContext} {c : BatchedRangeProofContext}

theorem process_innerWithdraw :
    (Builder.innerWithdraw tokenAccount mint amount decimals balance authority signers equality
        range).process K I rt ctx σ =
      ConfidentialTransfer.processWithdraw rt ctx (⟨tokenAccount, false⟩ :: ⟨mint, false⟩ ::
        (sysvarAccounts (equality.isInstructionOffset || range.isInstructionOffset) ++
          (equality.contextAccounts ++ (range.contextAccounts ++
            authorityAccounts authority signers)))) amount decimals balance
        equality.offset.toInt range.offset.toInt σ :=
  process_confidentialTransfer
    (⟨amount, decimals, balance, equality.offset, range.offset⟩ : WithdrawInstructionData) 6 rfl

theorem withdraw_placement
    (h₁ : equality.Shows ctx σ .ciphertextCommitmentEquality c₁)
    (h : range.Shows ctx σ .batchedRangeProofU64 c)
    (h₁' : equality'.Shows ctx σ .ciphertextCommitmentEquality c₁)
    (h' : range'.Shows ctx σ .batchedRangeProofU64 c) :
    (Builder.innerWithdraw tokenAccount mint amount decimals balance authority signers equality
        range).process K I rt ctx σ =
      (Builder.innerWithdraw tokenAccount mint amount decimals balance authority signers equality'
        range').process K I rt ctx σ := by
  rw [process_innerWithdraw, process_innerWithdraw]
  simp only [ConfidentialTransfer.processWithdraw, verifyWithdrawProof_placed h₁ h,
    verifyWithdrawProof_placed h₁' h']

theorem process_innerTransfer :
    (Builder.innerTransfer source mint destination balance auditorLo auditorHi authority signers
        equality validity range).process K I rt ctx σ =
      ConfidentialTransfer.processTransfer rt ctx
        (⟨source, false⟩ :: ⟨mint, false⟩ :: ⟨destination, false⟩ ::
          (sysvarAccounts (equality.isInstructionOffset || validity.isInstructionOffset ||
              range.isInstructionOffset) ++
            (equality.contextAccounts ++ (validity.contextAccounts ++ (range.contextAccounts ++
              authorityAccounts authority signers)))))
        ⟨balance, auditorLo, auditorHi, equality.offset.toInt, validity.offset.toInt, none, none,
          range.offset.toInt⟩ σ :=
  process_confidentialTransfer (⟨balance, auditorLo, auditorHi, equality.offset, validity.offset,
    range.offset⟩ : TransferInstructionData) 7 rfl

/-- A mint with transfer fees answers before it looks at any proof. -/
theorem transfer_placement
    (h₁ : equality.Shows ctx σ .ciphertextCommitmentEquality c₁)
    (h₂ : validity.Shows ctx σ .batchedGroupedCiphertext3HandlesValidity c₂)
    (h : range.Shows ctx σ .batchedRangeProofU128 c)
    (h₁' : equality'.Shows ctx σ .ciphertextCommitmentEquality c₁)
    (h₂' : validity'.Shows ctx σ .batchedGroupedCiphertext3HandlesValidity c₂)
    (h' : range'.Shows ctx σ .batchedRangeProofU128 c) :
    (Builder.innerTransfer source mint destination balance auditorLo auditorHi authority signers
        equality validity range).process K I rt ctx σ =
      (Builder.innerTransfer source mint destination balance auditorLo auditorHi authority signers
        equality' validity' range').process K I rt ctx σ := by
  rw [process_innerTransfer, process_innerTransfer]
  simp only [ConfidentialTransfer.processTransfer, ConfidentialTransfer.transferWithoutFee,
    ConfidentialTransfer.transferWithFee, verifyTransferProof_placed h₁ h₂ h,
    verifyTransferProof_placed h₁' h₂' h', okOr, error_bind]

theorem process_innerTransferWithFee :
    (Builder.innerTransferWithFee source mint destination balance auditorLo auditorHi authority
        signers equality validity feeSigma feeValidity range).process K I rt ctx σ =
      ConfidentialTransfer.processTransfer rt ctx
        (⟨source, false⟩ :: ⟨mint, false⟩ :: ⟨destination, false⟩ ::
          (sysvarAccounts (equality.isInstructionOffset || validity.isInstructionOffset ||
              feeSigma.isInstructionOffset || feeValidity.isInstructionOffset ||
              range.isInstructionOffset) ++
            (equality.contextAccounts ++ (validity.contextAccounts ++ (feeSigma.contextAccounts ++
              (feeValidity.contextAccounts ++ (range.contextAccounts ++
                authorityAccounts authority signers)))))))
        ⟨balance, auditorLo, auditorHi, equality.offset.toInt, validity.offset.toInt,
          some feeSigma.offset.toInt, some feeValidity.offset.toInt, range.offset.toInt⟩ σ :=
  process_confidentialTransfer (⟨balance, auditorLo, auditorHi, equality.offset, validity.offset,
    feeSigma.offset, feeValidity.offset, range.offset⟩ : TransferWithFeeInstructionData) 13 rfl

/-- A mint without transfer fees would read three of the five proofs, and not as the last one. -/
theorem transferWithFee_placement
    (hmint : ∀ m, ConfidentialTransfer.loadChecked σ PodMint mint = .ok m →
      ∃ e, m.getExtension TransferFeeConfig = .ok e)
    (h₁ : equality.Shows ctx σ .ciphertextCommitmentEquality c₁)
    (h₂ : validity.Shows ctx σ .batchedGroupedCiphertext3HandlesValidity c₂)
    (h₃ : feeSigma.Shows ctx σ .percentageWithCap c₃)
    (h₄ : feeValidity.Shows ctx σ .batchedGroupedCiphertext2HandlesValidity c₄)
    (h : range.Shows ctx σ .batchedRangeProofU256 c)
    (h₁' : equality'.Shows ctx σ .ciphertextCommitmentEquality c₁)
    (h₂' : validity'.Shows ctx σ .batchedGroupedCiphertext3HandlesValidity c₂)
    (h₃' : feeSigma'.Shows ctx σ .percentageWithCap c₃)
    (h₄' : feeValidity'.Shows ctx σ .batchedGroupedCiphertext2HandlesValidity c₄)
    (h' : range'.Shows ctx σ .batchedRangeProofU256 c) :
    (Builder.innerTransferWithFee source mint destination balance auditorLo auditorHi authority
        signers equality validity feeSigma feeValidity range).process K I rt ctx σ =
      (Builder.innerTransferWithFee source mint destination balance auditorLo auditorHi authority
        signers equality' validity' feeSigma' feeValidity' range').process K I rt ctx σ := by
  rw [process_innerTransferWithFee, process_innerTransferWithFee]
  simp only [ConfidentialTransfer.processTransfer]
  cases hload : ConfidentialTransfer.loadChecked σ PodMint mint with
  | error e => rfl
  | ok m =>
    obtain ⟨e, he⟩ := hmint m hload
    simp only [ok_bind, he, toOption, ConfidentialTransfer.transferWithFee, okOr,
      verifyTransferWithFeeProof_placed h₁ h₂ h₃ h₄ h,
      verifyTransferWithFeeProof_placed h₁' h₂' h₃' h₄' h']

end Transfers

/-! ## Locations, one after the other -/

section Numbered

variable {U : Type} [Pod U] {t : ProofType} {proof : ProofLocation U} {pushSysvar : Bool}
  {p p' : ProofPlan} {proofs : List ProofInstruction}

theorem processProofLocation_accounts
    (h : p.processProofLocation t proof pushSysvar = .ok p') :
    p'.accounts = p.accounts ++ (sysvarAccounts (pushSysvar && proof.isInstructionOffset) ++
      proof.contextAccounts) := by
  cases proof with
  | instructionOffset offset hne d =>
    simp only [ProofPlan.processProofLocation, bind_eq_ok, exists_unit, pure_eq_ok] at h
    obtain ⟨-, -, rfl⟩ := h
    simp only [ProofLocation.isInstructionOffset, Bool.and_true, ProofLocation.contextAccounts,
      List.append_nil]
  | contextStateAccount k =>
    cases h
    rw [ProofLocation.isInstructionOffset, Bool.and_false]
    rfl

/-- The next proof instruction follows those that there are. -/
def ProofPlan.Numbered (p : ProofPlan) : Prop :=
  p.expectedInstructionOffset.toInt = p.proofInstructions.length + 1

theorem Context.Precedes.of_append (h : ctx.Precedes (p.proofInstructions ++ proofs)) :
    ctx.Precedes p.proofInstructions := by
  intro i q hq
  apply h i q
  rw [List.getElem?_append_left (List.getElem?_eq_some_iff.mp hq).1]
  exact hq

theorem toInt_succ {x : Int8} (h : (x == Int8.maxValue) = false) :
    (x + 1).toInt = x.toInt + 1 := by
  have hlt := Int8.toInt_lt x
  have hle := Int8.le_toInt x
  have hne : x.toInt ≠ 127 := by
    intro hmax
    apply beq_eq_false_iff_ne.mp h
    rw [← Int8.ofInt_toInt x, hmax]
    rfl
  rw [Int8.toInt_add]
  exact Int.bmod_eq_of_le (by simp only [Int8.reduceToInt]; omega) (by
    simp only [Int8.reduceToInt]; omega)

/-- The proof instruction stands where the data says, whatever follows it. -/
theorem processProofLocation_numbered (hp : p.Numbered)
    (h : p.processProofLocation t proof pushSysvar = .ok p') :
    p'.Numbered ∧ (∃ more, p'.proofInstructions = p.proofInstructions ++ more) ∧
      ∀ ctx u, ctx.Precedes p'.proofInstructions → proof.Has σ t u → proof.Shows ctx σ t u := by
  cases proof with
  | instructionOffset offset hne d =>
    simp only [ProofPlan.processProofLocation, bind_eq_ok, exists_unit, pure_eq_ok, failIf_eq_ok,
      bne_eq_false_iff_eq] at h
    obtain ⟨hoffset, hmax, rfl⟩ := h
    refine ⟨?_, ⟨_, rfl⟩, ?_⟩
    · rw [ProofPlan.Numbered, toInt_succ hmax, hp, List.length_append]
      rfl
    · intro ctx u hctx hd
      cases hd
      rw [ProofLocation.Shows, hoffset, hp]
      exact hctx _ _ (by rw [List.getElem?_append_right (le_refl _), Nat.sub_self]; rfl)
  | contextStateAccount k =>
    cases h
    exact ⟨hp, ⟨[], (List.append_nil _).symm⟩, fun _ _ _ h => h⟩

end Numbered

/-! ## Mints and burns -/

section Rotation

variable {c : CiphertextCiphertextEqualityProofContext}
  {proof proof' : ProofLocation CiphertextCiphertextEqualityProofContext} {b b' : Transaction}

theorem process_rotateSupplyElgamalPubkey
    (hb : Builder.rotateSupplyElgamalPubkey mint authority signers newKey proof = .ok b) :
    b.1.process K I rt ctx σ =
      ConfidentialMintBurn.processRotateSupplyElGamalPubkey ctx (⟨mint, false⟩ ::
        (proof.proofAccounts ++ authorityAccounts authority signers)) proof.offset.toInt σ := by
  simp only [Builder.rotateSupplyElgamalPubkey, bind_eq_ok, pure_eq_ok] at hb
  obtain ⟨p, hp, rfl⟩ := hb
  have haccounts : p.accounts ++ authorityAccounts authority signers =
      ⟨mint, false⟩ :: (proof.proofAccounts ++ authorityAccounts authority signers) := by
    rw [processProofLocation_accounts hp]
    cases proof <;> rfl
  rw [haccounts]
  exact (process_built (interpret_encoded (k := 1) agrees_confidentialMintBurn (fun _ => rfl)
    (by decide) rfl
    (.data (⟨newKey, proof.offset⟩ : RotateSupplyElGamalPubkeyData)))).trans rfl

theorem rotateSupply_placement
    (hb : Builder.rotateSupplyElgamalPubkey mint authority signers newKey proof = .ok b)
    (hb' : Builder.rotateSupplyElgamalPubkey mint authority signers newKey proof' = .ok b')
    (h : proof.Shows ctx σ .ciphertextCiphertextEquality c)
    (h' : proof'.Shows ctx σ .ciphertextCiphertextEquality c) :
    b.1.process K I rt ctx σ = b'.1.process K I rt ctx σ := by
  rw [process_rotateSupplyElgamalPubkey hb, process_rotateSupplyElgamalPubkey hb']
  simp only [ConfidentialMintBurn.processRotateSupplyElGamalPubkey, extract_proofAccounts h,
    extract_proofAccounts h']

end Rotation

section Supply

variable {tag : UInt8} {tx tx' : Transaction} {rest : List AccountInfo}
  {equality equality' : ProofLocation CiphertextCommitmentEqualityProofContext}
  {validity validity' : ProofLocation BatchedGroupedCiphertext3HandlesValidityProofContext}
  {range range' : ProofLocation BatchedRangeProofContext}
  {c₁ : CiphertextCommitmentEqualityProofContext}
  {c₂ : BatchedGroupedCiphertext3HandlesValidityProofContext} {c : BatchedRangeProofContext}

/-- The first proof is an instruction if any of the three is. -/
def FirstLeads (equality : ProofLocation CiphertextCommitmentEqualityProofContext)
    (validity : ProofLocation BatchedGroupedCiphertext3HandlesValidityProofContext)
    (range : ProofLocation BatchedRangeProofContext) : Prop :=
  (equality.isInstructionOffset || validity.isInstructionOffset ||
    range.isInstructionOffset) = true → equality.isInstructionOffset = true

theorem amountWithSplitProofs_ok
    (hb : Builder.amountWithSplitProofs tag tokenAccount mint balance auditorLo auditorHi authority
      signers equality validity range = .ok tx) :
    tx.1 = ⟨⟨tokenAccount, false⟩ :: ⟨mint, false⟩ ::
        (sysvarAccounts equality.isInstructionOffset ++ (equality.contextAccounts ++
          (validity.contextAccounts ++ (range.contextAccounts ++
            authorityAccounts authority signers)))),
      encodeInstruction .confidentialMintBurnExtension tag (⟨balance, auditorLo, auditorHi,
        equality.offset, validity.offset, range.offset⟩ : AmountInstructionData)⟩ := by
  simp only [Builder.amountWithSplitProofs, Builder.splitProofPlan, bind_eq_ok, pure_eq_ok] at hb
  obtain ⟨p, ⟨p₁, h₁, p₂, h₂, h⟩, rfl⟩ := hb
  simp only [processProofLocation_accounts h, processProofLocation_accounts h₂,
    processProofLocation_accounts h₁, ProofPlan.start, Bool.true_and, Bool.false_and,
    List.append_assoc]
  rfl

theorem takeAmountProof_found (hlead : FirstLeads equality validity range)
    (h₁ : equality.Shows ctx σ .ciphertextCommitmentEquality c₁)
    (h₂ : validity.Shows ctx σ .batchedGroupedCiphertext3HandlesValidity c₂)
    (h : range.Shows ctx σ .batchedRangeProofU128 c) :
    takeAmountProof ctx σ (equality.offset.toInt != 0) equality.offset.toInt
        validity.offset.toInt range.offset.toInt
        (sysvarAccounts equality.isInstructionOffset ++ (equality.contextAccounts ++
          (validity.contextAccounts ++ (range.contextAccounts ++ rest)))) =
      .ok (⟨c₁, c₂, c⟩, rest) := by
  rw [ProofLocation.offset_bne_zero]
  exact takeAmountProof_placed hlead h₁ h₂ h

/-- An account is taken for the location of an account. -/
theorem extract_account_rest {U : Type} [Pod U] {t : ProofType} {sysvar : Option AccountInfo}
    {info : AccountInfo} {r : U × List AccountInfo}
    (h : verifyAndExtractContext U t ctx σ 0 sysvar (info :: rest) = .ok r) : r.2 = rest := by
  simp only [verifyAndExtractContext, beq_self_eq_true, if_true, bind_eq_ok, exists_unit,
    pure_eq_ok] at h
  obtain ⟨-, s, -, -, rfl⟩ := h
  rfl

/-- No sysvar is at hand, and the next account is not it. -/
theorem extract_without_sysvar {U : Type} [Pod U] {t : ProofType} {offset : Int8}
    {info : AccountInfo} {r : U × List AccountInfo} (hne : offset ≠ 0)
    (hinfo : info.key ≠ Keys.instructionsSysvar) :
    verifyAndExtractContext U t ctx σ offset.toInt none (info :: rest) ≠ .ok r := by
  intro h
  have hzero := beq_eq_false_iff_ne.mpr (ProofLocation.toInt_offset_ne_zero hne)
  simp only [verifyAndExtractContext, hzero, Bool.false_eq_true, if_false, ok_bind, bind_eq_ok,
    exists_unit, failIf_eq_ok, bne_eq_false_iff_eq] at h
  exact hinfo h.1

/-- The builder lists no sysvar, and what the program takes for it is another account. -/
theorem takeAmountProof_lost {r : AmountProof × List AccountInfo}
    (hauthority : authority ≠ Keys.instructionsSysvar)
    (hrange : range ≠ .contextStateAccount Keys.instructionsSysvar)
    (hlead : ¬ FirstLeads equality validity range) :
    takeAmountProof ctx σ (equality.offset.toInt != 0) equality.offset.toInt
        validity.offset.toInt range.offset.toInt
        (sysvarAccounts equality.isInstructionOffset ++ (equality.contextAccounts ++
          (validity.contextAccounts ++ (range.contextAccounts ++
            authorityAccounts authority signers)))) ≠ .ok r := by
  intro h
  cases equality with
  | instructionOffset offset hne d => exact hlead fun _ => rfl
  | contextStateAccount k =>
    simp only [takeAmountProof, bind_eq_ok, Prod.exists] at h
    obtain ⟨sysvar, accounts, htake, e, accounts₁, h₁, v, accounts₂, h₂, g, accounts₃, h₃, -⟩ := h
    cases htake
    cases extract_account_rest h₁
    cases validity with
    | instructionOffset offset hne d =>
      -- the account after the equality proof is taken for the sysvar
      cases range with
      | instructionOffset offset' hne' d' => exact extract_without_sysvar hne hauthority h₂
      | contextStateAccount k' =>
        exact extract_without_sysvar hne (fun hk => hrange (congrArg _ hk)) h₂
    | contextStateAccount k' =>
      cases extract_account_rest h₂
      cases range with
      | instructionOffset offset hne d => exact extract_without_sysvar hne hauthority h₃
      | contextStateAccount k'' => exact hlead fun hnone => hnone

theorem process_confidentialMintWithSplitProofs
    (hb : Builder.amountWithSplitProofs 3 tokenAccount mint balance auditorLo auditorHi authority
      signers equality validity range = .ok tx) :
    tx.1.process K I rt ctx σ =
      ConfidentialMintBurn.processConfidentialMint rt ctx (⟨tokenAccount, false⟩ ::
        ⟨mint, false⟩ :: (sysvarAccounts equality.isInstructionOffset ++
          (equality.contextAccounts ++ (validity.contextAccounts ++ (range.contextAccounts ++
            authorityAccounts authority signers)))))
        ⟨balance, auditorLo, auditorHi, equality.offset.toInt, validity.offset.toInt,
          range.offset.toInt⟩ σ := by
  rw [amountWithSplitProofs_ok hb]
  exact process_confidentialMintBurn (⟨balance, auditorLo, auditorHi, equality.offset,
    validity.offset, range.offset⟩ : AmountInstructionData) 3 rfl

theorem process_confidentialBurnWithSplitProofs
    (hb : Builder.amountWithSplitProofs 4 tokenAccount mint balance auditorLo auditorHi authority
      signers equality validity range = .ok tx) :
    tx.1.process K I rt ctx σ =
      ConfidentialMintBurn.processConfidentialBurn rt ctx (⟨tokenAccount, false⟩ ::
        ⟨mint, false⟩ :: (sysvarAccounts equality.isInstructionOffset ++
          (equality.contextAccounts ++ (validity.contextAccounts ++ (range.contextAccounts ++
            authorityAccounts authority signers)))))
        ⟨balance, auditorLo, auditorHi, equality.offset.toInt, validity.offset.toInt,
          range.offset.toInt⟩ σ := by
  rw [amountWithSplitProofs_ok hb]
  exact process_confidentialMintBurn (⟨balance, auditorLo, auditorHi, equality.offset,
    validity.offset, range.offset⟩ : AmountInstructionData) 4 rfl

theorem splitProofs_placement (htag : tag = 3 ∨ tag = 4)
    (hb : Builder.amountWithSplitProofs tag tokenAccount mint balance auditorLo auditorHi authority
      signers equality validity range = .ok tx)
    (hb' : Builder.amountWithSplitProofs tag tokenAccount mint balance auditorLo auditorHi
      authority signers equality' validity' range' = .ok tx')
    (hlead : FirstLeads equality validity range) (hlead' : FirstLeads equality' validity' range')
    (h₁ : equality.Shows ctx σ .ciphertextCommitmentEquality c₁)
    (h₂ : validity.Shows ctx σ .batchedGroupedCiphertext3HandlesValidity c₂)
    (h : range.Shows ctx σ .batchedRangeProofU128 c)
    (h₁' : equality'.Shows ctx σ .ciphertextCommitmentEquality c₁)
    (h₂' : validity'.Shows ctx σ .batchedGroupedCiphertext3HandlesValidity c₂)
    (h' : range'.Shows ctx σ .batchedRangeProofU128 c) :
    tx.1.process K I rt ctx σ = tx'.1.process K I rt ctx σ := by
  rcases htag with rfl | rfl
  · rw [process_confidentialMintWithSplitProofs hb, process_confidentialMintWithSplitProofs hb']
    simp only [ConfidentialMintBurn.processConfidentialMint, verifyMintProof,
      takeAmountProof_found hlead h₁ h₂ h, takeAmountProof_found hlead' h₁' h₂' h',
      ConfidentialMintBurn.mintedTo, ConfidentialMintBurn.supplyMinted]
  · rw [process_confidentialBurnWithSplitProofs hb, process_confidentialBurnWithSplitProofs hb']
    simp only [ConfidentialMintBurn.processConfidentialBurn, verifyBurnProof,
      takeAmountProof_found hlead h₁ h₂ h, takeAmountProof_found hlead' h₁' h₂' h',
      ConfidentialMintBurn.burnedFrom]

/-- Neither handler gets past its proofs. -/
theorem splitProofs_lost (htag : tag = 3 ∨ tag = 4)
    (hauthority : authority ≠ Keys.instructionsSysvar)
    (hrange : range ≠ .contextStateAccount Keys.instructionsSysvar)
    (hb : Builder.amountWithSplitProofs tag tokenAccount mint balance auditorLo auditorHi authority
      signers equality validity range = .ok tx)
    (hlead : ¬ FirstLeads equality validity range) (σ' : Ledger) :
    tx.1.process K I rt ctx σ ≠ .ok σ' := by
  intro h
  rcases htag with rfl | rfl
  · rw [process_confidentialMintWithSplitProofs hb] at h
    simp only [ConfidentialMintBurn.processConfidentialMint, verifyMintProof, bind_eq_ok] at h
    obtain ⟨-, -, -, -, -, -, -, -, -, ⟨r, hr, -⟩, -⟩ := h
    exact takeAmountProof_lost hauthority hrange hlead hr
  · rw [process_confidentialBurnWithSplitProofs hb] at h
    simp only [ConfidentialMintBurn.processConfidentialBurn, verifyBurnProof, bind_eq_ok] at h
    obtain ⟨-, -, -, -, -, -, -, -, -, ⟨r, hr, -⟩, -⟩ := h
    exact takeAmountProof_lost hauthority hrange hlead hr

/-- In the transaction that was built, the locations lead to the proofs. -/
theorem amountWithSplitProofs_shows
    (hb : Builder.amountWithSplitProofs tag tokenAccount mint balance auditorLo auditorHi authority
      signers equality validity range = .ok tx) (hctx : ctx.Precedes tx.2)
    (h₁ : equality.Has σ .ciphertextCommitmentEquality c₁)
    (h₂ : validity.Has σ .batchedGroupedCiphertext3HandlesValidity c₂)
    (h : range.Has σ .batchedRangeProofU128 c) :
    equality.Shows ctx σ .ciphertextCommitmentEquality c₁ ∧
      validity.Shows ctx σ .batchedGroupedCiphertext3HandlesValidity c₂ ∧
      range.Shows ctx σ .batchedRangeProofU128 c := by
  simp only [Builder.amountWithSplitProofs, Builder.splitProofPlan, bind_eq_ok, pure_eq_ok] at hb
  obtain ⟨p, ⟨p₁, hp₁, p₂, hp₂, hp⟩, rfl⟩ := hb
  have hstart : (ProofPlan.start [⟨tokenAccount, false⟩, ⟨mint, false⟩]).Numbered := rfl
  obtain ⟨hn₁, -, hshow₁⟩ := processProofLocation_numbered hstart hp₁
  obtain ⟨hn₂, ⟨m₂, hm₂⟩, hshow₂⟩ := processProofLocation_numbered hn₁ hp₂
  obtain ⟨-, ⟨m, hm⟩, hshow⟩ := processProofLocation_numbered hn₂ hp
  have hctx₂ : ctx.Precedes p₂.proofInstructions := .of_append (hm ▸ hctx)
  have hctx₁ : ctx.Precedes p₁.proofInstructions := .of_append (hm₂ ▸ hctx₂)
  exact ⟨hshow₁ _ _ hctx₁ h₁, hshow₂ _ _ hctx₂ h₂, hshow _ _ hctx h⟩

/-- A mint or a burn finds its three proofs, wherever the client has put them, if the first is an
instruction or none is. Otherwise the instruction that was built never succeeds. -/
theorem split_proofs_found (htag : tag = 3 ∨ tag = 4)
    (hauthority : authority ≠ Keys.instructionsSysvar)
    (hrange : range ≠ .contextStateAccount Keys.instructionsSysvar)
    (hb : Builder.amountWithSplitProofs tag tokenAccount mint balance auditorLo auditorHi authority
      signers equality validity range = .ok tx) :
    (FirstLeads equality validity range → ∀ ctx σ c₁ c₂ c, ctx.Precedes tx.2 →
      equality.Has σ .ciphertextCommitmentEquality c₁ →
      validity.Has σ .batchedGroupedCiphertext3HandlesValidity c₂ →
      range.Has σ .batchedRangeProofU128 c →
      takeAmountProof ctx σ (equality.offset.toInt != 0) equality.offset.toInt
          validity.offset.toInt range.offset.toInt (tx.1.accounts.drop 2) =
        .ok (⟨c₁, c₂, c⟩, authorityAccounts authority signers)) ∧
    (¬ FirstLeads equality validity range → ∀ K I rt ctx σ σ',
      tx.1.process K I rt ctx σ ≠ .ok σ') := by
  constructor
  · intro hlead ctx σ c₁ c₂ c hctx h₁ h₂ h
    obtain ⟨hs₁, hs₂, hs⟩ := amountWithSplitProofs_shows hb hctx h₁ h₂ h
    rw [amountWithSplitProofs_ok hb]
    exact takeAmountProof_found hlead hs₁ hs₂ hs
  · intro hlead K I rt ctx σ σ'
    exact splitProofs_lost htag hauthority hrange hb hlead σ'

def plainValidity : BatchedGroupedCiphertext3HandlesValidityProofContext :=
  ⟨1, 2, 3, ⟨0, 0, 0, 0⟩, ⟨0, 0, 0, 0⟩⟩

/-- Two proofs were verified before, and the one between them rides along. -/
def mixedMint : Result Transaction :=
  Builder.confidentialMintWithSplitProofs 1 2 0 .zeroed .zeroed 3 [] (.contextStateAccount 4)
    (.instructionOffset 1 (by decide) plainValidity) (.contextStateAccount 5)

theorem split_proofs_found_stuck : ∃ tx, mixedMint = .ok tx ∧
    ∀ K I rt ctx σ σ', tx.1.process K I rt ctx σ ≠ .ok σ' := by
  have hbuilt : ∃ tx, mixedMint = .ok tx := ⟨_, rfl⟩
  obtain ⟨tx, hb⟩ := hbuilt
  have hlast : (.contextStateAccount 5 : ProofLocation BatchedRangeProofContext) ≠
      .contextStateAccount Keys.instructionsSysvar := by
    intro h
    exact absurd (ProofLocation.contextStateAccount.inj h) (by decide)
  refine ⟨tx, hb, (split_proofs_found (.inl rfl) (by decide) hlast hb).2 ?_⟩
  intro h
  exact Bool.false_ne_true (h rfl)

end Supply

end SameProofs

/-- Two instructions built for the same request, whose proofs are in other places but have the
same contexts. -/
inductive Replaced (ctx : Context) (σ : Ledger) : BuiltInstruction → BuiltInstruction → Prop
  | configureAccount {tokenAccount mint authority : Pubkey} {balance : PodAeCiphertext}
      {n : UInt64} {signers : List Pubkey} {c : PubkeyValidityProofContext}
      {proof proof' : ProofLocation PubkeyValidityProofContext}
      (h : proof.Shows ctx σ .pubkeyValidity c) (h' : proof'.Shows ctx σ .pubkeyValidity c) :
      Replaced ctx σ
        (Builder.innerConfigureAccount tokenAccount mint balance n authority signers proof)
        (Builder.innerConfigureAccount tokenAccount mint balance n authority signers proof')
  | emptyAccount {tokenAccount authority : Pubkey} {signers : List Pubkey}
      {c : ZeroCiphertextProofContext} {proof proof' : ProofLocation ZeroCiphertextProofContext}
      (h : proof.Shows ctx σ .zeroCiphertext c) (h' : proof'.Shows ctx σ .zeroCiphertext c) :
      Replaced ctx σ (Builder.innerEmptyAccount tokenAccount authority signers proof)
        (Builder.innerEmptyAccount tokenAccount authority signers proof')
  | withdrawWithheldTokensFromMint {mint destination authority : Pubkey}
      {balance : PodAeCiphertext} {signers : List Pubkey}
      {c : CiphertextCiphertextEqualityProofContext}
      {proof proof' : ProofLocation CiphertextCiphertextEqualityProofContext}
      (h : proof.Shows ctx σ .ciphertextCiphertextEquality c)
      (h' : proof'.Shows ctx σ .ciphertextCiphertextEquality c) :
      Replaced ctx σ
        (Builder.innerWithdrawWithheldTokensFromMint mint destination balance authority signers
          proof)
        (Builder.innerWithdrawWithheldTokensFromMint mint destination balance authority signers
          proof')
  | withdrawWithheldTokensFromAccounts {mint destination authority : Pubkey}
      {balance : PodAeCiphertext} {signers sources : List Pubkey} {b b' : BuiltInstruction}
      {c : CiphertextCiphertextEqualityProofContext}
      {proof proof' : ProofLocation CiphertextCiphertextEqualityProofContext}
      (hb : Builder.innerWithdrawWithheldTokensFromAccounts mint destination balance authority
        signers sources proof = .ok b)
      (hb' : Builder.innerWithdrawWithheldTokensFromAccounts mint destination balance authority
        signers sources proof' = .ok b')
      (h : proof.Shows ctx σ .ciphertextCiphertextEquality c)
      (h' : proof'.Shows ctx σ .ciphertextCiphertextEquality c) : Replaced ctx σ b b'
  | withdraw {tokenAccount mint authority : Pubkey} {amount : UInt64} {decimals : UInt8}
      {balance : PodAeCiphertext} {signers : List Pubkey}
      {equality equality' : ProofLocation CiphertextCommitmentEqualityProofContext}
      {range range' : ProofLocation BatchedRangeProofContext}
      {c₁ : CiphertextCommitmentEqualityProofContext} {c : BatchedRangeProofContext}
      (h₁ : equality.Shows ctx σ .ciphertextCommitmentEquality c₁)
      (h : range.Shows ctx σ .batchedRangeProofU64 c)
      (h₁' : equality'.Shows ctx σ .ciphertextCommitmentEquality c₁)
      (h' : range'.Shows ctx σ .batchedRangeProofU64 c) :
      Replaced ctx σ
        (Builder.innerWithdraw tokenAccount mint amount decimals balance authority signers
          equality range)
        (Builder.innerWithdraw tokenAccount mint amount decimals balance authority signers
          equality' range')
  | transfer {source mint destination authority : Pubkey} {balance : PodAeCiphertext}
      {auditorLo auditorHi : PodElGamalCiphertext} {signers : List Pubkey}
      {equality equality' : ProofLocation CiphertextCommitmentEqualityProofContext}
      {validity validity' : ProofLocation BatchedGroupedCiphertext3HandlesValidityProofContext}
      {range range' : ProofLocation BatchedRangeProofContext}
      {c₁ : CiphertextCommitmentEqualityProofContext}
      {c₂ : BatchedGroupedCiphertext3HandlesValidityProofContext} {c : BatchedRangeProofContext}
      (h₁ : equality.Shows ctx σ .ciphertextCommitmentEquality c₁)
      (h₂ : validity.Shows ctx σ .batchedGroupedCiphertext3HandlesValidity c₂)
      (h : range.Shows ctx σ .batchedRangeProofU128 c)
      (h₁' : equality'.Shows ctx σ .ciphertextCommitmentEquality c₁)
      (h₂' : validity'.Shows ctx σ .batchedGroupedCiphertext3HandlesValidity c₂)
      (h' : range'.Shows ctx σ .batchedRangeProofU128 c) :
      Replaced ctx σ
        (Builder.innerTransfer source mint destination balance auditorLo auditorHi authority
          signers equality validity range)
        (Builder.innerTransfer source mint destination balance auditorLo auditorHi authority
          signers equality' validity' range')
  | transferWithFee {source mint destination authority : Pubkey} {balance : PodAeCiphertext}
      {auditorLo auditorHi : PodElGamalCiphertext} {signers : List Pubkey}
      {equality equality' : ProofLocation CiphertextCommitmentEqualityProofContext}
      {validity validity' : ProofLocation BatchedGroupedCiphertext3HandlesValidityProofContext}
      {feeSigma feeSigma' : ProofLocation PercentageWithCapProofContext}
      {feeValidity feeValidity' :
        ProofLocation BatchedGroupedCiphertext2HandlesValidityProofContext}
      {range range' : ProofLocation BatchedRangeProofContext}
      {c₁ : CiphertextCommitmentEqualityProofContext}
      {c₂ : BatchedGroupedCiphertext3HandlesValidityProofContext}
      {c₃ : PercentageWithCapProofContext}
      {c₄ : BatchedGroupedCiphertext2HandlesValidityProofContext} {c : BatchedRangeProofContext}
      (hmint : ∀ m, ConfidentialTransfer.loadChecked σ PodMint mint = .ok m →
        ∃ e, m.getExtension TransferFeeConfig = .ok e)
      (h₁ : equality.Shows ctx σ .ciphertextCommitmentEquality c₁)
      (h₂ : validity.Shows ctx σ .batchedGroupedCiphertext3HandlesValidity c₂)
      (h₃ : feeSigma.Shows ctx σ .percentageWithCap c₃)
      (h₄ : feeValidity.Shows ctx σ .batchedGroupedCiphertext2HandlesValidity c₄)
      (h : range.Shows ctx σ .batchedRangeProofU256 c)
      (h₁' : equality'.Shows ctx σ .ciphertextCommitmentEquality c₁)
      (h₂' : validity'.Shows ctx σ .batchedGroupedCiphertext3HandlesValidity c₂)
      (h₃' : feeSigma'.Shows ctx σ .percentageWithCap c₃)
      (h₄' : feeValidity'.Shows ctx σ .batchedGroupedCiphertext2HandlesValidity c₄)
      (h' : range'.Shows ctx σ .batchedRangeProofU256 c) :
      Replaced ctx σ
        (Builder.innerTransferWithFee source mint destination balance auditorLo auditorHi
          authority signers equality validity feeSigma feeValidity range)
        (Builder.innerTransferWithFee source mint destination balance auditorLo auditorHi
          authority signers equality' validity' feeSigma' feeValidity' range')
  | rotateSupply {mint authority : Pubkey} {signers : List Pubkey} {newKey : PodElGamalPubkey}
      {tx tx' : Transaction} {c : CiphertextCiphertextEqualityProofContext}
      {proof proof' : ProofLocation CiphertextCiphertextEqualityProofContext}
      (hb : Builder.rotateSupplyElgamalPubkey mint authority signers newKey proof = .ok tx)
      (hb' : Builder.rotateSupplyElgamalPubkey mint authority signers newKey proof' = .ok tx')
      (h : proof.Shows ctx σ .ciphertextCiphertextEquality c)
      (h' : proof'.Shows ctx σ .ciphertextCiphertextEquality c) : Replaced ctx σ tx.1 tx'.1
  | splitProofs {tag : UInt8} {tokenAccount mint authority : Pubkey} {balance : PodAeCiphertext}
      {auditorLo auditorHi : PodElGamalCiphertext} {signers : List Pubkey} {tx tx' : Transaction}
      {equality equality' : ProofLocation CiphertextCommitmentEqualityProofContext}
      {validity validity' : ProofLocation BatchedGroupedCiphertext3HandlesValidityProofContext}
      {range range' : ProofLocation BatchedRangeProofContext}
      {c₁ : CiphertextCommitmentEqualityProofContext}
      {c₂ : BatchedGroupedCiphertext3HandlesValidityProofContext} {c : BatchedRangeProofContext}
      (htag : tag = 3 ∨ tag = 4)
      (hb : Builder.amountWithSplitProofs tag tokenAccount mint balance auditorLo auditorHi
        authority signers equality validity range = .ok tx)
      (hb' : Builder.amountWithSplitProofs tag tokenAccount mint balance auditorLo auditorHi
        authority signers equality' validity' range' = .ok tx')
      (hlead : FirstLeads equality validity range)
      (hlead' : FirstLeads equality' validity' range')
      (h₁ : equality.Shows ctx σ .ciphertextCommitmentEquality c₁)
      (h₂ : validity.Shows ctx σ .batchedGroupedCiphertext3HandlesValidity c₂)
      (h : range.Shows ctx σ .batchedRangeProofU128 c)
      (h₁' : equality'.Shows ctx σ .ciphertextCommitmentEquality c₁)
      (h₂' : validity'.Shows ctx σ .batchedGroupedCiphertext3HandlesValidity c₂)
      (h' : range'.Shows ctx σ .batchedRangeProofU128 c) : Replaced ctx σ tx.1 tx'.1

/-- Where a client puts its proofs makes no difference to the program. -/
theorem placement_irrelevant {K : Conversions} {I : SplInterfaces} {rt : Runtime} {ctx : Context}
    {σ : Ledger} {b b' : BuiltInstruction} (h : Replaced ctx σ b b') :
    b.process K I rt ctx σ = b'.process K I rt ctx σ := by
  cases h with
  | configureAccount h h' => exact configureAccount_placement h h'
  | emptyAccount h h' => exact emptyAccount_placement h h'
  | withdrawWithheldTokensFromMint h h' => exact withdrawWithheldFromMint_placement h h'
  | withdrawWithheldTokensFromAccounts hb hb' h h' =>
    exact withdrawWithheldFromAccounts_placement hb hb' h h'
  | withdraw h₁ h h₁' h' => exact withdraw_placement h₁ h h₁' h'
  | transfer h₁ h₂ h h₁' h₂' h' => exact transfer_placement h₁ h₂ h h₁' h₂' h'
  | transferWithFee hmint h₁ h₂ h₃ h₄ h h₁' h₂' h₃' h₄' h' =>
    exact transferWithFee_placement hmint h₁ h₂ h₃ h₄ h h₁' h₂' h₃' h₄' h'
  | rotateSupply hb hb' h h' => exact rotateSupply_placement hb hb' h h'
  | splitProofs htag hb hb' hlead hlead' h₁ h₂ h h₁' h₂' h' =>
    exact splitProofs_placement htag hb hb' hlead hlead' h₁ h₂ h h₁' h₂' h'

/-- The key is proved by the next instruction, and was proved before for account 9. -/
def provedContext : Context :=
  { Context.plain with
    getInstructionRelative := fun _ =>
      some (.verifying .pubkeyValidity (⟨3⟩ : PubkeyValidityProofContext)) }

def provedLedger : Ledger :=
  (scripted (.modular 2)
    [(.plain, [⟨1, false⟩], .initializeConfidentialTransferMint ⟨0⟩ (.ofBool true) ⟨0⟩),
     (.plain, [⟨1, false⟩], .initializeMint2 6 5 none),
     (.plain, [⟨2, false⟩, ⟨1, false⟩], .initializeAccount3 7)]
    (blank [(1, 235), (2, 465)])).set 9 ⟨0, Keys.zkProofProgram, Pod.toBytes
      (⟨0, ProofType.pubkeyValidity.toU8, ⟨3⟩⟩ : ProofContextState PubkeyValidityProofContext)⟩

/-- The same account is configured. -/
theorem placement_irrelevant_configured : ∃ σ',
    (Builder.innerConfigureAccount 2 1 0 10 7 [] (.instructionOffset 1 (by decide) ⟨3⟩)).process
        Conversions.none splInterfaces (.modular 2) provedContext provedLedger = .ok σ' ∧
      (Builder.innerConfigureAccount 2 1 0 10 7 [] (.contextStateAccount 9)).process
        Conversions.none splInterfaces (.modular 2) provedContext provedLedger = .ok σ' := by
  have hsome : (toOption ((Builder.innerConfigureAccount 2 1 0 10 7 []
      (.instructionOffset 1 (by decide) ⟨3⟩)).process Conversions.none splInterfaces (.modular 2)
      provedContext provedLedger)).isSome = true := by
    decide +kernel
  obtain ⟨σ', h⟩ := Option.isSome_iff_exists.mp hsome
  have hrides := toOption_eq_some.mp h
  refine ⟨σ', hrides, ?_⟩
  rw [← hrides]
  exact placement_irrelevant (.configureAccount (c := ⟨3⟩) ⟨rfl, 0, rfl⟩ rfl)

end SolanaEasy.Token
