import SolanaEasy.Token.Refine.TokenMetadata

/-!
# Refinement — the program

Every successful instruction, whichever it is, takes a well-formed ledger to one, and
what it does to the book is a course.
-/

namespace SolanaEasy.Token

open Processor

variable {rt : Runtime} {c : Call} {σ' : Ledger}

theorem Refines.course (h : Refines rt c c.σ σ') (other : c.instruction.trades = false) :
    σ'.Wf ∧ Course rt c c.σ.book σ'.book := ⟨h.wf, .moves other h.moves⟩

theorem Call.given_of_mem (info : AccountInfo) (h : info ∈ c.accounts) : c.Given info.key :=
  ⟨info, h, rfl⟩

theorem Call.key?_zero {info : AccountInfo} {rest : List AccountInfo}
    (h : c.accounts = info :: rest) : c.key? 0 = some info.key := by
  rw [key?, h]
  rfl

theorem Call.key?_one {info info' : AccountInfo} {rest : List AccountInfo}
    (h : c.accounts = info :: info' :: rest) : c.key? 1 = some info'.key := by
  rw [key?, h]
  rfl

theorem Call.resets_head {info : AccountInfo} {rest : List AccountInfo}
    (h : c.accounts = info :: rest)
    (hi : match c.instruction with
      | .approve _ | .approveChecked .. | .revoke | .setAuthority .accountOwner _ => True
      | _ => False) : c.Resets info.key := ⟨key?_zero h, hi⟩

theorem Call.initializes_head {info : AccountInfo} {rest : List AccountInfo} {m : View PodMint}
    {s : PodState PodMint} (h : c.accounts = info :: rest)
    (hs : unpackUninitialized PodMint (c.σ info.key).data = .ok s) (hm : m.ext = s.view.ext)
    (hi : match c.instruction with
      | .initializeMint .. | .initializeMint2 .. => True
      | _ => False) : c.Initializes info.key m := ⟨key?_zero h, ⟨s, hs, hm⟩, hi⟩

/-- The program refines the abstract model. -/
theorem run_course (hwf : c.σ.Wf) (h : c.run rt = .ok σ') :
    σ'.Wf ∧ Course rt c c.σ.book σ'.book := by
  have hgiven := c.given_of_mem
  have hother : ∀ {i}, c.instruction = i → i.trades = false → Refines rt c c.σ σ' →
      σ'.Wf ∧ Course rt c c.σ.book σ'.book := fun hi ht hr => hr.course (hi ▸ ht)
  rw [Call.run] at h
  cases hi : c.instruction <;> rw [hi] at h
  -- the base program
  case initializeMint | initializeMint2 =>
    exact hother hi rfl (initializeMint_refines hwf
      (fun _ _ _ _ ha hs hm => Call.initializes_head ha hs hm (by rw [hi]; trivial)) h)
  case initializeAccount =>
    exact hother hi rfl (processInitializeAccount_refines hwf
        (by rw [Call.isInitializeAccount, hi]) h)
  case initializeAccount2 =>
    exact hother hi rfl (processInitializeAccount2_refines hwf
        (by rw [Call.isInitializeAccount, hi]) h)
  case initializeAccount3 =>
    exact hother hi rfl (processInitializeAccount3_refines hwf
        (by rw [Call.isInitializeAccount, hi]) h)
  case initializeMultisig | initializeMultisig2 =>
    exact hother hi rfl (initializeMultisig_refines hwf h)
  case transfer | transferChecked | transferCheckedWithFee =>
    exact processTransfer_course hwf (by rw [hi]; rfl) (by rw [Call.isBurn, hi]) (by rw [hi]; rfl)
      (by rw [hi]; rfl) h
  case approve | approveChecked =>
    exact hother hi rfl (processApprove_refines hwf
      (fun _ _ ha => Call.resets_head ha (by rw [hi]; trivial)) h)
  case revoke =>
    exact hother hi rfl (processRevoke_refines hwf
      (fun _ _ ha => Call.resets_head ha (by rw [hi]; trivial)) h)
  case setAuthority =>
    refine hother hi rfl (processSetAuthority_refines hwf (fun _ _ ha ht => ?_) h)
    exact Call.resets_head ha (by rw [hi, ht]; trivial)
  case mintTo | mintToChecked =>
    exact processMintTo_course hwf (by rw [hi]; rfl) (by rw [hi]; rfl) (by rw [hi]; rfl) h
  case burn | burnChecked =>
    exact processBurn_course hwf (by rw [hi]; rfl) (by rw [Call.isBurn, hi]) (by rw [hi]; rfl) h
  case closeAccount =>
    exact hother hi rfl (processCloseAccount_refines hwf hgiven
      (fun _ _ ha => ⟨Call.key?_zero ha, hi⟩) (fun _ _ _ ha => Call.key?_one ha) h)
  case freezeAccount =>
    exact hother hi rfl (processToggleFreezeAccount_refines hwf (fun hf => by cases hf) h)
  case thawAccount =>
    exact hother hi rfl (processToggleFreezeAccount_refines hwf (fun _ => hi) h)
  case syncNative => exact hother hi rfl (processSyncNative_refines hwf h)
  case getAccountDataSize =>
    simp only [process, bind_eq_ok, pure_eq_ok] at h
    obtain ⟨_, _, rfl⟩ := h
    exact hother hi rfl (.refl hwf)
  case initializeMintCloseAuthority =>
    exact hother hi rfl (processInitializeMintCloseAuthority_refines hwf h)
  case initializeImmutableOwner =>
    exact hother hi rfl (processInitializeImmutableOwner_refines hwf h)
  case reallocate => exact hother hi rfl (processReallocate_refines hwf hgiven h)
  case createNativeMint => exact hother hi rfl (processCreateNativeMint_refines hwf hi hgiven h)
  case initializeNonTransferableMint =>
    exact hother hi rfl (processInitializeNonTransferableMint_refines hwf h)
  case initializePermanentDelegate =>
    exact hother hi rfl (processInitializePermanentDelegate_refines hwf h)
  case withdrawExcessLamports =>
    exact hother hi rfl (processWithdrawExcessLamports_refines hwf hgiven h)
  -- fees and settings
  case initializeTransferFeeConfig =>
    exact hother hi rfl (TransferFee.processInitializeTransferFeeConfig_refines hwf h)
  case withdrawWithheldTokensFromMint =>
    exact hother hi rfl (TransferFee.processWithdrawWithheldTokensFromMint_refines hwf
        (by rw [hi]; rfl) h)
  case withdrawWithheldTokensFromAccounts =>
    exact hother hi rfl (TransferFee.processWithdrawWithheldTokensFromAccounts_refines hwf
        (by rw [hi]; rfl) h)
  case harvestWithheldTokensToMint =>
    exact hother hi rfl (TransferFee.processHarvestWithheldTokensToMint_refines hwf h)
  case setTransferFee =>
    exact hother hi rfl (TransferFee.processSetTransferFee_refines hwf hi h)
  case initializeDefaultAccountState =>
    exact hother hi rfl (processInitializeDefaultAccountState_refines hwf h)
  case updateDefaultAccountState =>
    exact hother hi rfl (processUpdateDefaultAccountState_refines hwf h)
  case requiredMemoTransfers =>
    exact hother hi rfl (processToggleRequiredMemoTransfers_refines hwf h)
  case cpiGuard => exact hother hi rfl (processToggleCpiGuard_refines hwf hi h)
  case initializeInterestBearingMint =>
    exact hother hi rfl (InterestBearingMint.processInitialize_refines hwf h)
  case updateRate =>
    exact hother hi rfl (InterestBearingMint.processUpdateRate_refines hwf (by rw [hi]; rfl) h)
  case initializeTransferHook => exact hother hi rfl (TransferHook.processInitialize_refines hwf h)
  case updateTransferHook => exact hother hi rfl (TransferHook.processUpdate_refines hwf h)
  case initializeMetadataPointer =>
    exact hother hi rfl (MetadataPointer.processInitialize_refines hwf h)
  case updateMetadataPointer => exact hother hi rfl (MetadataPointer.processUpdate_refines hwf h)
  case initializeGroupPointer => exact hother hi rfl (GroupPointer.processInitialize_refines hwf h)
  case updateGroupPointer => exact hother hi rfl (GroupPointer.processUpdate_refines hwf h)
  case initializeGroupMemberPointer =>
    exact hother hi rfl (GroupMemberPointer.processInitialize_refines hwf h)
  case updateGroupMemberPointer =>
    exact hother hi rfl (GroupMemberPointer.processUpdate_refines hwf h)
  case initializeScaledUiAmount =>
    exact hother hi rfl (ScaledUiAmount.processInitialize_refines hwf h)
  case updateMultiplier =>
    exact hother hi rfl (ScaledUiAmount.processUpdateMultiplier_refines hwf (by rw [hi]; rfl) h)
  case initializePausable => exact hother hi rfl (Pausable.processInitialize_refines hwf h)
  case pause => exact hother hi rfl (Pausable.processTogglePause_refines (b := true) hwf hi h)
  case resume => exact hother hi rfl (Pausable.processTogglePause_refines (b := false) hwf hi h)
  -- hidden balances
  case initializeConfidentialTransferMint =>
    exact hother hi rfl (ConfidentialTransfer.processInitializeMint_refines hwf h)
  case updateConfidentialTransferMint =>
    exact hother hi rfl (ConfidentialTransfer.processUpdateMint_refines hwf h)
  case configureAccount =>
    exact hother hi rfl (ConfidentialTransfer.processConfigureAccount_refines hwf
        (by rw [hi]; rfl) h)
  case configureAccountWithRegistry =>
    exact hother hi rfl (ConfidentialTransfer.processConfigureAccountWithRegistry_refines hwf
        (by rw [hi]; rfl) h)
  case approveAccount =>
    exact hother hi rfl (ConfidentialTransfer.processApproveAccount_refines hwf h)
  case emptyAccount => exact hother hi rfl (ConfidentialTransfer.processEmptyAccount_refines hwf h)
  case deposit =>
    exact (ConfidentialTransfer.processDeposit_converts hwf (by rw [hi]; rfl) (by rw [hi]; rfl)
      h).course (by rw [hi]; rfl)
  case withdraw =>
    exact (ConfidentialTransfer.processWithdraw_converts hwf (by rw [hi]; rfl) (by rw [hi]; rfl)
      h).course (by rw [hi]; rfl)
  case confidentialTransfer =>
    exact ConfidentialTransfer.processTransfer_course hwf (by rw [hi]; rfl) (by rw [hi]; rfl)
      (by rw [hi]; rfl) h
  case applyPendingBalance =>
    exact hother hi rfl (ConfidentialTransfer.processApplyPendingBalance_refines hwf hi h)
  case confidentialCredits =>
    exact hother hi rfl (ConfidentialTransfer.processAllowConfidentialCredits_refines hwf h)
  case nonConfidentialCredits =>
    exact hother hi rfl (ConfidentialTransfer.processAllowNonConfidentialCredits_refines hwf h)
  case initializeConfidentialTransferFeeConfig =>
    exact hother hi rfl
      (ConfidentialTransferFee.processInitializeConfidentialTransferFeeConfig_refines hwf h)
  case confidentialWithdrawWithheldTokensFromMint =>
    exact hother hi rfl
      (ConfidentialTransferFee.processWithdrawWithheldTokensFromMint_refines hwf
          (by rw [hi]; rfl) h)
  case confidentialWithdrawWithheldTokensFromAccounts =>
    exact hother hi rfl
      (ConfidentialTransferFee.processWithdrawWithheldTokensFromAccounts_refines hwf
          (by rw [hi]; rfl) h)
  case confidentialHarvestWithheldTokensToMint =>
    exact hother hi rfl
      (ConfidentialTransferFee.processHarvestWithheldTokensToMint_refines hwf h)
  case harvestToMint enable =>
    cases enable <;> exact hother hi rfl (ConfidentialTransferFee.toggleHarvestToMint_refines hwf h)
  case initializeConfidentialMintBurn =>
    exact hother hi rfl (ConfidentialMintBurn.processInitializeMint_refines hwf h)
  case rotateSupplyElGamalPubkey =>
    exact hother hi rfl (ConfidentialMintBurn.processRotateSupplyElGamalPubkey_refines hwf h)
  case updateDecryptableSupply =>
    exact hother hi rfl (ConfidentialMintBurn.processUpdateDecryptableSupply_refines hwf h)
  case confidentialMint =>
    exact ConfidentialMintBurn.processConfidentialMint_course hwf (by rw [hi]; rfl)
      (by rw [hi]; rfl) (by rw [hi]; rfl) h
  case confidentialBurn =>
    exact ConfidentialMintBurn.processConfidentialBurn_course hwf (by rw [hi]; rfl)
      (by rw [hi]; rfl) (by rw [hi]; rfl) h
  case applyPendingBurn =>
    exact hother hi rfl (ConfidentialMintBurn.processApplyPendingBurn_refines hwf h)
  -- records
  case initializeTokenMetadata =>
    exact hother hi rfl (TokenMetadata.processInitialize_refines hwf h)
  case updateTokenMetadataField | removeTokenMetadataKey | updateTokenMetadataAuthority =>
    exact hother hi rfl (TokenMetadata.rewrite_refines hwf h)
  case initializeGroup =>
    exact hother hi rfl (TokenGroup.processInitializeGroup_refines hwf (by rw [hi]; rfl) h)
  case updateGroupMaxSize =>
    exact hother hi rfl (TokenGroup.processUpdateGroupMaxSize_refines hwf (by rw [hi]; rfl) h)
  case updateGroupAuthority =>
    exact hother hi rfl (TokenGroup.processUpdateGroupAuthority_refines hwf (by rw [hi]; rfl) h)
  case initializeMember =>
    exact hother hi rfl (TokenGroup.processInitializeMember_refines hwf (by rw [hi]; rfl)
        (by rw [hi]; rfl)
      h)

end SolanaEasy.Token
