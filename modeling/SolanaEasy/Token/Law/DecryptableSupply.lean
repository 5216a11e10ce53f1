import SolanaEasy.Token.Confidential.AccountInfo
import SolanaEasy.Token.Honest
import SolanaEasy.Token.Law.ConfidentialFee
import SolanaEasy.Token.Law.NoWrap
import SolanaEasy.Token.Records

/-!
# Decryptable supply — how far the mint authority's figure may run ahead

A mint with confidential minting and burning keeps its supply twice: as a ciphertext, and as
a figure that the authority encrypted for itself. Burns are subtracted from the ciphertext
alone, and the authority finds what is missing by a search among the numbers of 32 bits.
-/

namespace SolanaEasy.Token

open Processor Processor.ConfidentialMintBurn ElGamal

/-! ## What the handlers leave -/

section Handlers

variable {rt : Runtime} {ctx : Context} {c : Call} {σ σ' : Ledger} {M : Pubkey} {m : View PodMint}
  {accounts rest : List AccountInfo} {tokenInfo mintInfo : AccountInfo}

theorem Call.accounts_of_key?_zero (h : c.key? 0 = some M) :
    ∃ info rest, c.accounts = info :: rest ∧ info.key = M := by
  rw [c.key?_zero_eq, Option.map_eq_some_iff] at h
  obtain ⟨info, hinfo, hkey⟩ := h
  obtain ⟨rest, haccounts⟩ := List.head?_eq_some_iff.mp hinfo
  exact ⟨info, rest, haccounts, hkey⟩

theorem Call.accounts_of_key?_one (h : c.key? 1 = some M) :
    ∃ first info rest, c.accounts = first :: info :: rest ∧ info.key = M := by
  obtain ⟨info, hinfo, hkey⟩ := Option.map_eq_some_iff.mp h
  rcases haccounts : c.accounts with _ | ⟨first, _ | ⟨second, rest⟩⟩
  · rw [haccounts] at hinfo
    cases hinfo
  · rw [haccounts] at hinfo
    cases hinfo
  · rw [haccounts] at hinfo
    exact ⟨first, second, rest, rfl, (Option.some.inj hinfo) ▸ hkey⟩

/-- The mint that a handler has read. -/
theorem view_of_load {s : PodState PodMint} (held : σ.book.Mint M m)
    (howner : (σ M).owner = Keys.tokenProgram) (hload : load σ PodMint M = .ok s) : s.view = m :=
  Book.Mint.unique (contents_of_load howner hload) held

theorem owner_of_mint (held : σ.book.Mint M m) : (σ M).owner = Keys.tokenProgram := by
  apply Cell.owner_of_contents
  rw [show (σ M).contents = _ from held]
  exact Contents.noConfusion

/-- A handler that writes the extension back to the mint it has read. -/
theorem book_of_set {s s' : PodState PodMint} {u : Token.ConfidentialMintBurn} (hwf : σ.Wf)
    (held : σ.book.Mint M m) (hload : load σ PodMint M = .ok s)
    (hset : s.setExtension u = .ok s') (h : store σ M s' = .ok σ') :
    σ'.book.Mint M (m.set u) := by
  have howner := owner_of_mint held
  obtain rfl := view_of_load held howner hload
  obtain ⟨hswf, hvalid⟩ := hwf.load howner hload
  have hw := store_held hwf howner hload (PodState.setExtension_ok hswf hset).1
    (packed_of_load hload).initialized (validDefault_set_of_ne (by decide) hvalid) h
  rw [hw.book]
  exact Book.mint_put ..

theorem authorityUpdate_book
    {update : Token.ConfidentialMintBurn → Result Token.ConfidentialMintBurn} (hwf : σ.Wf)
    (held : σ.book.Mint mintInfo.key m)
    (h : authorityUpdate (mintInfo :: rest) update σ = .ok σ') :
    ∃ u u', m.get Token.ConfidentialMintBurn = some u ∧ update u = .ok u' ∧
      σ'.book.Mint mintInfo.key (m.set u') := by
  simp only [authorityUpdate, ConfidentialTransfer.loadChecked, bind_eq_ok, exists_unit,
    PodState.getExtension_eq_ok] at h
  obtain ⟨s, ⟨_, hload⟩, u, hget, h⟩ := h
  obtain _ | ⟨authorityInfo, signers⟩ := rest
  · cases h
  simp only [bind_eq_ok, exists_unit] at h
  obtain ⟨_, u', hupdate, s', hset, h⟩ := h
  exact ⟨u, u', view_of_load held (owner_of_mint held) hload ▸ hget, hupdate,
    book_of_set hwf held hload hset h⟩

theorem processRotate_book {offset : Int} (hwf : σ.Wf) (held : σ.book.Mint mintInfo.key m)
    (h : processRotateSupplyElGamalPubkey ctx (mintInfo :: rest) offset σ = .ok σ') :
    ∃ u p, m.get Token.ConfidentialMintBurn = some u ∧
      Attested .ciphertextCiphertextEquality ctx σ p ∧ checkRotation p u = .ok () ∧
      σ'.book.Mint mintInfo.key (m.set { u with
        supplyElgamalPubkey := p.secondPubkey, confidentialSupply := p.secondCiphertext }) := by
  simp only [processRotateSupplyElGamalPubkey, ConfidentialTransfer.loadChecked, bind_eq_ok,
    exists_unit, PodState.getExtension_eq_ok, Prod.exists] at h
  obtain ⟨s, ⟨_, hload⟩, u, hget, p, rest', hproof, hchecked, h⟩ := h
  obtain _ | ⟨authorityInfo, signers⟩ := rest'
  · cases h
  simp only [bind_eq_ok, exists_unit] at h
  obtain ⟨_, s', hset, h⟩ := h
  exact ⟨u, p, view_of_load held (owner_of_mint held) hload ▸ hget, ⟨_, _, _, _, hproof⟩,
    hchecked, book_of_set hwf held hload hset h⟩

/-- An account and its mint, written one after the other. -/
theorem book_of_two {k : Pubkey} {a a' : PodState PodAccount} {s s' : PodState PodMint}
    {σ₁ : Ledger} {e : ConfidentialTransferAccount} {u : Token.ConfidentialMintBurn} (hwf : σ.Wf)
    (held : σ.book.Mint M m) (hne : k ≠ M) (howner : (σ k).owner = Keys.tokenProgram)
    (haccount : load σ PodAccount k = .ok a) (hmint : load σ PodMint M = .ok s)
    (hset : a.setExtension e = .ok a') (hset' : s.setExtension u = .ok s')
    (h : store σ k a' = .ok σ₁) (h' : store σ₁ M s' = .ok σ') : σ'.book.Mint M (m.set u) := by
  have howner' := owner_of_mint held
  obtain rfl := view_of_load held howner' hmint
  obtain ⟨hawf, _⟩ := hwf.load howner haccount
  obtain ⟨hswf, hvalid⟩ := hwf.load howner' hmint
  obtain ⟨_, hbook⟩ := store_two hwf (Ne.symm hne) howner howner' haccount hmint h h'
    (PodState.setExtension_ok hawf hset).1 (PodState.setExtension_ok hswf hset').1
    (packed_of_load haccount).initialized (packed_of_load hmint).initialized trivial
    (validDefault_set_of_ne (by decide) hvalid)
  rw [hbook]
  exact Book.mint_put ..

theorem processConfidentialMint_book {data : InstructionData} (hwf : σ.Wf)
    (held : σ.book.Mint mintInfo.key m)
    (h : processConfidentialMint rt ctx (tokenInfo :: mintInfo :: rest) data σ = .ok σ') :
    ∃ u u' p, m.get Token.ConfidentialMintBurn = some u ∧ supplyMinted rt p data u = .ok u' ∧
      σ'.book.Mint mintInfo.key (m.set u') := by
  simp only [processConfidentialMint, ConfidentialTransfer.loadChecked,
    ConfidentialTransfer.loadCheckedBeside, loadBeside, checkProgramAccount, bind_eq_ok,
    exists_unit, failIf_eq_ok, bne_eq_false_iff_eq, beq_eq_false_iff_ne,
    PodState.getExtension_eq_ok, Prod.exists] at h
  obtain ⟨s, ⟨_, hmint⟩, _, _, _, u, hget, p, rest', _, a, ⟨howner, hne, haccount⟩, h⟩ := h
  obtain _ | ⟨authorityInfo, signers⟩ := rest'
  · cases h
  simp only [bind_eq_ok, exists_unit, failIf_eq_ok] at h
  obtain ⟨_, _, _, _, _, _, _, _, _, u', hsupply, a', hset, s', hset', σ₁, h₁, h⟩ := h
  exact ⟨u, u', p, view_of_load held (owner_of_mint held) hmint ▸ hget, hsupply,
    book_of_two hwf held hne howner haccount hmint hset hset' h₁ h⟩

theorem processConfidentialBurn_book {data : InstructionData} (hwf : σ.Wf)
    (held : σ.book.Mint mintInfo.key m)
    (h : processConfidentialBurn rt ctx (tokenInfo :: mintInfo :: rest) data σ = .ok σ') :
    ∃ u u' t p, m.get Token.ConfidentialMintBurn = some u ∧ supplyBurned rt t p u = .ok u' ∧
      σ'.book.Mint mintInfo.key (m.set u') := by
  simp only [processConfidentialBurn, ConfidentialTransfer.loadChecked,
    ConfidentialTransfer.loadCheckedBeside, loadBeside, checkProgramAccount, bind_eq_ok,
    exists_unit, failIf_eq_ok, bne_eq_false_iff_eq, beq_eq_false_iff_ne,
    PodState.getExtension_eq_ok, Prod.exists] at h
  obtain ⟨s, ⟨_, hmint⟩, t, _, _, u, hget, p, rest', _, a, ⟨howner, hne, haccount⟩, h⟩ := h
  obtain _ | ⟨authorityInfo, signers⟩ := rest'
  · cases h
  simp only [bind_eq_ok, exists_unit, failIf_eq_ok] at h
  obtain ⟨_, _, _, _, _, _, _, _, _, _, u', hsupply, a', hset, s', hset', σ₁, h₁, h⟩ := h
  exact ⟨u, u', t, p, view_of_load held (owner_of_mint held) hmint ▸ hget, hsupply,
    book_of_two hwf held hne howner haccount hmint hset hset' h₁ h⟩

end Handlers

/-! ## Histories -/

/-- The mint keeps an encrypted supply. -/
def Book.SupplyOf (β : Book) (M : Pubkey) (u : Token.ConfidentialMintBurn) : Prop :=
  ∃ m, β.Mint M m ∧ m.get Token.ConfidentialMintBurn = some u

theorem Book.SupplyOf.unique {β : Book} {M : Pubkey} {u u' : Token.ConfidentialMintBurn}
    (h : β.SupplyOf M u) (h' : β.SupplyOf M u') : u = u' := by
  obtain ⟨m, held, hu⟩ := h
  obtain ⟨m', held', hu'⟩ := h'
  obtain rfl := held.unique held'
  exact Option.some.inj (hu.symm.trans hu')

theorem Book.Mint.supplyOf {β : Book} {M : Pubkey} {m : View PodMint}
    {u : Token.ConfidentialMintBurn} (held : β.Mint M (m.set u)) : β.SupplyOf M u :=
  ⟨_, held, View.get_set_same ..⟩

section History

variable {l : ℕ} {rt : Runtime} {P : Type} [AddCommGroup P] [Module (ZMod l) P]

/-- An instruction that does not close the mint. What it is shown is true, and a supply that
is encrypted anew is a ciphertext. -/
structure SupplyCall (C : Curve rt (ZMod l) P) (R : Reading l rt) (M : Pubkey) (c : Call) :
    Prop where
  stays : ¬ c.Closes M
  sound : R.Sound c.ctx c.σ
  encoded : ∀ p : CiphertextCiphertextEqualityProofContext,
    Attested .ciphertextCiphertextEquality c.ctx c.σ p → C.Encoded p.secondCiphertext

/-- An instruction under which the encrypted supply `u` of the mint becomes `u'`. -/
structure SupplyStep (C : Curve rt (ZMod l) P) (R : Reading l rt) (M : Pubkey) (c : Call)
    (σ' : Ledger) (u u' : Token.ConfidentialMintBurn) : Prop where
  may : SupplyCall C R M c
  run : c.run rt = .ok σ'
  before : c.σ.book.SupplyOf M u
  after : σ'.book.SupplyOf M u'

variable {C : Curve rt (ZMod l) P}

/-- What has happened since the mint was opened with the figure of no supply: the keypair that
the authority has come to hold, and how much has been burned since the figure was last right. -/
inductive SupplyHistory (R : Reading l rt) (D : C.Decryption) (aes : AeKey) (M : Pubkey) :
    Keypair (ZMod l) C.bases → ℕ → Ledger → Prop
  | opened {keypair σ m u} (reach : Reachable rt (SupplyCall C R M) σ)
      (held : σ.book.Mint M m) (confidential : (m.get ConfidentialTransferMint).isSome = true)
      (config : m.get Token.ConfidentialMintBurn = some u)
      (key : u.supplyElgamalPubkey = C.compress keypair.pubkey)
      (reads : C.Reads R keypair.secret u.supplyElgamalPubkey)
      (supply : u.confidentialSupply = .zeroed)
      (figure : aes.decrypt u.decryptableSupply = some 0) : SupplyHistory R D aes M keypair 0 σ
  | minted {keypair n c σ' u u' data amount nonce opening}
      (history : SupplyHistory R D aes M keypair n c.σ) (step : SupplyStep C R M c σ' u u')
      (instruction : c.instruction = .confidentialMint data) (target : c.key? 1 = some M)
      (computed : (SupplyAccountInfo.new u).newDecryptableSupply D aes keypair opening amount
        nonce = .ok data.newDecryptableBalance)
      (amount : R.supply u' = R.supply u + (amount.toNat : ZMod l)) :
      SupplyHistory R D aes M keypair 0 σ'
  | burned {keypair n c σ' u u' data} (history : SupplyHistory R D aes M keypair n c.σ)
      (step : SupplyStep C R M c σ' u u') (instruction : c.instruction = .confidentialBurn data)
      (target : c.key? 1 = some M) : SupplyHistory R D aes M keypair n σ'
  | applied {keypair n c σ' u u'} (history : SupplyHistory R D aes M keypair n c.σ)
      (step : SupplyStep C R M c σ' u u') (instruction : c.instruction = .applyPendingBurn)
      (target : c.key? 0 = some M) : SupplyHistory R D aes M keypair (n + (R.burned u).val) σ'
  | rotated {keypair keypair' n c σ' u u' offset}
      (history : SupplyHistory R D aes M keypair n c.σ) (step : SupplyStep C R M c σ' u u')
      (instruction : c.instruction = .rotateSupplyElGamalPubkey offset)
      (target : c.key? 0 = some M) (key : u'.supplyElgamalPubkey = C.compress keypair'.pubkey)
      (reads : C.Reads R keypair'.secret u'.supplyElgamalPubkey) :
      SupplyHistory R D aes M keypair' n σ'
  | restated {keypair n c σ' u u' b x} (history : SupplyHistory R D aes M keypair n c.σ)
      (step : SupplyStep C R M c σ' u u')
      (instruction : c.instruction = .updateDecryptableSupply b) (target : c.key? 0 = some M)
      (figure : aes.decrypt b = some x) (right : x.toNat = (R.supply u).val) :
      SupplyHistory R D aes M keypair 0 σ'
  | other {keypair n σ σ' u} (history : SupplyHistory R D aes M keypair n σ)
      (step : Step rt (SupplyCall C R M) σ σ') (before : σ.book.SupplyOf M u)
      (after : σ'.book.SupplyOf M u) : SupplyHistory R D aes M keypair n σ'

/-- The figure runs ahead of the supply by what has been burned since. -/
structure SupplyState (C : Curve rt (ZMod l) P) (R : Reading l rt) (aes : AeKey) (M : Pubkey)
    (keypair : Keypair (ZMod l) C.bases) (n : ℕ) (σ : Ledger) (m : View PodMint)
    (u : Token.ConfidentialMintBurn) : Prop where
  reach : Reachable rt (SupplyCall C R M) σ
  held : σ.book.Mint M m
  confidential : (m.get ConfidentialTransferMint).isSome = true
  config : m.get Token.ConfidentialMintBurn = some u
  key : u.supplyElgamalPubkey = C.compress keypair.pubkey
  reads : C.Reads R keypair.secret u.supplyElgamalPubkey
  encoded : C.Encoded u.confidentialSupply
  figure : ∃ x, aes.decrypt u.decryptableSupply = some x ∧ x.toNat = (R.supply u).val + n

/-! ## One step -/

section Steps

variable {R : Reading l rt} {D : C.Decryption} {aes : AeKey} {M : Pubkey} {σ σ' : Ledger}
  {m : View PodMint} {u u' : Token.ConfidentialMintBurn}
  {keypair keypair' : Keypair (ZMod l) C.bases} {n n' : ℕ}

/-- The encrypted supply and what is recorded as burned are numbers. -/
theorem Reachable.supply_whole [NeZero l] (hl : 2 ^ 65 - 1 ≤ l)
    (h : Reachable rt (SupplyCall C R M) σ) (held : σ.book.Mint M m)
    (confidential : (m.get ConfidentialTransferMint).isSome = true)
    (config : m.get Token.ConfidentialMintBurn = some u) :
    (R.burned u).val ≤ (R.supply u).val ∧ (R.supply u).val < 2 ^ 64 := by
  obtain ⟨f, hf⟩ := σ.book.exists_feeKey M
  have hreach : Reachable rt (fun c => ¬ c.Closes M ∧ R.Sound c.ctx c.σ) σ :=
    h.mono fun c hc => ⟨hc.stays, hc.sound⟩
  have hwhole := hreach.whole hl held confidential (hf m held)
  have hissue := Book.issue_register (R := R) (f := f) held
  have config' : m.mintCore.mintBurn = some u := config
  obtain ⟨hsupply, hburned⟩ := MintCore.supply_issue (R := R) (f := f) config'
  have hle := hwhole.burned_le hissue
  have hlt := hwhole.supply_lt hissue
  rw [hsupply] at hle hlt
  rw [hburned] at hle
  exact ⟨hle, by omega⟩

/-- No instruction takes an extension from a mint that it does not close. -/
theorem Step.mint_grows (hwf : σ.Wf) (h : Step rt (SupplyCall C R M) σ σ')
    (held : σ.book.Mint M m) : ∃ m', σ'.book.Mint M m' ∧ m.Grows m' := by
  cases h with
  | @call c _ may run =>
    have hP : MintRespects rt c M View.Grows :=
      ⟨View.Grows.refl, View.Grows.trans, fun _ h => h.grows, fun _ h => h.grows⟩
    rcases (run_course hwf run).2.mint hP held with hkept | ⟨_, hc, _⟩
    · exact hkept
    · exact absurd hc may.stays
  | outside henv => exact ⟨m, henv.book.mint held, .refl m⟩

/-- What is left to show of a step: the new figure. -/
theorem SupplyState.step (h : SupplyState C R aes M keypair n σ m u)
    (step : Step rt (SupplyCall C R M) σ σ') (after : σ'.book.SupplyOf M u')
    (key : u'.supplyElgamalPubkey = C.compress keypair'.pubkey)
    (reads : C.Reads R keypair'.secret u'.supplyElgamalPubkey)
    (encoded : C.Encoded u'.confidentialSupply)
    (figure : ∃ x, aes.decrypt u'.decryptableSupply = some x ∧
      x.toNat = (R.supply u').val + n') :
    ∃ m' u', SupplyState C R aes M keypair' n' σ' m' u' := by
  obtain ⟨m', held, config⟩ := after
  have hreach : Reachable rt (SupplyCall C R M) σ' := h.reach.run (.single step)
  obtain ⟨m'', held', hgrows⟩ := step.mint_grows h.reach.wf h.held
  obtain rfl := held.unique held'
  obtain ⟨x, hx⟩ := Option.isSome_iff_exists.mp h.confidential
  have hconfidential : (m'.get ConfidentialTransferMint).isSome = true :=
    hreach.wf.mint_get_isSome held rfl (hgrows _ (View.ext_isSome_of_get hx))
  exact ⟨m', u', hreach, held, hconfidential, config, key, reads, encoded, figure⟩

/-- What the authority reads. -/
theorem SupplyState.decryptedCurrentSupply_eq [NeZero l] (hl : 2 ^ 65 - 1 ≤ l)
    (h : SupplyState C R aes M keypair n σ m u) (opening : ZMod l) :
    (SupplyAccountInfo.new u).decryptedCurrentSupply D aes keypair opening =
      if n < 2 ^ 32 then .ok (UInt64.ofNat (R.supply u).val)
      else .error TokenError.accountDecryption := by
  obtain ⟨x, hdecrypt, hx⟩ := h.figure
  obtain ⟨c, hc⟩ := h.encoded
  obtain ⟨_, hlt⟩ := h.reach.supply_whole hl h.held h.confidential h.config
  have hword := x.toNat_lt
  -- what the difference hides
  have hdelta : C.bases.Decrypts keypair.secret
      (C.bases.encrypt keypair.pubkey (x.toNat : ZMod l) opening - c) (((n : ℕ) : ℤ) : ZMod l) := by
    have hfigure := Bases.decrypts_encrypt keypair.pairs (x.toNat : ZMod l) opening
    have hsupply := h.reads c
    rw [← hc] at hsupply
    have hsub := hfigure.sub hsupply
    have hn : (x.toNat : ZMod l) - R.pt u.supplyElgamalPubkey u.confidentialSupply = (n : ℕ) := by
      rw [hx, Nat.cast_add, ZMod.natCast_zmod_val, Reading.supply]
      ring
    rw [hn] at hsub
    rwa [Int.cast_natCast]
  have hsearch := fun y => D.decryptU32_eq_some_iff (x := y) (by omega) hdelta (by omega) (by omega)
  have htry : D.tryFrom u.confidentialSupply = some c := by rw [hc, D.tryFrom_pod]
  simp only [SupplyAccountInfo.decryptedCurrentSupply, SupplyAccountInfo.new, hdecrypt, htry, okOr,
    ok_bind]
  by_cases hn : n < 2 ^ 32
  · have hsize : n < 2 ^ 64 := by omega
    have hword' : (UInt64.ofNat n).toNat = n := UInt64.toNat_ofNat_of_lt' hsize
    have hfound := (hsearch (UInt64.ofNat n)).mpr ⟨hword'.symm ▸ hn, by rw [hword']⟩
    have hrest : checkedSub x (UInt64.ofNat n) = some (UInt64.ofNat (R.supply u).val) := by
      have hsupply : (UInt64.ofNat (R.supply u).val).toNat = (R.supply u).val :=
        UInt64.toNat_ofNat_of_lt' hlt
      rw [checkedSub_eq_some, hword', hsupply, hx]
    rw [hfound, if_pos hn]
    simp only [ok_bind, hrest]
  · have hnone : D.decryptU32 keypair.secret
        (C.bases.encrypt keypair.pubkey (x.toNat : ZMod l) opening - c) = none := by
      rw [Option.eq_none_iff_forall_ne_some]
      intro y hy
      obtain ⟨hsmall, heq⟩ := (hsearch y).mp hy
      omega
    rw [hnone, if_neg hn]
    rfl

/-! ## The updates -/

theorem supplyMinted_eq {p : MintProofContext} {data : InstructionData}
    (h : supplyMinted rt p data u = .ok u') :
    ∃ lo hi s, CiphertextArithmetic.addWithLoHi rt u.confidentialSupply lo hi = some s ∧
      u' = { u with
        confidentialSupply := s, decryptableSupply := data.newDecryptableBalance } := by
  simp only [supplyMinted, bind_eq_ok, exists_unit, failIf_eq_ok, pure_eq_ok,
    ConfidentialTransfer.arithmetic, okOr_eq_ok] at h
  obtain ⟨_, lo, _, hi, _, s, hs, _, rfl⟩ := h
  exact ⟨lo, hi, s, hs, rfl⟩

theorem supplyBurned_eq {t : ConfidentialTransferMint} {p : BurnProofContext}
    (h : supplyBurned rt t p u = .ok u') : ∃ s, u' = { u with pendingBurn := s } := by
  simp only [supplyBurned, bind_eq_ok, exists_unit, failIf_eq_ok, pure_eq_ok] at h
  obtain ⟨_, _, _, _, _, _, s, _, rfl⟩ := h
  exact ⟨s, rfl⟩

theorem burnApplied_eq (h : burnApplied rt u = .ok u') :
    ∃ s, CiphertextArithmetic.subtract rt u.confidentialSupply u.pendingBurn = some s ∧
      u' = { u with confidentialSupply := s, pendingBurn := default } := by
  simp only [burnApplied, ConfidentialTransfer.arithmetic, bind_eq_ok, okOr_eq_ok,
    pure_eq_ok] at h
  obtain ⟨s, hs, rfl⟩ := h
  exact ⟨s, hs, rfl⟩

section Updates

variable {c : Call} {data : InstructionData}

theorem SupplyStep.minted (h : SupplyStep C R M c σ' u u') (hwf : c.σ.Wf)
    (instruction : c.instruction = .confidentialMint data) (target : c.key? 1 = some M) :
    ∃ p, supplyMinted rt p data u = .ok u' := by
  obtain ⟨m, held, config⟩ := h.before
  obtain ⟨tokenInfo, mintInfo, rest, haccounts, rfl⟩ := c.accounts_of_key?_one target
  have hrun := h.run
  rw [Call.run, instruction, haccounts] at hrun
  obtain ⟨v, v', p, hv, hupdate, held'⟩ := processConfidentialMint_book hwf held hrun
  obtain rfl := Option.some.inj (hv.symm.trans config)
  exact ⟨p, h.after.unique held'.supplyOf ▸ hupdate⟩

theorem SupplyStep.burned (h : SupplyStep C R M c σ' u u') (hwf : c.σ.Wf)
    (instruction : c.instruction = .confidentialBurn data) (target : c.key? 1 = some M) :
    ∃ t p, supplyBurned rt t p u = .ok u' := by
  obtain ⟨m, held, config⟩ := h.before
  obtain ⟨tokenInfo, mintInfo, rest, haccounts, rfl⟩ := c.accounts_of_key?_one target
  have hrun := h.run
  rw [Call.run, instruction, haccounts] at hrun
  obtain ⟨v, v', t, p, hv, hupdate, held'⟩ := processConfidentialBurn_book hwf held hrun
  obtain rfl := Option.some.inj (hv.symm.trans config)
  exact ⟨t, p, h.after.unique held'.supplyOf ▸ hupdate⟩

theorem SupplyStep.applied (h : SupplyStep C R M c σ' u u') (hwf : c.σ.Wf)
    (instruction : c.instruction = .applyPendingBurn) (target : c.key? 0 = some M) :
    burnApplied rt u = .ok u' := by
  obtain ⟨m, held, config⟩ := h.before
  obtain ⟨mintInfo, rest, haccounts, rfl⟩ := c.accounts_of_key?_zero target
  have hrun := h.run
  rw [Call.run, instruction, haccounts] at hrun
  obtain ⟨v, v', hv, hupdate, held'⟩ := authorityUpdate_book hwf held hrun
  obtain rfl := Option.some.inj (hv.symm.trans config)
  exact h.after.unique held'.supplyOf ▸ hupdate

theorem SupplyStep.restated (h : SupplyStep C R M c σ' u u') (hwf : c.σ.Wf) {b : PodAeCiphertext}
    (instruction : c.instruction = .updateDecryptableSupply b) (target : c.key? 0 = some M) :
    u' = { u with decryptableSupply := b } := by
  obtain ⟨m, held, config⟩ := h.before
  obtain ⟨mintInfo, rest, haccounts, rfl⟩ := c.accounts_of_key?_zero target
  have hrun := h.run
  rw [Call.run, instruction, haccounts] at hrun
  obtain ⟨v, v', hv, hupdate, held'⟩ := authorityUpdate_book hwf held hrun
  obtain rfl := Option.some.inj (hv.symm.trans config)
  exact (h.after.unique held'.supplyOf).trans (Except.ok.inj hupdate).symm

theorem SupplyStep.rotated (h : SupplyStep C R M c σ' u u') (hwf : c.σ.Wf) {offset : Int}
    (instruction : c.instruction = .rotateSupplyElGamalPubkey offset)
    (target : c.key? 0 = some M) :
    ∃ p, Attested .ciphertextCiphertextEquality c.ctx c.σ p ∧ checkRotation p u = .ok () ∧
      u' = { u with
        supplyElgamalPubkey := p.secondPubkey, confidentialSupply := p.secondCiphertext } := by
  obtain ⟨m, held, config⟩ := h.before
  obtain ⟨mintInfo, rest, haccounts, rfl⟩ := c.accounts_of_key?_zero target
  have hrun := h.run
  rw [Call.run, instruction, haccounts] at hrun
  obtain ⟨v, p, hv, hproof, hchecked, held'⟩ := processRotate_book hwf held hrun
  obtain rfl := Option.some.inj (hv.symm.trans config)
  exact ⟨p, hproof, hchecked, h.after.unique held'.supplyOf⟩

end Updates

/-! ## Every history -/

/-- What the authority computes for a mint. -/
theorem SupplyState.newDecryptableSupply_ok [NeZero l] (hl : 2 ^ 65 - 1 ≤ l)
    (h : SupplyState C R aes M keypair n σ m u) {opening : ZMod l} {amount : UInt64}
    {nonce : Bytes} {b : PodAeCiphertext}
    (computed : (SupplyAccountInfo.new u).newDecryptableSupply D aes keypair opening amount nonce =
      .ok b) :
    ∃ x, aes.decrypt b = some x ∧ x.toNat = (R.supply u).val + amount.toNat := by
  rw [SupplyAccountInfo.newDecryptableSupply, h.decryptedCurrentSupply_eq hl] at computed
  obtain ⟨_, hlt⟩ := h.reach.supply_whole hl h.held h.confidential h.config
  have hword : (UInt64.ofNat (R.supply u).val).toNat = (R.supply u).val :=
    UInt64.toNat_ofNat_of_lt' hlt
  split at computed
  · simp only [ok_bind, bind_eq_ok, okOr_eq_ok, checkedAdd_eq_some, pure_eq_ok] at computed
    obtain ⟨x, hx, rfl⟩ := computed
    exact ⟨x, aes.decrypt_encrypt .., by rw [hx, hword]⟩
  · cases computed

theorem SupplyHistory.state [NeZero l] (hl : 2 ^ 65 - 1 ≤ l) (hC : C.Encodes)
    (h : SupplyHistory R D aes M keypair n σ) :
    ∃ m u, SupplyState C R aes M keypair n σ m u := by
  induction h with
  | opened reach held confidential config key reads supply figure =>
    refine ⟨_, _, reach, held, confidential, config, key, reads, ?_, 0, figure, ?_⟩
    · rw [supply]
      exact C.encoded_zeroed
    · rw [Reading.supply, supply, R.pt_zeroed, ZMod.val_zero]
      rfl
  | minted history step instruction target computed amount ih =>
    obtain ⟨m, u₀, hs⟩ := ih
    obtain rfl := step.before.unique ⟨m, hs.held, hs.config⟩
    obtain ⟨x, hx, hsum⟩ := hs.newDecryptableSupply_ok hl computed
    obtain ⟨p, hupdate⟩ := step.minted hs.reach.wf instruction target
    obtain ⟨lo, hi, s, hadd, rfl⟩ := supplyMinted_eq hupdate
    obtain ⟨_, hlt⟩ := hs.reach.supply_whole hl hs.held hs.confidential hs.config
    have hvalue := UInt64.toNat_lt ‹UInt64›
    refine hs.step (.call step.may step.run) step.after hs.key hs.reads
      (hC.encoded_addWithLoHi hadd) ⟨x, hx, ?_⟩
    rw [hsum, amount, val_add_natCast (by omega), Nat.add_zero]
  | burned history step instruction target ih =>
    obtain ⟨m, u₀, hs⟩ := ih
    obtain rfl := step.before.unique ⟨m, hs.held, hs.config⟩
    obtain ⟨t, p, hupdate⟩ := step.burned hs.reach.wf instruction target
    obtain ⟨s, rfl⟩ := supplyBurned_eq hupdate
    exact hs.step (.call step.may step.run) step.after hs.key hs.reads hs.encoded
      hs.figure
  | applied history step instruction target ih =>
    obtain ⟨m, u₀, hs⟩ := ih
    obtain rfl := step.before.unique ⟨m, hs.held, hs.config⟩
    have hupdate := step.applied hs.reach.wf instruction target
    obtain ⟨hsupply, _⟩ := burnApplied_reads (R := R) hupdate
    obtain ⟨hle, _⟩ := hs.reach.supply_whole hl hs.held hs.confidential hs.config
    obtain ⟨x, hx, hsum⟩ := hs.figure
    obtain ⟨s, hsub, rfl⟩ := burnApplied_eq hupdate
    refine hs.step (.call step.may step.run) step.after hs.key hs.reads
      (hC.encoded_subtract hsub) ⟨x, hx, ?_⟩
    rw [hsum, hsupply, ZMod.val_sub hle]
    omega
  | rotated history step instruction target key reads ih =>
    obtain ⟨m, u₀, hs⟩ := ih
    obtain rfl := step.before.unique ⟨m, hs.held, hs.config⟩
    obtain ⟨p, hproof, hchecked, rfl⟩ := step.rotated hs.reach.wf instruction target
    obtain ⟨hsupply, _⟩ := checkRotation_reads step.may.sound hproof hchecked
    obtain ⟨x, hx, hsum⟩ := hs.figure
    refine hs.step (.call step.may step.run) step.after key reads
      (step.may.encoded p hproof) ⟨x, hx, ?_⟩
    rw [hsum, ← hsupply]
    rfl
  | restated history step instruction target figure right ih =>
    obtain ⟨m, u₀, hs⟩ := ih
    obtain rfl := step.before.unique ⟨m, hs.held, hs.config⟩
    obtain rfl := step.restated hs.reach.wf instruction target
    exact hs.step (.call step.may step.run) step.after hs.key hs.reads hs.encoded
      ⟨_, figure, right⟩
  | other history step before after ih =>
    obtain ⟨m, u₀, hs⟩ := ih
    obtain rfl := before.unique ⟨m, hs.held, hs.config⟩
    exact hs.step step after hs.key hs.reads hs.encoded hs.figure

end Steps

end History

/-! ## More than a search finds

Over the real order, on a curve on which openings weigh nothing: two halves of 2³³ are minted,
2³² is burned, and the burn is applied. -/

section Lost

def openCurve : Curve (.modular ristrettoOrder) (ZMod ristrettoOrder) (ZMod ristrettoOrder) :=
  .modular ristrettoOrder one_lt_ristrettoOrder ristrettoOrder_le 0

def openDecryption : openCurve.Decryption :=
  .modular one_lt_ristrettoOrder ristrettoOrder_le 0 searched_le_ristrettoOrder

theorem openCurve_encodes : openCurve.Encodes :=
  Curve.modular_encodes one_lt_ristrettoOrder ristrettoOrder_le 0

theorem openCurve_pairs : openCurve.bases.Pairs (0 : ZMod ristrettoOrder) 1 := zero_smul _ _

/-- A keypair whose secret reads what is in the open. -/
def openKeypair : Keypair (ZMod ristrettoOrder) openCurve.bases where
  secret := 0
  pubkey := 1
  pairs := openCurve_pairs

/-- The ciphertext of `x` without randomness. -/
def openPod (x : ℕ) : PodElGamalCiphertext := ⟨pointOf ristrettoOrder x, 0⟩

theorem openReading_pt (key : PodElGamalPubkey) (x : ℕ) :
    openReading.pt key (openPod x) = (x : ZMod ristrettoOrder) :=
  cast_residue_pointOf ristrettoOrder_pos ristrettoOrder_le x

/-- The extension of the mint at `1`. -/
def openSupply (supply figure burned : ℕ) : Token.ConfidentialMintBurn :=
  ⟨openPod supply, BitVec.ofNat 288 figure, openCurve.compress openKeypair.pubkey, openPod burned⟩

theorem openReading_supply (x y z : ℕ) :
    openReading.supply (openSupply x y z) = (x : ZMod ristrettoOrder) := openReading_pt _ x

theorem openReading_burned (x y z : ℕ) :
    openReading.burned (openSupply x y z) = (z : ZMod ristrettoOrder) := openReading_pt _ z

def holdsSupply (u : Token.ConfidentialMintBurn) (σ : Ledger) : Bool :=
  (σ 1).owner == Keys.tokenProgram && (toOption (unpack PodMint (σ 1).data)).any fun s =>
    decide (s.view.get Token.ConfidentialMintBurn = some u) &&
      (s.view.get ConfidentialTransferMint).isSome

theorem supplyOf_of_holdsSupply {u : Token.ConfidentialMintBurn} {σ : Ledger}
    (h : holdsSupply u σ = true) :
    ∃ m, σ.book.Mint 1 m ∧ m.get Token.ConfidentialMintBurn = some u ∧
      (m.get ConfidentialTransferMint).isSome = true := by
  rw [holdsSupply, Bool.and_eq_true, beq_iff_eq] at h
  obtain ⟨m, held, hm⟩ := exists_mint σ 1 (fun m =>
    decide (m.get Token.ConfidentialMintBurn = some u) &&
      (m.get ConfidentialTransferMint).isSome) h.1 h.2
  rw [Bool.and_eq_true, decide_eq_true_eq] at hm
  exact ⟨m, held, hm⟩

theorem SupplyHistory.cleared {l : ℕ} {rt : Runtime} {P : Type} [AddCommGroup P]
    [Module (ZMod l) P] {C : Curve rt (ZMod l) P} {R : Reading l rt} {D : C.Decryption}
    {aes : AeKey} {M : Pubkey} {keypair : Keypair (ZMod l) C.bases} {n : ℕ} {σ : Ledger}
    {u : Token.ConfidentialMintBurn} (h : SupplyHistory R D aes M keypair n σ)
    (hu : σ.book.SupplyOf M u) :
    SupplyHistory R D aes M keypair n σ.cleared ∧ σ.cleared.book.SupplyOf M u := by
  obtain ⟨m, held, config⟩ := hu
  have hu' : σ.cleared.book.SupplyOf M u := ⟨m, σ.cleared_envStep.book.mint held, config⟩
  exact ⟨h.other (.outside σ.cleared_envStep) ⟨m, held, config⟩ hu', hu'⟩

/-- Instructions with true proofs are of the kind the histories are about. -/
theorem supplyCall_of_honest {proofs : List ProofInstruction} {accounts : List AccountInfo}
    {i : Instruction} {σ : Ledger} (hσ : σ.Unproved)
    (honest : ∀ p ∈ proofs, openReading.Honest p)
    (other : ∀ p ∈ proofs, p.instructionType ≠ ProofType.ciphertextCiphertextEquality.toU8)
    (hi : i ≠ .closeAccount) :
    SupplyCall openCurve openReading 1 ⟨.showing proofs, accounts, i, σ⟩ where
  stays h := hi h.2
  sound := Reading.sound_of_honest honest hσ
  encoded p hp := by
    obtain ⟨q, hq, htype, _⟩ := hp.mem hσ
    exact absurd htype (other q hq)

def openAccountKey : PodElGamalPubkey := pointOf ristrettoOrder 4

/-- A mint at `1` and an account at `2`. -/
def openSteps : List (List ProofInstruction × List AccountInfo × Instruction) :=
  [([], [⟨1, false⟩], .initializeConfidentialTransferMint ⟨0⟩ (.ofBool true) ⟨0⟩),
   ([], [⟨1, false⟩],
    .initializeConfidentialMintBurn (openCurve.compress openKeypair.pubkey) 0),
   ([], [⟨1, false⟩], .initializeMint2 6 5 none),
   ([], [⟨2, false⟩, ⟨1, false⟩], .initializeAccount3 7),
   ([.verifying .pubkeyValidity (⟨openAccountKey⟩ : PubkeyValidityProofContext)],
    [⟨2, false⟩, ⟨1, false⟩, ⟨Keys.instructionsSysvar, false⟩, ⟨7, true⟩],
    .configureAccount 0 10 1)]

def openLedger : Ledger :=
  honestLedger (.modular ristrettoOrder) openSteps (blank [(1, 435), (2, 465)])

/-- Mints 2³³, all of it in the upper half. -/
def openMintCall (σ : Ledger) : Call :=
  ⟨.showing (amountProofs ristrettoOrder (openCurve.compress openKeypair.pubkey) openAccountKey
      (openCurve.compress openKeypair.pubkey) (2 ^ 33) 0 (2 ^ 17)),
    [⟨2, false⟩, ⟨1, false⟩, ⟨Keys.instructionsSysvar, false⟩, ⟨5, true⟩],
    .confidentialMint ⟨BitVec.ofNat 288 (2 ^ 33), openPod 0, openPod (2 ^ 17), 1, 2, 3⟩, σ⟩

def openApplyCall (σ : Ledger) : Call :=
  ⟨.showing [], [⟨2, false⟩, ⟨7, true⟩], .applyPendingBalance 1 0, σ⟩

/-- Burns 2³². -/
def openBurnCall (σ : Ledger) : Call :=
  ⟨.showing (amountProofs ristrettoOrder openAccountKey openAccountKey
      (openCurve.compress openKeypair.pubkey) (2 ^ 32) 0 (2 ^ 16)),
    [⟨2, false⟩, ⟨1, false⟩, ⟨Keys.instructionsSysvar, false⟩, ⟨7, true⟩],
    .confidentialBurn ⟨0, openPod 0, openPod (2 ^ 16), 1, 2, 3⟩, σ⟩

def openApplyBurnCall (σ : Ledger) : Call :=
  ⟨.showing [], [⟨1, false⟩, ⟨5, true⟩], .applyPendingBurn, σ⟩

theorem openLedger_reachable :
    Reachable (.modular ristrettoOrder) (SupplyCall openCurve openReading 1) openLedger ∧
      openLedger.Unproved := by
  refine Reachable.honest (by decide) (fun p hp σ hσ => ?_) (by decide +kernel)
  simp only [openSteps, List.mem_cons, List.not_mem_nil, or_false] at hp
  rcases hp with rfl | rfl | rfl | rfl | rfl
  · exact supplyCall_of_honest hσ (by simp) (by simp) (by simp)
  · exact supplyCall_of_honest hσ (by simp) (by simp) (by simp)
  · exact supplyCall_of_honest hσ (by simp) (by simp) (by simp)
  · exact supplyCall_of_honest hσ (by simp) (by simp) (by simp)
  · refine supplyCall_of_honest hσ (fun p hp => ?_) (fun p hp => ?_) (by simp)
    · obtain rfl := List.mem_singleton.mp hp
      exact Reading.honest_verifying trivial
    · obtain rfl := List.mem_singleton.mp hp
      decide

theorem lost_runs :
    (holdsSupply (openSupply 0 0 0) openLedger &&
      (toOption ((openMintCall openLedger).run (.modular ristrettoOrder))).any fun σ₁ =>
        holdsSupply (openSupply (2 ^ 33) (2 ^ 33) 0) σ₁ &&
      (toOption ((openApplyCall σ₁.cleared).run (.modular ristrettoOrder))).any fun σ₂ =>
        holdsSupply (openSupply (2 ^ 33) (2 ^ 33) 0) σ₂ &&
      (toOption ((openBurnCall σ₂.cleared).run (.modular ristrettoOrder))).any fun σ₃ =>
        holdsSupply (openSupply (2 ^ 33) (2 ^ 33) (2 ^ 32)) σ₃ &&
      (toOption ((openApplyBurnCall σ₃.cleared).run (.modular ristrettoOrder))).any fun σ₄ =>
        holdsSupply (openSupply (2 ^ 32) (2 ^ 33) 0) σ₄) = true := by
  decide +kernel

/-- The histories of this script: up to the mint, and up to the burn that is applied. -/
theorem openHistories : ∃ σ₁ σ₄ : Ledger,
    SupplyHistory openReading openDecryption .plain 1 openKeypair 0 σ₁ ∧
      σ₁.book.SupplyOf 1 (openSupply (2 ^ 33) (2 ^ 33) 0) ∧
    SupplyHistory openReading openDecryption .plain 1 openKeypair (2 ^ 32) σ₄ ∧
      σ₄.book.SupplyOf 1 (openSupply (2 ^ 32) (2 ^ 33) 0) := by
  have hruns := lost_runs
  obtain ⟨hreach, hσ₀⟩ := openLedger_reachable
  generalize openLedger = σ₀ at hruns hreach hσ₀
  simp only [Bool.and_eq_true, Option.any_eq_true, toOption_eq_some] at hruns
  obtain ⟨h₀, σ₁, hrun₁, h₁, σ₂, hrun₂, h₂, σ₃, hrun₃, h₃, σ₄, hrun₄, h₄⟩ := hruns
  obtain ⟨m, held, config, confidential⟩ := supplyOf_of_holdsSupply h₀
  have hsupply : ∀ {x y z σ}, holdsSupply (openSupply x y z) σ = true →
      σ.book.SupplyOf 1 (openSupply x y z) := fun h => by
    obtain ⟨m, held, config, _⟩ := supplyOf_of_holdsSupply h
    exact ⟨m, held, config⟩
  have hreads : openCurve.Reads openReading openKeypair.secret
      (openCurve.compress openKeypair.pubkey) :=
    Curve.modular_reads one_lt_ristrettoOrder ristrettoOrder_le 0 _
  have hopened : SupplyHistory openReading openDecryption .plain 1 openKeypair 0 σ₀ :=
    .opened hreach held confidential config rfl hreads (by decide +kernel) (by decide +kernel)
  have hmay₁ : SupplyCall openCurve openReading 1 (openMintCall σ₀) := by
    refine supplyCall_of_honest hσ₀ ?_ ?_ ?_
    · exact amountProofs_honest ristrettoOrder_pos ristrettoOrder_le (by decide) (by decide)
        (by decide)
    · exact amountProofs_type
    · exact Instruction.noConfusion
  have hstep₁ : SupplyStep openCurve openReading 1 (openMintCall σ₀) σ₁ (openSupply 0 0 0)
      (openSupply (2 ^ 33) (2 ^ 33) 0) := ⟨hmay₁, hrun₁, hsupply h₀, hsupply h₁⟩
  have computed : (SupplyAccountInfo.new (openSupply 0 0 0)).newDecryptableSupply openDecryption
      .plain openKeypair 0 8589934592 [] = .ok (BitVec.ofNat 288 (2 ^ 33)) := by
    rw [← toOption_eq_some]
    decide +kernel
  have amount : openReading.supply (openSupply (2 ^ 33) (2 ^ 33) 0) =
      openReading.supply (openSupply 0 0 0) +
        ((8589934592 : UInt64).toNat : ZMod ristrettoOrder) := by
    rw [openReading_supply, openReading_supply]
    decide +kernel
  have hminted := hopened.minted hstep₁ rfl rfl computed amount
  obtain ⟨hminted', hu₁⟩ := hminted.cleared (hsupply h₁)
  have hmay₂ : SupplyCall openCurve openReading 1 (openApplyCall σ₁.cleared) :=
    supplyCall_of_honest σ₁.unproved_cleared (by simp) (by simp) Instruction.noConfusion
  have happlied := hminted'.other (.call hmay₂ hrun₂) hu₁ (hsupply h₂)
  obtain ⟨happlied', hu₂⟩ := happlied.cleared (hsupply h₂)
  have hmay₃ : SupplyCall openCurve openReading 1 (openBurnCall σ₂.cleared) := by
    refine supplyCall_of_honest σ₂.unproved_cleared ?_ ?_ ?_
    · exact amountProofs_honest ristrettoOrder_pos ristrettoOrder_le (by decide) (by decide)
        (by decide)
    · exact amountProofs_type
    · exact Instruction.noConfusion
  have hburned := happlied'.burned ⟨hmay₃, hrun₃, hu₂, hsupply h₃⟩ rfl rfl
  obtain ⟨hburned', hu₃⟩ := hburned.cleared (hsupply h₃)
  have hmay₄ : SupplyCall openCurve openReading 1 (openApplyBurnCall σ₃.cleared) :=
    supplyCall_of_honest σ₃.unproved_cleared (by simp) (by simp) Instruction.noConfusion
  have hlost := hburned'.applied ⟨hmay₄, hrun₄, hu₃, hsupply h₄⟩ rfl rfl
  have hdrift : (openReading.burned (openSupply (2 ^ 33) (2 ^ 33) (2 ^ 32))).val = 2 ^ 32 := by
    rw [openReading_burned]
    decide +kernel
  rw [hdrift, Nat.zero_add] at hlost
  exact ⟨σ₁, σ₄, hminted, hsupply h₁, hlost, hsupply h₄⟩

end Lost

/-- In every history the authority reads the supply, and can compute the next figure, exactly as
long as what has been burned since its figure was right is a number of 32 bits. -/
theorem decryptable_supply_tracks {l : ℕ} [NeZero l] {rt : Runtime} {P : Type} [AddCommGroup P]
    [Module (ZMod l) P] {C : Curve rt (ZMod l) P} {R : Reading l rt} {D : C.Decryption}
    {aes : AeKey} {M : Pubkey} {keypair : Keypair (ZMod l) C.bases} {n : ℕ} {σ : Ledger}
    {u : Token.ConfidentialMintBurn} (hl : 2 ^ 65 - 1 ≤ l) (hC : C.Encodes)
    (h : SupplyHistory R D aes M keypair n σ) (hu : σ.book.SupplyOf M u) (opening : ZMod l) :
    (R.supply u).val < 2 ^ 64 ∧
    (SupplyAccountInfo.new u).decryptedCurrentSupply D aes keypair opening =
      (if n < 2 ^ 32 then .ok (UInt64.ofNat (R.supply u).val)
        else .error TokenError.accountDecryption) ∧
    ∀ amount nonce, (∃ b, (SupplyAccountInfo.new u).newDecryptableSupply D aes keypair opening
        amount nonce = .ok b) ↔
      n < 2 ^ 32 ∧ (R.supply u).val + amount.toNat < 2 ^ 64 := by
  obtain ⟨m, u', hs⟩ := h.state hl hC
  obtain rfl := hu.unique ⟨m, hs.held, hs.config⟩
  obtain ⟨_, hlt⟩ := hs.reach.supply_whole hl hs.held hs.confidential hs.config
  have hread := hs.decryptedCurrentSupply_eq (D := D) hl opening
  refine ⟨hlt, hread, fun amount nonce => ⟨?_, ?_⟩⟩
  · rintro ⟨b, hb⟩
    by_cases hn : n < 2 ^ 32
    · obtain ⟨x, _, hx⟩ := hs.newDecryptableSupply_ok hl hb
      exact ⟨hn, hx ▸ x.toNat_lt⟩
    · rw [if_neg hn] at hread
      rw [SupplyAccountInfo.newDecryptableSupply, hread] at hb
      cases hb
  · rintro ⟨hn, hsum⟩
    have hword : (UInt64.ofNat (R.supply u).val).toNat = (R.supply u).val :=
      UInt64.toNat_ofNat_of_lt' hlt
    have hadd : checkedAdd (UInt64.ofNat (R.supply u).val) amount =
        some (UInt64.ofNat ((R.supply u).val + amount.toNat)) := by
      rw [checkedAdd_eq_some, hword]
      exact UInt64.toNat_ofNat_of_lt' hsum
    rw [if_pos hn] at hread
    rw [SupplyAccountInfo.newDecryptableSupply, hread]
    exact ⟨_, by rw [ok_bind, hadd]; rfl⟩

theorem decryptable_supply_tracks_minted : ∃ σ : Ledger,
    SupplyHistory openReading openDecryption .plain 1 openKeypair 0 σ ∧
      (SupplyAccountInfo.new (openSupply (2 ^ 33) (2 ^ 33) 0)).decryptedCurrentSupply
        openDecryption .plain openKeypair 0 = .ok 8589934592 := by
  obtain ⟨σ, _, h, hu, _⟩ := openHistories
  obtain ⟨_, hread, _⟩ := decryptable_supply_tracks le_ristrettoOrder openCurve_encodes h hu 0
  rw [if_pos (by decide), openReading_supply] at hread
  exact ⟨σ, h, hread⟩

/-- A burn of 2³² that is applied, and the supply of 2³² that is left cannot be read. -/
theorem decryptable_supply_lost : ∃ σ : Ledger,
    SupplyHistory openReading openDecryption .plain 1 openKeypair (2 ^ 32) σ ∧
      σ.book.SupplyOf 1 (openSupply (2 ^ 32) (2 ^ 33) 0) ∧
      (openReading.supply (openSupply (2 ^ 32) (2 ^ 33) 0)).val = 2 ^ 32 ∧
      (SupplyAccountInfo.new (openSupply (2 ^ 32) (2 ^ 33) 0)).decryptedCurrentSupply
        openDecryption .plain openKeypair 0 = .error TokenError.accountDecryption := by
  obtain ⟨_, σ, _, _, h, hu⟩ := openHistories
  obtain ⟨m, u, hs⟩ := h.state le_ristrettoOrder openCurve_encodes
  obtain rfl := hu.unique ⟨m, hs.held, hs.config⟩
  have hread := hs.decryptedCurrentSupply_eq (D := openDecryption) le_ristrettoOrder 0
  rw [if_neg (by decide)] at hread
  refine ⟨σ, h, hu, ?_, hread⟩
  rw [openReading_supply]
  decide +kernel

end SolanaEasy.Token
