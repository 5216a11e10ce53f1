import SolanaEasy.Token.Confidential.Reading
import SolanaEasy.Token.Instruction

/-!
# Multisig — who has signed when `validate_owner` succeeds

`validate_owner` counts the slots of a multisig that the passed signers fill and
compares the count with `m`. Nothing in it reads `is_initialized`, so the bytes of
an account that `InitializeMultisig` never wrote are believed as they are. This
module says exactly for which bytes that matters.
-/

namespace SolanaEasy.Token

/-! ## Vocabulary -/

/-- `is_multisig_account`, for one program. -/
def Cell.IsMultisig (programId : Pubkey) (c : Cell) : Prop :=
  c.owner = programId ∧ c.data.length = multisigLen

/-- The key of an account passed in that has signed. -/
def signed (signers : List AccountInfo) (key : Pubkey) : Bool :=
  signers.any fun info => info.isSigner && info.key == key

/-- The slots in use. -/
def PodMultisig.slots (multisig : PodMultisig) : List Pubkey :=
  multisig.signers.toList.take multisig.n.toNat

/-- An initialised multisig, `m` of whose slots hold keys of signing accounts. -/
structure PodMultisig.Satisfied (multisig : PodMultisig) (signers : List AccountInfo) : Prop where
  isInitialized : multisig.isInitialized.toBool = true
  one_le_m : 1 ≤ multisig.m.toNat
  m_le_n : multisig.m.toNat ≤ multisig.n.toNat
  n_le : multisig.n.toNat ≤ maxSigners
  filled : multisig.m.toNat ≤ multisig.slots.countP (signed signers)

/-- What a successful `validate_owner` should mean. -/
structure Authorised (σ : Ledger) (programId expectedOwner : Pubkey) (info : AccountInfo)
    (signers : List AccountInfo) : Prop where
  key : expectedOwner = info.key
  signer : ∃ a ∈ info :: signers, a.isSigner = true
  kind : (¬ (σ info.key).IsMultisig programId ∧ info.isSigner = true) ∨
    ((σ info.key).IsMultisig programId ∧ ∃ multisig,
      Pod.decode? PodMultisig (σ info.key).data = some multisig ∧ multisig.Satisfied signers)

/-- The bytes that are believed although nobody ever agreed to them: no signature
is asked for, or the account was never initialised and its `m` can be reached. -/
def PodMultisig.Unfounded (multisig : PodMultisig) : Prop :=
  multisig.m = 0 ∨ (multisig.isInitialized.toBool = false ∧
    multisig.m.toNat ≤ multisig.n.toNat ∧ multisig.n.toNat ≤ maxSigners)

instance (multisig : PodMultisig) : Decidable multisig.Unfounded :=
  inferInstanceAs (Decidable (_ ∨ _))

/-- A multisig account with unfounded bytes. -/
def Cell.Unfounded (programId : Pubkey) (c : Cell) : Prop :=
  c.IsMultisig programId ∧ ∃ multisig,
    Pod.decode? PodMultisig c.data = some multisig ∧ multisig.Unfounded

theorem signed_of_mem {signers : List AccountInfo} {info : AccountInfo} (hmem : info ∈ signers)
    (hsigner : info.isSigner = true) : signed signers info.key = true := by
  rw [signed, List.any_eq_true]
  exact ⟨info, hmem, by simp [hsigner]⟩

theorem exists_of_signed {signers : List AccountInfo} {key : Pubkey}
    (h : signed signers key = true) : ∃ info ∈ signers, info.isSigner = true := by
  rw [signed, List.any_eq_true] at h
  obtain ⟨info, hmem, hinfo⟩ := h
  rw [Bool.and_eq_true] at hinfo
  exact ⟨info, hmem, hinfo.1⟩

/-! ## The marks of the counting loop -/

/-- Every mark stands for a key in `S`; nothing is marked past the slots. -/
def Justified (S : Pubkey → Bool) : List Pubkey → List Bool → Prop
  | key :: keys, m :: matched => (m = true → S key = true) ∧ Justified S keys matched
  | [], matched => matched.count true = 0
  | _ :: _, [] => True

/-- Every slot with a key in `K` is marked. -/
def Marked (K : Pubkey → Prop) : List Pubkey → List Bool → Prop
  | key :: keys, m :: matched => (K key → m = true) ∧ Marked K keys matched
  | [], _ => True
  | _ :: _, [] => False

theorem Justified.count_le {S : Pubkey → Bool} {keys : List Pubkey} {matched : List Bool}
    (h : Justified S keys matched) : matched.count true ≤ keys.countP S := by
  induction keys generalizing matched with
  | nil =>
    have hzero : matched.count true = 0 := by simpa [Justified] using h
    omega
  | cons key keys ih =>
    cases matched with
    | nil => simp
    | cons m matched =>
      obtain ⟨hm, hrest⟩ := h
      have hle := ih hrest
      rw [List.count_cons, List.countP_cons]
      cases m with
      | false => simpa using Nat.le_trans hle (Nat.le_add_right _ _)
      | true => simpa [hm rfl] using hle

theorem justified_replicate (S : Pubkey → Bool) (keys : List Pubkey) (n : Nat) :
    Justified S keys (List.replicate n false) := by
  induction keys generalizing n with
  | nil =>
    show (List.replicate n false).count true = 0
    simp [List.count_replicate]
  | cons key keys ih =>
    cases n with
    | zero => trivial
    | succ n => exact ⟨by simp, ih n⟩

theorem marked_replicate {keys : List Pubkey} {n : Nat} (h : keys.length ≤ n) :
    Marked (fun _ => False) keys (List.replicate n false) := by
  induction keys generalizing n with
  | nil => trivial
  | cons key keys ih =>
    cases n with
    | zero => simp at h
    | succ n => exact ⟨False.elim, ih (by simpa using h)⟩

theorem Marked.le_count {K : Pubkey → Prop} {keys : List Pubkey} {matched : List Bool}
    (h : Marked K keys matched) (hK : ∀ key ∈ keys, K key) : keys.length ≤ matched.count true := by
  induction keys generalizing matched with
  | nil => simp
  | cons key keys ih =>
    cases matched with
    | nil => exact absurd h id
    | cons m matched =>
      obtain ⟨hm, hrest⟩ := h
      have hle := ih hrest fun k hk => hK k (List.mem_cons_of_mem _ hk)
      rw [hm (hK key List.mem_cons_self), List.count_cons_self, List.length_cons]
      omega

/-! ## One signer against the slots -/

/-- What a successful pass adds to the count is what it marks, and it marks only
slots of a signing account. -/
theorem matchSigner_ok {S : Pubkey → Bool} {signer : AccountInfo} {keys : List Pubkey}
    {matched matched' : List Bool} {numSigners numSigners' : Nat}
    (hS : signer.isSigner = true → S signer.key = true)
    (h : matchSigner signer keys matched numSigners = .ok (matched', numSigners'))
    (hj : Justified S keys matched) :
    Justified S keys matched' ∧
      numSigners' + matched.count true = numSigners + matched'.count true := by
  induction keys generalizing matched matched' numSigners numSigners' with
  | nil =>
    simp only [matchSigner, Except.ok.injEq, Prod.mk.injEq] at h
    obtain ⟨rfl, rfl⟩ := h
    exact ⟨hj, rfl⟩
  | cons key keys ih =>
    cases matched with
    | nil =>
      simp only [matchSigner, Except.ok.injEq, Prod.mk.injEq] at h
      obtain ⟨rfl, rfl⟩ := h
      exact ⟨hj, rfl⟩
    | cons m matched =>
      obtain ⟨hm, hrest⟩ := hj
      rw [matchSigner] at h
      split at h
      · rename_i hmatch
        simp only [bind_eq_ok, failIf_eq_ok, pure_eq_ok, Prod.exists, Prod.mk.injEq] at h
        obtain ⟨_, hsigner, tail, count, hrec, rfl, rfl⟩ := h
        rw [Bool.and_eq_true, beq_iff_eq, Bool.not_eq_true'] at hmatch
        obtain ⟨rfl, rfl⟩ := hmatch
        obtain ⟨hj', hcount⟩ := ih hrec hrest
        refine ⟨⟨fun _ => hS (by simpa using hsigner), hj'⟩, ?_⟩
        rw [List.count_cons_of_ne (by decide), List.count_cons_self]
        omega
      · simp only [bind_eq_ok, pure_eq_ok, Prod.exists, Prod.mk.injEq] at h
        obtain ⟨tail, count, hrec, rfl, rfl⟩ := h
        obtain ⟨hj', hcount⟩ := ih hrec hrest
        refine ⟨⟨hm, hj'⟩, ?_⟩
        rw [List.count_cons, List.count_cons]
        omega

/-- A signing account marks all of its slots. -/
theorem matchSigner_total {K : Pubkey → Prop} {signer : AccountInfo} {keys : List Pubkey}
    {matched : List Bool} (numSigners : Nat) (hsigner : signer.isSigner = true)
    (hK : Marked K keys matched) :
    ∃ matched' numSigners',
      matchSigner signer keys matched numSigners = .ok (matched', numSigners') ∧
      Marked (fun key => K key ∨ key = signer.key) keys matched' := by
  induction keys generalizing matched numSigners with
  | nil => exact ⟨matched, numSigners, by simp [matchSigner], trivial⟩
  | cons key keys ih =>
    cases matched with
    | nil => exact absurd hK id
    | cons m matched =>
      obtain ⟨hm, hrest⟩ := hK
      rw [matchSigner]
      split
      · obtain ⟨tail, count, hrec, hmarked⟩ := ih (numSigners + 1) hrest
        exact ⟨true :: tail, count, by simp [hsigner, failIf, hrec], fun _ => rfl, hmarked⟩
      · rename_i hmatch
        obtain ⟨tail, count, hrec, hmarked⟩ := ih numSigners hrest
        refine ⟨m :: tail, count, by simp [hrec], ?_, hmarked⟩
        rintro (hkey | rfl)
        · exact hm hkey
        · simpa using hmatch

/-! ## All signers -/

theorem matchSigners_ok {S : Pubkey → Bool} {multisig : PodMultisig} {signers : List AccountInfo}
    {matched : List Bool} {numSigners total : Nat}
    (hS : ∀ signer ∈ signers, signer.isSigner = true → S signer.key = true)
    (h : matchSigners multisig signers matched numSigners = .ok total)
    (hj : Justified S multisig.slots matched) :
    ∃ matched', Justified S multisig.slots matched' ∧
      total + matched.count true = numSigners + matched'.count true := by
  induction signers generalizing matched numSigners with
  | nil =>
    simp only [matchSigners, Except.ok.injEq] at h
    exact ⟨matched, hj, by rw [h]⟩
  | cons signer signers ih =>
    simp only [matchSigners, bind_eq_ok, failIf_eq_ok, Prod.exists] at h
    obtain ⟨_, _, matched₁, numSigners₁, hone, hrest⟩ := h
    obtain ⟨hj₁, hcount₁⟩ := matchSigner_ok (hS signer List.mem_cons_self) hone hj
    obtain ⟨matched₂, hj₂, hcount₂⟩ :=
      ih (fun a ha => hS a (List.mem_cons_of_mem _ ha)) hrest hj₁
    exact ⟨matched₂, hj₂, by omega⟩

theorem matchSigners_n_le {multisig : PodMultisig} {signers : List AccountInfo}
    {matched : List Bool} {numSigners total : Nat} (hne : signers ≠ [])
    (h : matchSigners multisig signers matched numSigners = .ok total) :
    multisig.n.toNat ≤ maxSigners := by
  cases signers with
  | nil => exact absurd rfl hne
  | cons signer signers =>
    simp only [matchSigners, bind_eq_ok, failIf_eq_ok, decide_eq_false_iff_not] at h
    obtain ⟨_, hn, _⟩ := h
    omega

/-- Signing accounts are counted slot by slot, without an error. -/
theorem matchSigners_total {K : Pubkey → Prop} {multisig : PodMultisig}
    (hn : multisig.n.toNat ≤ maxSigners) {signers : List AccountInfo} {matched : List Bool}
    (numSigners : Nat) (hsigners : ∀ a ∈ signers, a.isSigner = true)
    (hK : Marked K multisig.slots matched)
    (hj : Justified (fun _ => true) multisig.slots matched) :
    ∃ matched' total, matchSigners multisig signers matched numSigners = .ok total ∧
      Marked (fun key => K key ∨ key ∈ signers.map (·.key)) multisig.slots matched' ∧
      total + matched.count true = numSigners + matched'.count true := by
  induction signers generalizing matched numSigners K with
  | nil => exact ⟨matched, numSigners, rfl, by simpa using hK, rfl⟩
  | cons signer signers ih =>
    have hhead := hsigners signer List.mem_cons_self
    obtain ⟨matched₁, numSigners₁, hone, hmarked₁⟩ := matchSigner_total numSigners hhead hK
    obtain ⟨hj₁, hcount₁⟩ := matchSigner_ok (fun _ => rfl) hone hj
    obtain ⟨matched₂, total, hrest, hmarked₂, hcount₂⟩ :=
      ih numSigners₁ (fun a ha => hsigners a (List.mem_cons_of_mem _ ha)) hmarked₁ hj₁
    refine ⟨matched₂, total, ?_, ?_, by omega⟩
    · simpa [matchSigners, failIf, Nat.not_lt.mpr hn] using ⟨_, _, hone, hrest⟩
    · simpa [or_assoc] using hmarked₂

/-- What the count says: the slots of signing accounts, at most `n` of them. -/
theorem matchSigners_le {multisig : PodMultisig} {signers : List AccountInfo} {total : Nat}
    (h : matchSigners multisig signers (List.replicate maxSigners false) 0 = .ok total) :
    total ≤ multisig.slots.countP (signed signers) := by
  obtain ⟨matched, hj, hcount⟩ := matchSigners_ok
    (fun a ha hsigner => signed_of_mem ha hsigner) h (justified_replicate _ _ _)
  have hle := hj.count_le
  have hzero : (List.replicate maxSigners false).count true = 0 := by decide
  omega

/-- With a signature for every slot the count reaches `n`. -/
theorem exists_signers_le {multisig : PodMultisig} (hn : multisig.n.toNat ≤ maxSigners) :
    ∃ signers total, matchSigners multisig signers (List.replicate maxSigners false) 0 = .ok total ∧
      multisig.n.toNat ≤ total := by
  have hlen : multisig.slots.length = multisig.n.toNat := by
    rw [PodMultisig.slots, List.length_take, multisig.signers.length_eq]
    exact Nat.min_eq_left hn
  have hmarked : Marked (fun _ => False) multisig.slots (List.replicate maxSigners false) :=
    marked_replicate (by omega)
  have hsigned : ∀ a ∈ multisig.slots.map (⟨·, true⟩ : Pubkey → AccountInfo),
      a.isSigner = true := by
    simp
  obtain ⟨matched, total, hok, hall, hcount⟩ :=
    matchSigners_total hn 0 hsigned hmarked (justified_replicate _ _ _)
  have hle := hall.le_count fun key hkey => .inr (by simpa using hkey)
  have hzero : (List.replicate maxSigners false).count true = 0 := by decide
  exact ⟨_, total, hok, by omega⟩

/-! ## `validate_owner` -/

theorem validateOwner_eq_ok {σ : Ledger} {programId expectedOwner : Pubkey} {info : AccountInfo}
    {signers : List AccountInfo} :
    validateOwner σ programId expectedOwner info (σ info.key).data.length signers = .ok () ↔
      expectedOwner = info.key ∧
        ((¬ (σ info.key).IsMultisig programId ∧ info.isSigner = true) ∨
          ((σ info.key).IsMultisig programId ∧ ∃ multisig total,
            Pod.decode? PodMultisig (σ info.key).data = some multisig ∧
            matchSigners multisig signers (List.replicate maxSigners false) 0 = .ok total ∧
            multisig.m.toNat ≤ total)) := by
  have hcond : (programId == (σ info.key).owner && (σ info.key).data.length == multisigLen) = true ↔
      (σ info.key).IsMultisig programId := by
    rw [Bool.and_eq_true, beq_iff_eq, beq_iff_eq, Cell.IsMultisig, eq_comm (a := programId)]
  rw [validateOwner]
  by_cases hmultisig : (σ info.key).IsMultisig programId
  · simp [hcond.mpr hmultisig, hmultisig]
  · rw [← hcond, Bool.not_eq_true] at hmultisig
    have hnot : ¬ (σ info.key).IsMultisig programId := by
      rw [← hcond, hmultisig]
      exact Bool.false_ne_true
    simp [hmultisig, hnot]

/-- Founded bytes are enough: then success means authority. -/
theorem authorised_of_founded {σ : Ledger} {programId expectedOwner : Pubkey} {info : AccountInfo}
    {signers : List AccountInfo}
    (hfounded : ¬ (expectedOwner = info.key ∧ (σ info.key).Unfounded programId))
    (h : validateOwner σ programId expectedOwner info (σ info.key).data.length signers = .ok ()) :
    Authorised σ programId expectedOwner info signers := by
  obtain ⟨hkey, ⟨hnot, hsigner⟩ | ⟨hmultisig, multisig, total, hdecode, hcount, hm⟩⟩ :=
    validateOwner_eq_ok.mp h
  · exact ⟨hkey, ⟨info, List.mem_cons_self, hsigner⟩, .inl ⟨hnot, hsigner⟩⟩
  · have hb : ¬ multisig.Unfounded := fun hb => hfounded ⟨hkey, hmultisig, multisig, hdecode, hb⟩
    have hfilled : multisig.m.toNat ≤ multisig.slots.countP (signed signers) :=
      hm.trans (matchSigners_le hcount)
    have hpos : 1 ≤ multisig.m.toNat := by
      rcases Nat.eq_zero_or_pos multisig.m.toNat with hzero | hpos
      · exact absurd (.inl (UInt8.toNat_inj.mp hzero)) hb
      · exact hpos
    obtain ⟨key, hslot, hsigned⟩ := List.countP_pos_iff.mp (hpos.trans hfilled)
    obtain ⟨a, ha, hsigner⟩ := exists_of_signed hsigned
    have hn : multisig.n.toNat ≤ maxSigners := matchSigners_n_le (List.ne_nil_of_mem ha) hcount
    have hslots : multisig.slots.length ≤ multisig.n.toNat := List.length_take_le _ _
    have hle : multisig.m.toNat ≤ multisig.n.toNat :=
      hfilled.trans (List.countP_le_length.trans hslots)
    have hinit : multisig.isInitialized.toBool = true := by
      rw [← Bool.not_eq_false]
      exact fun hinit => hb (.inr ⟨hinit, hle, hn⟩)
    exact ⟨hkey, ⟨a, List.mem_cons_of_mem _ ha, hsigner⟩,
      .inr ⟨hmultisig, multisig, hdecode, hinit, hpos, hle, hn, hfilled⟩⟩

/-- Unfounded bytes are believed for some list of further accounts. -/
theorem exists_not_authorised {σ : Ledger} {programId : Pubkey} {info : AccountInfo}
    (h : (σ info.key).Unfounded programId) :
    ∃ signers, validateOwner σ programId info.key info (σ info.key).data.length signers = .ok () ∧
      ¬ Authorised σ programId info.key info signers := by
  obtain ⟨hmultisig, multisig, hdecode, hb⟩ := h
  have hkind : ∀ {signers}, Authorised σ programId info.key info signers →
      multisig.Satisfied signers := by
    rintro signers ⟨_, _, ⟨hnot, _⟩ | ⟨_, multisig', hdecode', hsat⟩⟩
    · exact absurd hmultisig hnot
    · rwa [Option.some.inj (hdecode.symm.trans hdecode')]
  rcases hb with hm | ⟨hinit, hle, hn⟩
  · -- no signature is asked for
    refine ⟨[], validateOwner_eq_ok.mpr ⟨rfl, .inr ⟨hmultisig, multisig, 0, hdecode, rfl, ?_⟩⟩, ?_⟩
    · rw [hm]
      exact Nat.le_refl 0
    · intro h
      have hpos := (hkind h).one_le_m
      rw [hm] at hpos
      exact absurd hpos (by decide)
  · obtain ⟨signers, total, hcount, htotal⟩ := exists_signers_le hn
    refine ⟨signers, validateOwner_eq_ok.mpr
      ⟨rfl, .inr ⟨hmultisig, multisig, total, hdecode, hcount, hle.trans htotal⟩⟩, ?_⟩
    intro h
    have hinit' := (hkind h).isInitialized
    rw [hinit] at hinit'
    exact Bool.false_ne_true hinit'

/-- Whatever accounts are passed along, `validate_owner` grants nothing without
authority: exactly when the expected owner is not an account of unfounded bytes. -/
theorem validateOwner_authorises_iff (σ : Ledger) (programId expectedOwner : Pubkey)
    (info : AccountInfo) :
    (∀ signers, validateOwner σ programId expectedOwner info (σ info.key).data.length signers =
        .ok () → Authorised σ programId expectedOwner info signers) ↔
      ¬ (expectedOwner = info.key ∧ (σ info.key).Unfounded programId) := by
  constructor
  · rintro h ⟨rfl, hb⟩
    obtain ⟨signers, hok, hnot⟩ := exists_not_authorised hb
    exact hnot (h signers hok)
  · intro hfounded signers
    exact authorised_of_founded hfounded

/-- A ledger with one account of multisig size that was handed to the program and
never initialised. -/
def blankMultisig (key : Pubkey) : Ledger :=
  fun k => if k = key then ⟨10, Keys.tokenProgram, zeros multisigLen⟩ else .empty

/-- Nobody signs, and `validate_owner` is content: anyone can carry the excess
lamports of the account away. -/
theorem blankMultisig_unguarded :
    (validateOwner (blankMultisig 7) Keys.tokenProgram 7 ⟨7, false⟩
        (blankMultisig 7 7).data.length [] = .ok () ∧
      ¬ Authorised (blankMultisig 7) Keys.tokenProgram 7 ⟨7, false⟩ []) ∧
    ((toOption (process (.modular 2) .plain [⟨7, false⟩, ⟨8, false⟩, ⟨7, false⟩]
      .withdrawExcessLamports (blankMultisig 7))).map fun σ => (σ 7).lamports) = some 1 := by
  refine ⟨⟨by decide +kernel, ?_⟩, by decide +kernel⟩
  rintro ⟨_, ⟨a, ha, hsigner⟩, _⟩
  obtain rfl := List.mem_singleton.mp ha
  exact Bool.false_ne_true hsigner

end SolanaEasy.Token
