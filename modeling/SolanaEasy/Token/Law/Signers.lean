import SolanaEasy.Token.Multisig
import SolanaEasy.Token.Storage

/-!
# Signers — what the counting loop of `validate_owner` computes

After some of the further accounts the array `matched` marks exactly the slots whose key has
signed among them, and the count is the number of marks. The loop stops early only at an
account that has not signed and whose slot is not marked yet.
-/

namespace SolanaEasy.Token

theorem signed_append (signers signers' : List AccountInfo) (key : Pubkey) :
    signed (signers ++ signers') key = (signed signers key || signed signers' key) :=
  List.any_append

theorem signed_singleton (info : AccountInfo) (key : Pubkey) :
    signed [info] key = (info.isSigner && info.key == key) := by
  rw [signed, List.any_cons, List.any_nil, Bool.or_false]

/-- Of the accounts that follow `passed`, one that has not signed comes before any signature
for its slot. -/
def BlockedAfter (slots : List Pubkey) (passed signers : List AccountInfo) : Prop :=
  ∃ before info after, signers = before ++ info :: after ∧ info.isSigner = false ∧
    info.key ∈ slots ∧ signed (passed ++ before) info.key = false

/-- An account that has not signed comes before any signature for its slot. -/
def Blocked (slots : List Pubkey) (signers : List AccountInfo) : Prop :=
  BlockedAfter slots [] signers

theorem blockedAfter_cons {slots : List Pubkey} {passed : List AccountInfo} {info : AccountInfo}
    {signers : List AccountInfo} :
    BlockedAfter slots passed (info :: signers) ↔
      (info.isSigner = false ∧ info.key ∈ slots ∧ signed passed info.key = false) ∨
        BlockedAfter slots (passed ++ [info]) signers := by
  constructor
  · rintro ⟨before, info', after, heq, hinfo⟩
    cases before with
    | nil =>
      obtain ⟨rfl, rfl⟩ := List.cons.inj heq
      rw [List.append_nil] at hinfo
      exact .inl hinfo
    | cons first before =>
      obtain ⟨rfl, rfl⟩ := List.cons.inj heq
      refine .inr ⟨before, info', after, rfl, ?_⟩
      rwa [List.append_assoc]
  · rintro (hinfo | ⟨before, info', after, rfl, hinfo⟩)
    · exact ⟨[], info, signers, rfl, by rwa [List.append_nil]⟩
    · refine ⟨info :: before, info', after, rfl, ?_⟩
      rwa [List.append_assoc] at hinfo

/-- An account that does not block has signed, or its slots are marked. -/
theorem signer_or_signed {slots : List Pubkey} {passed : List AccountInfo} {info : AccountInfo}
    (h : ¬ (info.isSigner = false ∧ info.key ∈ slots ∧ signed passed info.key = false)) :
    info.isSigner = true ∨ (info.key ∈ slots → signed passed info.key = true) := by
  rw [or_iff_not_imp_left, Bool.not_eq_true]
  intro hsigner hmem
  rw [← Bool.not_eq_false]
  exact fun hunsigned => h ⟨hsigner, hmem, hunsigned⟩

/-! ## One account -/

section One

variable {S : Pubkey → Bool} {info : AccountInfo}

/-- A signing account marks its slots. -/
theorem matchSigner_signer (hsigner : info.isSigner = true) (keys : List Pubkey)
    (pad : List Bool) (k : ℕ) :
    matchSigner info keys (keys.map S ++ pad) k =
      .ok (keys.map (fun key => S key || info.key == key) ++ pad,
        k + keys.countP fun key => info.key == key && !S key) := by
  induction keys generalizing k with
  | nil => rfl
  | cons key keys ih =>
    rw [List.map_cons, List.map_cons, List.cons_append, List.cons_append, List.countP_cons,
      matchSigner]
    cases hS : S key with
    | true => simp [ih]
    | false =>
      by_cases hkey : info.key = key
      · simp [ih, hsigner, hkey, failIf]
        omega
      · simp [ih, hkey, Ne.symm hkey]

/-- An account that has not signed changes nothing when its slots are marked. -/
theorem matchSigner_skip {keys : List Pubkey} (h : info.key ∈ keys → S info.key = true)
    (pad : List Bool) (k : ℕ) :
    matchSigner info keys (keys.map S ++ pad) k = .ok (keys.map S ++ pad, k) := by
  induction keys generalizing k with
  | nil => rfl
  | cons key keys ih =>
    rw [List.map_cons, List.cons_append, matchSigner]
    have hmiss : (key == info.key && !S key) = false := by
      by_cases hkey : key = info.key
      · rw [hkey, h (by rw [hkey]; exact List.mem_cons_self), Bool.not_true, Bool.and_false]
      · rw [beq_false_of_ne hkey, Bool.false_and]
    rw [hmiss, if_neg Bool.false_ne_true, ih fun hmem => h (List.mem_cons_of_mem _ hmem)]
    rfl

/-- It is refused when one is not. -/
theorem matchSigner_blocked {keys : List Pubkey} (hsigner : info.isSigner = false)
    (hmem : info.key ∈ keys) (hS : S info.key = false) (pad : List Bool) (k : ℕ) :
    matchSigner info keys (keys.map S ++ pad) k = .error .missingRequiredSignature := by
  induction keys generalizing k with
  | nil => cases hmem
  | cons key keys ih =>
    rw [List.map_cons, List.cons_append, matchSigner]
    by_cases hkey : key = info.key
    · simp [hkey, hS, hsigner, failIf]
    · have hrest : info.key ∈ keys := by
        rcases List.mem_cons.mp hmem with heq | hrest
        · exact absurd heq.symm hkey
        · exact hrest
      rw [beq_false_of_ne hkey, Bool.false_and, if_neg Bool.false_ne_true, ih hrest]
      rfl

end One

theorem countP_or {α : Type} (p q : α → Bool) (l : List α) :
    l.countP (fun a => p a || q a) = l.countP p + l.countP fun a => q a && !p a := by
  induction l with
  | nil => rfl
  | cons a l ih =>
    rw [List.countP_cons, List.countP_cons, List.countP_cons, ih]
    cases p a <;> cases q a <;> simp <;> omega

/-! ## All accounts -/

section All

variable {multisig : PodMultisig} {signers : List AccountInfo}

/-- The array `matched` when the accounts `before` have been passed. -/
def PodMultisig.marks (multisig : PodMultisig) (before : List AccountInfo) : List Bool :=
  multisig.slots.map (signed before) ++ List.replicate (maxSigners - multisig.n.toNat) false

theorem PodMultisig.length_slots (hn : multisig.n.toNat ≤ maxSigners) :
    multisig.slots.length = multisig.n.toNat := by
  rw [slots, List.length_take, multisig.signers.length_eq]
  exact Nat.min_eq_left hn

theorem PodMultisig.length_marks (hn : multisig.n.toNat ≤ maxSigners)
    (before : List AccountInfo) : (multisig.marks before).length = maxSigners := by
  rw [marks, List.length_append, List.length_map, List.length_replicate, length_slots hn]
  exact Nat.add_sub_cancel' hn

theorem countP_signed_nil (slots : List Pubkey) : slots.countP (signed []) = 0 := by
  rw [List.countP_eq_zero]
  exact fun _ _ => Bool.false_ne_true

theorem PodMultisig.marks_nil (hn : multisig.n.toNat ≤ maxSigners) :
    multisig.marks [] = List.replicate maxSigners false := by
  have hmap : multisig.slots.map (signed []) = List.replicate multisig.n.toNat false := by
    rw [← length_slots hn, ← List.map_const']
    rfl
  rw [marks, hmap, ← List.replicate_add, Nat.add_sub_cancel' hn]

/-- No slice of the loop is out of range. -/
theorem matchSigners_cons (hn : multisig.n.toNat ≤ maxSigners) (info : AccountInfo)
    (matched : List Bool) (k : ℕ) :
    matchSigners multisig (info :: signers) matched k =
      matchSigner info multisig.slots matched k >>= fun p =>
        matchSigners multisig signers p.1 p.2 := by
  have hbound : (failIf (decide (multisig.n.toNat > maxSigners)) RuntimeFault.panic :
      Result Unit) = .ok () := failIf_eq_ok.mpr (decide_eq_false (Nat.not_lt.mpr hn))
  rw [matchSigners, hbound]
  rfl

/-- One account that does not stop the loop. -/
theorem matchSigner_marks {before : List AccountInfo} {info : AccountInfo}
    (h : info.isSigner = true ∨ (info.key ∈ multisig.slots → signed before info.key = true)) :
    matchSigner info multisig.slots (multisig.marks before)
        (multisig.slots.countP (signed before)) =
      .ok (multisig.marks (before ++ [info]),
        multisig.slots.countP (signed (before ++ [info]))) := by
  have hsigned : ∀ key, signed (before ++ [info]) key =
      (signed before key || info.isSigner && info.key == key) := fun key => by
    rw [signed_append, signed_singleton]
  rw [PodMultisig.marks, PodMultisig.marks]
  cases hsigner : info.isSigner with
  | true =>
    rw [matchSigner_signer hsigner]
    simp only [hsigner, Bool.true_and, funext hsigned, countP_or]
  | false =>
    have hmem := h.resolve_left (by rw [hsigner]; exact Bool.false_ne_true)
    rw [matchSigner_skip hmem]
    simp only [hsigner, Bool.false_and, Bool.or_false, funext hsigned]

/-- The loop over the accounts that follow `passed` ends with the count of the slots that have
signed, or at the first account that blocks. -/
theorem matchSigners_marks (hn : multisig.n.toNat ≤ maxSigners)
    (passed signers : List AccountInfo) :
    (¬ BlockedAfter multisig.slots passed signers →
      matchSigners multisig signers (multisig.marks passed)
          (multisig.slots.countP (signed passed)) =
        .ok (multisig.slots.countP (signed (passed ++ signers)))) ∧
    (BlockedAfter multisig.slots passed signers →
      matchSigners multisig signers (multisig.marks passed)
          (multisig.slots.countP (signed passed)) = .error .missingRequiredSignature) := by
  induction signers generalizing passed with
  | nil =>
    refine ⟨fun _ => by rw [List.append_nil]; rfl, ?_⟩
    rintro ⟨before, info, after, heq, _⟩
    simp at heq
  | cons info signers ih =>
    obtain ⟨hok, herror⟩ := ih (passed ++ [info])
    have hstep : (info.isSigner = true ∨
          (info.key ∈ multisig.slots → signed passed info.key = true)) →
        matchSigners multisig (info :: signers) (multisig.marks passed)
            (multisig.slots.countP (signed passed)) =
          matchSigners multisig signers (multisig.marks (passed ++ [info]))
            (multisig.slots.countP (signed (passed ++ [info]))) := by
      intro h
      rw [matchSigners_cons hn, matchSigner_marks h, ok_bind]
    rw [blockedAfter_cons]
    by_cases hhead : info.isSigner = false ∧ info.key ∈ multisig.slots ∧
        signed passed info.key = false
    · refine ⟨fun h => absurd (.inl hhead) h, fun _ => ?_⟩
      obtain ⟨hsigner, hmem, hunsigned⟩ := hhead
      rw [matchSigners_cons hn, PodMultisig.marks,
        matchSigner_blocked hsigner hmem hunsigned, error_bind]
    · rw [hstep (signer_or_signed hhead), List.append_cons passed info signers]
      exact ⟨fun h => hok fun hrest => h (.inr hrest), fun h => herror (h.resolve_left hhead)⟩

/-- The loop with its array. -/
def PodMultisig.scan (multisig : PodMultisig) (signers : List AccountInfo) :
    Result (List Bool × ℕ) :=
  signers.foldlM (fun p info => matchSigner info multisig.slots p.1 p.2)
    (List.replicate maxSigners false, 0)

/-- The array always has its eleven places, and its marks are those of `marks`. -/
theorem PodMultisig.scan_eq_ok (hn : multisig.n.toNat ≤ maxSigners) {matched : List Bool} {k : ℕ}
    (h : multisig.scan signers = .ok (matched, k)) :
    matched = multisig.marks signers ∧ k = multisig.slots.countP (signed signers) := by
  have hrun : ∀ (signers passed : List AccountInfo) (p : List Bool × ℕ),
      signers.foldlM (fun p info => matchSigner info multisig.slots p.1 p.2)
        (multisig.marks passed, multisig.slots.countP (signed passed)) = .ok p →
      p = (multisig.marks (passed ++ signers),
        multisig.slots.countP (signed (passed ++ signers))) := by
    intro signers
    induction signers with
    | nil =>
      intro passed p h
      rw [List.append_nil]
      exact (Except.ok.inj h).symm
    | cons info signers ih =>
      intro passed p h
      rw [List.foldlM_cons] at h
      by_cases hhead : info.isSigner = false ∧ info.key ∈ multisig.slots ∧
          signed passed info.key = false
      · obtain ⟨hsigner, hmem, hunsigned⟩ := hhead
        rw [marks, matchSigner_blocked hsigner hmem hunsigned] at h
        cases h
      · rw [matchSigner_marks (signer_or_signed hhead), ok_bind] at h
        rw [List.append_cons passed info signers]
        exact ih (passed ++ [info]) p h
  rw [scan, ← marks_nil hn, ← countP_signed_nil multisig.slots] at h
  exact Prod.mk.inj (hrun signers [] _ h)

end All

/-! ## The verdict -/

section Verdict

variable {τ : Ledger} {programId : Pubkey} {info : AccountInfo} {multisig : PodMultisig}
  (howner : (τ info.key).owner = programId)
  (hdecode : Pod.decode? PodMultisig (τ info.key).data = some multisig)
  (hn : multisig.n.toNat ≤ maxSigners)
include howner hdecode hn

theorem validateOwner_multisig (signers : List AccountInfo) :
    (validateOwner τ programId info.key info (τ info.key).data.length signers = .ok () ↔
      ¬ Blocked multisig.slots signers ∧
        multisig.m.toNat ≤ multisig.slots.countP (signed signers)) ∧
    (validateOwner τ programId info.key info (τ info.key).data.length signers ≠ .ok () →
      validateOwner τ programId info.key info (τ info.key).data.length signers =
        .error .missingRequiredSignature) := by
  have hlength : (τ info.key).data.length = multisigLen := by
    rw [Pod.decode?_eq_some.mp hdecode, Pod.length_toBytes, size_podMultisig]
  have hbranch : validateOwner τ programId info.key info (τ info.key).data.length signers =
      matchSigners multisig signers (List.replicate maxSigners false) 0 >>= fun total =>
        failIf (total < multisig.m.toNat) .missingRequiredSignature := by
    rw [validateOwner, hdecode, hlength, howner]
    simp [failIf, okOr]
  obtain ⟨hok, herror⟩ := matchSigners_marks hn [] signers
  rw [PodMultisig.marks_nil hn, countP_signed_nil] at hok herror
  rw [hbranch]
  by_cases hblocked : Blocked multisig.slots signers
  · rw [herror hblocked, error_bind]
    exact ⟨iff_of_false (by simp) fun h => h.1 hblocked, fun _ => rfl⟩
  · rw [hok hblocked, ok_bind, failIf_eq_ok, decide_eq_false_iff_not, Nat.not_lt]
    refine ⟨(and_iff_right hblocked).symm, fun h => ?_⟩
    rw [ne_eq, failIf_eq_ok, Bool.not_eq_false] at h
    rw [failIf, if_pos h]

end Verdict

/-- Each key comes with one signer flag. -/
def Consistent (signers : List AccountInfo) : Prop :=
  ∀ a ∈ signers, ∀ b ∈ signers, a.key = b.key → a.isSigner = b.isSigner

theorem Consistent.blocked_iff {slots : List Pubkey} {signers : List AccountInfo}
    (h : Consistent signers) :
    Blocked slots signers ↔ ∃ a ∈ signers, a.isSigner = false ∧ a.key ∈ slots := by
  constructor
  · rintro ⟨before, info, after, rfl, hsigner, hmem, _⟩
    exact ⟨info, List.mem_append_right _ List.mem_cons_self, hsigner, hmem⟩
  · rintro ⟨a, ha, hsigner, hmem⟩
    obtain ⟨before, after, rfl⟩ := List.append_of_mem ha
    refine ⟨before, a, after, rfl, hsigner, hmem, ?_⟩
    rw [List.nil_append, signed, List.any_eq_false]
    intro b hb hboth
    rw [Bool.and_eq_true, beq_iff_eq] at hboth
    have hflag := h b (List.mem_append_left _ hb) a ha hboth.2
    rw [hboth.1, hsigner] at hflag
    cases hflag

theorem signed_congr {signers signers' : List AccountInfo} (h : ∀ a, a ∈ signers ↔ a ∈ signers')
    (key : Pubkey) : signed signers key = signed signers' key := by
  rw [Bool.eq_iff_iff, signed, signed, List.any_eq_true, List.any_eq_true]
  simp only [h]

/-- What `validate_owner` answers for a multisig with these slots. -/
structure CountsSigners (slots : List Pubkey) (m : UInt8) (τ : Ledger) (info : AccountInfo) :
    Prop where
  /-- The verdict is the count of the slots that have signed. -/
  exact : ∀ signers,
    validateOwner τ Keys.tokenProgram info.key info (τ info.key).data.length signers = .ok () ↔
      ¬ Blocked slots signers ∧ m.toNat ≤ slots.countP (signed signers)
  /-- It depends on which accounts are passed, not on their order and number. -/
  order : ∀ signers signers', Consistent signers → (∀ a, a ∈ signers ↔ a ∈ signers') →
    validateOwner τ Keys.tokenProgram info.key info (τ info.key).data.length signers =
      validateOwner τ Keys.tokenProgram info.key info (τ info.key).data.length signers'
  /-- Every slot has a place in the array. -/
  inRange : ∃ multisig, Pod.decode? PodMultisig (τ info.key).data = some multisig ∧
    multisig.slots = slots ∧ ∀ passed matched k, multisig.scan passed = .ok (matched, k) →
      multisig.slots.length ≤ matched.length

theorem countsSigners {τ : Ledger} {info : AccountInfo} {multisig : PodMultisig}
    (howner : (τ info.key).owner = Keys.tokenProgram)
    (hdecode : Pod.decode? PodMultisig (τ info.key).data = some multisig)
    (hn : multisig.n.toNat ≤ maxSigners) :
    CountsSigners multisig.slots multisig.m τ info where
  exact signers := (validateOwner_multisig howner hdecode hn signers).1
  order signers signers' hconsistent hmem := by
    have hconsistent' : Consistent signers' := fun a ha b hb =>
      hconsistent a ((hmem a).mpr ha) b ((hmem b).mpr hb)
    obtain ⟨hok, herror⟩ := validateOwner_multisig howner hdecode hn signers
    obtain ⟨hok', herror'⟩ := validateOwner_multisig howner hdecode hn signers'
    have hblocked : Blocked multisig.slots signers ↔ Blocked multisig.slots signers' := by
      rw [hconsistent.blocked_iff, hconsistent'.blocked_iff]
      simp only [hmem]
    rw [hblocked, funext (signed_congr hmem), ← hok'] at hok
    by_cases h : validateOwner τ Keys.tokenProgram info.key info (τ info.key).data.length
        signers = .ok ()
    · rw [h, hok.mp h]
    · rw [herror h, herror' fun h' => h (hok.mpr h')]
  inRange := by
    refine ⟨multisig, hdecode, rfl, fun passed matched k hscan => ?_⟩
    rw [(multisig.scan_eq_ok hn hscan).1, PodMultisig.length_marks hn,
      PodMultisig.length_slots hn]
    exact hn

/-! ## Multisigs of `InitializeMultisig` -/

theorem initializeMultisig_ok {rt : Runtime} {info : AccountInfo} {rest : List AccountInfo}
    {m : UInt8} {rentSysvarAccount : Bool} {σ σ' : Ledger}
    (h : Processor.initializeMultisig rt (info :: rest) m rentSysvarAccount σ = .ok σ') :
    ∃ signerInfos multisig, Processor.takeRent rentSysvarAccount rest = .ok signerInfos ∧
      1 ≤ signerInfos.length ∧ signerInfos.length ≤ maxSigners ∧
      (σ' info.key).owner = Keys.tokenProgram ∧
      Pod.decode? PodMultisig (σ' info.key).data = some multisig ∧ multisig.m = m ∧
      multisig.n.toNat = signerInfos.length ∧ multisig.slots = signerInfos.map (·.key) := by
  simp only [Processor.initializeMultisig, bind_eq_ok, okOr_eq_ok, failIf_eq_ok, exists_unit] at h
  obtain ⟨signerInfos, hrest, old, hold, hfresh, _, hvalid, _, hfits, hwrite⟩ := h
  obtain ⟨hwritable, rfl⟩ := writeData_eq_ok.mp hwrite
  have hfits' : signerInfos.length ≤ maxSigners := by
    simpa using hfits
  have hn : (UInt8.ofNat signerInfos.length).toNat = signerInfos.length := by
    rw [maxSigners] at hfits'
    exact UInt8.toNat_ofNat_of_lt' (show _ < 2 ^ 8 by omega)
  have hpos : 1 ≤ signerInfos.length := by
    simp only [hn, Processor.isValidSignerIndex] at hvalid
    simp at hvalid
    omega
  rw [Ledger.set_same]
  refine ⟨signerInfos, _, hrest, hpos, hfits', ?_, Pod.decode?_eq_some.mpr rfl, rfl, hn, ?_⟩
  · refine hwritable.resolve_right fun hsame => ?_
    have hinit := congrArg PodMultisig.isInitialized
      (Pod.toBytes_injective (hsame.trans (Pod.decode?_eq_some.mp hold)))
    rw [← hinit] at hfresh
    cases hfresh
  · rw [PodMultisig.slots]
    show List.take (UInt8.ofNat signerInfos.length).toNat (List.take maxSigners
      (signerInfos.map (·.key) ++ _)) = _
    rw [hn, List.take_take, Nat.min_eq_left hfits', List.take_left' (List.length_map _)]

/-- A multisig counts its signers exactly as long as nobody rewrites its bytes. -/
theorem multisig_counts_signers {rt : Runtime} {multisigInfo : AccountInfo}
    {rest : List AccountInfo} {m : UInt8} {rentSysvarAccount : Bool} {σ σ' : Ledger}
    (h : Processor.initializeMultisig rt (multisigInfo :: rest) m rentSysvarAccount σ = .ok σ') :
    ∃ signerInfos, Processor.takeRent rentSysvarAccount rest = .ok signerInfos ∧
      1 ≤ signerInfos.length ∧ signerInfos.length ≤ maxSigners ∧
      ∀ τ info, info.key = multisigInfo.key →
        (τ info.key).owner = (σ' info.key).owner → (τ info.key).data = (σ' info.key).data →
        CountsSigners (signerInfos.map (·.key)) m τ info := by
  obtain ⟨signerInfos, multisig, hrest, hpos, hle, howner, hdecode, rfl, hn, hslots⟩ :=
    initializeMultisig_ok h
  refine ⟨signerInfos, hrest, hpos, hle, fun τ info hkey howner' hdata' => ?_⟩
  rw [hkey] at howner' hdata'
  rw [← hslots]
  refine countsSigners ?_ ?_ (hn ▸ hle)
  · rw [hkey, howner', howner]
  · rw [hkey, hdata', hdecode]

/-- Two of two, one key of which is also passed unsigned. -/
theorem multisig_counts_signers_pair :
    ∃ σ', Processor.initializeMultisig (.modular 2) [⟨7, false⟩, ⟨1, false⟩, ⟨2, false⟩] 2 false
        (blankMultisig 7) = .ok σ' ∧
      ∃ signerInfos, Processor.takeRent false [⟨1, false⟩, ⟨2, false⟩] = .ok signerInfos ∧
        1 ≤ signerInfos.length ∧ signerInfos.length ≤ maxSigners ∧
        ∀ τ info, info.key = 7 →
          (τ info.key).owner = (σ' info.key).owner → (τ info.key).data = (σ' info.key).data →
          CountsSigners (signerInfos.map (·.key)) 2 τ info := by
  have hsome : (toOption (Processor.initializeMultisig (.modular 2)
      [⟨7, false⟩, ⟨1, false⟩, ⟨2, false⟩] 2 false (blankMultisig 7))).isSome = true := by
    decide +kernel
  obtain ⟨σ', h⟩ := Option.isSome_iff_exists.mp hsome
  rw [toOption_eq_some] at h
  exact ⟨σ', h, multisig_counts_signers h⟩

/-- The signatures of two members change places, and an unsigned entry between them stops the
loop: the verdict depends on their order. -/
theorem signer_order_matters :
    ∃ σ', Processor.initializeMultisig (.modular 2) [⟨7, false⟩, ⟨1, false⟩, ⟨2, false⟩] 2 false
        (blankMultisig 7) = .ok σ' ∧
      validateOwner σ' Keys.tokenProgram 7 ⟨7, false⟩ (σ' 7).data.length
        [⟨1, true⟩, ⟨1, false⟩, ⟨2, true⟩] = .ok () ∧
      validateOwner σ' Keys.tokenProgram 7 ⟨7, false⟩ (σ' 7).data.length
        [⟨2, true⟩, ⟨1, false⟩, ⟨1, true⟩] = .error .missingRequiredSignature := by
  have h : (toOption (Processor.initializeMultisig (.modular 2)
      [⟨7, false⟩, ⟨1, false⟩, ⟨2, false⟩] 2 false (blankMultisig 7))).any (fun σ' =>
        validateOwner σ' Keys.tokenProgram 7 ⟨7, false⟩ (σ' 7).data.length
          [⟨1, true⟩, ⟨1, false⟩, ⟨2, true⟩] = .ok () ∧
        validateOwner σ' Keys.tokenProgram 7 ⟨7, false⟩ (σ' 7).data.length
          [⟨2, true⟩, ⟨1, false⟩, ⟨1, true⟩] = .error .missingRequiredSignature) = true := by
    decide +kernel
  obtain ⟨σ', hinit, hverdicts⟩ := Option.any_eq_true .. |>.mp h
  exact ⟨σ', toOption_eq_some.mp hinit, of_decide_eq_true hverdicts⟩

end SolanaEasy.Token
