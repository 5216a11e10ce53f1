import SolanaEasy.Token.Packed
import SolanaEasy.Token.Runtime

/-!
# The book — what a ledger says about mints and token accounts

`Ledger.book` reads every cell as the program would: a token account, a mint, or
neither. It is the state of the abstract model. `Ledger.Wf` says that every cell
of the program holds bytes the program can have written there; it is what makes
the book a function of what was stored, whatever the layout.
-/

namespace SolanaEasy.Token

/-! ## Contents -/

/-- What a cell holds, as far as tokens are concerned. -/
inductive Contents where
  | other
  | account (v : View PodAccount)
  | mint (v : View PodMint)

/-- An entry of the book. -/
structure Entry where
  lamports : UInt64
  size : Nat
  contents : Contents

abbrev Book := Pubkey → Entry

def Cell.contents (c : Cell) : Contents :=
  if c.owner = Keys.tokenProgram then
    match toOption (unpack PodAccount c.data) with
    | some s => .account s.view
    | none =>
      match toOption (unpack PodMint c.data) with
      | some s => .mint s.view
      | none => .other
  else .other

def Cell.entry (c : Cell) : Entry := ⟨c.lamports, c.data.length, c.contents⟩

def Ledger.book (σ : Ledger) : Book := fun k => (σ k).entry

/-- The book with other contents at `k`. -/
def Book.put (β : Book) (k : Pubkey) (c : Contents) : Book :=
  Function.update β k { β k with contents := c }

/-! ## Accounts before they are initialised -/

/-- Types under which an account keeps something of value, or who may move it. -/
def ExtensionType.isPurse : ExtensionType → Bool
  | transferFeeAmount | confidentialTransferAccount | confidentialTransferFeeAmount | cpiGuard
  | transferHookAccount => true
  | _ => false

/-- Types of the records that are added to a mint after it was initialised. -/
def ExtensionType.isRecord : ExtensionType → Bool
  | tokenMetadata | tokenGroup | tokenGroupMember => true
  | _ => false

/-- Types under which a mint keeps what it shows besides its tokens. -/
def ExtensionType.isShown : ExtensionType → Bool
  | interestBearingConfig | scaledUiAmount | tokenGroup | tokenGroupMember => true
  | _ => false

/-- Types under which a mint keeps something of value, or what new accounts start with. -/
def ExtensionType.isTreasury : ExtensionType → Bool
  | transferFeeConfig | confidentialTransferFeeConfig | confidentialMintBurn | pausable
  | defaultAccountState => true
  | t => t.isShown

/-- Extensions as an initialiser leaves them: nothing is withheld, minted or burned yet, the
fees, the interest and the multiplier have no past, a default state is one an account can
start in, and there are no records, and nothing an account has of its own. -/
structure View.Fresh {S : Type} (v : View S) : Prop where
  feeConfig : ∀ x, v.get TransferFeeConfig = some x → x.withheldAmount = 0 ∧
    x.olderTransferFee = x.newerTransferFee ∧
    x.newerTransferFee.transferFeeBasisPoints.toNat ≤ TransferFee.maxFeeBasisPoints
  confidentialFeeConfig : ∀ x, v.get ConfidentialTransferFeeConfig = some x →
    x.withheldAmount = .zeroed
  mintBurn : ∀ x, v.get ConfidentialMintBurn = some x →
    x.confidentialSupply = .zeroed ∧ x.pendingBurn = .zeroed
  defaultState : ∀ x, v.get DefaultAccountState = some x → x.state = 1 ∨ x.state = 2
  interest : ∀ x, v.get InterestBearingConfig = some x →
    x.lastUpdateTimestamp = x.initializationTimestamp ∧ x.preUpdateAverageRate = x.currentRate
  multiplier : ∀ x, v.get ScaledUiAmountConfig = some x → x.newMultiplier = x.multiplier ∧
    x.newMultiplierEffectiveTimestamp = 0 ∧ isPositiveNormal x.multiplier = true
  absent : ∀ t : ExtensionType, (t.isPurse || t.isRecord) = true → v.ext t = none

theorem View.fresh_of_ext {S T : Type} {v : View S} {w : View T} (h : v.ext = w.ext)
    (hw : w.Fresh) : v.Fresh := by
  have hget : ∀ (V : Type) [Pod V] [Extension V], v.get V = w.get V := by
    intro V _ _
    rw [View.get, View.get, h]
  constructor
  · exact fun x hx => hw.feeConfig x ((hget TransferFeeConfig).symm.trans hx)
  · exact fun x hx => hw.confidentialFeeConfig x
      ((hget ConfidentialTransferFeeConfig).symm.trans hx)
  · exact fun x hx => hw.mintBurn x ((hget ConfidentialMintBurn).symm.trans hx)
  · exact fun x hx => hw.defaultState x ((hget DefaultAccountState).symm.trans hx)
  · exact fun x hx => hw.interest x ((hget InterestBearingConfig).symm.trans hx)
  · exact fun x hx => hw.multiplier x ((hget ScaledUiAmountConfig).symm.trans hx)
  · exact fun t ht => (congrFun h t).trans (hw.absent t ht)

theorem View.fresh_of_ext_none {S : Type} {v : View S} (h : ∀ t, v.ext t = none) : v.Fresh := by
  have hget : ∀ (V : Type) [Pod V] [Extension V], v.get V = none := by
    intro V _ _
    exact View.get_eq_none_of_ext (V := V) (h _)
  constructor
  · simp [hget TransferFeeConfig]
  · simp [hget ConfidentialTransferFeeConfig]
  · simp [hget ConfidentialMintBurn]
  · simp [hget DefaultAccountState]
  · simp [hget InterestBearingConfig]
  · simp [hget ScaledUiAmountConfig]
  · exact fun t _ => h t

/-- Zeros, or zeros up to the buffer and the entries of some initialisers. -/
def FreshData (data : Bytes) : Prop :=
  data = zeros data.length ∨
    ∃ (a : AccountType) (b : TlvBuffer a), data = zeros (accountLen + 1) ++ b.bytes ∧
      (⟨(), b.get⟩ : View Unit).Fresh

theorem freshData_zeros (n : Nat) : FreshData (zeros n) := .inl (by simp)

section Fresh

variable {S : Type} [BaseState S]

theorem zeros_of_append {x y : Bytes} {n : Nat} (h : x ++ y = zeros n) :
    x = zeros x.length ∧ y = zeros y.length := by
  have hmem : ∀ b ∈ x ++ y, b = 0 := fun b hb => List.eq_of_mem_replicate (h ▸ hb)
  constructor
  · exact List.eq_replicate_iff.mpr ⟨rfl, fun b hb => hmem b (List.mem_append_left _ hb)⟩
  · exact List.eq_replicate_iff.mpr ⟨rfl, fun b hb => hmem b (List.mem_append_right _ hb)⟩

theorem ext_view_blank {s : PodState S} {n : Nat} (h : s.tlvData = zeros n) (t : ExtensionType) :
    s.view.ext t = none := by
  have hb : (TlvBuffer.blank (BaseState.accountType S) n).bytes = s.tlvData := h.symm
  rw [PodState.ext_view_eq hb, TlvBuffer.get_blank]

/-- The prefix of fresh data, in either layout. -/
theorem zeros_of_freshData {data : Bytes} (h : FreshData data) (n : Nat) (hn : n ≤ accountLen + 1)
    (hlen : n ≤ data.length) : data.take n = zeros n := by
  rcases h with h | ⟨a, b, h, _⟩
  · rw [h, List.take_replicate, Nat.min_eq_left hlen]
  · rw [h, List.take_append_of_le_length (by simpa using hn), List.take_replicate,
      Nat.min_eq_left hn]

/-- Fresh data, unpacked by an initialiser. -/
theorem unpackUninitialized_fresh {data : Bytes} {s : PodState S} (hfresh : FreshData data)
    (h : unpackUninitialized S data = .ok s) :
    s.Wf ∧ s.view.Fresh ∧ Pod.toBytes s.base = zeros (Pod.size S) := by
  have hle := BaseState.size_le (S := S)
  obtain ⟨hdata, hlayout, _, _, hfirst⟩ := unpackUninitialized_ok h
  have hsize : (Pod.toBytes s.base).length = Pod.size S := Pod.length_toBytes _
  have hblank : ∀ n, s.tlvData = zeros n → s.Wf ∧ s.view.Fresh := fun n hn =>
    ⟨⟨.blank _ n, hn.symm⟩, View.fresh_of_ext_none (ext_view_blank hn)⟩
  have hbase : Pod.toBytes s.base = zeros (Pod.size S) := by
    obtain ⟨hlen, _, _⟩ := rest_of_layout hlayout
    have htake := zeros_of_freshData hfresh (Pod.size S) (by omega) (hdata ▸ hlen)
    rw [hdata] at htake
    rcases hlayout with ⟨hat, _⟩ | hat
    · rwa [PodState.bytes_of_isEmpty hat, List.take_of_length_le hsize.le] at htake
    · rwa [PodState.bytes_of_accountType hat, List.take_left' hsize] at htake
  refine and_assoc.mp ⟨?_, hbase⟩
  rcases hlayout with ⟨_, htlv⟩ | hat
  · exact hblank 0 htlv
  · rw [PodState.bytes_of_accountType hat] at hdata
    rcases hfresh with hz | ⟨a, b, hz, hb⟩
    · rw [hz, ← List.append_assoc, ← List.append_assoc] at hdata
      exact hblank _ (zeros_of_append hdata.symm).2
    · have hlen : (Pod.toBytes s.base ++ (zeros (accountLen - Pod.size S) ++
          [AccountType.uninitialized.toU8])).length = accountLen + 1 := by
        rw [List.length_append, List.length_append, hsize, List.length_replicate,
          List.length_singleton]
        omega
      have hsplit : zeros (accountLen + 1) ++ b.bytes = (Pod.toBytes s.base ++
          (zeros (accountLen - Pod.size S) ++ [AccountType.uninitialized.toU8])) ++ s.tlvData := by
        rw [← hz, hdata]
        simp only [List.append_assoc]
      have hbytes := (List.append_inj hsplit (by rw [hlen, List.length_replicate])).2
      by_cases ha : a = BaseState.accountType S
      · subst ha
        refine ⟨⟨b, hbytes⟩, View.fresh_of_ext (funext fun t => ?_) hb⟩
        exact PodState.ext_view_eq hbytes t
      · -- entries of another kind would have been rejected
        have hnil : b.entries = [] := by
          cases hes : b.entries with
          | nil => rfl
          | cons e es =>
            have hhead : b.types.head? = some e.type := by rw [TlvBuffer.types, hes]; rfl
            have hget := b.getFirstExtensionType_bytes
            rw [hhead, hbytes] at hget
            exact absurd ((b.belongs e (by rw [hes]; simp)).accountType.symm.trans
              (hfirst e.type hget)) ha
        refine hblank b.padding ?_
        rw [← hbytes, TlvBuffer.bytes, hnil, entriesBytes_nil, List.nil_append]

/-- What an initialiser writes back is fresh again. -/
theorem PodState.Stored.freshData {s s' : PodState S} {v : View S} (h : s.Stored s' v)
    (hlayout : s.Layout .uninitialized) (hzero : Pod.toBytes s.base = zeros (Pod.size S))
    (hbase : v.base = s.base) (hfresh : v.Fresh) : FreshData s'.bytes := by
  have hle := BaseState.size_le (S := S)
  have hbytes : Pod.toBytes s'.base = zeros (Pod.size S) := by rw [h.base_eq, hbase, hzero]
  rcases hlayout with ⟨hat, _⟩ | hat
  · left
    rw [PodState.bytes_of_isEmpty (h.accountType.trans hat), hbytes]
    simp
  · right
    obtain ⟨b, hb⟩ := h.wf
    refine ⟨_, b, ?_, View.fresh_of_ext (funext fun t => ?_) hfresh⟩
    · have hz : zeros (accountLen + 1) = zeros (Pod.size S) ++
          (zeros (accountLen - Pod.size S) ++ [AccountType.uninitialized.toU8]) := by
        have hone : [AccountType.uninitialized.toU8] = zeros 1 := rfl
        rw [hone, List.replicate_append_replicate, List.replicate_append_replicate]
        congr 1
        omega
      rw [PodState.bytes_of_accountType (h.accountType.trans hat), hbytes, hz, hb]
      simp only [List.append_assoc]
    · rw [← h.view]
      exact (PodState.ext_view_eq hb t).symm

end Fresh

/-! ## Data the program can have written -/

/-- A mint's default account state is one an account can start in. -/
def View.ValidDefault (v : View PodMint) : Prop :=
  ∀ x, v.get DefaultAccountState = some x → x.state = 1 ∨ x.state = 2

inductive WfData (data : Bytes) : Prop
  | multisig {multisig : PodMultisig} (h : data = Pod.toBytes multisig)
      (hn : multisig.n.toNat ≤ maxSigners)
  | account {s : PodState PodAccount} (h : unpack PodAccount data = .ok s) (hwf : s.Wf)
  | mint {s : PodState PodMint} (h : unpack PodMint data = .ok s) (hwf : s.Wf)
      (hvalid : s.view.ValidDefault)
  | fresh (h : FreshData data)

/-- Every cell of the program is well formed, and the one at the address of the
native mint, which nobody can prepare for an initialiser, is a mint already. -/
structure Ledger.Wf (σ : Ledger) : Prop where
  data : ∀ k, (σ k).owner = Keys.tokenProgram → WfData (σ k).data
  native : (σ Keys.nativeMint).owner = Keys.tokenProgram →
    ∃ s, unpack PodMint (σ Keys.nativeMint).data = .ok s

/-- A state the book shows. -/
class Held (S : Type) [BaseState S] where
  contents : View S → Contents
  Valid : View S → Prop
  not_initialized : BaseState.isInitialized (Pod.ofBytes (zeros (Pod.size S)) : S) = false
  contents_eq : ∀ {c : Cell} {s : PodState S}, c.owner = Keys.tokenProgram →
    unpack S c.data = .ok s → c.contents = contents s.view
  wf : ∀ {data : Bytes} {s : PodState S}, WfData data → unpack S data = .ok s →
    s.Wf ∧ Valid s.view
  wfData : ∀ {data : Bytes} {s : PodState S}, unpack S data = .ok s → s.Wf → Valid s.view →
    WfData data
  keeps_mint : ∀ {data data' : Bytes} {s s' : PodState S} {m : PodState PodMint},
    unpack S data = .ok s → unpack PodMint data = .ok m → unpack S data' = .ok s' →
    ∃ m', unpack PodMint data' = .ok m'
  same_account : Pod.size PodAccount = Pod.size S → ∀ b,
    BaseState.isInitialized (Pod.ofBytes b : PodAccount) = true →
    BaseState.isInitialized (Pod.ofBytes b : S) = true
  same_mint : Pod.size PodMint = Pod.size S → ∀ b,
    BaseState.isInitialized (Pod.ofBytes b : PodMint) = true →
    BaseState.isInitialized (Pod.ofBytes b : S) = true

theorem length_of_multisig {data : Bytes} {multisig : PodMultisig}
    (h : data = Pod.toBytes multisig) : data.length = multisigLen := by
  rw [h, Pod.length_toBytes, size_podMultisig]

theorem unpack_length_ne {S : Type} [BaseState S] {data : Bytes} {s : PodState S}
    (h : unpack S data = .ok s) : data.length ≠ multisigLen := by
  obtain ⟨rfl, hp⟩ := unpack_eq_ok.mp h
  exact hp.length_ne

/-- Fresh data reads as uninitialised. -/
theorem unpack_ne_of_fresh {S : Type} [BaseState S]
    (hzero : BaseState.isInitialized (Pod.ofBytes (zeros (Pod.size S)) : S) = false)
    {data : Bytes} {s : PodState S} (hfresh : FreshData data) : unpack S data ≠ .ok s := by
  intro h
  obtain ⟨rfl, hp⟩ := unpack_eq_ok.mp h
  have hle := BaseState.size_le (S := S)
  obtain ⟨hlen, hbase, _⟩ := rest_of_layout hp.layout
  rw [zeros_of_freshData hfresh _ (by omega) hlen] at hbase
  have hinit := hp.initialized
  rw [hbase, hzero] at hinit
  exact Bool.false_ne_true hinit

theorem zeroAccount_not_initialized :
    BaseState.isInitialized (Pod.ofBytes (zeros (Pod.size PodAccount)) : PodAccount) = false := by
  decide +kernel

theorem zeroMint_not_initialized :
    BaseState.isInitialized (Pod.ofBytes (zeros (Pod.size PodMint)) : PodMint) = false := by
  decide +kernel

instance : Held PodAccount where
  contents := .account
  Valid _ := True
  not_initialized := zeroAccount_not_initialized
  contents_eq := by
    intro c s howner h
    rw [Cell.contents, if_pos howner, toOption_eq_some.mpr h]
  wf := by
    rintro data s (⟨hdata, _⟩ | ⟨h', hwf⟩ | ⟨h', hwf, _⟩ | hfresh) h
    · exact absurd (length_of_multisig hdata) (unpack_length_ne h)
    · obtain rfl := Except.ok.inj (h'.symm.trans h)
      exact ⟨hwf, trivial⟩
    · exact absurd h' (unpack_mint_ne_of_account h)
    · exact absurd h (unpack_ne_of_fresh zeroAccount_not_initialized hfresh)
  wfData h hwf _ := .account h hwf
  keeps_mint hs hm _ := absurd hm (unpack_mint_ne_of_account hs)
  same_account _ _ h := h
  same_mint hsize := absurd hsize (by decide)

instance : Held PodMint where
  contents := .mint
  Valid := View.ValidDefault
  not_initialized := zeroMint_not_initialized
  contents_eq := by
    intro c s howner h
    have hnone : toOption (unpack PodAccount c.data) = none :=
      toOption_eq_none.mpr fun _ hs => unpack_mint_ne_of_account hs h
    rw [Cell.contents, if_pos howner, hnone, toOption_eq_some.mpr h]
  wf := by
    rintro data s (⟨hdata, _⟩ | ⟨h', hwf⟩ | ⟨h', hwf, hvalid⟩ | hfresh) h
    · exact absurd (length_of_multisig hdata) (unpack_length_ne h)
    · exact absurd h (unpack_mint_ne_of_account h')
    · obtain rfl := Except.ok.inj (h'.symm.trans h)
      exact ⟨hwf, hvalid⟩
    · exact absurd h (unpack_ne_of_fresh zeroMint_not_initialized hfresh)
  wfData h hwf hvalid := .mint h hwf hvalid
  keeps_mint _ _ hs' := ⟨_, hs'⟩
  same_account hsize := absurd hsize (by decide)
  same_mint _ _ h := h

end SolanaEasy.Token
