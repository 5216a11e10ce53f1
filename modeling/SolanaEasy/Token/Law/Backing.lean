import SolanaEasy.Token.Law.Native

/-!
# Backing — wrapped lamports can be redeemed

What a native account stands for it has in lamports, besides the reserve that keeps it exempt
from rent. No instruction makes or loses a lamport: what it takes from one of its accounts it
gives to another.
-/

namespace SolanaEasy.Token

open Processor

/-! ## Payments -/

namespace Book

variable {β : Book} {a b k : Pubkey} {x : UInt64}

theorem pay_self (β : Book) (a : Pubkey) (x : UInt64) : β.pay a a x = β := by
  funext k
  by_cases hk : k = a
  · subst hk
    simp [pay, set]
  · simp [pay, set]

theorem lamports_pay_source (can : β.CanPay a b x) (hne : a ≠ b) :
    ((β.pay a b x) a).lamports.toNat = (β a).lamports.toNat - x.toNat := by
  rw [pay, set_of_ne _ _ hne, set_same, UInt64.toNat_sub_of_le _ _ can.enough]

theorem lamports_pay_target (can : β.CanPay a b x) (hne : a ≠ b) :
    ((β.pay a b x) b).lamports.toNat = (β b).lamports.toNat + x.toNat := by
  have hfits := can.fits hne
  rw [pay, set_same, set_of_ne _ _ (Ne.symm hne), UInt64.toNat_add]
  exact Nat.mod_eq_of_lt hfits

theorem pay_of_ne (ha : k ≠ a) (hb : k ≠ b) : (β.pay a b x) k = β k := by
  rw [pay, set_of_ne _ _ hb, set_of_ne _ _ ha]

/-- Nobody but the payer has less. -/
theorem lamports_le_pay (can : β.CanPay a b x) (hk : k ≠ a) :
    (β k).lamports.toNat ≤ ((β.pay a b x) k).lamports.toNat := by
  by_cases hb : k = b
  · subst hb
    rw [lamports_pay_target can (Ne.symm hk)]
    exact Nat.le_add_right _ _
  · rw [pay_of_ne hk hb]

end Book

/-! ## Lamports of some accounts -/

section Total

/-- The lamports of some accounts. -/
def Book.lamportsOf (keys : Finset Pubkey) (β : Book) : ℕ := ∑ k ∈ keys, (β k).lamports.toNat

/-- The distinct accounts an instruction is given. -/
def Call.givenKeys (c : Call) : Finset Pubkey := (c.accounts.map (·.key)).toFinset

variable {rt : Runtime} {c : Call} {β β' : Book} {k a b : Pubkey} {x : UInt64}
  {keys : Finset Pubkey}

theorem Call.Given.mem (h : c.Given k) : k ∈ c.givenKeys := by
  obtain ⟨info, hmem, rfl⟩ := h
  exact List.mem_toFinset.mpr (List.mem_map_of_mem hmem)

theorem Book.lamportsOf_congr (h : ∀ k, (β' k).lamports = (β k).lamports) :
    β'.lamportsOf keys = β.lamportsOf keys :=
  Finset.sum_congr rfl fun k _ => by rw [h k]

theorem Book.lamports_set {e : Entry} (h : e.lamports = (β k).lamports) (j : Pubkey) :
    ((β.set k e) j).lamports = (β j).lamports := by
  by_cases hj : j = k
  · subst hj
    rw [set_same, h]
  · rw [set_of_ne _ _ hj]

/-- A payment between two of them. -/
theorem Book.lamportsOf_pay (can : β.CanPay a b x) (ha : a ∈ keys) (hb : b ∈ keys) :
    (β.pay a b x).lamportsOf keys = β.lamportsOf keys := by
  by_cases hne : a = b
  · subst hne
    rw [pay_self]
  have hb' : b ∈ keys.erase a := Finset.mem_erase.mpr ⟨Ne.symm hne, hb⟩
  have hsplit : ∀ γ : Book, γ.lamportsOf keys = (γ a).lamports.toNat + ((γ b).lamports.toNat +
      ∑ k ∈ (keys.erase a).erase b, (γ k).lamports.toNat) := fun γ => by
    rw [lamportsOf, ← Finset.add_sum_erase _ _ ha, ← Finset.add_sum_erase _ _ hb']
  have hrest : ∑ k ∈ (keys.erase a).erase b, ((β.pay a b x) k).lamports.toNat =
      ∑ k ∈ (keys.erase a).erase b, (β k).lamports.toNat := by
    refine Finset.sum_congr rfl fun k hk => ?_
    obtain ⟨hkb, hk⟩ := Finset.mem_erase.mp hk
    rw [pay_of_ne (Finset.ne_of_mem_erase hk) hkb]
  have henough := UInt64.le_iff_toNat_le.mp can.enough
  rw [hsplit, hsplit, hrest, lamports_pay_source can hne, lamports_pay_target can hne]
  omega

/-- What is closed has paid out all that it had. -/
theorem Book.lamports_closed (can : β.CanPay k b (β k).lamports) (hne : k ≠ b) (j : Pubkey) :
    (((β.pay k b (β k).lamports).set k ⟨0, 0, .other⟩) j).lamports =
      ((β.pay k b (β k).lamports) j).lamports := by
  refine lamports_set ?_ j
  rw [← UInt64.toNat_inj, lamports_pay_source can hne, Nat.sub_self]
  rfl

theorem Gather.lamports {M : Pubkey} {y y' : PodElGamalCiphertext} (h : Gather rt M y β y' β')
    (j : Pubkey) : (β' j).lamports = (β j).lamports := by
  induction h with
  | nil => rfl
  | cons held at' fees sum core grows rest ih => rw [ih, Book.lamports_put]

theorem Move.lamports (h : Move rt c β β') :
    β'.lamportsOf c.givenKeys = β.lamportsOf c.givenKeys := by
  cases h with
  | pay given given' can => exact Book.lamportsOf_pay can given.mem given'.mem
  | closeAccount closes given given' ne held closable can
  | closeMint closes given given' ne held closable supply can =>
    rw [Book.lamportsOf_congr (Book.lamports_closed can ne)]
    exact Book.lamportsOf_pay can given.mem given'.mem
  | grow | growNative | growSecret | mint | rewrite | openNativeMint =>
    exact Book.lamportsOf_congr (Book.lamports_set rfl)
  | secretCollect collects gathered =>
    exact Book.lamportsOf_congr fun j => by rw [Book.lamports_put, gathered.lamports]
  | harvest | collectMint | collect | secretHarvest | secretCollectMint =>
    exact Book.lamportsOf_congr fun j => by rw [Book.lamports_put, Book.lamports_put]
  | account | allowance | owner | closer | state | lock | syncNative | openAccount | configure
  | setting | emptied | apply | setFee | pause | rotate | restate | applyBurn | openMint =>
    exact Book.lamportsOf_congr fun j => Book.lamports_put ..

theorem Moves.lamports (h : Moves rt c β β') :
    β'.lamportsOf c.givenKeys = β.lamportsOf c.givenKeys := by
  induction h with
  | refl => rfl
  | tail _ hmove ih => rw [hmove.lamports, ih]

theorem Trade.lamports {s d : Pubkey} {hook : Option Pubkey} (h : Trade rt c s d hook β β') :
    β'.lamportsOf c.givenKeys = β.lamportsOf c.givenKeys := by
  cases h with
  | @transfer _ _ _ _ v v' w w' x fee a b q p head last ne spends notBurn source target mint
      consults movable thawed thawed' guarded by' part debit credit pays =>
    have hpaid : Book.lamportsOf c.givenKeys (if v.base.isNative then β.pay s d x else β) =
        β.lamportsOf c.givenKeys := by
      split
      · rename_i native
        obtain ⟨given, given', can⟩ := pays native
        exact Book.lamportsOf_pay can given.mem given'.mem
      · rfl
    rw [← hpaid]
    exact Book.lamportsOf_congr fun j => by rw [Book.lamports_put, Book.lamports_put]
  | selfTransfer => rfl
  | deposit | withdraw => exact Book.lamportsOf_congr fun j => Book.lamports_put ..
  | burn | mintTo | secretTransfer | secretMint | secretBurn =>
    exact Book.lamportsOf_congr fun j => by rw [Book.lamports_put, Book.lamports_put]

/-- The flags of a hook are no lamports. -/
theorem Hooked.lamports {s d : Pubkey} {hook : Option Pubkey} (h : Hooked c s d hook β β')
    (hstill : ∀ τ τ', c.ctx.executeHook τ = .ok τ' →
      τ'.book.lamportsOf keys = τ.book.lamportsOf keys) :
    β'.lamportsOf keys = β.lamportsOf keys := by
  cases h with
  | quiet => rfl
  | @called _ program v w σ σ' source target raised run =>
    have hafter : ∀ γ : Book, ∀ x y, ((γ.put s x).put d y).lamportsOf keys = γ.lamportsOf keys :=
      fun γ x y => Book.lamportsOf_congr fun k => by rw [Book.lamports_put, Book.lamports_put]
    rw [hafter, hstill σ σ' run, raised, hafter]

/-- An instruction neither makes nor loses a lamport. -/
theorem Course.lamports (h : Course rt c β β') (hstill : ∀ τ τ', c.ctx.executeHook τ = .ok τ' →
      τ'.book.lamportsOf c.givenKeys = τ.book.lamportsOf c.givenKeys) :
    β'.lamportsOf c.givenKeys = β.lamportsOf c.givenKeys := by
  cases h with
  | moves other h => exact h.lamports
  | trade trades h rest => rw [rest.lamports hstill, h.lamports]

end Total

/-! ## Native accounts -/

section Backed

/-- A native account has the lamports that it stands for besides its reserve, and the reserve
suffices for its size. -/
def Entry.Backed (rt : Runtime) (e : Entry) : Prop :=
  ∀ v r, e.contents = .account v → v.base.isNativeOption.toOption = some r →
    v.base.amount.toNat + r.toNat ≤ e.lamports.toNat ∧ rt.minimumBalance e.size ≤ r

def Book.Backed (rt : Runtime) (β : Book) : Prop := ∀ k, (β k).Backed rt

variable {rt : Runtime} {c : Call} {β β' : Book} {k a b : Pubkey} {x : UInt64}
  {v v' : View PodAccount} {m : View PodMint}

theorem isNativeOption_of_not_native {r : UInt64} (h : v.base.isNative = false) :
    v.base.isNativeOption.toOption ≠ some r := by
  intro hsome
  rw [PodAccount.isNative, ← PodCOption.isSome_toOption, hsome] at h
  cases h

theorem Entry.backed_of_not_native {y : UInt64} {n : ℕ} (h : v.base.isNative = false) :
    Entry.Backed rt ⟨y, n, .account v⟩ := by
  intro w r hw hr
  obtain rfl := Contents.account.inj hw
  exact absurd hr (isNativeOption_of_not_native h)

namespace Book.Backed

theorem set {e : Entry} (h : β.Backed rt) (he : e.Backed rt) : (β.set k e).Backed rt := by
  intro j
  by_cases hj : j = k
  · subst hj
    rwa [set_same]
  · rw [set_of_ne _ _ hj]
    exact h j

theorem put {y : Contents} (h : β.Backed rt)
    (he : Entry.Backed rt ⟨(β k).lamports, (β k).size, y⟩) : (β.put k y).Backed rt := by
  rw [Book.put]
  exact h.set he

/-- An account that stands for what it stood for. -/
theorem update (h : β.Backed rt) (held : β.Account k v) (amount : v'.base.amount = v.base.amount)
    (native : v'.base.isNativeOption = v.base.isNativeOption) :
    (β.put k (.account v')).Backed rt := by
  refine h.put fun w r hw hr => ?_
  obtain rfl := Contents.account.inj hw
  rw [amount]
  exact h k v r held (native ▸ hr)

theorem put_mint (h : β.Backed rt) : (β.put k (.mint m)).Backed rt := h.put nofun

theorem set_mint {y : UInt64} {n : ℕ} (h : β.Backed rt) : (β.set k ⟨y, n, .mint m⟩).Backed rt :=
  h.set nofun

/-- Nobody but the payer has less, and the payer is no native account. -/
theorem pay (h : β.Backed rt) (can : β.CanPay a b x)
    (hnot : ∀ v, β.Account a v → v.base.isNative = false) : (β.pay a b x).Backed rt := by
  intro k v r hv hr
  rw [contents_pay] at hv
  have hk : k ≠ a := by
    rintro rfl
    exact isNativeOption_of_not_native (hnot v hv) hr
  obtain ⟨hlamports, hreserve⟩ := h k v r hv hr
  rw [size_pay]
  exact ⟨hlamports.trans (lamports_le_pay can hk), hreserve⟩

end Book.Backed

/-- What is closed has no account any more, and nobody else has less. -/
theorem Book.Backed.closed (h : β.Backed rt) (can : β.CanPay k b x) :
    ((β.pay k b x).set k ⟨0, 0, .other⟩).Backed rt := by
  intro j
  by_cases hj : j = k
  · subst hj
    rw [Book.set_same]
    exact nofun
  · rw [Book.set_of_ne _ _ hj]
    intro v r hv hr
    rw [Book.contents_pay] at hv
    obtain ⟨hlamports, hreserve⟩ := h j v r hv hr
    rw [Book.size_pay]
    exact ⟨hlamports.trans (Book.lamports_le_pay can hj), hreserve⟩

/-- What the cores say of two accounts, one after the other. -/
theorem Book.Backed.update_core (h : β.Backed rt) (held : β.Account k v)
    (core : v'.core.base.amount = v.core.base.amount ∧
      v'.core.base.isNativeOption = v.core.base.isNativeOption) :
    (β.put k (.account v')).Backed rt := h.update held core.1 core.2

theorem Gather.backed {M : Pubkey} {y y' : PodElGamalCiphertext} (h : Gather rt M y β y' β')
    (hb : β.Backed rt) : β'.Backed rt := by
  induction h with
  | nil => exact hb
  | cons held at' fees sum core grows rest ih =>
    exact ih (hb.update_core held (by rw [core]; exact ⟨rfl, rfl⟩))

theorem Move.backed (hn : β.NativeBare) (hb : β.Backed rt) (h : Move rt c β β') :
    β'.Backed rt := by
  cases h with
  | account held core | allowance _ held _ _ _ core | owner _ held _ _ _ core
  | closer held _ _ core | state held _ _ _ core | lock held _ _ core =>
    exact hb.update_core held (by rw [core]; exact ⟨rfl, rfl⟩)
  | configure _ held _ _ _ _ _ _ core | setting held _ core | emptied held _ _ _ core
  | apply _ held _ _ _ core =>
    exact hb.update_core held (by rw [core]; exact ⟨rfl, rfl⟩)
  | @syncNative k v v' r a held native covered more core grows =>
    refine hb.put fun w q hw hq => ?_
    obtain rfl := Contents.account.inj hw
    have hamount : v'.base.amount = a := congrArg (fun a : Core => a.base.amount) core
    have hnative : v'.base.isNativeOption = v.base.isNativeOption :=
      congrArg (fun a : Core => a.base.isNativeOption) core
    rw [hnative, native] at hq
    obtain rfl := Option.some.inj hq
    rw [hamount]
    exact ⟨covered.le, (hb k v r held native).2⟩
  | grow n held notNative core =>
    refine hb.set (Entry.backed_of_not_native ?_)
    exact (congrArg (fun a : Core => a.base.isNative) core).trans notNative
  | @growNative k v v' r n held native reserve covered core grows =>
    refine hb.set fun w q hw hq => ?_
    obtain rfl := Contents.account.inj hw
    have hamount : v'.base.amount = v.base.amount := congrArg (fun a : Core => a.base.amount) core
    rw [show v'.base.isNativeOption = .some r from
      congrArg (fun a : Core => a.base.isNativeOption) core, PodCOption.toOption_some] at hq
    obtain rfl := Option.some.inj hq
    rw [hamount]
    exact ⟨covered, reserve⟩
  | growSecret n held mint extended core =>
    refine hb.set (Entry.backed_of_not_native ?_)
    exact (congrArg (fun a : Core => a.base.isNative) core).trans
      (hn.not_native held mint extended)
  | pay given given' can notNative => exact hb.pay can notNative
  | @openAccount k v m opens other mint required native empty backed core =>
    refine hb.put fun w r hw hr => ?_
    obtain rfl := Contents.account.inj hw
    obtain ⟨hreserve, hbacked⟩ := backed r hr
    exact ⟨hbacked.le, hreserve ▸ UInt64.le_refl _⟩
  | closeAccount closes given given' ne held closable can
  | closeMint closes given given' ne held closable supply can => exact hb.closed can
  | harvest held at' mint extended core | secretHarvest held _ _ _ _ _ core
  | secretCollectMint _ held _ _ _ _ _ _ _ core =>
    exact (hb.update_core held (by rw [core]; exact ⟨rfl, rfl⟩)).put_mint
  | collectMint collects held at' mint extended thawed credit core =>
    have hnot := hn.not_native held (at' ▸ mint) extended
    refine (hb.put (Entry.backed_of_not_native ?_)).put_mint
    exact (congrArg (fun a : Core => a.base.isNative) core).trans hnot
  | collect collects source at' mint extended core target same thawed credit core' =>
    refine (hb.update_core source (by rw [core]; exact ⟨rfl, rfl⟩)).put
      (Entry.backed_of_not_native ?_)
    refine (congrArg (fun a : Core => a.base.isNative) core' :).trans ?_
    rw [Book.Account, Book.contents_put] at target
    split at target
    · obtain rfl := Contents.account.inj target
      exact (congrArg (fun a : Core => a.base.isNative) core).trans
        (hn.not_native source (at' ▸ mint) extended)
    · exact hn.not_native target (same ▸ mint) extended
  | secretCollect collects gathered mint config held at' thawed secret proved credit core =>
    exact (gathered.backed hb).update_core held (by rw [core]; exact ⟨rfl, rfl⟩)
  | mint | rewrite | openNativeMint => exact hb.set_mint
  | setFee | pause | rotate | restate | applyBurn | openMint => exact hb.put_mint

/-- Wrapped lamports that go along with what stands for them. -/
theorem Entry.Backed.moved {e : Entry} {y : UInt64} (h : e.Backed rt)
    (held : e.contents = .account v) (native : v'.base.isNativeOption = v.base.isNativeOption)
    (lamports : v'.base.amount.toNat + e.lamports.toNat ≤ v.base.amount.toNat + y.toNat) :
    Entry.Backed rt ⟨y, e.size, .account v'⟩ := by
  intro w r hw hr
  obtain rfl := Contents.account.inj hw
  obtain ⟨hlamports, hreserve⟩ := h v r held (native ▸ hr)
  refine ⟨?_, hreserve⟩
  change v'.base.amount.toNat + r.toNat ≤ y.toNat
  omega

/-- Two accounts are written, and the others have what they had. -/
theorem Book.backed_two {s d : Pubkey} {y y' : Contents} (hne : d ≠ s)
    (rest : ∀ k, k ≠ s → k ≠ d → (β k).Backed rt)
    (source : Entry.Backed rt ⟨(β s).lamports, (β s).size, y⟩)
    (target : Entry.Backed rt ⟨(β d).lamports, (β d).size, y'⟩) :
    ((β.put s y).put d y').Backed rt := by
  intro k
  by_cases hd : k = d
  · rw [hd, Book.put_same, Book.put_of_ne _ _ hne]
    exact target
  · rw [Book.put_of_ne _ _ hd]
    by_cases hs : k = s
    · rw [hs, Book.put_same]
      exact source
    · rw [Book.put_of_ne _ _ hs]
      exact rest k hs hd

theorem Trade.backed (hn : β.NativeBare) (hb : β.Backed rt) {s d : Pubkey} {hook : Option Pubkey}
    (h : Trade rt c s d hook β β') : β'.Backed rt := by
  cases h with
  | @transfer _ _ _ _ v v' w w' x fee a b q p head last ne spends notBurn source target mint
      consults movable thawed thawed' guarded by' part debit credit pays core core' =>
    have hsame : v'.base.isNativeOption = v.base.isNativeOption :=
      congrArg (fun a : Core => a.base.isNativeOption) core
    have hsame' : w'.base.isNativeOption = w.base.isNativeOption :=
      congrArg (fun a : Core => a.base.isNativeOption) core'
    have hamount : v'.base.amount = a := congrArg (fun a : Core => a.base.amount) core
    have hamount' : w'.base.amount = b := congrArg (fun a : Core => a.base.amount) core'
    have hiff : w.base.isNative = true ↔ v.base.isNative = true := by
      rw [hn.native d w target, hn.native s v source, mint]
    by_cases native : v.base.isNative = true
    · obtain ⟨-, -, can⟩ := pays native
      have henough := UInt64.le_iff_toNat_le.mp can.enough
      rw [if_pos native]
      refine Book.backed_two ne (fun k hs hd => ?_) ?_ ?_
      · rw [Book.pay_of_ne hs hd]
        exact hb k
      · rw [Book.size_pay]
        refine (hb s).moved source hsame ?_
        rw [hamount, Book.lamports_pay_source can (Ne.symm ne)]
        omega
      · rw [Book.size_pay]
        refine (hb d).moved target hsame' ?_
        rw [hamount', Book.lamports_pay_target can (Ne.symm ne)]
        omega
    · have hnot := hiff.not.mpr native
      rw [if_neg native]
      rw [Bool.not_eq_true] at native hnot
      refine (hb.put (Entry.backed_of_not_native ?_)).put (Entry.backed_of_not_native ?_)
      · exact (congrArg (fun a : Core => a.base.isNative) core).trans native
      · exact (congrArg (fun a : Core => a.base.isNative) core').trans hnot
  | selfTransfer => exact hb
  | burn head isBurn source at' mint running notNative thawed guarded by' debit supply core =>
    refine (hb.put (Entry.backed_of_not_native ?_)).put_mint
    exact (congrArg (fun a : Core => a.base.isNative) core).trans notNative
  | deposit head spends still held at' mint openly running notNative movable thawed endorsed debit
      secret credit core =>
    refine hb.put (Entry.backed_of_not_native ?_)
    exact (congrArg (fun a : Core => a.base.isNative) core).trans notNative
  | withdraw head spends still held at' mint openly running notNative movable thawed endorsed credit
      secret proved debit core =>
    refine hb.put (Entry.backed_of_not_native ?_)
    exact (congrArg (fun a : Core => a.base.isNative) core).trans notNative
  | mintTo head spends still held at' mint authority openly running notNative thawed credit supply
      core =>
    refine (hb.put (Entry.backed_of_not_native ?_)).put_mint
    exact (congrArg (fun a : Core => a.base.isNative) core).trans notNative
  | secretTransfer head last spends source at' mint running movable thawed endorsed unguarded secret
      core target same thawed' secret' moved core' =>
    exact (hb.update_core source (by rw [core]; exact ⟨rfl, rfl⟩)).update_core target
      (by rw [core']; exact ⟨rfl, rfl⟩)
  | secretMint head spends still held at' mint authority running thawed secret secret' proved credit
      supply core =>
    exact (hb.update_core held (by rw [core]; exact ⟨rfl, rfl⟩)).put_mint
  | secretBurn head spends still held at' mint running thawed endorsed unguarded secret secret'
      proved debit supply core =>
    exact (hb.update_core held (by rw [core]; exact ⟨rfl, rfl⟩)).put_mint

/-- Two accounts whose bases are what they were. -/
theorem Book.Backed.update_two (h : β.Backed rt) {s d : Pubkey} {w w' : View PodAccount}
    (source : β.Account s v) (same : v'.base = v.base) (target : β.Account d w)
    (same' : w'.base = w.base) :
    ((β.put s (.account v')).put d (.account w')).Backed rt := by
  refine (h.update source (by rw [same]) (by rw [same])).put fun u r hu hr => ?_
  obtain rfl := Contents.account.inj hu
  rw [Book.lamports_put, Book.size_put, same']
  exact h d w r target (same' ▸ hr)

theorem Book.Env.backed (hb : β.Backed rt) (h : β.Env β') : β'.Backed rt := by
  intro k v r hv hr
  have hheld : (β k).contents ≠ .other := by
    intro hother
    rw [h.other k hother] at hv
    cases hv
  obtain ⟨hcontents, hsize, hlamports⟩ := h.held k hheld
  obtain ⟨hbacked, hreserve⟩ := hb k v r (hcontents ▸ hv) hr
  rw [hsize]
  exact ⟨hbacked.trans (UInt64.le_iff_toNat_le.mp hlamports), hreserve⟩

/-- The flags of a hook stand for nothing, and it can take lamports from no account of the
program. -/
theorem Hooked.backed (hb : β.Backed rt) {s d : Pubkey} {hook : Option Pubkey}
    (h : Hooked c s d hook β β') : β'.Backed rt := by
  cases h with
  | quiet => exact hb
  | @called _ program v w σ σ' source target raised run =>
    have henv := (c.ctx.executeHook_envStep run).book
    have hraised : σ.book.Backed rt := raised ▸ hb.update_two source rfl target rfl
    have htarget : σ.book.Account d (w.flag true) := raised ▸ Book.account_put ..
    have hsource : σ.book.Account s (v.flag true) := by
      by_cases hsd : s = d
      · subst hsd
        obtain rfl := source.unique target
        exact htarget
      · exact raised ▸ (Book.account_put ..).put_of_ne _ hsd
    exact (henv.backed hraised).update_two (henv.account hsource) rfl (henv.account htarget) rfl

theorem preserved_backed (allow : Call → Prop) :
    Preserved rt allow fun β => β.NativeBare ∧ β.Backed rt :=
  (preserved_nativeBare allow).and (fun _ hn hb h => h.backed hn hb)
    (fun _ hn hb h => h.backed hn hb) (fun hb h => h.backed hb) fun hb h => h.backed hb

theorem Reachable.backed {allow : Call → Prop} {σ : Ledger} (h : Reachable rt allow σ) :
    σ.book.NativeBare ∧ σ.book.Backed rt := by
  refine ⟨h.nativeBare, ((preserved_backed allow).reachable (fun β hempty => ⟨⟨fun k v held => ?_,
    fun m held => ?_⟩, fun k v r held => ?_⟩) h).2⟩
  · rw [Book.Account, hempty k] at held
    cases held
  · rw [Book.Mint, hempty] at held
    cases held
  · rw [hempty k] at held
    cases held

end Backed

/-- Wrapped lamports can be redeemed. A native account is one of the native mint, it has the
lamports that it stands for besides a reserve that suffices for its size, and an instruction
leaves what the accounts that it is given have together. -/
theorem native_backed {rt : Runtime} {σ : Ledger} (h : Reachable rt (fun _ => True) σ) :
    (∀ k v, σ.book.Account k v → (v.base.isNative = true ↔ v.base.mint = Keys.nativeMint)) ∧
    (∀ k v, σ.book.Account k v → v.base.isNative = true →
      ∃ r, v.base.isNativeOption.toOption = some r ∧
        v.base.amount.toNat + r.toNat ≤ (σ k).lamports.toNat ∧
        rt.minimumBalance (σ k).data.length ≤ r) ∧
    ∀ (c : Call) (σ' : Ledger), c.σ = σ → c.run rt = .ok σ' →
      (∀ τ τ', c.ctx.executeHook τ = .ok τ' →
        τ'.book.lamportsOf c.givenKeys = τ.book.lamportsOf c.givenKeys) →
      σ'.book.lamportsOf c.givenKeys = σ.book.lamportsOf c.givenKeys := by
  obtain ⟨hnative, hbacked⟩ := h.backed
  refine ⟨hnative.native, fun k v held native => ?_, ?_⟩
  · rw [PodAccount.isNative, ← PodCOption.isSome_toOption] at native
    obtain ⟨r, hr⟩ := Option.isSome_iff_exists.mp native
    exact ⟨r, hr, hbacked k v r held hr⟩
  · rintro c σ' rfl hrun hstill
    exact (run_course h.wf hrun).2.lamports hstill

/-! ## A vault -/

section Vault

/-- A native mint that is to be created, and accounts at `2` and `3` with a thousand lamports
each. -/
def vault : Ledger :=
  Function.update (blank [(2, 165), (3, 165)]) Keys.nativeMint ⟨5, Keys.systemProgram, []⟩

def vaultSteps : List (Context × List AccountInfo × Instruction) :=
  [(.plain, [⟨9, true⟩, ⟨Keys.nativeMint, false⟩, ⟨Keys.systemProgram, false⟩], .createNativeMint),
   (.plain, [⟨2, false⟩, ⟨Keys.nativeMint, false⟩], .initializeAccount3 7),
   (.plain, [⟨3, false⟩, ⟨Keys.nativeMint, false⟩], .initializeAccount3 8)]

def vaultTransfer (σ : Ledger) : Call :=
  ⟨.plain, [⟨2, false⟩, ⟨3, false⟩, ⟨7, true⟩], .transfer 400, σ⟩

theorem reachable_vault (rt : Runtime) : Reachable rt (fun _ => True) vault := by
  have hblank : Reachable rt (fun _ => True) (blank [(2, 165), (3, 165)]) :=
    reachable_blank rt _ (by decide)
  refine hblank.run (.single (.outside fun k => ?_))
  by_cases hk : k = Keys.nativeMint
  · subst hk
    rw [vault, Function.update_self]
    exact ⟨by decide, by decide⟩
  · rw [vault, Function.update_of_ne hk]
    exact .refl k _

theorem vault_runs : (script (.modular 2) vaultSteps vault).any (fun σ =>
    σ.checksAccount 2 (fun v => decide (v.base.mint = Keys.nativeMint ∧ v.base.amount = 999)) &&
      (toOption ((vaultTransfer σ).run (.modular 2))).isSome) = true := by
  decide +kernel

end Vault

theorem native_backed_vault : ∃ σ σ' : Ledger,
    (vaultTransfer σ).run (.modular 2) = .ok σ' ∧
    (∃ v r, σ.book.Account 2 v ∧ v.base.isNative = true ∧
      v.base.isNativeOption.toOption = some r ∧ 999 + r.toNat ≤ (σ 2).lamports.toNat) ∧
    σ'.book.lamportsOf {2, 3, 7} = σ.book.lamportsOf {2, 3, 7} := by
  obtain ⟨σ, hσ, hchecks⟩ := (Option.any_eq_true _ _).mp vault_runs
  rw [Bool.and_eq_true] at hchecks
  obtain ⟨haccount, hafter⟩ := hchecks
  obtain ⟨v, hv, hp⟩ := exists_of_checksAccount haccount
  obtain ⟨hmint, hamount⟩ := of_decide_eq_true hp
  have hrun : Run (.modular 2) (fun _ => True) vault (scripted (.modular 2) vaultSteps vault) :=
    .of_script (fun _ _ _ => trivial) (Option.isSome_iff_exists.mpr ⟨σ, hσ⟩)
  rw [scripted, hσ, Option.getD_some] at hrun
  obtain ⟨hnative, hbacked, hlamports⟩ := native_backed ((reachable_vault _).run hrun)
  have native := (hnative 2 v hv).mpr hmint
  obtain ⟨r, hr, hle, -⟩ := hbacked 2 v hv native
  refine ⟨σ, _, (vaultTransfer σ).run_after hafter, ⟨v, r, hv, native, hr, ?_⟩,
    hlamports (vaultTransfer σ) _ rfl ((vaultTransfer σ).run_after hafter) fun τ τ' h => ?_⟩
  · rwa [hamount] at hle
  · obtain rfl : τ = τ' := Except.ok.inj h
    rfl

end SolanaEasy.Token
