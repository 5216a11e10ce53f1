import SolanaEasy.Token.Book

/-!
# Storage — reading and writing well-formed cells

What `load` and `store` do to the book. A state that was read from a cell of the
program and written back changes one entry; a state of a foreign account can only
be written back as it was. Everyone else's steps leave the entries alone.
-/

namespace SolanaEasy.Token

/-! ## The contents of one cell -/

namespace Cell

variable {c : Cell}

theorem contents_of_foreign (h : c.owner ≠ Keys.tokenProgram) : c.contents = .other := if_neg h

theorem contents_eq_account {v : View PodAccount} :
    c.contents = .account v ↔
      c.owner = Keys.tokenProgram ∧ ∃ s, unpack PodAccount c.data = .ok s ∧ s.view = v := by
  constructor
  · intro h
    by_cases howner : c.owner = Keys.tokenProgram
    · refine ⟨howner, ?_⟩
      rw [contents, if_pos howner] at h
      cases hs : toOption (unpack PodAccount c.data) with
      | some s =>
        rw [hs] at h
        exact ⟨s, toOption_eq_some.mp hs, Contents.account.inj h⟩
      | none =>
        rw [hs] at h
        cases hm : toOption (unpack PodMint c.data) with
        | some m => simp [hm] at h
        | none => simp [hm] at h
    · rw [contents_of_foreign howner] at h
      cases h
  · rintro ⟨howner, s, hs, rfl⟩
    exact Held.contents_eq howner hs

theorem contents_eq_mint {v : View PodMint} :
    c.contents = .mint v ↔
      c.owner = Keys.tokenProgram ∧ ∃ s, unpack PodMint c.data = .ok s ∧ s.view = v := by
  constructor
  · intro h
    by_cases howner : c.owner = Keys.tokenProgram
    · refine ⟨howner, ?_⟩
      rw [contents, if_pos howner] at h
      cases hs : toOption (unpack PodAccount c.data) with
      | some s => simp [hs] at h
      | none =>
        rw [hs] at h
        cases hm : toOption (unpack PodMint c.data) with
        | some m =>
          rw [hm] at h
          exact ⟨m, toOption_eq_some.mp hm, Contents.mint.inj h⟩
        | none => simp [hm] at h
    · rw [contents_of_foreign howner] at h
      cases h
  · rintro ⟨howner, s, hs, rfl⟩
    exact Held.contents_eq howner hs

theorem contents_of_fresh (h : FreshData c.data) : c.contents = .other := by
  cases hc : c.contents with
  | other => rfl
  | account v =>
    obtain ⟨_, s, hs, _⟩ := contents_eq_account.mp hc
    exact absurd hs (unpack_ne_of_fresh zeroAccount_not_initialized h)
  | mint v =>
    obtain ⟨_, s, hs, _⟩ := contents_eq_mint.mp hc
    exact absurd hs (unpack_ne_of_fresh zeroMint_not_initialized h)

theorem contents_of_multisig (h : c.data.length = multisigLen) : c.contents = .other := by
  cases hc : c.contents with
  | other => rfl
  | account v =>
    obtain ⟨_, s, hs, _⟩ := contents_eq_account.mp hc
    exact absurd h (unpack_length_ne hs)
  | mint v =>
    obtain ⟨_, s, hs, _⟩ := contents_eq_mint.mp hc
    exact absurd h (unpack_length_ne hs)

theorem owner_of_contents (h : c.contents ≠ .other) : c.owner = Keys.tokenProgram := by
  by_contra howner
  exact h (contents_of_foreign howner)

theorem contents_congr {d : Cell} (howner : d.owner = c.owner) (hdata : d.data = c.data) :
    d.contents = c.contents := by
  rw [contents, contents, howner, hdata]

end Cell

/-! ## Updates of the book -/

namespace Book

/-- The book with another entry at `k`. -/
def set (β : Book) (k : Pubkey) (e : Entry) : Book := Function.update β k e

@[simp] theorem set_same (β : Book) (k : Pubkey) (e : Entry) : (β.set k e) k = e := by
  simp [set]

theorem set_of_ne (β : Book) {k j : Pubkey} (e : Entry) (h : j ≠ k) : (β.set k e) j = β j := by
  simp [set, h]

theorem put_eq_set (β : Book) (k : Pubkey) (c : Contents) :
    β.put k c = β.set k { β k with contents := c } := rfl

@[simp] theorem put_same (β : Book) (k : Pubkey) (c : Contents) :
    (β.put k c) k = { β k with contents := c } := by
  simp [put]

theorem put_of_ne (β : Book) {k j : Pubkey} (c : Contents) (h : j ≠ k) : (β.put k c) j = β j := by
  simp [put, h]

theorem put_self {β : Book} {k : Pubkey} {c : Contents} (h : (β k).contents = c) :
    β.put k c = β := by
  rw [put, ← h]
  exact Function.update_eq_self k β

@[simp] theorem put_put (β : Book) (k : Pubkey) (c d : Contents) :
    (β.put k c).put k d = β.put k d := by
  simp [put]

theorem put_comm (β : Book) {k j : Pubkey} (c d : Contents) (h : j ≠ k) :
    (β.put k c).put j d = (β.put j d).put k c := by
  funext i
  by_cases hi : i = j
  · subst hi
    rw [put_same, put_of_ne _ _ h, put_of_ne _ _ h, put_same]
  · by_cases hk : i = k
    · subst hk
      rw [put_of_ne _ _ hi, put_same, put_same, put_of_ne _ _ hi]
    · rw [put_of_ne _ _ hi, put_of_ne _ _ hk, put_of_ne _ _ hk, put_of_ne _ _ hi]

@[simp] theorem lamports_put (β : Book) (k j : Pubkey) (c : Contents) :
    ((β.put k c) j).lamports = (β j).lamports := by
  by_cases h : j = k
  · subst h
    rw [put_same]
  · rw [put_of_ne _ _ h]

@[simp] theorem size_put (β : Book) (k j : Pubkey) (c : Contents) :
    ((β.put k c) j).size = (β j).size := by
  by_cases h : j = k
  · subst h
    rw [put_same]
  · rw [put_of_ne _ _ h]

/-- What everyone else does, seen from the book. -/
structure Env (β β' : Book) : Prop where
  held : ∀ k, (β k).contents ≠ .other → (β' k).contents = (β k).contents ∧
    (β' k).size = (β k).size ∧ (β k).lamports ≤ (β' k).lamports
  other : ∀ k, (β k).contents = .other → (β' k).contents = .other

end Book

/-! ## Cells and the book -/

namespace Ledger

variable {σ : Ledger} {k j : Pubkey}

theorem set_set (σ : Ledger) (k : Pubkey) (c d : Cell) : (σ.set k c).set k d = σ.set k d := by
  simp [set]

theorem book_set (σ : Ledger) (k : Pubkey) (c : Cell) :
    (σ.set k c).book = σ.book.set k c.entry := by
  funext j
  by_cases h : j = k
  · subst h
    rw [Book.set_same, book, set_same]
  · rw [Book.set_of_ne _ _ h, book, set_of_ne _ _ h]
    rfl

theorem Wf.set (hwf : σ.Wf) {c : Cell} (hdata : c.owner = Keys.tokenProgram → WfData c.data)
    (hnative : k = Keys.nativeMint → c.owner = Keys.tokenProgram →
      ∃ s, unpack PodMint c.data = .ok s) : (σ.set k c).Wf where
  data j := by
    by_cases h : j = k
    · subst h
      rw [set_same]
      exact hdata
    · rw [set_of_ne _ _ h]
      exact hwf.data j
  native := by
    by_cases h : k = Keys.nativeMint
    · subst h
      rw [set_same]
      exact hnative rfl
    · rw [set_of_ne _ _ (Ne.symm h)]
      exact hwf.native

/-- A change of lamports only. -/
theorem Wf.setLamports (hwf : σ.Wf) (x : UInt64) :
    (σ.set k { σ k with lamports := x }).Wf :=
  hwf.set (hwf.data k) (by rintro rfl; exact hwf.native)

theorem book_setLamports (σ : Ledger) (k : Pubkey) (x : UInt64) :
    (σ.set k { σ k with lamports := x }).book = σ.book.set k { σ.book k with lamports := x } := by
  rw [book_set]
  rfl

end Ledger

/-! ## Loading -/

section Load

variable {S : Type} [BaseState S] {σ σ' : Ledger} {k j : Pubkey} {s s' : PodState S}

theorem load_set_of_ne (c : Cell) (h : j ≠ k) : load (σ.set k c) S j = load σ S j := by
  rw [load, load, Ledger.set_of_ne _ _ h]

theorem packed_of_load (h : load σ S k = .ok s) : s.Packed := (unpack_eq_ok.mp h).2

theorem data_of_load (h : load σ S k = .ok s) : (σ k).data = s.bytes := (unpack_eq_ok.mp h).1

variable [Held S]

theorem Ledger.Wf.load (hwf : σ.Wf) (howner : (σ k).owner = Keys.tokenProgram)
    (h : load σ S k = .ok s) : s.Wf ∧ Held.Valid s.view := Held.wf (hwf.data k howner) h

theorem contents_of_load (howner : (σ k).owner = Keys.tokenProgram) (h : load σ S k = .ok s) :
    (σ.book k).contents = Held.contents s.view := Held.contents_eq howner h

end Load

/-! ## Storing -/

section Store

variable {S : Type} [BaseState S] {σ σ' : Ledger} {k j : Pubkey} {s s' : PodState S}

theorem writeData_eq_ok {data : Bytes} :
    σ.writeData k data = .ok σ' ↔
      ((σ k).owner = Keys.tokenProgram ∨ data = (σ k).data) ∧
        σ' = σ.set k { σ k with data := data } := by
  simp only [Ledger.writeData, bind_eq_ok, exists_unit, failIf_eq_ok, Bool.and_eq_false_iff,
    bne_eq_false_iff_eq, pure_eq_ok, eq_comm (a := σ')]

theorem writeLamports_eq_ok {x : UInt64} :
    σ.writeLamports k x = .ok σ' ↔
      ((σ k).owner = Keys.tokenProgram ∨ (σ k).lamports ≤ x) ∧
        σ' = σ.set k { σ k with lamports := x } := by
  simp only [Ledger.writeLamports, bind_eq_ok, exists_unit, failIf_eq_ok, Bool.and_eq_false_iff,
    bne_eq_false_iff_eq, pure_eq_ok, decide_eq_false_iff_not, UInt64.not_lt, eq_comm (a := σ')]

theorem store_eq_ok :
    store σ k s = .ok σ' ↔
      ((σ k).owner = Keys.tokenProgram ∨ s.bytes = (σ k).data) ∧
        σ' = σ.set k { σ k with data := s.bytes } := writeData_eq_ok

/-- The data of a foreign account cannot change. -/
theorem store_foreign (howner : (σ k).owner ≠ Keys.tokenProgram) (h : store σ k s = .ok σ') :
    σ' = σ := by
  obtain ⟨hok, rfl⟩ := store_eq_ok.mp h
  have hdata : s.bytes = (σ k).data := hok.resolve_left howner
  rw [hdata]
  exact Function.update_eq_self k σ

/-- A state written back to the cell of the program it was read from. -/
structure Rewrites [Held S] (σ : Ledger) (k : Pubkey) (s' : PodState S) (v : View S) (σ' : Ledger) :
    Prop where
  eq : σ' = σ.set k { σ k with data := s'.bytes }
  wf : σ'.Wf
  book : σ'.book = σ.book.put k (Held.contents v)
  load : load σ' S k = .ok s'
  stored : s'.Wf ∧ s'.view = v

variable [Held S] {v : View S}

theorem WfData.of_stored (hp : s.Packed) (hst : s.Stored s' v)
    (hinit : BaseState.isInitialized v.base = true) (hvalid : Held.Valid v) :
    unpack S s'.bytes = .ok s' ∧ WfData s'.bytes := by
  have hunpack : unpack S s'.bytes = .ok s' := unpack_eq_ok.mpr ⟨rfl, hst.packed hp hinit⟩
  exact ⟨hunpack, Held.wfData hunpack hst.wf (hst.view ▸ hvalid)⟩

/-- `store` of a state of the program. -/
theorem store_held (hwf : σ.Wf) (howner : (σ k).owner = Keys.tokenProgram)
    (hload : load σ S k = .ok s) (hst : s.Stored s' v)
    (hinit : BaseState.isInitialized v.base = true) (hvalid : Held.Valid v)
    (h : store σ k s' = .ok σ') : Rewrites σ k s' v σ' := by
  obtain ⟨_, rfl⟩ := store_eq_ok.mp h
  obtain ⟨hunpack, hdata⟩ := WfData.of_stored (packed_of_load hload) hst hinit hvalid
  have hlen : s'.bytes.length = (σ k).data.length := by
    rw [hst.length_bytes, data_of_load hload]
  refine ⟨rfl, hwf.set (fun _ => hdata) ?_, ?_, ?_, hst.wf, hst.view⟩
  · rintro rfl _
    obtain ⟨m, hm⟩ := hwf.native howner
    exact Held.keeps_mint hload hm hunpack
  · have hcontents : (⟨(σ k).lamports, (σ k).owner, s'.bytes⟩ : Cell).contents =
        Held.contents s'.view := Held.contents_eq howner hunpack
    rw [Ledger.book_set, Book.put_eq_set, Cell.entry, hcontents, hst.view, hlen]
    rfl
  · show unpack S ((σ.set k _) k).data = _
    rw [Ledger.set_same]
    exact hunpack

end Store

/-! ## Steps of everyone else -/

section Env

variable {σ σ' : Ledger}

theorem EnvStep.wf (h : EnvStep σ σ') (hwf : σ.Wf) : σ'.Wf where
  data k howner' := by
    by_cases howner : (σ k).owner = Keys.tokenProgram
    · obtain ⟨_, hdata, _⟩ := (h k).owned howner
      rw [hdata]
      exact hwf.data k howner
    · obtain ⟨hzero, _⟩ := (h k).fresh howner howner'
      rw [hzero]
      exact .fresh (freshData_zeros _)
  native howner' := by
    by_cases howner : (σ Keys.nativeMint).owner = Keys.tokenProgram
    · obtain ⟨_, hdata, _⟩ := (h Keys.nativeMint).owned howner
      rw [hdata]
      exact hwf.native howner
    · exact absurd rfl ((h Keys.nativeMint).fresh howner howner').2

theorem EnvStep.book (h : EnvStep σ σ') : σ.book.Env σ'.book where
  held k hk := by
    have howner := Cell.owner_of_contents hk
    obtain ⟨howner', hdata, hle⟩ := (h k).owned howner
    refine ⟨Cell.contents_congr (howner'.trans howner.symm) hdata, ?_, hle⟩
    show (σ' k).data.length = (σ k).data.length
    rw [hdata]
  other k hk := by
    show (σ' k).contents = .other
    by_cases howner' : (σ' k).owner = Keys.tokenProgram
    · by_cases howner : (σ k).owner = Keys.tokenProgram
      · obtain ⟨_, hdata, _⟩ := (h k).owned howner
        rw [← hk]
        exact Cell.contents_congr (howner'.trans howner.symm) hdata
      · obtain ⟨hzero, _⟩ := (h k).fresh howner howner'
        apply Cell.contents_of_fresh
        rw [hzero]
        exact freshData_zeros _
    · exact Cell.contents_of_foreign howner'

end Env

end SolanaEasy.Token
