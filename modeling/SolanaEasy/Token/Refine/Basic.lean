import SolanaEasy.Token.Move

/-!
# Refinement — from handlers to moves

The lemmas that turn a handler which loads one state, changes it and stores it into
a move of the book, and the changes that leave the core alone.
-/

namespace SolanaEasy.Token

open Processor

/-! ## Changes outside the core -/

structure QuietAccount (v v' : View PodAccount) : Prop where
  core : v'.core = v.core
  grows : v.Grows v'

structure QuietMint (m m' : View PodMint) : Prop where
  initialized : m'.base.isInitialized = m.base.isInitialized
  valid : m.ValidDefault → m'.ValidDefault
  core : m'.mintCore = m.mintCore
  keeps : m.Keeps m'

section Quiet

variable {V : Type} [Pod V] [Extension V]

theorem QuietAccount.set (v : View PodAccount) (x : V)
    (h : (Extension.type V).isPurse = false) : QuietAccount v (v.set x) :=
  ⟨v.core_set_of_ne x h, v.grows_set x⟩

theorem validDefault_set_of_ne {m : View PodMint} {x : V}
    (hne : ExtensionType.defaultAccountState ≠ Extension.type V) (h : m.ValidDefault) :
    (m.set x).ValidDefault := by
  intro y hy
  rw [View.get_set_of_ne m x hne] at hy
  exact h y hy

/-- A setting, changed as far as its authority allows. -/
theorem QuietMint.set {m : View PodMint} {x y : V} (hget : m.get V = some y)
    (h : (Extension.type V).isTreasury = false) (hs : m.Settled (m.set x)) :
    QuietMint m (m.set x) where
  initialized := rfl
  valid := validDefault_set_of_ne (by rintro he; rw [← he] at h; cases h)
  core := m.mintCore_set_of_ne x (.inl h)
  keeps := View.keeps_set hget hs

end Quiet

/-! ## One state loaded and stored -/

/-- The bytes begin with the base. -/
theorem base_of_bytes {S : Type} [BaseState S] {s s' : PodState S} (h : s'.bytes = s.bytes) :
    s'.base = s.base := by
  have htake : ∀ t : PodState S, t.bytes.take (Pod.size S) = Pod.toBytes t.base := by
    intro t
    rw [PodState.bytes]
    exact List.take_left' (Pod.length_toBytes t.base)
  refine Pod.toBytes_injective ?_
  rw [← htake, ← htake, h]

/-- A handler that leaves the ledger well formed and only moves. -/
structure Refines (rt : Runtime) (c : Call) (σ σ' : Ledger) : Prop where
  wf : σ'.Wf
  moves : Moves rt c σ.book σ'.book

section Store

variable {rt : Runtime} {c : Call} {σ σ' σ'' : Ledger} {k : Pubkey}

theorem Refines.refl (hwf : σ.Wf) : Refines rt c σ σ := ⟨hwf, .refl⟩

theorem Refines.trans (h : Refines rt c σ σ') (h' : Refines rt c σ' σ'') : Refines rt c σ σ'' :=
  ⟨h'.wf, h.moves.trans h'.moves⟩

theorem Refines.of_book (h : σ'.Wf ∧ σ'.book = σ.book) : Refines rt c σ σ' :=
  ⟨h.1, h.2 ▸ .refl⟩

/-- A handler that changes one token account. -/
theorem refines_store_account {s s' : PodState PodAccount} (hwf : σ.Wf)
    (hload : load σ PodAccount k = .ok s) (h : store σ k s' = .ok σ')
    (hst : s.Wf → σ.book.Account k s.view → ∃ v, s.Stored s' v ∧ v.base.isInitialized = true ∧
      Move rt c σ.book (σ.book.put k (.account v))) : Refines rt c σ σ' := by
  by_cases howner : (σ k).owner = Keys.tokenProgram
  · obtain ⟨hswf, _⟩ := hwf.load howner hload
    obtain ⟨v, hstored, hinit, hmove⟩ := hst hswf (contents_of_load howner hload)
    have hw := store_held hwf howner hload hstored hinit trivial h
    exact ⟨hw.wf, hw.book ▸ .single hmove⟩
  · obtain rfl := store_foreign howner h
    exact .refl hwf

/-- A handler that changes one token account, outside its core. -/
theorem refines_quiet_account {s s' : PodState PodAccount} (hwf : σ.Wf)
    (hload : load σ PodAccount k = .ok s) (h : store σ k s' = .ok σ')
    (hst : s.Wf → ∃ v, s.Stored s' v ∧ QuietAccount s.view v) : Refines rt c σ σ' := by
  refine refines_store_account hwf hload h fun hswf held => ?_
  obtain ⟨v, hstored, hquiet⟩ := hst hswf
  have hbase : v.base = s.base := congrArg Core.base hquiet.core
  refine ⟨v, hstored, ?_, .account held hquiet.core hquiet.grows⟩
  rw [hbase]
  exact (packed_of_load hload).initialized

/-- A handler that changes one mint. -/
theorem refines_store_mint {s s' : PodState PodMint} (hwf : σ.Wf)
    (hload : load σ PodMint k = .ok s) (h : store σ k s' = .ok σ')
    (hst : s.Wf → σ.book.Mint k s.view → ∃ m, s.Stored s' m ∧ m.base.isInitialized.toBool = true ∧
      (s.view.ValidDefault → m.ValidDefault) ∧ Move rt c σ.book (σ.book.put k (.mint m))) :
    Refines rt c σ σ' := by
  by_cases howner : (σ k).owner = Keys.tokenProgram
  · obtain ⟨hswf, hvalid⟩ := hwf.load howner hload
    obtain ⟨m, hstored, hinit, hkeep, hmove⟩ := hst hswf (contents_of_load howner hload)
    have hw := store_held hwf howner hload hstored hinit (hkeep hvalid) h
    exact ⟨hw.wf, hw.book ▸ .single hmove⟩
  · obtain rfl := store_foreign howner h
    exact .refl hwf

/-- A handler that writes one extension of a mint. -/
theorem refines_set_mint {V : Type} [Pod V] [Extension V] {s s' : PodState PodMint} {x : V}
    (hne : ExtensionType.defaultAccountState ≠ Extension.type V) (hwf : σ.Wf)
    (hload : load σ PodMint k = .ok s) (hset : s.setExtension x = .ok s')
    (h : store σ k s' = .ok σ')
    (hmove : σ.book.Mint k s.view → Move rt c σ.book (σ.book.put k (.mint (s.view.set x)))) :
    Refines rt c σ σ' := by
  refine refines_store_mint hwf hload h fun hswf held => ?_
  refine ⟨_, (PodState.setExtension_ok hswf hset).1, (packed_of_load hload).initialized,
    validDefault_set_of_ne hne, hmove held⟩

/-- A handler that changes one mint, outside its core. -/
theorem refines_quiet_mint {s s' : PodState PodMint} (hwf : σ.Wf)
    (hload : load σ PodMint k = .ok s) (h : store σ k s' = .ok σ')
    (hst : s.Wf → ∃ m, s.Stored s' m ∧ QuietMint s.view m) : Refines rt c σ σ' := by
  refine refines_store_mint hwf hload h fun hswf held => ?_
  obtain ⟨m, hstored, hquiet⟩ := hst hswf
  have hinit : m.base.isInitialized.toBool = true := by
    rw [hquiet.initialized]
    exact (packed_of_load hload).initialized
  exact ⟨m, hstored, hinit, hquiet.valid, .mint _ held hquiet.core hquiet.keeps⟩

/-- Two states of the program written back, one after the other. -/
theorem store_two {S T : Type} [BaseState S] [Held S] [BaseState T] [Held T] {j : Pubkey}
    {s s' : PodState S} {t t' : PodState T} {v : View S} {w : View T} (hwf : σ.Wf) (hne : j ≠ k)
    (howner : (σ k).owner = Keys.tokenProgram) (howner' : (σ j).owner = Keys.tokenProgram)
    (hload : load σ S k = .ok s) (hload' : load σ T j = .ok t) (h : store σ k s' = .ok σ')
    (h' : store σ' j t' = .ok σ'') (hst : s.Stored s' v) (hst' : t.Stored t' w)
    (hinit : BaseState.isInitialized v.base = true)
    (hinit' : BaseState.isInitialized w.base = true) (hvalid : Held.Valid v)
    (hvalid' : Held.Valid w) :
    σ''.Wf ∧ σ''.book = (σ.book.put k (Held.contents v)).put j (Held.contents w) := by
  have hw := store_held hwf howner hload hst hinit hvalid h
  have hw' := store_held hw.wf (by rw [hw.eq, Ledger.set_of_ne _ _ hne]; exact howner')
    (by rw [hw.eq, load_set_of_ne _ hne]; exact hload') hst' hinit' hvalid' h'
  exact ⟨hw'.wf, by rw [hw'.book, hw.book]⟩

/-- A state of the program written back at another size. -/
theorem set_resized {S : Type} [BaseState S] [Held S] {s s' : PodState S} (hwf : σ.Wf)
    (howner : (σ k).owner = Keys.tokenProgram) (hload : load σ S k = .ok s)
    (hunpack : unpack S s'.bytes = .ok s') (hswf : s'.Wf) (hvalid : Held.Valid s'.view) :
    (σ.set k { σ k with data := s'.bytes }).Wf ∧
      (σ.set k { σ k with data := s'.bytes }).book =
        σ.book.set k ⟨(σ.book k).lamports, s'.bytes.length, Held.contents s'.view⟩ := by
  refine ⟨hwf.set (fun _ => Held.wfData hunpack hswf hvalid) ?_, ?_⟩
  · rintro rfl _
    obtain ⟨m, hm⟩ := hwf.native howner
    exact Held.keeps_mint hload hm hunpack
  · have hcontents : (⟨(σ k).lamports, (σ k).owner, s'.bytes⟩ : Cell).contents =
        Held.contents s'.view := Held.contents_eq howner hunpack
    rw [Ledger.book_set, Cell.entry, hcontents]
    rfl

end Store

end SolanaEasy.Token
