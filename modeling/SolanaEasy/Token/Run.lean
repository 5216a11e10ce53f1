import SolanaEasy.Token.Effect
import SolanaEasy.Token.Refine.Process

/-!
# Runs — any instructions in any order

A run starts on a ledger that has no account of the program, and interleaves
successful instructions with steps of everyone else; a failed instruction changes
nothing. What every move and every trade respects, every run respects: the rules
here are the ones by which the invariants are proved.
-/

namespace SolanaEasy.Token

open Processor

section Run

variable (rt : Runtime) (allow : Call → Prop)

/-- One step of the chain, by an instruction that is allowed or by someone else. -/
inductive Step : Ledger → Ledger → Prop
  | call {c : Call} {σ'} (may : allow c) (run : c.run rt = .ok σ') : Step c.σ σ'
  | outside {σ σ'} (h : EnvStep σ σ') : Step σ σ'

abbrev Run : Ledger → Ledger → Prop := Relation.ReflTransGen (Step rt allow)

/-- Nothing belongs to the program yet. -/
def Genesis (σ : Ledger) : Prop := ∀ k, (σ k).owner ≠ Keys.tokenProgram

def Reachable (σ : Ledger) : Prop := ∃ σ₀, Genesis σ₀ ∧ Run rt allow σ₀ σ

end Run

variable {rt : Runtime} {allow : Call → Prop} {c : Call} {σ σ' : Ledger} {β β' : Book} {k : Pubkey}

/-! ## Well-formed ledgers -/

theorem Genesis.wf (h : Genesis σ) : σ.Wf where
  data k hk := absurd hk (h k)
  native hk := absurd hk (h _)

theorem Genesis.book (h : Genesis σ) (k : Pubkey) : (σ.book k).contents = .other :=
  Cell.contents_of_foreign (h k)

theorem Step.wf (h : Step rt allow σ σ') (hwf : σ.Wf) : σ'.Wf := by
  cases h with
  | call may run => exact (run_course hwf run).1
  | outside h => exact h.wf hwf

theorem Run.wf (h : Run rt allow σ σ') (hwf : σ.Wf) : σ'.Wf := by
  induction h with
  | refl => exact hwf
  | tail _ hstep ih => exact hstep.wf ih

theorem Reachable.wf (h : Reachable rt allow σ) : σ.Wf := by
  obtain ⟨σ₀, hgenesis, hrun⟩ := h
  exact Run.wf hrun hgenesis.wf

theorem Reachable.run (h : Reachable rt allow σ) (hrun : Run rt allow σ σ') :
    Reachable rt allow σ' := by
  obtain ⟨σ₀, hgenesis, hbefore⟩ := h
  exact ⟨σ₀, hgenesis, hbefore.trans hrun⟩

theorem Run.mono {allow' : Call → Prop} (h : Run rt allow σ σ') (hmono : ∀ c, allow c → allow' c) :
    Run rt allow' σ σ' := by
  refine Relation.ReflTransGen.mono (fun a b hstep => ?_) _ _ h
  cases hstep with
  | call may run => exact .call (hmono _ may) run
  | outside h => exact .outside h

theorem Reachable.mono {allow' : Call → Prop} (h : Reachable rt allow σ)
    (hmono : ∀ c, allow c → allow' c) : Reachable rt allow' σ := by
  obtain ⟨σ₀, hgenesis, hrun⟩ := h
  exact ⟨σ₀, hgenesis, Run.mono hrun hmono⟩

/-! ## Hooks -/

/-- What the call of a hook leaves behind at a key: at most a lowered flag. -/
inductive Lowered : Contents → Contents → Prop
  | same {x} : Lowered x x
  | account {v} : Lowered (.account v) (.account (v.flag false))

theorem Hooked.lowered {s d : Pubkey} {hook : Option Pubkey} (h : Hooked c s d hook β β')
    (k : Pubkey) : Lowered (β k).contents (β' k).contents := by
  cases h with
  | quiet => exact .same
  | @called _ program v w σ σ' source target raised run =>
    have henv := (c.ctx.executeHook_envStep run).book
    rw [Book.contents_put, Book.contents_put]
    split
    · rename_i hk
      rw [hk, show (β d).contents = _ from target]
      exact .account
    · rename_i hd
      split
      · rename_i hk
        rw [hk, show (β s).contents = _ from source]
        exact .account
      · rename_i hs
        -- the callee cannot write to accounts of the program
        have hkeep : (σ.book k).contents = (β k).contents := by
          rw [raised, Book.contents_put, Book.contents_put, if_neg hd, if_neg hs]
        have hsame : (σ'.book k).contents = (β k).contents := by
          rw [← hkeep]
          by_cases hother : (σ.book k).contents = .other
          · rw [hother]
            exact henv.other k hother
          · exact (henv.held k hother).1
        rw [hsame]
        exact .same

/-! ## Accounts over one instruction -/

theorem Change.of_account {v : View PodAccount} {x : Contents}
    (h : Change rt c β k (.account v) x) :
    (∃ v', x = .account v' ∧ Effects rt c β k v v') ∨
      (x = .other ∧ c.Closes k ∧ ∃ d, c.Closable v d) := by
  cases h with
  | same => exact .inl ⟨v, rfl, .refl⟩
  | account h => exact .inl ⟨_, rfl, h⟩
  | closeAccount closes closable => exact .inr ⟨rfl, closes, _, closable⟩

theorem Change.of_mint {m : View PodMint} {x : Contents} (h : Change rt c β k (.mint m) x) :
    x = .mint m ∨ (∃ m', x = .mint m' ∧ MintEffect rt c k m m' ∧ m.Keeps m') ∨
      (x = .other ∧ c.Closes k ∧ (m.ext .mintCloseAuthority).isSome = true ∧
        m.base.supply = 0) := by
  cases h with
  | same => exact .inl rfl
  | mint h keeps => exact .inr (.inl ⟨_, rfl, h, keeps⟩)
  | closeMint closes closable supply => exact .inr (.inr ⟨rfl, closes, closable, supply⟩)

theorem Deal.of_account {s d : Pubkey} {v : View PodAccount} {x : Contents}
    (h : Deal rt c s d k (.account v) x) :
    x = .account v ∨ ∃ v', x = .account v' ∧ Exchange rt c v v' ∧ v.Grows v' := by
  cases h with
  | same => exact .inl rfl
  | account _ h grows => exact .inr ⟨_, rfl, h, grows⟩

theorem Deal.of_mint {s d : Pubkey} {m : View PodMint} {x : Contents}
    (h : Deal rt c s d k (.mint m) x) :
    x = .mint m ∨ ∃ m', x = .mint m' ∧ MintExchange rt c m m' ∧ m.Keeps m' := by
  cases h with
  | same => exact .inl rfl
  | mint h keeps => exact .inr ⟨_, rfl, h, keeps⟩

theorem Lowered.of_mint {m : View PodMint} {x : Contents} (h : Lowered (.mint m) x) :
    x = .mint m := by
  cases h with
  | same => rfl

theorem Lowered.to_mint {m : View PodMint} {x : Contents} (h : Lowered x (.mint m)) :
    x = .mint m := by
  cases h with
  | same => rfl

theorem Deal.to_mint {s d : Pubkey} {m' : View PodMint} {x : Contents}
    (h : Deal rt c s d k x (.mint m')) :
    ∃ m, x = .mint m ∧ (m = m' ∨ MintExchange rt c m m' ∧ m.Keeps m') := by
  cases h with
  | same => exact ⟨m', rfl, .inl rfl⟩
  | mint h keeps => exact ⟨_, rfl, .inr ⟨h, keeps⟩⟩

theorem Deal.to_account {s d : Pubkey} {v' : View PodAccount} {x : Contents}
    (h : Deal rt c s d k x (.account v')) :
    ∃ v, x = .account v ∧ v'.base.mint = v.base.mint ∧ v.Grows v' := by
  cases h with
  | same => exact ⟨v', rfl, rfl, .refl v'⟩
  | account _ h grows =>
    refine ⟨_, rfl, ?_, grows⟩
    cases h <;> rename_i core <;> exact congrArg (fun a : Core => a.base.mint) core

/-- An instruction that closes something opens nothing. -/
theorem Change.of_closed {x : Contents} (h : Change rt c β k .other x) (hc : c.Closes k) :
    x = .other := by
  have hi := hc.2
  cases h with
  | same => rfl
  | openAccount opens =>
    rw [Call.isInitializeAccount, hi] at opens
    cases opens
  | openMint opens =>
    have hmint := opens.2.2
    rw [hi] at hmint
    exact hmint.elim
  | openNativeMint opens =>
    rw [hi] at opens
    cases opens

/-- A relation between accounts that no move breaks. -/
structure Tracks (rt : Runtime) (c : Call) (k : Pubkey)
    (P : View PodAccount → View PodAccount → Prop) : Prop where
  refl : ∀ v, P v v
  trans : ∀ {u v w}, P u v → P v w → P u w
  effect : ∀ {β v v'}, Effect rt c β k v v' → v.Grows v' → P v v'

/-- A relation between accounts that no part of an instruction breaks. -/
structure Respects (rt : Runtime) (c : Call) (k : Pubkey)
    (P : View PodAccount → View PodAccount → Prop) : Prop extends Tracks rt c k P where
  exchange : ∀ {v v'}, Exchange rt c v v' → v.Grows v' → P v v'
  flag : ∀ v, P v (v.flag false)

section Respects

variable {P : View PodAccount → View PodAccount → Prop} {v v' : View PodAccount}

theorem Tracks.effects (hP : Tracks rt c k P) (h : Effects rt c β k v v') : P v v' := by
  induction h with
  | refl => exact hP.refl _
  | tail _ hstep ih => exact hP.trans ih (hP.effect hstep.1 hstep.2)

theorem Respects.lowered (hP : Respects rt c k P) {x : Contents} (h : Lowered (.account v) x) :
    ∃ v', x = .account v' ∧ P v v' := by
  cases h with
  | same => exact ⟨v, rfl, hP.refl v⟩
  | account => exact ⟨_, rfl, hP.flag v⟩

theorem Moves.account (hP : Tracks rt c k P) (h : Moves rt c β β') (held : β.Account k v) :
    (∃ v', β'.Account k v' ∧ P v v') ∨
      ((β' k).contents = .other ∧ c.Closes k ∧ ∃ v₁ d, P v v₁ ∧ c.Closable v₁ d) := by
  induction h with
  | refl => exact .inl ⟨v, held, hP.refl v⟩
  | tail _ hmove ih =>
    have hchange := hmove.change k
    rcases ih with ⟨v₁, hv₁, hp⟩ | ⟨hother, hc, hclosed⟩
    · rw [show _ = Contents.account v₁ from hv₁] at hchange
      rcases hchange.of_account with ⟨v₂, hv₂, heffects⟩ | ⟨hother, hc, d, hclosable⟩
      · exact .inl ⟨v₂, hv₂, hP.trans hp (hP.effects heffects)⟩
      · exact .inr ⟨hother, hc, v₁, d, hp, hclosable⟩
    · rw [hother] at hchange
      exact .inr ⟨hchange.of_closed hc, hc, hclosed⟩

/-- What an instruction does to an account: it keeps it, or closes it. -/
theorem Course.account (hP : Respects rt c k P) (h : Course rt c β β') (held : β.Account k v) :
    (∃ v', β'.Account k v' ∧ P v v') ∨
      ((β' k).contents = .other ∧ c.Closes k ∧ ∃ v₁ d, P v v₁ ∧ c.Closable v₁ d) := by
  cases h with
  | moves other h => exact h.account hP.toTracks held
  | trade trades h rest =>
    have hdeal := h.deal k
    have hlowered := rest.lowered k
    rw [show _ = Contents.account v from held] at hdeal
    rcases hdeal.of_account with hsame | ⟨v₁, hv₁, hexchange, hgrows⟩
    · rw [hsame] at hlowered
      obtain ⟨v', hv', hp⟩ := hP.lowered hlowered
      exact .inl ⟨v', hv', hp⟩
    · rw [hv₁] at hlowered
      obtain ⟨v', hv', hp⟩ := hP.lowered hlowered
      exact .inl ⟨v', hv', hP.trans (hP.exchange hexchange hgrows) hp⟩

end Respects

/-- A relation between mints that no part of an instruction breaks. -/
structure MintRespects (rt : Runtime) (c : Call) (M : Pubkey)
    (P : View PodMint → View PodMint → Prop) : Prop where
  refl : ∀ m, P m m
  trans : ∀ {m n o}, P m n → P n o → P m o
  effect : ∀ {m m'}, MintEffect rt c M m m' → m.Keeps m' → P m m'
  exchange : ∀ {m m'}, MintExchange rt c m m' → m.Keeps m' → P m m'

section MintRespects

variable {P : View PodMint → View PodMint → Prop} {M : Pubkey} {m : View PodMint}

theorem Moves.mint (hP : MintRespects rt c M P) (h : Moves rt c β β') (held : β.Mint M m) :
    (∃ m', β'.Mint M m' ∧ P m m') ∨
      ((β' M).contents = .other ∧ c.Closes M ∧ ∃ m₁, P m m₁ ∧ m₁.base.supply = 0) := by
  induction h with
  | refl => exact .inl ⟨m, held, hP.refl m⟩
  | tail _ hmove ih =>
    have hchange := hmove.change M
    rcases ih with ⟨m₁, hm₁, hp⟩ | ⟨hother, hc, hclosed⟩
    · rw [show _ = Contents.mint m₁ from hm₁] at hchange
      rcases hchange.of_mint with hsame | ⟨m₂, hm₂, heffect, hkeeps⟩ | ⟨hother, hc, _, hsupply⟩
      · exact .inl ⟨m₁, hsame, hp⟩
      · exact .inl ⟨m₂, hm₂, hP.trans hp (hP.effect heffect hkeeps)⟩
      · exact .inr ⟨hother, hc, m₁, hp, hsupply⟩
    · rw [hother] at hchange
      exact .inr ⟨hchange.of_closed hc, hc, hclosed⟩

/-- What an instruction does to a mint: it keeps it, or closes it. -/
theorem Course.mint (hP : MintRespects rt c M P) (h : Course rt c β β') (held : β.Mint M m) :
    (∃ m', β'.Mint M m' ∧ P m m') ∨
      ((β' M).contents = .other ∧ c.Closes M ∧ ∃ m₁, P m m₁ ∧ m₁.base.supply = 0) := by
  cases h with
  | moves other h => exact h.mint hP held
  | trade trades h rest =>
    have hdeal := h.deal M
    have hlowered := rest.lowered M
    rw [show _ = Contents.mint m from held] at hdeal
    rcases hdeal.of_mint with hsame | ⟨m', hm', hexchange, hkeeps⟩
    · rw [hsame] at hlowered
      exact .inl ⟨m, hlowered.of_mint, hP.refl m⟩
    · rw [hm'] at hlowered
      exact .inl ⟨m', hlowered.of_mint, hP.exchange hexchange hkeeps⟩

end MintRespects

/-! ## Accounts and mints over a run -/

theorem Book.Env.account (h : β.Env β') {v : View PodAccount} (held : β.Account k v) :
    β'.Account k v := by
  have hkeep := h.held k (by rw [show _ = Contents.account v from held]; simp)
  exact hkeep.1.trans held

theorem Book.Env.mint (h : β.Env β') {m : View PodMint} (held : β.Mint k m) : β'.Mint k m := by
  have hkeep := h.held k (by rw [show _ = Contents.mint m from held]; simp)
  exact hkeep.1.trans held

theorem Run.account {P : View PodAccount → View PodAccount → Prop} {v : View PodAccount}
    (hP : ∀ c, allow c → Respects rt c k P)
    (hclose : ∀ c v, allow c → c.σ.book.Account k v → ¬ c.Closes k)
    (hwf : σ.Wf) (held : σ.book.Account k v) (hrefl : P v v)
    (htrans : ∀ {u v w}, P u v → P v w → P u w) (h : Run rt allow σ σ') :
    ∃ v', σ'.book.Account k v' ∧ P v v' := by
  induction h with
  | refl => exact ⟨v, held, hrefl⟩
  | tail hbefore hstep ih =>
    obtain ⟨v₁, hv₁, hp⟩ := ih
    cases hstep with
    | @call c _ may run =>
      have hcourse := (run_course (Run.wf hbefore hwf) run).2
      rcases hcourse.account (hP c may) hv₁ with ⟨v₂, hv₂, hp'⟩ | ⟨_, hc, _⟩
      · exact ⟨v₂, hv₂, htrans hp hp'⟩
      · exact absurd hc (hclose c _ may hv₁)
    | outside henv => exact ⟨v₁, henv.book.account hv₁, hp⟩

theorem Run.mint {P : View PodMint → View PodMint → Prop} {M : Pubkey} {m : View PodMint}
    (hP : ∀ c, allow c → MintRespects rt c M P)
    (hclose : ∀ c m, allow c → c.σ.book.Mint M m → ¬ c.Closes M)
    (hwf : σ.Wf) (held : σ.book.Mint M m) (hrefl : P m m)
    (htrans : ∀ {m n o}, P m n → P n o → P m o) (h : Run rt allow σ σ') :
    ∃ m', σ'.book.Mint M m' ∧ P m m' := by
  induction h with
  | refl => exact ⟨m, held, hrefl⟩
  | tail hbefore hstep ih =>
    obtain ⟨m₁, hm₁, hp⟩ := ih
    cases hstep with
    | @call c _ may run =>
      have hcourse := (run_course (Run.wf hbefore hwf) run).2
      rcases hcourse.mint (hP c may) hm₁ with ⟨m₂, hm₂, hp'⟩ | ⟨_, hc, _⟩
      · exact ⟨m₂, hm₂, htrans hp hp'⟩
      · exact absurd hc (hclose c _ may hm₁)
    | outside henv => exact ⟨m₁, henv.book.mint hm₁, hp⟩

/-! ## Invariants -/

/-- A property of books that no part of an allowed instruction breaks, nor anyone else. -/
structure Preserved (rt : Runtime) (allow : Call → Prop) (I : Book → Prop) : Prop where
  move : ∀ {c β β'}, allow c → c.σ.Wf → I c.σ.book → I β → Move rt c β β' → I β'
  trade : ∀ {c s d hook β'}, allow c → c.σ.Wf → I c.σ.book →
    Trade rt c s d hook c.σ.book β' → I β'
  hooked : ∀ {c s d hook β β'}, I β → Hooked c s d hook β β' → I β'
  env : ∀ {β β'}, I β → β.Env β' → I β'

section Preserved

variable {I : Book → Prop}

theorem Preserved.course (hI : Preserved rt allow I) (may : allow c) (hwf : c.σ.Wf)
    (hi : I c.σ.book) (h : Course rt c c.σ.book β') : I β' := by
  cases h with
  | moves other h =>
    induction h with
    | refl => exact hi
    | tail _ hmove ih => exact hI.move may hwf hi ih hmove
  | trade trades h rest => exact hI.hooked (hI.trade may hwf hi h) rest

theorem Preserved.run (hI : Preserved rt allow I) (hwf : σ.Wf) (hi : I σ.book)
    (h : Run rt allow σ σ') : I σ'.book := by
  induction h with
  | refl => exact hi
  | tail hbefore hstep ih =>
    cases hstep with
    | @call c _ may run =>
      have hc := Run.wf hbefore hwf
      exact hI.course may hc ih (run_course hc run).2
    | outside henv => exact hI.env ih henv.book

/-- A preserved property that empty books have holds in every reachable state. -/
theorem Preserved.reachable (hI : Preserved rt allow I)
    (hempty : ∀ β : Book, (∀ k, (β k).contents = .other) → I β) (h : Reachable rt allow σ) :
    I σ.book := by
  obtain ⟨σ₀, hgenesis, hrun⟩ := h
  exact hI.run hgenesis.wf (hempty _ hgenesis.book) hrun

/-- A property that is preserved as long as another one is. -/
theorem Preserved.and {J : Book → Prop} (hI : Preserved rt allow I)
    (move : ∀ {c β β'}, allow c → I β → J β → Move rt c β β' → J β')
    (trade : ∀ {c s d hook β'}, allow c → I c.σ.book → J c.σ.book →
      Trade rt c s d hook c.σ.book β' → J β')
    (hooked : ∀ {c s d hook β β'}, J β → Hooked c s d hook β β' → J β')
    (env : ∀ {β β'}, J β → β.Env β' → J β') : Preserved rt allow fun β => I β ∧ J β where
  move may hwf hc hi h := ⟨hI.move may hwf hc.1 hi.1 h, move may hi.1 hi.2 h⟩
  trade may hwf hc h := ⟨hI.trade may hwf hc.1 h, trade may hc.1 hc.2 h⟩
  hooked hi h := ⟨hI.hooked hi.1 h, hooked hi.2 h⟩
  env hi h := ⟨hI.env hi.1 h, env hi.2 h⟩

end Preserved

theorem Book.Env.lowered (h : β.Env β') (k : Pubkey) :
    Lowered (β k).contents (β' k).contents := by
  by_cases hother : (β k).contents = .other
  · rw [hother, h.other k hother]
    exact .same
  · rw [(h.held k hother).1]
    exact .same

/-- A property of mints that those who open one establish and no change breaks. -/
theorem Preserved.of_mint {P : Pubkey → View PodMint → Prop}
    (opened : ∀ {c β M m}, allow c → Change rt c β M .other (.mint m) → P M m)
    (keeps : ∀ {M m m'}, P M m → m.Keeps m' → P M m') :
    Preserved rt allow fun β => ∀ M m, β.Mint M m → P M m where
  move := by
    intro c β β' may _ _ hi hmove M m' held
    have hat := hmove.change M
    rw [show _ = Contents.mint m' from held] at hat
    generalize hx : (β M).contents = x at hat
    cases hat with
    | same => exact hi M m' hx
    | mint _ hkeeps => exact keeps (hi M _ hx) hkeeps
    | openMint opens ne fees records =>
      exact opened may (Change.openMint (β := β) opens ne fees records)
    | openNativeMint opens native bare =>
      exact opened may (Change.openNativeMint (β := β) opens native bare)
  trade := by
    intro c s d hook β' _ _ hi htrade M m' held
    obtain ⟨m, hm, hkeeps⟩ := (held ▸ htrade.deal M : Deal ..).to_mint
    rcases hkeeps with rfl | ⟨_, hkeeps⟩
    · exact hi M m hm
    · exact keeps (hi M m hm) hkeeps
  hooked hi hhooked M m held := hi M m (held ▸ hhooked.lowered M : Lowered ..).to_mint
  env hi henv M m held := hi M m (held ▸ henv.lowered M : Lowered ..).to_mint

/-! ## Invariants of an account and its mint -/

theorem Effect.mint_eq {v v' : View PodAccount} (h : Effect rt c β k v v') :
    v'.base.mint = v.base.mint := by
  cases h <;> rename_i core <;> exact congrArg (fun a : Core => a.base.mint) core

theorem Exchange.mint_eq {v v' : View PodAccount} (h : Exchange rt c v v') :
    v'.base.mint = v.base.mint := by
  cases h <;> rename_i core <;> exact congrArg (fun a : Core => a.base.mint) core

/-- What holds between an account and whatever its mint's address holds. -/
def Book.Linked (Q : View PodAccount → Contents → Prop) (β : Book) : Prop :=
  ∀ k v, β.Account k v → Q v (β v.base.mint).contents

/-- The rule for such a property: one case for each way the account, and one for each way
the contents of the mint's address, can change. -/
structure Link (rt : Runtime) (allow : Call → Prop) (Q : View PodAccount → Contents → Prop) :
    Prop where
  opened : ∀ {c β k v m}, allow c → Change rt c β k .other (.account v) →
    β.Mint v.base.mint m → Q v (.mint m)
  effect : ∀ {c β k v v'}, allow c → Effect rt c β k v v' → v.Grows v' →
    Q v (β v.base.mint).contents → Q v' (β v.base.mint).contents
  exchange : ∀ {c v v' x}, allow c → Exchange rt c v v' → v.Grows v' → Q v x → Q v' x
  flag : ∀ {v x}, Q v x → Q (v.flag false) x
  change : ∀ {c β v x y}, allow c → Change rt c β v.base.mint x y → Q v x → Q v y
  deal : ∀ {c s d v x y}, allow c → Deal rt c s d v.base.mint x y → Q v x → Q v y
  lowered : ∀ {v x y}, Lowered x y → Q v x → Q v y

section Link

variable {Q : View PodAccount → Contents → Prop}

/-- A property of accounts alone. -/
theorem Link.of_account {R : View PodAccount → Prop}
    (opened : ∀ {c β k v}, allow c → Change rt c β k .other (.account v) → R v)
    (effect : ∀ {c β k v v'}, allow c → Effect rt c β k v v' → R v → R v')
    (exchange : ∀ {c v v'}, allow c → Exchange rt c v v' → R v → R v')
    (flag : ∀ {v}, R v → R (v.flag false)) : Link rt allow fun v _ => R v where
  opened may h _ := opened may h
  effect may h _ hr := effect may h hr
  exchange may h _ hr := exchange may h hr
  flag := flag
  change _ _ hr := hr
  deal _ _ hr := hr
  lowered _ hr := hr

theorem Link.and {Q' : View PodAccount → Contents → Prop} (hQ : Link rt allow Q)
    (hQ' : Link rt allow Q') : Link rt allow fun v x => Q v x ∧ Q' v x where
  opened may h mint := ⟨hQ.opened may h mint, hQ'.opened may h mint⟩
  effect may h grows hq := ⟨hQ.effect may h grows hq.1, hQ'.effect may h grows hq.2⟩
  exchange may h grows hq := ⟨hQ.exchange may h grows hq.1, hQ'.exchange may h grows hq.2⟩
  flag hq := ⟨hQ.flag hq.1, hQ'.flag hq.2⟩
  change may h hq := ⟨hQ.change may h hq.1, hQ'.change may h hq.2⟩
  deal may h hq := ⟨hQ.deal may h hq.1, hQ'.deal may h hq.2⟩
  lowered h hq := ⟨hQ.lowered h hq.1, hQ'.lowered h hq.2⟩

theorem Link.effects (hQ : Link rt allow Q) (may : allow c) {v v' : View PodAccount}
    (h : Effects rt c β k v v') (hq : Q v (β v.base.mint).contents) :
    Q v' (β v'.base.mint).contents := by
  induction h with
  | refl => exact hq
  | tail _ hstep ih =>
    rw [hstep.1.mint_eq]
    exact hQ.effect may hstep.1 hstep.2 ih

theorem Link.preserved (hQ : Link rt allow Q) : Preserved rt allow (Book.Linked Q) where
  move := by
    intro c β β' may _ _ hi hmove k v' held
    have hat := hmove.change k
    rw [show _ = Contents.account v' from held] at hat
    refine hQ.change may (hmove.change _) ?_
    generalize hx : (β k).contents = x at hat
    cases hat with
    | same => exact hi k v' hx
    | account h => exact hQ.effects may h (hi k _ hx)
    | @openAccount _ m opens mint required native core =>
      rw [show (β v'.base.mint).contents = _ from mint]
      exact hQ.opened may (.openAccount (k := k) opens mint required native core) mint
  trade := by
    intro c s d hook β' may _ hi htrade k v' held
    have hat := htrade.deal k
    rw [show _ = Contents.account v' from held] at hat
    refine hQ.deal may (htrade.deal _) ?_
    generalize hx : (c.σ.book k).contents = x at hat
    cases hat with
    | same => exact hi k v' hx
    | account _ h grows =>
      rw [h.mint_eq]
      exact hQ.exchange may h grows (hi k _ hx)
  hooked := by
    intro c s d hook β β' hi hhooked k v' held
    have hat := hhooked.lowered k
    rw [show _ = Contents.account v' from held] at hat
    refine hQ.lowered (hhooked.lowered _) ?_
    generalize hx : (β k).contents = x at hat
    cases hat with
    | same => exact hi k v' hx
    | account => exact hQ.flag (hi k _ hx)
  env := by
    intro β β' hi henv k v' held
    have hat := henv.lowered k
    rw [show _ = Contents.account v' from held] at hat
    refine hQ.lowered (henv.lowered _) ?_
    generalize hx : (β k).contents = x at hat
    cases hat with
    | same => exact hi k v' hx
    | account => exact hQ.flag (hi k _ hx)

theorem Link.reachable (hQ : Link rt allow Q) (h : Reachable rt allow σ) :
    σ.book.Linked Q := by
  refine hQ.preserved.reachable (fun β hempty k v held => ?_) h
  rw [Book.Account, hempty k] at held
  cases held

end Link

/-! ## Scripts

Runs that can be evaluated. -/

/-- Accounts of the program with room for so many bytes, and a payer for none of it. -/
def blank (cells : List (Pubkey × Nat)) : Ledger := fun k =>
  match cells.lookup k with
  | some n => ⟨1000, Keys.tokenProgram, zeros n⟩
  | none => .empty

/-- Instructions one after the other, as long as they succeed. -/
def script (rt : Runtime) : List (Context × List AccountInfo × Instruction) → Ledger →
    Option Ledger
  | [], σ => some σ
  | (ctx, accounts, i) :: rest, σ =>
    (toOption (process rt ctx accounts i σ)).bind (script rt rest)

/-- The ledger a script ends on. -/
def scripted (rt : Runtime) (steps : List (Context × List AccountInfo × Instruction))
    (σ : Ledger) : Ledger := (script rt steps σ).getD σ

theorem Run.of_script {steps : List (Context × List AccountInfo × Instruction)} :
    ∀ {σ : Ledger}, (∀ p ∈ steps, ∀ σ, allow ⟨p.1, p.2.1, p.2.2, σ⟩) →
      (script rt steps σ).isSome = true → Run rt allow σ (scripted rt steps σ) := by
  induction steps with
  | nil => exact fun _ _ => .refl
  | cons p rest ih =>
    obtain ⟨ctx, accounts, i⟩ := p
    intro σ hallow h
    rw [script] at h
    rw [scripted, script]
    cases hp : toOption (process rt ctx accounts i σ) with
    | none =>
      rw [hp] at h
      cases h
    | some σ₁ =>
      rw [hp, Option.bind_some] at h
      have hstep : Step rt allow σ σ₁ :=
        .call (c := ⟨ctx, accounts, i, σ⟩) (hallow _ List.mem_cons_self σ) (toOption_eq_some.mp hp)
      have hrest := ih (fun p hp => hallow p (List.mem_cons_of_mem _ hp)) h
      obtain ⟨σ₂, hσ₂⟩ := Option.isSome_iff_exists.mp h
      rw [scripted, hσ₂] at hrest
      rw [Option.bind_some, hσ₂]
      exact .head hstep hrest

theorem reachable_blank (rt : Runtime) (allow : Call → Prop) {cells : List (Pubkey × Nat)}
    (h : cells.lookup Keys.nativeMint = none) : Reachable rt allow (blank cells) := by
  have hempty : Cell.empty.owner ≠ Keys.tokenProgram := by decide
  refine ⟨fun _ => .empty, fun _ => hempty, .single (.outside fun k =>
    ⟨fun howner => absurd howner hempty, fun _ howner => ?_⟩)⟩
  rw [blank] at howner ⊢
  split
  · refine ⟨by simp, ?_⟩
    rintro rfl
    simp_all
  · rename_i hnone
    rw [hnone] at howner
    exact absurd howner hempty

theorem Reachable.scripted {cells : List (Pubkey × Nat)}
    {steps : List (Context × List AccountInfo × Instruction)}
    (hnative : cells.lookup Keys.nativeMint = none)
    (hallow : ∀ p ∈ steps, ∀ σ, allow ⟨p.1, p.2.1, p.2.2, σ⟩)
    (h : (script rt steps (blank cells)).isSome = true) :
    Reachable rt allow (scripted rt steps (blank cells)) :=
  (reachable_blank rt allow hnative).run (Run.of_script hallow h)

/-- A mint that is there, with what can be read of it. -/
theorem exists_mint (σ : Ledger) (k : Pubkey) (p : View PodMint → Bool)
    (howner : (σ k).owner = Keys.tokenProgram)
    (h : (toOption (unpack PodMint (σ k).data)).any (fun s => p s.view) = true) :
    ∃ m, σ.book.Mint k m ∧ p m = true := by
  obtain ⟨s, hs, hp⟩ := Option.any_eq_true .. |>.mp h
  exact ⟨s.view, contents_of_load howner (toOption_eq_some.mp hs), hp⟩

theorem exists_account (σ : Ledger) (k : Pubkey) (p : View PodAccount → Bool)
    (howner : (σ k).owner = Keys.tokenProgram)
    (h : (toOption (unpack PodAccount (σ k).data)).any (fun s => p s.view) = true) :
    ∃ v, σ.book.Account k v ∧ p v = true := by
  obtain ⟨s, hs, hp⟩ := Option.any_eq_true .. |>.mp h
  exact ⟨s.view, contents_of_load howner (toOption_eq_some.mp hs), hp⟩

/-- What can be read of the mint at `k`. -/
def Ledger.checksMint (σ : Ledger) (k : Pubkey) (p : View PodMint → Bool) : Bool :=
  (σ k).owner == Keys.tokenProgram && (toOption (unpack PodMint (σ k).data)).any fun s => p s.view

theorem exists_of_checksMint {σ : Ledger} {k : Pubkey} {p : View PodMint → Bool}
    (h : σ.checksMint k p = true) : ∃ m, σ.book.Mint k m ∧ p m = true := by
  rw [Ledger.checksMint, Bool.and_eq_true, beq_iff_eq] at h
  exact exists_mint σ k p h.1 h.2

/-- What can be read of the account at `k`. -/
def Ledger.checksAccount (σ : Ledger) (k : Pubkey) (p : View PodAccount → Bool) : Bool :=
  (σ k).owner == Keys.tokenProgram &&
    (toOption (unpack PodAccount (σ k).data)).any fun s => p s.view

theorem exists_of_checksAccount {σ : Ledger} {k : Pubkey} {p : View PodAccount → Bool}
    (h : σ.checksAccount k p = true) : ∃ v, σ.book.Account k v ∧ p v = true := by
  rw [Ledger.checksAccount, Bool.and_eq_true, beq_iff_eq] at h
  exact exists_account σ k p h.1 h.2

theorem not_mint_of_unpack (h : toOption (unpack PodMint (σ k).data) = none) (m : View PodMint) :
    ¬ σ.book.Mint k m := by
  intro held
  obtain ⟨_, s, hs, _⟩ := Cell.contents_eq_mint.mp held
  rw [hs] at h
  cases h

/-- The ledger after an instruction that succeeds. -/
def Call.after (c : Call) (rt : Runtime) : Ledger := (toOption (c.run rt)).getD c.σ

theorem Call.run_after (c : Call) (h : (toOption (c.run rt)).isSome = true) :
    c.run rt = .ok (c.after rt) := by
  obtain ⟨σ', hσ'⟩ := Option.isSome_iff_exists.mp h
  rw [after, hσ']
  exact toOption_eq_some.mp hσ'

/-- A script of one instruction. -/
theorem process_scripted {ctx : Context} {accounts : List AccountInfo} {i : Instruction}
    (h : (toOption (process rt ctx accounts i σ)).isSome = true) :
    process rt ctx accounts i σ = .ok (scripted rt [(ctx, accounts, i)] σ) := by
  obtain ⟨σ', hσ'⟩ := Option.isSome_iff_exists.mp h
  rw [scripted, script, hσ', Option.bind_some, script, Option.getD_some]
  exact toOption_eq_some.mp hσ'

theorem Step.scripted {ctx : Context} {accounts : List AccountInfo} {i : Instruction}
    (may : allow ⟨ctx, accounts, i, σ⟩)
    (h : (toOption (process rt ctx accounts i σ)).isSome = true) :
    Step rt allow σ (SolanaEasy.Token.scripted rt [(ctx, accounts, i)] σ) :=
  .call (c := ⟨ctx, accounts, i, σ⟩) may (process_scripted h)

end SolanaEasy.Token
