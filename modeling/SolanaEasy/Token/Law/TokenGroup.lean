import SolanaEasy.Lib.Roster
import SolanaEasy.Token.Records

/-!
# Token group — members numbered in the order they join

The groups and members that mints show, as a roster: every instruction is a step of it.
A group that is not closed counts the members that were initialised for it.
-/

namespace SolanaEasy.Token

open Processor

/-! ## The roster of a book -/

def TokenGroup.club (g : TokenGroup) : Club Pubkey :=
  ⟨g.updateAuthority.toOption, g.size.toNat, g.maxSize.toNat⟩

def TokenGroupMember.seat (x : TokenGroupMember) : Seat Pubkey := ⟨x.group, x.memberNumber.toNat⟩

def Contents.club : Contents → Option (Club Pubkey)
  | .mint m => m.records.group.map TokenGroup.club
  | _ => none

def Contents.seat : Contents → Option (Seat Pubkey)
  | .mint m => m.records.member.map TokenGroupMember.seat
  | _ => none

def Book.roster (β : Book) : Roster Pubkey :=
  ⟨fun k => (β k).contents.club, fun k => (β k).contents.seat⟩

section Roster

variable {β : Book} {k : Pubkey} {m : View PodMint}

theorem Book.Mint.club (held : β.Mint k m) :
    β.roster.group k = (m.get Token.TokenGroup).map TokenGroup.club := by
  show (β k).contents.club = _
  rw [show (β k).contents = _ from held]
  rfl

theorem Book.Mint.seat (held : β.Mint k m) :
    β.roster.member k = (m.get TokenGroupMember).map TokenGroupMember.seat := by
  show (β k).contents.seat = _
  rw [show (β k).contents = _ from held]
  rfl

theorem Book.exists_group {a : Club Pubkey} (h : β.roster.group k = some a) :
    ∃ m g, β.Mint k m ∧ m.get Token.TokenGroup = some g ∧ g.club = a := by
  change (β k).contents.club = some a at h
  cases hk : (β k).contents <;> rw [hk] at h
  case mint m =>
    obtain ⟨g, hget, hclub⟩ := Option.map_eq_some_iff.mp h
    exact ⟨m, g, hk, hget, hclub⟩
  all_goals cases h

theorem Book.exists_member {a : Seat Pubkey} (h : β.roster.member k = some a) :
    ∃ m x, β.Mint k m ∧ m.get TokenGroupMember = some x ∧ x.seat = a := by
  change (β k).contents.seat = some a at h
  cases hk : (β k).contents <;> rw [hk] at h
  case mint m =>
    obtain ⟨x, hget, hseat⟩ := Option.map_eq_some_iff.mp h
    exact ⟨m, x, hk, hget, hseat⟩
  all_goals cases h

theorem Book.Mint.group_of_get {g : TokenGroup} (held : β.Mint k m)
    (h : m.get Token.TokenGroup = some g) : β.roster.group k = some g.club := by
  rw [held.club, h]
  rfl

theorem Book.Mint.member_of_get {x : TokenGroupMember} (held : β.Mint k m)
    (h : m.get TokenGroupMember = some x) : β.roster.member k = some x.seat := by
  rw [held.seat, h]
  rfl

theorem Book.roster_set {x : UInt64} {n : ℕ} {e : Contents} :
    (β.set k ⟨x, n, e⟩).roster =
      ⟨Function.update β.roster.group k e.club, Function.update β.roster.member k e.seat⟩ := by
  ext j : 2
  · show ((β.set k ⟨x, n, e⟩) j).contents.club = Function.update β.roster.group k e.club j
    rw [Book.contents_set, Function.update_apply]
    split
    · rfl
    · rfl
  · show ((β.set k ⟨x, n, e⟩) j).contents.seat = Function.update β.roster.member k e.seat j
    rw [Book.contents_set, Function.update_apply]
    split
    · rfl
    · rfl

/-- The group of a mint is written. -/
theorem Book.roster_set_group {x : UInt64} {n : ℕ} {g : TokenGroup} (held : β.Mint k m) :
    (β.set k ⟨x, n, .mint (m.set g)⟩).roster = β.roster.setGroup k g.club := by
  have hclub : (Contents.mint (m.set g)).club = some g.club := by
    show ((m.set g).get Token.TokenGroup).map _ = _
    rw [View.get_set_same]
    rfl
  have hseat : (Contents.mint (m.set g)).seat = β.roster.member k := by
    rw [held.seat, ← View.get_set_of_ne m g (by decide)]
    rfl
  rw [Book.roster_set, hclub, hseat, Function.update_eq_self]
  rfl

/-- The member of a mint is written. -/
theorem Book.roster_set_member {x : UInt64} {n : ℕ} {y : TokenGroupMember} (held : β.Mint k m) :
    (β.set k ⟨x, n, .mint (m.set y)⟩).roster = β.roster.setMember k y.seat := by
  have hseat : (Contents.mint (m.set y)).seat = some y.seat := by
    show ((m.set y).get TokenGroupMember).map _ = _
    rw [View.get_set_same]
    rfl
  have hclub : (Contents.mint (m.set y)).club = β.roster.group k := by
    rw [held.club, ← View.get_set_of_ne m y (by decide)]
    rfl
  rw [Book.roster_set, hclub, hseat, Function.update_eq_self]
  rfl

end Roster

/-! ## What the handlers leave -/

section Handlers

variable {σ σ' : Ledger} {k : Pubkey} {info : AccountInfo} {g : Token.TokenGroup}
variable {change : Token.TokenGroup → Result Token.TokenGroup} {gone : Pubkey → Prop}

/-- A group that its authority changed. A foreign account can be read as one, and is left as
it was. -/
theorem updateGroup_book (hwf : σ.Wf)
    (h : TokenGroup.updateGroup k info change σ = .ok (σ', g)) :
    (σ' = σ ∧ change g = .ok g) ∨
      ∃ m g₀, σ.book.Mint k m ∧ m.get Token.TokenGroup = some g₀ ∧
        g₀.updateAuthority.toOption.isSome = true ∧ change g₀ = .ok g ∧ σ'.Wf ∧
        σ'.book = σ.book.put k (.mint (m.set g)) ∧ ∀ j, j ≠ k → σ' j = σ j := by
  simp only [TokenGroup.updateGroup, checkUpdateAuthority, bind_eq_ok, exists_unit, okOr_eq_ok,
    pure_eq_ok, Prod.mk.injEq] at h
  obtain ⟨s, hload, g₀, hget, ⟨_, a, hauthority, _⟩, g₁, hchange, s', hset, σ₁, hstore, rfl, rfl⟩ :=
    h
  by_cases howner : (σ k).owner = Keys.tokenProgram
  · obtain ⟨hswf, hvalid⟩ := hwf.load howner hload
    have hw := store_held hwf howner hload (PodState.setExtension_ok hswf hset).1
      (packed_of_load hload).initialized (validDefault_set_of_ne (by decide) hvalid) hstore
    refine .inr ⟨s.view, g₀, contents_of_load howner hload, PodState.getExtension_eq_ok.mp hget,
      ?_, hchange, hw.wf, hw.book, fun j hj => ?_⟩
    · rw [hauthority]
      rfl
    · rw [hw.eq]
      exact Ledger.set_of_ne _ _ hj
  · have hbytes : s'.bytes = s.bytes :=
      ((store_eq_ok.mp hstore).1.resolve_left howner).trans (data_of_load hload)
    obtain rfl := TransferFee.get_of_setExtension_bytes (packed_of_load hload) hget hset hbytes
    exact .inl ⟨store_foreign howner hstore, hchange⟩

/-- Whatever the authority does to its group alone. -/
theorem updateGroup_roster (hwf : σ.Wf)
    (hchange : ∀ g g', change g = .ok g' →
      g'.size = g.size ∧ (g'.maxSize = g.maxSize ∨ g.size ≤ g'.maxSize))
    (h : TokenGroup.updateGroup k info change σ = .ok (σ', g)) :
    Roster.Step gone none σ.book.roster σ'.book.roster := by
  rcases updateGroup_book hwf h with ⟨rfl, _⟩ | ⟨m, g₀, held, hget, hmay, hok, _, hbook, _⟩
  · exact .forget fun _ => .inl ⟨rfl, rfl⟩
  · obtain ⟨hsize, hroom⟩ := hchange _ _ hok
    rw [hbook, Book.put_eq_set, Book.roster_set_group held]
    refine .revise (g := g₀.club) _ (by rw [held.club, hget]; rfl) hmay
        (congrArg UInt64.toNat hsize) ?_
    exact hroom.imp (congrArg UInt64.toNat) UInt64.le_iff_toNat_le.mp

variable {c : Call} {accounts : List AccountInfo}

theorem processInitializeGroup_roster {a : OptionalNonZeroPubkey} {n : UInt64} (hwf : σ.Wf)
    (h : TokenGroup.processInitializeGroup accounts a n σ = .ok σ') :
    Roster.Step gone none σ.book.roster σ'.book.roster := by
  unfold TokenGroup.processInitializeGroup at h
  split at h
  · simp only [bind_eq_ok, exists_unit, failIf_eq_ok, bne_eq_false_iff_eq] at h
    obtain ⟨hsame, hchecked, h⟩ := h
    obtain ⟨s, hm⟩ := checkRecordMint_ok hchecked
    rw [hsame] at h
    obtain ⟨hnone, _, size, hbook⟩ := allocAndSerialize_book hwf hm rfl h
    have held := contents_of_load hm.owner hm.load
    rw [hbook, Book.roster_set_group held]
    refine .found _ _ ?_ rfl
    rw [Book.Mint.club held, View.get_eq_none_of_ext hnone]
    rfl
  · cases h

theorem incrementSize_ok {g' : Token.TokenGroup} (h : TokenGroup.incrementSize g = .ok g') :
    g'.club = { g.club with size := g.size.toNat + 1 } ∧
      g.size.toNat + 1 ≤ g.maxSize.toNat := by
  simp only [TokenGroup.incrementSize, bind_eq_ok, okOr_eq_ok, exists_unit, failIf_eq_ok,
    decide_eq_false_iff_not, pure_eq_ok] at h
  obtain ⟨n, hn, hle, rfl⟩ := h
  have hsize : n.toNat = g.size.toNat + 1 := checkedAdd_eq_some.mp hn
  refine ⟨?_, ?_⟩
  · rw [TokenGroup.club, hsize]
    rfl
  · have hle' := UInt64.le_iff_toNat_le.mp (UInt64.not_lt.mp hle)
    omega

/-- Who joins which group, with the next number. -/
theorem processInitializeMember_ok (hwf : σ.Wf)
    (h : TokenGroup.processInitializeMember accounts σ = .ok σ') :
    ∃ k G m, (accounts[0]?).map AccountInfo.key = some k ∧
      (accounts[3]?).map AccountInfo.key = some G ∧ σ.book.Mint k m ∧
      m.get TokenGroupMember = none ∧
      ∀ gone, Roster.Step gone (some G) σ.book.roster σ'.book.roster := by
  unfold TokenGroup.processInitializeMember at h
  split at h
  · rename_i memberInfo memberMintInfo _ groupInfo _ _
    simp only [bind_eq_ok, exists_unit, failIf_eq_ok, bne_eq_false_iff_eq, beq_eq_false_iff_ne,
      Prod.exists] at h
    obtain ⟨hsame, hchecked, hne, σ₁, g', hupdated, h⟩ := h
    obtain ⟨s, hm⟩ := checkRecordMint_ok hchecked
    rw [hsame] at h hne
    have held := contents_of_load hm.owner hm.load
    rcases updateGroup_book hwf hupdated with
      ⟨_, hok⟩ | ⟨mg, g, heldG, hget, hmay, hok, hwf₁, hbook, hframe⟩
    · -- a count that does not change
      have hclub := congrArg Club.size (incrementSize_ok hok).1
      exact absurd hclub (Nat.ne_of_lt (Nat.lt_succ_self _))
    · have hcell := hframe _ hne
      have hm₁ : RecordMint σ₁ _ s _ :=
        ⟨by rw [hcell]; exact hm.owner, by rw [load, hcell]; exact hm.load, hm.extended⟩
      obtain ⟨hnone, _, size, hbook'⟩ := allocAndSerialize_book hwf₁ hm₁ rfl h
      have held₁ := contents_of_load hm₁.owner hm₁.load
      obtain ⟨hclub, hroom⟩ := incrementSize_ok hok
      have hnew : s.view.get TokenGroupMember = none := View.get_eq_none_of_ext hnone
      refine ⟨memberMintInfo.key, groupInfo.key, s.view, by rw [← hsame]; rfl, rfl, held, hnew,
        fun gone => ?_⟩
      rw [hbook', Book.roster_set_member held₁, hbook, Book.put_eq_set,
        Book.roster_set_group heldG]
      have hseat : TokenGroupMember.seat ⟨memberMintInfo.key, groupInfo.key, g'.size⟩ =
          ⟨groupInfo.key, g.club.size + 1⟩ := by
        show (⟨groupInfo.key, g'.club.size⟩ : Seat Pubkey) = _
        rw [hclub]
        rfl
      rw [hseat, hclub]
      refine .join ?_ hmay hroom ?_
      · rw [heldG.club, hget]
        rfl
      · rw [Book.Mint.seat held, hnew]
        rfl
  · cases h

end Handlers

/-! ## One step -/

/-- The group that the instruction gives a member. -/
def Call.joins (c : Call) : Option Pubkey :=
  match c.instruction with
  | .initializeMember => c.key? 3
  | _ => none

section Steps

variable {rt : Runtime} {c : Call} {σ σ' : Ledger} {β β' : Book} {G : Pubkey} {n : ℕ}

theorem Contents.club_eq_none {e : Contents} (h : ∀ m, e = .mint m → m.records.Fresh) :
    e.club = none ∧ e.seat = none := by
  cases e with
  | mint m =>
    have hfresh := h m rfl
    rw [Contents.club, Contents.seat, hfresh.group, hfresh.member]
    exact ⟨rfl, rfl⟩
  | account | other => exact ⟨rfl, rfl⟩

/-- Other instructions leave the roster alone, except for what they close. -/
theorem Course.roster (h : Course rt c β β')
    (hspares : c.instruction.Spares fun r => (r.group, r.member)) :
    Roster.Step c.Closes none β.roster β'.roster := by
  refine .forget fun k => ?_
  by_cases held : ∃ m, β.Mint k m
  · obtain ⟨m, held⟩ := held
    rcases h.mint (respects_part hspares) held with ⟨m', held', hsame⟩ | ⟨hother, hcloses, _⟩
    · obtain ⟨hgroup, hmember⟩ := Prod.mk.inj hsame
      refine .inl ⟨?_, ?_⟩
      · rw [held'.club, held.club]
        exact congrArg (Option.map _) hgroup
      · rw [held'.seat, held.seat]
        exact congrArg (Option.map _) hmember
    · refine .inr ⟨hcloses, ?_, ?_⟩
      · show (β' k).contents.club = none
        rw [hother]
        rfl
      · show (β' k).contents.seat = none
        rw [hother]
        rfl
  · have hnew : ∀ m, ¬ β.Mint k m := fun m hm => held ⟨m, hm⟩
    obtain ⟨hclub, hseat⟩ := Contents.club_eq_none (e := (β' k).contents)
      fun m hm => h.freshRecords hnew hm
    obtain ⟨hclub₀, hseat₀⟩ := Contents.club_eq_none (e := (β k).contents)
      fun m hm => absurd hm (hnew m)
    exact .inl ⟨hclub.trans hclub₀.symm, hseat.trans hseat₀.symm⟩

/-- Every instruction is a step of the roster. -/
theorem Call.run_roster (hwf : c.σ.Wf) (h : c.run rt = .ok σ') :
    Roster.Step c.Closes c.joins c.σ.book.roster σ'.book.roster := by
  by_cases hspares : c.instruction.rewrites .tokenGroup = false
  · have hmember : c.instruction.rewrites .tokenGroupMember = false := by
      cases hi : c.instruction <;> rw [hi] at hspares <;> first | rfl | exact absurd hspares nofun
    have hjoins : c.joins = none := by
      rw [Call.joins]
      split
      · rename_i hi
        rw [hi] at hspares
        cases hspares
      · rfl
    rw [hjoins]
    exact (run_course hwf h).2.roster fun r r' hr => Prod.ext
      (Instruction.spares_group hspares r r' hr) (Instruction.spares_member hmember r r' hr)
  · rw [Call.run] at h
    cases hi : c.instruction <;> rw [hi] at h hspares <;> try exact absurd rfl hspares
    case initializeGroup =>
      rw [Call.joins, hi]
      exact processInitializeGroup_roster hwf h
    case updateGroupMaxSize maxSize =>
      rw [Call.joins, hi]
      change TokenGroup.processUpdateGroupMaxSize _ _ _ = _ at h
      unfold TokenGroup.processUpdateGroupMaxSize at h
      split at h
      · simp only [bind_eq_ok, Prod.exists, pure_eq_ok] at h
        obtain ⟨σ₁, g, h, rfl⟩ := h
        refine updateGroup_roster hwf (fun g g' hg => ?_) h
        simp only [bind_eq_ok, exists_unit, failIf_eq_ok, decide_eq_false_iff_not, pure_eq_ok] at hg
        obtain ⟨hle, rfl⟩ := hg
        exact ⟨rfl, .inr (UInt64.not_lt.mp hle)⟩
      · cases h
    case updateGroupAuthority =>
      rw [Call.joins, hi]
      change TokenGroup.processUpdateGroupAuthority _ _ _ = _ at h
      unfold TokenGroup.processUpdateGroupAuthority at h
      split at h
      · simp only [bind_eq_ok, Prod.exists, pure_eq_ok] at h
        obtain ⟨σ₁, g, h, rfl⟩ := h
        refine updateGroup_roster hwf (fun g g' hg => ?_) h
        obtain rfl := Except.ok.inj hg
        exact ⟨rfl, .inl rfl⟩
      · cases h
    case initializeMember =>
      obtain ⟨k, G, m, _, hG, _, _, hstep⟩ := processInitializeMember_ok hwf h
      rw [Call.joins, hi, Call.key?, hG]
      exact hstep _

theorem EnvStep.roster {gone : Pubkey → Prop} (h : EnvStep σ σ') :
    Roster.Step gone none σ.book.roster σ'.book.roster := by
  refine .forget fun k => .inl ?_
  by_cases held : ∃ m, σ.book.Mint k m
  · obtain ⟨m, held⟩ := held
    have held' := h.book.mint held
    rw [held'.club, held.club, held'.seat, held.seat]
    exact ⟨rfl, rfl⟩
  · have hnew : ∀ m, ¬ σ.book.Mint k m := fun m hm => held ⟨m, hm⟩
    obtain ⟨hclub, hseat⟩ := Contents.club_eq_none (e := (σ.book k).contents)
      fun m hm => absurd hm (hnew m)
    obtain ⟨hclub', hseat'⟩ := Contents.club_eq_none (e := (σ'.book k).contents) fun m hm => by
      have hlowered := h.book.lowered k
      rw [hm] at hlowered
      exact absurd hlowered.to_mint (hnew m)
    exact ⟨hclub'.trans hclub.symm, hseat'.trans hseat.symm⟩

/-- A step of a run that leaves `G` open, as a step of the roster. -/
theorem Step.roster (hwf : σ.Wf) (h : Step rt (fun c => ¬ c.Closes G) σ σ') :
    ∃ gone joined, ¬ gone G ∧ Roster.Step gone joined σ.book.roster σ'.book.roster := by
  cases h with
  | call may run => exact ⟨_, _, may, Call.run_roster hwf run⟩
  | outside henv => exact ⟨fun _ => False, none, id, henv.roster⟩

/-- A group without an authority stays as it is, and nobody joins. -/
theorem Run.closed {g : Club Pubkey} (hwf : σ.Wf) (held : σ.book.roster.group G = some g)
    (hnone : g.authority = none) (h : Run rt (fun c => ¬ c.Closes G) σ σ') :
    σ'.book.roster.group G = some g ∧
      ∀ k x, σ'.book.roster.member k = some x → x.group = G →
        σ.book.roster.member k = some x := by
  induction h with
  | refl => exact ⟨held, fun _ _ hx _ => hx⟩
  | tail hbefore hstep ih =>
    obtain ⟨hgroup, hmembers⟩ := ih
    obtain ⟨gone, joined, hopen, hroster⟩ := hstep.roster (Run.wf hbefore hwf)
    obtain ⟨hgroup', _, hmembers'⟩ := hroster.closed hopen hgroup hnone
    exact ⟨hgroup', fun k x hx hG => hmembers k x (hmembers' k x hx hG) hG⟩

/-- A member stays what it is while its mint is open. -/
theorem Run.seated {k : Pubkey} {x : Seat Pubkey} (hwf : σ.Wf)
    (held : σ.book.roster.member k = some x) (h : Run rt (fun c => ¬ c.Closes k) σ σ') :
    σ'.book.roster.member k = some x := by
  induction h with
  | refl => exact held
  | tail hbefore hstep ih =>
    obtain ⟨gone, joined, hopen, hroster⟩ := hstep.roster (Run.wf hbefore hwf)
    exact hroster.member_kept hopen ih

end Steps

/-! ## Histories -/

/-- `G` was never closed, and `n` members were initialised for it. -/
inductive GroupHistory (rt : Runtime) (G : Pubkey) : ℕ → Ledger → Prop
  | genesis {σ} (h : Genesis σ) : GroupHistory rt G 0 σ
  | joined {c : Call} {σ' n} (before : GroupHistory rt G n c.σ) (joins : c.joins = some G)
      (run : c.run rt = .ok σ') : GroupHistory rt G (n + 1) σ'
  | other {σ σ' n} (before : GroupHistory rt G n σ)
      (step : Step rt (fun c => c.joins ≠ some G ∧ ¬ c.Closes G) σ σ') : GroupHistory rt G n σ'

theorem Call.not_closes_of_joins {c : Call} {G k : Pubkey} (h : c.joins = some G) :
    ¬ c.Closes k := by
  rintro ⟨_, hi⟩
  rw [Call.joins, hi] at h
  cases h

/-- The invariant of histories. -/
theorem GroupHistory.numbered {rt : Runtime} {G : Pubkey} {n : ℕ} {σ : Ledger}
    (h : GroupHistory rt G n σ) : σ.Wf ∧ σ.book.roster.Numbered G n := by
  induction h with
  | @genesis σ hgenesis =>
    have hempty : σ.book.roster = Roster.empty := by
      ext k : 2
      · show (σ.book k).contents.club = none
        rw [hgenesis.book]
        rfl
      · show (σ.book k).contents.seat = none
        rw [hgenesis.book]
        rfl
    rw [hempty]
    exact ⟨hgenesis.wf, Roster.empty_numbered⟩
  | @joined c σ' n before joins run ih =>
    obtain ⟨hwf, hnumbered⟩ := ih
    have hstep := (Call.run_roster hwf run).numbered (Call.not_closes_of_joins joins) hnumbered
    rw [if_pos joins] at hstep
    exact ⟨(run_course hwf run).1, hstep⟩
  | @other σ σ' n before step ih =>
    obtain ⟨hwf, hnumbered⟩ := ih
    refine ⟨step.wf hwf, ?_⟩
    cases step with
    | call may run =>
      have hstep := (Call.run_roster hwf run).numbered may.2 hnumbered
      rwa [if_neg may.1] at hstep
    | outside henv =>
      have hroster : Roster.Step (fun _ => False) none σ.book.roster σ'.book.roster := henv.roster
      exact hroster.numbered id hnumbered

/-- A group that stays open counts the members initialised for it, within its bound; their
numbers are the first ones, each given once; a mint is initialised as a member once while
it is open; and without an authority nothing about the group changes any more. -/
theorem token_group {rt : Runtime} {G : Pubkey} {n : ℕ} {σ : Ledger} (h : GroupHistory rt G n σ) :
    (∀ m g, σ.book.Mint G m → m.get Token.TokenGroup = some g →
      g.size.toNat = n ∧ g.size ≤ g.maxSize ∧
      (g.updateAuthority.toOption = none → ∀ σ', Run rt (fun c => ¬ c.Closes G) σ σ' →
        (∃ m' g', σ'.book.Mint G m' ∧ m'.get Token.TokenGroup = some g' ∧ g'.club = g.club) ∧
        ∀ M m' x, σ'.book.Mint M m' → m'.get TokenGroupMember = some x → x.group = G →
          ∃ m₀ x₀, σ.book.Mint M m₀ ∧ m₀.get TokenGroupMember = some x₀ ∧ x₀.seat = x.seat)) ∧
    ∀ M m x, σ.book.Mint M m → m.get TokenGroupMember = some x →
      (x.group = G → 1 ≤ x.memberNumber.toNat ∧ x.memberNumber.toNat ≤ n ∧
        ∀ M' m' x', σ.book.Mint M' m' → m'.get TokenGroupMember = some x' → x'.group = G →
          x'.memberNumber = x.memberNumber → M' = M) ∧
      ∀ σ', Run rt (fun c => ¬ c.Closes M) σ σ' →
        (∃ m' x', σ'.book.Mint M m' ∧ m'.get TokenGroupMember = some x' ∧ x'.seat = x.seat) ∧
        ∀ ctx accounts σ'', accounts.head?.map AccountInfo.key = some M →
          process rt ctx accounts .initializeMember σ' ≠ .ok σ'' := by
  obtain ⟨hwf, hnumbered⟩ := h.numbered
  refine ⟨fun m g held hget => ?_, fun M m x held hget => ?_⟩
  · have hgroup := held.group_of_get hget
    obtain ⟨hsize, hle⟩ := hnumbered.size _ hgroup
    refine ⟨hsize, UInt64.le_iff_toNat_le.mpr hle, fun hnone σ' hrun => ?_⟩
    obtain ⟨hgroup', hmembers⟩ := Run.closed hwf hgroup hnone hrun
    refine ⟨Book.exists_group hgroup', fun M m' x held' hget' hG => ?_⟩
    exact Book.exists_member (hmembers M _ (held'.member_of_get hget') hG)
  · have hmember := held.member_of_get hget
    refine ⟨fun hG => ?_, fun σ' hrun => ?_⟩
    · obtain ⟨hlow, hhigh⟩ := hnumbered.range _ _ hmember hG
      refine ⟨hlow, hhigh, fun M' m' x' held' hget' hG' hsame => ?_⟩
      exact hnumbered.distinct _ _ _ _ (held'.member_of_get hget') hmember hG' hG
        (congrArg UInt64.toNat hsame)
    · have hseated := Run.seated hwf hmember hrun
      refine ⟨Book.exists_member hseated, fun ctx accounts σ'' hhead hok => ?_⟩
      obtain ⟨k, G', m', hk, _, held', hnone, _⟩ :=
        processInitializeMember_ok (Run.wf hrun hwf) hok
      rw [← List.head?_eq_getElem?, hhead] at hk
      obtain rfl := Option.some.inj hk
      rw [held'.seat, hnone] at hseated
      cases hseated

/-! A group that two mints join. -/

theorem GroupHistory.run {rt : Runtime} {G : Pubkey} {n : ℕ} {σ σ' : Ledger}
    (before : GroupHistory rt G n σ)
    (h : Run rt (fun c => c.joins ≠ some G ∧ ¬ c.Closes G) σ σ') : GroupHistory rt G n σ' := by
  induction h with
  | refl => exact before
  | tail _ hstep ih => exact ih.other hstep

theorem GroupHistory.joined_scripted {rt : Runtime} {G : Pubkey} {n : ℕ} {σ : Ledger}
    (h : GroupHistory rt G n σ) (ctx : Context) (accounts : List AccountInfo)
    (joins : (accounts[3]?).map AccountInfo.key = some G)
    (hrun : (toOption (process rt ctx accounts .initializeMember σ)).isSome = true) :
    GroupHistory rt G (n + 1) (scripted rt [(ctx, accounts, .initializeMember)] σ) :=
  h.joined (c := ⟨ctx, accounts, .initializeMember, σ⟩) joins (process_scripted hrun)

def groupSteps : List (Context × List AccountInfo × Instruction) :=
  [(.plain, [⟨1, false⟩], .initializeGroupPointer ⟨5⟩ ⟨1⟩),
    (.plain, [⟨1, false⟩], .initializeMint2 6 5 none),
    (.plain, [⟨1, false⟩, ⟨1, false⟩, ⟨5, true⟩], .initializeGroup ⟨7⟩ 3),
    (.plain, [⟨2, false⟩], .initializeGroupMemberPointer ⟨5⟩ ⟨2⟩),
    (.plain, [⟨2, false⟩], .initializeMint2 6 5 none),
    (.plain, [⟨3, false⟩], .initializeGroupMemberPointer ⟨5⟩ ⟨3⟩),
    (.plain, [⟨3, false⟩], .initializeMint2 6 5 none)]

def groupFounded : Ledger :=
  scripted (.modular 2) groupSteps (blank [(1, 234), (2, 234), (3, 234)])

def groupOne : Ledger :=
  scripted (.modular 2) [(.plain, [⟨2, false⟩, ⟨2, false⟩, ⟨5, true⟩, ⟨1, false⟩, ⟨7, true⟩],
    .initializeMember)] groupFounded

def groupTwo : Ledger :=
  scripted (.modular 2) [(.plain, [⟨3, false⟩, ⟨3, false⟩, ⟨5, true⟩, ⟨1, false⟩, ⟨7, true⟩],
    .initializeMember)] groupOne

theorem token_group_scripted :
    ∃ m g, groupTwo.book.Mint 1 m ∧ m.get Token.TokenGroup = some g ∧ g.size.toNat = 2 := by
  obtain ⟨σ₀, hgenesis, hrun⟩ : Reachable (.modular 2)
      (fun c => c.joins ≠ some 1 ∧ ¬ c.Closes 1) groupFounded :=
    .scripted (by decide) (by simp [groupSteps, Call.joins, Call.Closes]) (by decide +kernel)
  have hfounded : GroupHistory (.modular 2) 1 0 groupFounded :=
      (GroupHistory.genesis hgenesis).run hrun
  have hone : GroupHistory (.modular 2) 1 1 groupOne :=
    hfounded.joined_scripted .plain [⟨2, false⟩, ⟨2, false⟩, ⟨5, true⟩, ⟨1, false⟩, ⟨7, true⟩] rfl
      (by decide +kernel)
  have htwo : GroupHistory (.modular 2) 1 2 groupTwo :=
    hone.joined_scripted .plain [⟨3, false⟩, ⟨3, false⟩, ⟨5, true⟩, ⟨1, false⟩, ⟨7, true⟩] rfl
      (by decide +kernel)
  obtain ⟨m, held, hp⟩ := exists_mint groupTwo 1
    (fun m => (m.get Token.TokenGroup).isSome) (by decide +kernel) (by decide +kernel)
  obtain ⟨g, hget⟩ := Option.isSome_iff_exists.mp hp
  exact ⟨m, g, held, hget, ((token_group htwo).1 m g held hget).1⟩

end SolanaEasy.Token
