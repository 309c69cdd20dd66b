import Mostro.RangeConservation

set_option autoImplicit false

/-!
The slash record of a bond: why and when it was slashed and what the node keeps of it.  A slash, a
slice and a refund row carry it from the statement that writes them; a range parent that is closed
goes to `slashed` without one.
-/

namespace Mostro

open Interleaving SqlTable

/-- The row says why and when it was slashed, and the node's share is within its amount. -/
def Bond.Recorded (b : Bond) : Prop :=
  b.slashedReason.isSome = true ∧ b.slashedAt.isSome = true ∧
    ∃ n ∈ b.nodeShareSats, 0 ≤ n ∧ n ≤ b.amountSats

instance (b : Bond) : Decidable b.Recorded :=
  inferInstanceAs (Decidable (_ ∧ _ ∧ ∃ n ∈ b.nodeShareSats, 0 ≤ n ∧ n ≤ b.amountSats))

theorem computeNodeShare_bounds {amount : Int} (h : 0 ≤ amount) (pct : ℚ) :
    0 ≤ computeNodeShare amount pct ∧ computeNodeShare amount pct ≤ amount := by
  unfold computeNodeShare
  split
  · exact ⟨le_rfl,h⟩
  · dsimp only
    split
    · exact ⟨le_rfl,h⟩
    · split
      · exact ⟨h,le_rfl⟩
      next hlt => exact ⟨by omega,Binary64.floor_le_of_lt (by omega) (not_le.mp hlt)⟩

def Bond.marked (b : Bond) : Bool := b.slashedReason.isSome || b.nodeShareSats.isSome

/-- One row: a captured row is recorded unless its range was closed, a bond of its own that is
marked is captured, a child row has a share, and a closed parent is slashed without a reason. -/
structure RecordRow (closes : List Uuid) (b : Bond) : Prop where
  amount : 0 ≤ b.amountSats
  recorded : b.state.isCaptured = true → b.id ∉ closes → b.Recorded
  marked : b.parentBondId = none → b.marked = true → b.state.isCaptured = true
  child : ∀ p, b.parentBondId = some p → b.nodeShareSats.isSome = true
  closed : b.id ∈ closes →
    b.parentBondId = none ∧ b.state = .slashed ∧ b.slashedReason = none

structure RecordInv (s : State) : Prop where
  row : ∀ b ∈ s.bonds, RecordRow s.closes b
  closes_lt : ∀ p ∈ s.closes, p < s.nextId

def KnowsRecord (s : State) : Fact → Prop
  | .bond b =>
      (b.parentBondId = none → b.marked = true → ∀ h, b.hash = some h →
        s.holdState h = some .settled) ∧
      ∀ p, b.parentBondId = some p → ∀ r ∈ s.bonds, r.id = b.id →
        r.nodeShareSats = b.nodeShareSats
  | _ => True

section

variable {req : Request} {Γ : Set Fact} {s : State} {b : Bond}

theorem locked_unmarked (hc : Consistent s) (hi : RecordInv s) (hb : b ∈ s.bonds)
    (hst : b.state = .locked) : b.parentBondId = none ∧ b.marked = false := by
  obtain ⟨q,hq,hid,hown,_⟩ := locked_parent (p := b.id) hc
    (List.any_eq_true.mpr ⟨b,hb,by simp [hst]⟩)
  obtain rfl := hc.bond_unique hq hb hid
  refine ⟨hown,Bool.eq_false_iff.mpr fun hm => ?_⟩
  have := (hi.row q hq).marked hown hm
  rw [hst] at this
  cases this

theorem released_unmarked {read : Bond} (hc : Consistent s)
    (hΓ : ∀ f ∈ Γ, f.Lasts s ∧ KnowsRecord s f) (hread : .bond read ∈ Γ)
    (hcan : ∀ h, read.hash = some h → .canceled h ∈ Γ) (hb : b ∈ s.bonds) (hid : b.id = read.id)
    (hown : b.parentBondId = none) : b.state.isCaptured = false ∧ read.marked = false := by
  have hcore := (bond_stored hc (fun f hf => (hΓ f hf).1) hread hb hid).1
  obtain ⟨h,hh,_,_,hset,_⟩ := hc.ownBond hb hown
  have hcanceled : s.holdState h = some .canceled :=
    (hΓ _ (hcan h (hcore.hash.symm.trans hh))).1
  refine ⟨Bool.eq_false_iff.mpr fun hcap => ?_,Bool.eq_false_iff.mpr fun hm => ?_⟩
  · exact nomatch (hset hcap).symm.trans hcanceled
  · have hsettled := (hΓ _ hread).2.1 (hcore.parentBondId.symm.trans hown) hm h
      (hcore.hash.symm.trans hh)
    exact nomatch hsettled.symm.trans hcanceled

theorem rewrite_share {st : BondStmt} (hc : Consistent s) (hi : RecordInv s)
    (hn : st.need req Γ) (hΓ : ∀ f ∈ Γ, f.Lasts s ∧ KnowsRecord s f) (hb : b ∈ s.bonds)
    (hset : b.nodeShareSats.isSome = true) :
    (st.rewrite s b).nodeShareSats = b.nodeShareSats := by
  have hmarked : b.marked = true := by simp [Bond.marked,hset]
  cases st with
  | run u =>
    simp only [BondStmt.rewrite]
    split
    next hsel =>
      have hg := bondUpdate_guard hsel
      have hid := bondUpdate_id hsel
      cases u with
      | update read row =>
        obtain ⟨hread,_,⟨t,rfl⟩,hcan⟩ := hn
        cases hp : b.parentBondId with
        | none =>
          have hcap := (released_unmarked hc hΓ hread hcan hb hid hp).1
          rw [(hi.row b hb).marked hp hmarked] at hcap
          cases hcap
        | some p =>
          have hcore := (bond_stored hc (fun f hf => (hΓ f hf).1) hread hb hid).1
          exact ((hΓ _ hread).2.2 p (hcore.parentBondId.symm.trans hp) b hb hid).symm
      | slash id reason t share trade =>
        have hst : b.state = .locked := by simpa [BondUpdate.guard] using hg
        rw [(locked_unmarked hc hi hb hst).2] at hmarked
        cases hmarked
      | _ => rfl
    · rfl
  | closeRange v =>
    simp only [BondStmt.rewrite]
    split
    · unfold RangeClose.keepRow
      dsimp only
      split <;> split <;> rfl
    · rfl
  | _ => rfl

theorem RecordRow.keep {closes : List Uuid} {r : Bond} (h : RecordRow closes b)
    (hcore : b.SameCore r) (hreason : r.slashedReason = b.slashedReason)
    (hat : r.slashedAt = b.slashedAt) (hshare : r.nodeShareSats = b.nodeShareSats)
    (hcap : r.state.isCaptured = b.state.isCaptured) (hst : b.state = .slashed → r.state = .slashed) :
    RecordRow closes r where
  amount := hcore.amountSats ▸ h.amount
  recorded hc hid := by
    have hrec := h.recorded (hcap ▸ hc) (hcore.id ▸ hid)
    unfold Bond.Recorded at hrec ⊢
    rwa [hreason,hat,hshare,hcore.amountSats]
  marked hp hm := by
    rw [hcap]
    refine h.marked (hcore.parentBondId.symm.trans hp) ?_
    unfold Bond.marked at hm ⊢
    rwa [← hreason,← hshare]
  child p hp := by
    rw [hshare]
    exact h.child p (hcore.parentBondId.symm.trans hp)
  closed hid := by
    obtain ⟨hp,hs,hr⟩ := h.closed (hcore.id ▸ hid)
    exact ⟨hcore.parentBondId.trans hp,hst hs,hreason.trans hr⟩

theorem bondUpdate_record {u : BondUpdate} (hc : Consistent s) (hi : RecordInv s)
    (hn : u.need req Γ) (hΓ : ∀ f ∈ Γ, f.Lasts s ∧ KnowsRecord s f) (hb : b ∈ s.bonds)
    (hsel : u.selects s b = true) : RecordRow s.closes (u.set s b) := by
  have hlasts : ∀ f ∈ Γ, f.Lasts s := fun f hf => (hΓ f hf).1
  have hrow := hi.row b hb
  have hcore := (hn.becomes hc hlasts hb hsel).1
  have hg := bondUpdate_guard hsel
  have hid := bondUpdate_id hsel
  -- a payout moves a captured row, which is not a closed parent, to a captured state
  have hpayout {st : BondState} (st' : BondState) (hst : b.state = st) (hcap : st.isCaptured = true)
      (hcap' : st'.isCaptured = true) (hne : st ≠ .slashed) :
      st'.isCaptured = b.state.isCaptured ∧ (b.state = .slashed → st' = .slashed) := by
    rw [hst,hcap,hcap']
    exact ⟨rfl,fun h => absurd h hne⟩
  cases u with
  | update read row =>
    obtain ⟨hread,_,⟨t,rfl⟩,hcan⟩ := hn
    refine ⟨hcore.amountSats ▸ hrow.amount,fun h => (by cases h),fun hp hm => ?_,fun p hp => ?_,
      fun hclosed => ?_⟩
    · have hun := (released_unmarked hc hΓ hread hcan hb hid (hcore.parentBondId.symm.trans hp)).2
      cases hm.symm.trans hun
    · have hshare := (hΓ _ hread).2.2 p hp b hb hid
      change read.nodeShareSats.isSome = true
      rw [← hshare]
      exact hrow.child p (hcore.parentBondId.symm.trans hp)
    · obtain ⟨hp,hst,_⟩ := hrow.closed (hcore.id ▸ hclosed)
      have hnot := (released_unmarked hc hΓ hread hcan hb hid hp).1
      rw [hst] at hnot
      cases hnot
  | slash id reason t share trade =>
    obtain ⟨⟨x,hx,hxid,_,_,pct,rfl⟩,_⟩ := hn
    have hst : b.state = .locked := by simpa [BondUpdate.guard] using hg
    have hamount : b.amountSats = x.amountSats :=
      (bond_stored hc hlasts hx.1 hb (hid.trans hxid.symm)).1.amountSats
    refine ⟨hrow.amount,fun _ _ => ⟨rfl,rfl,_,rfl,?_⟩,fun _ _ => rfl,fun _ _ => rfl,
      fun hclosed => ?_⟩
    · rw [← hamount]
      exact computeNodeShare_bounds hrow.amount pct
    · have := (hrow.closed hclosed).2.1
      rw [hst] at this
      cases this
  | lockTaker id order t =>
    have hst : b.state = .requested := by simpa using (Bool.and_eq_true_iff.mp hg).1
    refine hrow.keep hcore rfl rfl rfl ?_ ?_ <;> rw [hst]
    · rfl
    · intro h
      cases h
  | lockMaker id t =>
    have hst : b.state = .requested := by simpa [BondUpdate.guard] using hg
    refine hrow.keep hcore rfl rfl rfl ?_ ?_ <;> rw [hst]
    · rfl
    · intro h
      cases h
  | forfeit id t =>
    have hst : b.state = .pendingPayout := by simpa using (Bool.and_eq_true_iff.mp hg).1
    obtain ⟨hcap,hslashed⟩ := hpayout .forfeited hst rfl rfl (by decide)
    exact hrow.keep hcore rfl rfl rfl hcap hslashed
  | finalizeNodeOnly id =>
    obtain ⟨hcap,hslashed⟩ := hpayout .slashed (beq_iff_eq.mp hg) rfl rfl (by decide)
    exact hrow.keep hcore rfl rfl rfl hcap hslashed
  | slashAfterSuccess id =>
    obtain ⟨hcap,hslashed⟩ := hpayout .slashed (beq_iff_eq.mp hg) rfl rfl (by decide)
    exact hrow.keep hcore rfl rfl rfl hcap hslashed
  | markFailed id =>
    obtain ⟨hcap,hslashed⟩ := hpayout .failed (beq_iff_eq.mp hg) rfl rfl (by decide)
    exact hrow.keep hcore rfl rfl rfl hcap hslashed
  | resurrect id invoice =>
    obtain ⟨hcap,hslashed⟩ := hpayout .pendingPayout (beq_iff_eq.mp hg) rfl rfl (by decide)
    exact hrow.keep hcore rfl rfl rfl hcap hslashed
  | _ => exact hrow.keep hcore rfl rfl rfl rfl id

theorem keepRow_record {v : RangeClose} (hc : Consistent s) (hi : RecordInv s) (hb : b ∈ s.bonds)
    (hlocked : (s.bonds.any fun b => b.id == v.parent.id && b.state == .locked) = true) :
    RecordRow (v.parent.id :: s.closes) (v.keepRow b) := by
  have hrow := hi.row b hb
  obtain ⟨q,hq,hqid,_,hqst⟩ := locked_parent hc hlocked
  by_cases hpar : b.id = v.parent.id
  · obtain rfl := hc.bond_unique hq hb (hqid.trans hpar.symm)
    obtain ⟨hown,hun⟩ := locked_unmarked hc hi hb hqst
    have hkeep : v.keepRow q = { q with state := .slashed } := by
      simp [RangeClose.keepRow,hqid,hqst,Bond.isSliceOf,hown]
    simp only [Bond.marked,Bool.or_eq_false_iff,Option.isSome_eq_false_iff,
      Option.isNone_iff_eq_none] at hun
    rw [hkeep]
    refine ⟨hrow.amount,fun _ hno => absurd (List.mem_cons.mpr (.inl hqid)) hno,fun _ _ => rfl,
      hrow.child,fun _ => ⟨hown,rfl,hun.1⟩⟩
  · have hcloses : b.id ∈ v.parent.id :: s.closes → b.id ∈ s.closes := fun h =>
      (List.mem_cons.mp h).resolve_left hpar
    have hno : (b.id == v.parent.id && b.state == .locked) = false := by simp [hpar]
    simp only [RangeClose.keepRow,hno,Bool.false_eq_true,if_false]
    split
    · refine ⟨hrow.amount,fun hcap hid => ?_,hrow.marked,hrow.child,
        fun h => hrow.closed (hcloses h)⟩
      obtain ⟨hreason,_,hshare⟩ := hrow.recorded hcap fun h => hid (List.mem_cons_of_mem _ h)
      exact ⟨hreason,rfl,hshare⟩
    · exact ⟨hrow.amount,fun hcap hid => hrow.recorded hcap fun h => hid (List.mem_cons_of_mem _ h),
        hrow.marked,hrow.child,fun h => hrow.closed (hcloses h)⟩

theorem inserted_record {st : BondStmt} {closes : List Uuid} (hn : st.need req Γ)
    (hb : b ∈ st.inserted s) (hnew : s.nextId ∉ closes) : RecordRow closes b := by
  cases st with
  | create b =>
    obtain ⟨hst,hpar,_,hamount,⟨⟨hreason,hshare⟩,_⟩,_⟩ := hn
    rw [List.mem_singleton.mp hb]
    refine ⟨hamount,?_,?_,?_,fun h => absurd h hnew⟩
    · simp [hst,BondState.isCaptured]
    · simp [Bond.marked,hreason,hshare]
    · simp [hpar]
  | run u => cases hb
  | insertSliceSlash v =>
    obtain ⟨_,hamount,_,⟨pct,hshare⟩,_⟩ := hn
    have hpos : 0 ≤ v.amountSats := by
      rw [hamount]
      exact le_max_left _ _
    simp only [BondStmt.inserted] at hb
    split at hb
    · rw [List.mem_singleton.mp hb]
      refine ⟨hpos,fun _ _ => ⟨rfl,rfl,_,rfl,?_⟩,fun h => (by cases h),fun _ _ => rfl,
        fun h => absurd h hnew⟩
      rw [hshare]
      exact computeNodeShare_bounds hpos pct
    · cases hb
  | closeRange v =>
    simp only [BondStmt.inserted] at hb
    split at hb
    next h =>
      rw [List.mem_singleton.mp hb]
      exact ⟨h.2.le,fun _ _ => ⟨rfl,rfl,0,rfl,le_rfl,h.2.le⟩,fun h => (by cases h),
        fun _ _ => rfl,fun h => absurd h hnew⟩
    · cases hb

theorem bondStmt_closes (st : BondStmt) :
    (st.exec s).1.closes = s.closes ∨ ∃ v, st = .closeRange v ∧
      (s.bonds.any fun b => b.id == v.parent.id && b.state == .locked) = true ∧
      (st.exec s).1.closes = v.parent.id :: s.closes := by
  cases st with
  | insertSliceSlash v =>
    simp only [BondStmt.exec]
    split <;> exact .inl rfl
  | closeRange v =>
    simp only [BondStmt.exec]
    split
    next h => exact .inr ⟨v,rfl,h,rfl⟩
    · exact .inl rfl
  | _ => exact .inl rfl

theorem recordInv_bondStmt {st : BondStmt} (hc : Consistent s) (hi : RecordInv s)
    (hn : st.need req Γ) (hΓ : ∀ f ∈ Γ, f.Lasts s ∧ KnowsRecord s f) :
    RecordInv (st.exec s).1 := by
  have hlt : ∀ p ∈ (st.exec s).1.closes, p < s.nextId := by
    rcases bondStmt_closes (s := s) st with h | ⟨v,rfl,hlocked,h⟩
    · rw [h]
      exact hi.closes_lt
    · rw [h]
      obtain ⟨q,hq,hqid,_⟩ := locked_parent hc hlocked
      exact List.forall_mem_cons.mpr ⟨hqid ▸ hc.bondIds_lt q hq,hi.closes_lt⟩
  refine ⟨fun b hb => ?_,fun p hp => lt_of_lt_of_le (hlt p hp) (bondStmt_nextId s st)⟩
  rw [bondStmt_bonds] at hb
  rcases List.mem_append.mp hb with hb | hb
  · obtain ⟨x,hx,rfl⟩ := List.mem_map.mp hb
    cases st with
    | run u =>
      simp only [BondStmt.rewrite]
      split
      next hsel => exact bondUpdate_record hc hi hn hΓ hx hsel
      · exact hi.row x hx
    | closeRange v =>
      simp only [BondStmt.rewrite,BondStmt.exec]
      split
      next hlocked => exact keepRow_record hc hi hx hlocked
      · exact hi.row x hx
    | insertSliceSlash v =>
      rcases bondStmt_closes (s := s) (.insertSliceSlash v) with h | ⟨_,h,_⟩
      · rw [h]
        exact hi.row x hx
      · cases h
    | create b => exact hi.row x hx
  · exact inserted_record hn hb fun h => lt_irrefl _ (hlt _ h)

theorem KnowsRecord.bondStmt {st : BondStmt} (hc : Consistent s) (hi : RecordInv s)
    (hn : st.need req Γ) (hΓ : ∀ f ∈ Γ, f.Lasts s ∧ KnowsRecord s f) {f : Fact} (hl : f.Lasts s)
    (hf : KnowsRecord s f) : KnowsRecord (st.exec s).1 f := by
  cases f with
  | bond b =>
    refine ⟨fun hp hm h hh => ?_,fun p hp r hr hid => ?_⟩
    · rw [State.holdState,State.hold?,bondStmt_rest _ s State.holds]
      exact hf.1 hp hm h hh
    · rw [bondStmt_bonds] at hr
      rcases List.mem_append.mp hr with hr | hr
      · obtain ⟨x,hx,rfl⟩ := List.mem_map.mp hr
        have hcore := (rewrite_becomes hc hn (fun f hf => (hΓ f hf).1) hx).1
        have hxid : x.id = b.id := hcore.id.symm.trans hid
        obtain ⟨_,y,hy,hbec⟩ := hl
        obtain rfl := hc.bond_unique hx hy (hxid.trans hbec.1.id.symm)
        have hset := (hi.row x hx).child p (hbec.1.parentBondId.trans hp)
        exact (rewrite_share hc hi hn hΓ hx hset).trans (hf.2 p hp x hx hxid)
      · exact absurd ((inserted_spec hn hr).1.symm.trans hid) (Nat.ne_of_gt hl.1)
  | _ => trivial

theorem KnowsRecord.of_bonds {s' : State} (hb : s'.bonds = s.bonds) (hh : HoldsProgress s s')
    {f : Fact} (hf : KnowsRecord s f) : KnowsRecord s' f := by
  cases f with
  | bond b =>
    exact ⟨fun hp hm h hx => hh.holdState (.inl rfl) (hf.1 hp hm h hx),
      fun p hp r hr => hf.2 p hp r (hb ▸ hr)⟩
  | _ => trivial

theorem RecordInv.of_bonds {s' : State} (hb : s'.bonds = s.bonds) (hcl : s'.closes = s.closes)
    (hlt : s.nextId ≤ s'.nextId) (hi : RecordInv s) : RecordInv s' := by
  refine ⟨fun b hbm => ?_,fun p hp => ?_⟩
  · rw [hcl]
    exact hi.row b (hb ▸ hbm)
  · exact lt_of_lt_of_le (hi.closes_lt p (hcl ▸ hp)) hlt

end

theorem records_invariant (ext : Externals) (D : Requirement) :
    StepInvariant ext D RecordInv (fun _ f s => KnowsRecord s f) where
  init s hs := by
    obtain ⟨now,height,rfl⟩ := hs
    exact ⟨fun b hb => absurd hb List.not_mem_nil,fun p hp => absurd hp List.not_mem_nil⟩
  launch cfg l s s' hc hi hl := by
    have hk := launch_rowsKept hl
    exact ⟨hi.of_bonds hk.bonds hk.closes hk.nextId,fun _ f _ hf => hf.of_bonds hk.bonds hk.holds⟩
  op l Γ op ch ls s hn hΓ hc hi hd he := by
    rcases he.rows with hk | ⟨st,rfl,hs⟩ | ⟨st,rfl,hs⟩
    · exact ⟨hi.of_bonds hk.bonds hk.closes hk.nextId,
        fun _ _ f _ hf => hf.of_bonds hk.bonds hk.holds⟩
    · have hb : (exec ext l.tid (.order st) ch s).1.bonds = s.bonds := hs ▸ orderStmt_bonds st
      refine ⟨hi.of_bonds hb (hs ▸ orderStmt_closes l.tid s st) he.nextId_le,
        fun _ _ f _ hf => hf.of_bonds hb he.holdsProgress⟩
    · rw [hs]
      exact ⟨recordInv_bondStmt hc hi hn hΓ,fun _ _ f hl hf => hf.bondStmt hc hi hn hΓ hl⟩
  learn l Γ op ch ls s f hn hΓ hc hi hd hc' hi' hf hseen := by
    cases f with
    | bond b =>
      have hrow := hi'.row b hseen
      refine ⟨fun hp hm h hh => ?_,fun p hp r hr hid => ?_⟩
      · obtain ⟨x,hx,_,_,hset,_⟩ := hc'.ownBond hseen hp
        rw [hh] at hx
        cases hx
        exact hset (hrow.marked hp hm)
      · rw [hc'.bond_unique hr hseen hid]
    | _ => trivial
  env e ls s s' hc hi hd he := by
    have hk := he.rowsKept
    exact ⟨hi.of_bonds hk.bonds hk.closes hk.nextId,
      fun _ _ f _ hf => hf.of_bonds hk.bonds hk.holds⟩

def HasShare (id : Uuid) (n : Int) (s : State) : Prop :=
  ∃ b ∈ s.bonds, b.id = id ∧ b.nodeShareSats = some n

theorem hasShare_effect {l : Label} {Γ : Set Fact} {op : Op} {s s' : State} {id : Uuid} {n : Int}
    (hc : Consistent s) (hi : RecordInv s) (hn : op.need l.req Γ)
    (hΓ : ∀ f ∈ Γ, f.Lasts s ∧ KnowsRecord s f) (he : Effect l.tid op s s')
    (h : HasShare id n s) : HasShare id n s' := by
  obtain ⟨b,hb,hid,hshare⟩ := h
  rcases he.rows with hk | ⟨st,rfl,rfl⟩ | ⟨st,rfl,rfl⟩
  · exact ⟨b,hk.bonds ▸ hb,hid,hshare⟩
  · exact ⟨b,(orderStmt_bonds st).symm ▸ hb,hid,hshare⟩
  · refine ⟨st.rewrite s b,?_,?_,?_⟩
    · rw [bondStmt_bonds]
      exact List.mem_append_left _ (List.mem_map_of_mem hb)
    · exact (rewrite_becomes hc hn (fun f hf => (hΓ f hf).1) hb).1.id.trans hid
    · rw [rewrite_share hc hi hn hΓ hb (by simp [hshare]),hshare]

/-- A captured bond row carries a complete slash record exactly when it is not the parent of a
range that was closed; and a node share, once set, never changes. -/
theorem captured_bond_recorded {cfg : Settings} {ext : Externals} (hext : ext.Documented)
    {c c' : DaemonState} (hc : (daemon cfg ext).Reach System.Demand.none State.Initial c)
    (hr : (daemon cfg ext).Run System.Demand.none c c') {b : Bond} (hb : b ∈ c.shared.bonds) :
    (b.state.isCaptured = true → (b.Recorded ↔ b.id ∉ c.shared.closes)) ∧
      ∀ n, b.nodeShareSats = some n → HasShare b.id n c'.shared := by
  have hinv := records_invariant ext System.Demand.none
  have hrow := (hinv.reach hext hc).2.row b hb
  refine ⟨fun hcap => ⟨fun hrec hclosed => ?_,hrow.recorded hcap⟩,fun n hn => ?_⟩
  · have hreason := hrec.1
    simp [(hrow.closed hclosed).2.2] at hreason
  · refine hinv.lasts hext (P := HasShare b.id n) (fun _ hbonds h => ?_) ?_ hc hr ⟨b,hb,rfl,hn⟩
    · obtain ⟨x,hx,h'⟩ := h
      exact ⟨x,hbonds ▸ hx,h'⟩
    · intro l Γ op ch ls s hn hΓ hc hi _ he h
      exact hasShare_effect hc hi hn hΓ he h

theorem slashed_slice_recorded :
    ∃ c c',
      (daemon (bondSettings .make 1000) plainExternals).Reach System.Demand.none State.Initial c
      ∧ (daemon (bondSettings .make 1000) plainExternals).Run System.Demand.none c c' ∧
      11 ∈ c'.shared.invoiceRequests ∧
      ∃ b ∈ c.shared.bonds, b.id = 11 ∧ b.Recorded ∧ HasShare b.id 0 c'.shared := by
  obtain ⟨c,c',hc,hr,⟨b,hb,hid,hcap,hopen,hshare⟩,hasked⟩ := run_of_schedules
    (bondSettings .make 1000) plainExternals System.Demand.none resolvedRange
    (alone 13 (.job .processBondPayouts) 7)
    (fun s => ∃ b ∈ s.bonds, b.id = 11 ∧ b.state.isCaptured = true ∧ b.id ∉ s.closes ∧
      b.nodeShareSats = some 0)
    (fun s => 11 ∈ s.invoiceRequests) (by decide +kernel)
  obtain ⟨hrec,hkept⟩ := captured_bond_recorded plainExternals_documented hc hr hb
  exact ⟨c,c',hc,hr,hasked,b,hb,hid,(hrec hcap).mpr hopen,hkept 0 hshare⟩

/-- The maker bond of a range of which one slice was slashed is closed as `slashed`, with no
reason, no time and no node share. -/
theorem closed_range_parent_unrecorded :
    ∃ cfg ext c, ext.Documented ∧ (daemon cfg ext).Reach System.Demand.none State.Initial c ∧
      ∃ b ∈ c.shared.bonds, b.state = .slashed ∧ b.slashedReason = none ∧ b.slashedAt = none ∧
        b.nodeShareSats = none := by
  obtain ⟨c,hc,hb⟩ := reach_of_schedule (bondSettings .make 1000) plainExternals
    System.Demand.none resolvedRange
    (fun s => ∃ b ∈ s.bonds, b.state = .slashed ∧ b.slashedReason = none ∧ b.slashedAt = none ∧
      b.nodeShareSats = none) (by decide +kernel)
  exact ⟨_,_,c,plainExternals_documented,hc,hb⟩

end Mostro
