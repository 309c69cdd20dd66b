import Mostro.TimeoutSlash

set_option autoImplicit false

/-!
Orders that go back into the book.  A taker's Cancel, the timeout job and a dropped bond return an
order to pending.  Where the bonds involved are released when they are asked to be, no taker bond of
the order is locked at that moment, so a later take is not refused for it.
-/

namespace Mostro

open Interleaving SqlTable

variable {id : Uuid} {tid : Nat} {sender : Pubkey}

def State.Uncommitted (s : State) (id : Uuid) : Prop :=
  ∀ b ∈ s.bonds, b.orderId = id → b.role = .taker → b.state ≠ .locked

theorem uncommitted_iff {s : State} : s.Uncommitted id ↔
    tradeCommittedByLockedTakerBond (Query.run s (.findActiveBondsForOrder id)) = false := by
  simp only [State.Uncommitted,tradeCommittedByLockedTakerBond,List.any_eq_false,Query.run]
  constructor
  · intro h b hb hcommit
    simp only [mem_byCreatedAt,List.mem_filter,Bool.and_eq_true,beq_iff_eq] at hb hcommit
    exact h b hb.1 hb.2.1 hcommit.2 hcommit.1
  · intro h b hb hid hrole hst
    refine h b ?_ (by simp [hst,hrole])
    simp [mem_byCreatedAt,hb,hid,hst,BondState.isActive]

/-- An order that has been published and is not in the book. -/
def Status.isTaken (st : Status) : Bool := st != .pending && st != .waitingMakerBond

def Takeable (op : Op) (s : State) : Prop :=
  ∀ u, op = .order (.run u) → ∀ r ∈ s.orders, u.selects s r = true →
    r.order.status.isTaken = true → (u.set r).order.status = .pending → s.Uncommitted r.order.id

/-- The order that a statement of the task may return to pending, as the task knows it. -/
def Op.republishes (req : Request) : Op → Option Uuid
  | .order (.run (.update read row)) =>
      if req.isTimeoutJob && row.status == .pending then some read.id else none
  | .order (.run (.updateOrderToInitialState read _ _ _)) => some read.id
  | _ => none

def Op.isCurrent (s : State) : Op → Bool
  | .order (.run (.update read row)) => row.status != .pending ||
      s.orders.all fun r => r.order.id != row.id || r.order.status == read.status
  | _ => true

theorem takeable_of_not {op : Op} {s : State} (h : op.isOrder = false) : Takeable op s := by
  rintro u rfl
  cases h

theorem republishes_of_not {op : Op} {req : Request} (h : op.isOrder = false) :
    op.republishes req = none := by
  cases op <;> first | rfl | cases h

theorem takeable_of_none {l : Label} {op : Op} {ls : List Label} {s : State}
    (hk : Knowing l op ls s) (hcur : op.isCurrent s = true) (h : op.republishes l.req = none) :
    Takeable op s := by
  rintro u rfl r hr hsel htaken hset
  obtain ⟨Γ,hn,_⟩ := hk.need
  have hn : u.need l.req Γ := hn
  have hnot : r.order.status ≠ .pending := by
    rintro heq
    simp [Status.isTaken,heq] at htaken
  cases u with
  | update read row =>
    have hset : row.status = .pending := hset
    simp only [Op.republishes,hset,beq_self_eq_true,Bool.and_true] at h
    have hjob : l.req.isTimeoutJob = false := by
      cases hjob : l.req.isTimeoutJob <;> simp [hjob] at h ⊢
    have hread : read.status = .pending :=
      (RowWrite.pending hn hset).resolve_right (by simp [hjob])
    simp only [Op.isCurrent,hset,bne_self_eq_false,Bool.false_or,List.all_eq_true] at hcur
    have := hcur r hr
    simp only [orderUpdate_id hsel,OrderUpdate.target,bne_self_eq_false,Bool.false_or,
      beq_iff_eq] at this
    exact absurd (this.trans hread) hnot
  | updateOrderToInitialState read a f d => cases h
  | dropWaitingTakerBondToPending id =>
    intro b hb hid hrole hst
    have hid' : r.order.id = id := orderUpdate_id hsel
    simp only [OrderUpdate.selects,OrderUpdate.guard,Bool.and_eq_true,Bool.not_eq_true',
      List.any_eq_false] at hsel
    exact hsel.2.2 b hb (by simp [hid,hid',hst,hrole,BondState.isActive])
  | claimDeferredPublication id =>
    simp only [OrderUpdate.selects,OrderUpdate.guard,Bool.and_eq_true,beq_iff_eq] at hsel
    simp [Status.isTaken,hsel.2] at htaken
  | casPretradeOrderStatus id new =>
    have hset : new = .pending := hset
    rcases hn with h | ⟨h,_⟩ <;> cases hset.symm.trans h
  | casCompletePretradeTake o allow =>
    have hset : o.status = .pending := hset
    rcases hn.1 with h | h <;> cases hset.symm.trans h
  | updateOrderCashuEscrow id mint token t expected new =>
    have hset : new = .pending := hset
    cases hset.symm.trans hn.2.1
  | claimOrderStatus id expected new =>
    have hset : new = .pending := hset
    cases hset.symm.trans hn.2
  | editPubkeysOrder id kind =>
    cases kind <;> exact absurd hset hnot
  | casPromoteTakerContext o =>
    simp only [OrderUpdate.set] at hset
    split at hset <;> exact absurd hset hnot
  | claimWaitingTakerBond id => cases hset
  | settleFromRelease id => cases hset
  | settleFromAdmin id => cases hset
  | paymentSuccess id => cases hset
  | _ => exact absurd hset hnot

theorem takeable_of_uncommitted {l : Label} {op : Op} {ls : List Label} {s : State}
    (hk : Knowing l op ls s) (h : op.republishes l.req = some id) (hs : s.Uncommitted id) :
    Takeable op s := by
  rintro u rfl r hr hsel _ _
  obtain ⟨Γ,hn,_⟩ := hk.need
  have hn : u.need l.req Γ := hn
  have hid : u.target = id := by
    cases u with
    | update read row =>
      simp only [Op.republishes] at h
      split at h
      · cases h
        exact RowWrite.id hn
      · cases h
    | updateOrderToInitialState read a f d =>
      cases h
      rfl
    | _ => cases h
  rw [orderUpdate_id hsel,hid]
  exact hs

theorem republishes_none {l : Label} {op : Op} {ls : List Label} {s : State}
    (hk : Knowing l op ls s) (hreq : l.req.undoesTakes = false) :
    op.republishes l.req = none := by
  obtain ⟨Γ,hn,_⟩ := hk.need
  have hjob : l.req.isTimeoutJob = false := (Bool.or_eq_false_iff.mp hreq).2
  unfold Op.republishes
  split
  · simp [hjob]
  · exact nomatch hreq.symm.trans hn.2.2.1
  · rfl

/-- A release or slash the task asks for is carried out, and a taker who cancels has one bond
outstanding on the order. -/
def Op.releaseLands (ch : Choice) (s : State) : Op → Bool
  | .lnd .connect | .bond _ | .query (.findActiveBondsForOrder _) => ch != .fault
  | .query (.findActiveBondByTaker id pubkey) => decide ((s.bonds.filter fun b =>
      b.orderId == id && b.pubkey == pubkey && b.state.isActive).length ≤ 1)
  | .lnd (.cancelHoldInvoice h) => !(s.bonds.any fun b => b.hash == some h) || (ch == .ok
      && [some HoldState.opened,some .accepted,some .canceled].contains (s.holdState h))
  | op => op.slashLands ch s

/-- While a Cancel or the timeout job runs, no other task writes to an order it has read, to that
order's parent or to their bonds; the releases and slashes it asks for are carried out; and no row
is written as pending from an outdated copy. -/
abbrev releasesLand : Requirement := .check (fun l op ch ls s =>
  (ls.all fun l' => !l'.req.undoesTakes || l'.tid == l.tid || op.leaves l'.tid s)
    && (op.isCurrent s && (!l.req.undoesTakes || op.releaseLands ch s))) fun _ _ _ => true

section

variable {l : Label} {op : Op} {ch : Choice} {ls : List Label} {s : State}

theorem releasesLand_current (hd : releasesLand.onOp l op ch ls s) : op.isCurrent s = true :=
  (Bool.and_eq_true_iff.mp (Bool.and_eq_true_iff.mp hd).2).1

theorem releasesLand_lands (hl : l.req.undoesTakes = true) (hd : releasesLand.onOp l op ch ls s) :
    op.releaseLands ch s = true := by
  have := (Bool.and_eq_true_iff.mp (Bool.and_eq_true_iff.mp hd).2).2
  simpa [hl] using this

theorem releaseLands_slash (h : op.releaseLands ch s = true) : op.slashLands ch s = true := by
  unfold Op.releaseLands at h
  split at h
  · rfl
  · unfold Op.slashLands
    split
    · rename_i heq
      cases heq
    · exact h
    · rfl
  · rfl
  · rfl
  · rfl
  · exact h

end

abbrev undoContract : Contract State Label Op :=
  watchingOrders (fun l => l.req.undoesTakes = true) fun l op s =>
    ∀ ch ls, releasesLand.onOp l op ch ls s → Takeable op s

abbrev UndoSat (cfg : Settings) (ext : Externals) (l : Label) {α : Type} (p : M α)
    (Q : Except MostroError α → State → Prop) (s : State) : Prop :=
  (daemon cfg ext).Sat releasesLand undoContract l p Q s

theorem undoContract_call (l : Label) (op : Op) (s : State) (h : op.isOrder = false) :
    undoContract.Pre l op s := fun _ _ _ => takeable_of_not h

theorem undoContract_retains (l : Label) (op : Op) (s : State) (h : op.retains = true) :
    undoContract.Pre l op s :=
  undoContract_call l op s (by cases op <;> first | rfl | cases h)

theorem undoContract_isCall (l : Label) (op : Op) (s : State) (h : op.isCall = true) :
    undoContract.Pre l op s := undoContract_retains l op s (retains_of_isCall h)

/-- The locked bonds of the order whose owner and role satisfy `W` are among the listed ones, which
were active when they were read. -/
structure StillLocked (tid : Nat) (o : Order) (W : Pubkey → BondRole → Bool) (bonds : List Bond)
    (s : State) : Prop where
  read : ReadBy tid o s
  rows : ∀ b ∈ bonds, b.state.isActive = true ∧ ∃ x ∈ s.bonds, x.orderId = o.id ∧ x.hash = b.hash
  among : ∀ x ∈ s.bonds, x.orderId = o.id → W x.pubkey x.role = true → x.state = .locked →
    ∃ b ∈ bonds, b.id = x.id ∧ W b.pubkey b.role = true

abbrev isTaker : Pubkey → BondRole → Bool := fun _ role => role == .taker

section

variable {l : Label} {o : Order} {W : Pubkey → BondRole → Bool} {bonds rest : List Bond} {b : Bond}
variable {s s' : State}

theorem StillLocked.uncommitted (h : StillLocked tid o isTaker [] s) : s.Uncommitted o.id := by
  intro b hb hid hrole hst
  obtain ⟨x,hx,_⟩ := h.among b hb hid (by simp [hrole]) hst
  cases hx

theorem StillLocked.kept (hk : Undisturbed tid s s') (h : StillLocked tid o W bonds s) :
    StillLocked tid o W bonds s' := by
  have hmem {x : Bond} (hid : x.orderId = o.id) := hk.mem_bonds (b := x) h.read.watches (.inl hid)
  refine ⟨h.read.mono hk.hands,fun b hb => ?_,fun x hx hid => h.among x ((hmem hid).mp hx) hid⟩
  obtain ⟨hact,x,hx,hid,hhash⟩ := h.rows b hb
  exact ⟨hact,x,(hmem hid).mpr hx,hid,hhash⟩

def Op.locks : Op → Bool
  | .bond (.run u) => u.locks
  | _ => false

theorem StillLocked.own (ext : Externals) (ch : Choice) {op : Op} {ls : List Label}
    (hk : Knowing l op ls s) (hop : op.locks = false) (hf : op.fetches = false)
    (h : StillLocked l.tid o W bonds s) :
    StillLocked l.tid o W bonds (exec ext l.tid op ch s).1 := by
  have he := exec_effect ext l.tid op ch s
  have hprog := hk.bondsProgress he
  refine ⟨h.read.mono fun _ hx => he.inHand hf ▸ hx,fun b hb => ?_,fun x hx hid hW hst => ?_⟩
  · obtain ⟨hact,x,hx,hid,hhash⟩ := h.rows b hb
    obtain ⟨y,hy,hcore,_⟩ := hprog x hx
    exact ⟨hact,y,hy,hcore.orderId.trans hid,hcore.hash.trans hhash⟩
  · have horigin : ∃ y ∈ s.bonds, y.SameCore x ∧ y.state = .locked := by
      rcases he.rows with hrows | ⟨st,rfl,hs'⟩ | ⟨st,rfl,hs'⟩
      · exact ⟨x,hrows.bonds ▸ hx,.rfl,hst⟩
      · rw [hs',orderStmt_bonds] at hx
        exact ⟨x,hx,.rfl,hst⟩
      · obtain ⟨Γ,hn,hΓ⟩ := hk.need
        rw [hs'] at hx
        obtain ⟨y,hy,hcore,hlocked⟩ := locked_origin hk.consistent hn hΓ hx hst
        refine ⟨y,hy,hcore,hlocked.resolve_right ?_⟩
        rintro ⟨u,rfl,hu,_⟩
        exact nomatch hop.symm.trans hu
    obtain ⟨y,hy,hcore,hst⟩ := horigin
    rw [hcore.orderId] at hid
    rw [hcore.pubkey,hcore.role] at hW
    rw [hcore.id]
    exact h.among y hy hid hW hst

theorem StillLocked.skip (hb : W b.pubkey b.role = false ∨ s.Unlocked o.id b.id)
    (h : StillLocked tid o W (b :: rest) s) : StillLocked tid o W rest s := by
  refine ⟨h.read,fun c hc => h.rows c (List.mem_cons_of_mem _ hc),fun x hx hid hW hst => ?_⟩
  obtain ⟨c,hc,hcid,hcW⟩ := h.among x hx hid hW hst
  rcases List.mem_cons.mp hc with rfl | hc
  · rcases hb with hb | hb
    · exact nomatch hb.symm.trans hcW
    · exact absurd hst (hb x hx hid hcid.symm)
  · exact ⟨c,hc,hcid,hcW⟩

theorem release_unlocks {t : Option Int} {order : Uuid} :
    State.Unlocked ((BondStmt.run (.update b { b with state := .released, releasedAt := t })).exec
      s).1 order b.id := by
  intro x hx _ hid
  obtain ⟨q,hq,rfl⟩ := mem_updateWhere.mp hx
  split
  · nofun
  next hsel =>
    rw [if_neg hsel] at hid
    simp [BondUpdate.selects,BondUpdate.target,BondUpdate.guard,hid] at hsel

end

section

variable {cfg : Settings} {ext : Externals} {l : Label} {o : Order} {W : Pubkey → BondRole → Bool}
variable {bonds rest : List Bond} {b : Bond} {s : State}

theorem exec_cancel_ok {h : Hash}
    (hs : [some HoldState.opened,some .accepted,some .canceled].contains (s.holdState h) = true) :
    (exec ext tid (.lnd (.cancelHoldInvoice h)) .ok s).2 = .ok () := by
  simp only [List.contains_cons,List.contains_nil,Bool.or_false,Bool.or_eq_true,beq_iff_eq] at hs
  rcases hs with hs | hs | hs <;> simp [exec,LndCall.exec,cancelHold,hs]

theorem markReleased_lands (hl : l.req.undoesTakes = true)
    (hs : StillLocked l.tid o W (b :: rest) s) :
    UndoSat cfg ext l (markReleased b)
      (fun _ s => StillLocked l.tid o W rest s) s := by
  refine sat_ask_bind (T := StillLocked l.tid o W (b :: rest)) hs (fun _ _ hk h => h.kept hk)
    fun s ls hs hk => ⟨undoContract_call _ _ _ rfl,fun ch _ =>
    ⟨fun now _ => ?_,fun e he => nomatch he⟩⟩
  refine sat_ask_bind (T := StillLocked l.tid o W (b :: rest)) hs (fun _ _ hk h => h.kept hk)
    fun s ls hs hk => ⟨undoContract_call _ _ _ rfl,fun ch hd => ?_⟩
  have hne : ch ≠ .fault := by
    simpa [Op.releaseLands] using releasesLand_lands hl hd
  have hafter := hs.own ext ch hk rfl rfl
  have hdone : StillLocked l.tid o W rest (exec ext l.tid (.bond (.run (.update b
      { b with state := .released, releasedAt := some now }))) ch s).1 := by
    refine hafter.skip (.inr ?_)
    simp only [exec,orFault,if_neg hne]
    exact release_unlocks
  exact ⟨fun _ _ => hdone,fun _ _ => hdone⟩

theorem releaseBond_lands (hl : l.req.undoesTakes = true)
    (hs : StillLocked l.tid o W (b :: rest) s) :
    UndoSat cfg ext l (releaseBond b)
      (fun _ s => StillLocked l.tid o W rest s) s := by
  have hnot : ¬ b.state.isTerminal = true := by
    have hact := (hs.rows b List.mem_cons_self).1
    cases hst : b.state <;> simp [hst,BondState.isActive,BondState.isTerminal] at hact ⊢
  rw [releaseBond,if_neg hnot]
  split
  · exact markReleased_lands hl hs
  next hash hhash =>
    refine sat_bind_assoc (sat_ask_bind (T := StillLocked l.tid o W (b :: rest)) hs
      (fun _ _ hk h => h.kept hk) fun s ls hs hk =>
        ⟨undoContract_call _ _ _ rfl,fun ch hd => ⟨fun _ _ => ?_,fun e he => ?_⟩⟩)
    · refine sat_bind_assoc (sat_ask_attempt_bind (T := StillLocked l.tid o W (b :: rest)) hs
        (fun _ _ hk h => h.kept hk) fun s ls hs hk =>
          ⟨undoContract_call _ _ _ rfl,fun ch hd => ?_⟩)
      obtain ⟨_,x,hx,_,hxh⟩ := hs.rows b List.mem_cons_self
      have hbond : (s.bonds.any fun b => b.hash == some hash) = true :=
        List.any_eq_true.mpr ⟨x,hx,by simp [hxh,hhash]⟩
      have hlands := releasesLand_lands hl hd
      simp only [Op.releaseLands,hbond,Bool.not_true,Bool.false_or,Bool.and_eq_true,
        beq_iff_eq] at hlands
      obtain ⟨rfl,hstate⟩ := hlands
      rw [exec_cancel_ok hstate]
      exact markReleased_lands hl (hs.own ext .ok hk rfl rfl)
    · have hne : ch ≠ .fault := by
        simpa [Op.releaseLands] using releasesLand_lands hl hd
      simp [exec,LndCall.exec,hne] at he

theorem activeBonds_stillLocked {ch : Choice} {ls : List Label}
    (hk : Knowing l (.query (.findActiveBondsForOrder o.id)) ls s) (hread : ReadBy l.tid o s)
    (hres : (exec ext l.tid (.query (.findActiveBondsForOrder o.id)) ch s).2 = .ok bonds) :
    StillLocked l.tid o W bonds
      (exec ext l.tid (.query (.findActiveBondsForOrder o.id)) ch s).1 := by
  have hmem := (activeBonds_read hk hres).1
  refine StillLocked.own ext ch hk rfl rfl ⟨hread,fun b hb => ?_,fun x hx hid hW hst => ?_⟩
  · obtain ⟨hb,hid,hact⟩ := (hmem b).mp hb
    exact ⟨hact,b,hb,hid,rfl⟩
  · exact ⟨x,(hmem x).mpr ⟨hx,hid,locked_isActive hst⟩,rfl,hW⟩

theorem releaseActiveBonds_lands (hl : l.req.undoesTakes = true) (retainMakers : Bool)
    (hread : ReadBy l.tid o s) :
    UndoSat cfg ext l (releaseActiveBonds o.id retainMakers)
      (fun _ s => StillLocked l.tid o isTaker [] s) s := by
  refine sat_ask_bind (T := ReadBy l.tid o) hread (fun _ _ hk h => h.mono hk.hands)
    fun s ls hread hk =>
    ⟨undoContract_call _ _ _ rfl,fun ch hd => ⟨fun bonds hres => ?_,fun e he => ?_⟩⟩
  · refine System.Sat.mono (System.Sat.forEach_rest (I := fun rest s =>
      StillLocked l.tid o isTaker rest s) (activeBonds_stillLocked hk hread hres)
      fun b rest s hs => ?_) fun _ _ h => h.2
    split
    next hskip =>
      refine ⟨rfl,hs.skip (.inl ?_)⟩
      simp [beq_iff_eq.mp (Bool.and_eq_true_iff.mp hskip).2]
    · exact ((releaseBond_lands hl hs).mono fun _ _ h => ⟨rfl,h⟩).ignore
  · have hne : ch ≠ .fault := by
      simpa [Op.releaseLands] using releasesLand_lands hl hd
    simp [exec,orFault,hne] at he

/-! ### The timeout job -/

theorem quiet_sat {α : Type} {p : M α} (hp : p.Only fun op => op.republishes l.req = none) :
    UndoSat cfg ext l p (fun _ _ => True) s :=
  System.Sat.of_only hp trivial (fun _ _ _ _ => trivial) fun _ _ _ hop _ hk =>
    ⟨fun _ _ hd => takeable_of_none hk (releasesLand_current hd) hop,fun _ _ => trivial⟩

theorem stillLocked_lasting : Lasting ext l (StillLocked l.tid o W bonds) where
  kept _ _ hk h := h.kept hk
  own op ch ls s hop hk h := by
    refine h.own ext ch hk ?_ ?_
    all_goals
      unfold Op.recordsSlash at hop
      split at hop <;> first | rfl | cases hop

theorem releaseOnTimeout_lands (hl : l.req.undoesTakes = true) (republishes : Bool)
    (hread : ReadBy l.tid o s) :
    UndoSat cfg ext l (releaseOnTimeout o.id republishes)
      (fun _ s => StillLocked l.tid o isTaker [] s) s := by
  unfold releaseOnTimeout
  split <;> exact (releaseActiveBonds_lands hl _ hread).ignore

theorem republishes_taker {side : Side} (h : orderRepublishesOnTimeout o = true)
    (hside : responsibleSide o.status = some side) : sideIsMaker o side = false := by
  unfold orderRepublishesOnTimeout at h
  split at h
  next hst hkind =>
    rw [hst] at hside
    cases hside
    simp [sideIsMaker,hkind]
  next hst hkind =>
    rw [hst] at hside
    cases hside
    simp [sideIsMaker,hkind]
  · cases h

theorem releaseOthers_lands (hl : l.req.undoesTakes = true) {side : Side} {isRange keep : Bool}
    (hmaker : sideIsMaker o side = false) (hslashed : Slashed l.tid o side isRange b s)
    (hs : StillLocked l.tid o isTaker bonds s) :
    UndoSat cfg ext l
      (Prog.forEach bonds fun bond =>
        if bond.id == b.id || (bond.role == .maker && keep) then pure ()
        else (releaseBond bond).ignore)
      (fun r s => r = .ok () ∧ StillLocked l.tid o isTaker [] s) s := by
  refine System.Sat.mono (System.Sat.forEach_rest (I := fun rest s =>
    Slashed l.tid o side isRange b s ∧ StillLocked l.tid o isTaker rest s) ⟨hslashed,hs⟩
    fun bond rest s hs => ?_) fun _ _ h => ⟨h.1,h.2.2⟩
  obtain ⟨hslashed,hs⟩ := hs
  split
  next hskip =>
    refine ⟨rfl,hslashed,?_⟩
    rcases Bool.or_eq_true_iff.mp hskip with hid | hrole
    · refine hs.skip (.inr ?_)
      rw [beq_iff_eq.mp hid]
      exact hslashed.unlocked (by simp [hmaker])
    · exact hs.skip (.inl (by simp [beq_iff_eq.mp (Bool.and_eq_true_iff.mp hrole).1]))
  next hother =>
    have hne : bond.id ≠ b.id := fun h => hother (by simp [h])
    refine System.Sat.ignore (System.Sat.mono (System.Sat.and (releases_sat
      (undoContract_isCall l) (X := fun x => x.id ≠ b.id) (T := Slashed l.tid o side isRange b)
      (fun _ _ _ _ _ _ _ => undoContract_call _ _ _ rfl)
      (releaseBond_only (releases_bond hne)) hslashed (fun _ _ hk h => h.kept hk)
      fun _ _ hk h => h.releasing (fun _ h => h) hk)
      (releaseBond_lands hl hs)) fun _ _ h => ⟨rfl,h⟩)

theorem offOrders_quiet {α : Type} {p : M α} (hp : p.Only fun op => op.isOrder = false) :
    UndoSat cfg ext l p (fun _ _ => True) s :=
  quiet_sat (hp.mono fun _ h => republishes_of_not h)

theorem slashOrReleaseOnTimeout_clears (hl : l.req.undoesTakes = true)
    (hs : Tracked l.tid o s) :
    UndoSat cfg ext l (slashOrReleaseOnTimeout cfg o)
      (fun r s => r = .ok () → orderRepublishesOnTimeout o = true →
        StillLocked l.tid o isTaker [] s) s := by
  have hrelease (republishes : Bool) {s : State} (hs : Tracked l.tid o s) :
      UndoSat cfg ext l (releaseOnTimeout o.id republishes)
        (fun r s => r = .ok () → orderRepublishesOnTimeout o = true →
          StillLocked l.tid o isTaker [] s) s :=
    (releaseOnTimeout_lands hl _ hs.read).mono fun _ _ h _ _ => h
  unfold slashOrReleaseOnTimeout
  split
  · exact hrelease false hs
  next side hside =>
    dsimp only
    split
    · exact hrelease _ hs
    · refine sat_ask_bind (T := Tracked l.tid o) hs (fun _ _ hk h => h.kept hk)
        fun s ls hs hk => ⟨undoContract_call _ _ _ rfl,fun ch _ =>
          ⟨fun bonds hres => ?_,fun e he h => nomatch h⟩⟩
      obtain ⟨hactive,hpre⟩ := activeBonds_read hk hres
      have hown : Undisturbed l.tid s
          (exec ext l.tid (.query (.findActiveBondsForOrder o.id)) ch s).1 :=
        exec_undisturbed ext l.tid ch s rfl
      refine survey_sat (T := StillLocked l.tid o isTaker bonds) (undoContract_isCall l)
        (activeBonds_stillLocked hk hs.read hres) (fun _ _ hk h => h.kept hk) (hs.kept hown)
        (active_kept hown hs.read.watches hactive) hpre (fun _ _ h => nomatch h)
        fun isRange target s hleft hs _ hsome => ?_
      cases target with
      | none => exact hrelease _ hs.toTracked
      | some b =>
        refine System.Sat.bind ((slashSide_lands (undoContract_retains l)
          (fun _ _ _ _ hd => releaseLands_slash (releasesLand_lands hl hd)) stillLocked_lasting
          hleft hs (hsome b rfl)).mono fun r s h => ?_)
        cases r with
        | error e => exact fun h => nomatch h
        | ok slashed =>
          by_cases hrep : orderRepublishesOnTimeout o = true
          · exact (releaseOthers_lands hl (republishes_taker hrep hside) (h slashed rfl).2
              (h slashed rfl).1).mono fun _ _ h _ _ => h.2
          · refine System.Sat.mono (offOrders_quiet (Prog.Only.forEach fun bond => ?_))
              fun _ _ _ _ h => absurd h hrep
            split
            · trivial
            · exact (releaseBond_only (offOrders_closes.bond bond)).ignore

def RewritesOnly (l : Label) (o : Order) (op : Op) : Prop :=
  op = .query (.orderById o.id) ∨
    op.fetches = false ∧ op.locks = false ∧ ∀ id ∈ op.republishes l.req, id = o.id

theorem rewrite_sat {α : Type} {p : M α} (hp : p.Only (RewritesOnly l o))
    (hs : StillLocked l.tid o isTaker [] s) :
    UndoSat cfg ext l p (fun _ _ => True) s := by
  refine System.Sat.mono (System.Sat.of_only (T := StillLocked l.tid o isTaker []) hp hs
    (fun _ _ h hk => h.kept hk) fun op ls s hop hs hk =>
      ⟨fun ch ls hd => ?_,fun ch _ => ?_⟩) fun _ _ _ => trivial
  rotate_left
  · rcases hop with rfl | hop
    · exact hs.kept (fetch_undisturbed ext ch hs.read.watches)
    · exact hs.own ext ch hk hop.2.1 hop.1
  cases hrep : op.republishes l.req with
  | none => exact takeable_of_none hk (releasesLand_current hd) hrep
  | some id =>
    refine takeable_of_uncommitted hk hrep ?_
    rcases hop with rfl | hop
    · cases hrep
    rw [hop.2.2 id hrep]
    exact hs.uncommitted

theorem republishOnTimeout_quiet (hs : StillLocked l.tid o isTaker [] s) :
    UndoSat cfg ext l (republishOnTimeout o)
    (fun _ _ => True) s := by
  have hreset : ∀ a f d, RewritesOnly l o (.order (.run (.updateOrderToInitialState o a f d))) := by
    refine fun a f d => .inr ⟨rfl,rfl,fun id hid => ?_⟩
    cases hid
    rfl
  refine rewrite_sat ((ask_only (hreset _ _ _)).attempt.bind fun reset => ?_) hs
  refine (editPubkeysOrder_only (.inl (by cases reset <;> rfl)) (.inr ⟨rfl,rfl,nofun⟩)).bind
    fun edited => ?_
  refine (updateOrderEvent_only (.inr ⟨rfl,rfl,nofun⟩)).bind fun updated =>
    updateOrder_only (.inr ⟨rfl,rfl,fun id hid => ?_⟩)
  simp only [Op.republishes] at hid
  split at hid
  · cases hid
    cases reset <;> rfl
  · cases hid

theorem cancelOnTimeout_quiet :
    UndoSat cfg ext l (cancelOnTimeout o) (fun _ _ => True) s := by
  refine quiet_sat ((editPubkeysOrder_only
    (P := fun op => op.republishes l.req = none) rfl rfl).bind fun edited => ?_)
  refine updateOrderEvent_bind_only rfl (Prog.Only.bind (updateOrder_only ?_) fun _ =>
    (resolveRangeMakerBondAtCloseOrWarn_only offOrders_closes o).mono fun _ h =>
    republishes_of_not h)
  simp [Op.republishes]

theorem cancelLateOrder_clears (hl : l.req.undoesTakes = true) :
    UndoSat cfg ext l (cancelLateOrder cfg id)
      (fun _ _ => True) s := by
  refine System.Sat.bind ((reconfirm_tracked (undoContract_isCall l)).mono fun r s hs => ?_)
  rcases r with e | _ | o
  · trivial
  · trivial
  · refine System.Sat.bind ((calls_sat (T := Tracked l.tid o) (undoContract_isCall l)
      (cancelEscrow_only (fun _ => rfl) o) (hs o rfl) fun _ _ hk h => h.kept hk).mono
        fun r s hs => ?_)
    cases r with
    | error e => trivial
    | ok _ =>
      refine System.Sat.bind ((slashOrReleaseOnTimeout_clears hl hs.reset).mono fun r s hs => ?_)
      cases r with
      | error e => trivial
      | ok _ =>
        dsimp only
        split
        next hrep => exact republishOnTimeout_quiet (hs rfl hrep)
        · exact cancelOnTimeout_quiet

theorem jobCancelOrders_clears (hl : l.req.undoesTakes = true) :
    UndoSat cfg ext l (jobCancelOrders cfg) (fun _ _ => True) s := by
  refine System.Sat.bind ((offOrders_quiet (ask_only rfl)).mono fun r s _ => ?_)
  cases r with
  | error e => trivial
  | ok now =>
    refine System.Sat.bind ((offOrders_quiet (ask_only rfl)).mono fun r s _ => ?_)
    cases r with
    | error e => trivial
    | ok late =>
      exact System.Sat.forEach trivial fun order _ s _ => (cancelLateOrder_clears hl).ignore

/-! ### Cancel -/

abbrev isOf (sender : Pubkey) : Pubkey → BondRole → Bool := fun key _ => key == sender

theorem takerBond_stillLocked (hl : l.req.undoesTakes = true) {ch : Choice} {ls : List Label}
    {found : Option Bond} (hread : ReadBy l.tid o s)
    (hk : Knowing l (.query (.findActiveBondByTaker o.id sender)) ls s)
    (hd : releasesLand.onOp l (.query (.findActiveBondByTaker o.id sender)) ch ls s)
    (hres : (exec ext l.tid (.query (.findActiveBondByTaker o.id sender)) ch s).2 = .ok found) :
    StillLocked l.tid o (isOf sender) found.toList
      (exec ext l.tid (.query (.findActiveBondByTaker o.id sender)) ch s).1 := by
  have hfound := (exec_query_ok hres).2
  have hone := releasesLand_lands hl hd
  simp only [Op.releaseLands,decide_eq_true_eq] at hone
  refine StillLocked.own ext ch hk rfl rfl ⟨hread,fun b hb => ?_,fun x hx hid hW hst => ?_⟩
  · rw [Option.mem_toList] at hb
    have hmem := List.mem_of_mem_head? (hfound.trans hb)
    simp only [mem_byCreatedAt,List.mem_filter,Bool.and_eq_true,beq_iff_eq] at hmem
    exact ⟨hmem.2.1.2,b,hmem.1,hmem.2.1.1.1,rfl⟩
  · have hsame {a c : Bond} {xs : List Bond} (hxs : xs.length ≤ 1) (ha : a ∈ xs) (hc : c ∈ xs) :
        a = c := by
      obtain ⟨i,hi,rfl⟩ := List.getElem_of_mem ha
      obtain ⟨j,hj,rfl⟩ := List.getElem_of_mem hc
      obtain rfl : i = j := by omega
      rfl
    have hkey : x.pubkey = sender := beq_iff_eq.mp hW
    have hown := hk.consistent.locked_own hx hst
    have hmem : x ∈ byCreatedAt (s.bonds.filter fun b => b.orderId == o.id && b.pubkey == sender
        && b.state.isActive && b.parentBondId.isNone) := by
      simp [mem_byCreatedAt,hx,hid,hkey,hst,hown,BondState.isActive]
    cases hb : found with
    | none =>
      rw [hb] at hfound
      rw [List.head?_eq_none_iff.mp hfound] at hmem
      cases hmem
    | some b =>
      rw [hb] at hfound
      have hbmem := List.mem_of_mem_head? hfound
      simp only [mem_byCreatedAt,List.mem_filter,Bool.and_eq_true,beq_iff_eq] at hbmem
      obtain rfl : x = b := hsame hone
        (List.mem_filter.mpr ⟨hx,by simp [hid,hkey,hst,BondState.isActive]⟩)
        (List.mem_filter.mpr ⟨hbmem.1,by simp [hbmem.2.1]⟩)
      exact ⟨x,by simp,rfl,hW⟩

theorem cancelOrderByTakerInner_quiet (hs : StillLocked l.tid o isTaker [] s) :
    UndoSat cfg ext l (cancelOrderByTakerInner o)
      (fun _ _ => True) s := by
  have hid : o.resetApiQuotes.id = o.id := by
    unfold Order.resetApiQuotes
    split <;> rfl
  refine rewrite_sat (Prog.Only.bind (cancelEscrow_only (fun _ => .inr ⟨rfl,rfl,nofun⟩) o) fun _ =>
    ?_) hs
  refine Prog.Only.bind (ask_only (.inr ⟨rfl,rfl,fun id h => ?_⟩)) fun _ => ?_
  · cases h
    exact hid
  · refine (editPubkeysOrder_only (.inl (by rw [hid])) (.inr ⟨rfl,rfl,nofun⟩)).bind fun edited => ?_
    exact (updateOrderEvent_only (.inr ⟨rfl,rfl,nofun⟩)).bind fun _ => trivial

theorem cancelOrderByTaker_clears (hl : l.req.undoesTakes = true) (hread : ReadBy l.tid o s) :
    UndoSat cfg ext l (cancelOrderByTaker o sender)
      (fun _ _ => True) s := by
  have hrest {s : State} (hs : StillLocked l.tid o (isOf sender) [] s) :
      UndoSat cfg ext l (do
        let remaining : List Bond ← query (.findActiveBondsForOrder o.id)
        if remaining.any fun b => b.pubkey != sender && b.role == .taker then pure ()
        else cancelOrderByTakerInner o) (fun _ _ => True) s := by
    refine sat_ask_bind (T := StillLocked l.tid o (isOf sender) []) hs (fun _ _ hk h => h.kept hk)
      fun s ls hs hk => ⟨undoContract_call _ _ _ rfl,fun ch _ =>
        ⟨fun remaining hres => ?_,fun _ _ => trivial⟩⟩
    split
    · trivial
    next hnone =>
      refine cancelOrderByTakerInner_quiet (StillLocked.own ext ch hk rfl rfl
        ⟨hs.read,by simp,fun x hx hid hrole hst => ?_⟩)
      have hx' : x ∈ remaining :=
        ((activeBonds_read hk hres).1 x).mpr ⟨hx,hid,locked_isActive hst⟩
      have hkey : isOf sender x.pubkey x.role = true := by
        by_contra hkey
        exact hnone (List.any_eq_true.mpr ⟨x,hx',by simpa [beq_iff_eq.mp hrole] using hkey⟩)
      obtain ⟨b,hb,_⟩ := hs.among x hx hid hkey hst
      cases hb
  refine sat_ask_bind (T := ReadBy l.tid o) hread (fun _ _ hk h => h.mono hk.hands)
    fun s ls hread hk => ⟨undoContract_call _ _ _ rfl,fun ch hd =>
      ⟨fun found hres => ?_,fun _ _ => trivial⟩⟩
  have hs := takerBond_stillLocked hl hread hk hd hres
  cases found with
  | none => exact hrest hs
  | some b =>
    refine System.Sat.bind (System.Sat.mono ((releaseBond_lands hl hs).ignore
      (Q := fun _ s => StillLocked l.tid o (isOf sender) [] s)) fun r s hs => ?_)
    cases r with
    | error e => trivial
    | ok _ => exact hrest hs

theorem cancels_quiet (hjob : l.req.isTimeoutJob = false) :
    Cancels fun op => op.republishes l.req = none where
  query _ := rfl
  timestamp := rfl
  bond _ := ⟨rfl,rfl,fun _ _ => rfl,fun _ => rfl⟩
  settle _ := rfl
  close _ := rfl
  cancel _ := rfl
  event _ _ := rfl
  update _ _ := by simp [Op.republishes,hjob]
  cas _ _ := rfl
  dispute _ := rfl

theorem cancelNotActiveOrder_clears (hl : l.req.undoesTakes = true)
    (hjob : l.req.isTimeoutJob = false) (hread : ReadBy l.tid o s) :
    UndoSat cfg ext l (cancelNotActiveOrder o sender)
      (fun _ _ => True) s := by
  refine sat_require_bind (fun seller _ => sat_require_bind (fun buyer _ => sat_require_bind
    (fun taker _ => ?_) fun _ => trivial) fun _ => trivial) fun _ => trivial
  split
  · exact quiet_sat (cancelOrderByMaker_only (cancels_quiet hjob) o)
  · split
    · exact cancelOrderByTaker_clears hl hread
    · trivial

theorem cancelAction_clears (hl : l.req.undoesTakes = true) (hjob : l.req.isTimeoutJob = false) :
    UndoSat cfg ext l (cancelAction id sender)
      (fun _ _ => True) s := by
  refine sat_bind_assoc (sat_ask_bind (T := fun _ => True) trivial (fun _ _ _ h => h)
    fun s ls _ hk => ⟨undoContract_call _ _ _ rfl,fun ch _ => ⟨fun found hres => ?_,
      fun _ _ => trivial⟩⟩)
  cases found with
  | none => trivial
  | some o =>
    obtain ⟨hread,_⟩ := orderById_read hres
    have htaker : UndoSat cfg ext l
        (if o.creatorPubkey = sender then cancelPendingOrderFromMaker o sender
          else do
            let bonds : Except MostroError (List Bond) ←
              (query (.findActiveBondsForOrder o.id)).attempt
            if (bonds.toOption.getD []).any (fun b => b.pubkey == sender)
                || (o.buyerPubkey == some sender || o.sellerPubkey == some sender) then
              cancelOrderByTaker o sender
            else .fail (.cantDo .isNotYourOrder)) (fun _ _ => True)
        (exec ext l.tid (.query (.orderById id)) ch s).1 := by
      split
      · exact quiet_sat (cancelPendingOrderFromMaker_only (cancels_quiet hjob) o sender)
      · refine sat_ask_attempt_bind (T := ReadBy l.tid o) hread (fun _ _ hk h => h.mono hk.hands)
          fun s ls hread hk => ⟨undoContract_call _ _ _ rfl,fun ch _ => ?_⟩
        have hown : Undisturbed l.tid s
            (exec ext l.tid (.query (.findActiveBondsForOrder o.id)) ch s).1 :=
          exec_undisturbed ext l.tid ch s rfl
        split
        · exact cancelOrderByTaker_clears hl (hread.mono hown.hands)
        · trivial
    dsimp only
    simp only [Prog.ret_bind]
    split
    · trivial
    · trivial
    · trivial
    · exact htaker
    · exact htaker
    · exact cancelNotActiveOrder_clears hl hjob hread
    · exact cancelNotActiveOrder_clears hl hjob hread
    · exact quiet_sat (cancelActiveOrder_only (cancels_quiet hjob) o sender)
    · exact quiet_sat (cancelActiveOrder_only (cancels_quiet hjob) o sender)
    · exact quiet_sat (cancelActiveOrder_only (cancels_quiet hjob) o sender)
    · trivial

end

theorem undoTakes_watched (cfg : Settings) (ext : Externals) :
    Watched cfg ext releasesLand (fun l => l.req.undoesTakes = true)
      (fun l => Undisturbed l.tid) undoContract.Pre := by
  refine watchingOrders_watched (fun l l' op ch ls s hne hl hb hd => ?_) fun l s hb => ?_
  · have := List.all_eq_true.mp (Bool.and_eq_true_iff.mp hd).1 l' hl
    simpa [hb,hne] using this
  · cases hjob : l.req.isTimeoutJob with
    | true =>
      rw [timeoutJob_code cfg ext hjob]
      exact jobCancelOrders_clears hb
    | false =>
      have hcancel : l.req.isCancel = true := by
        simpa [Request.undoesTakes,hjob] using hb
      unfold Request.isCancel at hcancel
      split at hcancel
      next id sender heq =>
        rw [heq]
        exact cancelAction_clears hb hjob
      · cases hcancel

theorem takeable_of_reach {cfg : Settings} {ext : Externals} (hext : ext.Documented)
    {c : DaemonState} (hc : (daemon cfg ext).Reach releasesLand State.Initial c) {l : Label}
    {op : Op} {ch : Choice} (hnext : c.AboutTo l op)
    (hd : releasesLand.onOp l op ch c.running c.shared) : Takeable op c.shared := by
  cases hreq : l.req.undoesTakes with
  | true => exact (undoTakes_watched cfg ext).pre hext hc hnext hreq ch c.running hd
  | false =>
    have hk := reach_knowing hext hc hnext
    exact takeable_of_none hk (releasesLand_current hd) (republishes_none hk hreq)

theorem returned_uncommitted {l : Label} {op : Op} {ls : List Label} {s s' : State}
    (hk : Knowing l op ls s) (he : Effect l.tid op s s') (htake : Takeable op s) {r r' : OrderRow}
    (hr : r ∈ s.orders) (hr' : r' ∈ s'.orders) (hid : r'.order.id = r.order.id)
    (htaken : r.order.status.isTaken = true) (hp : r'.order.status = .pending) :
    s'.Uncommitted r.order.id := by
  have hnew : r' ∉ s.orders := by
    intro hmem
    obtain rfl := hk.consistent.order_unique hmem hr hid
    simp [Status.isTaken,hp] at htaken
  rcases he.rows with hrows | ⟨st,rfl,rfl⟩ | ⟨st,rfl,rfl⟩
  · exact absurd (hrows.orders ▸ hr') hnew
  · cases st with
    | create o =>
      rcases List.mem_append.mp hr' with hmem | hmem
      · exact absurd hmem hnew
      · rw [List.mem_singleton.mp hmem] at hid
        exact absurd hid (Nat.ne_of_gt (hk.consistent.orderIds_lt r hr))
    | deleteStranded id => exact absurd (List.mem_of_mem_filter hr') hnew
    | run u =>
      obtain ⟨q,hq,rfl⟩ := mem_updateWhere.mp hr'
      split at hnew
      next hsel =>
        rw [if_pos hsel] at hid hp
        have hqr : q = r := hk.consistent.order_unique hq hr
          ((orderUpdate_set_id hsel).symm.trans hid)
        rw [hqr] at hsel hp
        have := htake u rfl r hr hsel htaken hp
        intro b hb
        rw [orderStmt_bonds] at hb
        exact this b hb
      · exact absurd hq hnew
  · rw [bondStmt_orders] at hr'
    exact absurd hr' hnew

/-- Where a Cancel and the timeout job are not disturbed, their releases and slashes are carried
out and no row is written as pending from an outdated copy, an order that returns to pending has no
locked taker bond. -/
theorem republished_order_takeable {cfg : Settings} {ext : Externals} (hext : ext.Documented)
    {c c' : DaemonState} (hc : (daemon cfg ext).Reach releasesLand State.Initial c)
    {e : Event Label Choice Env} (hm : System.Meets releasesLand c e)
    (hs : (daemon cfg ext).step c e = some c') {r r' : OrderRow} (hr : r ∈ c.shared.orders)
    (hr' : r' ∈ c'.shared.orders) (hid : r'.order.id = r.order.id)
    (htaken : r.order.status.isTaken = true) (hp : r'.order.status = .pending) :
    tradeCommittedByLockedTakerBond
      (Query.run c'.shared (.findActiveBondsForOrder r.order.id)) = false := by
  have hsame : c'.shared.orders = c.shared.orders → False := by
    intro horders
    obtain rfl := (reach_consistent hext hc).order_unique (horders ▸ hr') hr hid
    simp [Status.isTaken,hp] at htaken
  rcases System.step_shared hm hs with ⟨l,hl⟩ | ⟨l,op,ch,hnext,hd,hexec⟩ | ⟨e,_,he⟩
  · exact (hsame (launch_rowsKept hl).orders).elim
  · refine uncommitted_iff.mp (returned_uncommitted (reach_knowing hext hc hnext) ?_
      (takeable_of_reach hext hc hnext hd) hr hr' hid htaken hp)
    rw [hexec]
    exact exec_effect ext l.tid op ch c.shared
  · exact (hsame (env_moves he).rowsKept.orders).elim

/-- Order 1, waiting for the buyer's invoice, becomes pending; `p` says what is left of its
bonds. -/
def returnsOrder (p : List Bond → Bool) (s s' : State) : Bool :=
  (s.orders.any fun r => r.order.id == 1 && r.order.status == .waitingBuyerInvoice)
    && (s'.orders.any fun r => r.order.id == 1 && r.order.status == .pending)
    && p (Query.run s' (.findActiveBondsForOrder 1))

theorem returnsOrder_spec {p : List Bond → Bool} {s s' : State} (h : returnsOrder p s s' = true) :
    (∃ r ∈ s.orders, r.order.id = 1 ∧ r.order.status = .waitingBuyerInvoice) ∧
      (∃ r ∈ s'.orders, r.order.id = 1 ∧ r.order.status = .pending) ∧
      p (Query.run s' (.findActiveBondsForOrder 1)) = true := by
  obtain ⟨h,hp⟩ := Bool.and_eq_true_iff.mp h
  simpa [hp] using h

theorem canceled_take_republished :
    ∃ c c' e, (daemon (bondSettings .take 1000) plainExternals).Reach releasesLand State.Initial c ∧
      (daemon (bondSettings .take 1000) plainExternals).step c e = some c' ∧
      (∃ r ∈ c.shared.orders, r.order.id = 1 ∧ r.order.status = .waitingBuyerInvoice) ∧
      (∃ r ∈ c'.shared.orders, r.order.id = 1 ∧ r.order.status = .pending) ∧
      tradeCommittedByLockedTakerBond
        (Query.run c'.shared (.findActiveBondsForOrder 1)) = false := by
  obtain ⟨c,c',hc,hm,hs,h⟩ := step_of_schedule (bondSettings .take 1000) plainExternals releasesLand
    (overdueTake ++ alone 6 (.message (.cancel 1 8)) 7) (.step 0 .ok) (returnsOrder fun _ => true)
    (by decide +kernel)
  obtain ⟨⟨r,hr,hid,hst⟩,⟨r',hr',hid',hst'⟩,_⟩ := returnsOrder_spec h
  have hfree := republished_order_takeable plainExternals_documented hc hm hs hr hr'
    (hid'.trans hid.symm) (by rw [hst]; rfl) hst'
  rw [hid] at hfree
  exact ⟨c,c',_,hc,hs,⟨r,hr,hid,hst⟩,⟨r',hr',hid',hst'⟩,hfree⟩

/-- The node cannot be reached when the taker's Cancel releases the bond: the order goes back into
the book, and every further take is refused because of the bond that is still locked. -/
theorem canceled_take_stays_committed :
    ∃ c c' e, (daemon (bondSettings .take 1000) plainExternals).Reach System.Demand.none
      State.Initial c ∧
      (daemon (bondSettings .take 1000) plainExternals).step c e = some c' ∧
      (∃ r ∈ c.shared.orders, r.order.id = 1 ∧ r.order.status = .waitingBuyerInvoice) ∧
      (∃ r ∈ c'.shared.orders, r.order.id = 1 ∧ r.order.status = .pending) ∧
      tradeCommittedByLockedTakerBond
        (Query.run c'.shared (.findActiveBondsForOrder 1)) = true := by
  obtain ⟨c,c',hc,_,hs,h⟩ := step_of_schedule (bondSettings .take 1000) plainExternals
    System.Demand.none (overdueTake ++ alone 6 (.message (.cancel 1 8)) 2 ++ .step 0 .fault
      :: steps 0 1) (.step 0 .ok) (returnsOrder tradeCommittedByLockedTakerBond) (by decide +kernel)
  exact ⟨c,c',_,hc,hs,returnsOrder_spec h⟩

end Mostro
