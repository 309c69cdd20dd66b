import Mostro.WatchedOrders

set_option autoImplicit false

/-!
Whom a timeout blames.  The timeout job reads an order again before it acts on it, but slashes a
few steps later.  Where no other task changes whose turn it is on an order the job is working on,
every bond slashed for a timeout was captured while its owner's step was overdue.
-/

namespace Mostro

open Interleaving SqlTable

variable {tid : Nat} {id : Uuid} {o : Order} {b : Bond} {p : Hash} {op : Op}

def Order.duty (o : Order) : Status × Int × Option Pubkey × Option Pubkey :=
  (o.status,o.takenAt,o.buyerPubkey,o.sellerPubkey)

def Order.waits (o : Order) : Bool := (responsibleSide o.status).isSome

def State.worksOn (s : State) (tid : Nat) (id : Uuid) : Bool :=
  s.inHand.any fun p => p.1 == tid && p.2.id == id

theorem worksOn_iff {s : State} :
    s.worksOn tid id = true ↔ ∃ x, (tid,x) ∈ s.inHand ∧ x.id = id := by
  simp [State.worksOn]

theorem ReadBy.worksOn {s : State} (h : ReadBy tid o s) : s.worksOn tid o.id = true := by
  obtain ⟨x,hx,hid,_⟩ := h
  exact worksOn_iff.mpr ⟨x,hx,hid⟩

/-- At the moment of the capture the order's step was the bond owner's, and overdue. -/
def Capture.blames (cfg : Settings) (k : Capture) (b : Bond) : Prop :=
  ∃ o ∈ k.orders, o.id = b.orderId ∧ ∃ side ∈ responsibleSide o.status,
    sidePubkey o side = some b.pubkey ∧ o.takenAt < k.at_ - cfg.expirationSeconds

instance (cfg : Settings) (k : Capture) (b : Bond) : Decidable (k.blames cfg b) :=
  inferInstanceAs (Decidable (∃ o ∈ k.orders, o.id = b.orderId ∧ ∃ side ∈ responsibleSide o.status,
    sidePubkey o side = some b.pubkey ∧ o.takenAt < k.at_ - cfg.expirationSeconds))

theorem Capture.blames_core {cfg : Settings} {k : Capture} {r : Bond} (hcore : b.SameCore r) :
    k.blames cfg r ↔ k.blames cfg b := by
  simp only [Capture.blames,hcore.orderId,hcore.pubkey]

def Op.keepsDuties (tid : Nat) (s : State) : Op → Bool
  | .order (.run u) => s.orders.all fun r =>
      !(r.order.waits && s.worksOn tid r.order.id && u.selects s r)
        || (u.set r).order.duty == r.order.duty
  | _ => true

def State.backsWaiting (s : State) (p : Hash) : Bool :=
  s.bonds.any fun b => b.preimage == some p
    && s.orders.any fun r => r.order.id == b.orderId && r.order.waits

/-- The operation settles the invoice of a bond that is settled already although the bond's order
still waits, and was not settled on its owner's duty. -/
def Op.settlesAgain (cfg : Settings) (s : State) : Op → Bool
  | .lnd (.settleHoldInvoice p) => s.holdState p == some .settled && s.backsWaiting p
      && !s.captures.any fun k => k.hash == p && s.bonds.all fun b =>
        b.preimage != some p || decide (k.blames cfg b)
  | _ => false

theorem backsWaiting_iff {s : State} : s.backsWaiting p = true ↔
    ∃ b ∈ s.bonds, b.preimage = some p ∧ ∃ r ∈ s.orders, r.order.id = b.orderId ∧
      r.order.waits = true := by
  simp [State.backsWaiting]

/-- While the timeout job works on a waiting order, no other task changes the order's duty; and the
job comes to a bond of a waiting order whose invoice is settled only if the owner was to blame
then. -/
abbrev leavesReadOrders (cfg : Settings) : Requirement := .check (fun l op _ ls s =>
  (ls.all fun l' => !l'.req.isTimeoutJob || l'.tid == l.tid || op.keepsDuties l'.tid s)
    && !(l.req.isTimeoutJob && op.settlesAgain cfg s)) fun _ _ _ => true

structure DutiesKept (tid : Nat) (s s' : State) : Prop where
  hands : ∀ x, (tid,x) ∈ s.inHand → (tid,x) ∈ s'.inHand
  captures : s.captures ⊆ s'.captures
  now : s.now ≤ s'.now
  bonds : BondsProgress s s'
  duties : ∀ r ∈ s.orders, r.order.waits = true → s.worksOn tid r.order.id = true →
    ∃ r' ∈ s'.orders, r'.order.id = r.order.id ∧ r'.order.duty = r.order.duty

theorem worksOn_mono {s s' : State} (h : ∀ x, (tid,x) ∈ s.inHand → (tid,x) ∈ s'.inHand)
    (hr : s.worksOn tid id = true) : s'.worksOn tid id = true := by
  obtain ⟨x,hx,hid⟩ := worksOn_iff.mp hr
  exact worksOn_iff.mpr ⟨x,h x hx,hid⟩

theorem waits_of_duty {o' : Order} (h : o'.duty = o.duty) : o'.waits = o.waits := by
  simp only [Order.duty,Prod.mk.injEq] at h
  simp [Order.waits,h.1]

theorem DutiesKept.of_orders {s s' : State} (hh : ∀ x, (tid,x) ∈ s.inHand → (tid,x) ∈ s'.inHand)
    (hl : LogsGrow s s') (hn : s.now ≤ s'.now) (hb : BondsProgress s s') (ho : s'.orders = s.orders) :
    DutiesKept tid s s' :=
  ⟨hh,hl.captures,hn,hb,fun r hr _ _ => ⟨r,ho ▸ hr,rfl,rfl⟩⟩

theorem DutiesKept.refl (tid : Nat) (s : State) : DutiesKept tid s s :=
  .of_orders (fun _ h => h) (.of_eq rfl rfl rfl rfl) le_rfl (.of_eq rfl) rfl

theorem DutiesKept.trans {s₁ s₂ s₃ : State} (h : DutiesKept tid s₁ s₂) (h' : DutiesKept tid s₂ s₃) :
    DutiesKept tid s₁ s₃ := by
  refine ⟨fun x hx => h'.hands x (h.hands x hx),fun _ hx => h'.captures (h.captures hx),
    h.now.trans h'.now,fun b hb => ?_,fun r hr hw hread => ?_⟩
  · obtain ⟨x,hx,hbx⟩ := h.bonds b hb
    obtain ⟨y,hy,hxy⟩ := h'.bonds x hx
    exact ⟨y,hy,hbx.trans hxy⟩
  · obtain ⟨x,hx,hid,hduty⟩ := h.duties r hr hw hread
    obtain ⟨y,hy,hid',hduty'⟩ := h'.duties x hx (waits_of_duty hduty ▸ hw)
      (hid ▸ worksOn_mono h.hands hread)
    exact ⟨y,hy,hid'.trans hid,hduty'.trans hduty⟩

theorem DutiesKept.orderStmt {tid' : Nat} {s : State} {st : OrderStmt}
    (hk : (Op.order st).keepsDuties tid s = true) : ∀ r ∈ s.orders, r.order.waits = true →
    s.worksOn tid r.order.id = true →
    ∃ r' ∈ (st.exec tid' s).1.orders, r'.order.id = r.order.id ∧ r'.order.duty = r.order.duty := by
  intro r hr hw hread
  cases st with
  | create o => exact ⟨r,List.mem_append_left _ hr,rfl,rfl⟩
  | run u =>
    by_cases hsel : u.selects s r = true
    · have hduty : (u.set r).order.duty = r.order.duty := by
        have := List.all_eq_true.mp hk r hr
        simpa [hw,hread,hsel] using this
      exact ⟨u.set r,mem_updateWhere.mpr ⟨r,hr,if_pos hsel⟩,orderUpdate_set_id hsel,hduty⟩
    · exact ⟨r,mem_updateWhere.mpr ⟨r,hr,if_neg hsel⟩,rfl,rfl⟩
  | deleteStranded id =>
    refine ⟨r,List.mem_filter.mpr ⟨hr,?_⟩,rfl,rfl⟩
    have hst : r.order.status ≠ .waitingMakerBond := by
      intro h
      simp [Order.waits,h,responsibleSide] at hw
    simp [State.deletable,hst]

def Op.slashesTimeout : Op → Bool
  | .bond (.run (.slash _ .timeout _ _ _)) => true
  | _ => false

def RecordsDuty (cfg : Settings) (op : Op) (s : State) : Prop :=
  ∀ id t share trade, op = .bond (.run (.slash id .timeout t share trade)) → ∀ b ∈ s.bonds,
    b.id = id → ∃ k ∈ s.captures, b.preimage = some k.hash ∧ k.blames cfg b

theorem RecordsDuty.of_not {cfg : Settings} {s : State} (h : op.slashesTimeout = false) :
    RecordsDuty cfg op s := by
  rintro id t share trade rfl
  cases h

theorem Knowing.isTimeoutJob {l : Label} {ls : List Label} {s : State} (hk : Knowing l op ls s)
    (h : op.slashesTimeout = true) : l.req.isTimeoutJob = true := by
  obtain ⟨Γ,hn,_⟩ := hk.need
  unfold Op.slashesTimeout at h
  split at h
  · rw [(hn.2 rfl).1]
    rfl
  · cases h

section

variable {cfg : Settings} {ext : Externals} {l : Label} {α : Type} {s s' : State} {side : Side}

abbrev dutyContract (cfg : Settings) : Contract State Label Op :=
  watching (fun l => l.req.isTimeoutJob = true) (fun l => DutiesKept l.tid) fun _ => RecordsDuty cfg

abbrev DutySat (cfg : Settings) (ext : Externals) (l : Label) {α : Type} (p : M α)
    (Q : Except MostroError α → State → Prop) (s : State) : Prop :=
  (daemon cfg ext).Sat (leavesReadOrders cfg) (dutyContract cfg) l p Q s

structure Awaited (tid : Nat) (o : Order) (s : State) : Prop where
  waits : o.waits = true
  read : ReadBy tid o s
  stored : ∃ r ∈ s.orders, r.order.id = o.id ∧ r.order.duty = o.duty

def Overdue (cfg : Settings) (tid : Nat) (o : Order) (s : State) : Prop :=
  Awaited tid o s ∧ o.takenAt < s.now - cfg.expirationSeconds

theorem Awaited.kept (hk : DutiesKept tid s s') (h : Awaited tid o s) : Awaited tid o s' := by
  obtain ⟨r,hr,hid,hduty⟩ := h.stored
  obtain ⟨r',hr',hid',hduty'⟩ :=
    hk.duties r hr (waits_of_duty hduty ▸ h.waits) (hid ▸ h.read.worksOn)
  exact ⟨h.waits,h.read.mono hk.hands,r',hr',hid'.trans hid,hduty'.trans hduty⟩

theorem Overdue.kept (hk : DutiesKept tid s s') (h : Overdue cfg tid o s) : Overdue cfg tid o s' :=
  ⟨h.1.kept hk,lt_of_lt_of_le h.2 (Int.sub_le_sub_right hk.now _)⟩

theorem dutiesKept_own (ext : Externals) (ch : Choice) {ls : List Label} (hk : Knowing l op ls s)
    (h : op.isOrder = false) (hw : ∀ id, op = .query (.orderById id) → s.watches l.tid id = true) :
    DutiesKept l.tid s (exec ext l.tid op ch s).1 := by
  have he := exec_effect ext l.tid op ch s
  exact .of_orders (exec_hands ext op ch hw) he.logs (exec_now ext l.tid op ch s).ge
    (hk.bondsProgress he) (he.orders_of_not h)

theorem duties_steady : HandKept ext l (DutiesKept l.tid) (RecordsDuty cfg) fun op =>
    op.isOrder = false ∧ op.slashesTimeout = false where
  pre _ _ h := .of_not h.2
  hands _ _ h := h.hands
  own _ ch _ _ hop hw hk := dutiesKept_own ext ch hk hop.1 hw

theorem unslashed_sat {p : M α} (hp : p.Only fun op => op.slashesTimeout = false) :
    DutySat cfg ext l p (fun _ _ => True) s :=
  System.Sat.of_only hp trivial (fun _ _ _ _ => trivial) fun _ _ _ hop _ _ =>
    ⟨.of_not hop,fun _ _ => trivial⟩

theorem aside_reads : Reads fun op => op.isOrder = false ∧ op.slashesTimeout = false :=
  ⟨fun _ => ⟨rfl,rfl⟩,rfl,rfl⟩

theorem unslashed_closes : Closes fun op => op.slashesTimeout = false where
  query _ := rfl
  timestamp := rfl
  bond _ := ⟨rfl,rfl,fun _ _ => rfl,fun _ => rfl⟩
  settle _ := rfl
  close _ := rfl

theorem unslashed_rewrites : Rewrites fun op => op.slashesTimeout = false where
  query _ := rfl
  timestamp := rfl
  order _ := rfl
  event _ _ := rfl

theorem reconfirmed {now : Int} {found : Except MostroError (Option Order)}
    (h : (.ok ((found.toOption.bind fun o => o).filter fun o =>
      [Status.waitingBuyerInvoice,.waitingPayment].contains o.status
        && decide (o.takenAt < now - cfg.expirationSeconds)) :
      Except MostroError (Option Order)) = .ok (some o)) :
    found = .ok (some o) ∧ o.waits = true ∧ o.takenAt < now - cfg.expirationSeconds := by
  obtain ⟨hfound,hpass⟩ := Option.filter_eq_some_iff.mp (Except.ok.inj h)
  rw [Bool.and_eq_true] at hpass
  refine ⟨?_,?_,of_decide_eq_true hpass.2⟩
  · rcases found with e | _ | x
    · cases hfound
    · cases hfound
    · cases hfound
      rfl
  · unfold Order.waits
    cases hst : o.status <;> simp [hst] at hpass <;> rfl

theorem reconfirmTimeoutEligibility_sat :
    DutySat cfg ext l
    (reconfirmTimeoutEligibility cfg id)
      (fun r s => ∀ o, r = .ok (some o) → Overdue cfg l.tid o s) s := by
  refine sat_ask_attempt_bind (T := fun _ => True) trivial (fun _ _ _ h => h) fun s ls _ hk => ?_
  refine ⟨.of_not rfl,fun ch _ => ?_⟩
  generalize hres : (exec ext l.tid (.query (.orderById id)) ch s).2 = found
  have hread : ∀ o, found = .ok (some o) → o.waits = true →
      Awaited l.tid o (exec ext l.tid (.query (.orderById id)) ch s).1 := by
    rintro o rfl hw
    obtain ⟨hs,hrun⟩ := exec_query_ok hres
    obtain ⟨r,hr,rfl⟩ := Option.map_eq_some_iff.mp hrun
    refine ⟨hw,(orderById_read hres).1,?_⟩
    rw [hs]
    exact ⟨r,List.mem_of_find?_eq_some hr,rfl,rfl⟩
  refine sat_ask_bind (T := fun s => ∀ o, found = .ok (some o) → o.waits = true →
    Awaited l.tid o s) hread (fun s s' hr h o ho hw => (h o ho hw).kept hr) fun s ls hs hk => ?_
  refine ⟨.of_not rfl,fun ch _ => ⟨fun now hnow => ?_,fun e he => nomatch he⟩⟩
  cases hnow
  intro o ho
  obtain ⟨hfound,hw,hlate⟩ := reconfirmed ho
  exact ⟨hs o hfound hw,hlate⟩

structure Blamed (o : Order) (b : Bond) : Prop where
  order : b.orderId = o.id
  side : ∃ side, responsibleSide o.status = some side ∧ sidePubkey o side = some b.pubkey

theorem Overdue.blames (h : Overdue cfg tid o s) (hb : Blamed o b) :
    Capture.blames cfg ⟨p,s.now,s.orders.map (·.order)⟩ b := by
  obtain ⟨r,hr,hid,hduty⟩ := h.1.stored
  obtain ⟨side,hside,hkey⟩ := hb.side
  simp only [Order.duty,Prod.mk.injEq] at hduty
  obtain ⟨hst,htaken,hbuyer,hseller⟩ := hduty
  refine ⟨r.order,List.mem_map_of_mem hr,hid.trans hb.order.symm,side,hst.symm ▸ hside,?_,?_⟩
  · cases side
    · exact hseller.trans hkey
    · exact hbuyer.trans hkey
  · rw [htaken]
    exact h.2

def CapturedOn (cfg : Settings) (b : Bond) (p : Hash) (s : State) : Prop :=
  (∃ r ∈ s.bonds, b.Becomes r) ∧ ∃ k ∈ s.captures, k.hash = p ∧ k.blames cfg b

theorem CapturedOn.kept (hk : DutiesKept tid s s') (h : CapturedOn cfg b p s) :
    CapturedOn cfg b p s' := by
  obtain ⟨⟨r,hr,hbr⟩,k,hmem,hblame⟩ := h
  obtain ⟨r',hr',hrr⟩ := hk.bonds r hr
  exact ⟨⟨r',hr',hbr.trans hrr⟩,k,hk.captures hmem,hblame⟩

theorem CapturedOn.records {t share : Int} {trade : Order} (hc : Consistent s)
    (hp : b.preimage = some p) (h : CapturedOn cfg b p s) :
    RecordsDuty cfg (.bond (.run (.slash b.id .timeout t share trade))) s := by
  rintro _ _ _ _ ⟨⟩ b' hb' hid
  obtain ⟨⟨r,hr,hcore,_⟩,k,hk,rfl,o,ho,hoid,side,hside,hkey,hlate⟩ := h
  obtain rfl : b' = r := hc.bond_unique hb' hr (hid.trans hcore.id.symm)
  exact ⟨k,hk,hcore.preimage.trans hp,o,ho,hoid.trans hcore.orderId.symm,side,hside,
    by rw [hcore.pubkey,hkey],hlate⟩

theorem slashOne_sat (hext : ext.Documented) (hl : l.req.isTimeoutJob = true) {pct : ℚ}
    (hs : Overdue cfg l.tid o s ∧ ∃ r ∈ s.bonds, b.Becomes r) (hb : Blamed o b) :
    DutySat cfg ext l (slashOne o b .timeout pct)
      (fun _ _ => True) s := by
  unfold slashOne
  split
  · trivial
  next p hp =>
    refine sat_bind_assoc (sat_ask_attempt_bind (T := fun s =>
      Overdue cfg l.tid o s ∧ ∃ r ∈ s.bonds, b.Becomes r) hs ?_ fun s ls hs hk => ?_)
    · rintro s s' hk ⟨h,r,hr,hbr⟩
      obtain ⟨r',hr',hrr⟩ := hk.bonds r hr
      exact ⟨h.kept hk,r',hr',hbr.trans hrr⟩
    refine ⟨.of_not rfl,fun ch hd => ?_⟩
    -- once the bond is captured on its owner's duty, the slash may be recorded
    have hrecord {s : State} (hs : CapturedOn cfg b p s) :
        DutySat cfg ext l
          (do
            let now ← timestamp
            (runBond (.slash b.id .timeout now (computeNodeShare b.amountSats pct) o)).ignore)
          (fun _ _ => True) s := by
      refine sat_ask_bind hs (fun _ _ hk h => h.kept hk)
        fun s ls hs hk => ⟨.of_not rfl,fun ch _ => ⟨fun now hnow => ?_,fun _ _ => trivial⟩⟩
      exact sat_ask_attempt_bind (T := CapturedOn cfg b p) hs (fun _ _ hk h => h.kept hk)
        fun s ls hs hk => ⟨hs.records hk.consistent hp,fun ch _ => trivial⟩
    generalize hres : (exec ext l.tid (.lnd (.settleHoldInvoice p)) ch s).2 = answer
    cases answer with
    | error e =>
      show System.Sat _ _ _ _ (Prog.bind (.ret e.alreadySettled) _) _ _
      by_cases hset : s.holdState p = some .settled
      · -- it was settled before, on the owner's duty
        have hcap : CapturedOn cfg b p s := by
          obtain ⟨⟨hw,_,r,hr,hid,hduty⟩,_⟩ := hs.1
          obtain ⟨x,hx,hcore,hx'⟩ := hs.2
          have hback : s.backsWaiting p = true :=
            backsWaiting_iff.mpr ⟨x,hx,hcore.preimage.trans hp,r,hr,
              hid.trans (hb.order.symm.trans hcore.orderId.symm),waits_of_duty hduty ▸ hw⟩
          have hblamed := (Bool.and_eq_true_iff.mp hd).2
          simp only [hl,Op.settlesAgain,hset,hback,BEq.rfl,Bool.true_and,Bool.not_not,
            List.any_eq_true,Bool.and_eq_true,beq_iff_eq,List.all_eq_true] at hblamed
          obtain ⟨k,hk,hkp,hall⟩ := hblamed
          have hbl := hall x hx
          simp only [hcore.preimage.trans hp,bne_self_eq_false,Bool.false_or,decide_eq_true_eq]
            at hbl
          exact ⟨⟨x,hx,hcore,hx'⟩,k,hk,hkp,(Capture.blames_core hcore).mp hbl⟩
        have hcap := hcap.kept (dutiesKept_own ext ch hk rfl fun _ h => nomatch h)
        cases hagain : e.alreadySettled
        · trivial
        · exact hrecord hcap
      · rw [exec_settle_error hext.texts hset hres]
        trivial
    | ok u =>
      refine hrecord ?_
      rw [exec_settle_ok hres]
      exact ⟨hs.2,_,List.mem_cons_self,rfl,hs.1.blames hb⟩

theorem resolveSlashTarget_sat {bonds : List Bond} {isRange : Bool} {T : State → Prop} (hs : T s)
    (hread : ReadBy l.tid o s) (hT : ∀ s s', DutiesKept l.tid s s' → T s → T s') :
    DutySat cfg ext l
      (resolveSlashTarget o bonds side isRange)
      (fun r s => T s ∧ ∀ b, r = .ok (some b) → (isRange && sideIsMaker o side) = false →
        resolveLockedBond o bonds side = some b) s := by
  unfold resolveSlashTarget
  split
  next b hb => exact ⟨hs,fun b' h _ => by cases h; exact hb⟩
  next hnone =>
    split
    next hrange =>
      refine System.Sat.bind ((duties_steady.findMakerBondForOrder aside_reads hs hread hT).mono
        fun r s hs => ?_)
      cases r with
      | error e => exact ⟨hs,fun _ h => nomatch h⟩
      | ok found => exact ⟨hs,fun b _ h => nomatch hrange.symm.trans h⟩
    · exact ⟨hs,fun b h => nomatch h⟩

theorem resolveLockedBond_blamed {bonds : List Bond} (hside : responsibleSide o.status = some side)
    (hbonds : ∀ b ∈ bonds, b.orderId = o.id) (h : resolveLockedBond o bonds side = some b) :
    b ∈ bonds ∧ Blamed o b := by
  unfold resolveLockedBond at h
  split at h
  · cases h
  next key hkey =>
    have hmem := List.mem_of_find?_eq_some h
    have hb := List.find?_some h
    simp only [Bool.and_eq_true,beq_iff_eq] at hb
    exact ⟨hmem,hbonds b hmem,side,hside,by rw [hkey,hb.1]⟩

theorem slashSide_sat (hext : ext.Documented) (hl : l.req.isTimeoutJob = true) {isRange : Bool}
    (hs : Overdue cfg l.tid o s ∧ ((isRange && sideIsMaker o side) = false →
      (∃ r ∈ s.bonds, b.Becomes r) ∧ Blamed o b)) :
    DutySat cfg ext l
      (slashSide cfg o b side isRange .timeout) (fun _ _ => True) s := by
  have hread : Reads fun op => op.slashesTimeout = false := unslashed_closes.toReads
  unfold slashSide
  split
  · refine unslashed_sat ((findRangeRootFrom_only hread _ o).bind fun root =>
      (recordMakerSliceSlash_only (P := fun op => op.slashesTimeout = false) rfl (fun _ => rfl)
        (fun _ => rfl) _ _ _ _ _).bind fun inserted => ?_)
    cases inserted
    · trivial
    · exact (ask_only (hread.query _)).bind fun _ => trivial
  next h =>
    obtain ⟨hbond,hblamed⟩ := hs.2 (Bool.not_eq_true _ ▸ h)
    refine System.Sat.bind ((slashOne_sat hext hl ⟨hs.1,hbond⟩ hblamed).mono fun r s _ => ?_)
    cases r with
    | error e => trivial
    | ok _ => exact unslashed_sat ((ask_only (hread.query _)).bind fun _ => trivial)

theorem slashOrReleaseOnTimeout_sat (hext : ext.Documented) (hl : l.req.isTimeoutJob = true)
    (hs : Overdue cfg l.tid o s) :
    DutySat cfg ext l (slashOrReleaseOnTimeout cfg o)
      (fun _ _ => True) s := by
  have hrel : Releases fun op => op.slashesTimeout = false := unslashed_closes.toReleases
  unfold slashOrReleaseOnTimeout
  split
  · exact unslashed_sat (releaseActiveBonds_only hrel _ _).ignore
  next side hside =>
    dsimp only
    split
    · exact unslashed_sat (releaseOnTimeout_only hrel _ _)
    · refine sat_ask_bind (T := Overdue cfg l.tid o) hs (fun _ _ hk h => h.kept hk)
        fun s ls hs hk => ⟨.of_not rfl,fun ch _ => ⟨fun bonds hres => ?_,fun _ _ => trivial⟩⟩
      have hbonds : ∀ b ∈ bonds, b.orderId = o.id ∧ b ∈ s.bonds := by
        intro b hb
        rw [← (exec_query_ok hres).2] at hb
        have := List.mem_filter.mp (mem_byCreatedAt.mp hb)
        simp only [Bool.and_eq_true,beq_iff_eq] at this
        exact ⟨this.2.1,this.1⟩
      let T : State → Prop := fun s =>
        Overdue cfg l.tid o s ∧ ∀ b ∈ bonds, ∃ r ∈ s.bonds, b.Becomes r
      have hT : ∀ s s', DutiesKept l.tid s s' → T s → T s' := by
        rintro s s' hk ⟨h,hb⟩
        refine ⟨h.kept hk,fun b hm => ?_⟩
        obtain ⟨r,hr,hbr⟩ := hb b hm
        obtain ⟨r',hr',hrr⟩ := hk.bonds r hr
        exact ⟨r',hr',hbr.trans hrr⟩
      have hs' := hT s _ (dutiesKept_own ext ch hk rfl fun _ h => nomatch h)
        ⟨hs,fun b hb => ⟨b,(hbonds b hb).2,.rfl⟩⟩
      refine System.Sat.bind (System.Sat.bind ((duties_steady.findRangeRootFrom aside_reads _ hs'
        hs'.1.1.read hT).mono fun r s hs => ?_))
      cases r with
      | error e => trivial
      | ok root =>
        refine System.Sat.bind ((resolveSlashTarget_sat hs hs.1.1.read hT).mono fun r s hs => ?_)
        rcases r with e | _ | b
        · trivial
        · exact unslashed_sat (releaseOnTimeout_only hrel _ _)
        · refine System.Sat.bind
            ((slashSide_sat hext hl ⟨hs.1.1,fun hr => ?_⟩).mono fun r s _ => ?_)
          · obtain ⟨hmem,hblamed⟩ := resolveLockedBond_blamed hside (fun b hb => (hbonds b hb).1)
              (hs.2 b rfl hr)
            exact ⟨hs.1.2 b hmem,hblamed⟩
          · cases r with
            | error e => trivial
            | ok _ =>
              refine unslashed_sat (Prog.Only.forEach fun bond => ?_)
              split
              · trivial
              · exact (releaseBond_only (hrel.bond bond)).ignore

theorem Overdue.reset (h : Overdue cfg tid o s) : Overdue cfg tid o.resetForTimeout s := by
  unfold Order.resetForTimeout
  split <;> exact ⟨⟨h.1.waits,h.1.read,h.1.stored⟩,h.2⟩

theorem cancelLateOrder_sat (hext : ext.Documented) (hl : l.req.isTimeoutJob = true) :
    DutySat cfg ext l
      (cancelLateOrder cfg id) (fun _ _ => True) s := by
  refine System.Sat.bind (reconfirmTimeoutEligibility_sat.mono fun r s hs => ?_)
  rcases r with e | _ | o
  · trivial
  · trivial
  · refine System.Sat.bind ((duties_steady.calls (cancelEscrow_only (fun _ => ⟨⟨rfl,rfl⟩,rfl⟩) o)
      (hs o rfl) fun _ _ hk h => h.kept hk).mono fun r s hs => ?_)
    cases r with
    | error e => trivial
    | ok _ =>
      refine System.Sat.bind ((slashOrReleaseOnTimeout_sat hext hl hs.reset).mono fun r s _ => ?_)
      cases r with
      | error e => trivial
      | ok _ =>
        dsimp only
        split
        · exact unslashed_sat (republishOnTimeout_only unslashed_rewrites _)
        · exact unslashed_sat (cancelOnTimeout_only unslashed_rewrites unslashed_closes _)

theorem jobCancelOrders_sat (hext : ext.Documented) (hl : l.req.isTimeoutJob = true) :
    DutySat cfg ext l (jobCancelOrders cfg)
      (fun _ _ => True) s := by
  refine System.Sat.bind ((unslashed_sat (ask_only rfl)).mono fun r s _ => ?_)
  cases r with
  | error e => trivial
  | ok now =>
    refine System.Sat.bind ((unslashed_sat (ask_only rfl)).mono fun r s _ => ?_)
    cases r with
    | error e => trivial
    | ok late =>
      exact System.Sat.forEach trivial fun order _ s _ => (cancelLateOrder_sat hext hl).ignore

end

theorem timeoutJob_code (cfg : Settings) (ext : Externals) {req : Request}
    (h : req.isTimeoutJob = true) : req.code cfg ext = jobCancelOrders cfg := by
  cases req with
  | job j => cases j <;> first | rfl | cases h
  | _ => cases h

theorem timeoutJob_watched (cfg : Settings) {ext : Externals} (hext : ext.Documented) :
    Watched cfg ext (leavesReadOrders cfg) (fun l => l.req.isTimeoutJob = true)
      (fun l => DutiesKept l.tid) (fun _ => RecordsDuty cfg) where
  refl l s := .refl l.tid s
  trans l _ _ _ h h' := h.trans h'
  launch l s s' h l' _ := by
    obtain ⟨_,rfl⟩ := launch_eq h
    exact ⟨fun _ h => h,fun _ h => h,le_rfl,.of_eq rfl,fun r hr _ _ => ⟨r,hr,rfl,rfl⟩⟩
  other l l' op ch ls s hco hl hb hk hd he := by
    have hne : l'.tid ≠ l.tid := Label.coexist_ne hco
    have hkeep : op.keepsDuties l'.tid s = true := by
      have := List.all_eq_true.mp (Bool.and_eq_true_iff.mp hd).1 l' hl
      simpa [hb,hne] using this
    refine ⟨he.hands hne,he.logs.captures,(exec_now ext l.tid op ch s).ge,
      hk.bondsProgress he,?_⟩
    rcases he.rows with h | ⟨st,rfl,h⟩ | ⟨st,rfl,h⟩
    · exact fun r hr _ _ => ⟨r,h.orders ▸ hr,rfl,rfl⟩
    · rw [h]
      exact DutiesKept.orderStmt hkeep
    · rw [h]
      exact fun r hr _ _ => ⟨r,bondStmt_orders st s ▸ hr,rfl,rfl⟩
  env e ls s s' _ he l _ _ :=
    .of_orders (fun _ h => by cases he <;> exact h) he.logs he.now_le
      (.of_eq he.rowsKept.bonds) he.rowsKept.orders
  code l s hb := by
    rw [timeoutJob_code cfg ext hb]
    exact jobCancelOrders_sat hext hb

/-- Each hold invoice is captured once, and a bond of its own that was slashed for a timeout was
captured on its owner's duty. -/
structure DutyInv (cfg : Settings) (s : State) : Prop where
  settled : ∀ k ∈ s.captures, s.holdState k.hash = some .settled
  once : (s.captures.map (·.hash)).Nodup
  slashes_lt : ∀ x ∈ s.slashes, x.bond < s.nextId
  blamed : ∀ x ∈ s.slashes, x.reason = .timeout → ∀ b ∈ s.bonds, b.id = x.bond →
    b.parentBondId = none → ∃ k ∈ s.captures, b.preimage = some k.hash ∧ k.blames cfg b

theorem Effect.captures_cases {s s' : State} (he : Effect tid op s s') :
    s'.captures = s.captures ∨ ∃ h, s.holdState h = some .accepted ∧ s' = s.capture h := by
  cases he with
  | quiet hq =>
    obtain ⟨_,_,rfl⟩ := hq
    exact .inl rfl
  | order st _ => exact .inl (by cases st <;> rfl)
  | bond st _ => exact .inl (bondStmt_rest st s State.captures)
  | settle h _ hst => exact .inr ⟨h,hst,rfl⟩
  | _ => exact .inl rfl

section

variable {cfg : Settings} {s s' : State}

theorem captured_once (hi : DutyInv cfg s) (he : Effect tid op s s') :
    (∀ k ∈ s'.captures, s'.holdState k.hash = some .settled) ∧
      (s'.captures.map (·.hash)).Nodup := by
  have hold : ∀ k ∈ s.captures, s'.holdState k.hash = some .settled := fun k hk =>
    he.holdsProgress.holdState (.inl rfl) (hi.settled k hk)
  rcases he.captures_cases with h | ⟨x,hx,rfl⟩
  · rw [h]
    exact ⟨hold,hi.once⟩
  · obtain ⟨i,hx',_⟩ := holdState_eq_some.mp hx
    refine ⟨fun k hk => ?_,?_⟩
    · rcases List.mem_cons.mp hk with rfl | hk
      · simp [holdState_capture,hx']
      · exact hold k hk
    · refine List.nodup_cons.mpr ⟨fun hmem => ?_,hi.once⟩
      obtain ⟨k,hk,hkx⟩ := List.mem_map.mp hmem
      have := hi.settled k hk
      rw [hkx,hx] at this
      cases this

theorem blamed_bondStmt {req : Request} {Γ : Set Fact} {st : BondStmt} (hc : Consistent s)
    (hi : DutyInv cfg s) (hn : st.need req Γ) (hΓ : ∀ f ∈ Γ, f.Lasts s)
    (hrec : RecordsDuty cfg (.bond st) s) : ∀ x ∈ (st.exec s).1.slashes, x.reason = .timeout →
    ∀ b ∈ (st.exec s).1.bonds, b.id = x.bond → b.parentBondId = none →
      ∃ k ∈ s.captures, b.preimage = some k.hash ∧ k.blames cfg b := by
  intro x hx hreason r hr hid hown
  rcases bondStmt_origin hc hn hΓ hr with ⟨b,hb,hcore,_⟩ | hr
  · have hb' : b.id = x.bond := hcore.id.symm.trans hid
    have : ∃ k ∈ s.captures, b.preimage = some k.hash ∧ k.blames cfg b := by
      rcases bondStmt_slashes hx with hx | ⟨t,share,rfl,_⟩ | ⟨v,rfl,_,rfl⟩
      · exact hi.blamed x hx hreason b hb hb' (hcore.parentBondId.symm.trans hown)
      · exact hrec x.bond t share x.trade (by rw [hreason]) b hb hb'
      · exact absurd hb' (Nat.ne_of_lt (hc.bondIds_lt b hb))
    obtain ⟨k,hk,hp,hbl⟩ := this
    exact ⟨k,hk,hcore.preimage.trans hp,(Capture.blames_core hcore).mpr hbl⟩
  · have hnew := (inserted_spec hn hr).1
    rcases bondStmt_slashes hx with hx | ⟨t,share,rfl,b,hb,hbx⟩ | ⟨v,rfl,hall,rfl⟩
    · exact absurd (hid.symm.trans hnew) (Nat.ne_of_lt (hi.slashes_lt x hx))
    · cases hr
    · simp only [BondStmt.inserted,hall,if_true,List.mem_singleton] at hr
      subst hr
      cases hown

theorem slashes_lt_bondStmt {st : BondStmt} (hc : Consistent s) (hi : DutyInv cfg s) :
    ∀ x ∈ (st.exec s).1.slashes, x.bond < (st.exec s).1.nextId := by
  intro x hx
  have hle := bondStmt_nextId s st
  rcases bondStmt_slashes hx with hx | ⟨_,_,_,b,hb,hid⟩ | ⟨v,rfl,hall,rfl⟩
  · exact lt_of_lt_of_le (hi.slashes_lt x hx) hle
  · exact lt_of_lt_of_le (hid ▸ hc.bondIds_lt b hb) hle
  · simp [BondStmt.exec,hall]

theorem DutyInv.of_bonds (hi : DutyInv cfg s)
    (hsettled : ∀ k ∈ s'.captures, s'.holdState k.hash = some .settled)
    (honce : (s'.captures.map (·.hash)).Nodup) (hcap : s.captures ⊆ s'.captures)
    (hslashes : s'.slashes = s.slashes) (hbonds : s'.bonds = s.bonds)
    (hn : s.nextId ≤ s'.nextId) : DutyInv cfg s' where
  settled := hsettled
  once := honce
  slashes_lt x hx := lt_of_lt_of_le (hi.slashes_lt x (hslashes ▸ hx)) hn
  blamed x hx hreason b hb hid hown := by
    obtain ⟨k,hk,h⟩ := hi.blamed x (hslashes ▸ hx) hreason b (hbonds ▸ hb) hid hown
    exact ⟨k,hcap hk,h⟩

theorem dutyInv_stepInvariant (cfg : Settings) (ext : Externals) :
    StepInvariant ext ((leavesReadOrders cfg).given fun _ op _ s => RecordsDuty cfg op s)
    (DutyInv cfg)
      (fun _ _ _ => True) where
  init s hs := by
    obtain ⟨now,height,rfl⟩ := hs
    have none : ∀ {α : Type} {P : α → Prop}, ∀ a ∈ ([] : List α), P a := by simp
    exact ⟨none,List.nodup_nil,none,none⟩
  launch cfg' l s s' hc hi hl := by
    obtain ⟨_,rfl⟩ := launch_eq hl
    exact ⟨⟨hi.settled,hi.once,fun x hx => Nat.lt_succ_of_lt (hi.slashes_lt x hx),hi.blamed⟩,
      fun _ _ _ _ => trivial⟩
  op l Γ op ch ls s hn hΓ hc hi hd he := by
    refine ⟨?_,fun _ _ _ _ _ => trivial⟩
    obtain ⟨hsettled,honce⟩ := captured_once hi he
    have hcap := he.logs.captures
    rcases he.rows with hk | ⟨st,rfl,h⟩ | ⟨st,rfl,h⟩
    · exact hi.of_bonds hsettled honce hcap hk.slashes hk.bonds hk.nextId
    · refine hi.of_bonds hsettled honce hcap ?_ ?_ he.nextId_le
      · rw [h]
        cases st <;> rfl
      · rw [h]
        exact orderStmt_bonds st
    · refine ⟨hsettled,honce,?_,fun x hx hreason b hb hid hown => ?_⟩
      · rw [h]
        exact slashes_lt_bondStmt hc hi
      · rw [h] at hx hb
        obtain ⟨k,hk,hbl⟩ := blamed_bondStmt hc hi hn (fun f hf => (hΓ f hf).1) hd.2 x hx hreason
          b hb hid hown
        exact ⟨k,hcap hk,hbl⟩
  learn := by intros; trivial
  env e ls s s' hc hi hd he := by
    have hk := he.rowsKept
    have hcap : s'.captures = s.captures := by cases he <;> rfl
    refine ⟨hi.of_bonds (fun k hm => ?_) (hcap ▸ hi.once) he.logs.captures hk.slashes hk.bonds
      hk.nextId,fun _ _ _ _ _ => trivial⟩
    exact hk.holds.holdState (.inl rfl) (hi.settled k (hcap ▸ hm))

end

/-- Where no other task changes whose turn it is on the order the timeout job works on, and the job
comes back to a settled bond of a waiting order only if it was settled on its owner's duty, a bond
of its own that was slashed for a timeout had its hold invoice settled, once, while the stored
order's step was overdue and its owner's. -/
theorem timeout_slash_blames_duty {cfg : Settings} {ext : Externals} (hext : ext.Documented)
    {c : DaemonState} (hc : (daemon cfg ext).Reach (leavesReadOrders cfg) State.Initial c)
    {x : Slash} (hx : x ∈ c.shared.slashes) (hreason : x.reason = .timeout) {b : Bond}
    (hb : b ∈ c.shared.bonds) (hid : b.id = x.bond) (hown : b.parentBondId = none) :
    ∃ k ∈ c.shared.captures, b.preimage = some k.hash ∧ k.blames cfg b ∧
      ∀ k' ∈ c.shared.captures, k'.hash = k.hash → k' = k := by
  have hwatch := timeoutJob_watched cfg hext
  have hgiven : (daemon cfg ext).Reach
      ((leavesReadOrders cfg).given fun _ op _ s => RecordsDuty cfg op s) State.Initial c := by
    refine hc.given fun c hc l op hnext => ?_
    by_cases hl : l.req.isTimeoutJob = true
    · exact hwatch.pre hext hc hnext hl
    · exact .of_not (Bool.eq_false_iff.mpr fun hop =>
        hl ((reach_knowing hext hc hnext).isTimeoutJob hop))
  have hi := ((dutyInv_stepInvariant cfg ext).reach hext hgiven).2
  obtain ⟨k,hk,hp,hbl⟩ := hi.blamed x hx hreason b hb hid hown
  exact ⟨k,hk,hp,hbl,fun k' hk' heq => List.inj_on_of_nodup_map hi.once hk' hk heq⟩

/-- A bonded buyer takes a sell order and lets the time for an invoice pass: order 1, with the
bond 4 and its hold invoice 3. -/
def overdueTake : Schedule :=
  alone 0 (.message (.newOrder ⟨some .sell,5000,100,none,none,none,100000⟩ 7 7 7 none)) 5
  ++ alone 2 (.message (.takeSell ⟨1,8,8,none,none,none⟩)) 13
  ++ .env (.accept 3 100) :: alone 5 (.bondInvoice 3) 11
  ++ [.env (.tick 1000)]

theorem overdue_buyer_blamed :
    ∃ c, (daemon (bondSettings .take 1000) plainExternals).Reach
      (leavesReadOrders (bondSettings .take 1000)) State.Initial c ∧
      ∃ b ∈ c.shared.bonds, b.state = .pendingPayout ∧ ∃ k ∈ c.shared.captures,
        b.preimage = some k.hash ∧ k.blames (bondSettings .take 1000) b := by
  obtain ⟨c,hc,x,hx,hreason,b,hb,hid,hown,hst⟩ := reach_of_schedule (bondSettings .take 1000)
    plainExternals (leavesReadOrders (bondSettings .take 1000))
    (overdueTake ++ alone 6 (.job .cancelOrders) 14)
    (fun s => ∃ x ∈ s.slashes, x.reason = .timeout ∧ ∃ b ∈ s.bonds, b.id = x.bond ∧
      b.parentBondId = none ∧ b.state = .pendingPayout) (by decide +kernel)
  obtain ⟨k,hk,hp,hbl,_⟩ := timeout_slash_blames_duty plainExternals_documented hc hx hreason hb hid
    hown
  exact ⟨c,hc,b,hb,hst,k,hk,hp,hbl⟩

/-- The buyer's invoice arrives after the job's second look at the order and before its settle: the
bond is captured, and slashed for a timeout, while the order waits for the seller. -/
theorem timeout_slash_after_invoice :
    ∃ c, (daemon (bondSettings .take 1000) plainExternals).Reach System.Demand.none State.Initial c
      ∧ ∃ x ∈ c.shared.slashes, x.reason = .timeout ∧ ∃ b ∈ c.shared.bonds, b.id = x.bond ∧
        b.parentBondId = none ∧ b.state = .pendingPayout ∧ ∃ k ∈ c.shared.captures,
          b.preimage = some k.hash ∧ ¬ k.blames (bondSettings .take 1000) b ∧
          ∃ o ∈ k.orders, o.id = b.orderId ∧ o.status = .waitingPayment ∧
            o.buyerPubkey = some b.pubkey :=
  reach_of_schedule (bondSettings .take 1000) plainExternals System.Demand.none
    (overdueTake ++ alone 6 (.job .cancelOrders) 5
      ++ .start ⟨7,.message (.addInvoice 1 8 (some 50))⟩ :: steps 1 9 ++ steps 0 9)
    (fun s => ∃ x ∈ s.slashes, x.reason = .timeout ∧ ∃ b ∈ s.bonds, b.id = x.bond ∧
      b.parentBondId = none ∧ b.state = .pendingPayout ∧ ∃ k ∈ s.captures,
        b.preimage = some k.hash ∧ ¬ k.blames (bondSettings .take 1000) b ∧
        ∃ o ∈ k.orders, o.id = b.orderId ∧ o.status = .waitingPayment ∧
          o.buyerPubkey = some b.pubkey) (by decide +kernel)

end Mostro
