import Mostro.TimeoutRetry

set_option autoImplicit false

/-!
The timeout job and orders that advance.  The job reads an order again right before it acts on it,
then cancels its escrow and writes its row.  Where no other task writes to the order the job is
working on, the order whose escrow it cancels or whose row it writes is still overdue.
-/

namespace Mostro

open Interleaving SqlTable

variable {o : Order} {tid : Nat} {s : State} {D : Requirement} {T : State → Prop} {id : Uuid}

def Order.overdue (cfg : Settings) (now : Int) (o : Order) : Bool :=
  o.waits && decide (o.takenAt < now - cfg.expirationSeconds)

theorem overdue_mono {cfg : Settings} {now now' : Int} (h : now ≤ now')
    (ho : o.overdue cfg now = true) : o.overdue cfg now' = true := by
  simp only [Order.overdue,Bool.and_eq_true,decide_eq_true_eq] at ho ⊢
  exact ⟨ho.1,lt_of_lt_of_le ho.2 (Int.sub_le_sub_right h _)⟩

def Op.leavesRows (tid : Nat) (s : State) (op : Op) : Bool :=
  s.inHand.all fun p => p.1 != tid || decide ((op.written s).ordersAt p.2.id = s.ordersAt p.2.id)

/-- While a timeout pass works on an order, no other task's statement changes the order's row. -/
abbrev leavesTimeoutOrders : Requirement := .check (fun l op _ ls s =>
  ls.all fun l' => !l'.req.isTimeoutJob || l'.tid == l.tid || op.leavesRows l'.tid s)
  fun _ _ _ => true

structure Spared (tid : Nat) (s s' : State) : Prop where
  hands : ∀ x, (tid,x) ∈ s.inHand → (tid,x) ∈ s'.inHand
  orders : ∀ id, s.worksOn tid id = true → s'.ordersAt id = s.ordersAt id
  now : s.now ≤ s'.now
  bonds : BondsProgress s s'

theorem Spared.refl (tid : Nat) (s : State) : Spared tid s s :=
  ⟨fun _ h => h,fun _ _ => rfl,le_rfl,.of_eq rfl⟩

theorem Spared.trans {s₁ s₂ s₃ : State} (h : Spared tid s₁ s₂) (h' : Spared tid s₂ s₃) :
    Spared tid s₁ s₃ where
  hands x hx := h'.hands x (h.hands x hx)
  orders id hw := (h'.orders id (worksOn_mono h.hands hw)).trans (h.orders id hw)
  now := h.now.trans h'.now
  bonds b hb := by
    obtain ⟨x,hx,hbx⟩ := h.bonds b hb
    obtain ⟨y,hy,hxy⟩ := h'.bonds x hx
    exact ⟨y,hy,hbx.trans hxy⟩

theorem spared_own {ext : Externals} {l : Label} {op : Op} {ls : List Label}
    (hk : Knowing l op ls s) (ch : Choice) (h : op.isOrder = false)
    (hw : ∀ id, op = .query (.orderById id) → s.watches l.tid id = true) :
    Spared l.tid s (exec ext l.tid op ch s).1 := by
  have he := exec_effect ext l.tid op ch s
  refine ⟨exec_hands ext op ch hw,fun id _ => ?_,(exec_now ext l.tid op ch s).ge,
    hk.bondsProgress he⟩
  rw [State.ordersAt,he.orders_of_not h]
  rfl

def UndoesOverdue (cfg : Settings) (op : Op) (s : State) : Prop :=
  (∀ h, op = .lnd (.cancelHoldInvoice h) → ∀ r ∈ s.orders, r.order.hash = some h →
    r.order.overdue cfg s.now = true) ∧
  ∀ u, op = .order (.run u) → ∀ r ∈ s.orders, u.selects s r = true →
    r.order.overdue cfg s.now = true ∨ r.order.status = .pending

def Op.isAside (op : Op) : Bool := !op.isOrder && match op with
  | .lnd (.cancelHoldInvoice _) => false
  | _ => true

theorem UndoesOverdue.of_aside {cfg : Settings} {op : Op} (h : op.isAside = true) :
    UndoesOverdue cfg op s := by
  refine ⟨?_,?_⟩
  · rintro x rfl
    cases h
  · rintro u rfl
    cases h

theorem UndoesOverdue.of_cancel {cfg : Settings} {hash : Hash}
    (h : ∀ r ∈ s.orders, r.order.hash = some hash → r.order.overdue cfg s.now = true) :
    UndoesOverdue cfg (.lnd (.cancelHoldInvoice hash)) s := by
  refine ⟨?_,fun u hu => nomatch hu⟩
  rintro _ ⟨⟩
  exact h

theorem Consistent.order_hash_ne (hc : Consistent s) {r : OrderRow} (hr : r ∈ s.orders) {b : Bond}
    (hb : b ∈ s.bonds) {h : Hash} (hh : b.hash = some h) : r.order.hash ≠ some h := by
  intro hrh
  obtain ⟨i,hi,hmemo⟩ := (hc.escrow r hr).2 h hrh
  have hbond := hc.bond b hb
  unfold BondEscrow at hbond
  split at hbond
  · obtain ⟨x,hx,_,⟨j,hj,hmemo'⟩,_⟩ := hbond
    obtain rfl := Option.some.inj (hh.symm.trans hx)
    obtain rfl := Option.some.inj (hi.symm.trans hj)
    exact nomatch hmemo.symm.trans hmemo'
  · exact nomatch hh.symm.trans hbond.1

section

variable {cfg : Settings} {ext : Externals} {l : Label} {α : Type}

abbrev sparesContract (cfg : Settings) : Contract State Label Op :=
  watching (fun l => l.req.isTimeoutJob = true) (fun l => Spared l.tid) fun _ => UndoesOverdue cfg

abbrev SparesSat (D : Requirement) (cfg : Settings) (ext : Externals) (l : Label) {α : Type}
    (p : M α) (Q : Except MostroError α → State → Prop) (s : State) : Prop :=
  (daemon cfg ext).Sat D (sparesContract cfg) l p Q s

structure Late (cfg : Settings) (p : Status → Prop) (tid : Nat) (o : Order) (s : State) : Prop where
  read : ReadBy tid o s
  row : ∀ r ∈ s.orders, r.order.id = o.id →
    r.order.overdue cfg s.now = true ∨ p r.order.status

theorem Late.kept {p : Status → Prop} {s' : State} (hk : Spared tid s s') (h : Late cfg p tid o s) :
    Late cfg p tid o s' := by
  refine ⟨h.read.mono hk.hands,fun r hr hid => ?_⟩
  have hr : r ∈ s'.ordersAt o.id := mem_ordersAt.mpr ⟨hr,hid⟩
  rw [hk.orders o.id h.read.worksOn] at hr
  exact (h.row r (mem_ordersAt.mp hr).1 hid).imp_left (overdue_mono hk.now)

abbrev NotAdvanced (cfg : Settings) : Nat → Order → State → Prop := Late cfg fun _ => False

abbrev Undone (cfg : Settings) : Nat → Order → State → Prop := Late cfg (· = .pending)

def Bond.Known (b : Bond) (s : State) : Prop := ∃ r ∈ s.bonds, b.Becomes r

theorem Bond.Known.kept {b : Bond} {s' : State} (hk : Spared tid s s') (h : b.Known s) :
    b.Known s' := by
  obtain ⟨r,hr,hbr⟩ := h
  obtain ⟨r',hr',hb'⟩ := hk.bonds r hr
  exact ⟨r',hr',hbr.trans hb'⟩

theorem aside_steady : HandKept ext l (Spared l.tid) (UndoesOverdue cfg) fun op =>
    op.isAside = true where
  pre _ _ h := .of_aside h
  hands _ _ h := h.hands
  own _ ch _ _ hop hw hk :=
    spared_own hk ch (by simpa using (Bool.and_eq_true_iff.mp hop).1) hw

theorem releaseBond_spares {b : Bond} (hs : T s) (hT : ∀ s s', Spared l.tid s s' → T s → T s')
    (hb : ∀ s, T s → b.Known s) :
    SparesSat D cfg ext l (releaseBond b) (fun _ s => T s) s := by
  have honly : (releaseBond b).Only fun op => (op.isOrder = false ∧ op.fetches = false) ∧
      ∀ h, op = .lnd (.cancelHoldInvoice h) → b.hash = some h :=
    releaseBond_only ⟨⟨⟨rfl,rfl⟩,nofun⟩,⟨⟨rfl,rfl⟩,nofun⟩,
      fun h hh => ⟨⟨rfl,rfl⟩,fun x hx => by cases hx; exact hh⟩,fun _ => ⟨⟨rfl,rfl⟩,nofun⟩⟩
  refine System.Sat.of_only honly hs (fun s s' hs hr => hT s s' hr hs) fun op _ s hop hs hk => ?_
  refine ⟨⟨fun h hop' r hr hrh => ?_,fun u hu => ?_⟩,
    fun ch _ => hT s _ (spared_own hk ch hop.1.1 fun id hid => ?_) hs⟩
  · obtain ⟨x,hx,hbx⟩ := hb s hs
    have hh : x.hash = some h := hbx.1.hash.trans (hop.2 h hop')
    exact absurd hrh (hk.consistent.order_hash_ne hr hx hh)
  · rw [hu] at hop
    exact nomatch hop.1.1
  · rw [hid] at hop
    exact nomatch hop.1.2

theorem asideCalls_reads : Reads fun op => op.isAside = true := ⟨fun _ => rfl,rfl⟩

theorem aside_slashes : Slashes fun op => op.isAside = true where
  query _ := rfl
  timestamp := rfl
  insert _ := rfl
  share _ := rfl
  settle _ := rfl
  slash _ _ _ _ _ := rfl

theorem activeBonds_known {f : List Bond → M α} {Q : Except MostroError α → State → Prop} (hs : T s)
    (hT : ∀ s s', Spared l.tid s s' → T s → T s')
    (hok : ∀ bonds s, T s → (∀ b ∈ bonds, b.Known s) →
      SparesSat D cfg ext l (f bonds) Q s)
    (herr : ∀ e s, T s → Q (.error e) s) :
    SparesSat D cfg ext l
      ((query (.findActiveBondsForOrder id)).bind f) Q s := by
  refine sat_ask_bind hs (fun s s' hk h => hT s s' hk h) fun s ls hs hk => ⟨.of_aside rfl,?_⟩
  intro ch _
  have hT' : T (exec ext l.tid (.query (.findActiveBondsForOrder id)) ch s).1 :=
    hT s _ (spared_own hk ch rfl fun _ h => nomatch h) hs
  refine ⟨fun bonds hres => hok bonds _ hT' fun b hb => ?_,fun e _ => herr e _ hT'⟩
  have hmem : b ∈ s.bonds := by
    rw [← (exec_query_ok hres).2] at hb
    exact (List.mem_filter.mp (mem_byCreatedAt.mp hb)).1
  exact Bond.Known.kept (spared_own hk ch rfl fun _ h => nomatch h) ⟨b,hmem,.rfl⟩

theorem releases_spare {bonds : List Bond} {skip : Bond → Bool} (hs : T s)
    (hb : ∀ b ∈ bonds, b.Known s) (hT : ∀ s s', Spared l.tid s s' → T s → T s') :
    SparesSat D cfg ext l
      (Prog.forEach bonds fun b => if skip b then pure () else (releaseBond b).ignore)
      (fun _ s => T s) s := by
  refine System.Sat.mono (System.Sat.forEach (P := fun s => T s ∧ ∀ b ∈ bonds, b.Known s) ⟨hs,hb⟩
    fun b hmem s hs => ?_) fun _ _ h => h.1
  split
  · exact hs
  · exact (releaseBond_spares hs (fun s s' hk h => ⟨hT s s' hk h.1,fun b hb => (h.2 b hb).kept hk⟩)
      fun s h => h.2 b hmem).ignore

theorem releaseActiveBonds_spares {retain : Bool} (hs : T s)
    (hT : ∀ s s', Spared l.tid s s' → T s → T s') :
    SparesSat D cfg ext l (releaseActiveBonds id retain)
      (fun _ s => T s) s :=
  activeBonds_known hs hT (fun _ _ hs hb => releases_spare hs hb hT) fun _ _ hs => hs

theorem releaseOnTimeout_spares {republishes : Bool} (hs : T s)
    (hT : ∀ s s', Spared l.tid s s' → T s → T s') :
    SparesSat D cfg ext l (releaseOnTimeout id republishes)
      (fun _ s => T s) s := by
  unfold releaseOnTimeout
  split
  · exact (releaseActiveBonds_spares hs hT).ignore
  · exact (releaseActiveBonds_spares hs hT).ignore

theorem slashOrReleaseOnTimeout_spares (hs : T s) (hread : ∀ s, T s → ReadBy l.tid o s)
    (hT : ∀ s s', Spared l.tid s s' → T s → T s') :
    SparesSat D cfg ext l (slashOrReleaseOnTimeout cfg o)
      (fun _ s => T s) s := by
  unfold slashOrReleaseOnTimeout
  split
  · exact (releaseActiveBonds_spares hs hT).ignore
  next side _ =>
    split
    · exact releaseOnTimeout_spares hs hT
    · refine activeBonds_known hs hT (fun bonds s hs hb => ?_) fun _ _ hs => hs
      let T' : State → Prop := fun s => T s ∧ ∀ b ∈ bonds, b.Known s
      have hT' : ∀ s s', Spared l.tid s s' → T' s → T' s' :=
        fun s s' hk h => ⟨hT s s' hk h.1,fun b hb => (h.2 b hb).kept hk⟩
      refine System.Sat.bind (System.Sat.bind ((aside_steady.findRangeRootFrom (T := T')
        asideCalls_reads _ ⟨hs,hb⟩ (hread s hs) hT').mono fun r s hs => ?_))
      cases r with
      | error e => exact hs.1
      | ok root =>
        refine System.Sat.bind ((aside_steady.resolveSlashTarget (T := T') asideCalls_reads hs
          (hread s hs.1) hT').mono fun r s hs => ?_)
        rcases r with e | _ | target
        · exact hs.1
        · exact releaseOnTimeout_spares hs.1 hT
        · refine System.Sat.bind ((aside_steady.slashSide (T := T') aside_slashes hs
            (hread s hs.1) hT').mono fun r s hs => ?_)
          cases r with
          | error e => exact hs.1
          | ok _ => exact releases_spare hs.1 hs.2 hT

structure Confirmed (cfg : Settings) (tid : Nat) (o : Order) (s : State) : Prop where
  read : ReadBy tid o s
  stored : ∃ r ∈ s.orders, r.order = o
  same : ∀ r ∈ s.orders, r.order.id = o.id → r.order = o
  overdue : o.overdue cfg s.now = true

theorem Confirmed.kept {s' : State} (hk : Spared tid s s') (h : Confirmed cfg tid o s) :
    Confirmed cfg tid o s' := by
  have hrows : s'.ordersAt o.id = s.ordersAt o.id := hk.orders o.id h.read.worksOn
  obtain ⟨r,hr,hro⟩ := h.stored
  refine ⟨h.read.mono hk.hands,⟨r,?_,hro⟩,fun r hr hid => h.same r ?_ hid,
    overdue_mono hk.now h.overdue⟩
  · have : r ∈ s.ordersAt o.id := mem_ordersAt.mpr ⟨hr,hro ▸ rfl⟩
    exact (mem_ordersAt.mp (hrows ▸ this)).1
  · have : r ∈ s'.ordersAt o.id := mem_ordersAt.mpr ⟨hr,hid⟩
    exact (mem_ordersAt.mp (hrows ▸ this)).1

theorem Confirmed.reset (h : Confirmed cfg tid o s) : NotAdvanced cfg tid o.resetForTimeout s := by
  have hrow : ∀ r ∈ s.orders, r.order.id = o.id → r.order.overdue cfg s.now = true :=
    fun r hr hid => h.same r hr hid ▸ h.overdue
  unfold Order.resetForTimeout
  split <;> exact ⟨h.read,fun r hr hid => .inl (hrow r hr hid)⟩

theorem reconfirm_confirms :
    SparesSat D cfg ext l (reconfirmTimeoutEligibility cfg id)
      (fun r s => ∀ o, r = .ok (some o) → Confirmed cfg l.tid o s) s := by
  refine sat_ask_attempt_bind (T := fun _ => True) trivial (fun _ _ _ h => h) fun s ls _ hk =>
    ⟨.of_aside rfl,fun ch _ => ?_⟩
  generalize hres : (exec ext l.tid (.query (.orderById id)) ch s).2 = found
  -- what was found is stored, and stays so until the clock is read
  let Found : State → Prop := fun s => ∀ o, found = .ok (some o) → ReadBy l.tid o s ∧
    s.ordersAt o.id ≠ [] ∧ ∀ r ∈ s.ordersAt o.id, r.order = o
  have hfound : Found (exec ext l.tid (.query (.orderById id)) ch s).1 := by
    rintro o rfl
    obtain ⟨hread,r,hr,rfl⟩ := orderById_read hres
    have hmem := List.mem_of_find?_eq_some hr
    refine ⟨hread,List.ne_nil_of_mem (mem_ordersAt.mpr ⟨hmem,rfl⟩),fun r' hr' => ?_⟩
    obtain ⟨hr',hid⟩ := mem_ordersAt.mp hr'
    rw [(exec_query_ok hres).1] at hr' hmem
    rw [hk.consistent.order_unique hr' hmem hid]
  have hkept : ∀ s s', Spared l.tid s s' → Found s → Found s' := by
    intro s s' hk h o ho
    obtain ⟨hread,hrows⟩ := h o ho
    rw [← hk.orders o.id hread.worksOn] at hrows
    exact ⟨hread.mono hk.hands,hrows⟩
  refine sat_ask_bind (T := Found) hfound hkept fun s ls hs hk => ?_
  refine ⟨.of_aside rfl,fun ch _ => ⟨fun now hnow => ?_,fun e he => nomatch he⟩⟩
  cases hnow
  intro o ho
  obtain ⟨hfound,hwaits,hlate⟩ := reconfirmed ho
  obtain ⟨hread,hne,hrow⟩ := hs o hfound
  obtain ⟨r,hr⟩ := List.exists_mem_of_ne_nil _ hne
  refine ⟨hread,⟨r,(mem_ordersAt.mp hr).1,hrow r hr⟩,fun r hr hid => hrow r (mem_ordersAt.mpr
    ⟨hr,hid⟩),?_⟩
  rw [Order.overdue,hwaits]
  exact decide_eq_true hlate

theorem Consistent.escrow_unique (hc : Consistent s) {r r' : OrderRow} (hr : r ∈ s.orders)
    (hr' : r' ∈ s.orders) {h : Hash} (hh : r.order.hash = some h) (hh' : r'.order.hash = some h) :
    r.order.id = r'.order.id := by
  obtain ⟨i,hi,hmemo⟩ := (hc.escrow r hr).2 h hh
  obtain ⟨j,hj,hmemo'⟩ := (hc.escrow r' hr').2 h hh'
  obtain rfl := Option.some.inj (hi.symm.trans hj)
  exact HoldMemo.escrow.inj (hmemo.symm.trans hmemo')

theorem cancelEscrow_spares (hs : Confirmed cfg l.tid o s) :
    SparesSat D cfg ext l (cancelEscrow o)
      (fun _ s => Confirmed cfg l.tid o s) s := by
  unfold cancelEscrow
  split
  next hash hh =>
    refine sat_ask hs (fun _ _ hk h => h.kept hk) fun s ls hs hk =>
      ⟨.of_cancel fun r hr hrh => ?_,fun ch _ => hs.kept
      (spared_own hk ch rfl fun _ h => nomatch h)⟩
    obtain ⟨r',hr',hro⟩ := hs.stored
    have hid : r.order.id = r'.order.id :=
      hk.consistent.escrow_unique hr hr' hrh (hro ▸ hh)
    rw [hs.same r hr (hro ▸ hid)]
    exact hs.overdue
  · exact hs

theorem findMakerBond_known {f : Option Bond → M α} {Q : Except MostroError α → State → Prop}
    (hs : T s) (hread : ReadBy l.tid o s) (hT : ∀ s s', Spared l.tid s s' → T s → T s')
    (hok : ∀ found s, T s → (∀ b, found = some b → b.Known s) →
      SparesSat D cfg ext l (f found) Q s)
    (herr : ∀ e s, T s → Q (.error e) s) :
    SparesSat D cfg ext l ((findMakerBondForOrder o).bind f) Q s := by
  refine sat_bind_assoc
    (System.Sat.bind ((aside_steady.findRangeRootFrom (T := T) asideCalls_reads _
    hs hread hT).mono fun r s hs => ?_))
  cases r with
  | error e => exact herr e s hs
  | ok root =>
    refine sat_ask_bind hs hT fun s ls hs hk => ⟨.of_aside rfl,fun ch _ => ?_⟩
    have hT' : T (exec ext l.tid (.query (.findBondByOrderAndRole root.id .maker)) ch s).1 :=
      hT s _ (spared_own hk ch rfl fun _ h => nomatch h) hs
    refine ⟨fun found hres => hok found _ hT' fun b hb => ?_,fun e _ => herr e _ hT'⟩
    refine Bond.Known.kept (spared_own hk ch rfl fun _ h => nomatch h) ⟨b,?_,.rfl⟩
    have hrun := (exec_query_ok hres).2
    rw [hb] at hrun
    exact List.mem_of_find?_eq_some hrun

theorem resolveRange_spares (hread : ReadBy l.tid o s) :
    SparesSat D cfg ext l (resolveRangeMakerBondAtClose o)
      (fun _ _ => True) s := by
  refine findMakerBond_known (T := ReadBy l.tid o) hread hread (fun _ _ hk h => h.mono hk.hands)
    (fun found s hread hb => ?_) fun _ _ _ => trivial
  cases found with
  | none => trivial
  | some parent =>
    have hb := hb parent rfl
    have hT : ∀ s s', Spared l.tid s s' → parent.Known s → parent.Known s' :=
      fun s s' hk h => h.kept hk
    dsimp only
    split
    · trivial
    · refine System.Sat.bind ((aside_steady.findRangeRootFrom (T := parent.Known) asideCalls_reads _
        hb hread hT).mono fun r s hb => ?_)
      cases r with
      | error e => trivial
      | ok root =>
        have hrest : ∀ (slices : List Bond) (s : State), parent.Known s →
            SparesSat D cfg ext l
              (if (slices.map (·.amountSats)).sum = 0 then releaseBond parent
               else settleRangeAtClose root.id parent slices) (fun _ _ => True) s := by
          intro slices s hb
          split
          · exact (releaseBond_spares hb hT fun _ h => h).mono fun _ _ _ => trivial
          · have hclose := settleRangeAtClose_only
              (P := fun op => op.isAside = true ∧ op.fetches = false) (fun _ => ⟨rfl,rfl⟩) ⟨rfl,rfl⟩
              (fun _ => ⟨rfl,rfl⟩) root.id parent slices
            exact (aside_steady.calls hclose hb hT).mono fun _ _ _ => trivial
        dsimp only
        split
        · refine System.Sat.bind ((aside_steady.calls (T := parent.Known)
            (A := fun op => op.isAside = true) (ask_only ⟨rfl,rfl⟩) hb hT).mono
            fun r s hb => ?_)
          cases r with
          | error e => trivial
          | ok children => exact hrest _ s hb
        · exact hrest [] s hb

theorem resolveRangeOrWarn_spares (hread : ReadBy l.tid o s) :
    SparesSat D cfg ext l (resolveRangeMakerBondAtCloseOrWarn o)
      (fun _ _ => True) s := by
  refine System.Sat.bind (System.Sat.attempt ((aside_steady.findMakerBondForOrder asideCalls_reads
    hread hread fun _ _ hk h => h.mono hk.hands).mono fun r s hread => ?_))
  rcases r with e | _ | b
  · trivial
  · trivial
  · dsimp only
    split
    · trivial
    · refine System.Sat.bind (System.Sat.attempt ((aside_steady.calls
        (A := fun op => op.isAside = true) (ask_only ⟨rfl,rfl⟩) hread fun _ _ hk h =>
        h.mono hk.hands).mono fun r s hread => ?_))
      cases r with
      | ok _ => exact (resolveRange_spares hread).ignore
      | error _ => trivial

theorem Undone.undoes {u : OrderUpdate} (h : Undone cfg tid o s) (hu : u.target = o.id) :
    UndoesOverdue cfg (.order (.run u)) s := by
  refine ⟨fun h hop => (nomatch hop),?_⟩
  rintro _ ⟨⟩ r hr hsel
  exact h.row r hr ((orderUpdate_id hsel).trans hu)

theorem Undone.write {tid' : Nat} {u : OrderUpdate} (h : Undone cfg tid o s)
    (hset : ∀ r ∈ s.orders, u.selects s r = true → (u.set r).order.status = .pending ∨
      (u.set r).order.status = r.order.status ∧ (u.set r).order.takenAt = r.order.takenAt) :
    Undone cfg tid o ((OrderStmt.run u).exec tid' s).1 := by
  refine ⟨h.read,fun r hr hid => ?_⟩
  obtain ⟨q,hq,rfl⟩ := mem_updateWhere.mp hr
  split at hid
  next hsel =>
    rw [if_pos hsel]
    rcases hset q hq hsel with hp | ⟨hst,ht⟩
    · exact .inr hp
    · have hqid : q.order.id = o.id := (orderUpdate_set_id hsel).symm.trans hid
      rcases h.row q hq hqid with hover | hp
      · have hnow : ((OrderStmt.run u).exec tid' s).1.now = s.now := rfl
        left
        simpa only [Order.overdue,Order.waits,hst,ht,hnow] using hover
      · exact .inr (hst.trans hp)
  next hsel =>
    rw [if_neg hsel]
    exact h.row q hq hid

theorem undone_edit {tid' : Nat} (h : Undone cfg tid o s) :
    Undone cfg tid o ((OrderStmt.run (.editPubkeysOrder o.id o.kind)).exec tid' s).1 :=
  h.write fun r _ _ => .inr (by cases o.kind <;> exact ⟨rfl,rfl⟩)

theorem editPubkeysOrder_spares (hs : Undone cfg l.tid o s) :
    SparesSat D cfg ext l (editPubkeysOrder o)
      (fun r s => ∀ edited, r = .ok edited → Undone cfg l.tid o s ∧ edited.id = o.id) s := by
  refine sat_ask_bind (T := Undone cfg l.tid o) hs (fun _ _ hk h => h.kept hk) fun s ls hs hk =>
    ⟨hs.undoes rfl,fun ch _ => ⟨fun n hn => ?_,fun e he x hx => nomatch hx⟩⟩
  have hs : Undone cfg l.tid o
      (exec ext l.tid (.order (.run (.editPubkeysOrder o.id o.kind))) ch s).1 := by
    rw [(exec_order_ok hn).1]
    exact undone_edit hs
  refine sat_ensure_bind (fun _ => ?_) fun _ x hx => nomatch hx
  refine sat_ask_bind (T := Undone cfg l.tid o) hs (fun _ _ hk h => h.kept hk) fun s ls hs hk =>
    ⟨.of_aside rfl,fun ch _ => ⟨fun found hres => ?_,fun e he x hx => nomatch hx⟩⟩
  cases found with
  | none => exact fun x hx => nomatch hx
  | some edited =>
    intro x hx
    cases hx
    obtain ⟨r,hr,hro⟩ := Option.map_eq_some_iff.mp (exec_query_ok hres).2
    refine ⟨hs.kept (spared_own hk ch rfl fun id h => by cases h; exact hs.read.watches),?_⟩
    rw [← hro]
    simpa using List.find?_some hr

theorem publishAndUpdate_spares {edited known : Order} {status : Status} (hs : Undone cfg l.tid o s)
    (hid : edited.id = o.id) :
    SparesSat D cfg ext l
      ((updateOrderEvent status edited).bind fun updated => updateOrder known updated)
      (fun _ s => ReadBy l.tid o s) s := by
  refine sat_bind_assoc (sat_ask_bind (T := Undone cfg l.tid o) hs (fun _ _ hk h => h.kept hk)
    fun s ls hs hk => ?_)
  refine ⟨.of_aside rfl,fun ch _ => ?_⟩
  have hs : Undone cfg l.tid o (exec ext l.tid (.updateOrderEvent edited.id status) ch s).1 :=
    hs.kept (spared_own hk ch rfl fun _ h => nomatch h)
  refine ⟨fun _ _ => ?_,fun _ _ => hs.read⟩
  refine sat_ask_bind (T := Undone cfg l.tid o) hs (fun _ _ hk h => h.kept hk) fun s ls hs hk =>
    ⟨hs.undoes hid,fun ch _ => ?_⟩
  have hread := hs.read.mono
    (exec_hands ext (.order (.run (.update known { edited with status }))) ch fun _ h => nomatch h)
  exact ⟨fun _ _ => hread,fun _ _ => hread⟩

theorem republishOnTimeout_spares (hs : Undone cfg l.tid o s) :
    SparesSat D cfg ext l (republishOnTimeout o) (fun _ _ => True) s := by
  refine sat_ask_attempt_bind (T := Undone cfg l.tid o) hs (fun _ _ hk h => h.kept hk)
    fun s ls hs hk => ⟨hs.undoes rfl,fun ch _ => ?_⟩
  have hs : Undone cfg l.tid o (exec ext l.tid (.order (.run
      (.updateOrderToInitialState o o.amount o.fee o.devFee))) ch s).1 := by
    simp only [exec,orFault]
    split
    · exact hs
    · exact hs.write fun r _ _ => .inl rfl
  refine System.Sat.bind ((editPubkeysOrder_spares hs).mono fun r s h => ?_)
  cases r with
  | error e => trivial
  | ok edited =>
    exact (publishAndUpdate_spares (h edited rfl).1 (h edited rfl).2).mono fun _ _ _ => trivial

theorem cancelOnTimeout_spares (hs : Undone cfg l.tid o s) :
    SparesSat D cfg ext l (cancelOnTimeout o) (fun _ _ => True) s := by
  refine System.Sat.bind ((editPubkeysOrder_spares hs).mono fun r s h => ?_)
  cases r with
  | error e => trivial
  | ok edited =>
    refine sat_assoc_bind (System.Sat.bind ((publishAndUpdate_spares (h edited rfl).1
      (h edited rfl).2).mono fun r s hread => ?_))
    cases r with
    | error e => trivial
    | ok _ => exact resolveRangeOrWarn_spares hread

theorem cancelLateOrder_spares :
    SparesSat D cfg ext l (cancelLateOrder cfg id) (fun _ _ => True) s := by
  refine System.Sat.bind (reconfirm_confirms.mono fun r s hs => ?_)
  rcases r with e | _ | o
  · trivial
  · trivial
  · refine System.Sat.bind ((cancelEscrow_spares (hs o rfl)).mono fun r s hs => ?_)
    cases r with
    | error e => trivial
    | ok _ =>
      refine System.Sat.bind ((slashOrReleaseOnTimeout_spares hs.reset (fun _ h => h.read)
        fun _ _ hk h => h.kept hk).mono fun r s hs => ?_)
      cases r with
      | error e => trivial
      | ok _ =>
        have hs : Undone cfg l.tid o.resetForTimeout s :=
          ⟨hs.read,fun r hr hid => (hs.row r hr hid).imp_right False.elim⟩
        dsimp only
        split
        · exact republishOnTimeout_spares hs
        · exact cancelOnTimeout_spares hs

theorem jobCancelOrders_spares :
    SparesSat D cfg ext l (jobCancelOrders cfg) (fun _ _ => True) s := by
  have hask {op : Op} (hop : op.isAside = true ∧ op.fetches = false) {s : State} :
      SparesSat D cfg ext l (ask op) (fun _ _ => True) s :=
    aside_steady.calls (ask_only hop) trivial fun _ _ _ _ => trivial
  refine System.Sat.bind ((hask ⟨rfl,rfl⟩).mono fun r s _ => ?_)
  cases r with
  | error e => trivial
  | ok now =>
    refine System.Sat.bind ((hask ⟨rfl,rfl⟩).mono fun r s _ => ?_)
    cases r with
    | error e => trivial
    | ok late =>
      exact System.Sat.forEach trivial fun order _ s _ => cancelLateOrder_spares.ignore

end

theorem timeoutJob_spares (cfg : Settings) (ext : Externals) :
    Watched cfg ext leavesTimeoutOrders (fun l => l.req.isTimeoutJob = true)
      (fun l => Spared l.tid) (fun _ => UndoesOverdue cfg) where
  refl l s := .refl l.tid s
  trans l _ _ _ h h' := h.trans h'
  launch l s s' h l' _ := by
    obtain ⟨_,rfl⟩ := launch_eq h
    exact ⟨fun _ h => h,fun _ _ => rfl,le_rfl,.of_eq rfl⟩
  other l l' op ch ls s hco hl hb hk hd he := by
    have hne : l'.tid ≠ l.tid := Label.coexist_ne hco
    have hleaves : op.leavesRows l'.tid s = true := by
      have := List.all_eq_true.mp hd l' hl
      simpa [hb,hne] using this
    refine ⟨he.hands hne,fun id hw => he.ordersAt ?_,(exec_now ext l.tid op ch s).ge,
      hk.bondsProgress he⟩
    obtain ⟨x,hx,rfl⟩ := worksOn_iff.mp hw
    simpa using List.all_eq_true.mp hleaves _ hx
  env e ls s s' _ he l _ _ := by
    refine ⟨he.undisturbed.hands,fun id _ => ?_,he.now_le,.of_eq he.rowsKept.bonds⟩
    rw [State.ordersAt,he.rowsKept.orders]
    rfl
  code l s hb := by
    rw [timeoutJob_code cfg ext hb]
    exact jobCancelOrders_spares

/-- Where no other task writes to the order the timeout job works on, the job cancels the escrow of
an order, and writes its row, only while the order's step is overdue; a row it has itself put back
it may write again. -/
theorem timeout_spares_progress {cfg : Settings} {ext : Externals} (hext : ext.Documented)
    {c : DaemonState} (hc : (daemon cfg ext).Reach leavesTimeoutOrders State.Initial c) {l : Label}
    {op : Op} (hl : l.req.isTimeoutJob = true) (hnext : c.AboutTo l op) {r : OrderRow}
    (hr : r ∈ c.shared.orders) :
    (∀ h, op = .lnd (.cancelHoldInvoice h) → r.order.hash = some h →
      r.order.overdue cfg c.shared.now = true) ∧
    ∀ u, op = .order (.run u) → u.selects c.shared r = true →
      r.order.overdue cfg c.shared.now = true ∨ r.order.status = .pending := by
  obtain ⟨hcancel,hwrite⟩ := (timeoutJob_spares cfg ext).pre hext hc hnext hl
  exact ⟨fun h hop => hcancel h hop r hr,fun u hop => hwrite u hop r hr⟩

/-- A taken sell order whose seller has not paid for too long; the timeout job has looked at it a
second time and is about to act. -/
def timeoutConfirmed : Schedule :=
  .env (.tick 10) :: takenSell ++ .env (.tick 1000) :: alone 4 (.job .cancelOrders) 4

def cancelsEscrowAt (status : Status) (l : Label) (op : Op) (s : State) : Bool :=
  l.req.isTimeoutJob && s.orders.any fun r => r.order.id == 1 && r.order.status == status
    && match op with
      | .lnd (.cancelHoldInvoice h) => r.order.hash == some h
      | _ => false

theorem cancelsEscrowAt_spec {status : Status} {l : Label} {op : Op}
    (h : cancelsEscrowAt status l op s = true) : l.req.isTimeoutJob = true ∧ ∃ h,
      op = .lnd (.cancelHoldInvoice h) ∧ ∃ r ∈ s.orders, r.order.hash = some h ∧
        r.order.status = status := by
  obtain ⟨hl,hrow⟩ := Bool.and_eq_true_iff.mp h
  obtain ⟨r,hr,heq⟩ := List.any_eq_true.mp hrow
  simp only [Bool.and_eq_true,beq_iff_eq] at heq
  obtain ⟨⟨_,hst⟩,hop⟩ := heq
  refine ⟨hl,?_⟩
  split at hop
  next x => exact ⟨x,rfl,r,hr,beq_iff_eq.mp hop,hst⟩
  · cases hop

theorem overdue_escrow_canceled :
    ∃ c l h, (daemon plainSettings plainExternals).Reach leavesTimeoutOrders State.Initial c ∧
      l.req.isTimeoutJob = true ∧ c.AboutTo l (.lnd (.cancelHoldInvoice h)) ∧
      ∃ r ∈ c.shared.orders, r.order.hash = some h ∧
        r.order.overdue plainSettings c.shared.now = true := by
  obtain ⟨c,l,op,hc,hnext,hop⟩ := aboutTo_of_schedule plainSettings plainExternals
    leavesTimeoutOrders timeoutConfirmed (cancelsEscrowAt .waitingPayment) (by decide +kernel)
  obtain ⟨hl,h,rfl,r,hr,hh,_⟩ := cancelsEscrowAt_spec hop
  exact ⟨c,l,h,hc,hl,hnext,r,hr,hh,
    (timeout_spares_progress plainExternals_documented hc hl hnext hr).1 h rfl hh⟩

/-- The seller pays between the second look and the cancel: the order is active when the job
cancels its escrow. -/
theorem active_escrow_canceled :
    ∃ c l h, (daemon plainSettings plainExternals).Reach System.Demand.none State.Initial c ∧
      l.req.isTimeoutJob = true ∧ c.AboutTo l (.lnd (.cancelHoldInvoice h)) ∧
      ∃ r ∈ c.shared.orders, r.order.hash = some h ∧ r.order.status = .active := by
  obtain ⟨c,l,op,hc,hnext,hop⟩ := aboutTo_of_schedule plainSettings plainExternals
    System.Demand.none (timeoutConfirmed ++ .env (.accept 3 100) :: .start ⟨5,.escrowInvoice 3⟩
      :: steps 1 6) (cancelsEscrowAt .active) (by decide +kernel)
  obtain ⟨hl,h,rfl,r,hr,hh,hst⟩ := cancelsEscrowAt_spec hop
  exact ⟨c,l,h,hc,hl,hnext,r,hr,hh,hst⟩

end Mostro
