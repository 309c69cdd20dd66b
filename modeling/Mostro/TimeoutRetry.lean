import Mostro.TimeoutSlash

set_option autoImplicit false

/-!
Retrying a timeout slash.  The timeout job slashes before it takes the order out of its waiting
status, so that a slash that did not land can be tried again.  Where the node and the database
carry the slash out, the job writes a waiting order only once the slash is recorded or none is
due.
-/

namespace Mostro

open Interleaving SqlTable

variable {o : Order} {s s' : State} {tid : Nat} {D : Requirement} {id : Uuid}

/-- While the timeout job works on an order, no other task writes to the order, to the order's
parent or to their bonds; its slashes are carried out, and the keys of an order tell whose its
bonds are. -/
abbrev slashesLand : Requirement := .check (fun l op ch ls s =>
  (ls.all fun l' => !l'.req.isTimeoutJob || l'.tid == l.tid || op.leaves l'.tid s)
    && (!l.req.isTimeoutJob || op.slashLands ch s && op.keysHold s)) fun _ _ _ => true

/-- The operation ends the wait for the party: it writes the order, or releases a bond the party has
locked on it.  A task that has a slice of the order in hand closes the range. -/
def Op.GivesUp (tid : Nat) (op : Op) (s : State) (r : OrderRow) (side : Side) : Prop :=
  (∃ u, op = .order (.run u) ∧ u.selects s r = true) ∨
    ∃ u b, op = .bond (.run u) ∧ b ∈ s.bonds ∧ u.selects s b = true ∧
      (u.set s b).state = .released ∧ b.state = .locked ∧ b.orderId = r.order.id ∧
      (r.order.defaulter side).Owns s b ∧
      ∀ x, (tid,x) ∈ s.inHand → x.rangeParentId ≠ some r.order.id

def SlashedFirst (cfg : Settings) (l : Label) (op : Op) (s : State) : Prop :=
  ∀ r ∈ s.orders, ∀ side, op.GivesUp l.tid s r side → responsibleSide r.order.status = some side →
    timeoutSlashArmed cfg (sideIsMaker r.order side) = true → (r.order.defaulter side).Settled s

theorem slashedFirst_retains (cfg : Settings) (l : Label) (op : Op) (s : State)
    (h : op.retains = true) : SlashedFirst cfg l op s := by
  rintro r _ side (⟨u,rfl,_⟩ | ⟨u,b,rfl,_,_,hset,hst,_⟩)
  · cases h
  · cases u with
    | update => cases h
    | _ => simp [BondUpdate.set,hst] at hset

theorem slashedFirst_call (cfg : Settings) (l : Label) (op : Op) (s : State)
    (h : op.isCall = true) : SlashedFirst cfg l op s :=
  slashedFirst_retains cfg l op s (retains_of_isCall h)

section

variable {cfg : Settings} {ext : Externals} {l : Label} {α : Type} {T : State → Prop} {tid' : Nat}

abbrev retryContract (cfg : Settings) : Contract State Label Op :=
  watchingOrders (fun l => l.req.isTimeoutJob = true) (SlashedFirst cfg)

theorem slashesLand_lands (hl : l.req.isTimeoutJob = true) :
    ∀ op ch ls s, slashesLand.onOp l op ch ls s → op.slashLands ch s = true := by
  intro op ch ls s hd
  have hlands := (Bool.and_eq_true_iff.mp hd).2
  simp only [hl,Bool.not_true,Bool.false_or,Bool.and_eq_true] at hlands
  exact hlands.1

theorem slashesLand_keys (hl : l.req.isTimeoutJob = true) {ch : Choice} {ls : List Label}
    {bonds : List Bond} (hs : Tracked l.tid o s)
    (hactive : ∀ b, b ∈ bonds ↔ b ∈ s.bonds ∧ b.orderId = o.id ∧ b.state.isActive = true)
    (hd : slashesLand.onOp l (.query (.findActiveBondsForOrder o.id)) ch ls s) :
    ∀ b ∈ bonds, o.keysBond b = true := by
  intro b hb
  have hkeys := (Bool.and_eq_true_iff.mp hd).2
  simp only [hl,Bool.not_true,Bool.false_or,Bool.and_eq_true] at hkeys
  obtain ⟨r,hr,hid⟩ := hs.stored
  obtain ⟨_,hkind,hsame⟩ := hs.same r hr hid
  obtain ⟨hb,horder,hst⟩ := (hactive b).mp hb
  have hrow := List.all_eq_true.mp hkeys.2 r hr
  simp only [hid,bne_self_eq_false,Bool.false_or] at hrow
  have hbond := List.all_eq_true.mp hrow b hb
  simp only [horder,bne_self_eq_false,hst,Bool.not_true,Bool.false_or] at hbond
  rwa [keysBond_congr hkind hsame] at hbond

def Ready (cfg : Settings) (tid : Nat) (o : Order) (s : State) : Prop :=
  Tracked tid o s ∧ ∀ side, responsibleSide o.status = some side →
    timeoutSlashArmed cfg (sideIsMaker o side) = true → Handled tid (o.defaulter side) s

structure Served (cfg : Settings) (tid : Nat) (o : Order) (s : State) : Prop where
  read : ReadBy tid o s
  handled : ∀ r ∈ s.orders, r.order.id = o.id → ∀ side,
    responsibleSide r.order.status = some side →
    timeoutSlashArmed cfg (sideIsMaker r.order side) = true →
    Handled tid (r.order.defaulter side) s

theorem Ready.served (h : Ready cfg tid o s) :
    Served cfg tid o s where
  read := h.1.read
  handled r hr hid side hside harmed := by
    obtain ⟨hst,_,hsame⟩ := h.1.same r hr hid
    have hmaker : sideIsMaker r.order side = sideIsMaker o side :=
      congrArg Defaulter.isMaker (hsame side)
    rw [hsame side]
    exact h.2 side (hst ▸ hside) (hmaker ▸ harmed)

theorem Served.kept (hk : Undisturbed tid s s') (h : Served cfg tid o s) : Served cfg tid o s' where
  read := h.read.mono hk.hands
  handled r hr hid side hside harmed := by
    have hr := (hk.mem_orders h.read.watches hid).mp hr
    refine (h.handled r hr hid side hside harmed).kept hk ?_
    rw [show (r.order.defaulter side).order = o.id from hid]
    exact h.read.watches

theorem Served.writes {u : OrderUpdate} (h : Served cfg l.tid o s) (hu : u.target = o.id) :
    SlashedFirst cfg l (.order (.run u)) s := by
  rintro r hr side (⟨u',hop,hsel⟩ | ⟨_,_,hop,_⟩) hside harmed
  · cases hop
    exact (h.handled r hr ((orderUpdate_id hsel).trans hu) side hside harmed).settled
  · cases hop

theorem Served.releases {read : Bond} {t : Option Int} {ls : List Label} (h : Served cfg l.tid o s)
    (hread : read.orderId = o.id ∨ ∃ x, (l.tid,x) ∈ s.inHand ∧ x.rangeParentId = some read.orderId)
    (hk : Knowing l (.release read t) ls s) : SlashedFirst cfg l (.release read t) s := by
  rintro r hr side (⟨_,hop,_⟩ | ⟨u,b,hop,hb,hsel,_,_,hid,_,hslices⟩) hside harmed
  · cases hop
  · cases hop
    have horder : read.orderId = b.orderId :=
      (release_core read t hk hb (bondUpdate_id hsel)).orderId
    rcases hread with hread | ⟨x,hx,hparent⟩
    · exact (h.handled r hr (hid.symm.trans (horder.symm.trans hread)) side hside harmed).settled
    · exact absurd (hparent.trans (congrArg some (horder.trans hid))) (hslices x hx)

theorem releaseBonds_sat {bonds : List Bond} {skip : Bond → Bool} {X : Bond → Prop}
    (hX : ∀ b ∈ bonds, skip b = false → X b) (hhome : ∀ b, X b → b.orderId = o.id) (hs : T s)
    (hready : ∀ s, T s → Ready cfg l.tid o s) (hT : ∀ s s', Undisturbed l.tid s s' → T s → T s')
    (hR : ∀ s s', Releasing X s s' → T s → T s') :
    (daemon cfg ext).Sat D (retryContract cfg) l
      (Prog.forEach bonds fun b => if skip b then pure () else (releaseBond b).ignore)
      (fun _ s => T s) s := by
  refine System.Sat.forEach hs fun bond hbond s hs => ?_
  split
  · exact hs
  next hskip =>
    refine (releases_sat (slashedFirst_call cfg l) (fun read t ls s hX hs hk => ?_)
      (releaseBond_only (releases_bond (hX bond hbond (by simpa using hskip)))) hs hT hR).ignore
    exact (hready s hs).served.releases (.inl (hhome read hX)) hk

theorem releaseActiveBonds_sat (retainMakers : Bool) (hs : T s)
    (hready : ∀ s, T s → Ready cfg l.tid o s) (hT : ∀ s s', Undisturbed l.tid s s' → T s → T s')
    (hR : ∀ s s', Releasing (fun b => b.orderId = o.id) s s' → T s → T s') :
    (daemon cfg ext).Sat D (retryContract cfg) l (releaseActiveBonds o.id retainMakers)
      (fun _ s => T s) s := by
  refine sat_ask_bind (T := T) hs hT fun s ls hs hk =>
    ⟨slashedFirst_call _ _ _ _ rfl,fun ch _ => ?_⟩
  have hs : T (exec ext l.tid (.query (.findActiveBondsForOrder o.id)) ch s).1 :=
    hT s _ (exec_undisturbed ext l.tid ch s rfl) hs
  refine ⟨fun bonds hres => ?_,fun _ _ => hs⟩
  have hactive := (activeBonds_read hk hres).1
  exact releaseBonds_sat (fun b hb _ => ((hactive b).mp hb).2.1) (fun _ h => h) hs hready hT hR

theorem releaseOnTimeout_sat (republishes : Bool) (hs : T s)
    (hready : ∀ s, T s → Ready cfg l.tid o s) (hT : ∀ s s', Undisturbed l.tid s s' → T s → T s')
    (hR : ∀ s s', Releasing (fun b => b.orderId = o.id) s s' → T s → T s') :
    (daemon cfg ext).Sat D (retryContract cfg) l (releaseOnTimeout o.id republishes)
      (fun _ s => T s) s := by
  unfold releaseOnTimeout
  split <;> exact (releaseActiveBonds_sat _ hs hready hT hR).ignore

theorem slashOrReleaseOnTimeout_lands (hl : l.req.isTimeoutJob = true) (hs : Tracked l.tid o s) :
    (daemon cfg ext).Sat slashesLand (retryContract cfg) l (slashOrReleaseOnTimeout cfg o)
      (fun r s => r = .ok () → Ready cfg l.tid o s) s := by
  have hrel : ∀ X s s', Releasing X s s' → Tracked l.tid o s → Tracked l.tid o s' :=
    fun X s s' hk h => h.of_orders hk.hands hk.orders
  unfold slashOrReleaseOnTimeout
  split
  next hnone =>
    have hready : ∀ s, Tracked l.tid o s → Ready cfg l.tid o s :=
      fun s h => ⟨h,fun side hside => nomatch hnone.symm.trans hside⟩
    exact System.Sat.mono (releaseActiveBonds_sat _ hs hready (fun _ _ hk h => h.kept hk)
      (hrel _)).ignore fun r s h _ => hready s h
  next side hside =>
    dsimp only
    split
    next hoff =>
      have hready : ∀ s, Tracked l.tid o s → Ready cfg l.tid o s := by
        refine fun s h => ⟨h,fun side' hside' harmed => ?_⟩
        cases hside.symm.trans hside'
        simp [harmed] at hoff
      exact System.Sat.mono (releaseOnTimeout_sat _ hs hready (fun _ _ hk h => h.kept hk)
        (hrel _)) fun r s h _ => hready s h
    · refine sat_ask_bind (T := Tracked l.tid o) hs (fun _ _ hk h => h.kept hk)
        fun s ls hs hk => ⟨slashedFirst_call _ _ _ _ rfl,fun ch hd =>
          ⟨fun bonds hres => ?_,fun e he h => nomatch h⟩⟩
      obtain ⟨hactive,hpre⟩ := activeBonds_read hk hres
      have hkeys := slashesLand_keys hl hs hactive hd
      have hown : Undisturbed l.tid s
          (exec ext l.tid (.query (.findActiveBondsForOrder o.id)) ch s).1 :=
        exec_undisturbed ext l.tid ch s rfl
      refine survey_sat (T := fun _ => True) (slashedFirst_call cfg l) trivial (fun _ _ _ h => h)
        (hs.kept hown) (active_kept hown hs.read.watches hactive) hpre (fun _ _ h => nomatch h)
        fun isRange target s _ hs hnone hsome => ?_
      -- what is known of the party in default is known of the order
      have hready {T : State → Prop} (hT : ∀ s, T s → Tracked l.tid o s ∧
          Handled l.tid (o.defaulter side) s) : ∀ s, T s → Ready cfg l.tid o s := by
        refine fun s h => ⟨(hT s h).1,fun side' hside' _ => ?_⟩
        cases hside.symm.trans hside'
        exact (hT s h).2
      cases target with
      | none =>
        have hready := hready (T := fun s => Tracked l.tid o s ∧
          NoneLocked l.tid (o.defaulter side) s) fun s h => ⟨h.1,.inr (.inr ⟨h.2.1,.inl h.2.2⟩)⟩
        exact System.Sat.mono (releaseOnTimeout_sat _
          ⟨hs.toTracked,hs.noneLocked hkeys (hnone rfl)⟩ hready
          (fun _ _ hk h => ⟨h.1.kept hk,h.2.kept hk h.1.read.watches⟩)
          fun _ _ hk h => ⟨hrel _ _ _ hk h.1,h.2.releasing hk⟩) fun r s h _ => hready s h
      | some b =>
        have hrole := (hsome b rfl).role hkeys
        have hready := hready (T := Slashed l.tid o side isRange b)
          fun s h => ⟨h.toTracked,h.handled.handled hrole⟩
        refine System.Sat.bind ((slashSide_lands (T := fun _ => True)
          (slashedFirst_retains cfg l) (slashesLand_lands hl)
          ⟨fun _ _ _ h => h,fun _ _ _ _ _ _ h => h⟩ trivial hs (hsome b rfl)).mono
          fun r s h => ?_)
        cases r with
        | error e => exact fun h => nomatch h
        | ok slashed =>
          refine System.Sat.mono (releaseBonds_sat (X := fun x => x.orderId = o.id ∧ x.id ≠ b.id)
            (fun x hx hskip => ⟨((hactive x).mp hx).2.1,fun hid => ?_⟩) (fun _ h => h.1)
            (h slashed rfl).2 hready (fun _ _ hk h => h.kept hk)
            fun _ _ hk h => h.releasing (fun _ h => h.2) hk) fun r s h _ => hready s h
          simp [hid] at hskip

structure Freed (cfg : Settings) (tid : Nat) (o : Order) (s : State) : Prop
    extends Served cfg tid o s where
  kind : ∀ r ∈ s.orders, r.order.id = o.id → r.order.kind = o.kind

theorem Ready.freed (h : Ready cfg tid o s) : Freed cfg tid o s :=
  ⟨h.served,fun r hr hid => (h.1.same r hr hid).2.1⟩

theorem Freed.kept (hk : Undisturbed tid s s') (h : Freed cfg tid o s) : Freed cfg tid o s' :=
  ⟨h.toServed.kept hk,fun r hr hid => h.kind r ((hk.mem_orders h.read.watches hid).mp hr) hid⟩

theorem Freed.toInitialState {read : Order} {amount fee devFee : Int} (h : Freed cfg tid o s)
    (hid : read.id = o.id) :
    Freed cfg tid o
      ((OrderStmt.run (.updateOrderToInitialState read amount fee devFee)).exec tid' s).1 := by
  have hrow : ∀ r ∈ ((OrderStmt.run (.updateOrderToInitialState read amount fee devFee)).exec tid'
      s).1.orders, r.order.id = o.id → r.order.kind = o.kind ∧ r.order.status = .pending := by
    intro r hr hro
    obtain ⟨q,hq,rfl⟩ := mem_updateWhere.mp hr
    have hset :
        (OrderUpdate.updateOrderToInitialState read amount fee devFee).selects s q = true := by
      split at hro
      next hsel => exact hsel
      · simp [OrderUpdate.selects,OrderUpdate.target,OrderUpdate.guard,hid,hro]
    rw [if_pos hset] at hro ⊢
    exact ⟨h.kind q hq hro,rfl⟩
  refine ⟨⟨h.read,fun r hr hro side hside => ?_⟩,fun r hr hro => (hrow r hr hro).1⟩
  rw [(hrow r hr hro).2] at hside
  cases hside

structure Closed (tid : Nat) (o : Order) (s : State) : Prop where
  read : ReadBy tid o s
  idle : ∀ r ∈ s.orders, r.order.id = o.id → responsibleSide r.order.status = none

theorem Closed.served (h : Closed tid o s) : Served cfg tid o s :=
  ⟨h.read,fun r hr hid _ hside => nomatch (h.idle r hr hid).symm.trans hside⟩

theorem Closed.kept (hk : Undisturbed tid s s') (h : Closed tid o s) : Closed tid o s' :=
  ⟨h.read.mono hk.hands,fun r hr hid => h.idle r ((hk.mem_orders h.read.watches hid).mp hr) hid⟩

theorem closed_update {read row : Order} (h : ReadBy tid o s) (hid : row.id = o.id)
    (hst : responsibleSide row.status = none) :
    Closed tid o ((OrderStmt.run (.update read row)).exec tid' s).1 := by
  refine ⟨h,fun r hr hro => ?_⟩
  obtain ⟨q,hq,rfl⟩ := mem_updateWhere.mp hr
  have hsel : (OrderUpdate.update read row).selects s q = true := by
    split at hro
    next hsel => exact hsel
    · simp [OrderUpdate.selects,OrderUpdate.target,OrderUpdate.guard,hid,hro]
  rw [if_pos hsel]
  exact hst

theorem editPubkeys_defaulter (r : OrderRow) (id : Uuid) (side : Side) :
    ((OrderUpdate.editPubkeysOrder id r.order.kind).set r).order.defaulter side
        = r.order.defaulter side ∨
      (((OrderUpdate.editPubkeysOrder id r.order.kind).set r).order.defaulter side).pubkey = none ∧
      (((OrderUpdate.editPubkeysOrder id r.order.kind).set r).order.defaulter side).isMaker
        = false := by
  cases hkind : r.order.kind <;> cases side <;>
    simp [OrderUpdate.set,Order.defaulter,sidePubkey,sideIsMaker,hkind]

theorem editPubkeys_same (id : Uuid) (kind : Kind) (r : OrderRow) :
    ((OrderUpdate.editPubkeysOrder id kind).set r).order.status = r.order.status ∧
    ((OrderUpdate.editPubkeysOrder id kind).set r).order.kind = r.order.kind ∧
    ((OrderUpdate.editPubkeysOrder id kind).set r).order.id = r.order.id ∧
    ((OrderUpdate.editPubkeysOrder id kind).set r).order.rangeParentId = r.order.rangeParentId ∧
    ((OrderUpdate.editPubkeysOrder id kind).set r).order.maxAmount = r.order.maxAmount := by
  cases kind <;> exact ⟨rfl,rfl,rfl,rfl,rfl⟩

theorem rangeRootFrom_congr (hl : ∀ id, s'.link? id = s.link? id) {depth : Nat}
    {parent : Option Uuid} {max : Option Int} :
    s'.rangeRootFrom depth id parent max = s.rangeRootFrom depth id parent max := by
  induction depth generalizing id parent max with
  | zero => rfl
  | succ depth ih =>
    cases parent with
    | none => rfl
    | some p =>
      simp only [State.rangeRootFrom,hl p]
      split
      · exact ih
      · rfl

theorem Handled.of_links {d : Defaulter} (hr : s'.inHand = s.inHand) (hb : s'.bonds = s.bonds)
    (hl : ∀ id, s'.link? id = s.link? id) (h : Handled tid d s) : Handled tid d s' := by
  have hroot : d.root s' = d.root s := rangeRootFrom_congr hl
  have hmaker : ∀ id, s'.makerBond id = s.makerBond id := fun id => by
    simp only [State.makerBond,Query.run,hb]
  have howns : ∀ b, d.Owns s' b ↔ d.Owns s b := fun b => by
    simp only [Defaulter.Owns,Defaulter.Home,hb,hroot,hmaker]
  rcases h with ⟨b,hm,h⟩ | h | ⟨⟨root,hk⟩,h⟩
  · exact .inl ⟨b,hb ▸ hm,h⟩
  · exact .inr (.inl h)
  · refine .inr (.inr ⟨⟨root,hk.mono (fun _ h => hr ▸ h) fun id _ => hl id⟩,?_⟩)
    simpa only [Defaulter.NoShare,howns,hroot,hb] using h

theorem editPubkeys_link {kind : Kind} (p : Uuid) :
    ((OrderStmt.run (.editPubkeysOrder id kind)).exec tid s).1.link? p = s.link? p := by
  have hsame := editPubkeys_same id kind
  simp only [State.link?,State.order?,OrderStmt.exec,OrderUpdate.run,updateWhere,List.find?_map,
    Option.map_map]
  have hfind : s.orders.find? ((fun r => r.order.id == p) ∘ fun r =>
      if (OrderUpdate.editPubkeysOrder id kind).selects s r = true then
        (OrderUpdate.editPubkeysOrder id kind).set r else r)
      = s.orders.find? fun r => r.order.id == p := by
    refine List.find?_congr fun r _ => ?_
    simp only [Function.comp]
    split <;> simp [hsame r]
  rw [hfind]
  refine congrArg (fun f => Option.map f _) (funext fun r => ?_)
  simp only [Function.comp]
  split <;> simp [hsame r]

theorem Freed.editPubkeys (h : Freed cfg tid o s) :
    Freed cfg tid o ((OrderStmt.run (.editPubkeysOrder o.id o.kind)).exec tid' s).1 := by
  have hselects : ∀ q : OrderRow, (OrderUpdate.editPubkeysOrder o.id o.kind).selects s q = true ↔
      q.order.id = o.id := fun q => by
    simp [OrderUpdate.selects,OrderUpdate.target,OrderUpdate.guard]
  have hrow : ∀ r ∈ ((OrderStmt.run (.editPubkeysOrder o.id o.kind)).exec tid' s).1.orders,
      r.order.id = o.id → ∃ q ∈ s.orders, q.order.id = o.id ∧
        (OrderUpdate.editPubkeysOrder o.id o.kind).set q = r := by
    intro r hr hro
    obtain ⟨q,hq,rfl⟩ := mem_updateWhere.mp hr
    split at hro
    next hsel => exact ⟨q,hq,(hselects q).mp hsel,by rw [if_pos hsel]⟩
    next hsel => exact absurd ((hselects q).mpr hro) hsel
  refine ⟨⟨h.read,fun r hr hro side hside harmed => ?_⟩,fun r hr hro => ?_⟩
  · obtain ⟨q,hq,hqo,rfl⟩ := hrow r hr hro
    have hkind := h.kind q hq hqo
    obtain ⟨hst,hkept,_⟩ := editPubkeys_same o.id o.kind q
    have hmaker : sideIsMaker ((OrderUpdate.editPubkeysOrder o.id o.kind).set q).order side
        = sideIsMaker q.order side := by
      simp only [sideIsMaker,hkept]
    refine Handled.of_links (s := s) rfl rfl editPubkeys_link ?_
    have hcases := editPubkeys_defaulter q o.id side
    rw [hkind] at hcases
    rcases hcases with heq | hnone
    · rw [heq]
      exact h.handled q hq hqo side (hst ▸ hside) (hmaker ▸ harmed)
    · exact .inr (.inl hnone)
  · obtain ⟨q,hq,hqo,rfl⟩ := hrow r hr hro
    exact (editPubkeys_same o.id o.kind q).2.1.trans (h.kind q hq hqo)

theorem freed_undisturbed : ∀ s s', Undisturbed tid s s' → Freed cfg tid o s → Freed cfg tid o s' :=
  fun _ _ hk h => h.kept hk

theorem editPubkeysOrder_frees (hs : Freed cfg l.tid o s) :
    (daemon cfg ext).Sat D (retryContract cfg) l (editPubkeysOrder o)
      (fun r s => ∀ edited, r = .ok edited → Freed cfg l.tid o s ∧ edited.id = o.id) s := by
  refine sat_ask_bind (T := Freed cfg l.tid o) hs freed_undisturbed
    fun s ls hs hk => ⟨hs.writes rfl,fun ch _ => ⟨fun n hn => ?_,fun e he x hx => nomatch hx⟩⟩
  have hs : Freed cfg l.tid o
      (exec ext l.tid (.order (.run (.editPubkeysOrder o.id o.kind))) ch s).1 := by
    rw [(exec_order_ok hn).1]
    exact hs.editPubkeys
  refine sat_ensure_bind (fun _ => ?_) fun _ x hx => nomatch hx
  refine sat_ask_bind (T := Freed cfg l.tid o) hs freed_undisturbed
    fun s ls hs hk => ⟨slashedFirst_call _ _ _ _ rfl,fun ch _ =>
    ⟨fun found hres => ?_,fun e he x hx => nomatch hx⟩⟩
  cases found with
  | none => exact fun x hx => nomatch hx
  | some edited =>
    intro x hx
    cases hx
    obtain ⟨r,hr,hro⟩ := Option.map_eq_some_iff.mp (exec_query_ok hres).2
    refine ⟨hs.kept (fetch_undisturbed ext ch hs.read.watches),?_⟩
    rw [← hro]
    simpa using List.find?_some hr

theorem publishAndUpdate_sat {edited : Order} (known : Order) {status : Status}
    (hs : Freed cfg l.tid o s) (hid : edited.id = o.id) (hst : responsibleSide status = none) :
    (daemon cfg ext).Sat D (retryContract cfg) l
      ((updateOrderEvent status edited).bind fun updated => updateOrder known updated)
      (fun r s => r = .ok () → Closed l.tid o s) s := by
  refine sat_bind_assoc (sat_ask_bind (T := Freed cfg l.tid o) hs freed_undisturbed
    fun s ls hs hk => ⟨slashedFirst_call _ _ _ _ rfl,fun ch _ =>
    ⟨fun _ _ => ?_,fun _ _ h => nomatch h⟩⟩)
  have hs : Freed cfg l.tid o (exec ext l.tid (.updateOrderEvent edited.id status) ch s).1 :=
    hs.kept (exec_undisturbed ext l.tid ch s rfl)
  refine sat_ask_bind (T := Freed cfg l.tid o) hs freed_undisturbed fun s ls hs hk =>
    ⟨hs.writes hid,fun ch _ => ⟨fun _ hres _ => ?_,fun _ _ h => nomatch h⟩⟩
  rw [(exec_order_ok hres).1]
  exact closed_update hs.read hid hst

theorem republishOnTimeout_sat (hs : Freed cfg l.tid o s) :
    (daemon cfg ext).Sat D (retryContract cfg) l (republishOnTimeout o) (fun _ _ => True) s := by
  refine sat_ask_attempt_bind (T := Freed cfg l.tid o) hs freed_undisturbed
    fun s ls hs hk => ⟨hs.writes rfl,fun ch _ => ?_⟩
  have hs : Freed cfg l.tid o (exec ext l.tid (.order (.run
      (.updateOrderToInitialState o o.amount o.fee o.devFee))) ch s).1 := by
    simp only [exec,orFault]
    split
    · exact hs
    · exact hs.toInitialState rfl
  refine System.Sat.bind ((editPubkeysOrder_frees hs).mono fun r s h => ?_)
  cases r with
  | error e => trivial
  | ok edited =>
    exact (publishAndUpdate_sat _ (h edited rfl).1 (h edited rfl).2 rfl).mono fun _ _ _ => trivial

theorem retains_sat {p : M α} (hp : p.Only fun op => op.retains = true) :
    (daemon cfg ext).Sat D (retryContract cfg) l p (fun _ _ => True) s :=
  System.Sat.of_only hp trivial (fun _ _ _ _ => trivial) fun op _ s hop _ _ =>
    ⟨slashedFirst_retains cfg l op s hop,fun _ _ => trivial⟩

def Above (tid : Nat) (o : Order) (id : Uuid) (s : State) : Prop :=
  id = o.id ∨ ∃ x, (tid,x) ∈ s.inHand ∧ x.rangeParentId = some id

theorem Above.mono (hr : ∀ x, (tid,x) ∈ s.inHand → (tid,x) ∈ s'.inHand) (h : Above tid o id s) :
    Above tid o id s' :=
  h.imp_right fun ⟨x,hx,hp⟩ => ⟨x,hr x hx,hp⟩

theorem findRangeRootFrom_above {depth : Nat} (hs : ReadBy l.tid o s) :
    (daemon cfg ext).Sat D (retryContract cfg) l (findRangeRootFrom depth o)
      (fun r s => ∀ root, r = .ok root → Above l.tid o root.id s) s := by
  induction depth generalizing o s with
  | zero => exact fun _ h => nomatch h
  | succ depth ih =>
    unfold findRangeRootFrom
    split
    · rintro root h
      cases h
      exact .inl rfl
    next p hp =>
      refine sat_ask_bind (T := ReadBy l.tid o) hs (fun _ _ hk h => h.mono hk.hands)
        fun s ls hs _ => ⟨slashedFirst_call _ _ _ _ rfl,fun ch _ =>
          ⟨fun found hres => ?_,fun _ _ _ h => nomatch h⟩⟩
      cases found with
      | none =>
        rintro root h
        cases h
        exact .inl rfl
      | some x =>
        obtain ⟨hx,r,hr,rfl⟩ := orderById_read hres
        have hid : r.order.id = p := by simpa using List.find?_some hr
        have hk := @fetch_undisturbed ext l.tid ch _ _ (hs.watches_parent hp)
        obtain ⟨y,hy,_,hparent⟩ := hs
        refine ((ih hx).and (findRangeRootFrom_sat (T := fun s => (l.tid,y) ∈ s.inHand)
          (slashedFirst_call cfg l) (hk.hands y hy) hx fun _ _ hk h => hk.hands y h)).mono
          fun res s h root hroot => ?_
        rcases h.1 root hroot with hroot | hroot
        · exact .inr ⟨y,h.2.1,by rw [hparent,hp,hroot,hid]⟩
        · exact .inr hroot

structure Closing (tid : Nat) (o : Order) (parent : Bond) (s : State) : Prop
    extends Closed tid o s where
  above : Above tid o parent.orderId s

theorem Closing.kept {parent : Bond} (hk : Undisturbed tid s s') (h : Closing tid o parent s) :
    Closing tid o parent s' :=
  ⟨h.toClosed.kept hk,h.above.mono hk.hands⟩

theorem Closing.releasing {parent : Bond} {X : Bond → Prop} (hk : Releasing X s s')
    (h : Closing tid o parent s) : Closing tid o parent s' :=
  have hr := fun x => hk.hands (tid,x)
  ⟨⟨h.read.mono hr,hk.orders ▸ h.idle⟩,h.above.mono hr⟩

theorem findMakerBondForOrder_above (hs : Closed l.tid o s) :
    (daemon cfg ext).Sat D (retryContract cfg) l (findMakerBondForOrder o)
      (fun r s => ∀ parent, r = .ok (some parent) → Closing l.tid o parent s) s := by
  refine System.Sat.bind (((findRangeRootFrom_above hs.read).and (findRangeRootFrom_sat
    (T := Closed l.tid o) (slashedFirst_call cfg l) hs hs.read
    fun _ _ hk h => h.kept hk)).mono fun r s h => ?_)
  cases r with
  | error e => exact fun _ h => nomatch h
  | ok root =>
    let T : State → Prop := fun s => Closed l.tid o s ∧ Above l.tid o root.id s
    have hT : ∀ s s', Undisturbed l.tid s s' → T s → T s' :=
      fun s s' hk h => ⟨h.1.kept hk,h.2.mono hk.hands⟩
    refine sat_ask (T := T) ⟨h.2.1,h.1 root rfl⟩ hT fun s ls hs _ =>
      ⟨slashedFirst_call _ _ _ _ rfl,fun ch _ parent hres => ?_⟩
    have hs : T (exec ext l.tid (.query (.findBondByOrderAndRole root.id .maker)) ch s).1 :=
      hT s _ (exec_undisturbed ext l.tid ch s rfl) hs
    have hfound : List.find? _ s.bonds = some parent := (exec_query_ok hres).2
    have horder := List.find?_some hfound
    simp only [Bool.and_eq_true,beq_iff_eq] at horder
    exact ⟨hs.1,horder.1.1 ▸ hs.2⟩

theorem resolveRangeMakerBondAtClose_sat (hs : Closed l.tid o s) :
    (daemon cfg ext).Sat D (retryContract cfg) l (resolveRangeMakerBondAtClose o)
      (fun _ _ => True) s := by
  refine System.Sat.bind ((findMakerBondForOrder_above hs).mono fun r s h => ?_)
  rcases r with e | _ | parent
  · trivial
  · trivial
  have hs := h parent rfl
  dsimp only
  split
  · trivial
  have hrest (slices : List Bond) (root : Order) {s : State} (hs : Closing l.tid o parent s) :
      (daemon cfg ext).Sat D (retryContract cfg) l
        (if (slices.map (·.amountSats)).sum = 0 then releaseBond parent
         else settleRangeAtClose root.id parent slices) (fun _ _ => True) s := by
    split
    · refine System.Sat.mono (releases_sat (slashedFirst_call cfg l) (X := (· = parent))
        (T := Closing l.tid o parent) ?_ (releaseBond_only (releases_bond rfl)) hs
        (fun _ _ hk h => h.kept hk) fun _ _ hk h => h.releasing hk) fun _ _ _ => trivial
      rintro read t ls s rfl hs hk
      exact hs.served.releases hs.above hk
    · refine retains_sat ?_
      exact settleRangeAtClose_only (P := fun op => op.retains = true) (fun _ => rfl) rfl
        (fun _ => rfl) _ _ _
  refine System.Sat.bind ((findRangeRootFrom_sat (T := Closing l.tid o parent)
    (slashedFirst_call cfg l) hs hs.read fun _ _ hk h => h.kept hk).mono fun r s h => ?_)
  have hs := h.1
  cases r with
  | error e => trivial
  | ok root =>
    dsimp only
    split
    · refine System.Sat.bind ((calls_sat (T := Closing l.tid o parent) (slashedFirst_call cfg l)
        (ask_only rfl) hs fun _ _ hk h => h.kept hk).mono fun r s hs => ?_)
      cases r with
      | error e => trivial
      | ok children => exact hrest _ root hs
    · exact hrest [] root hs

theorem resolveRangeMakerBondAtCloseOrWarn_sat (hs : Closed l.tid o s) :
    (daemon cfg ext).Sat D (retryContract cfg) l (resolveRangeMakerBondAtCloseOrWarn o)
      (fun _ _ => True) s := by
  have hkept : ∀ s s', Undisturbed l.tid s s' → Closed l.tid o s → Closed l.tid o s' :=
    fun _ _ hk h => h.kept hk
  refine System.Sat.bind (System.Sat.attempt ((findMakerBondForOrder_known
    (slashedFirst_call cfg l) hs hs.read hkept).mono fun r s h => ?_))
  have hs := h.1
  rcases r with e | _ | b
  · trivial
  · trivial
  dsimp only
  split
  · trivial
  refine System.Sat.bind (System.Sat.attempt ((calls_sat (T := Closed l.tid o)
    (slashedFirst_call cfg l) (ask_only rfl) hs hkept).mono fun r s hs => ?_))
  cases r with
  | error e => trivial
  | ok _ => exact (resolveRangeMakerBondAtClose_sat hs).ignore

theorem cancelOnTimeout_sat (hs : Freed cfg l.tid o s) :
    (daemon cfg ext).Sat D (retryContract cfg) l (cancelOnTimeout o) (fun _ _ => True) s := by
  refine System.Sat.bind ((editPubkeysOrder_frees hs).mono fun r s h => ?_)
  cases r with
  | error e => trivial
  | ok edited =>
    obtain ⟨hs,hid⟩ := h edited rfl
    refine sat_assoc_bind (System.Sat.bind ((publishAndUpdate_sat _ hs hid rfl).mono
      fun r s h => ?_))
    cases r with
    | error e => trivial
    | ok _ => exact resolveRangeMakerBondAtCloseOrWarn_sat (h rfl)

theorem cancelLateOrder_retries (hl : l.req.isTimeoutJob = true) :
    (daemon cfg ext).Sat slashesLand (retryContract cfg) l (cancelLateOrder cfg id)
      (fun _ _ => True) s := by
  refine System.Sat.bind ((reconfirm_tracked (slashedFirst_call cfg l)).mono fun r s hs => ?_)
  rcases r with e | _ | o
  · trivial
  · trivial
  · refine System.Sat.bind
      ((calls_sat (T := Tracked l.tid o) (slashedFirst_call cfg l) ?_ (hs o rfl)
      fun _ _ hk h => h.kept hk).mono fun r s hs => ?_)
    · unfold cancelEscrow
      split
      · exact ask_only rfl
      · trivial
    cases r with
    | error e => trivial
    | ok _ =>
      refine System.Sat.bind ((slashOrReleaseOnTimeout_lands hl hs.reset).mono fun r s hs => ?_)
      cases r with
      | error e => trivial
      | ok _ =>
        have hs := (hs rfl).freed
        dsimp only
        split
        · exact republishOnTimeout_sat hs
        · exact cancelOnTimeout_sat hs

theorem jobCancelOrders_retries (hl : l.req.isTimeoutJob = true) :
    (daemon cfg ext).Sat slashesLand (retryContract cfg) l (jobCancelOrders cfg)
      (fun _ _ => True) s := by
  refine System.Sat.bind ((retains_sat (ask_only rfl)).mono fun r s _ => ?_)
  cases r with
  | error e => trivial
  | ok now =>
    refine System.Sat.bind ((retains_sat (ask_only rfl)).mono fun r s _ => ?_)
    cases r with
    | error e => trivial
    | ok late =>
      exact System.Sat.forEach trivial fun order _ s _ => (cancelLateOrder_retries hl).ignore

end

theorem timeoutJob_retries (cfg : Settings) (ext : Externals) :
    Watched cfg ext slashesLand (fun l => l.req.isTimeoutJob = true)
      (fun l => Undisturbed l.tid) (SlashedFirst cfg) := by
  refine watchingOrders_watched (fun l l' op ch ls s hne hl hb hd => ?_) fun l s hb => ?_
  · have := List.all_eq_true.mp (Bool.and_eq_true_iff.mp hd).1 l' hl
    simpa [hb,hne] using this
  · rw [timeoutJob_code cfg ext hb]
    exact jobCancelOrders_retries hb

/-- The timeout job is about to put a sell order that waits for the buyer's invoice back into the
book. -/
def republishesSell (p : State → OrderRow → Bool) (l : Label) (op : Op) (s : State) : Bool :=
  l.req.isTimeoutJob && match op with
    | .order (.run u) => s.orders.any fun r => u.selects s r
        && (r.order.status == .waitingBuyerInvoice && r.order.kind == .sell)
        && ((u.set r).order.status == .pending && p s r)
    | _ => false

theorem republishesSell_spec {p : State → OrderRow → Bool} {l : Label} {op : Op}
    (h : republishesSell p l op s = true) : l.req.isTimeoutJob = true ∧ ∃ u, op = .order (.run u) ∧
      ∃ r ∈ s.orders, u.selects s r = true ∧ r.order.status = .waitingBuyerInvoice ∧
        r.order.kind = .sell ∧ (u.set r).order.status = .pending ∧ p s r = true := by
  obtain ⟨hl,hrow⟩ := Bool.and_eq_true_iff.mp h
  refine ⟨hl,?_⟩
  clear h
  split at hrow
  next u =>
    obtain ⟨r,hr,heq⟩ := List.any_eq_true.mp hrow
    simp only [Bool.and_eq_true,beq_iff_eq] at heq
    obtain ⟨⟨hsel,hst,hkind⟩,hnew,hp⟩ := heq
    exact ⟨u,rfl,r,hr,hsel,hst,hkind,hnew,hp⟩
  · cases hrow

def State.unslashed (s : State) (r : OrderRow) : Bool :=
  (s.bonds.any fun b => b.orderId == r.order.id && b.role == .taker
    && r.order.buyerPubkey == some b.pubkey && b.state == .locked)
    && s.bonds.all fun b => b.slashedReason.isNone

theorem unslashed_not_settled {r : OrderRow} (hkind : r.order.kind = .sell)
    (h : s.unslashed r = true) : ¬ (r.order.defaulter .buyer).Settled s := by
  obtain ⟨hlocked,hnone⟩ := Bool.and_eq_true_iff.mp h
  obtain ⟨b,hb,heq⟩ := List.any_eq_true.mp hlocked
  simp only [Bool.and_eq_true,beq_iff_eq] at heq
  obtain ⟨⟨⟨hid,hrole⟩,hkey⟩,hst⟩ := heq
  have hmaker : (r.order.defaulter .buyer).isMaker = false := by
    simp only [Order.defaulter,sideIsMaker,hkind]
  rintro (⟨x,hx,⟨_,_,_,hrec⟩ | ⟨hrec,_⟩⟩ | hfree | ⟨hshare,_⟩)
  · have hx := List.all_eq_true.mp hnone x hx
    rw [hrec] at hx
    cases hx
  · exact nomatch hmaker.symm.trans hrec
  · exact hfree b (.inl ⟨hmaker,hb,hid,hrole,hkey⟩) hst
  · exact nomatch hmaker.symm.trans hshare

end Mostro
