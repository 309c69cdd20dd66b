import Mostro.TerminalOrders

set_option autoImplicit false

/-!
The hold invoice of a take stays named on its order until it is settled or canceled, as long as
every write of the hash column finds the hash its handler had read.
-/

namespace Mostro

open Interleaving SqlTable

def Ended (s : State) (h : Hash) : Prop :=
  s.holdState h = some .settled ∨ s.holdState h = some .canceled

theorem Ended.progress {s s' : State} {h : Hash} (hp : HoldsProgress s s') (he : Ended s h) :
    Ended s' h :=
  he.imp (hp.holdState (.inl rfl)) (hp.holdState (.inr rfl))

/-- A full-row update and a reset find the hash their handler had read.  A completed take finds
none on a row that waits for the buyer's invoice, where the handler had read none. -/
def OrderUpdate.seesHash (s : State) : OrderUpdate → Bool
  | .casCompletePretradeTake o _ => s.orders.all fun r =>
      r.order.id != o.id || r.order.status != .waitingBuyerInvoice || r.order.hash.isNone
  | u => u.copy.all fun read =>
      s.orders.all fun r => r.order.id != read.id || r.order.hash == read.hash

abbrev hashesSeen : Requirement := .check
  (fun _ op _ _ s => match op with
    | .order (.run u) => u.seesHash s
    | _ => true)
  (fun _ _ _ => true)

/-- A stored hold invoice that has not ended is named on its order; what a row names was stored by
a take; and what an order that is not taken names has ended. -/
structure EscrowsReferenced (s : State) : Prop where
  takes : ∀ t ∈ s.takes, Ended s t.2 ∨ ∃ r ∈ s.orders, r.order.id = t.1 ∧ r.order.hash = some t.2
  rows : ∀ r ∈ s.orders, ∀ h, r.order.hash = some h → (r.order.id,h) ∈ s.takes
  listed : ∀ r ∈ s.orders, r.order.status.isListed = true → ∀ h, r.order.hash = some h → Ended s h

def KnowsTake (s : State) : Fact → Prop
  | .order x => (∀ h, x.hash = some h → (x.id,h) ∈ s.takes) ∧
      (x.status.isListed = true → ∀ h, x.hash = some h → Ended s h)
  | _ => True

theorem KnowsTake.progress {s s' : State} {f : Fact} (ht : s.takes ⊆ s'.takes)
    (hp : HoldsProgress s s') (hf : KnowsTake s f) : KnowsTake s' f := by
  cases f with
  | order x => exact ⟨fun h hh => ht (hf.1 h hh),fun hl h hh => (hf.2 hl h hh).progress hp⟩
  | _ => trivial

theorem orderUpdate_hash {req : Request} {Γ : Set Fact} {u : OrderUpdate} {s : State}
    {r : OrderRow} (hn : u.need req Γ) (hsel : u.selects s r = true) :
    (∃ read, u.copy = some read) ∨ (∃ o allow, u = .casCompletePretradeTake o allow) ∨
      ((u.set r).order.hash = r.order.hash ∧
        ((u.set r).order.status.isListed = true → r.order.status.isListed = true)) := by
  have hguard : u.guard s r = true := (Bool.and_eq_true_iff.mp hsel).2
  cases u with
  | update read row => exact .inl ⟨read,rfl⟩
  | updateOrderToInitialState read a f d => exact .inl ⟨read,rfl⟩
  | casCompletePretradeTake o allow => exact .inr (.inl ⟨o,allow,rfl⟩)
  | editPubkeysOrder order kind => cases kind <;> exact .inr (.inr ⟨rfl,id⟩)
  | casPretradeOrderStatus id new =>
    refine .inr (.inr ⟨rfl,fun h => ?_⟩)
    rcases hn with rfl | ⟨rfl,_⟩ <;> cases h
  | casPromoteTakerContext o =>
    refine .inr (.inr ?_)
    simp only [OrderUpdate.set]
    split <;> exact ⟨rfl,id⟩
  | updateOrderCashuEscrow id mint token t expected new =>
    obtain ⟨rfl,rfl,_⟩ := hn
    exact .inr (.inr ⟨rfl,fun h => by cases h⟩)
  | claimOrderStatus id expected new =>
    obtain ⟨rfl,rfl⟩ := hn
    exact .inr (.inr ⟨rfl,fun h => by cases h⟩)
  | claimWaitingTakerBond id =>
    exact .inr (.inr ⟨rfl,fun _ => by rw [beq_iff_eq.mp hguard]; rfl⟩)
  | dropWaitingTakerBondToPending id =>
    have hst := (Bool.and_eq_true_iff.mp hguard).1
    exact .inr (.inr ⟨rfl,fun _ => by rw [beq_iff_eq.mp hst]; rfl⟩)
  | claimDeferredPublication id =>
    exact .inr (.inr ⟨rfl,fun _ => by rw [beq_iff_eq.mp hguard]; rfl⟩)
  | settleFromRelease id | settleFromAdmin id | paymentSuccess id =>
    exact .inr (.inr ⟨rfl,fun h => by cases h⟩)
  | _ => exact .inr (.inr ⟨rfl,id⟩)

structure ReferenceKept (s : State) (u : OrderUpdate) (r : OrderRow) : Prop where
  old : ∀ h, r.order.hash = some h → Ended s h ∨ (u.set r).order.hash = some h
  new : ∀ h, (u.set r).order.hash = some h → (r.order.id,h) ∈ u.logTake ++ s.takes
  listed : (u.set r).order.status.isListed = true → ∀ h, (u.set r).order.hash = some h → Ended s h

section

variable {req : Request} {Γ : Set Fact} {s : State} {r : OrderRow}
variable {u : OrderUpdate} {read : Order} {tid : Nat}

theorem seesHash_copy (hd : u.seesHash s = true) (hu : u.copy = some read) (hr : r ∈ s.orders)
    (hid : r.order.id = read.id) : r.order.hash = read.hash := by
  have hall :
      (s.orders.all fun r => r.order.id != read.id || r.order.hash == read.hash) = true := by
    cases u <;> simp_all [OrderUpdate.seesHash,OrderUpdate.copy]
  simpa [hid] using List.all_eq_true.mp hall r hr

theorem RowWrite.take {row : Order} (hn : RowWrite req Γ read row) (hΓ : ∀ f ∈ Γ, KnowsTake s f)
    {h : Hash} (hh : row.hash = some h) : (row.id,h) ∈ s.takes := by
  rcases hn.copy with ⟨x,hx,hsame⟩ | ⟨x,k,hx,_,_,hsame⟩
  · exact hsame.id ▸ (hΓ _ hx).1 h (hsame.hash.trans hh)
  · exact hsame.id ▸ (hΓ _ hx).1 h (hsame.hash.trans hh)

theorem update_referenceKept {row : Order} (hc : Consistent s) (hi : EscrowsReferenced s)
    (hn : RowWrite req Γ read row) (hΓ : ∀ f ∈ Γ, f.Lasts s ∧ KnowsTake s f) (hr : r ∈ s.orders)
    (hid : r.order.id = row.id) (hhash : r.order.hash = read.hash) :
    ReferenceKept s (.update read row) r := by
  have hended : KnowsCanceled Γ read → ∀ h, r.order.hash = some h → Ended s h := fun hcan h hh =>
    .inr (hΓ _ (hcan h (hhash.symm.trans hh))).1
  refine ⟨fun h hh => ?_,fun h hh => ?_,fun hl h hh => ?_⟩
  · rcases hn.hash with hkeep | hcan
    · exact .inr (hkeep.trans (hhash.symm.trans hh))
    · exact .inl (hended hcan h hh)
  · exact hid.symm ▸ hn.take (fun f hf => (hΓ f hf).2) hh
  · -- what is written was stored by a take, so it has ended unless this very row names it
    rcases hi.takes _ (hn.take (fun f hf => (hΓ f hf).2) hh) with he | ⟨q,hq,hqid,hqh⟩
    · exact he
    · obtain rfl := hc.order_unique hq hr (hqid.trans hid.symm)
      rcases hn.listed hl with ⟨x,hx,hxl,_,hxh⟩ | hcan
      · exact (hΓ _ hx).2.2 hxl h (hxh.trans (hhash.symm.trans hqh))
      · exact hended hcan h hqh

theorem casComplete_referenceKept {o : Order} {allow : Bool} (hi : EscrowsReferenced s)
    (hn : (OrderUpdate.casCompletePretradeTake o allow).need req Γ)
    (hd : (OrderUpdate.casCompletePretradeTake o allow).seesHash s = true) (hr : r ∈ s.orders)
    (hsel : (OrderUpdate.casCompletePretradeTake o allow).selects s r = true) :
    ReferenceKept s (.casCompletePretradeTake o allow) r := by
  have hid : r.order.id = o.id := orderUpdate_id hsel
  have hguard := (Bool.and_eq_true_iff.mp hsel).2
  refine ⟨fun h hh => .inl ?_,fun h hh => ?_,fun hl => ?_⟩
  · rcases Bool.or_eq_true_iff.mp hguard with hpre | hwait
    · refine hi.listed r hr ?_ h hh
      cases hst : r.order.status <;> rw [hst] at hpre <;> first | rfl | cases hpre
    · have hst := beq_iff_eq.mp (Bool.and_eq_true_iff.mp hwait).2
      have hnone := List.all_eq_true.mp hd r hr
      simp [hid,hst,hh] at hnone
  · refine List.mem_append_left _ (List.mem_map.mpr ⟨h,?_,by rw [hid]⟩)
    exact Option.mem_toList.mpr hh
  · have hst : ((OrderUpdate.casCompletePretradeTake o allow).set r).order.status = o.status := rfl
    rw [hst] at hl
    rcases hn.1 with h | h <;> rw [h] at hl <;> cases hl

theorem orderUpdate_referenceKept (hc : Consistent s) (hi : EscrowsReferenced s) (hn : u.need req Γ)
    (hΓ : ∀ f ∈ Γ, f.Lasts s ∧ KnowsTake s f) (hd : u.seesHash s = true) (hr : r ∈ s.orders)
    (hsel : u.selects s r = true) : ReferenceKept s u r := by
  have hid := orderUpdate_id hsel
  rcases orderUpdate_hash hn hsel with ⟨read,hu⟩ | ⟨o,allow,rfl⟩ | ⟨hhash,hlisted⟩
  · have hread := (hn.copy hu).1
    have hhash := seesHash_copy hd hu hr (hid.trans hread.symm)
    cases u with
    | update x row =>
      cases hu
      exact update_referenceKept hc hi hn hΓ hr hid hhash
    | updateOrderToInitialState x a f d =>
      cases hu
      refine ⟨fun h hh => .inl (.inr ?_),nofun,fun _ => nofun⟩
      exact (hΓ _ (hn.2.1 h (hhash.symm.trans hh))).1
    | _ => cases hu
  · exact casComplete_referenceKept hi hn hd hr hsel
  · exact ⟨fun h hh => .inr (hhash.trans hh),
      fun h hh => List.mem_append_right _ (hi.rows r hr h (hhash.symm.trans hh)),
      fun hl h hh => hi.listed r hr (hlisted hl) h (hhash.symm.trans hh)⟩

theorem orderRun_takes_sub (tid : Nat) (u : OrderUpdate) : s.takes ⊆ (u.run tid s).1.takes :=
  List.subset_append_right _ _

theorem orderRun_takes (hr : r ∈ s.orders) (hsel : u.selects s r = true) :
    (u.run tid s).1.takes = u.logTake ++ s.takes := by
  have hpos : 0 < affected (u.selects s) s.orders := affected_pos.mpr ⟨r,hr,hsel⟩
  simp [OrderUpdate.run,hpos]

theorem referenced_run (hc : Consistent s) (hi : EscrowsReferenced s) (hn : u.need req Γ)
    (hΓ : ∀ f ∈ Γ, f.Lasts s ∧ KnowsTake s f) (hd : u.seesHash s = true) :
    EscrowsReferenced (u.run tid s).1 := by
  have hkept (r : OrderRow) (hr : r ∈ s.orders) (hsel : u.selects s r = true) :=
    orderUpdate_referenceKept hc hi hn hΓ hd hr hsel
  refine ⟨fun t ht => ?_,fun q hq h hh => ?_,fun q hq hl h hh => ?_⟩
  · have hold : (t ∈ s.takes) ∨ ∃ r ∈ s.orders, u.selects s r = true ∧ t ∈ u.logTake := by
      rcases List.mem_append.mp ht with ht | ht
      · split at ht
        next hpos =>
          obtain ⟨r,hr,hsel⟩ := affected_pos.mp hpos
          exact .inr ⟨r,hr,hsel,ht⟩
        · cases ht
      · exact .inl ht
    rcases hold with ht | ⟨r,hr,hsel,ht⟩
    · rcases hi.takes t ht with he | ⟨r,hr,hid,hh⟩
      · exact .inl he
      · by_cases hsel : u.selects s r = true
        · refine ((hkept r hr hsel).old _ hh).imp_right fun hnew => ?_
          exact ⟨u.set r,mem_updateWhere.mpr ⟨r,hr,if_pos hsel⟩,
            (orderUpdate_set_id hsel).trans hid,hnew⟩
        · exact .inr ⟨r,mem_updateWhere.mpr ⟨r,hr,if_neg hsel⟩,hid,hh⟩
    · refine .inr ⟨u.set r,mem_updateWhere.mpr ⟨r,hr,if_pos hsel⟩,?_⟩
      cases u with
      | casCompletePretradeTake o allow =>
        obtain ⟨h,hh,rfl⟩ := List.mem_map.mp ht
        exact ⟨orderUpdate_id hsel,Option.mem_toList.mp hh⟩
      | _ => cases ht
  · obtain ⟨r,hr,rfl⟩ := mem_updateWhere.mp hq
    split at hh
    next hsel =>
      rw [if_pos hsel,orderUpdate_set_id hsel,orderRun_takes hr hsel]
      exact (hkept r hr hsel).new h hh
    next hsel =>
      rw [if_neg hsel]
      exact orderRun_takes_sub tid u (hi.rows r hr h hh)
  · obtain ⟨r,hr,rfl⟩ := mem_updateWhere.mp hq
    split at hh
    next hsel =>
      rw [if_pos hsel] at hl
      exact (hkept r hr hsel).listed hl h hh
    next hsel =>
      rw [if_neg hsel] at hl
      exact hi.listed r hr hl h hh

theorem referenced_orderStmt {st : OrderStmt} (hc : Consistent s) (hi : EscrowsReferenced s)
    (hn : st.need req Γ) (hΓ : ∀ f ∈ Γ, f.Lasts s ∧ KnowsTake s f)
    (hd : ∀ u, st = .run u → u.seesHash s = true) : EscrowsReferenced (st.exec tid s).1 := by
  cases st with
  | create o =>
    have hold : ∀ r ∈ ((OrderStmt.create o).exec tid s).1.orders, ∀ h, r.order.hash = some h →
        r ∈ s.orders := by
      intro r hr h hh
      rcases List.mem_append.mp hr with hr | hr
      · exact hr
      · rw [List.mem_singleton.mp hr] at hh
        exact nomatch hn.1.symm.trans hh
    refine ⟨fun t ht => (hi.takes t ht).imp_right ?_,
      fun r hr h hh => hi.rows r (hold r hr h hh) h hh,
      fun r hr hl h hh => hi.listed r (hold r hr h hh) hl h hh⟩
    rintro ⟨r,hr,h⟩
    exact ⟨r,List.mem_append_left _ hr,h⟩
  | run u => exact referenced_run hc hi hn hΓ (hd u rfl)
  | deleteStranded id =>
    refine ⟨fun t ht => ?_,fun r hr => hi.rows r (List.mem_of_mem_filter hr),
      fun r hr => hi.listed r (List.mem_of_mem_filter hr)⟩
    rcases hi.takes t ht with he | ⟨r,hr,hid,hh⟩
    · exact .inl he
    · by_cases hst : r.order.status = .waitingMakerBond
      · exact .inl (hi.listed r hr (by rw [hst]; rfl) _ hh)
      · exact .inr ⟨r,List.mem_filter.mpr ⟨hr,by simp [State.deletable,hst]⟩,hid,hh⟩

end

theorem EscrowsReferenced.of_orders {s s' : State} (hi : EscrowsReferenced s)
    (ho : s'.orders = s.orders) (ht : s'.takes = s.takes) (hp : HoldsProgress s s') :
    EscrowsReferenced s' := by
  refine ⟨fun t hm => ?_,fun r hr h hh => ?_,fun r hr hl h hh => ?_⟩
  · rw [ho]
    exact (hi.takes t (ht ▸ hm)).imp_left (·.progress hp)
  · rw [ht]
    exact hi.rows r (ho ▸ hr) h hh
  · exact (hi.listed r (ho ▸ hr) hl h hh).progress hp

theorem orderStmt_takes_sub (tid : Nat) (s : State) (st : OrderStmt) :
    s.takes ⊆ (st.exec tid s).1.takes := by
  cases st with
  | run u => exact orderRun_takes_sub tid u
  | _ => exact fun _ h => h

theorem hashesSeen_invariant (ext : Externals) :
    StepInvariant ext hashesSeen EscrowsReferenced (fun _ f s => KnowsTake s f) where
  init s hs := by
    obtain ⟨now,height,rfl⟩ := hs
    exact ⟨fun t ht => absurd ht List.not_mem_nil,fun r hr => absurd hr List.not_mem_nil,
      fun r hr => absurd hr List.not_mem_nil⟩
  launch cfg l s s' hc hi hl := by
    have hk := launch_rowsKept hl
    exact ⟨hi.of_orders hk.orders hk.takes hk.holds,
      fun _ f _ hf => hf.progress (hk.takes ▸ List.Subset.refl _) hk.holds⟩
  op l Γ op ch ls s hn hΓ hc hi hd he := by
    rcases he.rows with hk | ⟨st,rfl,hs⟩ | ⟨st,rfl,hs⟩
    · exact ⟨hi.of_orders hk.orders hk.takes hk.holds,
        fun _ _ f _ hf => hf.progress (hk.takes ▸ List.Subset.refl _) hk.holds⟩
    · have hp := he.holdsProgress
      rw [hs] at hp ⊢
      refine ⟨referenced_orderStmt hc hi hn hΓ fun u hu => ?_,
        fun _ _ f _ hf => hf.progress (orderStmt_takes_sub l.tid s st) hp⟩
      subst hu
      exact hd
    · have hp := he.holdsProgress
      rw [hs] at hp ⊢
      have ht := bondStmt_rest st s State.takes
      exact ⟨hi.of_orders (bondStmt_orders st s) ht hp,
        fun _ _ f _ hf => hf.progress (ht ▸ List.Subset.refl _) hp⟩
  learn l Γ op ch ls s f hn hΓ hc hi hd hc' hi' hf hseen := by
    cases f with
    | order x =>
      obtain ⟨r,hr,rfl⟩ := hseen
      exact ⟨hi'.rows r hr,hi'.listed r hr⟩
    | _ => trivial
  env e ls s s' hc hi hd he := by
    have hk := he.rowsKept
    exact ⟨hi.of_orders hk.orders hk.takes hk.holds,
      fun _ _ f _ hf => hf.progress (hk.takes ▸ List.Subset.refl _) hk.holds⟩

/-- Where every write of the hash column finds the hash its handler had read, a hold invoice that
was stored on an order and is neither settled nor canceled is named on the order's row. -/
theorem live_escrow_referenced {cfg : Settings} {ext : Externals} (hext : ext.Documented)
    {c : DaemonState} (hc : (daemon cfg ext).Reach hashesSeen State.Initial c) {id : Uuid}
    {h : Hash} (ht : (id,h) ∈ c.shared.takes) (hlive : c.shared.cancelable h = true) :
    ∃ r ∈ c.shared.orders, r.order.id = id ∧ r.order.hash = some h := by
  rcases ((hashesSeen_invariant ext).reach hext hc).2.takes _ ht with (he | he) | hr
  · simp [State.cancelable,he] at hlive
  · simp [State.cancelable,he] at hlive
  · exact hr

theorem taken_order_names_escrow :
    ∃ c, (daemon plainSettings plainExternals).Reach hashesSeen State.Initial c ∧
      (1,3) ∈ c.shared.takes ∧ c.shared.cancelable 3 = true ∧
      ∃ r ∈ c.shared.orders, r.order.id = 1 ∧ r.order.hash = some 3 := by
  obtain ⟨c,hc,ht,hlive⟩ := reach_of_schedule plainSettings plainExternals hashesSeen takenSell
    (fun s => (1,3) ∈ s.takes ∧ s.cancelable 3 = true) (by decide +kernel)
  exact ⟨c,hc,ht,hlive,live_escrow_referenced plainExternals_documented hc ht hlive⟩

/-- An order is taken just before it expires.  The expiry job lists it as pending, the take stores
its hold invoice, and the job writes its copy, without a hold invoice, as expired. -/
theorem expiry_drops_escrow :
    ∃ cfg ext c, ext.Documented ∧ (daemon cfg ext).Reach System.Demand.none State.Initial c ∧
      (1,3) ∈ c.shared.takes ∧ c.shared.cancelable 3 = true ∧
      ∀ r ∈ c.shared.orders, r.order.hash ≠ some 3 := by
  obtain ⟨c,hc,h⟩ := reach_of_schedule plainSettings plainExternals System.Demand.none
    (alone 0 (.message (.newOrder ⟨some .sell,5000,100,none,none,none,100⟩ 7 7 7 none)) 5
      ++ .env (.tick 99) :: alone 2 (.message (.takeSell ⟨1,8,8,none,none,some 50⟩)) 10
      ++ .env (.tick 2) :: .start ⟨4,.job .expirePendingOlderOrders⟩ :: steps 1 2
      ++ steps 0 2 ++ steps 0 2)
    (fun s => (1,3) ∈ s.takes ∧ s.cancelable 3 = true ∧ ∀ r ∈ s.orders, r.order.hash ≠ some 3)
    (by decide +kernel)
  exact ⟨_,_,c,plainExternals_documented,hc,h⟩

end Mostro
