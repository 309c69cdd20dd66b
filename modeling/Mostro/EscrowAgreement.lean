import Mostro.TerminalOrders

set_option autoImplicit false

/-!
Orders against their escrow: a settled order has a settled hold invoice, and an order that ended
or went back to the book has none, as long as no handler writes from an outdated copy.
-/

namespace Mostro

open Interleaving SqlTable

/-- The statuses in which a take has ended without a payout, or has not begun. -/
def Status.isUnsettled : Status → Bool
  | .pending | .canceled | .canceledByAdmin | .cooperativelyCanceled | .expired => true
  | _ => false

def EscrowRow (s : State) (id : Uuid) (h : Hash) : Prop :=
  ∃ r ∈ s.orders, r.order.id = id ∧ r.order.hash = some h ∧ r.order.status.isEscrowed = true

/-- A settled escrow is the escrow of a row in an escrowed status, and a row stored as settled has
a settled escrow. -/
structure EscrowsAgree (s : State) : Prop where
  rows : ∀ h i id, s.hold? h = some i → i.memo = .escrow id → i.state = .settled →
    EscrowRow s id h
  settled : ∀ r ∈ s.orders, r.order.status = .settledHoldInvoice ∨ r.order.status = .success →
    ∃ h, r.order.hash = some h ∧ s.holdState h = some .settled

/-- Every full-row update and every reset finds the row in the status, and with the hold invoice,
that its handler had read. -/
def OrderUpdate.isFresh (s : State) (u : OrderUpdate) : Bool :=
  u.copy.all fun read => s.orders.all fun r =>
    r.order.id != read.id || (r.order.status == read.status && r.order.hash == read.hash)

abbrev copiesFresh : Requirement := .check
  (fun _ op _ _ s => match op with
    | .order (.run u) => u.isFresh s
    | _ => true)
  (fun _ _ _ => true)

def KnowsEscrowed (s : State) : Fact → Prop
  | .order o => o.status = .fiatSent ∨ o.status = .dispute → ∀ h, o.hash = some h →
      EscrowRow s o.id h ∨ s.holdState h = some .canceled
  | _ => True

theorem isFresh_copy {u : OrderUpdate} {s : State} {r : OrderRow} {read : Order}
    (hd : u.isFresh s = true) (hu : u.copy = some read) (hr : r ∈ s.orders)
    (hid : r.order.id = read.id) :
    r.order.status = read.status ∧ r.order.hash = read.hash := by
  simp only [OrderUpdate.isFresh,hu,Option.all_some,List.all_eq_true] at hd
  have := hd r hr
  simpa [hid] using this

theorem isBeforePayment_not_escrowed {st : Status} (h : st.isBeforePayment = true) :
    st.isEscrowed = false := by
  cases st <;> first | rfl | cases h

theorem isEscrowed_not_unsettled {st : Status} (h : st.isEscrowed = true) :
    st.isUnsettled = false := by
  cases st <;> first | rfl | cases h

theorem isEarly_not_escrowed {st : Status} (h : st.isEarly = true) : st.isEscrowed = false := by
  cases st <;> first | rfl | cases h

section

variable {req : Request} {Γ : Set Fact} {u : OrderUpdate} {s : State} {r : OrderRow}

theorem orderUpdate_escrowed {h : Hash} (hn : u.need req Γ) (hd : u.isFresh s = true)
    (hr : r ∈ s.orders) (hsel : u.selects s r = true) (hh : r.order.hash = some h)
    (he : r.order.status.isEscrowed = true) :
    ((u.set r).order.hash = some h ∧ (u.set r).order.status.isEscrowed = true) ∨
      .canceled h ∈ Γ := by
  rcases orderUpdate_cases hn hsel with ⟨read,hu⟩ | ⟨hea,_⟩ | ⟨hst,hsame⟩ | ⟨_,_,hst,hsame⟩ |
    ⟨_,_,hst,hsame⟩
  · obtain ⟨hread,hopen⟩ := hn.copy hu
    obtain ⟨hst,hhash⟩ := isFresh_copy hd hu hr ((orderUpdate_id hsel).trans hread.symm)
    cases u with
    | update x row =>
      cases hu
      rcases hn.escrowed (hst ▸ he) with ⟨hrow,hsame⟩ | hcan
      · exact .inl ⟨hsame.trans (hhash.symm.trans hh),hrow⟩
      · exact .inr (hcan h (hhash.symm.trans hh))
    | updateOrderToInitialState x a f d =>
      cases hu
      rw [hst,isBeforePayment_not_escrowed hn.1] at he
      cases he
    | _ => cases hu
  · rw [isEarly_not_escrowed hea] at he
    cases he
  · exact .inl ⟨hsame.trans hh,hst ▸ he⟩
  · exact .inl ⟨hsame.trans hh,by rw [hst]; rfl⟩
  · exact .inl ⟨hsame.trans hh,by rw [hst]; rfl⟩

end

section

variable {req : Request} {Γ : Set Fact} {tid : Nat} {s : State} {st : OrderStmt}

theorem escrowRow_orderStmt {id : Uuid} {h : Hash} (hn : st.need req Γ)
    (hd : ∀ u, st = .run u → u.isFresh s = true) (hrow : EscrowRow s id h) :
    EscrowRow (st.exec tid s).1 id h ∨ .canceled h ∈ Γ := by
  obtain ⟨r,hr,hid,hh,he⟩ := hrow
  cases st with
  | create o => exact .inl ⟨r,List.mem_append_left _ hr,hid,hh,he⟩
  | run u =>
    by_cases hsel : u.selects s r = true
    · refine (orderUpdate_escrowed hn (hd u rfl) hr hsel hh he).imp_left fun hset => ?_
      exact ⟨u.set r,mem_updateWhere.mpr ⟨r,hr,if_pos hsel⟩,(orderUpdate_set_id hsel).trans hid,
        hset⟩
    · exact .inl ⟨r,mem_updateWhere.mpr ⟨r,hr,if_neg hsel⟩,hid,hh,he⟩
  | deleteStranded x =>
    refine .inl ⟨r,List.mem_filter.mpr ⟨hr,?_⟩,hid,hh,he⟩
    have hst : r.order.status ≠ .waitingMakerBond := by
      intro h
      rw [h] at he
      cases he
    simp [State.deletable,hst]

theorem orderStmt_holdState (st : OrderStmt) (h : Hash) :
    (st.exec tid s).1.holdState h = s.holdState h := by
  rw [State.holdState,State.hold?,orderStmt_holds,← State.hold?,← State.holdState]

theorem settle_escrow {o : Order} {p : Hash} {r : OrderRow} (hc : Consistent s)
    (hΓ : ∀ f ∈ Γ, f.Lasts s ∧ KnowsEscrowed s f) (ho : Settleable Γ o p) (hp : .settled p ∈ Γ)
    (hr : r ∈ s.orders) (hid : r.order.id = o.id) :
    r.order.hash = some p ∧ s.holdState p = some .settled := by
  obtain ⟨hread,hpre,hst⟩ := ho
  have hset : s.holdState p = some .settled := (hΓ _ hp).1
  obtain ⟨⟨_,hesc,_⟩,hknown⟩ := hΓ _ hread
  rcases hknown hst p (hesc.symm.trans hpre) with ⟨r',hr',hid',hh,_⟩ | hcan
  · rw [hc.order_unique hr hr' (hid.trans hid'.symm)]
    exact ⟨hh,hset⟩
  · rw [hset] at hcan
    cases hcan

theorem settled_orderStmt (hc : Consistent s) (hi : EscrowsAgree s) (hn : st.need req Γ)
    (hΓ : ∀ f ∈ Γ, f.Lasts s ∧ KnowsEscrowed s f) :
    ∀ r ∈ (st.exec tid s).1.orders,
      r.order.status = .settledHoldInvoice ∨ r.order.status = .success →
      ∃ h, r.order.hash = some h ∧ s.holdState h = some .settled := by
  intro r hr hst
  cases st with
  | create o =>
    rcases List.mem_append.mp hr with hr | hr
    · exact hi.settled r hr hst
    · rw [List.mem_singleton.mp hr] at hst
      rcases hn.2.2.1 with h | h <;> rcases hst with h' | h' <;> exact nomatch h.symm.trans h'
  | deleteStranded id => exact hi.settled r (List.mem_of_mem_filter hr) hst
  | run u =>
    obtain ⟨q,hq,rfl⟩ := mem_updateWhere.mp hr
    by_cases hsel : u.selects s q = true
    · rw [if_pos hsel] at hst ⊢
      rcases orderUpdate_cases hn hsel with ⟨read,hu⟩ | ⟨_,h1,h2⟩ | ⟨heq,hh⟩ | ⟨hu,_,_,hh⟩ |
        ⟨_,hq',_,hh⟩
      · -- a full-row update never stores these statuses, and a reset stores `pending`
        cases u with
        | update x row => exact (hst.elim hn.notSettled hn.notSuccess).elim
        | updateOrderToInitialState x a f d => rcases hst with h | h <;> cases h
        | _ => cases hu
      · exact (hst.elim h1 h2).elim
      · rw [hh]
        exact hi.settled q hq (heq ▸ hst)
      · obtain ⟨o,p,ho,hid,hp,_⟩ : ∃ o p, Settleable Γ o p ∧ o.id = q.order.id ∧
            .settled p ∈ Γ ∧ .captured p ∈ Γ := by
          rcases hu with rfl | rfl <;> exact hn.2
        rw [hh]
        exact ⟨p,settle_escrow hc hΓ ho hp hq hid.symm⟩
      · rw [hh]
        exact hi.settled q hq (.inl hq')
    · rw [if_neg hsel] at hst ⊢
      exact hi.settled q hq hst

theorem escrowsAgree_orderStmt (hc : Consistent s) (hi : EscrowsAgree s) (hn : st.need req Γ)
    (hΓ : ∀ f ∈ Γ, f.Lasts s ∧ KnowsEscrowed s f)
    (hd : ∀ u, st = .run u → u.isFresh s = true) : EscrowsAgree (st.exec tid s).1 := by
  refine ⟨fun h i id hh hm hst => ?_,fun r hr hst => ?_⟩
  · rw [State.hold?,orderStmt_holds,← State.hold?] at hh
    refine (escrowRow_orderStmt hn hd (hi.rows h i id hh hm hst)).resolve_right fun hcan => ?_
    have hcan : s.holdState h = some .canceled := (hΓ _ hcan).1
    rw [State.holdState,hh] at hcan
    simp [hst] at hcan
  · obtain ⟨h,hh,hset⟩ := settled_orderStmt hc hi hn hΓ r hr hst
    exact ⟨h,hh,(orderStmt_holdState st h).trans hset⟩

theorem knowsEscrowed_orderStmt {f : Fact} (hn : st.need req Γ)
    (hΓ : ∀ f ∈ Γ, f.Lasts s ∧ KnowsEscrowed s f)
    (hd : ∀ u, st = .run u → u.isFresh s = true) (hf : KnowsEscrowed s f) :
    KnowsEscrowed (st.exec tid s).1 f := by
  cases f with
  | order o =>
    intro ho h hh
    rw [orderStmt_holdState]
    rcases hf ho h hh with hrow | hcan
    · exact (escrowRow_orderStmt hn hd hrow).imp_right fun hcan => (hΓ (.canceled h) hcan).1
    · exact .inr hcan
  | _ => trivial

end

theorem KnowsEscrowed.of_orders {s s' : State} {f : Fact} (ho : s'.orders = s.orders)
    (hh : HoldsProgress s s') (hf : KnowsEscrowed s f) : KnowsEscrowed s' f := by
  cases f with
  | order o =>
    intro hst h hhash
    refine (hf hst h hhash).imp ?_ (hh.holdState (.inr rfl))
    rintro ⟨r,hr,hrow⟩
    exact ⟨r,ho ▸ hr,hrow⟩
  | _ => trivial

theorem HoldsProgress.memo {s s' : State} (hp : HoldsProgress s s') (h : Hash) (i : Hold)
    (hi : s.hold? h = some i) (j : Hold) (hj : s'.hold? h = some j) : j.memo = i.memo := by
  obtain ⟨k,hk,hb⟩ := hp h i hi
  rw [hj] at hk
  cases hk
  exact hb.memo

theorem EscrowsAgree.of_orders {s s' : State} (hi : EscrowsAgree s) (ho : s'.orders = s.orders)
    (hh : HoldsProgress s s')
    (hset : ∀ h i id, s'.hold? h = some i → i.memo = .escrow id → i.state = .settled →
      s.holdState h = some .settled ∨ EscrowRow s id h) : EscrowsAgree s' := by
  refine ⟨fun h i id hi' hm hst => ?_,fun r hr hst => ?_⟩
  · have hrow : EscrowRow s id h := by
      rcases hset h i id hi' hm hst with hold | hrow
      · obtain ⟨j,hj,hjst⟩ := holdState_eq_some.mp hold
        exact hi.rows h j id hj ((hh.memo h j hj i hi').symm.trans hm) hjst
      · exact hrow
    obtain ⟨r,hr,hrow⟩ := hrow
    exact ⟨r,ho.symm ▸ hr,hrow⟩
  · obtain ⟨h,hhash,hset⟩ := hi.settled r (ho ▸ hr) hst
    exact ⟨h,hhash,hh.holdState (.inl rfl) hset⟩

theorem settle_order {req : Request} {Γ : Set Fact} {s : State} {h : Hash} {i : Hold} {id : Uuid}
    (hc : Consistent s) (hΓ : ∀ f ∈ Γ, f.Lasts s) (hn : (LndCall.settleHoldInvoice h).need req Γ)
    (hi : s.hold? h = some i) (hm : i.memo = .escrow id) :
    req.settles id ∧ ∃ o, Settleable Γ o h ∧ o.id = id ∧ o.hash = some h := by
  rcases hn with ⟨o,ho,hreq⟩ | ⟨b,hb,hpre⟩
  · obtain ⟨_,hesc,hhold⟩ := hΓ _ ho.1
    have hhash : o.hash = some h := hesc.symm.trans ho.2.1
    obtain ⟨j,hj,hjm⟩ := hhold h hhash
    rw [hi] at hj
    cases hj
    rw [hm] at hjm
    cases hjm
    exact ⟨hreq,o,ho,rfl,hhash⟩
  · obtain ⟨_,r,hr,hcore,_⟩ := hΓ _ hb
    have hrpre : r.preimage = some h := hcore.preimage.trans hpre
    cases hp : r.parentBondId with
    | none =>
      obtain ⟨x,_,hx,⟨j,hj,hjm⟩,_⟩ := hc.ownBond hr hp
      rw [hrpre] at hx
      cases hx
      rw [hi] at hj
      cases hj
      rw [hm] at hjm
      cases hjm
    | some p =>
      have hchild := hc.bond r hr
      simp only [BondEscrow,hp] at hchild
      cases hchild.2.1.symm.trans hrpre

theorem settle_escrowRow (req : Request) {Γ : Set Fact} {s : State} {h : Hash} {i : Hold}
    {id : Uuid} (hc : Consistent s) (hΓ : ∀ f ∈ Γ, f.Lasts s ∧ KnowsEscrowed s f)
    (hn : (LndCall.settleHoldInvoice h).need req Γ) (hi : s.hold? h = some i)
    (hm : i.memo = .escrow id) (hst : s.holdState h = some .accepted) : EscrowRow s id h := by
  obtain ⟨_,o,ho,rfl,hhash⟩ := settle_order hc (fun f hf => (hΓ f hf).1) hn hi hm
  refine ((hΓ _ ho.1).2 ho.2.2 h hhash).resolve_right fun hcan => ?_
  exact nomatch hst.symm.trans hcan

theorem escrowsAgree_effect {l : Label} {Γ : Set Fact} {op : Op} {ch : Choice} {ls : List Label}
    {s s' : State} (hc : Consistent s) (hi : EscrowsAgree s) (hn : op.need l.req Γ)
    (hΓ : ∀ f ∈ Γ, f.Lasts s ∧ KnowsEscrowed s f) (hd : copiesFresh.onOp l op ch ls s)
    (he : Effect l.tid op s s') :
    EscrowsAgree s' ∧ ∀ f, KnowsEscrowed s f → KnowsEscrowed s' f := by
  have hkeep : s'.orders = s.orders →
      EscrowsAgree s' ∧ ∀ f, KnowsEscrowed s f → KnowsEscrowed s' f := by
    intro ho
    refine ⟨hi.of_orders ho he.holdsProgress fun h i id hi' hm hst => ?_,fun f hf =>
      hf.of_orders ho he.holdsProgress⟩
    refine (he.settled_from (holdState_eq_some.mpr ⟨i,hi',hst⟩)).imp_right ?_
    rintro ⟨rfl,hacc⟩
    obtain ⟨j,hj,_⟩ := holdState_eq_some.mp hacc
    exact settle_escrowRow l.req hc hΓ hn hj
      ((he.holdsProgress.memo h j hj i hi').symm.trans hm) hacc
  rcases he.rows with hk | ⟨st,rfl,rfl⟩ | ⟨st,rfl,rfl⟩
  · exact hkeep hk.orders
  · have hfresh : ∀ u, st = .run u → u.isFresh s = true := by
      rintro u rfl
      exact hd
    exact ⟨escrowsAgree_orderStmt hc hi hn hΓ hfresh,fun f hf =>
      knowsEscrowed_orderStmt hn hΓ hfresh hf⟩
  · exact hkeep (bondStmt_orders st s)

theorem copiesFresh_invariant (ext : Externals) :
    StepInvariant ext copiesFresh EscrowsAgree (fun _ f s => KnowsEscrowed s f) where
  init s hs := by
    obtain ⟨now,height,rfl⟩ := hs
    exact ⟨fun h i id hh => by simp [State.hold?] at hh,fun r hr => by simp at hr⟩
  launch cfg l s s' hc hi hl := by
    have hk := launch_rowsKept hl
    obtain ⟨_,rfl⟩ := launch_eq hl
    refine ⟨hi.of_orders rfl hk.holds fun h i id hh hm hst => .inl ?_,fun _ f _ hf =>
      hf.of_orders rfl hk.holds⟩
    exact holdState_eq_some.mpr ⟨i,hh,hst⟩
  op l Γ op ch ls s hn hΓ hc hi hd he := by
    obtain ⟨hinv,hknown⟩ := escrowsAgree_effect hc hi hn hΓ hd he
    exact ⟨hinv,fun _ _ f _ hf => hknown f hf⟩
  learn l Γ op ch ls s f hn hΓ hc hi hd hc' hinv hf hseen := by
    cases f with
    | order o =>
      obtain ⟨r,hr,rfl⟩ := hseen
      intro hst h hh
      refine .inl ⟨r,hr,rfl,hh,?_⟩
      rcases hst with hst | hst <;> rw [hst] <;> rfl
    | _ => trivial
  env e ls s s' hc hi hd he := by
    have hk := he.rowsKept
    refine ⟨hi.of_orders hk.orders hk.holds fun h i id hh hm hst => .inl ?_,
      fun _ _ f _ hf => hf.of_orders hk.orders hk.holds⟩
    exact he.settled_from (holdState_eq_some.mpr ⟨i,hh,hst⟩)

/-- Where every write without a guard finds the row as its handler had read it, an order stored as
settled has a settled hold invoice, and none of the hold invoices of an order that is back in the
book, canceled or expired is settled. -/
theorem order_agrees_with_escrow {cfg : Settings} {ext : Externals} (hext : ext.Documented)
    {c : DaemonState} (hc : (daemon cfg ext).Reach copiesFresh State.Initial c) {r : OrderRow}
    (hr : r ∈ c.shared.orders) :
    (r.order.status = .settledHoldInvoice ∨ r.order.status = .success →
      ∃ h, r.order.hash = some h ∧ c.shared.holdState h = some .settled) ∧
    (r.order.status.isUnsettled = true →
      ∀ h, (r.order.id,h) ∈ c.shared.takes → c.shared.holdState h ≠ some .settled) := by
  obtain ⟨hcons,hi⟩ := (copiesFresh_invariant ext).reach hext hc
  refine ⟨hi.settled r hr,fun hst h htake hset => ?_⟩
  obtain ⟨i,hhold,hm⟩ := hcons.takes _ htake
  obtain ⟨j,hj,hjst⟩ := holdState_eq_some.mp hset
  rw [hhold] at hj
  cases hj
  obtain ⟨r',hr',hid,_,hesc⟩ := hi.rows h i _ hhold hm hjst
  rw [hcons.order_unique hr' hr hid] at hesc
  exact absurd hst (by simp [isEscrowed_not_unsettled hesc])

def activeSell : Schedule :=
  .env (.tick 10) :: takenSell ++ .env (.accept 3 100) :: alone 4 (.escrowInvoice 3) 6

theorem released_order_has_settled_escrow :
    ∃ c, (daemon plainSettings plainExternals).Reach copiesFresh State.Initial c ∧
      ∃ r ∈ c.shared.orders, r.order.status = .settledHoldInvoice ∧
        ∃ h, r.order.hash = some h ∧ c.shared.holdState h = some .settled := by
  obtain ⟨c,hc,r,hr,hst⟩ := reach_of_schedule plainSettings plainExternals copiesFresh
    (activeSell ++ alone 5 (.message (.fiatSent 1 8 none)) 3
      ++ alone 6 (.message (.release 1 7 none)) 11)
    (fun s => ∃ r ∈ s.orders, r.order.status = .settledHoldInvoice) (by decide +kernel)
  exact ⟨c,hc,r,hr,hst,(order_agrees_with_escrow plainExternals_documented hc hr).1 (.inl hst)⟩

/-- The deadline guardian has listed the active order when the buyer sends the fiat and the seller
releases.  The settled invoice has no accepted part left, so the guardian takes the escrow to be
gone, passes over the refused cancel and stores its copy of the order as canceled. -/
theorem settled_order_becomes_canceled :
    ∃ cfg ext c, ext.Documented ∧ (daemon cfg ext).Reach System.Demand.none State.Initial c ∧
      ∃ r ∈ c.shared.orders, r.order.status = .canceled ∧
        ∃ h ∈ r.order.hash, (r.order.id,h) ∈ c.shared.takes ∧
          c.shared.holdState h = some .settled := by
  obtain ⟨c,h⟩ := reach_of_schedule plainSettings plainExternals System.Demand.none
    (activeSell ++ .env (.tick 200000) :: .start ⟨5,.job .enforceEscrowDeadline⟩ :: steps 0 3
      ++ .start ⟨6,.message (.fiatSent 1 8 none)⟩ :: steps 1 3
      ++ .start ⟨7,.message (.release 1 7 none)⟩ :: steps 1 11 ++ steps 0 5)
    (fun s => ∃ r ∈ s.orders, r.order.status = .canceled ∧
      ∃ h ∈ r.order.hash, (r.order.id,h) ∈ s.takes ∧ s.holdState h = some .settled)
    (by decide +kernel)
  exact ⟨_,_,c,plainExternals_documented,h⟩

end Mostro
