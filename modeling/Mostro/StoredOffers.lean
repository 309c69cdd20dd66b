import Mostro.DaemonInvariants

set_option autoImplicit false

/-!
What an order offers never changes: its kind, its range, who prices it and the order it is the
remainder of.  A whole-row write takes all of these from a copy of the order.
-/

namespace Mostro

open Interleaving SqlTable

def OfferKnown (s : State) : Fact → Prop
  | .order x => ∀ r ∈ s.orders, r.order.id = x.id → r.order.offer = x.offer
  | _ => True

theorem OfferKnown.of_orders {s s' : State} {f : Fact} (h : OfferKnown s f)
    (ho : s'.orders = s.orders) : OfferKnown s' f := by
  cases f with
  | order x => simpa only [OfferKnown,ho] using h
  | _ => trivial

section

variable {req : Request} {Γ : Set Fact} {s : State} {r : OrderRow}

theorem orderUpdate_offer {u : OrderUpdate} (hn : u.need req Γ) (hΓ : ∀ f ∈ Γ, OfferKnown s f)
    (hr : r ∈ s.orders) (hsel : u.selects s r = true) :
    (u.set r).order.offer = r.order.offer := by
  cases u with
  | update read row =>
    obtain ⟨x,hx,hid,hoffer,_⟩ := RowWrite.offer hn
    have hrow : r.order.id = row.id := orderUpdate_id hsel
    exact hoffer.symm.trans (hΓ _ hx r hr (hrow.trans hid.symm)).symm
  | editPubkeysOrder id kind => cases kind <;> rfl
  | casPromoteTakerContext o =>
    simp only [OrderUpdate.set]
    split <;> rfl
  | _ => rfl

theorem orderStmt_offer {tid : Nat} {st : OrderStmt} (hn : st.need req Γ)
    (hΓ : ∀ f ∈ Γ, OfferKnown s f) (hr : r ∈ (st.exec tid s).1.orders) :
    (∃ q ∈ s.orders, q.order.id = r.order.id ∧ r.order.offer = q.order.offer) ∨
      ∃ o, st = .create o ∧ r = { order := { o with id := s.nextId } } := by
  cases st with
  | create o =>
    rcases List.mem_append.mp hr with hr | hr
    · exact .inl ⟨r,hr,rfl,rfl⟩
    · exact .inr ⟨o,rfl,List.mem_singleton.mp hr⟩
  | run u =>
    obtain ⟨q,hq,rfl⟩ := mem_updateWhere.mp hr
    refine .inl ⟨q,hq,?_⟩
    split
    next hsel => exact ⟨(orderUpdate_set_id hsel).symm,orderUpdate_offer hn hΓ hq hsel⟩
    · exact ⟨rfl,rfl⟩
  | deleteStranded id => exact .inl ⟨r,List.mem_of_mem_filter hr,rfl,rfl⟩

theorem offerKnown_effect {tid : Nat} {op : Op} {s' : State} {x : Order} (hn : op.need req Γ)
    (hΓ : ∀ f ∈ Γ, OfferKnown s f) (he : Effect tid op s s') (hlt : x.id < s.nextId)
    (hx : OfferKnown s (.order x)) : OfferKnown s' (.order x) := by
  rcases he.rows with hk | ⟨st,rfl,rfl⟩ | ⟨st,_,rfl⟩
  · exact hx.of_orders hk.orders
  · intro r hr hid
    rcases orderStmt_offer hn hΓ hr with ⟨q,hq,hqid,hoffer⟩ | ⟨o,_,rfl⟩
    · exact hoffer.trans (hx q hq (hqid.trans hid))
    · exact absurd hid.symm (Nat.ne_of_lt hlt)
  · exact hx.of_orders (bondStmt_orders st s)

end

theorem offers_invariant (ext : Externals) (D : Requirement) :
    StepInvariant ext D (fun _ => True) (fun _ f s => OfferKnown s f) where
  init _ _ := trivial
  launch cfg l s s' _ _ hl :=
    ⟨trivial,fun _ _ _ hf => hf.of_orders (launch_rowsKept hl).orders⟩
  op l Γ op ch ls s hn hΓ _ _ _ he := by
    refine ⟨trivial,fun _ _ f hlasts hf => ?_⟩
    cases f with
    | order x => exact offerKnown_effect hn (fun f hf => (hΓ f hf).2) he hlasts.1 hf
    | _ => trivial
  learn l Γ op ch ls s f _ _ _ _ _ hc' _ _ hseen := by
    cases f with
    | order x =>
      obtain ⟨q,hq,rfl⟩ := hseen
      intro r hr hid
      rw [hc'.order_unique hr hq hid]
    | _ => trivial
  env e ls s s' _ _ _ he := ⟨trivial,fun _ _ _ _ hf => hf.of_orders he.rowsKept.orders⟩

/-- In every run, whatever the steps, an order keeps what it offers. -/
theorem offer_kept_of_run {cfg : Settings} {ext : Externals} {D : Requirement} {c c' : DaemonState}
    (hext : ext.Documented) (hc : (daemon cfg ext).Reach D State.Initial c)
    (hrun : (daemon cfg ext).Run D c c') {r r' : OrderRow} (hr : r ∈ c.shared.orders)
    (hr' : r' ∈ c'.shared.orders) (hid : r'.order.id = r.order.id) :
    r'.order.offer = r.order.offer := by
  have hcons := reach_consistent hext hc
  have hknown : OfferKnown c.shared (.order r.order) := fun q hq h => by
    rw [hcons.order_unique hq hr h]
  refine (((offers_invariant ext D).upholds hext cfg).lasts
    (P := fun s => r.order.id < s.nextId ∧ OfferKnown s (.order r.order))
    (fun l s s' _ hl h => ?_) (fun l Γ op ch ls s hn hΓ _ _ h => ?_) (fun e ls s s' _ _ he h => ?_)
    hc hrun ⟨hcons.orderIds_lt r hr,hknown⟩).2 r' hr' hid
  · have hk := launch_rowsKept hl
    exact ⟨lt_of_lt_of_le h.1 hk.nextId,h.2.of_orders hk.orders⟩
  · have he := exec_effect ext l.tid op ch s
    exact ⟨lt_of_lt_of_le h.1 he.nextId_le,
      offerKnown_effect hn (fun f hf => (hΓ f hf).2) he h.1 h.2⟩
  · have hk := (env_moves he).rowsKept
    exact ⟨lt_of_lt_of_le h.1 hk.nextId,h.2.of_orders hk.orders⟩

theorem taken_order_offers_same :
    ∃ c c' r r', (daemon plainSettings plainExternals).Run System.Demand.none c c' ∧
      r ∈ c.shared.orders ∧ r.order.status = .pending ∧ r' ∈ c'.shared.orders ∧
      r'.order.status = .waitingPayment ∧ r'.order.offer = r.order.offer := by
  obtain ⟨c,c',hc,hrun,⟨r,hr,hid,hst⟩,r',hr',hid',hst'⟩ := run_of_schedules plainSettings
    plainExternals System.Demand.none (takenSell.take 6) (takenSell.drop 6)
    (fun s => ∃ r ∈ s.orders, r.order.id = 1 ∧ r.order.status = .pending)
    (fun s => ∃ r ∈ s.orders, r.order.id = 1 ∧ r.order.status = .waitingPayment)
    (by decide +kernel)
  exact ⟨c,c',r,r',hrun,hr,hst,hr',hst',offer_kept_of_run plainExternals_documented hc hrun hr hr'
    (hid'.trans hid.symm)⟩

end Mostro
