import Mostro.StepEffects

set_option autoImplicit false

/-!
What the stored rows always satisfy: ids are unique, an order's escrow and a bond's hold invoice
are invoices of the node made for them, and a bond's state agrees with its hold invoice.
-/

namespace Mostro

open Interleaving SqlTable

variable {s s' : State} {h : Hash} {o : Order} {b r : Bond} {x : BondState} {p : Uuid}
variable {Γ : Set Fact} {req : Request} {u : BondUpdate} {st : BondStmt}

/-- The node has the hold invoice, made for this purpose. -/
def HasHold (s : State) (h : Hash) (memo : HoldMemo) : Prop :=
  ∃ i, s.hold? h = some i ∧ i.memo = memo

theorem HasHold.progress {memo : HoldMemo} (hp : HoldsProgress s s') (hh : HasHold s h memo) :
    HasHold s' h memo := by
  obtain ⟨i,hi,hm⟩ := hh
  obtain ⟨j,hj,hb⟩ := hp h i hi
  exact ⟨j,hj,hb.memo.trans hm⟩

def OrderEscrow (s : State) (o : Order) : Prop :=
  o.preimage = o.hash ∧ ∀ h, o.hash = some h → HasHold s h (.escrow o.id)

theorem OrderEscrow.progress (hp : HoldsProgress s s') (ho : OrderEscrow s o) : OrderEscrow s' o :=
  ⟨ho.1,fun h hh => (ho.2 h hh).progress hp⟩

structure Bond.SameCore (b r : Bond) : Prop where
  id : r.id = b.id
  orderId : r.orderId = b.orderId
  parentBondId : r.parentBondId = b.parentBondId
  childOrderId : r.childOrderId = b.childOrderId
  pubkey : r.pubkey = b.pubkey
  role : r.role = b.role
  amountSats : r.amountSats = b.amountSats
  hash : r.hash = b.hash
  preimage : r.preimage = b.preimage

theorem Bond.SameCore.rfl : b.SameCore b := by constructor <;> rfl

theorem Bond.SameCore.trans {a c : Bond} (h₁ : a.SameCore b) (h₂ : b.SameCore c) :
    a.SameCore c where
  id := h₂.id.trans h₁.id
  orderId := h₂.orderId.trans h₁.orderId
  parentBondId := h₂.parentBondId.trans h₁.parentBondId
  childOrderId := h₂.childOrderId.trans h₁.childOrderId
  pubkey := h₂.pubkey.trans h₁.pubkey
  role := h₂.role.trans h₁.role
  amountSats := h₂.amountSats.trans h₁.amountSats
  hash := h₂.hash.trans h₁.hash
  preimage := h₂.preimage.trans h₁.preimage

/-- A bond never returns to `requested`, and once it is neither requested nor locked it never is
again. -/
def BondState.Leads (x y : BondState) : Prop :=
  (x ≠ .requested → y ≠ .requested) ∧ (x.isActive = false → y.isActive = false)

theorem BondState.Leads.rfl : x.Leads x := ⟨id,id⟩

theorem BondState.Leads.trans {y z : BondState} (h₁ : x.Leads y) (h₂ : y.Leads z) : x.Leads z :=
  ⟨fun h => h₂.1 (h₁.1 h),fun h => h₂.2 (h₁.2 h)⟩

def Bond.Becomes (b r : Bond) : Prop := b.SameCore r ∧ b.state.Leads r.state

theorem Bond.Becomes.rfl : b.Becomes b := ⟨.rfl,.rfl⟩

theorem Bond.Becomes.trans {a c : Bond} (h₁ : a.Becomes b) (h₂ : b.Becomes c) : a.Becomes c :=
  ⟨h₁.1.trans h₂.1,h₁.2.trans h₂.2⟩

def BondsProgress (s s' : State) : Prop := ∀ b ∈ s.bonds, ∃ r ∈ s'.bonds, b.Becomes r

theorem BondsProgress.of_eq (h : s'.bonds = s.bonds) : BondsProgress s s' := by
  intro b hb
  exact ⟨b,h ▸ hb,.rfl⟩

/-- The states in which the node holds the bond's money. -/
def BondState.isCaptured : BondState → Bool
  | .pendingPayout | .slashed | .forfeited | .failed => true
  | _ => false

/-- A bond of its own has a hold invoice, settled when the bond is slashed and canceled when it is
released. -/
def OwnBond (s : State) (b : Bond) : Prop :=
  ∃ h, b.hash = some h ∧ b.preimage = some h ∧ HasHold s h (.bond b.orderId) ∧
    (b.state.isCaptured = true → s.holdState h = some .settled) ∧
    (b.state = .released → s.holdState h = some .canceled)

/-- A child row has no hold invoice and is never active; its parent is a bond of its own that was
once locked. -/
def ChildBond (s : State) (b : Bond) (p : Uuid) : Prop :=
  b.hash = none ∧ b.preimage = none ∧ b.state.isActive = false ∧
    ∃ q ∈ s.bonds, q.id = p ∧ q.parentBondId = none ∧ q.state ≠ .requested

def BondEscrow (s : State) (b : Bond) : Prop :=
  match b.parentBondId with
  | none => OwnBond s b
  | some p => ChildBond s b p

theorem OwnBond.progress (hp : HoldsProgress s s') (h : OwnBond s b) : OwnBond s' b := by
  obtain ⟨x,h1,h2,h3,h4,h5⟩ := h
  exact ⟨x,h1,h2,h3.progress hp,fun hc => hp.holdState (.inl rfl) (h4 hc),
    fun hr => hp.holdState (.inr rfl) (h5 hr)⟩

theorem ChildBond.progress (hp : BondsProgress s s') (h : ChildBond s b p) : ChildBond s' b p := by
  obtain ⟨h1,h2,h3,q,hq,hid,hpar,hst⟩ := h
  obtain ⟨r,hr,hcore,hlead⟩ := hp q hq
  exact ⟨h1,h2,h3,r,hr,hcore.id.trans hid,hcore.parentBondId.trans hpar,hlead.1 hst⟩

theorem BondEscrow.progress (hh : HoldsProgress s s') (hb : BondsProgress s s') (h : BondEscrow s b) :
    BondEscrow s' b := by
  unfold BondEscrow at h ⊢
  split at h
  · exact h.progress hh
  · exact h.progress hb

structure Consistent (s : State) : Prop where
  orderIds : (s.orders.map (·.order.id)).Nodup
  orderIds_lt : ∀ r ∈ s.orders, r.order.id < s.nextId
  bondIds : (s.bonds.map (·.id)).Nodup
  bondIds_lt : ∀ b ∈ s.bonds, b.id < s.nextId
  holds_lt : ∀ i ∈ s.holds, i.hash < s.nextId
  escrow : ∀ r ∈ s.orders, OrderEscrow s r.order
  takes : ∀ t ∈ s.takes, HasHold s t.2 (.escrow t.1)
  bond : ∀ b ∈ s.bonds, BondEscrow s b

def Fact.Lasts (s : State) : Fact → Prop
  | .order o => o.id < s.nextId ∧ OrderEscrow s o
  | .bond b => b.id < s.nextId ∧ ∃ r ∈ s.bonds, b.Becomes r
  | .parent b => b.state ≠ .requested ∧ ∃ r ∈ s.bonds, b.Becomes r
  | .created memo h => HasHold s h memo
  | .priced h amount => ∃ i, s.hold? h = some i ∧ i.amount = amount
  | .accepted h => (s.hold? h).isSome = true
  | .canceled h => s.holdState h = some .canceled
  | .settled h | .captured h => s.holdState h = some .settled
  | .dispute _ | .resolved _ | .unreset _ | .claimed _ | .promoted _ => True

theorem Fact.Lasts.of_seen {f : Fact} (hc : Consistent s) (h : f.Seen s)
    (hp : ∀ b, f = .parent b → b.state ≠ .requested) : f.Lasts s := by
  cases f with
  | order o =>
    obtain ⟨r,hr,rfl⟩ := h
    exact ⟨hc.orderIds_lt r hr,hc.escrow r hr⟩
  | bond b => exact ⟨hc.bondIds_lt b h,b,h,.rfl⟩
  | parent b => exact ⟨hp b rfl,b,h,.rfl⟩
  | accepted x =>
    obtain ⟨i,hi,_⟩ := h
    exact Option.isSome_iff_exists.mpr ⟨i,hi⟩
  | created | priced | canceled | settled | captured => exact h
  | dispute | resolved | unreset | claimed | promoted => trivial

theorem Fact.Lasts.progress {f : Fact} (hn : s.nextId ≤ s'.nextId) (hh : HoldsProgress s s')
    (hb : BondsProgress s s') (h : f.Lasts s) : f.Lasts s' := by
  cases f with
  | order o => exact ⟨lt_of_lt_of_le h.1 hn,h.2.progress hh⟩
  | bond b =>
    obtain ⟨hlt,r,hr,hbr⟩ := h
    obtain ⟨r',hr',hb'⟩ := hb r hr
    exact ⟨lt_of_lt_of_le hlt hn,r',hr',hbr.trans hb'⟩
  | parent b =>
    obtain ⟨hst,r,hr,hbr⟩ := h
    obtain ⟨r',hr',hb'⟩ := hb r hr
    exact ⟨hst,r',hr',hbr.trans hb'⟩
  | created memo x => exact HasHold.progress hh h
  | priced x amount =>
    obtain ⟨i,hi,rfl⟩ := h
    obtain ⟨j,hj,hb⟩ := hh x i hi
    exact ⟨j,hj,hb.amount⟩
  | accepted x =>
    obtain ⟨i,hi⟩ := Option.isSome_iff_exists.mp h
    obtain ⟨j,hj,_⟩ := hh x i hi
    exact Option.isSome_iff_exists.mpr ⟨j,hj⟩
  | canceled x => exact hh.holdState (.inr rfl) h
  | settled x | captured x => exact hh.holdState (.inl rfl) h
  | dispute | resolved | unreset | claimed | promoted => trivial

theorem Consistent.hold?_nextId (hc : Consistent s) : s.hold? s.nextId = none := by
  refine List.find?_eq_none.mpr fun i hi => ?_
  simpa using Nat.ne_of_lt (hc.holds_lt i hi)

theorem Consistent.order_unique (hc : Consistent s) {r r' : OrderRow} (hr : r ∈ s.orders)
    (hr' : r' ∈ s.orders) (h : r.order.id = r'.order.id) : r = r' :=
  List.inj_on_of_nodup_map hc.orderIds hr hr' h

theorem Consistent.bond_unique (hc : Consistent s) {b' : Bond} (hb : b ∈ s.bonds)
    (hb' : b' ∈ s.bonds) (h : b.id = b'.id) : b = b' :=
  List.inj_on_of_nodup_map hc.bondIds hb hb' h

theorem Consistent.parent (hc : Consistent s) (hb : b ∈ s.bonds) (hp : b.parentBondId = some p) :
    ∃ q ∈ s.bonds, q.id = p ∧ q.parentBondId = none ∧ q.state ≠ .requested := by
  have h := hc.bond b hb
  simp only [BondEscrow,hp] at h
  exact h.2.2.2

theorem Consistent.ownBond (hc : Consistent s) (hb : b ∈ s.bonds) (hp : b.parentBondId = none) :
    OwnBond s b := by
  have h := hc.bond b hb
  simpa only [BondEscrow,hp] using h

theorem Query.need.parent_locked {q : Query} (hc : Consistent s) (hΓ : ∀ f ∈ Γ, f.Lasts s)
    (hn : q.need Γ) (hb : .parent b ∈ q.learn (q.run s)) : b.state ≠ .requested := by
  cases q with
  | findBondById id =>
    cases hfind : s.bond? id with
    | none => simp [Query.run,Query.learn,hfind] at hb
    | some q =>
      simp only [Query.run,Query.learn,hfind,Set.mem_singleton_iff,Fact.parent.injEq] at hb
      subst hb
      have hbid : b.id = id := by simpa using List.find?_some hfind
      obtain ⟨child,hchild,hp⟩ := hn
      obtain ⟨_,r,hr,hbr⟩ := hΓ _ hchild
      obtain ⟨q,hq,hid,_,hst⟩ := hc.parent hr (hbr.1.parentBondId.trans hp)
      rwa [hc.bond_unique (List.mem_of_find?_eq_some hfind) hq (hbid.trans hid.symm)]
  | _ =>
    simp [Query.learn,ordersRead,bondsRead,disputesRead] at hb

theorem Consistent.bondHold (hc : Consistent s) (hb : (Fact.bond b).Lasts s) (hh : b.hash = some h) :
    ∃ id, HasHold s h (.bond id) := by
  obtain ⟨_,r,hr,hcore,_⟩ := hb
  have hbe := hc.bond r hr
  have hrh : r.hash = some h := hcore.hash.trans hh
  unfold BondEscrow at hbe
  split at hbe
  · obtain ⟨x,hx,_,hold,_⟩ := hbe
    rw [hrh] at hx
    cases hx
    exact ⟨_,hold⟩
  · exact nomatch hrh.symm.trans hbe.1

theorem KnowsHold.isSome (hc : Consistent s) (hΓ : ∀ f ∈ Γ, f.Lasts s) (hk : KnowsHold req Γ h) :
    (s.hold? h).isSome := by
  rcases hk with ⟨_,memo,hm⟩ | ⟨o,⟨ho,_⟩,hh⟩ | ⟨b,hb,hh⟩
  · obtain ⟨i,hi,_⟩ := hΓ _ hm
    simp [hi]
  · obtain ⟨i,hi,_⟩ := (hΓ _ ho).2.2 h hh
    simp [hi]
  · obtain ⟨_,i,hi,_⟩ := hc.bondHold (hΓ _ hb) hh
    simp [hi]

/-! ### Statements on orders -/

theorem orderUpdate_id {u : OrderUpdate} {r : OrderRow} (h : u.selects s r = true) :
    r.order.id = u.target := by
  simpa using (Bool.and_eq_true_iff.mp h).1

theorem orderUpdate_set_id {u : OrderUpdate} {r : OrderRow} (h : u.selects s r = true) :
    (u.set r).order.id = r.order.id := by
  have hid := orderUpdate_id h
  cases u with
  | update read row => exact hid.symm
  | editPubkeysOrder id kind => cases kind <;> rfl
  | casPromoteTakerContext o =>
    simp only [OrderUpdate.set]
    split <;> rfl
  | _ => rfl

def OrderUpdate.copy : OrderUpdate → Option Order
  | .update read _ => some read
  | .updateOrderToInitialState read _ _ _ => some read
  | _ => none

def Status.isEarly : Status → Bool
  | .pending | .waitingTakerBond | .waitingMakerBond | .waitingPayment | .waitingBuyerInvoice =>
      true
  | _ => false

theorem pretrade_isEarly {st : Status} (h : pretradeStatuses.contains st = true) :
    st.isEarly = true := by
  cases st <;> first | rfl | cases h

theorem status_isEarly {st st' : Status} (h : (st == st') = true) (h' : st'.isEarly = true) :
    st.isEarly = true := by rwa [beq_iff_eq.mp h]

theorem unescrowed_unpaid {st : Status} (h : st.isEscrowed = false) :
    st ≠ .settledHoldInvoice ∧ st ≠ .success := by
  constructor <;> rintro rfl <;> cases h

theorem orderUpdate_cases {u : OrderUpdate} {r : OrderRow} (hn : u.need req Γ)
    (hsel : u.selects s r = true) :
    (∃ read, u.copy = some read) ∨
    (r.order.status.isEarly = true ∧ (u.set r).order.status ≠ .settledHoldInvoice ∧
      (u.set r).order.status ≠ .success) ∨
    ((u.set r).order.status = r.order.status ∧ (u.set r).order.hash = r.order.hash) ∨
    ((u = .settleFromRelease r.order.id ∨ u = .settleFromAdmin r.order.id) ∧
      (r.order.status = .fiatSent ∨ r.order.status = .dispute) ∧
      (u.set r).order.status = .settledHoldInvoice ∧ (u.set r).order.hash = r.order.hash) ∨
    (u = .paymentSuccess r.order.id ∧ r.order.status = .settledHoldInvoice ∧
      (u.set r).order.status = .success ∧ (u.set r).order.hash = r.order.hash) := by
  have hid := orderUpdate_id hsel
  have hguard : u.guard s r = true := (Bool.and_eq_true_iff.mp hsel).2
  cases u with
  | update read row => exact .inl ⟨read,rfl⟩
  | updateOrderToInitialState read a f d => exact .inl ⟨read,rfl⟩
  | editPubkeysOrder id kind => cases kind <;> exact .inr (.inr (.inl ⟨rfl,rfl⟩))
  | casPretradeOrderStatus id new =>
    refine .inr (.inl ⟨pretrade_isEarly hguard,?_⟩)
    rcases hn with rfl | ⟨rfl,_⟩ <;> exact unescrowed_unpaid rfl
  | casPromoteTakerContext o =>
    refine .inr (.inr (.inl ?_))
    simp only [OrderUpdate.set]
    split <;> exact ⟨rfl,rfl⟩
  | casCompletePretradeTake o allow =>
    have hearly : r.order.status.isEarly = true := by
      rcases Bool.or_eq_true_iff.mp hguard with h | h
      · exact pretrade_isEarly h
      · exact status_isEarly (Bool.and_eq_true_iff.mp h).2 rfl
    refine .inr (.inl ⟨hearly,?_⟩)
    simp only [OrderUpdate.set]
    rcases hn.1 with h | h <;> rw [h] <;> exact unescrowed_unpaid rfl
  | updateOrderCashuEscrow id mint token t expected new =>
    obtain ⟨rfl,rfl,_⟩ := hn
    simp only [OrderUpdate.guard,Bool.and_eq_true] at hguard
    exact .inr (.inl ⟨status_isEarly hguard.1.1 rfl,unescrowed_unpaid rfl⟩)
  | claimOrderStatus id expected new =>
    obtain ⟨rfl,rfl⟩ := hn
    simp only [OrderUpdate.guard,Bool.and_eq_true] at hguard
    exact .inr (.inl ⟨status_isEarly hguard.1 rfl,unescrowed_unpaid rfl⟩)
  | claimWaitingTakerBond id =>
    exact .inr (.inl ⟨status_isEarly hguard rfl,unescrowed_unpaid rfl⟩)
  | dropWaitingTakerBondToPending id =>
    exact .inr (.inl ⟨status_isEarly (Bool.and_eq_true_iff.mp hguard).1 rfl,unescrowed_unpaid rfl⟩)
  | claimDeferredPublication id =>
    exact .inr (.inl ⟨status_isEarly hguard rfl,unescrowed_unpaid rfl⟩)
  | settleFromRelease id =>
    have hst : r.order.status = .fiatSent ∨ r.order.status = .dispute := by
      simpa [OrderUpdate.guard] using hguard
    exact .inr (.inr (.inr (.inl ⟨.inl (by rw [hid]; rfl),hst,rfl,rfl⟩)))
  | settleFromAdmin id =>
    exact .inr (.inr (.inr (.inl ⟨.inr (by rw [hid]; rfl),.inr (beq_iff_eq.mp hguard),rfl,rfl⟩)))
  | paymentSuccess id =>
    exact .inr (.inr (.inr (.inr ⟨by rw [hid]; rfl,beq_iff_eq.mp hguard,rfl,rfl⟩)))
  | _ => exact .inr (.inr (.inl ⟨rfl,rfl⟩))

theorem SameEscrow.orderEscrow {x : Order} (h : SameEscrow x o) (hx : OrderEscrow s x) :
    OrderEscrow s o := by
  obtain ⟨hid,hh,hp,_⟩ := h
  refine ⟨by rw [← hp,← hh,hx.1],fun y hy => ?_⟩
  rw [← hid]
  exact hx.2 y (hh.trans hy)

theorem KnowsEscrow.orderEscrow (hΓ : ∀ f ∈ Γ, f.Lasts s) (h : KnowsEscrow Γ o) :
    OrderEscrow s o := by
  obtain ⟨x,hx,hsame⟩ := h
  exact hsame.orderEscrow (hΓ _ hx).2

theorem RowWrite.orderEscrow {read row : Order} (hΓ : ∀ f ∈ Γ, f.Lasts s)
    (h : RowWrite req Γ read row) : OrderEscrow s row := by
  rcases h.copy with h | ⟨x,k,hx,_,_,hsame⟩
  · exact h.orderEscrow hΓ
  · exact hsame.orderEscrow (hΓ _ hx).2

theorem take_orderEscrow (hΓ : ∀ f ∈ Γ, f.Lasts s)
    (h : KnowsEscrow Γ o ∨
      ∃ h, .created (.escrow o.id) h ∈ Γ ∧ o.hash = some h ∧ o.preimage = some h) :
    OrderEscrow s o := by
  rcases h with h | ⟨x,hx,hh,hp⟩
  · exact h.orderEscrow hΓ
  · refine ⟨hp.trans hh.symm,fun y hy => ?_⟩
    rw [hh] at hy
    cases hy
    exact hΓ _ hx

theorem orderUpdate_escrow {u : OrderUpdate} {r : OrderRow} (hn : u.need req Γ)
    (hΓ : ∀ f ∈ Γ, f.Lasts s) (hr : OrderEscrow s r.order) (hsel : u.selects s r = true) :
    OrderEscrow s (u.set r).order := by
  cases u with
  | update read row => exact RowWrite.orderEscrow hΓ hn
  | editPubkeysOrder id kind => cases kind <;> exact hr
  | updateOrderToInitialState read a f d => exact ⟨rfl,nofun⟩
  | casPromoteTakerContext o =>
    simp only [OrderUpdate.set]
    split <;> exact hr
  | casCompletePretradeTake o allow =>
    have ho := take_orderEscrow hΓ hn.2.1
    have hid : r.order.id = o.id := orderUpdate_id hsel
    refine ⟨ho.1,fun h hh => ?_⟩
    rw [show ((OrderUpdate.casCompletePretradeTake o allow).set r).order.id = o.id from hid]
    exact ho.2 h hh
  | _ => exact hr

theorem logTake_hasHold {u : OrderUpdate} (hn : u.need req Γ) (hΓ : ∀ f ∈ Γ, f.Lasts s) :
    ∀ t ∈ u.logTake, HasHold s t.2 (.escrow t.1) := by
  cases u with
  | casCompletePretradeTake o allow =>
    intro t ht
    obtain ⟨h,hh,rfl⟩ := List.mem_map.mp ht
    exact (take_orderEscrow hΓ hn.2.1).2 h (Option.mem_toList.mp hh)
  | _ => exact nofun

theorem consistent_orderStmt {tid : Nat} {st : OrderStmt} (hc : Consistent s) (hn : st.need req Γ)
    (hΓ : ∀ f ∈ Γ, f.Lasts s) : Consistent (st.exec tid s).1 := by
  cases st with
  | create o =>
    refine ⟨?_,?_,hc.bondIds,fun b hb => Nat.lt_succ_of_lt (hc.bondIds_lt b hb),
      fun i hi => Nat.lt_succ_of_lt (hc.holds_lt i hi),?_,hc.takes,hc.bond⟩
    · simp only [OrderStmt.exec,List.map_append,List.map_cons,List.map_nil]
      refine List.nodup_append.mpr ⟨hc.orderIds,by simp,fun x hx y hy => ?_⟩
      obtain ⟨r,hr,rfl⟩ := List.mem_map.mp hx
      rw [List.mem_singleton.mp hy]
      exact Nat.ne_of_lt (hc.orderIds_lt r hr)
    · intro r hr
      rcases List.mem_append.mp hr with hr | hr
      · exact Nat.lt_succ_of_lt (hc.orderIds_lt r hr)
      · rw [List.mem_singleton.mp hr]
        exact Nat.lt_succ_self _
    · intro r hr
      rcases List.mem_append.mp hr with hr | hr
      · exact hc.escrow r hr
      · rw [List.mem_singleton.mp hr]
        refine ⟨hn.2.1.trans hn.1.symm,fun h hh => ?_⟩
        cases hn.1.symm.trans hh
  | run u =>
    refine ⟨?_,?_,hc.bondIds,hc.bondIds_lt,hc.holds_lt,?_,?_,hc.bond⟩
    · simp only [OrderStmt.exec,OrderUpdate.run]
      rw [map_updateWhere (fun r : OrderRow => r.order.id) fun r _ h => orderUpdate_set_id h]
      exact hc.orderIds
    · refine forall_updateWhere hc.orderIds_lt fun r _ h hlt => ?_
      rw [orderUpdate_set_id h]
      exact hlt
    · exact forall_updateWhere (P := fun r : OrderRow => OrderEscrow s r.order) hc.escrow
        fun r _ h hr => orderUpdate_escrow hn hΓ hr h
    · intro t ht
      rcases List.mem_append.mp ht with ht | ht
      · split at ht
        · exact logTake_hasHold hn hΓ t ht
        · cases ht
      · exact hc.takes t ht
  | deleteStranded id =>
    refine ⟨hc.orderIds.sublist (List.filter_sublist.map _),fun r hr => ?_,hc.bondIds,
      hc.bondIds_lt,hc.holds_lt,fun r hr => ?_,hc.takes,hc.bond⟩
    · exact hc.orderIds_lt r (List.mem_of_mem_filter hr)
    · exact hc.escrow r (List.mem_of_mem_filter hr)

/-! ### Statements on bonds -/

theorem bondUpdate_id (h : u.selects s b = true) : b.id = u.target := by
  simpa using (Bool.and_eq_true_iff.mp h).1

theorem bondUpdate_guard (h : u.selects s b = true) :
    u.guard s b = true := (Bool.and_eq_true_iff.mp h).2

theorem bond_stored (hc : Consistent s) (hΓ : ∀ f ∈ Γ, f.Lasts s) (hb : .bond b ∈ Γ)
    (hr : r ∈ s.bonds) (hid : r.id = b.id) : b.Becomes r := by
  obtain ⟨_,r',hr',hbec⟩ := hΓ _ hb
  rwa [hc.bond_unique hr hr' (hid.trans hbec.1.id.symm)]

theorem leads_of_locked {y : BondState} (hx : x = .locked) (hy : y ≠ .requested) : x.Leads y := by
  subst hx
  exact ⟨fun _ => hy,nofun⟩

theorem leads_of_inactive {y : BondState} (hy : y.isActive = false) : x.Leads y := by
  refine ⟨fun _ h => ?_,fun _ => hy⟩
  subst h
  cases hy

theorem Bond.SameCore.symm {a : Bond} (h : a.SameCore b) : b.SameCore a where
  id := h.id.symm
  orderId := h.orderId.symm
  parentBondId := h.parentBondId.symm
  childOrderId := h.childOrderId.symm
  pubkey := h.pubkey.symm
  role := h.role.symm
  amountSats := h.amountSats.symm
  hash := h.hash.symm
  preimage := h.preimage.symm

theorem bondUpdate_becomes (hsel : u.selects s b = true)
    (hrow : ∀ read row, u = .update read row →
      read.SameCore b ∧ ∃ t, row = { read with state := .released, releasedAt := t }) :
    b.Becomes (u.set s b) := by
  have hg := bondUpdate_guard hsel
  cases u with
  | update read row =>
    obtain ⟨hcore,t,rfl⟩ := hrow read row rfl
    exact ⟨⟨hcore.symm.id,hcore.symm.orderId,hcore.symm.parentBondId,hcore.symm.childOrderId,
      hcore.symm.pubkey,hcore.symm.role,hcore.symm.amountSats,hcore.symm.hash,
      hcore.symm.preimage⟩,leads_of_inactive rfl⟩
  | lockTaker id order t =>
    have hst : b.state = .requested := by simpa using (Bool.and_eq_true_iff.mp hg).1
    refine ⟨by constructor <;> rfl,?_⟩
    simp [BondState.Leads,BondUpdate.set,hst,BondState.isActive]
  | lockMaker id t =>
    have hst : b.state = .requested := by simpa [BondUpdate.guard] using hg
    refine ⟨by constructor <;> rfl,?_⟩
    simp [BondState.Leads,BondUpdate.set,hst,BondState.isActive]
  | slash id reason t share trade =>
    exact ⟨by constructor <;> rfl,leads_of_inactive rfl⟩
  | updateSlashedShare parent => exact ⟨by constructor <;> rfl,.rfl⟩
  | forfeit id t => exact ⟨by constructor <;> rfl,leads_of_inactive rfl⟩
  | finalizeNodeOnly id => exact ⟨by constructor <;> rfl,leads_of_inactive rfl⟩
  | slashAfterSuccess id => exact ⟨by constructor <;> rfl,leads_of_inactive rfl⟩
  | markFailed id => exact ⟨by constructor <;> rfl,leads_of_inactive rfl⟩
  | resurrect id invoice => exact ⟨by constructor <;> rfl,leads_of_inactive rfl⟩
  | _ => exact ⟨by constructor <;> rfl,.rfl⟩

theorem BondUpdate.need.becomes (hn : u.need req Γ) (hc : Consistent s) (hΓ : ∀ f ∈ Γ, f.Lasts s)
    (hb : b ∈ s.bonds) (hsel : u.selects s b = true) : b.Becomes (u.set s b) := by
  refine bondUpdate_becomes hsel ?_
  rintro read row rfl
  obtain ⟨hread,_,hrow,_⟩ := hn
  obtain ⟨t,rfl⟩ := hrow
  exact ⟨(bond_stored hc hΓ hread hb (bondUpdate_id hsel)).1,t,rfl⟩

theorem ChildBond.becomes (h : ChildBond s b p) (hb : b.Becomes r) : ChildBond s r p :=
  ⟨hb.1.hash.trans h.1,hb.1.preimage.trans h.2.1,hb.2.2 h.2.2.1,h.2.2.2⟩

theorem knowsSettled_stored (hc : Consistent s) (hΓ : ∀ f ∈ Γ, f.Lasts s) (hb : KnowsSettled Γ b)
    (hr : r ∈ s.bonds) (hid : r.id = b.id) (hh : r.preimage = some h) :
    s.holdState h = some .settled := by
  obtain ⟨hread,p,hp,hset⟩ := hb
  have hcore := (bond_stored hc hΓ hread hr hid).1
  rw [hcore.preimage,hp] at hh
  cases hh
  exact hΓ _ hset

theorem bondUpdate_hold (hc : Consistent s) (hn : u.need req Γ) (hΓ : ∀ f ∈ Γ, f.Lasts s)
    (hb : b ∈ s.bonds) (hsel : u.selects s b = true) (hh : b.hash = some h)
    (hp : b.preimage = some h) (hcap : b.state.isCaptured = true → s.holdState h = some .settled)
    (hrel : b.state = .released → s.holdState h = some .canceled) :
    ((u.set s b).state.isCaptured = true → s.holdState h = some .settled) ∧
      ((u.set s b).state = .released → s.holdState h = some .canceled) := by
  have hg := bondUpdate_guard hsel
  have hid := bondUpdate_id hsel
  have hpend (hst : b.state = .pendingPayout) : s.holdState h = some .settled :=
    hcap (by simp [hst,BondState.isCaptured])
  cases u with
  | update read row =>
    obtain ⟨hread,_,⟨t,rfl⟩,hcan⟩ := hn
    refine ⟨nofun,fun _ => hΓ _ (hcan h ?_)⟩
    exact (bond_stored hc hΓ hread hb hid).1.hash.symm.trans hh
  | lockTaker id order t => exact ⟨nofun,nofun⟩
  | lockMaker id t => exact ⟨nofun,nofun⟩
  | slash id reason t share trade =>
    obtain ⟨⟨x,hx,hxid,_⟩,_⟩ := hn
    exact ⟨fun _ => knowsSettled_stored hc hΓ hx hb (hid.trans hxid.symm) hp,nofun⟩
  | forfeit id t =>
    have hst : b.state = .pendingPayout := by simpa using (Bool.and_eq_true_iff.mp hg).1
    exact ⟨fun _ => hpend hst,nofun⟩
  | finalizeNodeOnly id =>
    exact ⟨fun _ => hpend (by simpa [BondUpdate.guard] using hg),nofun⟩
  | slashAfterSuccess id =>
    exact ⟨fun _ => hpend (by simpa [BondUpdate.guard] using hg),nofun⟩
  | markFailed id =>
    exact ⟨fun _ => hpend (by simpa [BondUpdate.guard] using hg),nofun⟩
  | resurrect id invoice =>
    have hst : b.state = .failed := by simpa [BondUpdate.guard] using hg
    exact ⟨fun _ => hcap (by simp [hst,BondState.isCaptured]),nofun⟩
  | _ => exact ⟨hcap,hrel⟩

theorem bondUpdate_escrow (hc : Consistent s) (hn : u.need req Γ) (hΓ : ∀ f ∈ Γ, f.Lasts s)
    (hb : b ∈ s.bonds) (hsel : u.selects s b = true) : BondEscrow s (u.set s b) := by
  have hbec := hn.becomes hc hΓ hb hsel
  have hbe := hc.bond b hb
  unfold BondEscrow at hbe ⊢
  rw [hbec.1.parentBondId]
  split at hbe
  · obtain ⟨h,hh,hp,hhold,hcap,hrel⟩ := hbe
    obtain ⟨hcap',hrel'⟩ := bondUpdate_hold hc hn hΓ hb hsel hh hp hcap hrel
    refine ⟨h,hbec.1.hash.trans hh,hbec.1.preimage.trans hp,?_,hcap',hrel'⟩
    rwa [hbec.1.orderId]
  · exact hbe.becomes hbec

def RangeClose.keepRow (v : RangeClose) (b : Bond) : Bond :=
  let closed := if b.id == v.parent.id && b.state == .locked then { b with state := .slashed }
    else b
  if v.anchorChildren && (closed.isSliceOf v.parent.id && closed.state == .pendingPayout) then
    { closed with slashedAt := some v.at_ }
  else closed

theorem RangeClose.kept_eq_map (v : RangeClose) (bonds : List Bond) :
    v.kept bonds = bonds.map v.keepRow := by
  unfold RangeClose.kept RangeClose.keepRow
  cases v.anchorChildren with
  | true => simp [updateWhere,Function.comp_def]
  | false => simp [updateWhere]

theorem RangeClose.keepRow_state (v : RangeClose) (b : Bond) :
    (v.keepRow b).state
      = if b.id = v.parent.id ∧ b.state = .locked then .slashed else b.state := by
  unfold RangeClose.keepRow
  by_cases h : b.id = v.parent.id ∧ b.state = .locked
  · have hb : (b.id == v.parent.id && b.state == .locked) = true := by simpa using h
    simp only [hb,if_true,if_pos h]
    split <;> rfl
  · have hb : (b.id == v.parent.id && b.state == .locked) = false := by simpa using h
    simp only [hb,if_neg h,Bool.false_eq_true,if_false]
    split <;> rfl

theorem RangeClose.keepRow_becomes (v : RangeClose) (b : Bond) : b.Becomes (v.keepRow b) := by
  refine ⟨?_,?_⟩
  · unfold RangeClose.keepRow
    dsimp only
    constructor <;> (split <;> split <;> rfl)
  · rw [RangeClose.keepRow_state]
    split
    next h => exact leads_of_locked h.2 nofun
    · exact .rfl

def BondStmt.rewrite (s : State) : BondStmt → Bond → Bond
  | .run u => fun b => if u.selects s b then u.set s b else b
  | .closeRange v =>
    if s.bonds.any fun b => b.id == v.parent.id && b.state == .locked then v.keepRow else id
  | _ => id

def BondStmt.inserted (s : State) : BondStmt → List Bond
  | .create b => [{ b with id := s.nextId }]
  | .run _ => []
  | .insertSliceSlash v => if v.allowed s.bonds then [v.row s.nextId] else []
  | .closeRange v =>
    if (s.bonds.any fun b => b.id == v.parent.id && b.state == .locked) ∧ 0 < v.refund s.bonds then
      [v.refundRow s.nextId (v.refund s.bonds)]
    else []

theorem bondStmt_bonds (st : BondStmt) (s : State) :
    (st.exec s).1.bonds = s.bonds.map (st.rewrite s) ++ st.inserted s := by
  cases st with
  | create b => simp [BondStmt.exec,BondStmt.rewrite,BondStmt.inserted]
  | run u => simp [BondStmt.exec,BondUpdate.run,updateWhere,BondStmt.rewrite,BondStmt.inserted]
  | insertSliceSlash v =>
    simp only [BondStmt.exec,BondStmt.rewrite,BondStmt.inserted,List.map_id]
    split <;> simp
  | closeRange v =>
    simp only [BondStmt.exec,BondStmt.rewrite,BondStmt.inserted]
    by_cases hl : (s.bonds.any fun b => b.id == v.parent.id && b.state == .locked) = true
    · simp only [hl,if_true,RangeClose.rows,v.kept_eq_map,true_and]
      split <;> simp
    · simp [hl]

theorem bondStmt_slashes {x : Slash} (hx : x ∈ (st.exec s).1.slashes) : x ∈ s.slashes ∨
      (∃ t share, st = .run (.slash x.bond x.reason t share x.trade) ∧
        ∃ b ∈ s.bonds, b.id = x.bond) ∨
      ∃ v, st = .insertSliceSlash v ∧ v.allowed s.bonds = true ∧
        x = ⟨s.nextId,v.reason,v.slice⟩ := by
  cases st with
  | create b => exact .inl hx
  | run u =>
    rcases List.mem_append.mp hx with hx | hx
    · split at hx
      next hpos =>
        obtain ⟨b,hb,hsel⟩ := affected_pos.mp hpos
        cases u with
        | slash id reason t share trade =>
          cases List.mem_singleton.mp hx
          exact .inr (.inl ⟨t,share,rfl,b,hb,bondUpdate_id hsel⟩)
        | _ => cases hx
      · cases hx
    · exact .inl hx
  | insertSliceSlash v =>
    simp only [BondStmt.exec] at hx
    split at hx
    next hall =>
      rcases List.mem_cons.mp hx with rfl | hx
      · exact .inr (.inr ⟨v,rfl,hall,rfl⟩)
      · exact .inl hx
    · exact .inl hx
  | closeRange v =>
    simp only [BondStmt.exec] at hx
    split at hx <;> exact .inl hx

theorem rewrite_becomes (hc : Consistent s) (hn : st.need req Γ) (hΓ : ∀ f ∈ Γ, f.Lasts s)
    (hb : b ∈ s.bonds) : b.Becomes (st.rewrite s b) := by
  cases st with
  | run u =>
    simp only [BondStmt.rewrite]
    split
    next hsel => exact hn.becomes hc hΓ hb hsel
    · exact .rfl
  | closeRange v =>
    simp only [BondStmt.rewrite]
    split
    · exact v.keepRow_becomes b
    · exact .rfl
  | _ => exact .rfl

theorem bondStmt_origin (hc : Consistent s) (hn : st.need req Γ) (hΓ : ∀ f ∈ Γ, f.Lasts s)
    (hr : r ∈ (st.exec s).1.bonds) : (∃ b ∈ s.bonds, b.Becomes r) ∨ r ∈ st.inserted s := by
  rw [bondStmt_bonds] at hr
  refine (List.mem_append.mp hr).imp_left fun h => ?_
  obtain ⟨b,hb,rfl⟩ := List.mem_map.mp h
  exact ⟨b,hb,rewrite_becomes hc hn hΓ hb⟩

theorem bondStmt_progress (hc : Consistent s) (hn : st.need req Γ) (hΓ : ∀ f ∈ Γ, f.Lasts s) :
    BondsProgress s (st.exec s).1 := by
  intro b hb
  refine ⟨st.rewrite s b,?_,rewrite_becomes hc hn hΓ hb⟩
  rw [bondStmt_bonds]
  exact List.mem_append_left _ (List.mem_map_of_mem hb)

theorem Consistent.locked_own (hc : Consistent s) (hb : b ∈ s.bonds) (hst : b.state = .locked) :
    b.parentBondId = none := by
  have hbe := hc.bond b hb
  unfold BondEscrow at hbe
  split at hbe
  next hp => exact hp
  · have := hbe.2.2.1
    rw [hst] at this
    cases this

theorem locked_parent (hc : Consistent s)
    (h : (s.bonds.any fun b => b.id == p && b.state == .locked) = true) :
    ∃ q ∈ s.bonds, q.id = p ∧ q.parentBondId = none ∧ q.state = .locked := by
  obtain ⟨q,hq,hb⟩ := List.any_eq_true.mp h
  simp only [Bool.and_eq_true,beq_iff_eq] at hb
  exact ⟨q,hq,hb.1,hc.locked_own hq hb.2,hb.2⟩

theorem inserted_spec (hn : st.need req Γ) (hr : r ∈ st.inserted s) :
    r.id = s.nextId ∧ ∀ p, r.parentBondId = some p →
      (s.bonds.any fun b => b.id == p && b.state == .locked) = true ∧
      ((∃ v, st = .insertSliceSlash v ∧ v.parent.id = p ∧ r = v.row s.nextId) ∨
        ∃ v, st = .closeRange v ∧ v.parent.id = p ∧
          r = v.refundRow s.nextId (v.refund s.bonds)) := by
  cases st with
  | create b =>
    rw [List.mem_singleton.mp hr]
    exact ⟨rfl,fun p hp => nomatch hn.2.1.symm.trans hp⟩
  | run u => cases hr
  | insertSliceSlash v =>
    simp only [BondStmt.inserted] at hr
    split at hr
    next hal =>
      rw [List.mem_singleton.mp hr]
      refine ⟨rfl,fun p hp => ?_⟩
      cases hp
      exact ⟨(Bool.and_eq_true_iff.mp hal).2,.inl ⟨v,rfl,rfl,rfl⟩⟩
    · cases hr
  | closeRange v =>
    simp only [BondStmt.inserted] at hr
    split at hr
    next hal =>
      rw [List.mem_singleton.mp hr]
      refine ⟨rfl,fun p hp => ?_⟩
      cases hp
      exact ⟨hal.1,.inr ⟨v,rfl,rfl,rfl⟩⟩
    · cases hr

theorem inserted_not_locked (hn : st.need req Γ) (hr : r ∈ st.inserted s) : r.state ≠ .locked := by
  cases st with
  | create b =>
    rw [List.mem_singleton.mp hr]
    simp [hn.1]
  | run u => cases hr
  | insertSliceSlash v =>
    simp only [BondStmt.inserted] at hr
    split at hr
    · rw [List.mem_singleton.mp hr]
      nofun
    · cases hr
  | closeRange v =>
    simp only [BondStmt.inserted] at hr
    split at hr
    · rw [List.mem_singleton.mp hr]
      nofun
    · cases hr

def BondUpdate.locks : BondUpdate → Bool
  | .lockTaker _ _ _ | .lockMaker _ _ => true
  | _ => false

theorem locked_origin (hc : Consistent s) (hn : st.need req Γ) (hΓ : ∀ f ∈ Γ, f.Lasts s)
    (hr : r ∈ (st.exec s).1.bonds) (hl : r.state = .locked) :
    ∃ b ∈ s.bonds, b.SameCore r ∧ (b.state = .locked ∨
      ∃ u, st = .run u ∧ u.locks = true ∧ u.selects s b = true) := by
  rw [bondStmt_bonds] at hr
  rcases List.mem_append.mp hr with hr | hr
  · obtain ⟨b,hb,rfl⟩ := List.mem_map.mp hr
    refine ⟨b,hb,(rewrite_becomes hc hn hΓ hb).1,?_⟩
    cases st with
    | run u =>
      simp only [BondStmt.rewrite] at hl
      split at hl
      next hsel =>
        cases u with
        | lockTaker id order t => exact .inr ⟨_,rfl,rfl,hsel⟩
        | lockMaker id t => exact .inr ⟨_,rfl,rfl,hsel⟩
        | update read row =>
          obtain ⟨t,rfl⟩ := hn.2.2.1
          cases hl
        | slash id reason t share trade => cases hl
        | forfeit id t => cases hl
        | finalizeNodeOnly id => cases hl
        | slashAfterSuccess id => cases hl
        | markFailed id => cases hl
        | resurrect id invoice => cases hl
        | _ => exact .inl hl
      · exact .inl hl
    | closeRange v =>
      simp only [BondStmt.rewrite] at hl
      split at hl
      · rw [v.keepRow_state] at hl
        split at hl
        · cases hl
        · exact .inl hl
      · exact .inl hl
    | _ => exact .inl hl
  · exact absurd hl (inserted_not_locked hn hr)

theorem consistent_append (hc : Consistent s) (ho : s'.orders = s.orders) (ht : s'.takes = s.takes)
    (hh : s'.holds = s.holds) (hn : s'.nextId = s.nextId + 1) (hb : s'.bonds = s.bonds ++ [b])
    (hid : b.id = s.nextId) (hbe : BondEscrow s' b) : Consistent s' := by
  have hprog : HoldsProgress s s' := .of_eq hh
  have hbonds : BondsProgress s s' := fun x hx => ⟨x,by simp [hb,hx],.rfl⟩
  refine ⟨by rw [ho]; exact hc.orderIds,?_,?_,?_,?_,?_,?_,?_⟩
  · intro r hr
    rw [hn]
    exact Nat.lt_succ_of_lt (hc.orderIds_lt r (ho ▸ hr))
  · rw [hb,List.map_append,List.map_cons,List.map_nil]
    refine List.nodup_append.mpr ⟨hc.bondIds,by simp,fun x hx y hy => ?_⟩
    obtain ⟨c,hcm,rfl⟩ := List.mem_map.mp hx
    rw [List.mem_singleton.mp hy,hid]
    exact Nat.ne_of_lt (hc.bondIds_lt c hcm)
  · intro x hx
    rw [hn]
    rw [hb] at hx
    rcases List.mem_append.mp hx with hx | hx
    · exact Nat.lt_succ_of_lt (hc.bondIds_lt x hx)
    · rw [List.mem_singleton.mp hx,hid]
      exact Nat.lt_succ_self _
  · intro x hx
    rw [hn]
    exact Nat.lt_succ_of_lt (hc.holds_lt x (hh ▸ hx))
  · intro r hr
    exact (hc.escrow r (ho ▸ hr)).progress hprog
  · intro t htm
    exact (hc.takes t (ht ▸ htm)).progress hprog
  · intro x hx
    rw [hb] at hx
    rcases List.mem_append.mp hx with hx | hx
    · exact (hc.bond x hx).progress hprog hbonds
    · rw [List.mem_singleton.mp hx]
      exact hbe

theorem consistent_map {f : Bond → Bond} (hc : Consistent s) (ho : s'.orders = s.orders)
    (ht : s'.takes = s.takes) (hh : s'.holds = s.holds) (hn : s.nextId ≤ s'.nextId)
    (hb : s'.bonds = s.bonds.map f) (hbec : ∀ b ∈ s.bonds, b.Becomes (f b))
    (hbe : ∀ b ∈ s.bonds, BondEscrow s (f b)) : Consistent s' := by
  have hprog : HoldsProgress s s' := .of_eq hh
  have hbonds : BondsProgress s s' := fun b hbm =>
    ⟨f b,by rw [hb]; exact List.mem_map_of_mem hbm,hbec b hbm⟩
  refine ⟨by rw [ho]; exact hc.orderIds,?_,?_,?_,?_,?_,?_,?_⟩
  · intro r hr
    exact lt_of_lt_of_le (hc.orderIds_lt r (ho ▸ hr)) hn
  · have hids : (s.bonds.map f).map (·.id) = s.bonds.map (·.id) := by
      rw [List.map_map]
      exact List.map_congr_left fun b hbm => (hbec b hbm).1.id
    rw [hb,hids]
    exact hc.bondIds
  · intro x hx
    rw [hb] at hx
    obtain ⟨b,hbm,rfl⟩ := List.mem_map.mp hx
    rw [(hbec b hbm).1.id]
    exact lt_of_lt_of_le (hc.bondIds_lt b hbm) hn
  · intro x hx
    exact lt_of_lt_of_le (hc.holds_lt x (hh ▸ hx)) hn
  · intro r hr
    exact (hc.escrow r (ho ▸ hr)).progress hprog
  · intro t htm
    exact (hc.takes t (ht ▸ htm)).progress hprog
  · intro x hx
    rw [hb] at hx
    obtain ⟨b,hbm,rfl⟩ := List.mem_map.mp hx
    exact (hbe b hbm).progress hprog hbonds

theorem consistent_closeRange {v : RangeClose} (hc : Consistent s) (hn : KnowsSettled Γ v.parent)
    (hΓ : ∀ f ∈ Γ, f.Lasts s)
    (hlocked : (s.bonds.any fun b => b.id == v.parent.id && b.state == .locked) = true) :
    Consistent ((BondStmt.closeRange v).exec s).1 := by
  have hexec : ((BondStmt.closeRange v).exec s).1 = { s with
      bonds := v.rows s.nextId s.bonds, nextId := s.nextId + 1
      closes := v.parent.id :: s.closes } := by simp [BondStmt.exec,hlocked]
  -- the two updates first, then the refund row
  have hkept : Consistent { s with bonds := v.kept s.bonds } := by
    refine consistent_map hc rfl rfl rfl le_rfl (v.kept_eq_map _)
      (fun b _ => v.keepRow_becomes b) fun b hb => ?_
    have hcore := (v.keepRow_becomes b).1
    have hbe := hc.bond b hb
    unfold BondEscrow at hbe ⊢
    rw [hcore.parentBondId]
    split at hbe
    · obtain ⟨h,hh,hp,hhold,hcap,hrel⟩ := hbe
      refine ⟨h,hcore.hash.trans hh,hcore.preimage.trans hp,by rwa [hcore.orderId],?_,?_⟩
      · rw [v.keepRow_state]
        split
        next hid => exact fun _ => knowsSettled_stored hc hΓ hn hb hid.1 hp
        · exact hcap
      · rw [v.keepRow_state]
        split
        · intro h
          cases h
        · exact hrel
    · exact hbe.becomes (v.keepRow_becomes b)
  obtain ⟨q,hq,hqid,hqpar,hqst⟩ := locked_parent hc hlocked
  rw [hexec]
  simp only [RangeClose.rows]
  split
  · refine consistent_append hkept rfl rfl rfl rfl rfl rfl ?_
    have hmem : v.keepRow q ∈ v.kept s.bonds := by
      simpa [v.kept_eq_map] using ⟨q,hq,rfl⟩
    have hbec := v.keepRow_becomes q
    refine ⟨rfl,rfl,rfl,v.keepRow q,List.mem_append_left _ hmem,?_,?_,?_⟩
    · exact hbec.1.id.trans hqid
    · exact hbec.1.parentBondId.trans hqpar
    · exact hbec.2.1 (by simp [hqst])
  · exact ⟨hkept.orderIds,fun r hr => Nat.lt_succ_of_lt (hkept.orderIds_lt r hr),hkept.bondIds,
      fun b hb => Nat.lt_succ_of_lt (hkept.bondIds_lt b hb),
      fun i hi => Nat.lt_succ_of_lt (hkept.holds_lt i hi),hkept.escrow,hkept.takes,hkept.bond⟩

theorem consistent_bondStmt (hc : Consistent s) (hn : st.need req Γ) (hΓ : ∀ f ∈ Γ, f.Lasts s) :
    Consistent (st.exec s).1 := by
  cases st with
  | create b =>
    obtain ⟨hst,hpar,_,_,_,_,h,hcr,hh,hp⟩ := hn
    refine consistent_append hc rfl rfl rfl rfl rfl rfl ?_
    unfold BondEscrow
    simp only [hpar]
    refine ⟨h,hh,hp,hΓ _ hcr,?_,?_⟩
    · simp [hst,BondState.isCaptured]
    · simp [hst]
  | run u =>
    refine consistent_map hc rfl rfl rfl le_rfl rfl (fun b hb => ?_) fun b hb => ?_
    · split
      next h => exact hn.becomes hc hΓ hb h
      · exact .rfl
    · split
      next h => exact bondUpdate_escrow hc hn hΓ hb h
      · exact hc.bond b hb
  | insertSliceSlash v =>
    simp only [BondStmt.exec]
    split
    next hallow =>
      obtain ⟨q,hq,hqid,hqpar,hqst⟩ := locked_parent hc (Bool.and_eq_true_iff.mp hallow).2
      refine consistent_append hc rfl rfl rfl rfl rfl rfl ?_
      exact ⟨rfl,rfl,rfl,q,List.mem_append_left _ hq,hqid,hqpar,by simp [hqst]⟩
    · exact hc
  | closeRange v =>
    by_cases hlocked : (s.bonds.any fun b => b.id == v.parent.id && b.state == .locked) = true
    · exact consistent_closeRange hc hn hΓ hlocked
    · have hexec : ((BondStmt.closeRange v).exec s).1 = s := by
        simp only [BondStmt.exec,if_neg hlocked]
      rwa [hexec]

end Mostro
