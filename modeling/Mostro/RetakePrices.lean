import Mostro.DaemonInvariants

set_option autoImplicit false

/-!
The price of a take.  A take asks the market for a price only if the order has no amount, so an
order that the market prices must have none whenever it can be taken; what a take that failed has
left on it would be charged to the next taker.
-/

namespace Mostro

open Interleaving SqlTable

variable {l : Label} {ch : Choice} {ls : List Label}

def State.takerLocked (s : State) (id : Uuid) : Bool :=
  s.bonds.any fun b => b.orderId == id && b.role == .taker && b.state == .locked

def State.pricedInAdvance (s : State) (id : Uuid) : Bool :=
  s.orders.any fun r => r.order.id == id && r.order.status.isListed && r.order.priceFromApi
    && r.order.amount != 0

def BondStmt.target : BondStmt → Option Uuid
  | .run u => some u.target
  | .closeRange v => some v.parent.id
  | .create _ | .insertSliceSlash _ => none

/-- A row that stays in the book is written with the status its handler had read and with the stored
amount; no reset fails; a bond is promoted while it is locked, and stays locked as long as the order
is not taken with its terms. -/
abbrev quotesKept : Requirement := .check
  (fun _ op ch _ s => match op with
    | .order (.run (.update read row)) => !row.status.isListed || s.orders.all fun r =>
        r.order.id != row.id || (r.order.status == read.status && r.order.amount == row.amount)
    | .order (.run (.updateOrderToInitialState _ _ _ _)) => ch != .fault
    | .order (.run (.casPromoteTakerContext o)) => s.takerLocked o.id
    | .bond st => st.target.all fun id => s.bonds.all fun b =>
        b.id != id || !(b.role == .taker && b.state == .locked && s.pricedInAdvance b.orderId)
    | _ => true)
  (fun _ _ _ => true)

/-- An order that the market prices and nobody has taken has no amount, unless a taker has locked a
bond on it. -/
def Unpriced (s : State) : Prop :=
  ∀ r ∈ s.orders, r.order.status.isListed = true → r.order.priceFromApi = true →
    s.takerLocked r.order.id = true ∨ r.order.amount = 0

def PricingKnown (s : State) : Fact → Prop
  | .order x => ∀ r ∈ s.orders, r.order.id = x.id → r.order.priceFromApi = x.priceFromApi
  | .unreset _ => False
  | _ => True

theorem PricingKnown.of_orders {s s' : State} {f : Fact} (h : PricingKnown s f)
    (ho : s'.orders = s.orders) : PricingKnown s' f := by
  cases f with
  | order x => simpa only [PricingKnown,ho] using h
  | unreset id => exact h
  | _ => trivial

theorem Unpriced.of_rows {s s' : State} (h : Unpriced s) (ho : s'.orders = s.orders)
    (hb : s'.bonds = s.bonds) : Unpriced s' := by
  simpa only [Unpriced,State.takerLocked,ho,hb] using h

section

variable {req : Request} {Γ : Set Fact} {u : OrderUpdate} {s : State} {r : OrderRow}

theorem orderUpdate_priceFromApi (hn : u.need req Γ) (hΓ : ∀ f ∈ Γ, PricingKnown s f)
    (hr : r ∈ s.orders) (hsel : u.selects s r = true) :
    (u.set r).order.priceFromApi = r.order.priceFromApi := by
  cases u with
  | update read row =>
    obtain ⟨x,hx,hid,hoffer,_⟩ := RowWrite.offer hn
    have hrow : r.order.id = row.id := orderUpdate_id hsel
    have hknown : r.order.priceFromApi = x.priceFromApi := hΓ _ hx r hr (hrow.trans hid.symm)
    rw [hknown]
    exact (congrArg OfferTerms.priceFromApi hoffer).symm
  | editPubkeysOrder id kind => cases kind <;> rfl
  | casPromoteTakerContext o =>
    simp only [OrderUpdate.set]
    split <;> rfl
  | _ => rfl

theorem RowWrite.read_isListed {read row : Order} (hn : RowWrite req Γ read row)
    (hreset : ∀ id, .unreset id ∉ Γ) (hlisted : row.status.isListed = true) :
    read.status.isListed = true := by
  cases hn.edit with
  | closes hclosed =>
    cases hst : row.status <;> simp [hst,Status.isListed,Status.isClosed] at hlisted hclosed
  | lists _ hrow _ =>
    rcases hn.pending hrow with h | ⟨_,h⟩
    · rw [h]
      rfl
    · exact absurd h (hreset _)
  | proceeds _ _ hproceeds =>
    rcases hproceeds with h | ⟨_,h⟩ | ⟨_,h⟩
    · rwa [← h]
    · rw [h] at hlisted
      cases hlisted
    · rw [h] at hlisted
      cases hlisted
  | invoice _ _ => cases hlisted
  | paid _ _ _ _ _ _ hrow =>
    rw [hrow] at hlisted
    split at hlisted <;> cases hlisted

theorem orderUpdate_unpriced (hn : u.need l.req Γ) (hΓ : ∀ f ∈ Γ, PricingKnown s f)
    (hi : Unpriced s) (hd : quotesKept.onOp l (.order (.run u)) ch ls s) (hr : r ∈ s.orders)
    (hsel : u.selects s r = true) (hlisted : (u.set r).order.status.isListed = true)
    (hapi : (u.set r).order.priceFromApi = true) :
    s.takerLocked r.order.id = true ∨ (u.set r).order.amount = 0 := by
  have hapi' : r.order.priceFromApi = true := orderUpdate_priceFromApi hn hΓ hr hsel ▸ hapi
  have hid := orderUpdate_id hsel
  have hguard := (Bool.and_eq_true_iff.mp hsel).2
  cases u with
  | update read row =>
    have hfresh : (!row.status.isListed || s.orders.all fun r => r.order.id != row.id ||
        (r.order.status == read.status && r.order.amount == row.amount)) = true := hd
    have hid : r.order.id = row.id := hid
    have hrow : row.status.isListed = true := hlisted
    simp only [hrow,Bool.not_true,Bool.false_or,List.all_eq_true] at hfresh
    have hsame : r.order.status = read.status ∧ r.order.amount = row.amount := by
      simpa [hid] using hfresh r hr
    have hread := RowWrite.read_isListed hn (fun id h => hΓ _ h) hrow
    exact (hi r hr (hsame.1 ▸ hread) hapi').imp_right fun h => hsame.2 ▸ h
  | updateOrderToInitialState read amount fee devFee =>
    obtain ⟨x,hx,hxid,hquote⟩ := hn.2.2.2.2
    have hknown : r.order.priceFromApi = x.priceFromApi := hΓ _ hx r hr (hid.trans hxid.symm)
    exact .inr (hquote (hknown ▸ hapi'))
  | casPromoteTakerContext o =>
    have hlocked : s.takerLocked o.id = true := hd
    exact .inl (by rw [hid]; exact hlocked)
  | editPubkeysOrder id kind => cases kind <;> exact hi r hr hlisted hapi'
  | casPretradeOrderStatus id new => rcases hn with rfl | ⟨rfl,_⟩ <;> cases hlisted
  | casCompletePretradeTake o allow =>
    rcases hn.1 with h | h <;> rw [OrderUpdate.set,h] at hlisted <;> cases hlisted
  | updateOrderCashuEscrow id mint token t expected new =>
    obtain ⟨_,rfl,_⟩ := hn
    cases hlisted
  | claimOrderStatus id expected new =>
    obtain ⟨_,rfl⟩ := hn
    cases hlisted
  | claimWaitingTakerBond id | claimDeferredPublication id =>
    refine hi r hr ?_ hapi'
    rw [beq_iff_eq.mp hguard]
    rfl
  | dropWaitingTakerBondToPending id =>
    refine hi r hr ?_ hapi'
    rw [beq_iff_eq.mp (Bool.and_eq_true_iff.mp hguard).1]
    rfl
  | settleFromRelease id | settleFromAdmin id | paymentSuccess id => cases hlisted
  | _ => exact hi r hr hlisted hapi'

end

theorem unpriced_orderStmt {Γ : Set Fact} {st : OrderStmt} {s : State} (hn : st.need l.req Γ)
    (hΓ : ∀ f ∈ Γ, PricingKnown s f) (hi : Unpriced s) (hd : quotesKept.onOp l (.order st) ch ls s) :
    Unpriced (st.exec l.tid s).1 := by
  intro r hr hlisted hapi
  have hlocked (id : Uuid) : (st.exec l.tid s).1.takerLocked id = s.takerLocked id := by
    rw [State.takerLocked,State.takerLocked,orderStmt_bonds]
  rw [hlocked]
  cases st with
  | create o =>
    rcases List.mem_append.mp hr with hr | hr
    · exact hi r hr hlisted hapi
    · rw [List.mem_singleton.mp hr] at hapi ⊢
      exact .inr (hn.2.2.2.2.2 hapi)
  | run u =>
    obtain ⟨q,hq,rfl⟩ := mem_updateWhere.mp hr
    by_cases hsel : u.selects s q = true
    · rw [if_pos hsel] at hlisted hapi ⊢
      rw [orderUpdate_set_id hsel]
      exact orderUpdate_unpriced hn hΓ hi hd hq hsel hlisted hapi
    · rw [if_neg hsel] at hlisted hapi ⊢
      exact hi q hq hlisted hapi
  | deleteStranded id => exact hi r (List.mem_of_mem_filter hr) hlisted hapi

theorem pricingKnown_orderStmt {req : Request} {Γ : Set Fact} {st : OrderStmt} {tid : Nat}
    {s : State} {f : Fact} (hn : st.need req Γ) (hΓ : ∀ f ∈ Γ, PricingKnown s f)
    (hlasts : f.Lasts s) (hf : PricingKnown s f) : PricingKnown (st.exec tid s).1 f := by
  cases f with
  | order x =>
    intro r hr hid
    cases st with
    | create o =>
      rcases List.mem_append.mp hr with hr | hr
      · exact hf r hr hid
      · rw [List.mem_singleton.mp hr] at hid
        exact absurd hlasts.1 (by rw [← hid]; exact lt_irrefl _)
    | run u =>
      obtain ⟨q,hq,rfl⟩ := mem_updateWhere.mp hr
      by_cases hsel : u.selects s q = true
      · rw [if_pos hsel] at hid ⊢
        rw [orderUpdate_priceFromApi hn hΓ hq hsel]
        exact hf q hq ((orderUpdate_set_id hsel).symm.trans hid)
      · rw [if_neg hsel] at hid ⊢
        exact hf q hq hid
    | deleteStranded id => exact hf r (List.mem_of_mem_filter hr) hid
  | unreset id => exact hf
  | _ => trivial

theorem rewrite_locked {s : State} {st : BondStmt} {b : Bond} (hb : b.state = .locked)
    (ht : st.target ≠ some b.id) : st.rewrite s b = b := by
  cases st with
  | run u =>
    refine if_neg fun hsel => ht ?_
    rw [bondUpdate_id hsel]
    rfl
  | closeRange v =>
    simp only [BondStmt.rewrite]
    split
    · have hne : ¬ b.id = v.parent.id := fun h => ht (by rw [h]; rfl)
      simp [RangeClose.keepRow,hne,hb]
    · rfl
  | _ => rfl

theorem unpriced_bondStmt {st : BondStmt} {s : State} (hi : Unpriced s)
    (hd : quotesKept.onOp l (.bond st) ch ls s) : Unpriced (st.exec s).1 := by
  have hd : (st.target.all fun id => s.bonds.all fun b =>
    b.id != id ||
      !(b.role == .taker && b.state == .locked && s.pricedInAdvance b.orderId)) = true := hd
  intro r hr hlisted hapi
  rw [bondStmt_orders] at hr
  refine or_iff_not_imp_right.mpr fun hamount => ?_
  obtain ⟨b,hb,htaker⟩ := List.any_eq_true.mp ((hi r hr hlisted hapi).resolve_right hamount)
  simp only [Bool.and_eq_true,beq_iff_eq] at htaker
  have hpriced : s.pricedInAdvance b.orderId = true :=
    List.any_eq_true.mpr ⟨r,hr,by simp [htaker.1.1,hlisted,hapi,hamount]⟩
  refine List.any_eq_true.mpr ⟨b,?_,by simp [htaker]⟩
  rw [bondStmt_bonds]
  refine List.mem_append_left _ (List.mem_map.mpr ⟨b,hb,rewrite_locked htaker.2 fun ht => ?_⟩)
  rw [ht,Option.all_some,List.all_eq_true] at hd
  have hkept := hd b hb
  rw [hpriced] at hkept
  simp [htaker] at hkept

theorem unreset_unlearnt {ext : Externals} {op : Op} {s : State} {id : Uuid}
    (hd : quotesKept.onOp l op ch ls s) (hf : .unreset id ∈ op.learn (exec ext l.tid op ch s).2) :
    False := by
  obtain ⟨u,rfl⟩ := learnt_by_run hf ⟨id,.inr (.inl rfl)⟩
  generalize hres : (exec ext l.tid (.order (.run u)) ch s).2 = res at hf
  cases res with
  | ok n => cases u <;> simp [Op.learn,OrderUpdate.learn] at hf
  | error e =>
    cases u with
    | updateOrderToInitialState read a fee d =>
      have hd : (ch != .fault) = true := hd
      simp [exec_order_fault hres] at hd
    | _ => exact hf.elim

theorem quotes_invariant (ext : Externals) :
    StepInvariant ext quotesKept Unpriced (fun _ f s => PricingKnown s f) where
  init s hs := by
    obtain ⟨now,height,rfl⟩ := hs
    intro r hr
    cases hr
  launch cfg l s s' hc hi hl := by
    have hk := launch_rowsKept hl
    exact ⟨hi.of_rows hk.orders hk.bonds,fun _ f _ hf => hf.of_orders hk.orders⟩
  op l Γ op ch ls s hn hΓ hc hi hd he := by
    rcases he.rows with hk | ⟨st,rfl,hs⟩ | ⟨st,rfl,hs⟩
    · exact ⟨hi.of_rows hk.orders hk.bonds,fun _ _ f _ hf => hf.of_orders hk.orders⟩
    · rw [hs]
      exact ⟨unpriced_orderStmt hn (fun f hf => (hΓ f hf).2) hi hd,fun _ _ f hl hf =>
        pricingKnown_orderStmt hn (fun f hf => (hΓ f hf).2) hl hf⟩
    · rw [hs]
      exact ⟨unpriced_bondStmt hi hd,fun _ _ f _ hf => hf.of_orders (bondStmt_orders st s)⟩
  learn l Γ op ch ls s f hn hΓ hc hi hd hc' hinv hf hseen := by
    cases f with
    | order o =>
      obtain ⟨r,hr,rfl⟩ := hseen
      intro q hq hid
      rw [hc'.order_unique hq hr hid]
    | unreset id => exact unreset_unlearnt hd hf
    | _ => trivial
  env e ls s s' hc hi hd he := by
    have hk := he.rowsKept
    exact ⟨hi.of_rows hk.orders hk.bonds,fun _ _ f _ hf => hf.of_orders hk.orders⟩

/-- The pricing of an order that has just been published without an amount: everything the taker
pays follows from the fiat amount of this take and the quote for it. -/
def quotedTake (ext : Externals) (order : Order) (requested : Option Int) : M Order := do
  let fiat ← require (getFiatAmountRequested order requested) (.cantDo .outOfRangeSatsAmount)
  let quote : Int × Int ← ask (.marketAmountAndFee fiat)
  pure { order with
    fiatAmount := fiat
    amount := quote.1
    fee := quote.2
    devFee := ext.getDevFee (quote.2 * 2) }

theorem priceTake_unpriced {ext : Externals} {o : Order} (h : o.amount = 0)
    (requested : Option Int) : priceTake ext o requested = quotedTake ext o requested := by
  simp only [priceTake,quotedTake,h,if_true]

theorem priceTake_priced {ext : Externals} {o : Order} (h : o.amount ≠ 0)
    (hmax : o.maxAmount = none) (requested : Option Int) :
    ∃ o', o'.amount = o.amount ∧ o'.fee = o.fee ∧ priceTake ext o requested = pure o' := by
  have hfiat : getFiatAmountRequested o requested = some o.fiatAmount := by
    simp only [getFiatAmountRequested,hmax]
    split <;> simp_all
  refine ⟨{ o with devFee := ext.getDevFee (o.fee * 2) },rfl,rfl,?_⟩
  simp only [priceTake,hfiat,h,if_false]
  rfl

theorem takerLocked_committed {s : State} {id : Uuid} (h : s.takerLocked id = true) :
    tradeCommittedByLockedTakerBond (Query.run s (.findActiveBondsForOrder id)) = true := by
  obtain ⟨b,hb,htaker⟩ := List.any_eq_true.mp h
  simp only [Bool.and_eq_true,beq_iff_eq] at htaker
  refine List.any_eq_true.mpr ⟨b,?_,by simp [htaker]⟩
  simp [Query.run,mem_byCreatedAt,hb,htaker,BondState.isActive]

/-- A take that the daemon lets through asks the market for a price, whatever became of the takes
before it. -/
theorem retake_priced_afresh {cfg : Settings} {ext : Externals} (hext : ext.Documented)
    {c : DaemonState} (hc : (daemon cfg ext).Reach quotesKept State.Initial c) {r : OrderRow}
    (hr : r ∈ c.shared.orders) (hapi : r.order.priceFromApi = true)
    (htakeable : pretradeStatuses.contains r.order.status = true)
    (hfree : tradeCommittedByLockedTakerBond
      (Query.run c.shared (.findActiveBondsForOrder r.order.id)) = false) (requested : Option Int) :
    priceTake ext r.order requested = quotedTake ext r.order requested := by
  have hunpriced := ((quotes_invariant ext).reach hext hc).2 r hr
    (pretrade_isOpen htakeable).2.2.2.2 hapi
  refine priceTake_unpriced (hunpriced.resolve_left fun hlocked => ?_) requested
  rw [takerLocked_committed hlocked] at hfree
  cases hfree

/-- A sell order at the market's price is offered, and a buyer takes it at 50 with a bond: order 1,
with the bond 4 and its hold invoice 3. -/
def quotedSell (invoice : Option PaymentRequest) : Schedule :=
  alone 0 (.message (.newOrder ⟨some .sell,0,100,none,none,none,100000⟩ 7 7 7 none)) 5
  ++ quoted 2 (.message (.takeSell ⟨1,8,8,none,none,invoice⟩)) 4 50 9
  ++ [.env (.accept 3 100)]

def takeableAt (amount : Int) (s : State) : Bool :=
  s.orders.any fun r => r.order.status == .pending && r.order.priceFromApi
    && r.order.maxAmount.isNone && r.order.amount == amount
    && !tradeCommittedByLockedTakerBond (Query.run s (.findActiveBondsForOrder r.order.id))

theorem takeableAt_spec {amount : Int} {s : State} (h : takeableAt amount s = true) :
    ∃ r ∈ s.orders, r.order.status = .pending ∧ r.order.priceFromApi = true ∧
      r.order.maxAmount = none ∧ r.order.amount = amount ∧ tradeCommittedByLockedTakerBond
        (Query.run s (.findActiveBondsForOrder r.order.id)) = false := by
  obtain ⟨r,hr,hp⟩ := List.any_eq_true.mp h
  simp only [Bool.and_eq_true,beq_iff_eq,Bool.not_eq_true',Option.isNone_iff_eq_none] at hp
  obtain ⟨⟨⟨⟨hst,hapi⟩,hmax⟩,hamount⟩,hfree⟩ := hp
  exact ⟨r,hr,hst,hapi,hmax,hamount,hfree⟩

theorem overdue_sell_priced_afresh :
    ∃ c, (daemon (bondSettings .take 1000) plainExternals).Reach quotesKept State.Initial c ∧
      ∃ r ∈ c.shared.orders, r.order.status = .pending ∧
        priceTake plainExternals r.order none = quotedTake plainExternals r.order none := by
  obtain ⟨c,hc,_,h⟩ := idle_of_schedule (bondSettings .take 1000) plainExternals quotesKept
    (quotedSell none ++ alone 5 (.bondInvoice 3) 11 ++ .env (.tick 1000)
      :: alone 6 (.job .cancelOrders) 14) (fun s => takeableAt 0 s = true) (by decide +kernel)
  obtain ⟨r,hr,hst,hapi,_,_,hfree⟩ := takeableAt_spec h
  exact ⟨c,hc,r,hr,hst,retake_priced_afresh plainExternals_documented hc hr hapi
    (by rw [hst]; rfl) hfree none⟩

/-- The node cannot be reached when the winning take is resumed, and later cancels the bond: the
order is back in the book, and the next taker pays what the market asked of the first one. -/
theorem canceled_bond_keeps_price :
    ∃ c, (daemon (bondSettings .take 1000) plainExternals).Reach System.Demand.none State.Initial c
      ∧ c.tasks = [] ∧ ∃ r ∈ c.shared.orders, r.order.status = .pending ∧
        r.order.priceFromApi = true ∧ tradeCommittedByLockedTakerBond
          (Query.run c.shared (.findActiveBondsForOrder r.order.id)) = false ∧
        ∃ o, o.amount = 50 ∧ priceTake plainExternals r.order none = pure o := by
  obtain ⟨c,hc,hidle,h⟩ := idle_of_schedule (bondSettings .take 1000) plainExternals
    System.Demand.none (quotedSell (some 50) ++ alone 5 (.bondInvoice 3) 9 ++ .step 0 .fault
      :: .env (.lndCancel 3) :: alone 6 (.bondInvoice 3) 7) (fun s => takeableAt 50 s = true)
    (by decide +kernel)
  obtain ⟨r,hr,hst,hapi,hmax,hamount,hfree⟩ := takeableAt_spec h
  have hkept : r.order.amount ≠ 0 := by
    rw [hamount]
    decide
  obtain ⟨o,ho,_,hprice⟩ := priceTake_priced hkept hmax none
  exact ⟨c,hc,hidle,r,hr,hst,hapi,hfree,o,ho.trans hamount,hprice⟩

end Mostro
