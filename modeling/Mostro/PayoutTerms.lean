import Mostro.EscrowTerms

set_option autoImplicit false

/-!
What the buyer is paid.  A payout is computed from a copy of the order that was read before the
escrow was settled, or after; as long as writes without a guard find the order as their handlers
read it, the stored order still has the hold invoice and the price of that copy.
-/

namespace Mostro

open Interleaving SqlTable

/-- Writes without a guard find the order as their handlers read it. -/
abbrev termsFresh : Requirement := .check
  (fun l op _ _ s => op.seesTerms l s && match op with
    | .order (.run u) => u.isFresh s
    | _ => true)
  (fun _ _ _ => true)

theorem termsFresh_seesTerms {l : Label} {op : Op} {ch : Choice} {ls : List Label} {s : State}
    (h : termsFresh.onOp l op ch ls s) : op.seesTerms l s = true :=
  (Bool.and_eq_true_iff.mp h).1

theorem termsFresh_copiesFresh {l : Label} {op : Op} {ch : Choice} {ls : List Label} {s : State}
    (h : termsFresh.onOp l op ch ls s) : copiesFresh.onOp l op ch ls s :=
  (Bool.and_eq_true_iff.mp h).2

structure SamePrice (x o : Order) : Prop where
  id : x.id = o.id
  hash : x.hash = o.hash
  amount : x.amount = o.amount
  fee : x.fee = o.fee

theorem SamePrice.trans {x y z : Order} (h : SamePrice x y) (h' : SamePrice y z) : SamePrice x z :=
  ⟨h.id.trans h'.id,h.hash.trans h'.hash,h.amount.trans h'.amount,h.fee.trans h'.fee⟩

def Status.isSettled : Status → Bool
  | .settledHoldInvoice | .success => true
  | _ => false

def PricedRow (kind : Status → Bool) (s : State) (x : Order) : Prop :=
  ∃ r ∈ s.orders, SamePrice x r.order ∧ kind r.order.status = true

def PriceKnown (s : State) : Fact → Prop
  | .order x =>
      (x.status = .settledHoldInvoice → PricedRow Status.isSettled s x) ∧
      (x.status = .fiatSent ∨ x.status = .dispute → ∀ h, x.hash = some h →
        PricedRow Status.isEscrowed s x ∨ s.holdState h = some .canceled)
  | _ => True

section

variable {req : Request} {Γ : Set Fact} {s : State} {r : OrderRow}

theorem isSettled_isEscrowed {st : Status} (h : st.isSettled = true) : st.isEscrowed = true := by
  cases st <;> first | rfl | cases h

structure KeepsPrice (before after : Order) : Prop where
  price : SamePrice before after
  escrowed : after.status.isEscrowed = true
  settled : before.status.isSettled = true → after.status.isSettled = true

theorem RowWrite.keepsPrice {read row : Order} (hn : RowWrite req Γ read row)
    (hsee : SeesRow req.isTimeoutJob read row r.order) (hid : r.order.id = row.id)
    (he : r.order.status.isEscrowed = true) :
    KeepsPrice r.order row ∨ (r.order.status.isSettled = false ∧ KnowsCanceled Γ read) := by
  have hread : read.status.isEscrowed = true := hsee.status ▸ he
  have hopen : r.order.status.isSettled = false := by
    have := hn.opened
    rw [hsee.status]
    cases hst : read.status <;> simp_all [Status.isOpen,Status.isSettled]
  rcases hn.escrowed hread with ⟨hrow,_⟩ | hcan
  · refine .inl ?_
    cases hn.edit with
    | closes hclosed => cases hst : row.status <;> simp_all [Status.isClosed,Status.isEscrowed]
    | lists _ hpending => simp [hpending,Status.isEscrowed] at hrow
    | proceeds hreq hterms hproceeds =>
      obtain ⟨ha,hf⟩ := hsee.price hreq
      refine ⟨⟨hid,hsee.hash,ha.trans (congrArg EscrowTerms.amount hterms).symm,
        hf.trans (congrArg EscrowTerms.fee hterms).symm⟩,hrow,fun h => ?_⟩
      cases hopen.symm.trans h
    | invoice _ hwait => simp [hwait,Status.isEscrowed] at hread
    | paid _ _ _ hwait => rcases hwait with h | h <;> simp [h,Status.isEscrowed] at hread
  · exact .inr ⟨hopen,hcan⟩

theorem orderUpdate_keepsPrice {u : OrderUpdate} (hn : u.need req Γ)
    (hd : u.seesTerms req.isTimeoutJob s = true) (hfresh : u.isFresh s = true) (hr : r ∈ s.orders)
    (hsel : u.selects s r = true) (he : r.order.status.isEscrowed = true) :
    KeepsPrice r.order (u.set r).order ∨ (r.order.status.isSettled = false ∧
      ∀ h, r.order.hash = some h → .canceled h ∈ Γ) := by
  have hguard : u.guard s r = true := (Bool.and_eq_true_iff.mp hsel).2
  have hlisted : r.order.status.isListed = true → False := by
    intro hl
    cases hst : r.order.status <;> simp_all [Status.isListed,Status.isEscrowed]
  cases u with
  | update read row =>
    have hid : r.order.id = row.id := orderUpdate_id hsel
    refine (RowWrite.keepsPrice hn (seesTerms_row hd hr hid) hid he).imp_right fun hk =>
      ⟨hk.1,fun h hh => hk.2 h ?_⟩
    exact (isFresh_copy hfresh rfl hr (hid.trans hn.id)).2.symm.trans hh
  | updateOrderToInitialState read a f d =>
    have hst := (isFresh_copy hfresh rfl hr (orderUpdate_id hsel)).1
    rw [hst,isBeforePayment_not_escrowed hn.1] at he
    cases he
  | casCompletePretradeTake o allow =>
    simp only [OrderUpdate.guard,Bool.or_eq_true,Bool.and_eq_true,beq_iff_eq] at hguard
    rcases hguard with h | ⟨_,h⟩
    · exact (hlisted (pretrade_isListed h)).elim
    · simp [h,Status.isEscrowed] at he
  | casPretradeOrderStatus | casPromoteTakerContext =>
    exact (hlisted (pretrade_isListed hguard)).elim
  | claimWaitingTakerBond | claimDeferredPublication =>
    exact (hlisted (by rw [beq_iff_eq.mp hguard]; rfl)).elim
  | dropWaitingTakerBondToPending id =>
    exact (hlisted (by rw [beq_iff_eq.mp (Bool.and_eq_true_iff.mp hguard).1]; rfl)).elim
  | claimOrderStatus id expected new =>
    obtain ⟨rfl,rfl⟩ := hn
    simp only [OrderUpdate.guard,Bool.and_eq_true,beq_iff_eq] at hguard
    exact (hlisted (by rw [hguard.1]; rfl)).elim
  | updateOrderCashuEscrow id mint token t expected new =>
    obtain ⟨rfl,rfl,_⟩ := hn
    simp only [OrderUpdate.guard,Bool.and_eq_true,beq_iff_eq] at hguard
    simp [hguard.1.1,Status.isEscrowed] at he
  | settleFromRelease | settleFromAdmin | paymentSuccess =>
    exact .inl ⟨⟨rfl,rfl,rfl,rfl⟩,rfl,fun _ => rfl⟩
  | editPubkeysOrder id kind => cases kind <;> exact .inl ⟨⟨rfl,rfl,rfl,rfl⟩,he,fun h => h⟩
  | _ => exact .inl ⟨⟨rfl,rfl,rfl,rfl⟩,he,fun h => h⟩

theorem orderStmt_keepsPrice (tid : Nat) {st : OrderStmt} (hn : st.need req Γ)
    (hd : ∀ u, st = .run u → u.seesTerms req.isTimeoutJob s = true ∧ u.isFresh s = true)
    (hr : r ∈ s.orders) (he : r.order.status.isEscrowed = true) :
    (∃ r' ∈ (st.exec tid s).1.orders, KeepsPrice r.order r'.order) ∨
      (r.order.status.isSettled = false ∧ ∀ h, r.order.hash = some h → .canceled h ∈ Γ) := by
  have hsame : KeepsPrice r.order r.order := ⟨⟨rfl,rfl,rfl,rfl⟩,he,id⟩
  cases st with
  | create o => exact .inl ⟨r,List.mem_append_left _ hr,hsame⟩
  | run u =>
    by_cases hsel : u.selects s r = true
    · obtain ⟨hsee,hfresh⟩ := hd u rfl
      refine (orderUpdate_keepsPrice hn hsee hfresh hr hsel he).imp_left fun hkeep => ?_
      exact ⟨u.set r,mem_updateWhere.mpr ⟨r,hr,if_pos hsel⟩,hkeep⟩
    · exact .inl ⟨r,mem_updateWhere.mpr ⟨r,hr,if_neg hsel⟩,hsame⟩
  | deleteStranded x =>
    refine .inl ⟨r,List.mem_filter.mpr ⟨hr,?_⟩,hsame⟩
    have hst : r.order.status ≠ .waitingMakerBond := by
      intro h
      rw [h] at he
      cases he
    simp [State.deletable,hst]

theorem priceKnown_orderStmt {tid : Nat} {st : OrderStmt} {f : Fact} (hn : st.need req Γ)
    (hΓ : ∀ f ∈ Γ, f.Lasts s)
    (hd : ∀ u, st = .run u → u.seesTerms req.isTimeoutJob s = true ∧ u.isFresh s = true)
    (hf : PriceKnown s f) : PriceKnown (st.exec tid s).1 f := by
  cases f with
  | order x =>
    refine ⟨fun hx => ?_,fun hx h hh => ?_⟩
    · obtain ⟨r,hr,hprice,hset⟩ := hf.1 hx
      rcases orderStmt_keepsPrice tid hn hd hr (isSettled_isEscrowed hset) with
        ⟨r',hr',hk⟩ | ⟨hopen,_⟩
      · exact ⟨r',hr',hprice.trans hk.price,hk.settled hset⟩
      · exact nomatch hopen.symm.trans hset
    · rw [orderStmt_holdState]
      rcases hf.2 hx h hh with ⟨r,hr,hprice,he⟩ | hcan
      · refine (orderStmt_keepsPrice tid hn hd hr he).imp ?_ fun ⟨_,hcan⟩ => ?_
        · rintro ⟨r',hr',hk⟩
          exact ⟨r',hr',hprice.trans hk.price,hk.escrowed⟩
        · exact hΓ (.canceled h) (hcan h (hprice.hash.symm.trans hh))
      · exact .inr hcan
  | _ => trivial

end

theorem PriceKnown.of_orders {s s' : State} {f : Fact} (ho : s'.orders = s.orders)
    (hp : HoldsProgress s s') (hf : PriceKnown s f) : PriceKnown s' f := by
  cases f with
  | order x =>
    have hrow {kind : Status → Bool} : PricedRow kind s x → PricedRow kind s' x :=
      fun ⟨r,hr,h⟩ => ⟨r,ho ▸ hr,h⟩
    exact ⟨fun hx => hrow (hf.1 hx),fun hx h hh =>
      (hf.2 hx h hh).imp hrow (hp.holdState (.inr rfl))⟩
  | _ => trivial

theorem priceKnown_invariant (ext : Externals) :
    StepInvariant ext termsFresh (fun _ => True) (fun _ f s => PriceKnown s f) where
  init s hs := trivial
  launch cfg l s s' hc hi hl := by
    have hk := launch_rowsKept hl
    exact ⟨trivial,fun _ f _ hf => hf.of_orders hk.orders hk.holds⟩
  op l Γ op ch ls s hn hΓ hc hi hd he := by
    refine ⟨trivial,fun _ _ f _ hf => ?_⟩
    rcases he.rows with hk | ⟨st,rfl,hst⟩ | ⟨st,_,hst⟩
    · exact hf.of_orders hk.orders he.holdsProgress
    · rw [hst]
      refine priceKnown_orderStmt hn (fun f hf => (hΓ f hf).1) ?_ hf
      rintro u rfl
      exact ⟨termsFresh_seesTerms hd,termsFresh_copiesFresh hd⟩
    · exact hf.of_orders (by rw [hst,bondStmt_orders]) he.holdsProgress
  learn l Γ op ch ls s f hn hΓ hc hi hd hc' hinv hf hseen := by
    cases f with
    | order x =>
      obtain ⟨r,hr,rfl⟩ := hseen
      refine ⟨fun hx => ⟨r,hr,⟨rfl,rfl,rfl,rfl⟩,by rw [hx]; rfl⟩,fun hx h hh => .inl ?_⟩
      exact ⟨r,hr,⟨rfl,rfl,rfl,rfl⟩,by rcases hx with hx | hx <;> rw [hx] <;> rfl⟩
    | _ => trivial
  env e ls s s' hc hi hd he := by
    have hk := he.rowsKept
    exact ⟨trivial,fun _ _ f _ hf => hf.of_orders hk.orders hk.holds⟩

section

variable {cfg : Settings} {ext : Externals} {c : DaemonState}

theorem owed_priced (hext : ext.Documented)
    (hc : (daemon cfg ext).Reach termsFresh State.Initial c) {Γ : Set Fact}
    (hΓ : ∀ f ∈ Γ, f.Lasts c.shared ∧ PriceKnown c.shared f) {o : Order} (ho : KnowsOwed Γ o) :
    ∃ r ∈ c.shared.orders, r.order.id = o.id ∧ r.order.amount = o.amount ∧ r.order.fee = o.fee ∧
      r.order.status.isEscrowed = true ∧
      ∃ h, r.order.hash = some h ∧ c.shared.holdState h = some .settled := by
  obtain ⟨x,hx,hid,hterms,hst⟩ := ho
  have hamount : x.amount = o.amount := congrArg EscrowTerms.amount hterms
  have hfee : x.fee = o.fee := congrArg EscrowTerms.fee hterms
  rcases hst with hset | ⟨p,⟨_,hpre,hst⟩,hp⟩
  · obtain ⟨r,hr,hprice,hrow⟩ := (hΓ _ hx).2.1 hset
    have hagree := ((copiesFresh_invariant ext).mono termsFresh_copiesFresh id).reach hext hc
    refine ⟨r,hr,hprice.id.symm.trans hid,hprice.amount.symm.trans hamount,
      hprice.fee.symm.trans hfee,isSettled_isEscrowed hrow,hagree.2.settled r hr ?_⟩
    cases hst : r.order.status <;> simp_all [Status.isSettled]
  · have hset : c.shared.holdState p = some .settled := (hΓ _ hp).1
    have hhash : x.hash = some p := (hΓ _ hx).1.2.1.symm.trans hpre
    rcases (hΓ _ hx).2.2 hst p hhash with ⟨r,hr,hprice,hrow⟩ | hcan
    · exact ⟨r,hr,hprice.id.symm.trans hid,hprice.amount.symm.trans hamount,
        hprice.fee.symm.trans hfee,hrow,p,hprice.hash.symm.trans hhash,hset⟩
    · exact nomatch hset.symm.trans hcan

theorem isEscrowed_isTraded {st : Status} (h : st.isEscrowed = true) : st.isTraded = true := by
  cases st <;> first | rfl | cases h

/-- Where writes without a guard find the order as their handlers read it, an order under way has
the amount and fee its hold invoice was created over, and a payout that is dispatched is the amount
of the order's settled hold invoice less twice the stored fee. -/
theorem payout_matches_escrow (hext : ext.Documented)
    (hc : (daemon cfg ext).Reach termsFresh State.Initial c) :
    (∀ r ∈ c.shared.orders, r.order.status.isTraded = true → ∀ h i, r.order.hash = some h →
      c.shared.hold? h = some i → i.amount = r.order.amount + r.order.fee) ∧
    ∀ l d, c.AboutTo l (.spawn d) → ∃ r ∈ c.shared.orders, r.order.id = d.order.id ∧
      ∃ h i, r.order.hash = some h ∧ c.shared.hold? h = some i ∧ i.memo = .escrow d.order.id ∧
        i.state = .settled ∧ d.amount = i.amount - 2 * r.order.fee := by
  obtain ⟨hcons,hi⟩ := (termsAgree_invariant ext (D := termsFresh) termsFresh_seesTerms).reach
    hext hc
  refine ⟨fun r hr => (hi.rows r hr).amount,fun l d ⟨k,ht⟩ => ?_⟩
  obtain ⟨Γ,⟨_,hamount,howed⟩,hΓ⟩ := ((priceKnown_invariant ext).upholds hext cfg).about_to hc ht
  obtain ⟨r,hr,hid,ha,hf,hst,h,hh,hset⟩ := owed_priced hext hc hΓ howed
  obtain ⟨i,hold,hstate⟩ := holdState_eq_some.mp hset
  obtain ⟨j,hj,hmemo⟩ := (hcons.escrow r hr).2 h hh
  obtain rfl := Option.some.inj (hj.symm.trans hold)
  refine ⟨r,hr,hid,h,j,hh,hold,hid ▸ hmemo,hstate,?_⟩
  rw [hamount,(hi.rows r hr).amount (isEscrowed_isTraded hst) h j hh hold,ha,hf]
  omega

end

def feeExternals : Externals := { plainExternals with fee := 1 / 250 }

theorem feeExternals_documented : feeExternals.Documented :=
  ⟨plainExternals_documented.texts,plainExternals_documented.setupDispute,
    plainExternals_documented.countFailedPayment⟩

/-- A payout is about to be dispatched; `p` compares it with the state. -/
def dispatches (p : Dispatch → State → Bool) (_ : Label) (op : Op) (s : State) : Bool :=
  match op with
  | .spawn d => p d s
  | _ => false

theorem dispatches_spec {p : Dispatch → State → Bool} {l : Label} {op : Op} {s : State}
    (h : dispatches p l op s = true) : ∃ d, op = .spawn d ∧ p d s = true := by
  cases op with
  | spawn d => exact ⟨d,rfl,h⟩
  | _ => cases h

theorem released_order_paid_out :
    ∃ c l d, (daemon plainSettings feeExternals).Reach termsFresh State.Initial c ∧
      c.AboutTo l (.spawn d) ∧ d.amount = 4990 ∧ ∃ r ∈ c.shared.orders, r.order.id = d.order.id ∧
        ∃ h i, r.order.hash = some h ∧ c.shared.hold? h = some i ∧ i.memo = .escrow d.order.id ∧
          i.state = .settled ∧ d.amount = i.amount - 2 * r.order.fee := by
  obtain ⟨c,l,op,hc,hnext,hp⟩ := aboutTo_of_schedule plainSettings feeExternals termsFresh
    (activeSell ++ alone 5 (.message (.fiatSent 1 8 none)) 3
      ++ alone 6 (.message (.release 1 7 none)) 10)
    (dispatches fun d _ => d.amount == 4990) (by decide +kernel)
  obtain ⟨d,rfl,hd⟩ := dispatches_spec hp
  exact ⟨c,l,d,hc,hnext,beq_iff_eq.mp hd,
    (payout_matches_escrow feeExternals_documented hc).2 l d hnext⟩

/-- A market-priced order waits for the buyer's invoice beyond its time.  The timeout job has
confirmed that when the invoice arrives after all; the order is funded, its fiat is sent and its
escrow released.  The job then takes the price back, and the payout of 4990 satoshis is dispatched
for an order whose stored fee is zero, out of a hold invoice over 5010. -/
theorem payout_misses_stored_fee :
    ∃ cfg ext c l d, ext.Documented ∧
      (daemon cfg ext).Reach System.Demand.none State.Initial c ∧ c.AboutTo l (.spawn d) ∧
      (∀ r ∈ c.shared.orders, r.order.id = d.order.id → r.order.fee = 0) ∧
      ∃ i ∈ c.shared.holds, c.shared.holds = [i] ∧ i.memo = .escrow d.order.id ∧
        i.state = .settled ∧ i.amount = 5010 ∧ d.amount = 4990 := by
  obtain ⟨c,l,op,hc,hnext,hp⟩ := aboutTo_of_schedule plainSettings feeExternals System.Demand.none
    (.env (.tick 10)
      :: alone 0 (.message (.newOrder ⟨some .sell,0,100,none,none,none,100000⟩ 7 7 7 none)) 5
      ++ quoted 2 (.message (.takeSell ⟨1,8,8,none,none,none⟩)) 3 5000 5
      ++ .env (.tick 1000) :: alone 3 (.job .cancelOrders) 5
      ++ .start ⟨4,.message (.addInvoice 1 8 (some 50))⟩ :: steps 1 9
      ++ .env (.accept 5 100) :: .start ⟨6,.escrowInvoice 5⟩ :: steps 1 6
      ++ .start ⟨7,.message (.fiatSent 1 8 none)⟩ :: steps 1 3
      ++ .start ⟨8,.message (.release 1 7 none)⟩ :: steps 1 10 ++ steps 0 1)
    (dispatches fun d s => decide ((∀ r ∈ s.orders, r.order.id = d.order.id → r.order.fee = 0) ∧
      ∃ i ∈ s.holds, s.holds = [i] ∧ i.memo = .escrow d.order.id ∧ i.state = .settled ∧
        i.amount = 5010 ∧ d.amount = 4990)) (by decide +kernel)
  obtain ⟨d,rfl,hd⟩ := dispatches_spec hp
  obtain ⟨hfee,hold⟩ := of_decide_eq_true hd
  exact ⟨_,_,c,l,d,feeExternals_documented,hc,hnext,hfee,hold⟩

end Mostro
