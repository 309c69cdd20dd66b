import Mostro.ActionDiscipline

set_option autoImplicit false

/-!
The discipline of buyer payouts, of the trade actions and of the jobs, and with it of the code of
every task.
-/

namespace Mostro

open Interleaving Prog

variable {hash : Hash} {id : Uuid} {s : Status} {m : TakeMessage} {child : Order}

section

variable {req : Request} {Γ : Set Fact} {α β : Type} {cfg : Settings} {ext : Externals}

theorem checkFailureRetries_disciplined {order : Order} (hext : ext.Documented)
    (hreq : req.paysBuyer = true) (hdue : KnowsDue req Γ order.id ∨ .claimed order.id ∈ Γ) :
    Disciplined req Γ (checkFailureRetries cfg ext order) := by
  refine disciplined_require_bind.mpr fun _ _ => disciplined_ensure_bind.mpr fun _ => ?_
  exact disciplined_runOrder_bind ⟨hext.countFailedPayment _ _,hreq,hdue⟩ fun _ => trivial

theorem resolvePayout_disciplined {order : Order} {request : PaymentRequest}
    (hext : ext.Documented) (hreq : req.paysBuyer = true) (hdue : KnowsDue req Γ order.id) :
    Disciplined req Γ (resolvePayout cfg ext order request) := by
  have hfail (e : MostroError) : Disciplined req Γ (do
      (checkFailureRetries cfg ext order).ignore
      (.fail e : M PaymentRequest)) :=
    (checkFailureRetries_disciplined hext hreq (.inl hdue)).ignore.seq fun _ => trivial
  unfold resolvePayout
  split
  · refine Follows.attempt_seq (disciplined_ask.mpr trivial) fun resolved => ?_
    split
    · split
      · refine Follows.attempt_seq disciplined_check fun r => ?_
        split
        · trivial
        · exact hfail _
      · exact hfail _
    · exact hfail _
  · trivial

theorem payoutAmount_eq {order : Order} (h : (payoutAmount order != 0) = true) :
    payoutAmount order = order.amount - order.fee := by
  simp only [payoutAmount,bne_iff_ne,ne_eq] at h ⊢
  omega

theorem doPayment_disciplined {order : Order} (hext : ext.Documented)
    (hreq : req.paysBuyer = true) (ho : KnowsOwed Γ order) (hdue : KnowsDue req Γ order.id) :
    Disciplined req Γ (doPayment cfg ext order) := by
  refine disciplined_require_bind.mpr fun request _ => disciplined_ensure_bind.mpr fun hpos => ?_
  refine (resolvePayout_disciplined hext hreq hdue).seq fun request => ?_
  refine disciplined_require_bind.mpr fun _ _ => disciplined_connect_bind ?_
  refine disciplined_require_bind.mpr fun decoded _ => disciplined_timestamp_bind fun now => ?_
  refine disciplined_runOrder_bind ⟨hreq,hdue⟩ fun claimed => ?_
  split
  · trivial
  · exact disciplined_ask.mpr ⟨hreq,payoutAmount_eq hpos,ho⟩

theorem finalizePayout_disciplined {order : Order} {claimedAt : Option Int}
    (hreq : req.paysBuyer = true) (hclaimed : .claimed order.id ∈ Γ) :
    Disciplined req Γ (finalizePayout order hash claimedAt) := by
  have hsuccess : Disciplined req Γ (paymentSuccess order) := by
    refine disciplined_updateOrderEvent.attempt_seq fun r => ?_
    split
    · trivial
    · exact disciplined_runOrder_bind ⟨hreq,hclaimed⟩ fun _ => trivial
  refine hsuccess.attempt_seq fun r => ?_
  split
  · exact disciplined_runOrder_bind hreq fun _ => trivial
  · trivial

theorem failPayout_disciplined {pre : Option Order} {claimedAt : Option Int} (hext : ext.Documented)
    (hreq : req.paysBuyer = true) (hclaimed : .claimed id ∈ Γ)
    (hpre : ∀ o, pre = some o → o.id = id) :
    Disciplined req Γ (failPayout cfg ext id pre hash claimedAt) := by
  refine disciplined_runOrder_bind hreq fun owned => ?_
  split
  next order =>
    split
    · trivial
    · refine Follows.ignore (checkFailureRetries_disciplined hext hreq (.inr ?_))
      rwa [hpre order rfl]
  · trivial

theorem touchClaim_attempt_bind_disciplined {d : Dispatch}
    {f : Except MostroError (Option Int) → M β} (hreq : req.paysBuyer = true)
    (htouched : ∀ t, Disciplined req (Γ ∪ {.claimed d.order.id}) (f (.ok (some t))))
    (hlost : Disciplined req Γ (f (.ok none))) (herr : ∀ e, Disciplined req Γ (f (.error e))) :
    Disciplined req Γ ((touchClaim d).attempt.bind f) := by
  unfold touchClaim
  rw [bind_eq,attempt_bind]
  refine (disciplined_ask_attempt_bind .timestamp).mpr ⟨trivial,fun now _ => ?_⟩
  cases now with
  | error e => exact (herr e).mono Set.subset_union_left
  | ok now =>
    dsimp only
    rw [bind_eq,attempt_bind]
    refine (disciplined_ask_attempt_bind (.order (.run _))).mpr ⟨hreq,fun touched _ => ?_⟩
    cases touched with
    | error e => exact (herr e).mono (Set.subset_union_left.trans Set.subset_union_left)
    | ok n =>
      by_cases hn : n = 0
      · subst hn
        exact hlost.mono (Set.subset_union_left.trans Set.subset_union_left)
      · simp only [pure_eq,if_neg hn]
        refine (htouched now).mono (Set.union_subset_union Set.subset_union_left ?_)
        rintro _ rfl
        exact ⟨rfl,hn⟩

theorem sendPayout_disciplined {d : Dispatch} (hext : ext.Documented)
    (hreq : req.paysBuyer = true) (hclaimed : .claimed d.order.id ∈ Γ) :
    Disciplined req Γ (sendPayout cfg ext d) := by
  have hfail : Disciplined req Γ
      (failPayout cfg ext d.order.id (some d.order) d.payoutHash (some d.payoutClaimedAt)) :=
    failPayout_disciplined hext hreq hclaimed fun o ho => by
      cases ho
      rfl
  refine Follows.attempt_seq (disciplined_ask.mpr hreq) fun r => ?_
  split
  · refine disciplined_ask_bind_of (.lnd (.paymentUpdate _)) trivial (fun _ => rfl) fun out => ?_
    cases out with
    | succeeded => exact (finalizePayout_disciplined hreq hclaimed).ignore
    | failed => exact hfail.ignore
    | ended => trivial
  · trivial
  · refine Follows.attempt_seq (disciplined_ask.mpr trivial) fun r => ?_
    split
    · trivial
    · trivial
    · trivial
    · exact hfail.ignore

theorem dispatchPayout_disciplined {beats : Nat} {d : Dispatch} (hext : ext.Documented)
    (hreq : req.paysBuyer = true) : Disciplined req Γ (dispatchPayout cfg ext beats d) := by
  induction beats generalizing Γ d with
  | zero =>
    refine touchClaim_attempt_bind_disciplined hreq (fun t => ?_) trivial fun e => trivial
    exact sendPayout_disciplined hext hreq (.inr rfl)
  | succ beats ih =>
    exact touchClaim_attempt_bind_disciplined hreq (fun t => ih) trivial fun e => trivial

theorem reconcileInflightPayout_disciplined {claimedAt : Option Int} (hext : ext.Documented)
    (hreq : req.paysBuyer = true) (hclaimed : .claimed id ∈ Γ) :
    Disciplined req Γ (reconcileInflightPayout cfg ext id hash claimedAt) := by
  have hfail (pre : Option Order) (hpre : ∀ o, pre = some o → o.id = id) :
      Disciplined req Γ (failPayout cfg ext id pre hash claimedAt) :=
    failPayout_disciplined hext hreq hclaimed hpre
  refine Follows.attempt_seq (disciplined_ask.mpr trivial) fun r => ?_
  split
  · refine disciplined_query_attempt_bind trivial (fun order horder => ?_) fun e => trivial
    cases order with
    | none => trivial
    | some order =>
      have hid : order.id = id := horder order (by simp [Option.toList])
      dsimp only
      split
      · exact finalizePayout_disciplined hreq (.inl (hid ▸ hclaimed))
      · trivial
  · trivial
  · trivial
  · refine disciplined_query_attempt_bind trivial (fun pre hp => (hfail _ ?_).mono
      Set.subset_union_left) fun e => hfail none (by simp)
    rintro o rfl
    exact hp o (by simp [Option.toList])

theorem jobReconcileInflightPayouts_disciplined (hext : ext.Documented)
    (hreq : req.paysBuyer = true) : Disciplined req Γ (jobReconcileInflightPayouts cfg ext) := by
  refine disciplined_timestamp_bind fun now => disciplined_query_bind trivial fun inflight _ => ?_
  exact Follows.forEach fun p hp =>
    (reconcileInflightPayout_disciplined hext hreq (.inr ⟨p,hp,rfl⟩)).ignore

theorem jobRetryFailedPayments_disciplined (hext : ext.Documented)
    (hreq : req.paysBuyer = true) : Disciplined req Γ (jobRetryFailedPayments cfg ext) := by
  refine disciplined_query_bind trivial fun failed hfailed => Follows.forEach fun order hmem => ?_
  split
  · obtain ⟨hst,hmark⟩ := hfailed order hmem
    exact (doPayment_disciplined hext hreq ⟨order,mem_ordersRead hmem,rfl,rfl,.inl hst⟩
      (.inr ⟨order,mem_ordersRead hmem,rfl,hst,hmark⟩)).ignore
  · trivial

/-! ### Takes -/

theorem pretrade_isOpen (h : pretradeStatuses.contains s = true) :
    s.isOpen = true ∧ s.isEscrowed = false ∧ s ≠ .settledHoldInvoice ∧ s ≠ .success ∧
      s.isListed = true := by
  revert h
  cases s <;> decide

theorem checkTake_bind_disciplined {kind : Kind} {side : Side} {f : Order → M β}
    (hf : ∀ o, o.status.isListed = true → o.kind = kind → Disciplined req (Γ ∪ {.order o}) (f o)) :
    Disciplined req Γ ((checkTake m kind side).bind f) := by
  unfold checkTake
  simp only [bind_eq,bind_assoc]
  refine disciplined_getOrder_bind fun order _ => ?_
  refine disciplined_query_bind trivial fun busy _ => disciplined_ensure_bind.mpr fun _ => ?_
  refine disciplined_ensure_bind.mpr fun hkind => disciplined_ensure_bind.mpr fun hs => ?_
  refine disciplined_timestamp_bind fun now => disciplined_ensure_bind.mpr fun _ => ?_
  refine disciplined_ensure_bind.mpr fun _ => ?_
  exact (hf order (pretrade_isOpen hs).2.2.2.2 (beq_iff_eq.mp hkind)).mono Set.subset_union_left

theorem takerBondGate_disciplined {order : Order} {sender : Pubkey} :
    Disciplined req Γ (takerBondGate cfg order sender) := by
  unfold takerBondGate
  split
  · exact disciplined_query_bind trivial fun _ _ => disciplined_ensure_bind.mpr fun _ => trivial
  · trivial

def SameTaken (x o : Order) : Prop :=
  x.offer = o.offer ∧ x.kind = o.kind ∧ x.sellerPubkey = o.sellerPubkey ∧
    x.buyerPubkey = o.buyerPubkey ∧ x.failedPayment = o.failedPayment

theorem getFiatAmountRequested_offers {order : Order} {requested : Option Int} {fiat : Int}
    (h : getFiatAmountRequested order requested = some fiat) : order.offers fiat = true := by
  unfold getFiatAmountRequested at h
  unfold Order.offers
  cases hmin : order.minAmount with
  | none =>
    simp only [hmin,Option.some.injEq] at h
    simp [h]
  | some low =>
    cases hmax : order.maxAmount with
    | none =>
      simp only [hmin,hmax,Option.some.injEq] at h
      simp [h]
    | some high =>
      cases requested with
      | none => simp [hmin,hmax] at h
      | some n =>
        simp only [hmin,hmax,Option.ite_none_right_eq_some,Option.some.injEq] at h
        simp [← h.2,h.1]

theorem priceTake_bind_disciplined {order : Order} {requested : Option Int} {f : Order → M β}
    (hf : ∀ o, SameEscrow order o → SameTaken order o → order.offers o.fiatAmount = true →
      Disciplined req Γ (f o)) :
    Disciplined req Γ ((priceTake ext order requested).bind f) := by
  unfold priceTake
  refine disciplined_bind_assoc (disciplined_require_bind.mpr fun fiat hfiat => ?_)
  have hoffers := getFiatAmountRequested_offers hfiat
  dsimp only
  split
  · refine disciplined_bind_assoc ?_
    exact disciplined_ask_bind_of (.marketAmountAndFee fiat) trivial (fun _ => rfl) fun quote =>
      hf _ ⟨rfl,rfl,rfl,rfl⟩ ⟨rfl,rfl,rfl,rfl,rfl⟩ hoffers
  · exact hf _ ⟨rfl,rfl,rfl,rfl⟩ ⟨rfl,rfl,rfl,rfl,rfl⟩ hoffers

theorem takeTradeIndex_disciplined : Disciplined req Γ (takeTradeIndex m) :=
  disciplined_require_bind.mpr fun _ _ => disciplined_check_bind trivial

theorem awaitBuyerInvoice_disciplined {order : Order} (ho : KnowsEscrow Γ order)
    (hl : KnowsListed Γ order) (hslice : KnowsSlice Γ order) :
    Disciplined req Γ (awaitBuyerInvoice order) := by
  refine disciplined_require_bind.mpr fun _ _ => ?_
  refine setWaitingInvoiceStatus_disciplined.seq fun _ => disciplined_updateOrderEvent_bind ?_
  refine disciplined_runOrder_bind ⟨.inr rfl,.inl ho,⟨nofun,fun _ => hl⟩,hslice⟩ fun won => ?_
  split
  · exact republishWinningStateAfterCasMiss_disciplined.seq fun _ => trivial
  · trivial

theorem takeSellAction_disciplined (hreq : req.asksEscrow = true) :
    Disciplined req Γ (takeSellAction cfg ext m) := by
  refine checkTake_bind_disciplined fun order hl hkind =>
    takerBondGate_disciplined.seq fun goes => ?_
  split
  · refine disciplined_require_bind.mpr fun seller hseller => ?_
    refine priceTake_bind_disciplined fun priced hsame htaken hoffers => disciplined_check_bind ?_
    have hslice : KnowsSlice (Γ ∪ {.order order}) priced :=
      .inl ⟨order,.inr rfl,hsame.id,htaken.1,hoffers⟩
    refine takeTradeIndex_disciplined.seq fun index => ?_
    split
    · exact Follows.seq (requestTakerBond_disciplined (.inr rfl) hsame.id hoffers) fun _ => trivial
    · refine disciplined_setTimestampNow_bind fun t => ?_
      have hknows : KnowsEscrow (Γ ∪ {.order order}) priced := ⟨order,.inr rfl,hsame⟩
      split
      · refine showCashuEscrowRequest_disciplined (asksEscrow_not_job hreq) hknows
          ⟨order,.inr rfl,hl,hsame.id,hsame.hash⟩
          (.of_same (.inr rfl) ⟨hsame.id,htaken.1,htaken.2.2.2.2,?_⟩)
        simp [makerSlicePubkey,hkind,← htaken.2.1,hseller]
      · split
        · exact awaitBuyerInvoice_disciplined hknows ⟨order,.inr rfl,hl,hsame.id,hsame.hash⟩ hslice
        · exact showHoldInvoice_disciplined hreq hslice
  · trivial

theorem asHoldInvoiceError_disciplined {p : M Unit} (hp : Disciplined req Γ p) :
    Disciplined req Γ (asHoldInvoiceError p) := by
  refine hp.attempt_seq fun r => ?_
  split <;> trivial

theorem takeBuyAction_disciplined (hreq : req.asksEscrow = true) :
    Disciplined req Γ (takeBuyAction cfg ext m) := by
  refine checkTake_bind_disciplined fun order hl hkind =>
    takerBondGate_disciplined.seq fun goes => ?_
  split
  · refine priceTake_bind_disciplined fun priced hsame htaken hoffers => ?_
    have hslice : KnowsSlice (Γ ∪ {.order order}) priced :=
      .inl ⟨order,.inr rfl,hsame.id,htaken.1,hoffers⟩
    refine disciplined_require_bind.mpr fun buyer hbuyer =>
      takeTradeIndex_disciplined.seq fun index => ?_
    split
    · exact Follows.seq (requestTakerBond_disciplined (.inr rfl) hsame.id hoffers) fun _ => trivial
    · refine disciplined_setTimestampNow_bind fun t => ?_
      split
      · refine showCashuEscrowRequest_disciplined (asksEscrow_not_job hreq) ⟨order,.inr rfl,hsame⟩
          ⟨order,.inr rfl,hl,hsame.id,hsame.hash⟩
          (.of_same (.inr rfl) ⟨hsame.id,htaken.1,htaken.2.2.2.2,?_⟩)
        simp [makerSlicePubkey,hkind,← htaken.2.1,htaken.2.2.2.1,hbuyer]
      · exact asHoldInvoiceError_disciplined (showHoldInvoice_disciplined hreq hslice)
  · trivial

theorem KnowsSlice.of_read {x o : Order} (hx : .order x ∈ Γ) (hst : x.status.isCommitted = true)
    (hid : x.id = o.id) (hoffer : x.offer = o.offer) (hfiat : x.fiatAmount = o.fiatAmount) :
    KnowsSlice Γ o := .inr (.inl ⟨x,hx,hst,hid,hoffer,hfiat⟩)

theorem addInvoiceAction_disciplined {sender : Pubkey} {request : Option PaymentRequest} :
    Disciplined (.message (.addInvoice id sender request)) Γ
      (addInvoiceAction id sender request) := by
  refine disciplined_getOrder_bind fun order hid => disciplined_require_bind.mpr fun buyer hb => ?_
  refine disciplined_ensure_bind.mpr fun hsender => disciplined_check_bind ?_
  dsimp only
  split
  · exact disciplined_runOrder_bind trivial fun _ => disciplined_ensure
  next hs =>
    have hslice : KnowsSlice (Γ ∪ {.order order}) order :=
      .of_read (.inr rfl) (by simp [hs,Status.isCommitted]) rfl rfl rfl
    refine disciplined_check_bind (disciplined_require_bind.mpr fun seller _ => ?_)
    split
    next hpre =>
      refine disciplined_updateOrderEvent_bind (disciplined_updateOrder ?_)
      have hknows : KnowsEscrow (Γ ∪ {.order order}) order := ⟨order,.inr rfl,rfl,rfl,rfl,rfl⟩
      exact ⟨rfl,by simp [hs,Status.isOpen],nofun,nofun,nofun,.inl hknows,.inl rfl,
        by simp [hs,Status.isEscrowed],nofun,nofun,nofun,.inl (.of_same (.inr rfl) rfl rfl rfl),
        .invoice (by rw [hid]) hs hpre (beq_iff_eq.mp hsender ▸ hb),
        .of_same (.inr rfl) ⟨rfl,rfl,rfl,rfl⟩,nofun⟩
    · exact asHoldInvoiceError_disciplined (showHoldInvoice_disciplined rfl hslice)
  · trivial

theorem fiatSentAction_disciplined {sender : Pubkey} {nextTrade : NextTrade}
    (hreq : req.isGuardian = false ∧ req.isTimeoutJob = false) :
    Disciplined req Γ (fiatSentAction id sender nextTrade) := by
  refine disciplined_getOrder_bind fun order _ => disciplined_ensure_bind.mpr fun hs => ?_
  have hs : order.status = .active := by simpa using hs
  refine disciplined_ensure_bind.mpr fun _ => disciplined_updateOrderEvent_bind ?_
  refine disciplined_require_bind.mpr fun _ _ => disciplined_updateOrder ?_
  have hknows : KnowsEscrow (Γ ∪ {.order order}) order := ⟨order,.inr rfl,rfl,rfl,rfl,rfl⟩
  have hopen : order.status.isOpen = true := by simp [hs,Status.isOpen]
  have hnot : order.status.isEscrowed = true → False := by simp [hs,Status.isEscrowed]
  -- what is left concerns other statuses than the one that is written
  split <;> refine ⟨rfl,hopen,?_,?_,?_,.inl hknows,.inl rfl,fun h => (hnot h).elim,?_,
    by simp [hreq],?_,.inl (.of_same (.inr rfl) rfl rfl rfl),
    .proceeds hreq.2 rfl (.inr (.inl ⟨hs,rfl⟩)),.of_same (.inr rfl) ⟨rfl,rfl,rfl,rfl⟩,?_⟩ <;>
    (intro h; cases h)

theorem isOpen_of_isBeforePayment (h : s.isBeforePayment = true) :
    s.isOpen = true ∧ s.isEscrowed = false := by
  revert h
  cases s <;> decide

theorem expirable_isOpen
    (h : [Status.pending,.waitingTakerBond,.waitingMakerBond].contains s = true) :
    s.isOpen = true ∧ s.isEscrowed = false := by
  revert h
  cases s <;> decide

theorem isBeforePayment_of_late
    (h : [Status.waitingBuyerInvoice,.waitingPayment].contains s = true) :
    s.isBeforePayment = true := by
  revert h
  cases s <;> decide

theorem tradePubkeyAction_disciplined {sender identity : Pubkey}
    (hreq : req = .message (.tradePubkey id sender identity)) :
    Disciplined req Γ (tradePubkeyAction id sender identity) := by
  have hrotates := hreq
  replace hreq : req.isGuardian = false ∧ req.isTimeoutJob = false := by rw [hreq]; exact ⟨rfl,rfl⟩
  refine disciplined_getOrder_bind fun order hid => disciplined_ensure_bind.mpr fun hs => ?_
  obtain ⟨hopen,hesc,hne,hne',hlisted⟩ := pretrade_isOpen hs
  have hneed (row : Order) (hrow : SameEscrow order row) (hstatus : row.status = order.status)
      (hterms : row.terms = order.terms) (hoffer : KnowsOffer req (Γ ∪ {.order order}) row) :
      Disciplined req (Γ ∪ {.order order}) (updateOrder order row) := by
    refine disciplined_updateOrder ⟨hrow.id.symm,hopen,?_,?_,
      fun _ => .inl ⟨order,.inr rfl,hlisted,rfl,rfl⟩,.inl ⟨order,.inr rfl,hrow⟩,
      .inl hrow.hash.symm,?_,?_,by simp [hreq],fun h => .inl (hstatus ▸ h),
      .inl (.of_same (.inr rfl) rfl rfl rfl),.proceeds hreq.2 hterms (.inl hstatus),hoffer,
      fun h => .inl (hstatus ▸ h)⟩
    · rwa [hstatus]
    · rwa [hstatus]
    · simp [hesc]
    · intro h
      rw [← hstatus,h] at hlisted
      cases hlisted
  have hoffer (row : Order) (hrow : row.id = order.id) (ho : order.offer = row.offer)
      (hfailed : order.failedPayment = row.failedPayment)
      (hmaker : makerSlicePubkey row = some sender) : KnowsOffer req (Γ ∪ {.order order}) row :=
    ⟨order,.inr rfl,hrow.symm,ho,hfailed,.inr ⟨sender,identity,by rw [hrotates,hrow,hid],hmaker⟩⟩
  split
  next hkind =>
    refine disciplined_require_bind.mpr fun _ _ => disciplined_ensure_bind.mpr fun _ => ?_
    exact hneed _ ⟨rfl,rfl,rfl,rfl⟩ rfl rfl
      (hoffer _ rfl rfl rfl (by simp [makerSlicePubkey,hkind]))
  next hkind =>
    refine disciplined_require_bind.mpr fun _ _ => disciplined_ensure_bind.mpr fun _ => ?_
    exact hneed _ ⟨rfl,rfl,rfl,rfl⟩ rfl rfl
      (hoffer _ rfl rfl rfl (by simp [makerSlicePubkey,hkind]))

/-! ### Release -/

theorem closeDisputeAfterUserResolution_disciplined {order : Uuid} {status : DisputeStatus}
    (hresolved : .resolved order ∈ Γ) :
    Disciplined req Γ (closeDisputeAfterUserResolution order status) := by
  refine disciplined_query_attempt_bind trivial (fun found hfound => ?_) fun e => trivial
  cases found with
  | none => trivial
  | some d =>
    have hid : d.orderId = order := hfound d (by simp)
    refine Follows.ignore (disciplined_ask.mpr ⟨⟨d,.inr ⟨d,by simp,rfl⟩,rfl,rfl⟩,.inr (.inl ?_)⟩)
    exact .inl (hid ▸ hresolved)

structure FreshChild (order child : Order) : Prop where
  hash : child.hash = none
  preimage : child.preimage = none
  status : child.status = .pending
  kind : child.kind = order.kind
  heldAt : child.invoiceHeldAt = 0
  amount : child.amount = 0
  child : child.IsChildOf order

theorem createBaseOrder_freshChild (order : Order) : FreshChild order (createBaseOrder order) := by
  unfold createBaseOrder
  cases hk : order.kind <;> refine ⟨rfl,rfl,rfl,hk.symm,rfl,rfl,rfl,rfl,fun hm => ?_⟩ <;>
    simp_all [Order.marks,Order.AsNew,Order.gating,Order.publishedTerms,PublishedTerms.publish]

theorem FreshChild.withAmounts {order : Order} (h : FreshChild order child) (fiat : Int)
    (low high : Option Int) :
    FreshChild order { child with fiatAmount := fiat, maxAmount := high, minAmount := low } := by
  refine ⟨h.hash,h.preimage,h.status,h.kind,h.heldAt,h.amount,h.child.1,h.child.2.1,fun hm => ?_⟩
  have hpub := h.child.2.2 hm
  cases hk : child.kind <;> cases child <;> simp_all [Order.AsNew,Order.gating,Order.publishedTerms,
    PublishedTerms.publish]

theorem FreshChild.withBuyer {order : Order} (h : FreshChild order child) (hk : order.kind = .buy)
    (next : Pubkey) (index : Option Int) (identity : Option Pubkey) :
    FreshChild order { child with
      buyerPubkey := some next, tradeIndexBuyer := index, creatorPubkey := next,
      masterBuyerPubkey := identity } := by
  refine ⟨h.hash,h.preimage,h.status,h.kind,h.heldAt,h.amount,h.child.1,h.child.2.1,fun hm => ?_⟩
  have hpub := h.child.2.2 hm
  have hkind := h.kind
  cases child
  simp_all [Order.AsNew,Order.gating,Order.publishedTerms,PublishedTerms.publish]

theorem FreshChild.withSeller {order : Order} (h : FreshChild order child) (hk : order.kind = .sell)
    (next : Pubkey) (index : Option Int) (identity : Option Pubkey) :
    FreshChild order { child with
      sellerPubkey := some next, tradeIndexSeller := index, creatorPubkey := next,
      masterSellerPubkey := identity } := by
  refine ⟨h.hash,h.preimage,h.status,h.kind,h.heldAt,h.amount,h.child.1,h.child.2.1,fun hm => ?_⟩
  have hpub := h.child.2.2 hm
  have hkind := h.kind
  cases child
  simp_all [Order.AsNew,Order.gating,Order.publishedTerms,PublishedTerms.publish]

theorem getChildOrder_attempt_bind_disciplined {order : Order}
    {f : Except MostroError (Option Order) → M β}
    (hsome : ∀ o, FreshChild order o → order.isRangeOrder = true → o.IsRemainderOf order →
      Disciplined req Γ (f (.ok (some o))))
    (hnone : Disciplined req Γ (f (.ok none))) (herr : ∀ e, Disciplined req Γ (f (.error e))) :
    Disciplined req Γ ((getChildOrder order).attempt.bind f) := by
  have hbase := createBaseOrder_freshChild order
  unfold getChildOrder
  split
  next high low hmax hmin =>
    dsimp only
    split
    · exact hnone
    next hle =>
      rw [bind_eq,attempt_bind]
      refine Follows.attempt_seq disciplined_require fun r => ?_
      cases r with
      | error e => exact herr e
      | ok key =>
        dsimp only
        rw [bind_eq,attempt_bind]
        refine Follows.attempt_seq disciplined_check fun r => ?_
        cases r with
        | error e => exact herr e
        | ok _ =>
          refine hsome _ ?_ (by simp [Order.isRangeOrder,hmax,hmin])
            ⟨low,high,hmin,hmax,not_lt.mp hle,?_⟩
          · split
            · exact hbase.withAmounts _ _ _
            · exact hbase.withAmounts _ _ _
          · split
            next heq => exact ⟨heq,rfl,rfl⟩
            · refine ⟨?_,rfl⟩
              simp only [createBaseOrder]
              split <;> exact hmin
  · exact hnone

theorem FreshChild.disciplined_create {order read : Order} {sender : Pubkey} {nextTrade : NextTrade}
    (h : FreshChild order child) (hread : .order read ∈ Γ)
    (hst : read.status = .fiatSent ∨ read.status = .dispute) (hid : order.id = read.id)
    (hmarks : order.marks = read.marks) (hrange : read.isRangeOrder = true)
    (hreq : req = .message (.release read.id sender nextTrade)) (hres : .resolved read.id ∈ Γ)
    (hrem : child.IsRemainderOf read) : Disciplined req Γ (execOrder (.create child)) := by
  refine disciplined_ask.mpr ⟨h.hash,h.preimage,.inl h.status,.inr ?_,h.heldAt,fun _ => h.amount⟩
  exact ⟨read,sender,nextTrade,hread,hst,hrange,hreq,
    ⟨hid ▸ h.child.1,h.child.2.1.trans hmarks,h.child.2.2⟩,hres,hrem⟩

section

variable {order : Order} (read : Order) {sender : Pubkey} {nextTrade : NextTrade}
  (hread : .order read ∈ Γ) (hst : read.status = .fiatSent ∨ read.status = .dispute)
  (hid : order.id = read.id) (hmarks : order.marks = read.marks)
  (hreq : req = .message (.release read.id sender nextTrade)) (hres : .resolved read.id ∈ Γ)

include hread hst hid hmarks hreq hres

theorem handleChildOrder_disciplined (hrange : read.isRangeOrder = true)
    (h : FreshChild order child) (hrem : child.IsRemainderOf read) :
    Disciplined req Γ (handleChildOrder ext child order nextTrade) := by
  refine disciplined_require_bind.mpr fun keys _ => ?_
  split
  next hk =>
    refine disciplined_require_bind.mpr fun next _ => ?_
    refine Follows.seq ?_ fun _ => trivial
    exact (h.withBuyer hk.1 _ _ _).disciplined_create hread hst hid hmarks hrange hreq hres hrem
  · split
    next hk =>
      refine disciplined_require_bind.mpr fun next _ => ?_
      refine Follows.seq ?_ fun _ => trivial
      exact (h.withSeller hk.1 _ _ _).disciplined_create hread hst hid hmarks hrange hreq hres hrem
    · trivial

theorem continueOrCloseRange_disciplined (hsame : order.isRangeOrder = read.isRangeOrder)
    (hrem : ∀ o : Order, o.IsRemainderOf order → o.IsRemainderOf read) :
    Disciplined req Γ (continueOrCloseRange ext order nextTrade) := by
  refine getChildOrder_attempt_bind_disciplined (fun child h hrange hleft => ?_)
    resolveRangeMakerBondAtCloseOrWarn_disciplined
    fun e => resolveRangeMakerBondAtCloseOrWarn_disciplined
  refine Follows.attempt_seq (handleChildOrder_disciplined read hread hst hid hmarks hreq hres
    (hsame ▸ hrange) h (hrem child hleft)) fun r => ?_
  split
  · trivial
  · exact resolveRangeMakerBondAtCloseOrWarn_disciplined

end

theorem releaseAction_disciplined {sender : Pubkey} {nextTrade : NextTrade} (hext : ext.Documented) :
    Disciplined (.message (.release id sender nextTrade)) Γ
      (releaseAction cfg ext id sender nextTrade) := by
  refine disciplined_getOrder_bind fun order hid => disciplined_require_bind.mpr fun seller _ => ?_
  refine disciplined_require_bind.mpr fun buyer _ => disciplined_ensure_bind.mpr fun _ => ?_
  refine disciplined_ensure_bind.mpr fun hs => ?_
  have hs : order.status = .fiatSent ∨ order.status = .dispute := by simpa using hs
  refine settleSellerHoldInvoice_bind_disciplined (.inr rfl) hs hid.symm fun p hset => ?_
  refine disciplined_updateOrderEvent_bind (disciplined_runOrder_learn ?_ fun settled => ?_)
  · exact ⟨hid.symm,order,p,hset.mono Set.subset_union_left,rfl,.inr (.inl rfl),.inr (.inr rfl)⟩
  · split
    · trivial
    next hne =>
      refine (closeDisputeAfterUserResolution_disciplined (.inr ⟨rfl,hne⟩)).seq fun _ => ?_
      refine Follows.seq (continueOrCloseRange_disciplined order ?_ hs rfl rfl (by rw [hid])
        (.inr ⟨rfl,hne⟩) rfl fun _ h => h) fun _ => ?_
      · exact .inl (.inl (.inr rfl))
      refine releaseTakerBondsForOrderOrWarn_disciplined.seq fun _ => ?_
      refine Follows.ignore
        (doPayment_disciplined hext rfl (KnowsOwed.mono Set.subset_union_left ?_)
        (.inl ⟨hid.symm,.inr ⟨rfl,hne⟩⟩))
      exact ⟨order,.inl (.inr rfl),rfl,rfl,
        .inr ⟨p,hset.mono Set.subset_union_left,.inr (.inl rfl)⟩⟩

/-! ### Disputes -/

theorem disputeAction_disciplined {sender : Pubkey} (hext : ext.Documented)
    (hreq : req.isGuardian = false ∧ req.isTimeoutJob = false)
    (hopens : req.disputedOrder = some id) : Disciplined req Γ (disputeAction ext id sender) := by
  refine Follows.attempt_seq (disciplined_query trivial) fun found =>
    disciplined_ensure_bind.mpr fun _ => ?_
  refine disciplined_getOrder_bind fun order hid => disciplined_ensure_bind.mpr fun hs => ?_
  refine disciplined_require_bind.mpr fun seller _ => disciplined_require_bind.mpr fun buyer _ => ?_
  refine disciplined_ensure_bind.mpr fun _ => disciplined_timestamp_bind fun now => ?_
  refine disciplined_require_bind.mpr fun disputed hd => ?_
  have hset := hext.setupDispute _ _ _ hd
  have hs : order.status = .active ∨ order.status = .fiatSent := by simpa using hs
  have hknows : KnowsEscrow (Γ ∪ {.order order}) order := ⟨order,.inr rfl,rfl,rfl,rfl,rfl⟩
  refine Follows.seq (disciplined_updateOrder ?_) fun _ => ?_
  · rw [hset]
    refine ⟨rfl,?_,nofun,nofun,nofun,.inl hknows,.inl rfl,fun _ => .inl ⟨rfl,rfl⟩,nofun,
      by simp [hreq],nofun,.inl (.of_same (.inr rfl) rfl rfl rfl),
      .proceeds hreq.2 rfl (.inr (.inr ⟨hs,rfl⟩)),.of_same (.inr rfl) ⟨rfl,rfl,rfl,rfl⟩,
      fun _ => .inr (.inl (hopens.trans (congrArg some hid.symm)))⟩
    rcases hs with hs | hs <;> simp [hs,Status.isOpen]
  · exact Follows.seq (disciplined_ask.mpr rfl) fun _ => disciplined_check

theorem closeDisputeByAdmin_disciplined {order : Order} {status : DisputeStatus} {d : Dispute}
    (hread : .dispute d ∈ Γ) (hresolved : .resolved d.orderId ∈ Γ ∨
      req.adminCanceledOrder = some d.orderId ∧
        ∃ o, .order o ∈ Γ ∧ o.id = d.orderId ∧ o.status = .dispute) :
    Disciplined req Γ (closeDisputeByAdmin order status d) :=
  Follows.seq (disciplined_ask.mpr ⟨⟨d,hread,rfl,rfl⟩,.inr hresolved⟩) fun _ =>
    disciplined_ensure_bind.mpr fun _ => disciplined_check

theorem adminTakeDisputeAction_disciplined {solver : Pubkey} :
    Disciplined req Γ (adminTakeDisputeAction id solver) := by
  refine disciplined_query_bind trivial fun found _ => ?_
  split
  · trivial
  next d _ =>
    refine disciplined_check_bind (disciplined_getOrder_bind fun order _ => ?_)
    refine disciplined_timestamp_bind fun now => Follows.seq (disciplined_ask.mpr ?_) fun _ => ?_
    · exact ⟨⟨d,.inl (.inr ⟨d,by simp,rfl⟩),rfl,rfl⟩,.inl rfl⟩
    exact disciplined_ensure_bind.mpr fun _ => disciplined_check_bind disciplined_check

theorem blames_lostDispute {trade : Order} : BlamesTimeout req Γ trade .lostDispute := nofun

theorem adminSettleAction_disciplined {resolution : BondResolution} (hext : ext.Documented)
    (hreq : req.settles id) (hpays : req.paysBuyer = true) :
    Disciplined req Γ (adminSettleAction cfg ext id resolution) := by
  refine disciplined_getOrder_bind fun order hid => disciplined_check_bind ?_
  split
  · trivial
  · refine disciplined_ensure_bind.mpr fun hs => validateBondResolution_disciplined.seq fun _ => ?_
    have hs : order.status = .dispute := by simpa using hs
    refine settleSellerHoldInvoice_attempt_bind_disciplined (.inr rfl) (.inr hs) (hid ▸ hreq)
      (fun p hset => ?_) fun e => trivial
    refine disciplined_updateOrderEvent_bind (disciplined_runOrder_learn ?_ fun settled => ?_)
    · exact ⟨hid ▸ hreq,order,p,hset.mono Set.subset_union_left,rfl,.inr (.inl rfl),
        .inr (.inr rfl)⟩
    · split
      · trivial
      next hne =>
        have howed : KnowsOwed (Γ ∪ {.order order} ∪ {.settled p, .captured p})
            { order with status := .settledHoldInvoice } :=
          ⟨order,.inl (.inr rfl),rfl,rfl,
            .inr ⟨p,hset.mono Set.subset_union_left,.inr (.inl rfl)⟩⟩
        have hrest {Γ : Set Fact} (order : Order) (ho : KnowsOwed Γ order)
            (hdue : KnowsDue req Γ order.id) : Disciplined req Γ (do
              (applyBondResolution cfg order resolution .lostDispute).ignore
              (resolveRangeMakerBondAtClose order).ignore
              (doPayment cfg ext order).ignore) := by
          refine (applyBondResolution_disciplined blames_lostDispute).ignore.seq fun _ => ?_
          refine resolveRangeMakerBondAtClose_disciplined.ignore.seq fun _ => ?_
          exact (doPayment_disciplined hext hpays ho hdue).ignore
        have howed := howed.mono (Set.subset_union_left (t :=
          (OrderUpdate.settleFromAdmin order.id).learn settled))
        have hrest := hrest _ howed (.inl ⟨hid ▸ hreq,.inr ⟨rfl,hne⟩⟩)
        refine disciplined_query_attempt_bind trivial (fun found hfound => ?_) fun e => hrest
        cases found with
        | none => exact hrest.mono Set.subset_union_left
        | some d =>
          have hd : d.orderId = order.id := hfound d (by simp)
          refine (closeDisputeByAdmin_disciplined (.inr ⟨d,by simp,rfl⟩) (.inl ?_)).seq fun _ =>
            hrest.mono Set.subset_union_left
          exact .inl (.inr ⟨congrArg _ hd,hne⟩)

theorem CancelsEscrow.of_beforePayment {order : Order} (hreq : req.isGuardian = false)
    (ho : .order order ∈ Γ) (hs : order.status.isBeforePayment = true) :
    CancelsEscrow req Γ order := by
  refine ⟨ho,by simp [hreq],fun _ ht => ?_⟩
  cases hst : order.status <;> simp [hst,Status.isBeforePayment,Status.isTrading] at hs ht

theorem cancelEscrow_bind_disciplined {x order : Order} {f : Unit → M β}
    (hx : CancelsEscrow req Γ x) (hsame : x.hash = order.hash)
    (hf : ∀ Γ', Γ ⊆ Γ' → (∀ h, order.hash = some h → .canceled h ∈ Γ') →
      Disciplined req Γ' (f ())) :
    Disciplined req Γ ((cancelEscrow order).bind f) := by
  unfold cancelEscrow
  split
  next hash hh =>
    refine (disciplined_ask_bind (.lnd (.cancelHoldInvoice hash))).mpr
      ⟨.of_order hx (hsame.trans hh),fun _ _ => hf _ Set.subset_union_left fun h heq => ?_⟩
    rw [hh] at heq
    cases heq
    exact .inr ⟨rfl,trivial⟩
  next hn => exact hf Γ subset_rfl (by simp [hn])

theorem adminCancelAction_disciplined {resolution : BondResolution} (hreq : req.isGuardian = false)
    (hcan : req.isCancel = false) (hcancels : req.adminCanceledOrder = some id) :
    Disciplined req Γ (adminCancelAction cfg id resolution) := by
  refine disciplined_getOrder_bind fun order hid => disciplined_check_bind ?_
  split
  · trivial
  · refine disciplined_ensure_bind.mpr fun hs => validateBondResolution_disciplined.seq fun _ => ?_
    have hs : order.status = .dispute := by simpa using hs
    refine cancelEscrow_bind_disciplined ⟨.inr rfl,by simp [hreq],by simp [hcan]⟩ rfl
      fun Γ' hΓ' hc => ?_
    have horder : .order order ∈ Γ' := hΓ' (.inr rfl)
    have hknows : KnowsEscrow Γ' order := ⟨order,horder,rfl,rfl,rfl,rfl⟩
    have hrest : Disciplined req Γ' (do
        let orderUpdated ← updateOrderEvent .canceledByAdmin order
        updateOrder order orderUpdated
        check .sendDm
        let _ ← require order.sellerPubkey .invalidPubkey
        let _ ← require order.buyerPubkey .invalidPubkey
        check .sendDm
        check .sendDm
        (applyBondResolution cfg order resolution .lostDispute).ignore
        (resolveRangeMakerBondAtClose order).ignore) := by
      refine disciplined_updateOrderEvent_bind
        (Follows.seq (disciplined_updateOrder ?_) fun _ => ?_)
      · exact ⟨rfl,by simp [hs,Status.isOpen],nofun,nofun,nofun,.inl hknows,.inl rfl,
          fun _ => .inr hc,nofun,by simp [hreq],nofun,.inl (.of_same horder rfl rfl rfl),
          .closes rfl,.of_same horder ⟨rfl,rfl,rfl,rfl⟩,nofun⟩
      · refine disciplined_check_bind (disciplined_require_bind.mpr fun _ _ => ?_)
        refine disciplined_require_bind.mpr fun _ _ => disciplined_check_bind ?_
        refine disciplined_check_bind ?_
        refine (applyBondResolution_disciplined blames_lostDispute).ignore.seq fun _ => ?_
        exact resolveRangeMakerBondAtClose_disciplined.ignore
    refine disciplined_query_attempt_bind trivial (fun found hfound => ?_) fun e =>
      disciplined_ensure_bind.mpr fun _ => hrest
    refine disciplined_ensure_bind.mpr fun _ => ?_
    cases found with
    | none => exact hrest.mono Set.subset_union_left
    | some d =>
      have hd : d.orderId = order.id := hfound d (by simp)
      refine (closeDisputeByAdmin_disciplined (.inr ⟨d,by simp,rfl⟩) (.inr ?_)).seq fun _ =>
        hrest.mono Set.subset_union_left
      exact ⟨hcancels.trans (by rw [hd,hid]),order,.inl horder,hd.symm,hs⟩

theorem addCashuEscrowAction_disciplined {sender : Pubkey} {proof : CashuLockProof}
    (hreq : req.isGuardian = false ∧ req.isTimeoutJob = false) (hlock : req.locksCashu = true) :
    Disciplined req Γ (addCashuEscrowAction id sender proof) := by
  refine disciplined_getOrder_bind fun order _ => disciplined_require_bind.mpr fun seller _ => ?_
  refine disciplined_ensure_bind.mpr fun _ => disciplined_require_bind.mpr fun buyer _ => ?_
  split
  · exact disciplined_ensure
  · refine disciplined_ensure_bind.mpr fun _ => disciplined_ensure_bind.mpr fun _ => ?_
    refine disciplined_query_bind trivial fun used _ => disciplined_ensure_bind.mpr fun _ => ?_
    refine disciplined_timestamp_bind fun now => disciplined_check_bind ?_
    refine disciplined_runOrder_bind ⟨rfl,rfl,hlock⟩ fun locked => ?_
    split
    · refine disciplined_query_bind trivial fun used _ => disciplined_ensure_bind.mpr fun _ => ?_
      exact Follows.attempt_seq (disciplined_query trivial) fun _ => disciplined_ensure
    · refine disciplined_query_attempt_bind trivial (fun fresh _ => ?_) fun e => trivial
      cases fresh with
      | none => trivial
      | some fresh =>
        refine disciplined_updateOrderEvent_attempt_bind (Follows.ignore ?_) fun e => trivial
        exact disciplined_updateOrder
          ⟨rfl,rfl,nofun,nofun,nofun,.inl ⟨fresh,mem_ordersRead_some,rfl,rfl,rfl,rfl⟩,
          .inl rfl,nofun,
            nofun,by simp [hreq],nofun,.inr hlock,.proceeds hreq.2 rfl (.inl rfl),
            .of_same mem_ordersRead_some ⟨rfl,rfl,rfl,rfl⟩,nofun⟩

/-! ### Cancel -/

theorem cancelPendingOrderFromMaker_disciplined {order : Order} {sender : Pubkey} :
    Disciplined req Γ (cancelPendingOrderFromMaker order sender) := by
  refine disciplined_ensure_bind.mpr fun _ => disciplined_updateOrderEvent.attempt_seq fun r => ?_
  split
  · trivial
  · refine disciplined_runOrder_bind (.inl rfl) fun won => ?_
    split
    · exact republishWinningStateAfterCasMiss_disciplined.seq fun _ => trivial
    · exact releaseTakerBondsForOrderOrWarn_disciplined.seq fun _ =>
        resolveRangeMakerBondAtCloseOrWarn_disciplined

theorem editPubkeysOrder_bind_disciplined {order : Order} {f : Order → M β}
    (hf : ∀ o, o.id = order.id → Disciplined req (Γ ∪ {.order o}) (f o)) :
    Disciplined req Γ ((editPubkeysOrder order).bind f) := by
  unfold editPubkeysOrder
  simp only [bind_eq,bind_assoc]
  refine disciplined_runOrder_bind trivial fun edited => disciplined_ensure_bind.mpr fun _ => ?_
  exact disciplined_requireOrder_bind hf

theorem resetApiQuotes_same (o : Order) :
    o.resetApiQuotes.status = o.status ∧ o.resetApiQuotes.hash = o.hash ∧
      o.resetApiQuotes.id = o.id := by
  unfold Order.resetApiQuotes
  split <;> exact ⟨rfl,rfl,rfl⟩

theorem cancelOrderByTakerInner_disciplined {order : Order} (hreq : req.isGuardian = false)
    (hundo : req.undoesTakes = true) (ho : .order order ∈ Γ)
    (hs : order.status.isBeforePayment = true) :
    Disciplined req Γ (cancelOrderByTakerInner order) := by
  refine cancelEscrow_bind_disciplined (.of_beforePayment hreq ho hs) rfl fun Γ' hΓ' hc => ?_
  obtain ⟨hstatus,hhash,hid⟩ := resetApiQuotes_same order
  refine disciplined_runOrder_bind ⟨by rwa [hstatus],fun h hh => hc h (hhash ▸ hh),hundo,
    .of_same (hΓ' ho) hid.symm hstatus.symm hhash.symm,order,hΓ' ho,hid.symm,?_⟩ fun _ => ?_
  · intro hapi
    simp [Order.resetApiQuotes,hapi]
  exact editPubkeysOrder_bind_disciplined fun o _ => disciplined_updateOrderEvent_bind trivial

theorem cancelOrderByTaker_disciplined {order : Order} {sender : Pubkey}
    (hreq : req.isGuardian = false) (hundo : req.undoesTakes = true) (ho : .order order ∈ Γ)
    (hs : order.status.isBeforePayment = true) :
    Disciplined req Γ (cancelOrderByTaker order sender) := by
  have hrest {Γ : Set Fact} (ho : .order order ∈ Γ) : Disciplined req Γ (do
      let remaining : List Bond ← query (.findActiveBondsForOrder order.id)
      if remaining.any fun b => b.pubkey != sender && b.role == .taker then pure ()
      else cancelOrderByTakerInner order) := by
    refine disciplined_query_bind trivial fun remaining _ => ?_
    split
    · trivial
    · exact cancelOrderByTakerInner_disciplined hreq hundo (.inl ho) hs
  refine disciplined_query_bind trivial fun bond _ => ?_
  cases bond with
  | none => exact hrest (.inl ho)
  | some bond =>
    exact (releaseBond_disciplined mem_bondsRead_some).ignore.seq fun _ => hrest (.inl ho)

theorem cancelOrderByMaker_disciplined {order : Order} (hreq : req.isGuardian = false)
    (ho : .order order ∈ Γ) (hs : order.status.isBeforePayment = true) :
    Disciplined req Γ (cancelOrderByMaker order) := by
  have hopen := isOpen_of_isBeforePayment hs
  have hknows : KnowsEscrow Γ order := ⟨order,ho,rfl,rfl,rfl,rfl⟩
  have hrest : Disciplined req Γ (do
      cancelEscrow order
      releaseTakerBondsForOrderOrWarn order.id
      resolveRangeMakerBondAtCloseOrWarn order) := by
    refine cancelEscrow_bind_disciplined (.of_beforePayment hreq ho hs) rfl fun Γ' _ _ => ?_
    exact releaseTakerBondsForOrderOrWarn_disciplined.seq fun _ =>
      resolveRangeMakerBondAtCloseOrWarn_disciplined
  refine disciplined_updateOrderEvent_attempt_bind ?_ fun e => hrest
  refine Follows.seq (disciplined_updateOrder ?_) fun _ => hrest
  exact ⟨rfl,hopen.1,nofun,nofun,nofun,.inl hknows,.inl rfl,by simp [hopen.2],nofun,
    by simp [hreq],nofun,.inl (.of_same ho rfl rfl rfl),.closes rfl,
    .of_same ho ⟨rfl,rfl,rfl,rfl⟩,nofun⟩

theorem cancelNotActiveOrder_disciplined {order : Order} {sender : Pubkey}
    (hreq : req.isGuardian = false) (hundo : req.undoesTakes = true) (ho : .order order ∈ Γ)
    (hs : order.status.isBeforePayment = true) :
    Disciplined req Γ (cancelNotActiveOrder order sender) := by
  refine disciplined_require_bind.mpr fun seller _ => disciplined_require_bind.mpr fun buyer _ => ?_
  refine disciplined_require_bind.mpr fun taker _ => ?_
  split
  · exact cancelOrderByMaker_disciplined hreq ho hs
  · split
    · exact cancelOrderByTaker_disciplined hreq hundo ho hs
    · trivial

theorem cancelCooperativeExecutionStep2_disciplined {read order : Order} {sender : Pubkey}
    (hreq : req.isGuardian = false) (ho : .order read ∈ Γ)
    (hsame : SameEscrow read order)
    (hoffer : SameOffer read order) (hs : read.status.isOpen = true)
    (hread : ConfirmsCancel req Γ read) (hconf : ConfirmsCancel req Γ order) :
    Disciplined req Γ (cancelCooperativeExecutionStep2 read order sender) := by
  refine disciplined_ensure_bind.mpr fun _ => ?_
  refine cancelEscrow_bind_disciplined ⟨ho,by simp [hreq],fun _ _ => hread⟩ hsame.hash
    fun Γ' hΓ' hc => ?_
  refine disciplined_bind_assoc (disciplined_runOrder_learn ?_ fun _ =>
    disciplined_updateOrderEvent_bind ?_)
  · exact ⟨hsame.id.symm,hs,nofun,nofun,nofun,.inl ⟨read,hΓ' ho,hsame⟩,.inl hsame.hash.symm,
      fun _ => .inr fun x hx => hc x (hsame.hash ▸ hx),fun _ => hconf.mono hΓ',by simp [hreq],nofun,
      .inl (.of_same (hΓ' ho) rfl rfl rfl),.closes rfl,.of_same (hΓ' ho) hoffer,nofun⟩
  · refine (closeDisputeAfterUserResolution_disciplined (.inr ⟨rfl,rfl⟩)).seq fun _ => ?_
    refine releaseTakerBondsForOrderOrWarn_disciplined.seq fun _ => ?_
    exact resolveRangeMakerBondAtCloseOrWarn_disciplined

theorem cancelActiveOrder_disciplined {order : Order} {sender : Pubkey} (ho : .order order ∈ Γ)
    (hs : order.status = .active ∨ order.status = .fiatSent ∨ order.status = .dispute)
    (hreq : req = .message (.cancel order.id sender)) :
    Disciplined req Γ (cancelActiveOrder order sender) := by
  have hopen : order.status.isOpen = true ∧ order.status ≠ .settledHoldInvoice ∧
      order.status ≠ .success ∧ order.status.isListed = false := by
    rcases hs with hs | hs | hs <;> simp [hs,Status.isOpen,Status.isListed]
  have htrading : order.status.isTrading = true := by
    rcases hs with hs | hs | hs <;> simp [hs,Status.isTrading]
  have hguard : req.isGuardian = false := by rw [hreq]; rfl
  refine disciplined_require_bind.mpr fun seller hseller => ?_
  refine disciplined_require_bind.mpr fun buyer hbuyer => ?_
  refine disciplined_ensure_bind.mpr fun hparty => ?_
  dsimp only
  split
  next initiator hinit =>
    refine disciplined_ensure_bind.mpr fun heq => ?_
    have hconf : ConfirmsCancel req Γ order := by
      refine ⟨order,sender,ho,htrading,hreq,rfl,rfl,rfl,?_⟩
      have hcounter := eq_of_beq heq
      split at hcounter
      next h => exact .inl ⟨h ▸ hbuyer,hinit.trans (hcounter ▸ hseller.symm)⟩
      next h =>
        have hsender : sender = seller := by simpa [Ne.symm h] using hparty
        exact .inr ⟨hsender ▸ hseller,hinit.trans (hcounter ▸ hbuyer.symm)⟩
    split <;> exact cancelCooperativeExecutionStep2_disciplined hguard ho
      ⟨rfl,rfl,rfl,rfl⟩ ⟨rfl,rfl,rfl,rfl⟩ hopen.1 hconf hconf
  · refine disciplined_updateOrder ?_
    split <;> exact ⟨rfl,hopen.1,hopen.2.1,hopen.2.2.1,
      fun h => (by cases h.symm.trans hopen.2.2.2),
      .inr ⟨order,sender,ho,htrading,hreq,rfl,rfl,rfl,rfl⟩,.inl rfl,fun h => .inl ⟨h,rfl⟩,
      fun h => (by cases (congrArg Status.isTrading h).symm.trans htrading),by simp [hguard],.inl,
      .inl (.of_same ho rfl rfl rfl),.proceeds (by rw [hreq]; rfl) rfl (.inl rfl),
      .of_same ho ⟨rfl,rfl,rfl,rfl⟩,.inl⟩

theorem cancelAction_disciplined {sender : Pubkey} :
    Disciplined (.message (.cancel id sender)) Γ (cancelAction id sender) := by
  refine disciplined_getOrder_bind fun order hid => ?_
  have ho : Fact.order order ∈ Γ ∪ {.order order} := .inr rfl
  have htaker {Γ : Set Fact} (ho : .order order ∈ Γ) (hs : order.status.isBeforePayment = true) :
      Disciplined (.message (.cancel id sender)) Γ (if order.creatorPubkey = sender then
          cancelPendingOrderFromMaker order sender
        else do
          let bonds : Except MostroError (List Bond) ←
            (query (.findActiveBondsForOrder order.id)).attempt
          if (bonds.toOption.getD []).any (fun b => b.pubkey == sender)
              || (order.buyerPubkey == some sender || order.sellerPubkey == some sender) then
            cancelOrderByTaker order sender
          else .fail (.cantDo .isNotYourOrder)) := by
    split
    · exact cancelPendingOrderFromMaker_disciplined
    · refine Follows.attempt_seq (disciplined_query trivial) fun bonds => ?_
      split
      · exact cancelOrderByTaker_disciplined rfl rfl ho hs
      · trivial
  split
  · trivial
  · trivial
  · trivial
  next hs => exact htaker ho (by simp [hs,Status.isBeforePayment])
  next hs => exact htaker ho (by simp [hs,Status.isBeforePayment])
  next hs => exact cancelNotActiveOrder_disciplined rfl rfl ho (by simp [hs,Status.isBeforePayment])
  next hs => exact cancelNotActiveOrder_disciplined rfl rfl ho (by simp [hs,Status.isBeforePayment])
  next hs => exact cancelActiveOrder_disciplined ho (.inl hs) (by rw [hid])
  next hs => exact cancelActiveOrder_disciplined ho (.inr (.inl hs)) (by rw [hid])
  next hs => exact cancelActiveOrder_disciplined ho (.inr (.inr hs)) (by rw [hid])
  · trivial

theorem findOrderByHash_bind_disciplined {f : Order → M β}
    (hf : ∀ o, o.hash = some hash → Disciplined req (Γ ∪ {.order o}) (f o)) :
    Disciplined req Γ ((findOrderByHash hash).bind f) := by
  refine disciplined_bind_assoc (disciplined_query_bind trivial fun found hfound => ?_)
  refine disciplined_require_bind.mpr fun o ho => (hf o (hfound o (by simp [ho]))).mono ?_
  simp [ho,Query.learn,ordersRead]

theorem holdInvoicePaid_disciplined (hpaid : .accepted hash ∈ Γ) :
    Disciplined (.escrowInvoice hash) Γ (holdInvoicePaid hash) := by
  refine findOrderByHash_bind_disciplined fun order hhash => ?_
  split
  next hpre =>
    have hs : order.status = .waitingPayment ∨ order.status = .waitingBuyerInvoice := by
      simpa using (Bool.and_eq_true_iff.mp hpre).1
    have hopen : order.status.isOpen = true ∧ order.status.isEscrowed = false := by
      rcases hs with hs | hs <;> simp [hs,Status.isOpen,Status.isEscrowed]
    have hheld : Disciplined (.escrowInvoice hash) (Γ ∪ {.order order})
        (timestamp.bind fun now =>
          (runOrder (.updateOrderInvoiceHeldAtTime order.id now)).bind fun _ => pure ()) :=
      disciplined_timestamp_bind fun _ => disciplined_runOrder_bind trivial fun _ => trivial
    have hheld0 : order.invoiceHeldAt = 0 := by
      simpa using (Bool.and_eq_true_iff.mp hpre).2
    have hadvance (o : Order) (status : Status) (hsame : SameEscrow order o)
        (hoffer : SameOffer order { o with status }) (hterms : o.terms = order.terms)
        (hne : status = .active ∨ status = .waitingBuyerInvoice)
        (hst : status = if order.buyerInvoice.isSome then .active else .waitingBuyerInvoice) :
        RowWrite (.escrowInvoice hash) (Γ ∪ {.order order}) order { o with status } := by
      refine ⟨hsame.id.symm,hopen.1,?_,?_,?_,.inl ⟨order,.inr rfl,hsame⟩,.inl hsame.hash.symm,
        by simp [hopen.2],?_,fun h => (by cases h),?_,.inl (.of_same (.inr rfl) rfl rfl rfl),
        .paid rfl (.inl hpaid) hhash hs hheld0 hterms hst,.of_same (.inr rfl) hoffer,?_⟩
      · rcases hne with h | h <;> simp [h]
      · rcases hne with h | h <;> simp [h]
      · rcases hne with h | h <;> simp [h,Status.isListed]
      · rcases hne with h | h <;> simp [h]
      · rcases hne with h | h <;> simp [h]
      · rcases hne with h | h <;> simp [h]
    refine disciplined_require_bind.mpr fun _ _ => disciplined_require_bind.mpr fun _ _ => ?_
    split
    next hinv =>
      refine disciplined_updateOrderEvent_attempt_bind ?_ fun e => hheld
      refine Follows.seq (Follows.ignore (disciplined_updateOrder ?_)) fun _ => hheld
      exact hadvance order .active ⟨rfl,rfl,rfl,rfl⟩ ⟨rfl,rfl,rfl,rfl⟩ rfl (.inl rfl)
        (by simp [hinv])
    next hinv =>
      refine disciplined_setTimestampNow_bind fun t => disciplined_check_bind ?_
      refine disciplined_updateOrderEvent_attempt_bind ?_ fun e => hheld
      refine Follows.seq (Follows.ignore (disciplined_updateOrder ?_)) fun _ => hheld
      exact hadvance _ .waitingBuyerInvoice ⟨rfl,rfl,rfl,rfl⟩ ⟨rfl,rfl,rfl,rfl⟩ rfl (.inr rfl)
        (by simp [hinv])
  · trivial

theorem holdInvoiceCanceled_disciplined (hreq : req.isGuardian = false) :
    Disciplined req Γ (holdInvoiceCanceled cfg hash) := by
  refine findOrderByHash_bind_disciplined fun order _ => disciplined_timestamp_bind fun now => ?_
  dsimp only
  split
  next h =>
    refine disciplined_updateOrderEvent_attempt_bind (disciplined_updateOrder ?_) fun e => trivial
    exact ⟨rfl,by simp [h.1,Status.isOpen],nofun,nofun,nofun,
      .inl ⟨order,.inr rfl,rfl,rfl,rfl,rfl⟩,.inl rfl,by simp [h.1,Status.isEscrowed],nofun,
      by simp [hreq],nofun,.inl (.of_same (.inr rfl) rfl rfl rfl),.closes rfl,
      .of_same (.inr rfl) ⟨rfl,rfl,rfl,rfl⟩,nofun⟩
  · trivial

theorem escrowInvoiceMessage_disciplined :
    Disciplined (.escrowInvoice hash) Γ (escrowInvoiceMessage cfg hash) := by
  refine disciplined_lnd_bind trivial fun state => ?_
  cases state with
  | accepted => exact holdInvoicePaid_disciplined (.inr rfl)
  | canceled => exact holdInvoiceCanceled_disciplined rfl
  | settled => trivial
  | opened => trivial

/-! ### Jobs -/

theorem resetForTimeout_same (o : Order) :
    SameEscrow o o.resetForTimeout ∧ o.resetForTimeout.status = o.status := by
  unfold Order.resetForTimeout
  split <;> exact ⟨⟨rfl,rfl,rfl,rfl⟩,rfl⟩

theorem republishOnTimeout_disciplined {order : Order} (hreq : req.isGuardian = false)
    (hjob : req.isTimeoutJob = true) (hread : KnowsRead Γ order)
    (hquote : KnowsQuote Γ order.id order.amount)
    (hs : order.status.isBeforePayment = true) (hc : KnowsCanceled Γ order) :
    Disciplined req Γ (republishOnTimeout order) := by
  have hopen := isOpen_of_isBeforePayment hs
  refine (disciplined_ask_attempt_bind _).mpr
    ⟨⟨hs,hc,by simp [Request.undoesTakes,hjob],hread,hquote⟩,fun reset _ => ?_⟩
  dsimp only
  refine editPubkeysOrder_bind_disciplined fun edited hid => disciplined_updateOrderEvent_bind ?_
  refine disciplined_updateOrder ?_
  generalize hΓ' : Γ ∪ (Op.order (.run (.updateOrderToInitialState order order.amount order.fee
    order.devFee))).learn reset ∪ {.order edited} = Γ'
  have hle : Γ ⊆ Γ' := by
    rw [← hΓ']
    exact fun _ h => .inl (.inl h)
  have hedited : .order edited ∈ Γ' := by
    rw [← hΓ']
    exact .inr rfl
  have hknows : KnowsEscrow Γ' { edited with status := .pending } :=
    ⟨edited,hedited,rfl,rfl,rfl,rfl⟩
  obtain ⟨x,hx,hxid,hxs⟩ := hread.mono hle
  have hbefore : x.status.isListed = true ∨ x.status.isBeforePayment = true :=
    hxs.elim (fun h => .inr (h.1 ▸ hs)) fun h => h
  cases reset with
  | ok n =>
    exact ⟨hid,rfl,nofun,nofun,fun _ => .inr nofun,.inl hknows,.inr nofun,nofun,nofun,
      by simp [hreq],fun _ => .inl rfl,.inl ⟨x,hx,hxid,.inr hbefore⟩,.lists hjob rfl rfl,
      .of_same hedited ⟨rfl,rfl,rfl,rfl⟩,nofun⟩
  | error e =>
    have hc := hc.mono hle
    have hunreset : .unreset edited.id ∈ Γ' := by
      rw [← hΓ',hid]
      exact .inl (.inr rfl)
    exact ⟨hid,hopen.1,nofun,nofun,fun _ => .inr hc,.inl hknows,.inr hc,by simp [hopen.2],nofun,
      by simp [hreq],fun _ => .inr ⟨hjob,hunreset⟩,.inl ⟨x,hx,hxid,.inr hbefore⟩,.lists hjob rfl hs,
      .of_same hedited ⟨rfl,rfl,rfl,rfl⟩,nofun⟩

theorem cancelOnTimeout_disciplined {order : Order} (hreq : req.isGuardian = false)
    (hread : KnowsRead Γ order) (hs : order.status.isBeforePayment = true)
    (hc : KnowsCanceled Γ order) : Disciplined req Γ (cancelOnTimeout order) := by
  have hopen := isOpen_of_isBeforePayment hs
  refine editPubkeysOrder_bind_disciplined fun edited hid => disciplined_updateOrderEvent_bind ?_
  refine Follows.seq (disciplined_updateOrder ?_) fun _ =>
    resolveRangeMakerBondAtCloseOrWarn_disciplined
  exact ⟨hid,hopen.1,nofun,nofun,nofun,.inl ⟨edited,.inr rfl,rfl,rfl,rfl,rfl⟩,
    .inr (hc.mono Set.subset_union_left),by simp [hopen.2],nofun,by simp [hreq],nofun,
    .inl (hread.mono Set.subset_union_left),.closes rfl,.of_same (.inr rfl) ⟨rfl,rfl,rfl,rfl⟩,
    nofun⟩

theorem cancelLateOrder_disciplined :
    Disciplined (.job .cancelOrders) Γ (cancelLateOrder cfg id) := by
  unfold cancelLateOrder reconfirmTimeoutEligibility
  refine disciplined_bind_assoc
    (disciplined_query_attempt_bind trivial (fun found _ => ?_) fun e => ?_)
  · refine disciplined_bind_assoc (disciplined_timestamp_bind fun now => ?_)
    cases found with
    | none => trivial
    | some order =>
      simp only [pure_eq,ret_bind,Except.toOption,Option.bind_some,Option.filter]
      split
      · trivial
      next o heq =>
        split at heq
        next hwait =>
          cases heq
          have hs := isBeforePayment_of_late (Bool.and_eq_true_iff.mp hwait).1
          obtain ⟨hsame,hstatus⟩ := resetForTimeout_same order
          refine cancelEscrow_bind_disciplined (.of_beforePayment rfl mem_ordersRead_some hs) rfl ?_
          intro Γ' hΓ' hc
          have hc' : KnowsCanceled Γ' order.resetForTimeout := fun h hh =>
            hc h (hsame.hash.trans hh)
          have hread : KnowsRead Γ' order.resetForTimeout :=
            .of_same (hΓ' mem_ordersRead_some) hsame.id hstatus.symm hsame.hash
          have hquote : KnowsQuote Γ' order.resetForTimeout.id order.resetForTimeout.amount := by
            refine ⟨order,hΓ' mem_ordersRead_some,hsame.id,fun hapi => ?_⟩
            simp [Order.resetForTimeout,hapi]
          refine Follows.seq (slashOrReleaseOnTimeout_disciplined fun _ => ⟨rfl,?_,hc'⟩) fun _ => ?_
          · exact ⟨order,hΓ' mem_ordersRead_some,hstatus.symm,hsame.hash⟩
          · split
            · exact republishOnTimeout_disciplined rfl rfl hread hquote (by rwa [hstatus]) hc'
            · exact cancelOnTimeout_disciplined rfl hread (by rwa [hstatus]) hc'
        · cases heq
  · exact disciplined_bind_assoc (disciplined_timestamp_bind fun now => trivial)

theorem jobCancelOrders_disciplined : Disciplined (.job .cancelOrders) Γ (jobCancelOrders cfg) := by
  refine disciplined_timestamp_bind fun now => disciplined_query_bind trivial fun late _ => ?_
  exact Follows.forEach fun order _ => cancelLateOrder_disciplined.ignore

theorem escrowDue_disciplined {now : Int} {chainHeight : Option Int} {order : Order} :
    Disciplined req Γ (escrowDue cfg now chainHeight order hash) := by
  unfold escrowDue
  dsimp only
  split
  · trivial
  · refine Follows.attempt_seq (disciplined_ask.mpr trivial) fun expiry => ?_
    split <;> trivial

theorem cancelAtDeadline_disciplined {order : Order} {gone : Bool} (hreq : req.isCancel = false)
    (ho : .order order ∈ Γ) (hh : order.hash = some hash) (hs : order.status = .active) :
    Disciplined req Γ (cancelAtDeadline order hash gone) := by
  have hrest : Disciplined req Γ (do
      let updated ← updateOrderEvent .canceled order
      updateOrder order updated
      resolveRangeMakerBondAtCloseOrWarn order) := by
    refine disciplined_updateOrderEvent_bind (Follows.seq (disciplined_updateOrder ?_) fun _ =>
      resolveRangeMakerBondAtCloseOrWarn_disciplined)
    exact ⟨rfl,by simp [hs,Status.isOpen],nofun,nofun,nofun,
      .inl ⟨order,ho,rfl,rfl,rfl,rfl⟩,.inl rfl,
      by simp [hs,Status.isEscrowed],nofun,fun _ => .inr ⟨ho,hs⟩,nofun,
      .inl (.of_same ho rfl rfl rfl),.closes rfl,.of_same ho ⟨rfl,rfl,rfl,rfl⟩,nofun⟩
  refine (disciplined_cancelHoldInvoice
    (.of_order ⟨ho,fun _ => hs,by simp [hreq]⟩ hh)).attempt_seq fun r => ?_
  split
  · exact hrest
  · exact disciplined_ensure.seq fun _ => hrest

theorem openDeadlineDispute_bind_disciplined {order : Order} {f : Unit → M β}
    (hf : ∀ Γ' d, Γ ⊆ Γ' → .dispute d ∈ Γ' → d.orderId = order.id → Disciplined req Γ' (f ())) :
    Disciplined req Γ ((openDeadlineDispute order).bind f) := by
  have hnew : Disciplined req Γ ((do
      let now ← timestamp
      let _ ← ask (.dispute (.create
        { id := 0, orderId := order.id, status := .initiated, createdAt := now }))
      pure ()).bind f) := by
    refine disciplined_bind_assoc (disciplined_timestamp_bind fun now => disciplined_bind_assoc ?_)
    refine (disciplined_ask_bind (.dispute (.create _))).mpr ⟨rfl,fun n _ => ?_⟩
    exact hf _ _ Set.subset_union_left (.inr rfl) rfl
  unfold openDeadlineDispute
  refine disciplined_bind_assoc (disciplined_query_attempt_bind trivial (fun found hfound => ?_)
    fun e => hnew)
  cases found with
  | none => exact hnew.mono Set.subset_union_left
  | some d =>
    have hid : d.orderId = order.id := hfound d (by simp)
    have hrest : Disciplined req (Γ ∪ (Query.findDisputeByOrderId order.id).learn (some d))
      (f ()) :=
      hf _ d Set.subset_union_left (.inr ⟨d,by simp,rfl⟩) hid
    dsimp only
    split
    · exact hrest
    · refine disciplined_bind_assoc ((disciplined_ask_bind (.dispute (.update _))).mpr
        ⟨⟨⟨d,.inr ⟨d,by simp,rfl⟩,rfl,rfl⟩,.inl ?_⟩,fun n _ => hrest.mono Set.subset_union_left⟩)
      rfl

theorem disputeAtDeadline_disciplined {order : Order} (hext : ext.Documented)
    (hreq : req.isTimeoutJob = false) (ho : .order order ∈ Γ) (hs : order.status = .fiatSent) :
    Disciplined req Γ (disputeAtDeadline ext order) := by
  refine openDeadlineDispute_bind_disciplined fun Γ' d hΓ' hknown hd => ?_
  have ho := hΓ' ho
  have hdid := hd
  refine disciplined_require_bind.mpr fun disputed hd => disciplined_updateOrder ?_
  have hdisp : SameEscrow order disputed ∧ disputed.status = .dispute ∧
      disputed.terms = order.terms ∧ SameOffer order disputed := by
    split at hd
    · cases hd
      exact ⟨⟨rfl,rfl,rfl,rfl⟩,rfl,rfl,rfl,rfl,rfl,rfl⟩
    · rw [hext.setupDispute _ _ _ hd]
      exact ⟨⟨rfl,rfl,rfl,rfl⟩,rfl,rfl,rfl,rfl,rfl,rfl⟩
  refine ⟨hdisp.1.id.symm,by simp [hs,Status.isOpen],?_,?_,?_,.inl ⟨order,ho,hdisp.1⟩,
    .inl hdisp.1.hash.symm,fun _ => .inl ⟨?_,hdisp.1.hash.symm⟩,?_,fun _ => .inl hdisp.2.1,?_,
    .inl (.of_same ho rfl rfl rfl),.proceeds hreq hdisp.2.2.1 (.inr (.inr ⟨.inr hs,hdisp.2.1⟩)),
    .of_same ho hdisp.2.2.2,fun _ => .inr (.inr ⟨d,hknown,hdid.trans hdisp.1.id⟩)⟩
  · simp [hdisp.2.1]
  · simp [hdisp.2.1]
  · simp [hdisp.2.1,Status.isListed]
  · simp [hdisp.2.1,Status.isEscrowed]
  · simp [hdisp.2.1]
  · simp [hdisp.2.1]

theorem enforceEscrowDeadlinePass_disciplined (hext : ext.Documented)
    (hreq : req.isCancel = false) (hjob : req.isTimeoutJob = false) :
    Disciplined req Γ (enforceEscrowDeadlinePass cfg ext) := by
  refine disciplined_timestamp_bind fun now => disciplined_query_bind trivial fun due _ => ?_
  refine Follows.attempt_seq (disciplined_ask.mpr trivial) fun chainHeight => ?_
  refine Follows.forEach fun order hmem => Follows.ignore ?_
  have ho : Fact.order order ∈ Γ ∪ ordersRead due := mem_ordersRead hmem
  unfold enforceDeadline
  split
  · trivial
  next hash hh =>
    refine escrowDue_disciplined.seq fun due => ?_
    split
    · trivial
    · split
      next hs => exact cancelAtDeadline_disciplined hreq ho hh hs
      next hs => exact disputeAtDeadline_disciplined hext hjob ho hs
      · trivial

theorem jobExpirePendingOlderOrders_disciplined (hreq : req.isGuardian = false) :
    Disciplined req Γ (jobExpirePendingOlderOrders cfg) := by
  refine disciplined_timestamp_bind fun now => disciplined_query_bind trivial fun older holder => ?_
  refine Follows.forEach fun order hmem => Follows.ignore ?_
  have hopen := expirable_isOpen (holder order hmem)
  have hneed : (OrderUpdate.update order { order with status := .expired }).need req
      (Γ ∪ ordersRead older) :=
    ⟨rfl,hopen.1,nofun,nofun,nofun,.inl ⟨order,mem_ordersRead hmem,rfl,rfl,rfl,rfl⟩,.inl rfl,
      by simp [hopen.2],nofun,by simp [hreq],nofun,
      .inl (.of_same (mem_ordersRead hmem) rfl rfl rfl),
      .closes rfl,.of_same (mem_ordersRead hmem) ⟨rfl,rfl,rfl,rfl⟩,nofun⟩
  unfold expireOrder
  split
  · refine (disciplined_updateOrder hneed).seq fun _ => ?_
    exact Follows.when fun _ => releaseBondsForOrderOrWarn_disciplined
  · refine disciplined_updateOrderEvent_bind ((disciplined_updateOrder hneed).seq fun _ => ?_)
    exact Follows.when fun _ => releaseTakerBondsForOrderOrWarn_disciplined.seq fun _ =>
      resolveRangeMakerBondAtCloseOrWarn_disciplined

theorem adminMessage_disciplined (hext : ext.Documented) (m : AdminMessage)
    (hreq : req.isGuardian = false) (hcan : req.isCancel = false)
    (hcancels : ∀ id resolution, m = .cancel id resolution → req.adminCanceledOrder = some id)
    (hsettle : ∀ id resolution, m = .settle id resolution →
      req.settles id ∧ req.paysBuyer = true) : Disciplined req Γ (m.code cfg ext) := by
  cases m with
  | settle order resolution =>
    obtain ⟨hset,hpays⟩ := hsettle order resolution rfl
    exact adminSettleAction_disciplined hext hset hpays
  | cancel order resolution =>
    exact adminCancelAction_disciplined hreq hcan (hcancels order resolution rfl)
  | takeDispute id solver => exact adminTakeDisputeAction_disciplined

theorem message_disciplined (hext : ext.Documented) (m : Message) :
    Disciplined (.message m) ∅ (m.code cfg ext) := by
  cases m with
  | newOrder new initiator identity trade tradeIndex => exact publishOrder_disciplined ⟨rfl,rfl⟩ rfl
  | takeSell m => exact takeSellAction_disciplined rfl
  | takeBuy m => exact takeBuyAction_disciplined rfl
  | addInvoice order sender request => exact addInvoiceAction_disciplined
  | addBondInvoice order sender request => exact addBondInvoiceAction_disciplined
  | addCashuEscrow order sender proof => exact addCashuEscrowAction_disciplined ⟨rfl,rfl⟩ rfl
  | fiatSent order sender nextTrade => exact fiatSentAction_disciplined ⟨rfl,rfl⟩
  | release order sender nextTrade => exact releaseAction_disciplined hext
  | cancel order sender => exact cancelAction_disciplined
  | dispute order sender => exact disputeAction_disciplined hext ⟨rfl,rfl⟩ rfl
  | tradePubkey order sender identity => exact tradePubkeyAction_disciplined rfl
  | admin m =>
    refine adminMessage_disciplined hext m rfl rfl ?_ fun id resolution hm => ?_
    · rintro id resolution rfl
      rfl
    · subst hm
      exact ⟨rfl,rfl⟩

theorem job_disciplined (hext : ext.Documented) (j : Job) :
    Disciplined (.job j) ∅ (j.code cfg ext) := by
  cases j with
  | cancelOrders => exact jobCancelOrders_disciplined
  | enforceEscrowDeadline => exact enforceEscrowDeadlinePass_disciplined hext rfl rfl
  | expirePendingOlderOrders => exact jobExpirePendingOlderOrders_disciplined rfl
  | retryFailedPayments => exact jobRetryFailedPayments_disciplined hext rfl
  | reconcileInflightPayouts => exact jobReconcileInflightPayouts_disciplined hext rfl
  | processBondPayouts => exact runBondPayoutCycle_disciplined rfl
  | reconcileStrandedMakerBonds => exact reconcileStrandedRangeMakerBonds_disciplined

theorem request_disciplined (hext : ext.Documented) (req : Request) :
    Disciplined req ∅ (req.code cfg ext) := by
  cases req with
  | message m => exact message_disciplined hext m
  | rpc m =>
    refine adminMessage_disciplined hext m rfl rfl ?_ fun id resolution hm => ?_
    · rintro id resolution rfl
      rfl
    · subst hm
      exact ⟨rfl,rfl⟩
  | bondInvoice hash => exact bondInvoiceMessage_disciplined rfl
  | escrowInvoice hash => exact escrowInvoiceMessage_disciplined
  | dispatch beats d => exact dispatchPayout_disciplined hext rfl
  | job j => exact job_disciplined hext j

end

end Mostro
