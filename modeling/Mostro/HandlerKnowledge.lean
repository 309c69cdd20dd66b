import Mostro.Daemon
import Mostro.LocalKnowledge

set_option autoImplicit false

/-!
What a handler knows.  A handler works on copies of rows it read earlier, on hold invoices it
created, and on the node's answers to its cancels and settles; the discipline below says what each
statement and each call may rest on.
-/

namespace Mostro

open Interleaving

variable {o x : Order}

/-- Which of the node's replies the daemon's text matching may take for "already done". -/
structure LndTexts.Documented (t : LndTexts) : Prop where
  cancelTransport : classifyCancelError t.transport = .transient
  cancelSettled : classifyCancelError t.cancelSettled = .transient
  settleTransport : isAlreadySettledError t.transport = false
  settleOpen : isAlreadySettledError t.settleOpen = false
  settleCanceled : isAlreadySettledError t.settleCanceled = false
  settleUnknown : isAlreadySettledError t.settleUnknown = false

/-- What the model relies on in code outside the repository: the node's replies, and the two
order helpers of `mostro-core`. -/
structure Externals.Documented (ext : Externals) : Prop where
  texts : ext.texts.Documented
  setupDispute : ∀ o isBuyer o', ext.setupDispute o isBuyer = some o' →
    o' = { o with
      status := .dispute, buyerDispute := o'.buyerDispute, sellerDispute := o'.sellerDispute }
  countFailedPayment : ∀ o attempts, (ext.countFailedPayment o attempts).failedPayment = true

/-- What a handler may know: a row as it was when it was read or inserted, the parent of a bond it
knew already, a hold invoice it created and its amount, a hold invoice that the node has reported as
accepted or whose cancel or settle it has confirmed, one that the handler itself settled, an order
whose trade the handler itself settled or closed, one that it failed to reset, one whose payout is
claimed, and one that it gave the amounts of a locked take. -/
inductive Fact where
  | order (o : Order)
  | bond (b : Bond)
  | parent (b : Bond)
  | created (memo : HoldMemo) (hash : Hash)
  | priced (hash : Hash) (amount : Int)
  | accepted (hash : Hash)
  | canceled (hash : Hash)
  | settled (hash : Hash)
  | captured (hash : Hash)
  | dispute (d : Dispute)
  | resolved (id : Uuid)
  | unreset (id : Uuid)
  | claimed (id : Uuid)
  | promoted (id : Uuid)

def ordersRead (os : List Order) : Set Fact := {f | ∃ o ∈ os, f = .order o}

def bondsRead (bs : List Bond) : Set Fact := {f | ∃ b ∈ bs, f = .bond b}

def disputesRead (ds : List Dispute) : Set Fact := {f | ∃ d ∈ ds, f = .dispute d}

def Query.learn : (q : Query) → q.Out → Set Fact
  | .orderById _, o => ordersRead (Option.toList o)
  | .findOrderByHash _, o => ordersRead (Option.toList o)
  | .findOrderByDate _, os => ordersRead os
  | .findOrderBySeconds _, os => ordersRead os
  | .findEscrowDeadlineOrders _, os => ordersRead os
  | .findFailedPayment, os => ordersRead os
  | .findHeldInvoices, os => ordersRead os
  | .findInflightPayouts _, ps => {f | ∃ p ∈ ps, f = .claimed p.1}
  | .findBondById _, some b => {.parent b}
  | .findBondByHash _, b => bondsRead (Option.toList b)
  | .findBondByOrderAndRole _ _, b => bondsRead (Option.toList b)
  | .findActiveBondByTaker _ _, b => bondsRead (Option.toList b)
  | .findSliceSlashChild _ _, b => bondsRead (Option.toList b)
  | .findBondsByState _, bs => bondsRead bs
  | .findActiveBondsForOrder _, bs => bondsRead bs
  | .findChildSlashesForParent _, bs => bondsRead bs
  | .findRecoverableBonds _, bs => bondsRead bs
  | .findLockedMakerParentBonds, bs => bondsRead bs
  | .findDisputeByOrderId _, d => disputesRead (Option.toList d)
  | .disputeById _, d => disputesRead (Option.toList d)
  | _, _ => ∅

def everyOrder (P : Order → Prop) (os : List Order) : Prop := ∀ o ∈ os, P o

def everyBond (P : Bond → Prop) (bs : List Bond) : Prop := ∀ b ∈ bs, P b

/-- What the `WHERE` clause of a query says about its answer. -/
def Query.answers : (q : Query) → q.Out → Prop
  | .orderById id, o => everyOrder (·.id = id) (Option.toList o)
  | .findOrderByHash hash, o => everyOrder (·.hash = some hash) (Option.toList o)
  | .findOrderByDate _, os => everyOrder (fun o =>
      [Status.pending,.waitingTakerBond,.waitingMakerBond].contains o.status = true) os
  | .findFailedPayment, os => everyOrder (fun o =>
      o.status = .settledHoldInvoice ∧ o.failedPayment = true) os
  | .findBondById id, b => everyBond (·.id = id) (Option.toList b)
  | .findBondByHash hash, b => everyBond (·.hash = some hash) (Option.toList b)
  | .findActiveBondsForOrder order, bs =>
      everyBond (fun b => b.orderId = order ∧ b.state.isActive = true) bs
  | .findDisputeByOrderId order, d => ∀ x ∈ Option.toList d, x.orderId = order
  | _, _ => True

def cancelConfirmed : Except MostroError Unit → Prop
  | .ok _ => True
  | .error e => e.cancelOutcome = .alreadyDone

def settleConfirmed : Except MostroError Unit → Prop
  | .ok _ => True
  | .error e => e.alreadySettled = true

def LndCall.learn : (c : LndCall) → Except MostroError c.Out → Set Fact
  | .createHoldInvoice memo amount, .ok hash => {.created memo hash, .priced hash amount}
  | .cancelHoldInvoice hash, r => {f | f = .canceled hash ∧ cancelConfirmed r}
  | .settleHoldInvoice hash, r =>
      {f | f = .settled hash ∧ settleConfirmed r} ∪ {f | f = .captured hash ∧ r = .ok ()}
  | .invoiceUpdate hash, .ok HoldState.accepted => {.accepted hash}
  | .invoiceUpdate hash, .ok HoldState.canceled => {.canceled hash}
  | _, _ => ∅

def Status.isClosed : Status → Bool
  | .canceled | .canceledByAdmin | .cooperativelyCanceled | .expired => true
  | _ => false

def OrderUpdate.learn : OrderUpdate → Nat → Set Fact
  | .update _ row, _ => {f | f = .resolved row.id ∧ row.status.isClosed = true}
  | .settleFromRelease id, n => {f | f = .resolved id ∧ n ≠ 0}
  | .settleFromAdmin id, n => {f | f = .resolved id ∧ n ≠ 0}
  | .touchOrderPayoutClaim id _ _ _, n => {f | f = .claimed id ∧ n ≠ 0}
  | .casPromoteTakerContext o, n => {f | f = .promoted o.id ∧ n ≠ 0}
  | _, _ => ∅

def Op.learn : (op : Op) → op.Res → Set Fact
  | .query q, .ok v => q.learn v
  | .order (.create o), .ok id => {.order { o with id }}
  | .order (.run u), .ok n => u.learn n
  | .order (.run (.updateOrderToInitialState read _ _ _)), .error _ => {.unreset read.id}
  | .bond (.create b), .ok id => {.bond { b with id }}
  | .lnd c, r => c.learn r
  | .dispute (.create d), .ok id => {.dispute { d with id }}
  | _, _ => ∅

def Op.answers : (op : Op) → op.Res → Prop
  | .query q, .ok v => q.answers v
  | _, _ => True

def Status.isOpen : Status → Bool
  | .pending | .waitingTakerBond | .waitingMakerBond | .waitingPayment | .waitingBuyerInvoice
  | .active | .fiatSent | .dispute => true
  | _ => false

def Status.isEscrowed : Status → Bool
  | .fiatSent | .dispute | .settledHoldInvoice | .success => true
  | _ => false

def Status.isBeforePayment : Status → Bool
  | .pending | .waitingTakerBond | .waitingPayment | .waitingBuyerInvoice => true
  | _ => false

def SameEscrow (x o : Order) : Prop :=
  x.id = o.id ∧ x.hash = o.hash ∧ x.preimage = o.preimage ∧
    x.cancelInitiatorPubkey = o.cancelInitiatorPubkey

theorem SameEscrow.id (h : SameEscrow x o) : x.id = o.id := h.1

theorem SameEscrow.hash (h : SameEscrow x o) : x.hash = o.hash := h.2.1

def KnowsEscrow (Γ : Set Fact) (o : Order) : Prop := ∃ x, .order x ∈ Γ ∧ SameEscrow x o

def Status.isTrading : Status → Bool
  | .active | .fiatSent | .dispute => true
  | _ => false

def ConfirmsCancel (req : Request) (Γ : Set Fact) (o : Order) : Prop :=
  ∃ x k, .order x ∈ Γ ∧ x.status.isTrading = true ∧ req = .message (.cancel o.id k) ∧
    x.id = o.id ∧ x.buyerPubkey = o.buyerPubkey ∧ x.sellerPubkey = o.sellerPubkey ∧
    (x.buyerPubkey = some k ∧ x.cancelInitiatorPubkey = x.sellerPubkey ∨
      x.sellerPubkey = some k ∧ x.cancelInitiatorPubkey = x.buyerPubkey)

def Request.isGuardian : Request → Bool
  | .job .enforceEscrowDeadline => true
  | _ => false

def Request.asksEscrow : Request → Bool
  | .message (.takeSell _) | .message (.takeBuy _) | .message (.addInvoice _ _ _)
  | .bondInvoice _ => true
  | _ => false

def Request.isCancel : Request → Bool
  | .message (.cancel _ _) => true
  | _ => false

def Request.isTimeoutJob : Request → Bool
  | .job .cancelOrders => true
  | _ => false

def Request.undoesTakes (req : Request) : Bool := req.isCancel || req.isTimeoutJob

def CancelsEscrow (req : Request) (Γ : Set Fact) (o : Order) : Prop :=
  .order o ∈ Γ ∧ (req.isGuardian = true → o.status = .active) ∧
    (req.isCancel = true → o.status.isTrading = true → ConfirmsCancel req Γ o)

def KnowsHold (req : Request) (Γ : Set Fact) (h : Hash) : Prop :=
  (req.asksEscrow = true ∧ ∃ memo, .created memo h ∈ Γ) ∨
    (∃ o, CancelsEscrow req Γ o ∧ o.hash = some h) ∨ ∃ b, .bond b ∈ Γ ∧ b.hash = some h

/-- The requests that may settle the escrow of an order. -/
def Request.settles (id : Uuid) : Request → Prop
  | .message (.release order _ _) => order = id
  | .message (.admin (.settle order _)) | .rpc (.settle order _) => order = id
  | _ => False

def Request.paysBuyer : Request → Bool
  | .message (.release _ _ _) | .message (.admin (.settle _ _)) | .rpc (.settle _ _)
  | .dispatch _ _ | .job .retryFailedPayments | .job .reconcileInflightPayouts => true
  | _ => false

def Request.paysBonds : Request → Bool
  | .job .processBondPayouts => true
  | _ => false

theorem Request.eq_of_paysBonds {req : Request} (h : req.paysBonds = true) :
    req = .job .processBondPayouts := by
  unfold Request.paysBonds at h
  split at h
  · rfl
  · cases h

def Settleable (Γ : Set Fact) (o : Order) (preimage : Hash) : Prop :=
  .order o ∈ Γ ∧ o.preimage = some preimage ∧ (o.status = .fiatSent ∨ o.status = .dispute)

def KnowsCanceled (Γ : Set Fact) (o : Order) : Prop := ∀ h, o.hash = some h → .canceled h ∈ Γ

def AsksCancel (req : Request) (Γ : Set Fact) (o : Order) : Prop :=
  ∃ x k, .order x ∈ Γ ∧ x.status.isTrading = true ∧ req = .message (.cancel o.id k) ∧
    SameEscrow { x with cancelInitiatorPubkey := some k } o

def Status.isListed : Status → Bool
  | .pending | .waitingTakerBond | .waitingMakerBond => true
  | _ => false

def KnowsListed (Γ : Set Fact) (o : Order) : Prop :=
  ∃ x, .order x ∈ Γ ∧ x.status.isListed = true ∧ x.id = o.id ∧ x.hash = o.hash

structure EscrowTerms where
  hash : Option Hash
  preimage : Option Hash
  buyerInvoice : Option PaymentRequest
  amount : Int
  fee : Int
  invoiceHeldAt : Int
  deriving DecidableEq

def Order.terms (o : Order) : EscrowTerms where
  hash := o.hash
  preimage := o.preimage
  buyerInvoice := o.buyerInvoice
  amount := o.amount
  fee := o.fee
  invoiceHeldAt := o.invoiceHeldAt

def Status.Proceeds (st st' : Status) : Prop :=
  st' = st ∨ (st = .active ∧ st' = .fiatSent) ∨
    ((st = .active ∨ st = .fiatSent) ∧ st' = .dispute)

/-- What a whole-row write makes of the row its handler had read: it closes the order, the timeout
job lists it again, the trade proceeds, the buyer adds the last missing invoice, or the seller's
payment arrives. -/
inductive RowEdit (req : Request) (Γ : Set Fact) (read : Order) : Order → Prop
  | closes {row : Order} (hrow : row.status.isClosed = true) : RowEdit req Γ read row
  | lists {row : Order} (hreq : req.isTimeoutJob = true) (hrow : row.status = .pending)
      (hread : read.status.isBeforePayment = true) : RowEdit req Γ read row
  | proceeds {row : Order} (hreq : req.isTimeoutJob = false) (hterms : row.terms = read.terms)
      (hrow : read.status.Proceeds row.status) : RowEdit req Γ read row
  | invoice {sender : Pubkey} {request : Option PaymentRequest}
      (hreq : req = .message (.addInvoice read.id sender request))
      (hread : read.status = .waitingBuyerInvoice) (hpreimage : read.preimage.isSome = true)
      (hsender : read.buyerPubkey = some sender) :
      RowEdit req Γ read { read with buyerInvoice := request, status := .active }
  | paid {row : Order} {h : Hash} (hreq : req = .escrowInvoice h) (hpaid : .accepted h ∈ Γ)
      (hhash : read.hash = some h)
      (hread : read.status = .waitingPayment ∨ read.status = .waitingBuyerInvoice)
      (hheld : read.invoiceHeldAt = 0) (hterms : row.terms = read.terms)
      (hrow : row.status = if read.buyerInvoice.isSome then .active else .waitingBuyerInvoice) :
      RowEdit req Γ read row

def Request.locksCashu : Request → Bool
  | .message (.addCashuEscrow _ _ _) => true
  | _ => false

def KnowsRead (Γ : Set Fact) (o : Order) : Prop :=
  ∃ x, .order x ∈ Γ ∧ x.id = o.id ∧ (x.status = o.status ∧ x.hash = o.hash ∨
    x.status.isListed = true ∨ x.status.isBeforePayment = true)

theorem KnowsRead.of_same {Γ : Set Fact} (hx : .order x ∈ Γ) (hid : x.id = o.id)
    (hs : x.status = o.status) (hh : x.hash = o.hash) : KnowsRead Γ o :=
  ⟨x,hx,hid,.inl ⟨hs,hh⟩⟩

theorem KnowsListed.read {Γ : Set Fact} {o' : Order} (h : KnowsListed Γ o) (hid : o.id = o'.id) :
    KnowsRead Γ o' := by
  obtain ⟨x,hx,hl,hx',_⟩ := h
  exact ⟨x,hx,hx'.trans hid,.inr (.inl hl)⟩

structure OfferTerms where
  kind : Kind
  minAmount : Option Int
  maxAmount : Option Int
  priceFromApi : Bool
  rangeParentId : Option Uuid
  deriving DecidableEq

def Order.offer (o : Order) : OfferTerms where
  kind := o.kind
  minAmount := o.minAmount
  maxAmount := o.maxAmount
  priceFromApi := o.priceFromApi
  rangeParentId := o.rangeParentId

def SameOffer (x o : Order) : Prop :=
  x.id = o.id ∧ x.offer = o.offer ∧ x.failedPayment = o.failedPayment ∧
    makerSlicePubkey x = makerSlicePubkey o

def KnowsOffer (req : Request) (Γ : Set Fact) (o : Order) : Prop :=
  ∃ x, .order x ∈ Γ ∧ x.id = o.id ∧ x.offer = o.offer ∧ x.failedPayment = o.failedPayment ∧
    (makerSlicePubkey x = makerSlicePubkey o ∨ ∃ sender identity,
      req = .message (.tradePubkey o.id sender identity) ∧ makerSlicePubkey o = some sender)

theorem KnowsOffer.of_same {req : Request} {Γ : Set Fact} (hx : .order x ∈ Γ) (h : SameOffer x o) :
    KnowsOffer req Γ o :=
  ⟨x,hx,h.1,h.2.1,h.2.2.1,.inl h.2.2.2⟩

/-- The order that a dispute message opens a dispute on. -/
def Request.disputedOrder : Request → Option Uuid
  | .message (.dispute id _) => some id
  | _ => none

def Request.adminCanceledOrder : Request → Option Uuid
  | .message (.admin (.cancel id _)) | .rpc (.cancel id _) => some id
  | _ => none

def Dispute.isLive (d : Dispute) : Bool :=
  d.status == .initiated || (d.status == .inProgress && d.solverPubkey.isSome)

def Status.isCommitted : Status → Bool
  | .waitingPayment | .waitingBuyerInvoice | .active | .fiatSent | .dispute | .settledHoldInvoice
  | .success => true
  | _ => false

def Order.offers (o : Order) (fiat : Int) : Bool :=
  match o.minAmount, o.maxAmount with
  | some low, some high => decide (low ≤ fiat) && decide (fiat ≤ high)
  | _, _ => fiat == o.fiatAmount

def KnowsBondedSlice (Γ : Set Fact) (o : Order) : Prop :=
  ∃ x b b₀, .order x ∈ Γ ∧ x.id = o.id ∧ x.offer = o.offer ∧ .bond b ∈ Γ ∧ b.orderId = o.id ∧
    o.fiatAmount = b.takerFiatAmount.getD x.fiatAmount ∧
    .bond b₀ ∈ Γ ∧ b₀.role = .taker ∧ b.hash = b₀.hash ∧ b.hash.isSome = true

def KnowsSlice (Γ : Set Fact) (o : Order) : Prop :=
  (∃ x, .order x ∈ Γ ∧ x.id = o.id ∧ x.offer = o.offer ∧ x.offers o.fiatAmount = true) ∨
    (∃ x, .order x ∈ Γ ∧ x.status.isCommitted = true ∧ x.id = o.id ∧ x.offer = o.offer ∧
      x.fiatAmount = o.fiatAmount) ∨ KnowsBondedSlice Γ o

structure RowWrite (req : Request) (Γ : Set Fact) (read row : Order) : Prop where
  id : row.id = read.id
  opened : read.status.isOpen = true
  notSettled : row.status ≠ .settledHoldInvoice
  notSuccess : row.status ≠ .success
  listed : row.status.isListed = true → KnowsListed Γ read ∨ KnowsCanceled Γ read
  copy : KnowsEscrow Γ row ∨ AsksCancel req Γ row
  hash : row.hash = read.hash ∨ KnowsCanceled Γ read
  escrowed : read.status.isEscrowed = true →
    (row.status.isEscrowed = true ∧ row.hash = read.hash) ∨ KnowsCanceled Γ read
  cooperative : row.status = .cooperativelyCanceled → ConfirmsCancel req Γ row
  guardian : req.isGuardian = true →
    row.status = .dispute ∨ .order read ∈ Γ ∧ read.status = .active
  pending : row.status = .pending → read.status = .pending ∨
    req.isTimeoutJob = true ∧ .unreset row.id ∈ Γ
  known : KnowsRead Γ read ∨ req.locksCashu = true
  edit : RowEdit req Γ read row
  offer : KnowsOffer req Γ row
  disputes : row.status = .dispute → read.status = .dispute ∨
    req.disputedOrder = some row.id ∨ ∃ d, .dispute d ∈ Γ ∧ d.orderId = row.id

def KnowsTerms (Γ : Set Fact) (o : Order) : Prop :=
  (o.status = .waitingPayment → ∃ h, o.hash = some h ∧ .priced h (o.amount + o.fee) ∈ Γ) ∧
    (o.status = .waitingBuyerInvoice → KnowsListed Γ o)

def KnowsOwed (Γ : Set Fact) (o : Order) : Prop :=
  ∃ x, .order x ∈ Γ ∧ x.id = o.id ∧ x.terms = o.terms ∧
    (x.status = .settledHoldInvoice ∨ ∃ p, Settleable Γ x p ∧ .settled p ∈ Γ)

def KnowsQuote (Γ : Set Fact) (id : Uuid) (amount : Int) : Prop :=
  ∃ x, .order x ∈ Γ ∧ x.id = id ∧ (x.priceFromApi = true → amount = 0)

def KnowsDue (req : Request) (Γ : Set Fact) (id : Uuid) : Prop :=
  req.settles id ∧ .resolved id ∈ Γ ∨ ∃ x, .order x ∈ Γ ∧ x.id = id ∧
    x.status = .settledHoldInvoice ∧ x.failedPayment = true

def OrderUpdate.need (req : Request) (Γ : Set Fact) : OrderUpdate → Prop
  | .update read row => RowWrite req Γ read row
  | .updateOrderToInitialState read amount _ _ =>
      read.status.isBeforePayment = true ∧ KnowsCanceled Γ read ∧ req.undoesTakes = true ∧
        KnowsRead Γ read ∧ KnowsQuote Γ read.id amount
  | .casPretradeOrderStatus id new =>
      new = .canceled ∨ new = .waitingBuyerInvoice ∧ .promoted id ∈ Γ
  | .casPromoteTakerContext o => KnowsBondedSlice Γ o
  | .casCompletePretradeTake o _ =>
      (o.status = .waitingPayment ∨ o.status = .waitingBuyerInvoice) ∧
      (KnowsEscrow Γ o ∨
        ∃ h, .created (.escrow o.id) h ∈ Γ ∧ o.hash = some h ∧ o.preimage = some h) ∧
      KnowsTerms Γ o ∧ KnowsSlice Γ o
  | .updateOrderCashuEscrow _ _ _ _ expected new =>
      expected = .waitingPayment ∧ new = .active ∧ req.locksCashu = true
  | .claimOrderStatus _ expected new => expected = .pending ∧ new = .waitingPayment
  | .settleFromRelease id | .settleFromAdmin id =>
      req.settles id ∧ ∃ o p, Settleable Γ o p ∧ o.id = id ∧ .settled p ∈ Γ ∧ .captured p ∈ Γ
  | .checkFailureRetries read failedPayment _ => failedPayment = true ∧ req.paysBuyer = true ∧
      (KnowsDue req Γ read.id ∨ .claimed read.id ∈ Γ)
  | .claimOrderPayout id _ _ => req.paysBuyer = true ∧ KnowsDue req Γ id
  | .paymentSuccess id => req.paysBuyer = true ∧ .claimed id ∈ Γ
  | .touchOrderPayoutClaim _ _ _ _ | .clearOrderPayout _ _ _ | .failOrderPayout _ _ _ =>
      req.paysBuyer = true
  | _ => True

/-- What the course of a trade leaves on an order and later actions look at: requests to cancel,
disputes, failed payments, the paid dev fee, ratings and a cashu escrow. -/
structure TradeMarks where
  cancelInitiatorPubkey : Option Pubkey := none
  buyerCooperativecancel : Bool := false
  sellerCooperativecancel : Bool := false
  buyerDispute : Bool := false
  sellerDispute : Bool := false
  failedPayment : Bool := false
  paymentAttempts : Int := 0
  devFeePaid : Bool := false
  devFeePaymentHash : Option Hash := none
  buyerSentRate : Bool := false
  sellerSentRate : Bool := false
  cashuMintUrl : Option Nat := none
  cashuEscrowToken : Option Nat := none
  cashuEscrowLockedAt : Option Int := none
  deriving DecidableEq

def Order.marks (o : Order) : TradeMarks where
  cancelInitiatorPubkey := o.cancelInitiatorPubkey
  buyerCooperativecancel := o.buyerCooperativecancel
  sellerCooperativecancel := o.sellerCooperativecancel
  buyerDispute := o.buyerDispute
  sellerDispute := o.sellerDispute
  failedPayment := o.failedPayment
  paymentAttempts := o.paymentAttempts
  devFeePaid := o.devFeePaid
  devFeePaymentHash := o.devFeePaymentHash
  buyerSentRate := o.buyerSentRate
  sellerSentRate := o.sellerSentRate
  cashuMintUrl := o.cashuMintUrl
  cashuEscrowToken := o.cashuEscrowToken
  cashuEscrowLockedAt := o.cashuEscrowLockedAt

/-- What the maker of an order offers.  The expiry is one of the terms. -/
structure PublishedTerms where
  kind : Kind
  creatorPubkey : Pubkey
  makerPubkey : Option Pubkey
  masterMakerPubkey : Option Pubkey
  tradeIndexMaker : Option Int
  buyerInvoice : Option PaymentRequest
  amount : Int
  fiatAmount : Int
  minAmount : Option Int
  maxAmount : Option Int
  priceFromApi : Bool
  expiresAt : Int

def Order.publishedTerms (o : Order) : PublishedTerms where
  kind := o.kind
  creatorPubkey := o.creatorPubkey
  makerPubkey := match o.kind with | .buy => o.buyerPubkey | .sell => o.sellerPubkey
  masterMakerPubkey := match o.kind with
    | .buy => o.masterBuyerPubkey
    | .sell => o.masterSellerPubkey
  tradeIndexMaker := match o.kind with | .buy => o.tradeIndexBuyer | .sell => o.tradeIndexSeller
  buyerInvoice := o.buyerInvoice
  amount := o.amount
  fiatAmount := o.fiatAmount
  minAmount := o.minAmount
  maxAmount := o.maxAmount
  priceFromApi := o.priceFromApi
  expiresAt := o.expiresAt

/-- The row of a new order with these terms: no taker, no escrow, and every column of a trade at its
default. -/
def PublishedTerms.publish (t : PublishedTerms) (id : Uuid) (parent : Option Uuid) : Order :=
  let base : Order :=
    { id, kind := t.kind, status := .pending, creatorPubkey := t.creatorPubkey,
      buyerInvoice := t.buyerInvoice, amount := t.amount, fiatAmount := t.fiatAmount,
      minAmount := t.minAmount, maxAmount := t.maxAmount, priceFromApi := t.priceFromApi,
      rangeParentId := parent, expiresAt := t.expiresAt }
  match t.kind with
  | .buy => { base with
      buyerPubkey := t.makerPubkey, masterBuyerPubkey := t.masterMakerPubkey,
      tradeIndexBuyer := t.tradeIndexMaker }
  | .sell => { base with
      sellerPubkey := t.makerPubkey, masterSellerPubkey := t.masterMakerPubkey,
      tradeIndexSeller := t.tradeIndexMaker }

/-- The order without what no action looks at before a take: the time of its creation, and the two
fees, which a take sets. -/
def Order.gating (o : Order) : Order := { o with fee := 0, devFee := 0, createdAt := 0 }

/-- The order is to every action as a new one with its terms. -/
def Order.AsNew (o : Order) : Prop := o.gating = o.publishedTerms.publish o.id o.rangeParentId

theorem Order.AsNew.marks (h : o.AsNew) : o.marks = {} := by
  have hmarks : o.gating.marks = (o.publishedTerms.publish o.id o.rangeParentId).marks :=
    congrArg Order.marks h
  refine Eq.trans hmarks ?_
  unfold PublishedTerms.publish
  cases o.publishedTerms.kind <;> rfl

def Order.IsChildOf (o parent : Order) : Prop :=
  o.rangeParentId = some parent.id ∧ o.marks = parent.marks ∧ (o.marks = {} → o.AsNew)

/-- What is left of a range after a slice of it: a range with the same minimum, or a single amount
when only the minimum is left. -/
def Order.IsRemainderOf (o parent : Order) : Prop :=
  ∃ low high, parent.minAmount = some low ∧ parent.maxAmount = some high ∧
    low ≤ high - parent.fiatAmount ∧
    if high - parent.fiatAmount = low then
      o.fiatAmount = low ∧ o.minAmount = none ∧ o.maxAmount = none
    else o.minAmount = some low ∧ o.maxAmount = some (high - parent.fiatAmount)

/-- Where an inserted order comes from: it is newly published, or the child of the range order that
a Release has read and settled. -/
def KnowsOrigin (req : Request) (Γ : Set Fact) (o : Order) : Prop :=
  (o.rangeParentId = none ∧ { o with status := .pending }.AsNew) ∨
    ∃ x sender next, .order x ∈ Γ ∧ (x.status = .fiatSent ∨ x.status = .dispute) ∧
      x.isRangeOrder = true ∧ req = .message (.release x.id sender next) ∧ o.IsChildOf x ∧
      .resolved x.id ∈ Γ ∧ o.IsRemainderOf x

def OrderStmt.need (req : Request) (Γ : Set Fact) : OrderStmt → Prop
  | .create o => o.hash = none ∧ o.preimage = none ∧
      (o.status = .pending ∨ o.status = .waitingMakerBond) ∧ KnowsOrigin req Γ o ∧
      o.invoiceHeldAt = 0 ∧ (o.priceFromApi = true → o.amount = 0)
  | .run u => u.need req Γ
  | .deleteStranded _ => True

/-- A timeout is blamed by the timeout job only, on an order it has read, once the node has
confirmed the cancel of its escrow. -/
def BlamesTimeout (req : Request) (Γ : Set Fact) (trade : Order) (reason : BondSlashReason) :
    Prop :=
  reason = .timeout → req = .job .cancelOrders ∧
    (∃ o, .order o ∈ Γ ∧ o.status = trade.status ∧ o.hash = trade.hash) ∧
    ∀ h, trade.hash = some h → .canceled h ∈ Γ

def KnowsSettled (Γ : Set Fact) (b : Bond) : Prop :=
  .bond b ∈ Γ ∧ ∃ p, b.preimage = some p ∧ .settled p ∈ Γ

def BondUpdate.need (req : Request) (Γ : Set Fact) : BondUpdate → Prop
  | .update read row =>
      .bond read ∈ Γ ∧ read.state.isTerminal = false ∧
      (∃ t, row = { read with state := .released, releasedAt := t }) ∧
      ∀ h, read.hash = some h → .canceled h ∈ Γ
  | .slash id reason _ nodeShare trade =>
      (∃ b, KnowsSettled Γ b ∧ b.id = id ∧ b.orderId = trade.id ∧
        (∃ side, sidePubkey trade side = some b.pubkey) ∧
        ∃ pct, nodeShare = computeNodeShare b.amountSats pct) ∧
      BlamesTimeout req Γ trade reason
  | .forfeit _ _ | .finalizeNodeOnly _ | .requestPayoutInvoice _ _ | .persistPaymentHash _ _ _
  | .slashAfterSuccess _ | .payoutAttempts _ _ | .rearmInvoiceRequest _ | .markFailed _ =>
      req.paysBonds = true
  | _ => True

def Request.publishes : Request → Bool
  | .message (.newOrder _ _ _ _ _) => true
  | _ => false

def KnowsBonded (req : Request) (Γ : Set Fact) (b : Bond) : Prop :=
  ∃ x, .order x ∈ Γ ∧ x.id = b.orderId ∧
    (b.role = .maker → req.publishes = true ∧ x.rangeParentId = none ∧
      makerSlicePubkey x = some b.pubkey) ∧
    (b.role = .taker → ∃ fiat, b.takerFiatAmount = some fiat ∧ x.offers fiat = true)

def BondStmt.need (req : Request) (Γ : Set Fact) : BondStmt → Prop
  | .create b => b.state = .requested ∧ b.parentBondId = none ∧ b.childOrderId = none ∧
      0 ≤ b.amountSats ∧ ((b.slashedReason = none ∧ b.nodeShareSats = none) ∧
        b.payoutInvoice = none ∧ b.payoutAttempts = 0) ∧
      KnowsBonded req Γ b ∧
      ∃ h, .created (.bond b.orderId) h ∈ Γ ∧ b.hash = some h ∧ b.preimage = some h
  | .run u => u.need req Γ
  | .insertSliceSlash v => .bond v.parent ∈ Γ ∧
      v.amountSats = sliceSlashAmount v.parent v.slice.fiatAmount v.maxFiat ∧
      (∃ side, sidePubkey v.slice side = some v.pubkey) ∧
      (∃ pct, v.nodeShare = computeNodeShare v.amountSats pct) ∧
      BlamesTimeout req Γ v.slice v.reason
  | .closeRange v => KnowsSettled Γ v.parent

def Payable (Γ : Set Fact) (row : Uuid) : Prop :=
  ∃ b, .bond b ∈ Γ ∧ b.id = row ∧ ∀ p, b.parentBondId = some p →
    ∃ q, .parent q ∈ Γ ∧ q.id = p ∧ q.state ≠ .locked

def LndCall.need (req : Request) (Γ : Set Fact) : LndCall → Prop
  | .cancelHoldInvoice h => KnowsHold req Γ h
  | .settleHoldInvoice p =>
      (∃ o, Settleable Γ o p ∧ req.settles o.id) ∨ ∃ b, .bond b ∈ Γ ∧ b.preimage = some p
  | .sendPaymentV2 (.bond row) _ _ => req.paysBonds = true ∧ Payable Γ row
  | .sendPaymentV2 (.buyer _) _ _ => req.paysBuyer = true
  | _ => True

def Query.need (Γ : Set Fact) : Query → Prop
  | .findBondById id => ∃ b, .bond b ∈ Γ ∧ b.parentBondId = some id
  | _ => True

def DisputeStmt.need (req : Request) (Γ : Set Fact) : DisputeStmt → Prop
  | .create d => d.isLive = true
  | .update d => (∃ x, .dispute x ∈ Γ ∧ x.id = d.id ∧ x.orderId = d.orderId) ∧
      (d.isLive = true ∨ .resolved d.orderId ∈ Γ ∨
        req.adminCanceledOrder = some d.orderId ∧
          ∃ o, .order o ∈ Γ ∧ o.id = d.orderId ∧ o.status = .dispute)

def Op.need (req : Request) (Γ : Set Fact) : Op → Prop
  | .query q => q.need Γ
  | .order st => st.need req Γ
  | .bond st => st.need req Γ
  | .lnd c => c.need req Γ
  | .askBondInvoice row _ => req.paysBonds = true ∧ Payable Γ row
  | .spawn d => req.paysBuyer = true ∧ d.amount = d.order.amount - d.order.fee ∧ KnowsOwed Γ d.order
  | .dispute st => st.need req Γ
  | _ => True

section

variable {Γ Γ' : Set Fact} {req : Request}

theorem KnowsEscrow.mono (hΓ : Γ ⊆ Γ') (h : KnowsEscrow Γ o) : KnowsEscrow Γ' o := by
  obtain ⟨x,hx,h'⟩ := h
  exact ⟨x,hΓ hx,h'⟩

theorem Settleable.mono {p : Hash} (hΓ : Γ ⊆ Γ') (h : Settleable Γ o p) :
    Settleable Γ' o p := ⟨hΓ h.1,h.2⟩

theorem BlamesTimeout.mono {reason : BondSlashReason} (hΓ : Γ ⊆ Γ')
    (h : BlamesTimeout req Γ o reason) : BlamesTimeout req Γ' o reason := by
  intro hr
  obtain ⟨hreq,⟨x,hx,hsame⟩,hcan⟩ := h hr
  exact ⟨hreq,⟨x,hΓ hx,hsame⟩,fun y hy => hΓ (hcan y hy)⟩

theorem KnowsSettled.mono {b : Bond} (hΓ : Γ ⊆ Γ') (h : KnowsSettled Γ b) :
    KnowsSettled Γ' b := by
  obtain ⟨hb,p,hp,hs⟩ := h
  exact ⟨hΓ hb,p,hp,hΓ hs⟩

theorem Payable.mono {row : Uuid} (hΓ : Γ ⊆ Γ') (h : Payable Γ row) : Payable Γ' row := by
  obtain ⟨b,hb,hid,hp⟩ := h
  refine ⟨b,hΓ hb,hid,fun p hbp => ?_⟩
  obtain ⟨q,hq,h'⟩ := hp p hbp
  exact ⟨q,hΓ hq,h'⟩

theorem KnowsCanceled.mono (hΓ : Γ ⊆ Γ') (h : KnowsCanceled Γ o) :
    KnowsCanceled Γ' o := fun x hx => hΓ (h x hx)

theorem KnowsListed.mono (hΓ : Γ ⊆ Γ') (h : KnowsListed Γ o) : KnowsListed Γ' o := by
  obtain ⟨x,hx,h'⟩ := h
  exact ⟨x,hΓ hx,h'⟩

theorem ConfirmsCancel.mono (hΓ : Γ ⊆ Γ') (h : ConfirmsCancel req Γ o) :
    ConfirmsCancel req Γ' o := by
  obtain ⟨x,k,hx,h'⟩ := h
  exact ⟨x,k,hΓ hx,h'⟩

theorem CancelsEscrow.mono (hΓ : Γ ⊆ Γ') (h : CancelsEscrow req Γ o) : CancelsEscrow req Γ' o :=
  ⟨hΓ h.1,h.2.1,fun hreq hst => (h.2.2 hreq hst).mono hΓ⟩

theorem KnowsHold.mono {h : Hash} (hΓ : Γ ⊆ Γ') (hk : KnowsHold req Γ h) :
    KnowsHold req Γ' h := by
  rcases hk with ⟨hg,m,hm⟩ | ⟨o,ho,h'⟩ | ⟨b,hb,h'⟩
  · exact .inl ⟨hg,m,hΓ hm⟩
  · exact .inr (.inl ⟨o,ho.mono hΓ,h'⟩)
  · exact .inr (.inr ⟨b,hΓ hb,h'⟩)

theorem RowEdit.mono {read row : Order} (hΓ : Γ ⊆ Γ') (h : RowEdit req Γ read row) :
    RowEdit req Γ' read row := by
  cases h with
  | closes hrow => exact .closes hrow
  | lists hreq hrow hread => exact .lists hreq hrow hread
  | proceeds hreq hterms hrow => exact .proceeds hreq hterms hrow
  | invoice hreq hread hpreimage hsender => exact .invoice hreq hread hpreimage hsender
  | paid hreq hpaid hhash hread hheld hterms hrow =>
    exact .paid hreq (hΓ hpaid) hhash hread hheld hterms hrow

theorem KnowsTerms.mono (hΓ : Γ ⊆ Γ') (h : KnowsTerms Γ o) : KnowsTerms Γ' o := by
  refine ⟨fun hst => ?_,fun hst => (h.2 hst).mono hΓ⟩
  obtain ⟨x,hx,hp⟩ := h.1 hst
  exact ⟨x,hx,hΓ hp⟩

theorem KnowsOwed.mono (hΓ : Γ ⊆ Γ') (h : KnowsOwed Γ o) : KnowsOwed Γ' o := by
  obtain ⟨x,hx,hid,hterms,hst⟩ := h
  refine ⟨x,hΓ hx,hid,hterms,hst.imp_right ?_⟩
  rintro ⟨p,hset,hp⟩
  exact ⟨p,hset.mono hΓ,hΓ hp⟩

theorem KnowsRead.mono (hΓ : Γ ⊆ Γ') (h : KnowsRead Γ o) : KnowsRead Γ' o := by
  obtain ⟨x,hx,h'⟩ := h
  exact ⟨x,hΓ hx,h'⟩

theorem KnowsQuote.mono {id : Uuid} {amount : Int} (hΓ : Γ ⊆ Γ') (h : KnowsQuote Γ id amount) :
    KnowsQuote Γ' id amount := by
  obtain ⟨x,hx,h'⟩ := h
  exact ⟨x,hΓ hx,h'⟩

theorem KnowsOffer.mono (hΓ : Γ ⊆ Γ') (h : KnowsOffer req Γ o) : KnowsOffer req Γ' o := by
  obtain ⟨x,hx,h'⟩ := h
  exact ⟨x,hΓ hx,h'⟩

theorem KnowsBondedSlice.mono (hΓ : Γ ⊆ Γ') (h : KnowsBondedSlice Γ o) : KnowsBondedSlice Γ' o := by
  obtain ⟨x,b,b₀,hx,hid,hoffer,hb,horder,hfiat,hb₀,h'⟩ := h
  exact ⟨x,b,b₀,hΓ hx,hid,hoffer,hΓ hb,horder,hfiat,hΓ hb₀,h'⟩

theorem KnowsSlice.mono (hΓ : Γ ⊆ Γ') (h : KnowsSlice Γ o) : KnowsSlice Γ' o := by
  rcases h with ⟨x,hx,h'⟩ | ⟨x,hx,h'⟩ | h'
  · exact .inl ⟨x,hΓ hx,h'⟩
  · exact .inr (.inl ⟨x,hΓ hx,h'⟩)
  · exact .inr (.inr (h'.mono hΓ))

theorem KnowsDue.mono {id : Uuid} (hΓ : Γ ⊆ Γ') (h : KnowsDue req Γ id) : KnowsDue req Γ' id := by
  refine h.imp (And.imp_right (@hΓ _)) ?_
  rintro ⟨x,hx,h'⟩
  exact ⟨x,hΓ hx,h'⟩

theorem KnowsBonded.mono {b : Bond} (hΓ : Γ ⊆ Γ') (h : KnowsBonded req Γ b) :
    KnowsBonded req Γ' b := by
  obtain ⟨x,hx,h'⟩ := h
  exact ⟨x,hΓ hx,h'⟩

theorem RowWrite.mono {read row : Order} (hΓ : Γ ⊆ Γ') (h : RowWrite req Γ read row) :
    RowWrite req Γ' read row := by
  refine { h with
    listed := fun hl => (h.listed hl).imp (·.mono hΓ) (·.mono hΓ)
    copy := h.copy.imp (·.mono hΓ) ?_
    hash := h.hash.imp_right (·.mono hΓ)
    escrowed := fun he => (h.escrowed he).imp_right (·.mono hΓ)
    cooperative := fun hs => (h.cooperative hs).mono hΓ
    guardian := fun hg => (h.guardian hg).imp_right (And.imp_left (@hΓ _))
    pending := fun hp => (h.pending hp).imp_right (And.imp_right (@hΓ _))
    known := h.known.imp_left (·.mono hΓ)
    edit := h.edit.mono hΓ
    offer := h.offer.mono hΓ
    disputes := fun hd => (h.disputes hd).imp_right (·.imp_right fun ⟨d,hd,hid⟩ => ⟨d,hΓ hd,hid⟩) }
  rintro ⟨x,k,hx,h'⟩
  exact ⟨x,k,hΓ hx,h'⟩

theorem KnowsOrigin.mono (hΓ : Γ ⊆ Γ') (h : KnowsOrigin req Γ o) : KnowsOrigin req Γ' o := by
  refine h.imp_right ?_
  rintro ⟨x,sender,next,hx,hst,hrange,hreq,hchild,hres,hrem⟩
  exact ⟨x,sender,next,hΓ hx,hst,hrange,hreq,hchild,hΓ hres,hrem⟩

theorem OrderUpdate.need_mono {u : OrderUpdate} (hΓ : Γ ⊆ Γ') (h : u.need req Γ) :
    u.need req Γ' := by
  cases u with
  | update read row => exact RowWrite.mono hΓ h
  | updateOrderToInitialState read a f d => exact
      ⟨h.1,h.2.1.mono hΓ,h.2.2.1,h.2.2.2.1.mono hΓ,h.2.2.2.2.mono hΓ⟩
  | casCompletePretradeTake o allow =>
    refine ⟨h.1,h.2.1.imp (·.mono hΓ) ?_,h.2.2.1.mono hΓ,h.2.2.2.mono hΓ⟩
    rintro ⟨x,hx,h'⟩
    exact ⟨x,hΓ hx,h'⟩
  | casPretradeOrderStatus id new => exact h.imp_right (And.imp_right (@hΓ _))
  | casPromoteTakerContext o => exact KnowsBondedSlice.mono hΓ h
  | checkFailureRetries id failed attempts =>
    exact ⟨h.1,h.2.1,h.2.2.imp (·.mono hΓ) (@hΓ _)⟩
  | claimOrderPayout id hash t => exact ⟨h.1,h.2.mono hΓ⟩
  | paymentSuccess id => exact ⟨h.1,hΓ h.2⟩
  | settleFromRelease id | settleFromAdmin id =>
    obtain ⟨hreq,o,p,ho,hid,hp,hcap⟩ := h
    exact ⟨hreq,o,p,ho.mono hΓ,hid,hΓ hp,hΓ hcap⟩
  | _ => exact h

theorem BondUpdate.need_mono {u : BondUpdate} (hΓ : Γ ⊆ Γ') (h : u.need req Γ) :
    u.need req Γ' := by
  cases u with
  | update read row =>
    obtain ⟨h1,h2,h3,h4⟩ := h
    exact ⟨hΓ h1,h2,h3,fun x hx => hΓ (h4 x hx)⟩
  | slash id reason at_ share trade =>
    obtain ⟨⟨b,hb,h'⟩,hr⟩ := h
    exact ⟨⟨b,hb.mono hΓ,h'⟩,hr.mono hΓ⟩
  | _ => exact h

theorem BondStmt.need_mono {st : BondStmt} (hΓ : Γ ⊆ Γ') (h : st.need req Γ) :
    st.need req Γ' := by
  cases st with
  | create b =>
    obtain ⟨h1,h2,h3,h4,h5,h6,x,hx,h'⟩ := h
    exact ⟨h1,h2,h3,h4,h5,h6.mono hΓ,x,hΓ hx,h'⟩
  | run u => exact BondUpdate.need_mono hΓ h
  | insertSliceSlash v => exact ⟨hΓ h.1,h.2.1,h.2.2.1,h.2.2.2.1,h.2.2.2.2.mono hΓ⟩
  | closeRange v => exact KnowsSettled.mono hΓ h

theorem LndCall.need_mono {c : LndCall} (hΓ : Γ ⊆ Γ') (h : c.need req Γ) : c.need req Γ' := by
  cases c with
  | cancelHoldInvoice x => exact KnowsHold.mono hΓ h
  | settleHoldInvoice p =>
    refine h.imp ?_ ?_
    · rintro ⟨o,ho,hreq⟩
      exact ⟨o,ho.mono hΓ,hreq⟩
    · rintro ⟨b,hb,h'⟩
      exact ⟨b,hΓ hb,h'⟩
  | sendPaymentV2 payee x stamp =>
    cases payee with
    | buyer id => exact h
    | bond row => exact ⟨h.1,h.2.mono hΓ⟩
  | _ => exact h

theorem Query.need_mono {q : Query} (hΓ : Γ ⊆ Γ') (h : q.need Γ) : q.need Γ' := by
  cases q with
  | findBondById id =>
    obtain ⟨b,hb,hp⟩ := h
    exact ⟨b,hΓ hb,hp⟩
  | _ => exact h

theorem DisputeStmt.need_mono {st : DisputeStmt} (hΓ : Γ ⊆ Γ') (h : st.need req Γ) :
    st.need req Γ' := by
  cases st with
  | create d => exact h
  | update d =>
    obtain ⟨⟨x,hx,h'⟩,hd⟩ := h
    refine ⟨⟨x,hΓ hx,h'⟩,hd.imp_right (Or.imp (@hΓ _) ?_)⟩
    rintro ⟨hreq,o,ho,h'⟩
    exact ⟨hreq,o,hΓ ho,h'⟩

theorem Op.need_mono {op : Op} (hΓ : Γ ⊆ Γ') (h : op.need req Γ) : op.need req Γ' := by
  cases op with
  | query q => exact Query.need_mono hΓ h
  | order st =>
    cases st with
    | create o => exact ⟨h.1,h.2.1,h.2.2.1,h.2.2.2.1.mono hΓ,h.2.2.2.2⟩
    | run u => exact OrderUpdate.need_mono hΓ h
    | deleteStranded id => exact h
  | bond st => exact BondStmt.need_mono hΓ h
  | lnd c => exact LndCall.need_mono hΓ h
  | askBondInvoice row recipient => exact ⟨h.1,h.2.mono hΓ⟩
  | spawn d => exact ⟨h.1,h.2.1,h.2.2.mono hΓ⟩
  | dispute st => exact DisputeStmt.need_mono hΓ h
  | _ => exact h

end

def discipline (req : Request) : Discipline Op Op.Res Fact where
  need := Op.need req
  need_mono := Op.need_mono
  answers := Op.answers
  learn := Op.learn

end Mostro
