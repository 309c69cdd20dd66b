import Mostro.SharedState

set_option autoImplicit false

/-!
How one operation changes the shared state and what it answers.
-/

namespace Mostro

open SqlTable

def OrderUpdate.logTake : OrderUpdate → List (Uuid × Hash)
  | .casCompletePretradeTake o _ => o.hash.toList.map fun h => (o.id,h)
  | _ => []

/-- What a successful statement adds to the log of moves to `settled-hold-invoice`. -/
def OrderUpdate.logSettle (tid : Nat) : OrderUpdate → List (Uuid × Nat)
  | .settleFromRelease id | .settleFromAdmin id => [(id,tid)]
  | _ => []

def OrderUpdate.logClaim (tid number : Nat) : OrderUpdate → List Claim
  | .claimOrderPayout id _ _ => [⟨id,tid,number⟩]
  | _ => []

def OrderUpdate.logRetry : OrderUpdate → List RetryMark
  | .checkFailureRetries read _ _ => [.counted read.id read.buyerInvoice]
  | .payNewInvoice id _ => [.swapped id]
  | _ => []

def OrderUpdate.run (tid : Nat) (s : State) (u : OrderUpdate) : State × Nat :=
  let n := affected (u.selects s) s.orders
  ({ s with
      orders := updateWhere (u.selects s) u.set s.orders
      takes := (if 0 < n then u.logTake else []) ++ s.takes
      settledBy := (if 0 < n then u.logSettle tid else []) ++ s.settledBy
      claims := (if 0 < n then u.logClaim tid s.claims.length else []) ++ s.claims
      retries := (if 0 < n then u.logRetry else []) ++ s.retries },n)

/-- A stranded row can be deleted unless a bond refers to it: `bonds.order_id` is a foreign key. -/
def State.deletable (s : State) (id : Uuid) (r : OrderRow) : Bool :=
  r.order.id == id && r.order.status == .waitingMakerBond && !s.bonds.any (·.orderId == id)

def OrderStmt.exec (tid : Nat) (s : State) : OrderStmt → State × Nat
  | .create o =>
    ({ s with orders := s.orders ++ [{ order := { o with id := s.nextId } }]
              nextId := s.nextId + 1 },s.nextId)
  | .run u => u.run tid s
  | .deleteStranded id =>
    ({ s with orders := s.orders.filter fun r => !s.deletable id r },
     affected (s.deletable id) s.orders)

def Query.ordersOut : (q : Query) → q.Out → List Order
  | .orderById _, o => Option.toList o
  | .findOrderByHash _, o => Option.toList o
  | .findOrderByDate _, os | .findOrderBySeconds _, os | .findEscrowDeadlineOrders _, os
  | .findFailedPayment, os | .findHeldInvoices, os => os
  | _, _ => []

def Query.logRead (tid : Nat) (s : State) (q : Query) : List (Nat × Order) :=
  (q.ordersOut (q.run s)).map fun o => (tid,o)

def State.watches (s : State) (tid : Nat) (id : Uuid) : Bool :=
  s.inHand.any fun p => p.1 == tid && (p.2.id == id || p.2.rangeParentId == some id)

/-- A task takes an order in hand when it reads it by its id.  What it had in hand before it keeps
only if it reads that again or follows its range. -/
def Query.takeInHand (tid : Nat) (s : State) (q : Query) : List (Nat × Order) :=
  match q with
  | .orderById id => match Query.run s (.orderById id) with
    | some o => (tid,o) ::
        if s.watches tid id then s.inHand else s.inHand.filter fun p => p.1 != tid
    | none => s.inHand
  | _ => s.inHand

def BondUpdate.logSlash : BondUpdate → List Slash
  | .slash id reason _ _ trade => [⟨id,reason,trade⟩]
  | _ => []

def BondUpdate.run (s : State) (u : BondUpdate) : State × Nat :=
  let n := affected (u.selects s) s.bonds
  ({ s with
      bonds := updateWhere (u.selects s) (u.set s) s.bonds
      slashes := (if 0 < n then u.logSlash else []) ++ s.slashes },n)

def SliceSlash.row (v : SliceSlash) (id : Uuid) : Bond :=
  { id, orderId := v.slice.id, parentBondId := some v.parent.id,
    childOrderId := some v.slice.id, pubkey := v.pubkey, role := .maker,
    amountSats := v.amountSats, state := .pendingPayout, slashedReason := some v.reason,
    nodeShareSats := some v.nodeShare, slashedAt := some v.at_, createdAt := v.at_ }

/-- `WHERE NOT EXISTS (child for this slice) AND EXISTS (parent still locked)`. -/
def SliceSlash.allowed (v : SliceSlash) (bonds : List Bond) : Bool :=
  !(bonds.any fun b => b.parentBondId == some v.parent.id && b.childOrderId == some v.slice.id)
    && bonds.any fun b => b.id == v.parent.id && b.state == .locked

def RangeClose.refundRow (v : RangeClose) (id : Uuid) (refund : Int) : Bond :=
  { id, orderId := v.root, parentBondId := some v.parent.id,
    pubkey := v.parent.pubkey, role := .maker, amountSats := refund, state := .pendingPayout,
    slashedReason := some v.reason, nodeShareSats := some 0, slashedAt := some v.at_,
    createdAt := v.at_ }

def RangeClose.refund (v : RangeClose) (bonds : List Bond) : Int :=
  max (v.parent.amountSats - sliceTotal bonds v.parent.id) 0

/-- The updates of the close transaction: the parent is slashed, and the claim windows of the
child rows start now. -/
def RangeClose.kept (v : RangeClose) (bonds : List Bond) : List Bond :=
  let closed := updateWhere (fun b => b.id == v.parent.id && b.state == .locked)
    (fun b => { b with state := .slashed }) bonds
  if v.anchorChildren then
    updateWhere (fun b => b.isSliceOf v.parent.id && b.state == .pendingPayout)
      (fun b => { b with slashedAt := some v.at_ }) closed
  else closed

/-- The close transaction once its compare-and-swap has matched. -/
def RangeClose.rows (v : RangeClose) (id : Uuid) (bonds : List Bond) : List Bond :=
  if 0 < v.refund bonds then v.kept bonds ++ [v.refundRow id (v.refund bonds)] else v.kept bonds

def BondStmt.exec (s : State) : BondStmt → State × Nat
  | .create b =>
    ({ s with bonds := s.bonds ++ [{ b with id := s.nextId }], nextId := s.nextId + 1 },s.nextId)
  | .run u => u.run s
  | .insertSliceSlash v =>
    if v.allowed s.bonds then
      ({ s with bonds := s.bonds ++ [v.row s.nextId], nextId := s.nextId + 1
                slashes := ⟨s.nextId,v.reason,v.slice⟩ :: s.slashes },1)
    else (s,0)
  | .closeRange v =>
    if s.bonds.any fun b => b.id == v.parent.id && b.state == .locked then
      ({ s with bonds := v.rows s.nextId s.bonds, nextId := s.nextId + 1
                closes := v.parent.id :: s.closes },1)
    else (s,0)

def DisputeStmt.duplicates (s : State) : DisputeStmt → Bool
  | .create d => s.disputes.any (·.orderId == d.orderId)
  | .update _ => false

def DisputeStmt.exec (s : State) : DisputeStmt → State × Nat
  | .create d =>
    ({ s with disputes := s.disputes ++ [{ d with id := s.nextId }], nextId := s.nextId + 1 },
     s.nextId)
  | .update d =>
    ({ s with disputes := updateWhere (·.id == d.id) (fun _ => d) s.disputes },
     affected (·.id == d.id) s.disputes)

def cancelHold (texts : LndTexts) (s : State) (h : Hash) (ch : Choice) :
    State × Except MostroError Unit :=
  match s.holdState h with
  | none => (s,.error (.holdInvoice texts.cancelUnknown))
  | some .settled => (s,.error (.holdInvoice texts.cancelSettled))
  | some .canceled =>
    (s,if ch = .ok then .ok () else .error (.holdInvoice texts.cancelCanceled))
  | some .opened | some .accepted =>
    (s.moveHold h .canceled,
     if ch = .lost then .error (.holdInvoice texts.transport) else .ok ())

def settleHold (texts : LndTexts) (s : State) (h : Hash) (ch : Choice) :
    State × Except MostroError Unit :=
  match s.holdState h with
  | none => (s,.error (.holdInvoice texts.settleUnknown))
  | some .opened => (s,.error (.holdInvoice texts.settleOpen))
  | some .settled => (s,.error (.holdInvoice texts.settleSettled))
  | some .canceled => (s,.error (.holdInvoice texts.settleCanceled))
  | some .accepted =>
    (s.capture h,
     if ch = .lost then .error (.holdInvoice texts.transport) else .ok ())

/-- A message of an invoice subscription: the state the invoice is in, or late the acceptance it
once had. -/
def State.deliveredUpdate (s : State) (h : Hash) (ch : Choice) : HoldState :=
  match s.hold? h with
  | none => .opened
  | some i => if ch = .ok then i.state else if i.paid then .accepted else .opened

def State.streamOutcome (s : State) (attempt : Nat) : StreamOutcome :=
  match (s.payments.find? (·.id == attempt)).map (·.status) with
  | some PaymentStatus.succeeded => .succeeded
  | some PaymentStatus.failed => .failed
  | _ => .ended

def LndCall.exec (texts : LndTexts) (ch : Choice) (s : State) :
    (c : LndCall) → State × Except MostroError c.Out
  | .connect => (s,if ch = .fault then .error .lnNode else .ok ())
  | .createHoldInvoice memo amount =>
    if ch = .fault then (s,.error (.holdInvoice texts.transport))
    else
      ({ s with holds := s.holds ++ [{ hash := s.nextId, memo, amount }], nextId := s.nextId + 1 },
       if ch = .lost then .error (.holdInvoice texts.transport) else .ok s.nextId)
  | .cancelHoldInvoice h =>
    if ch = .fault then (s,.error (.holdInvoice texts.transport)) else cancelHold texts s h ch
  | .settleHoldInvoice h =>
    if ch = .fault then (s,.error (.holdInvoice texts.transport)) else settleHold texts s h ch
  | .holdInvoiceExpiryHeight h =>
    (s,if ch = .fault then .error .lnNode
        else match s.hold? h with
          | none => .error .lnNode
          | some i => .ok (if i.state = .accepted then some i.expiryHeight else none))
  | .chainHeight => (s,if ch = .fault then .error .lnNode else .ok s.height)
  | .subscribeInvoice _ => (s,if ch = .fault then .error .lnNode else .ok ())
  | .invoiceUpdate h => (s,.ok (s.deliveredUpdate h ch))
  | .sendPaymentV2 payee h stamp =>
    let s := { s with sends := (payee,h) :: s.sends }
    let received := { s with submissions := ⟨h,payee,stamp⟩ :: s.submissions }
    match ch with
    | .ok =>
      if s.sendRefused h then (s,.error .lnPayment)
      else (s.register payee h,.ok (.stream s.nextId))
    | .fault => (s,.error .lnPayment)
    | .lost => (received,.error .lnPayment)
    | .pick 0 => (s,.ok .timedOut)
    | .pick _ => (received,.ok .timedOut)
  | .paymentUpdate attempt =>
    (s,.ok (if ch = .ok then s.streamOutcome attempt else .ended))
  | .lookupPaymentStatus h =>
    (s,match ch with
        | .fault | .lost => .error .lnPayment
        | .ok => .ok ((s.latestPayment h).map (·.status))
        | .pick _ => .ok (some ((s.latestPayment h).elim .unknown (·.status))))

def Check.error : Check → MostroError
  | .validateInvoice _ _ _ | .validatePayoutInvoice _ => .cantDo .invalidInvoice
  | .disputePermission _ => .cantDo .isNotYourDispute
  | .verifyEscrowToken => .cantDo .invalidCashuToken
  | .updateUserTradeIndex | .takerReputation => .dbAccess
  | .disputeEvent | .sendDm | .orderTags => .nostr

def orFault {α : Type} (ch : Choice) (s : State) (out : State × α) :
    State × Except MostroError α :=
  if ch = .fault then (s,.error .dbAccess) else (out.1,.ok out.2)

def exec (ext : Externals) (tid : Nat) (op : Op) (ch : Choice) (s : State) : State × op.Res :=
  match op with
  | .query q => orFault ch s
      ({ s with reads := q.logRead tid s ++ s.reads, inHand := q.takeInHand tid s },q.run s)
  | .order st => orFault ch s (st.exec tid s)
  | .bond st => orFault ch s (st.exec s)
  | .dispute st => if st.duplicates s then (s,.error .dbAccess) else orFault ch s (st.exec s)
  | .lnd c => c.exec ext.texts ch s
  | .timestamp => (s,.ok s.now)
  | .updateOrderEvent id status =>
    if ch = .fault then (s,.error .nostr)
    else ({ s with published := (id,status) :: s.published },.ok ())
  | .check c => (s,if ch = .fault then .error c.error else .ok ())
  | .resolvLnAddress _ _ =>
    (s,match ch with
        | .fault | .lost => .error .lnAddressParse
        | .ok => .ok none
        | .pick n => .ok (some n))
  | .askBondInvoice row _ => ({ s with invoiceRequests := row :: s.invoiceRequests },.ok ())
  | .marketAmountAndFee _ =>
    (s,match ch with
        | .pick n => .ok (n,ext.getFee n)
        | _ => .error .wrongAmount)
  | .spawn d =>
    ({ s with spawned := s.spawned ++ [{ d with claim := s.claimNumber d.order.id tid }] },.ok ())

end Mostro
