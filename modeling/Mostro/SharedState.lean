import Mathlib.Data.List.Sort
import Mostro.InterleavedPrograms
import Mostro.SqlTables
import Mostro.TradeData

set_option autoImplicit false

/-!
What the daemon's tasks share: the tables of its database, the Lightning node and the clock, and
the atomic operations on them.  A statement is one `sqlx` query and a call is one request to the
node; each names the source function or the query it stands for.
-/

namespace Mostro

open SqlTable

inductive CantDoReason where
  | invalidPeer
  | invalidPubkey
  | invalidInvoice
  | invalidAmount
  | invalidPayload
  | invalidOrderStatus
  | invalidOrderKind
  | notAllowedByStatus
  | notFound
  | isNotYourOrder
  | isNotYourDispute
  | disputeTakenByAdmin
  | orderAlreadyCanceled
  | pendingOrderExists
  | outOfRangeSatsAmount
  | invalidCashuToken
  | invalidRating
  deriving DecidableEq, Repr

inductive MostroError where
  | cantDo (reason : CantDoReason)
  | dbAccess
  | holdInvoice (text : String)
  | holdInvoiceCause (cause : MostroError)
  | lnNode
  | lnPayment
  | lnAddressParse
  | invoiceInvalid
  | invalidPubkey
  | nostr
  | disputeEvent
  | disputeAlreadyExists
  | updateOrderStatus
  | wrongAmount
  | unexpected
  deriving DecidableEq, Repr

/-! ### The Lightning node -/

inductive HoldState where
  | opened
  | accepted
  | settled
  | canceled
  deriving DecidableEq, Repr

inductive HoldMemo where
  | escrow (order : Uuid)
  | bond (order : Uuid)
  deriving DecidableEq, Repr

/-- A hold invoice; `paid` remembers that its payment was once accepted. -/
structure Hold where
  hash : Hash
  memo : HoldMemo
  amount : Int
  state : HoldState := .opened
  paid : Bool := false
  expiryHeight : Int := 0
  deriving DecidableEq, Repr

inductive PaymentStatus where
  | unknown
  | inFlight
  | succeeded
  | failed
  deriving DecidableEq, Repr

inductive Payee where
  | buyer (order : Uuid)
  | bond (row : Uuid)
  deriving DecidableEq, Repr

structure Payment where
  id : Nat
  hash : Hash
  payee : Payee
  status : PaymentStatus
  deriving DecidableEq, Repr

/-- A send the node has received and not yet registered; `stamp` is the time of the claim it was
sent under. -/
structure Submission where
  hash : Hash
  payee : Payee
  stamp : Int
  deriving DecidableEq, Repr

structure LndTexts where
  transport : String
  cancelSettled : String
  cancelCanceled : String
  cancelUnknown : String
  settleOpen : String
  settleSettled : String
  settleCanceled : String
  settleUnknown : String

/-- The captures of the payout task `do_payment` spawns; `claim` numbers the claim it was spawned
under. -/
structure Dispatch where
  order : Order
  paymentRequest : PaymentRequest
  amount : Int
  payoutHash : Hash
  payoutClaimedAt : Int
  claim : Nat := 0
  deriving DecidableEq, Repr

structure Claim where
  order : Uuid
  task : Nat
  number : Nat
  deriving DecidableEq, Repr

/-- A slash as it was decided: the row it moved to `pending-payout`, and the order as the handler
that decided it had read it. -/
structure Slash where
  bond : Uuid
  reason : BondSlashReason
  trade : Order
  deriving DecidableEq, Repr

structure Capture where
  hash : Hash
  at_ : Int
  orders : List Order
  deriving DecidableEq, Repr

/-- What happened to the retry counter of an order: a failed payout was counted, on a copy of the
order with this invoice, or a new invoice was stored and the counter reset. -/
inductive RetryMark where
  | counted (order : Uuid) (invoice : Option PaymentRequest)
  | swapped (order : Uuid)
  deriving DecidableEq, Repr

/-- The tables, the node, the clock, and logs that no task reads: the hold invoices stored on
orders, the slashes, the committed range closes, the payout invoices asked for, which task moved
an order to `settled-hold-invoice`, the payout claims, the Cancel messages by the number of the task
that handles them, the orders each task has read, those it is working on, the hold invoices
settled, what was written to retry counters, and the calls of `send_payment`. -/
structure State where
  now : Int := 0
  height : Int := 0
  nextId : Nat := 0
  orders : List OrderRow := []
  bonds : List Bond := []
  disputes : List Dispute := []
  holds : List Hold := []
  payments : List Payment := []
  submissions : List Submission := []
  spawned : List Dispatch := []
  published : List (Uuid × Status) := []
  takes : List (Uuid × Hash) := []
  slashes : List Slash := []
  closes : List Uuid := []
  invoiceRequests : List Uuid := []
  settledBy : List (Uuid × Nat) := []
  claims : List Claim := []
  cancels : List (Nat × Uuid × Pubkey) := []
  reads : List (Nat × Order) := []
  inHand : List (Nat × Order) := []
  captures : List Capture := []
  retries : List RetryMark := []
  sends : List (Payee × Hash) := []

/-! ### Queries -/

inductive Query where
  | orderById (id : Uuid)
  | findOrderByHash (hash : Hash)
  | findOrderByDate (expireTime : Int)
  | findOrderBySeconds (expireTime : Int)
  | findEscrowDeadlineOrders (heldBefore : Int)
  | findFailedPayment
  | findInflightPayouts (claimedBefore : Int)
  | findHeldInvoices
  | hasPendingOrder (identity : Pubkey) (side : Side)
  | cashuEscrowTokenInUse (token : Nat) (exclude : Uuid)
  | findBondById (id : Uuid)
  | findBondByHash (hash : Hash)
  | findBondByOrderAndRole (order : Uuid) (role : BondRole)
  | findBondsByState (state : BondState)
  | findActiveBondsForOrder (order : Uuid)
  | findActiveBondByTaker (order : Uuid) (pubkey : Pubkey)
  | findChildSlashesForParent (parent : Uuid)
  | findSliceSlashChild (parent slice : Uuid)
  | slashedReason (id : Uuid)
  | findRecoverableBonds (order : Uuid)
  | findLockedMakerParentBonds
  | rangeTreeFullyTerminal (root : Uuid)
  | findDisputeByOrderId (order : Uuid)
  | disputeById (id : Uuid)

@[reducible] def Query.Out : Query → Type
  | .orderById _ | .findOrderByHash _ => Option Order
  | .findOrderByDate _ | .findOrderBySeconds _ | .findEscrowDeadlineOrders _
  | .findFailedPayment | .findHeldInvoices => List Order
  | .findInflightPayouts _ => List (Uuid × Hash × Option Int)
  | .hasPendingOrder _ _ | .cashuEscrowTokenInUse _ _ | .rangeTreeFullyTerminal _ => Bool
  | .findBondById _ | .findBondByHash _ | .findBondByOrderAndRole _ _
  | .findActiveBondByTaker _ _ | .findSliceSlashChild _ _ => Option Bond
  | .findBondsByState _ | .findActiveBondsForOrder _ | .findChildSlashesForParent _
  | .findRecoverableBonds _ | .findLockedMakerParentBonds => List Bond
  | .slashedReason _ => Option BondSlashReason
  | .findDisputeByOrderId _ | .disputeById _ => Option Dispute

def byCreatedAt (bonds : List Bond) : List Bond :=
  bonds.insertionSort fun a b => a.createdAt ≤ b.createdAt

/-- The comparison of `ORDER BY slashed_at DESC`; rows without a time come last. -/
def slashedNoEarlier (a b : Bond) : Bool :=
  match a.slashedAt, b.slashedAt with
  | some x, some y => decide (y ≤ x)
  | _, none => true
  | none, some _ => false

def bySlashedAtDesc (bonds : List Bond) : List Bond :=
  bonds.insertionSort fun a b => slashedNoEarlier a b = true

/-- The ids reached from `ids` by `range_parent_id` links in at most the given number of steps. -/
def rangeTree (orders : List OrderRow) : Nat → List Uuid → List Uuid
  | 0, ids => ids
  | n + 1, ids =>
    rangeTree orders n (ids ++ (orders.filter fun r =>
      r.order.rangeParentId.any ids.contains && !ids.contains r.order.id).map (·.order.id))

def rangeTreeIds (orders : List OrderRow) (root : Uuid) : List Uuid :=
  rangeTree orders orders.length ((orders.filter (·.order.id == root)).map (·.order.id))

def rangeTreeTerminal (orders : List OrderRow) (root : Uuid) : Bool :=
  let tree := rangeTreeIds orders root
  orders.all fun r => !tree.contains r.order.id || r.order.status.isTerminal

def State.ordersWhere (s : State) (p : OrderRow → Bool) : List Order :=
  (s.orders.filter p).map (·.order)

def State.order? (s : State) (id : Uuid) : Option OrderRow :=
  s.orders.find? (·.order.id == id)

def State.bond? (s : State) (id : Uuid) : Option Bond := s.bonds.find? (·.id == id)

def State.hold? (s : State) (h : Hash) : Option Hold := s.holds.find? (·.hash == h)

def Query.run (s : State) : (q : Query) → q.Out
  | .orderById id => (s.order? id).map (·.order)
  | .findOrderByHash hash => (s.orders.find? (·.order.hash == some hash)).map (·.order)
  | .findOrderByDate expireTime => s.ordersWhere fun r =>
      decide (r.order.expiresAt < expireTime)
        && [Status.pending,.waitingTakerBond,.waitingMakerBond].contains r.order.status
  | .findOrderBySeconds expireTime => s.ordersWhere fun r =>
      decide (r.order.takenAt < expireTime)
        && [Status.waitingBuyerInvoice,.waitingPayment].contains r.order.status
  | .findEscrowDeadlineOrders heldBefore => s.ordersWhere fun r =>
      [Status.active,.fiatSent].contains r.order.status
        && r.order.invoiceHeldAt != 0 && decide (r.order.invoiceHeldAt ≤ heldBefore)
        && r.order.hash.isSome
  | .findFailedPayment => s.ordersWhere fun r =>
      r.order.failedPayment && r.order.status == .settledHoldInvoice
        && r.payoutPaymentHash.isNone
  | .findInflightPayouts claimedBefore => s.orders.filterMap fun r =>
      match r.payoutPaymentHash with
      | none => none
      | some hash =>
        if r.order.status == .settledHoldInvoice
            && r.payoutClaimedAt.all (fun t => decide (t ≤ claimedBefore)) then
          some (r.order.id,hash,r.payoutClaimedAt)
        else none
  | .findHeldInvoices => s.ordersWhere fun r =>
      (r.order.invoiceHeldAt != 0
          && [Status.active,.fiatSent,.dispute].contains r.order.status)
        || ([Status.waitingPayment,.waitingBuyerInvoice].contains r.order.status
          && r.order.hash.isSome)
  | .hasPendingOrder identity side => s.orders.any fun r =>
      match side with
      | .buyer => r.order.masterBuyerPubkey == some identity
          && r.order.status == .waitingBuyerInvoice
      | .seller => r.order.masterSellerPubkey == some identity
          && r.order.status == .waitingPayment
  | .cashuEscrowTokenInUse token exclude => s.orders.any fun r =>
      r.order.cashuEscrowToken == some token && r.order.id != exclude
  | .findBondById id => s.bond? id
  | .findBondByHash hash => s.bonds.find? (·.hash == some hash)
  | .findBondByOrderAndRole order role => s.bonds.find? fun b =>
      b.orderId == order && b.role == role && b.parentBondId.isNone
  | .findBondsByState state => byCreatedAt (s.bonds.filter (·.state == state))
  | .findActiveBondsForOrder order =>
      byCreatedAt (s.bonds.filter fun b => b.orderId == order && b.state.isActive)
  | .findActiveBondByTaker order pubkey =>
      (byCreatedAt (s.bonds.filter fun b => b.orderId == order && b.pubkey == pubkey
        && b.state.isActive && b.parentBondId.isNone)).head?
  | .findChildSlashesForParent parent =>
      byCreatedAt (s.bonds.filter (·.parentBondId == some parent))
  | .findSliceSlashChild parent slice => s.bonds.find? fun b =>
      b.parentBondId == some parent && b.childOrderId == some slice
  | .slashedReason id => (s.bond? id).bind (·.slashedReason)
  | .findRecoverableBonds order =>
      bySlashedAtDesc (s.bonds.filter fun b => b.orderId == order
        && (b.state == .pendingPayout || b.state == .failed))
  | .findLockedMakerParentBonds => byCreatedAt (s.bonds.filter fun b =>
      b.state == .locked && b.role == .maker && b.parentBondId.isNone)
  | .rangeTreeFullyTerminal root => rangeTreeTerminal s.orders root
  | .findDisputeByOrderId order => s.disputes.find? (·.orderId == order)
  | .disputeById id => s.disputes.find? (·.id == id)

/-! ### Statements on orders -/

/-- The `UPDATE` statements on orders.  `update` is the full-row update of `Crud`; besides the row
it writes it records the row the handler had read. -/
inductive OrderUpdate where
  | update (read row : Order)
  | editPubkeysOrder (id : Uuid) (kind : Kind)
  | updateOrderToInitialState (read : Order) (amount fee devFee : Int)
  | updateOrderInvoiceHeldAtTime (id : Uuid) (heldAt : Int)
  | casPretradeOrderStatus (id : Uuid) (new : Status)
  | casPromoteTakerContext (o : Order)
  | casCompletePretradeTake (o : Order) (allowWaitingBuyerInvoice : Bool)
  | updateOrderCashuEscrow (id : Uuid) (mint token : Nat) (lockedAt : Int) (expected new : Status)
  | claimOrderStatus (id : Uuid) (expected new : Status)
  | claimWaitingTakerBond (id : Uuid)
  | dropWaitingTakerBondToPending (id : Uuid)
  | claimDeferredPublication (id : Uuid)
  | settleFromRelease (id : Uuid)
  | settleFromAdmin (id : Uuid)
  | paymentSuccess (id : Uuid)
  | checkFailureRetries (read : Order) (failedPayment : Bool) (paymentAttempts : Int)
  | payNewInvoice (id : Uuid) (buyerInvoice : Option PaymentRequest)
  | claimOrderPayout (id : Uuid) (hash : Hash) (claimedAt : Int)
  | touchOrderPayoutClaim (id : Uuid) (hash : Hash) (claimedAt : Option Int) (refreshedAt : Int)
  | clearOrderPayout (id : Uuid) (hash : Hash) (claimedAt : Option Int)
  | failOrderPayout (id : Uuid) (hash : Hash) (claimedAt : Option Int)

def OrderUpdate.target : OrderUpdate → Uuid
  | .update _ row => row.id
  | .editPubkeysOrder id _ => id
  | .updateOrderToInitialState read _ _ _ => read.id
  | .updateOrderInvoiceHeldAtTime id _ => id
  | .casPretradeOrderStatus id _ => id
  | .casPromoteTakerContext o => o.id
  | .casCompletePretradeTake o _ => o.id
  | .updateOrderCashuEscrow id _ _ _ _ _ => id
  | .claimOrderStatus id _ _ => id
  | .claimWaitingTakerBond id => id
  | .dropWaitingTakerBondToPending id => id
  | .claimDeferredPublication id => id
  | .settleFromRelease id => id
  | .settleFromAdmin id => id
  | .paymentSuccess id => id
  | .checkFailureRetries read _ _ => read.id
  | .payNewInvoice id _ => id
  | .claimOrderPayout id _ _ => id
  | .touchOrderPayoutClaim id _ _ _ => id
  | .clearOrderPayout id _ _ => id
  | .failOrderPayout id _ _ => id

/-- The rest of the `WHERE` clause, besides the id. -/
def OrderUpdate.guard (s : State) (r : OrderRow) : OrderUpdate → Bool
  | .update _ _ | .editPubkeysOrder _ _ | .updateOrderToInitialState _ _ _ _
  | .updateOrderInvoiceHeldAtTime _ _ | .checkFailureRetries _ _ _ => true
  | .casPretradeOrderStatus _ _ | .casPromoteTakerContext _ =>
      pretradeStatuses.contains r.order.status
  | .casCompletePretradeTake _ allow =>
      pretradeStatuses.contains r.order.status
        || (allow && r.order.status == .waitingBuyerInvoice)
  | .updateOrderCashuEscrow id _ token _ expected _ =>
      r.order.status == expected && r.order.cashuEscrowLockedAt.isNone
        && !(s.orders.any fun o => o.order.cashuEscrowToken == some token && o.order.id != id)
  | .claimOrderStatus _ expected _ =>
      r.order.status == expected && r.order.cashuEscrowLockedAt.isNone
  | .claimWaitingTakerBond _ => r.order.status == .pending
  | .dropWaitingTakerBondToPending id =>
      r.order.status == .waitingTakerBond
        && !(s.bonds.any fun b => b.orderId == id && b.state.isActive && b.role == .taker)
  | .claimDeferredPublication _ => r.order.status == .waitingMakerBond
  | .settleFromRelease _ => [Status.fiatSent,.dispute].contains r.order.status
  | .settleFromAdmin _ => r.order.status == .dispute
  | .paymentSuccess _ => r.order.status == .settledHoldInvoice
  | .payNewInvoice _ _ =>
      r.order.status == .settledHoldInvoice && r.payoutPaymentHash.isNone
  | .claimOrderPayout _ _ _ =>
      r.payoutPaymentHash.isNone && r.order.status == .settledHoldInvoice
  | .touchOrderPayoutClaim _ hash claimedAt _ =>
      r.payoutPaymentHash == some hash && r.payoutClaimedAt == claimedAt
        && r.order.status == .settledHoldInvoice
  | .clearOrderPayout _ hash claimedAt | .failOrderPayout _ hash claimedAt =>
      r.payoutPaymentHash == some hash && r.payoutClaimedAt == claimedAt

/-- The columns `update_order_to_initial_state` sets. -/
def Order.toInitialState (o : Order) (amount fee devFee : Int) : Order :=
  { o with
    status := .pending, amount, fee, devFee, hash := none, preimage := none,
    buyerInvoice := none, takenAt := 0, invoiceHeldAt := 0 }

/-- The `SET` clause. -/
def OrderUpdate.set (r : OrderRow) : OrderUpdate → OrderRow
  | .update _ row => { r with order := row }
  | .editPubkeysOrder _ .buy =>
      { r with order := { r.order with sellerPubkey := none, masterSellerPubkey := none } }
  | .editPubkeysOrder _ .sell =>
      { r with order := { r.order with buyerPubkey := none, masterBuyerPubkey := none } }
  | .updateOrderToInitialState _ amount fee devFee =>
      { r with order := r.order.toInitialState amount fee devFee }
  | .updateOrderInvoiceHeldAtTime _ heldAt =>
      { r with order := { r.order with invoiceHeldAt := heldAt } }
  | .casPretradeOrderStatus _ new => { r with order := { r.order with status := new } }
  | .casPromoteTakerContext o =>
      let base := { r.order with
        fiatAmount := o.fiatAmount, amount := o.amount, fee := o.fee, devFee := o.devFee,
        createdAt := o.createdAt, takenAt := o.takenAt }
      match o.kind with
      | .buy => { r with order := { base with
          sellerPubkey := o.sellerPubkey, masterSellerPubkey := o.masterSellerPubkey,
          tradeIndexSeller := o.tradeIndexSeller } }
      | .sell => { r with order := { base with
          buyerPubkey := o.buyerPubkey, masterBuyerPubkey := o.masterBuyerPubkey,
          tradeIndexBuyer := o.tradeIndexBuyer, buyerInvoice := o.buyerInvoice } }
  | .casCompletePretradeTake o _ =>
      { r with order := { r.order with
          status := o.status, buyerPubkey := o.buyerPubkey, sellerPubkey := o.sellerPubkey,
          masterBuyerPubkey := o.masterBuyerPubkey, masterSellerPubkey := o.masterSellerPubkey,
          tradeIndexBuyer := o.tradeIndexBuyer, tradeIndexSeller := o.tradeIndexSeller,
          fiatAmount := o.fiatAmount, amount := o.amount, fee := o.fee, devFee := o.devFee,
          createdAt := o.createdAt, buyerInvoice := o.buyerInvoice, preimage := o.preimage,
          hash := o.hash, takenAt := o.takenAt } }
  | .updateOrderCashuEscrow _ mint token lockedAt _ new =>
      { r with order := { r.order with
          cashuMintUrl := some mint, cashuEscrowToken := some token,
          cashuEscrowLockedAt := some lockedAt, status := new } }
  | .claimOrderStatus _ _ new => { r with order := { r.order with status := new } }
  | .claimWaitingTakerBond _ => { r with order := { r.order with status := .waitingTakerBond } }
  | .dropWaitingTakerBondToPending _ => { r with order := { r.order with status := .pending } }
  | .claimDeferredPublication _ => { r with order := { r.order with status := .pending } }
  | .settleFromRelease _ | .settleFromAdmin _ =>
      { r with order := { r.order with status := .settledHoldInvoice } }
  | .paymentSuccess _ => { r with order := { r.order with status := .success } }
  | .checkFailureRetries _ failedPayment paymentAttempts =>
      { r with order := { r.order with failedPayment, paymentAttempts } }
  | .payNewInvoice _ buyerInvoice =>
      { r with order := { r.order with buyerInvoice, paymentAttempts := 0 } }
  | .claimOrderPayout _ hash claimedAt =>
      { r with payoutPaymentHash := some hash, payoutClaimedAt := some claimedAt }
  | .touchOrderPayoutClaim _ _ _ refreshedAt => { r with payoutClaimedAt := some refreshedAt }
  | .clearOrderPayout _ _ _ => { r with payoutPaymentHash := none, payoutClaimedAt := none }
  | .failOrderPayout _ _ _ =>
      { order := { r.order with failedPayment := true }, payoutPaymentHash := none,
        payoutClaimedAt := none }

def OrderUpdate.selects (u : OrderUpdate) (s : State) (r : OrderRow) : Bool :=
  r.order.id == u.target && u.guard s r

/-- The statements on orders.  A row gets its id, a new UUID, when it is inserted; the id is the
answer of the insert. -/
inductive OrderStmt where
  | create (o : Order)
  | run (u : OrderUpdate)
  /-- `DELETE FROM orders WHERE id = ? AND status = 'waiting-maker-bond'`. -/
  | deleteStranded (id : Uuid)

/-! ### Statements on bonds -/

/-- The `UPDATE` statements on bonds.  `update` is the full-row update, with the row as read;
`slash` also records the trade it was decided on. -/
inductive BondUpdate where
  | update (read row : Bond)
  | lockTaker (id order : Uuid) (lockedAt : Int)
  | lockMaker (id : Uuid) (lockedAt : Int)
  | slash (id : Uuid) (reason : BondSlashReason) (slashedAt nodeShare : Int) (trade : Order)
  | updateSlashedShare (parent : Uuid)
  | forfeit (id : Uuid) (readSlashedAt : Int)
  | finalizeNodeOnly (id : Uuid)
  | requestPayoutInvoice (id : Uuid) (requestedAt : Int)
  | persistPaymentHash (id : Uuid) (routingFee : Int) (hash : Hash)
  | slashAfterSuccess (id : Uuid)
  | payoutAttempts (id : Uuid) (attempts : Int)
  | rearmInvoiceRequest (id : Uuid)
  | markFailed (id : Uuid)
  | storePayoutInvoice (id : Uuid) (invoice : PaymentRequest)
  | resurrect (id : Uuid) (invoice : PaymentRequest)

def BondUpdate.target : BondUpdate → Uuid
  | .update _ row => row.id
  | .lockTaker id _ _ | .lockMaker id _ | .slash id _ _ _ _ | .updateSlashedShare id
  | .forfeit id _ | .finalizeNodeOnly id | .requestPayoutInvoice id _
  | .persistPaymentHash id _ _ | .slashAfterSuccess id | .payoutAttempts id _
  | .rearmInvoiceRequest id | .markFailed id
  | .storePayoutInvoice id _ | .resurrect id _ => id

def BondUpdate.guard (s : State) (b : Bond) : BondUpdate → Bool
  | .update _ _ => true
  | .lockTaker id order _ =>
      b.state == .requested
        && !(s.bonds.any fun o => o.orderId == order && o.state == .locked && o.role == .taker
          && o.id != id)
  | .lockMaker _ _ => b.state == .requested
  | .slash _ _ _ _ _ | .updateSlashedShare _ => b.state == .locked
  | .forfeit _ _ | .storePayoutInvoice _ _ => b.state == .pendingPayout && b.payoutInvoice.isNone
  | .finalizeNodeOnly _ | .requestPayoutInvoice _ _ | .persistPaymentHash _ _ _
  | .slashAfterSuccess _ | .payoutAttempts _ _ | .rearmInvoiceRequest _ | .markFailed _ =>
      b.state == .pendingPayout
  | .resurrect _ _ => b.state == .failed

/-- `SUM(amount_sats)` over the slice slashes of a parent. -/
def sliceTotal (bonds : List Bond) (parent : Uuid) : Int :=
  ((bonds.filter (·.isSliceOf parent)).map (·.amountSats)).sum

def BondUpdate.set (s : State) (b : Bond) : BondUpdate → Bond
  | .update _ row => { row with createdAt := b.createdAt }
  | .lockTaker _ _ lockedAt | .lockMaker _ lockedAt =>
      { b with state := .locked, lockedAt := some lockedAt }
  | .slash _ reason slashedAt nodeShare _ =>
      { b with state := .pendingPayout, slashedReason := some reason,
               slashedAt := some slashedAt, nodeShareSats := some nodeShare }
  | .updateSlashedShare parent => { b with slashedShareSats := sliceTotal s.bonds parent }
  | .forfeit _ _ => { b with state := .forfeited }
  | .finalizeNodeOnly _ | .slashAfterSuccess _ => { b with state := .slashed }
  | .requestPayoutInvoice _ requestedAt =>
      { b with invoiceRequestAttempts := b.invoiceRequestAttempts + 1,
               lastInvoiceRequestAt := some requestedAt }
  | .persistPaymentHash _ routingFee hash =>
      { b with payoutRoutingFeeSats := some routingFee, payoutPaymentHash := some hash }
  | .payoutAttempts _ attempts => { b with payoutAttempts := attempts }
  | .rearmInvoiceRequest _ =>
      { b with payoutInvoice := none, payoutRoutingFeeSats := none, payoutPaymentHash := none,
               payoutAttempts := 0, lastInvoiceRequestAt := none }
  | .markFailed _ => { b with state := .failed }
  | .storePayoutInvoice _ invoice =>
      { b with payoutInvoice := some invoice, invoiceRequestAttempts := 0 }
  | .resurrect _ invoice =>
      { b with state := .pendingPayout, payoutInvoice := some invoice, payoutAttempts := 0,
               invoiceRequestAttempts := 0, payoutPaymentHash := none }

def BondUpdate.selects (u : BondUpdate) (s : State) (b : Bond) : Bool :=
  b.id == u.target && u.guard s b

/-- The values of a slice-slash `INSERT`, with the parent row as the handler had read it. -/
structure SliceSlash where
  slice : Order
  parent : Bond
  pubkey : Pubkey
  maxFiat : Int
  amountSats : Int
  nodeShare : Int
  reason : BondSlashReason
  at_ : Int

structure RangeClose where
  parent : Bond
  root : Uuid
  anchorChildren : Bool
  reason : BondSlashReason
  at_ : Int

inductive BondStmt where
  | create (b : Bond)
  | run (u : BondUpdate)
  | insertSliceSlash (v : SliceSlash)
  | closeRange (v : RangeClose)

inductive DisputeStmt where
  | create (d : Dispute)
  | update (d : Dispute)

/-! ### Calls to the node -/

inductive LndCall where
  | connect
  | createHoldInvoice (memo : HoldMemo) (amount : Int)
  | cancelHoldInvoice (hash : Hash)
  | settleHoldInvoice (preimage : Hash)
  | holdInvoiceExpiryHeight (hash : Hash)
  | chainHeight
  | subscribeInvoice (hash : Hash)
  | invoiceUpdate (hash : Hash)
  | sendPaymentV2 (payee : Payee) (hash : Hash) (stamp : Int)
  | paymentUpdate (attempt : Nat)
  | lookupPaymentStatus (hash : Hash)

/-- How a send ends when the request itself did not fail: with the stream of an attempt, or with
no answer inside `PAYOUT_SEND_PAYMENT_TIMEOUT`. -/
inductive SendReply where
  | stream (attempt : Nat)
  | timedOut
  deriving DecidableEq, Repr

inductive StreamOutcome where
  | succeeded
  | failed
  | ended
  deriving DecidableEq, Repr

@[reducible] def LndCall.Out : LndCall → Type
  | .connect | .cancelHoldInvoice _ | .settleHoldInvoice _ | .subscribeInvoice _ => Unit
  | .createHoldInvoice _ _ => Hash
  | .holdInvoiceExpiryHeight _ => Option Int
  | .chainHeight => Int
  | .invoiceUpdate _ => HoldState
  | .sendPaymentV2 _ _ _ => SendReply
  | .paymentUpdate _ => StreamOutcome
  | .lookupPaymentStatus _ => Option PaymentStatus

inductive Check where
  | takerReputation
  | validateInvoice (request : Option PaymentRequest) (amount fee : Int)
  | validatePayoutInvoice (request : PaymentRequest)
  | disputePermission (order : Uuid)
  | disputeEvent
  | orderTags
  | sendDm
  | updateUserTradeIndex
  | verifyEscrowToken
  deriving DecidableEq, Repr

/-! ### Operations -/

inductive Op where
  | query (q : Query)
  | order (st : OrderStmt)
  | bond (st : BondStmt)
  | dispute (st : DisputeStmt)
  | lnd (c : LndCall)
  | timestamp
  | updateOrderEvent (id : Uuid) (status : Status)
  | check (c : Check)
  | resolvLnAddress (request : PaymentRequest) (amount : Int)
  | askBondInvoice (row : Uuid) (recipient : Pubkey)
  | marketAmountAndFee (fiatAmount : Int)
  | spawn (d : Dispatch)

@[reducible] def Op.Out : Op → Type
  | .query q => q.Out
  | .order _ | .bond _ | .dispute _ => Nat
  | .lnd c => c.Out
  | .timestamp => Int
  | .updateOrderEvent _ _ | .check _ | .askBondInvoice _ _ | .spawn _ => Unit
  | .resolvLnAddress _ _ => Option PaymentRequest
  | .marketAmountAndFee _ => Int × Int

abbrev Op.Res (op : Op) : Type := Except MostroError op.Out

/-- How the environment lets an operation go: it is carried out and answered, it fails without
effect, it is carried out and the answer is lost, or it takes the alternative named by a number
(a quote, a resolved request, a send that times out before or after it reached the node). -/
inductive Choice where
  | ok
  | fault
  | lost
  | pick (n : Nat)
  deriving DecidableEq, Repr

/-- Code outside the repository that the model takes as given: the BOLT11 decoder, the address
forms a payout may name, the order helpers of `mostro-core`, the fee formulas, and the node's
error texts. -/
structure Externals where
  decodeInvoice : PaymentRequest → Option (Hash × Option Int)
  isAddress : PaymentRequest → Bool
  setupDispute : Order → Bool → Option Order
  countFailedPayment : Order → Int → Order
  fullPrivacyKeys : Order → Option (Option Pubkey × Option Pubkey)
  fee : ℚ
  devFeePercentage : ℚ
  maxRoutingFee : ℚ
  texts : LndTexts

def Externals.getFee (ext : Externals) (amount : Int) : Int :=
  Binary64.toI64 (Binary64.round (Binary64.div (Binary64.mul ext.fee amount) 2))

def calculateDevFee (totalMostroFee : Int) (percentage : ℚ) : Int :=
  Binary64.toI64 (Binary64.round (Binary64.mul totalMostroFee percentage))

def Externals.getDevFee (ext : Externals) (totalMostroFee : Int) : Int :=
  calculateDevFee totalMostroFee ext.devFeePercentage

def Externals.routingFeeCap (ext : Externals) (amount : Int) : Int :=
  Binary64.trunc (if amount ≤ 1000 then max (Binary64.mul amount (1 / 100)) 10
    else Binary64.mul amount ext.maxRoutingFee)

namespace State

def setHold (s : State) (h : Hash) (f : Hold → Hold) : State :=
  { s with holds := updateWhere (·.hash == h) f s.holds }

def moveHold (s : State) (h : Hash) (state : HoldState) : State :=
  s.setHold h fun i => { i with state }

def holdState (s : State) (h : Hash) : Option HoldState := (s.hold? h).map (·.state)

def capture (s : State) (h : Hash) : State :=
  { s.moveHold h .settled with captures := ⟨h,s.now,s.orders.map (·.order)⟩ :: s.captures }

def latestPayment (s : State) (h : Hash) : Option Payment := s.payments.find? (·.hash == h)

def sendRefused (s : State) (h : Hash) : Bool :=
  s.payments.any fun p => p.hash == h && (p.status == .inFlight || p.status == .succeeded)

def register (s : State) (payee : Payee) (h : Hash) : State :=
  { s with payments := ⟨s.nextId,h,payee,.inFlight⟩ :: s.payments, nextId := s.nextId + 1 }

def claimNumber (s : State) (order : Uuid) (task : Nat) : Nat :=
  ((s.claims.find? fun c => c.order == order && c.task == task).map (·.number)).getD 0

end State

end Mostro
