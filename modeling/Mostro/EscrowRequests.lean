import Mostro.Operations

set_option autoImplicit false

/-!
The handlers' monad, and the steps of `util.rs` that several handlers share: publishing an order
event, asking the seller for the escrow, and settling it.
-/

namespace Mostro

open Interleaving

abbrev M := Prog Op Op.Res MostroError

/-- One operation whose error ends the handler, the source's `?`. -/
def ask (op : Op) : M op.Out :=
  .call op fun r => match r with
    | .ok a => .ret a
    | .error e => .fail e

def query (q : Query) : M q.Out := ask (.query q)

def lnd (c : LndCall) : M c.Out := ask (.lnd c)

/-- An `UPDATE` on orders, with the number of rows it affected. -/
def runOrder (u : OrderUpdate) : M Nat := ask (.order (.run u))

def runBond (u : BondUpdate) : M Nat := ask (.bond (.run u))

def execBond (st : BondStmt) : M Nat := ask (.bond st)

def execOrder (st : OrderStmt) : M Nat := ask (.order st)

def timestamp : M Int := ask .timestamp

def check (c : Check) : M Unit := ask (.check c)

/-- `Crud::update` on an order: the row known to the handler and the row it writes. -/
def updateOrder (read row : Order) : M Unit := (runOrder (.update read row)).bind fun _ => .ret ()

def updateBond (read row : Bond) : M Unit := (runBond (.update read row)).bind fun _ => .ret ()

def requireOrder (id : Uuid) (e : MostroError) : M Order :=
  (query (.orderById id)).bind fun o => match o with
    | some o => .ret o
    | none => .fail e

def getOrder (id : Uuid) : M Order := requireOrder id (.cantDo .notFound)

def require {α : Type} (v : Option α) (e : MostroError) : M α :=
  match v with
  | some a => .ret a
  | none => .fail e

def ensure (c : Bool) (e : MostroError) : M Unit := if c then .ret () else .fail e

/-- `update_order_event`: publishes the order under a status and returns the order with it. -/
def updateOrderEvent (status : Status) (o : Order) : M Order :=
  (ask (.updateOrderEvent o.id status)).bind fun _ => .ret { o with status }

def setTimestampNow (o : Order) : M Order :=
  timestamp.bind fun now => .ret { o with takenAt := now }

def republishWinningStateAfterCasMiss (id : Uuid) : M Unit := do
  match ← (query (.orderById id)).attempt with
  | .ok (some current) => (updateOrderEvent current.status current).ignore
  | _ => pure ()

inductive HoldInvoiceOrigin where
  | take
  | buyerInvoice
  deriving DecidableEq, Repr

def HoldInvoiceOrigin.allowsWaitingBuyerInvoice (o : HoldInvoiceOrigin) : Bool :=
  o == .buyerInvoice

/-- `invoice_subscribe`, `bond_invoice_subscribe`: only the connection can fail here; what the
subscription delivers later starts the callbacks. -/
def invoiceSubscribe (hash : Hash) : M Unit := lnd (.subscribeInvoice hash)

def showHoldInvoice (paymentRequest : Option PaymentRequest) (buyerPubkey sellerPubkey : Pubkey)
    (order : Order) (origin : HoldInvoiceOrigin) : M Unit := do
  lnd .connect
  let hash ← lnd (.createHoldInvoice (.escrow order.id) (order.amount + order.fee))
  let order ← setTimestampNow { order with
    buyerInvoice := paymentRequest.or order.buyerInvoice
    preimage := some hash
    hash := some hash
    status := .waitingPayment }
  let order := { order with
    buyerPubkey := some buyerPubkey
    sellerPubkey := some sellerPubkey }
  let orderUpdated ← updateOrderEvent .waitingPayment order
  let won ← runOrder (.casCompletePretradeTake orderUpdated origin.allowsWaitingBuyerInvoice)
  if won = 0 then
    (lnd (.cancelHoldInvoice hash)).ignore
    republishWinningStateAfterCasMiss order.id
    .fail (.cantDo .notAllowedByStatus)
  else
    (invoiceSubscribe hash).ignore

def showCashuEscrowRequest (buyerPubkey sellerPubkey : Pubkey) (order : Order) : M Unit := do
  let claimed ← runOrder (.claimOrderStatus order.id .pending .waitingPayment)
  ensure (claimed != 0) (.cantDo .notAllowedByStatus)
  -- the row the claim left, as far as this handler knows
  let claimedOrder := { order with status := .waitingPayment }
  let orderUpdated ← updateOrderEvent .waitingPayment { claimedOrder with
    buyerPubkey := some buyerPubkey
    sellerPubkey := some sellerPubkey }
  updateOrder claimedOrder orderUpdated

/-- `set_waiting_invoice_status`: it only notifies, and fails when the order names no seller. -/
def setWaitingInvoiceStatus (order : Order) : M Unit :=
  (require order.sellerPubkey .updateOrderStatus).bind fun _ => .ret ()

def settleSellerHoldInvoice (sender : Pubkey) (isAdmin : Bool) (order : Order) : M Unit := do
  let seller ← require order.sellerPubkey (.cantDo .invalidPubkey)
  ensure (isAdmin || sender == seller) (.cantDo .invalidPubkey)
  let preimage ← require order.preimage (.cantDo .invalidInvoice)
  lnd (.settleHoldInvoice preimage)

def escrowGuardWindowSecs (cltvDelta margin : Int) : Int :=
  (cltvDelta - if margin ≥ cltvDelta then cltvDelta / 2 else margin) * 600

def escrowActionDeadlineUnix (invoiceHeldAt cltvDelta margin : Int) : Option Int :=
  if invoiceHeldAt = 0 then none else some (invoiceHeldAt + escrowGuardWindowSecs cltvDelta margin)

def Order.isRangeOrder (o : Order) : Bool := o.minAmount.isSome && o.maxAmount.isSome

def getFiatAmountRequested (o : Order) (requested : Option Int) : Option Int :=
  match o.minAmount, o.maxAmount, requested with
  | some low, some high, some n => if low ≤ n ∧ n ≤ high then some n else none
  | some _, some _, none => none
  | _, _, _ => some o.fiatAmount

end Mostro
