import Mostro.BondPayout
import Mostro.TradeActions

set_option autoImplicit false

/-!
The callbacks of an escrow's invoice subscription (`flow.rs`) and the scheduler jobs that move
orders (`scheduler.rs`).  A job is one pass of its loop.
-/

namespace Mostro

open Interleaving

def findOrderByHash (hash : Hash) : M Order := do
  let found : Option Order ← query (.findOrderByHash hash)
  require found .dbAccess

def holdInvoicePaid (hash : Hash) : M Unit := do
  let order ← findOrderByHash hash
  if [Status.waitingPayment,.waitingBuyerInvoice].contains order.status
      && order.invoiceHeldAt == 0 then do
    let _ ← require order.buyerPubkey .nostr
    let _ ← require order.sellerPubkey .nostr
    let advanced : Order × Status ←
      if order.buyerInvoice.isSome then pure (order,Status.active)
      else do
        let order ← setTimestampNow order
        check .takerReputation
        pure (order,Status.waitingBuyerInvoice)
    match ← (updateOrderEvent advanced.2 advanced.1).attempt with
    | .ok updated => (updateOrder order updated).ignore
    | .error _ => pure ()
    let now ← timestamp
    let _ ← runOrder (.updateOrderInvoiceHeldAtTime order.id now)
    pure ()
  else pure ()

def holdInvoiceCanceled (cfg : Settings) (hash : Hash) : M Unit := do
  let order ← findOrderByHash hash
  let now ← timestamp
  let deadline := escrowActionDeadlineUnix order.invoiceHeldAt cfg.holdInvoiceCltvDelta
    cfg.escrowDeadlineMarginBlocks
  if order.status = .active ∧ deadline.any (fun d => decide (d ≤ now)) then do
    match ← (updateOrderEvent .canceled order).attempt with
    | .ok updated => updateOrder order updated
    | .error _ => pure ()
  else pure ()

def escrowInvoiceMessage (cfg : Settings) (hash : Hash) : M Unit := do
  match ← lnd (.invoiceUpdate hash) with
  | .accepted => holdInvoicePaid hash
  | .canceled => holdInvoiceCanceled cfg hash
  | .settled | .opened => pure ()

/-! ### Waiting timeouts -/

def reconfirmTimeoutEligibility (cfg : Settings) (id : Uuid) : M (Option Order) := do
  let found : Except MostroError (Option Order) ← (query (.orderById id)).attempt
  let now ← timestamp
  pure ((found.toOption.bind fun o => o).filter fun o =>
    [Status.waitingBuyerInvoice,.waitingPayment].contains o.status
      && decide (o.takenAt < now - cfg.expirationSeconds))

def Order.resetForTimeout (o : Order) : Order :=
  if o.priceFromApi then { o with devFee := 0, amount := 0, fee := 0 } else { o with devFee := 0 }

def republishOnTimeout (order : Order) : M Unit := do
  let reset : Except MostroError Nat ← (runOrder
    (.updateOrderToInitialState order order.amount order.fee order.devFee)).attempt
  -- the row as this pass knows it once the reset has been tried
  let known := match reset with
    | .ok _ => order.toInitialState order.amount order.fee order.devFee
    | .error _ => order
  let edited ← editPubkeysOrder order
  let orderUpdated ← updateOrderEvent .pending edited
  updateOrder known orderUpdated

def cancelOnTimeout (order : Order) : M Unit := do
  let edited ← editPubkeysOrder order
  let orderUpdated ← updateOrderEvent .canceled edited
  updateOrder order orderUpdated
  resolveRangeMakerBondAtCloseOrWarn order

def cancelLateOrder (cfg : Settings) (id : Uuid) : M Unit := do
  match ← reconfirmTimeoutEligibility cfg id with
  | none => pure ()
  | some order => do
    cancelEscrow order
    let order := order.resetForTimeout
    slashOrReleaseOnTimeout cfg order
    if orderRepublishesOnTimeout order then republishOnTimeout order else cancelOnTimeout order

def jobCancelOrders (cfg : Settings) : M Unit := do
  let now ← timestamp
  let late : List Order ← query (.findOrderBySeconds (now - cfg.expirationSeconds))
  Prog.forEach late fun order => (cancelLateOrder cfg order.id).ignore

/-! ### The escrow deadline -/

/-- `(due, escrow_gone)`. -/
def escrowDue (cfg : Settings) (now : Int) (chainHeight : Option Int) (order : Order)
    (hash : Hash) : M (Bool × Bool) := do
  let fallback := ((escrowActionDeadlineUnix order.invoiceHeldAt cfg.holdInvoiceCltvDelta
    cfg.escrowDeadlineMarginBlocks).any fun d => decide (d ≤ now),false)
  match chainHeight with
  | none => pure fallback
  | some chain => do
    let expiry : Except MostroError (Option Int) ←
      (lnd (.holdInvoiceExpiryHeight hash)).attempt
    match expiry with
    | .ok (some expiry) =>
      pure (decide (expiry ≤ chain + cfg.escrowDeadlineMarginBlocks),decide (expiry ≤ chain))
    | .ok none => pure (true,true)
    | .error _ => pure fallback

def cancelAtDeadline (order : Order) (hash : Hash) (escrowGone : Bool) : M Unit := do
  match ← (lnd (.cancelHoldInvoice hash)).attempt with
  | .ok _ => pure ()
  | .error e => ensure (e.cancelOutcome == .alreadyDone || escrowGone) e
  let updated ← updateOrderEvent .canceled order
  updateOrder order updated
  resolveRangeMakerBondAtCloseOrWarn order

/-- The dispute row of an order whose escrow is about to expire: the live one, the old one
reopened, or a new one. -/
def openDeadlineDispute (order : Order) : M Unit := do
  let found : Except MostroError (Option Dispute) ←
    (query (.findDisputeByOrderId order.id)).attempt
  match found with
  | .ok (some d) =>
    if d.status = .initiated ∨ d.status = .inProgress then pure ()
    else do
      let _ ← ask (.dispute (.update
        { d with status := .initiated, solverPubkey := none, takenAt := 0 }))
      pure ()
  | _ => do
    let now ← timestamp
    let _ ← ask (.dispute (.create
      { id := 0, orderId := order.id, status := .initiated, createdAt := now }))
    pure ()

/-- The guardian on an order whose fiat is said to be sent: it opens a dispute and keeps the
escrow. -/
def disputeAtDeadline (ext : Externals) (order : Order) : M Unit := do
  openDeadlineDispute order
  let disputed ← require (if order.buyerDispute then some { order with status := .dispute }
    else ext.setupDispute order true) .unexpected
  updateOrder order disputed

def enforceDeadline (cfg : Settings) (ext : Externals) (now : Int) (chainHeight : Option Int)
    (order : Order) : M Unit :=
  match order.hash with
  | none => pure ()
  | some hash => do
    let due : Bool × Bool ← escrowDue cfg now chainHeight order hash
    if !due.1 then pure ()
    else match order.status with
      | .active => cancelAtDeadline order hash due.2
      | .fiatSent => disputeAtDeadline ext order
      | _ => pure ()

def enforceEscrowDeadlinePass (cfg : Settings) (ext : Externals) : M Unit := do
  let now ← timestamp
  let window := escrowGuardWindowSecs cfg.holdInvoiceCltvDelta cfg.escrowDeadlineMarginBlocks
  let dueOrders : List Order ← query (.findEscrowDeadlineOrders (now - window / 2))
  let chainHeight : Except MostroError Int ← (lnd .chainHeight).attempt
  Prog.forEach dueOrders fun order =>
    (enforceDeadline cfg ext now chainHeight.toOption order).ignore

def expireOrder (cfg : Settings) (order : Order) : M Unit :=
  if order.status = .waitingMakerBond then do
    updateOrder order { order with status := .expired }
    Prog.when (!cfg.cashu) (releaseBondsForOrderOrWarn order.id)
  else do
    let orderUpdated ← updateOrderEvent .expired order
    updateOrder order orderUpdated
    Prog.when (!cfg.cashu) do
      releaseTakerBondsForOrderOrWarn order.id
      resolveRangeMakerBondAtCloseOrWarn orderUpdated

def jobExpirePendingOlderOrders (cfg : Settings) : M Unit := do
  let now ← timestamp
  let older : List Order ← query (.findOrderByDate now)
  Prog.forEach older fun order => (expireOrder cfg order).ignore

end Mostro
