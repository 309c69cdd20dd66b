import Mostro.BondSlash

set_option autoImplicit false

/-!
The buyer's payout: `do_payment` and the task it spawns, the retries and the reconciliation of
payouts in flight (`app/release.rs` and two jobs of `scheduler.rs`).
-/

namespace Mostro

open Interleaving

section

variable (cfg : Settings) (ext : Externals)

def checkFailureRetries (order : Order) : M Unit := do
  let counted := ext.countFailedPayment order cfg.paymentAttempts
  let _ ← require counted.buyerPubkey .invalidPubkey
  -- the amount is only looked at when the buyer is asked for a new invoice
  ensure (order.paymentAttempts == 0 || counted.paymentAttempts < cfg.paymentAttempts
    || 0 < counted.amount - counted.fee) (.cantDo .invalidAmount)
  let _ ← runOrder
    (.checkFailureRetries order counted.failedPayment counted.paymentAttempts)
  pure ()

def payoutAmount (order : Order) : Int := max (order.amount - order.fee) 0

/-- The invoice to pay: the stored one, or the one its address resolves to.  An address that
yields no usable invoice is a failed payment. -/
def resolvePayout (order : Order) (request : PaymentRequest) : M PaymentRequest :=
  if ext.isAddress request then do
    let resolved : Except MostroError (Option PaymentRequest) ←
      (ask (.resolvLnAddress request (payoutAmount order))).attempt
    match resolved with
    | .ok (some pr) =>
      if (ext.decodeInvoice pr).isSome then do
        match ← (check (.validatePayoutInvoice pr)).attempt with
        | .ok _ => pure pr
        | .error e => do
          (checkFailureRetries cfg ext order).ignore
          .fail e
      else do
        (checkFailureRetries cfg ext order).ignore
        .fail .lnAddressParse
    | _ => do
      (checkFailureRetries cfg ext order).ignore
      .fail .lnAddressParse
  else pure request

def doPayment (order : Order) : M Unit := do
  let request ← require order.buyerInvoice .invoiceInvalid
  ensure (payoutAmount order != 0) .invoiceInvalid
  let request ← resolvePayout cfg ext order request
  let _ ← require order.buyerPubkey .invalidPubkey
  lnd .connect
  let decoded ← require (ext.decodeInvoice request) .invoiceInvalid
  let now ← timestamp
  let claimed ← runOrder (.claimOrderPayout order.id decoded.1 now)
  if claimed = 0 then pure ()
  else ask (.spawn
    { order, paymentRequest := request, amount := payoutAmount order, payoutHash := decoded.1,
      payoutClaimedAt := now })

/-- `payment_success`, with whether the order is now final. -/
def paymentSuccess (order : Order) : M Bool := do
  match ← (updateOrderEvent .success order).attempt with
  | .error _ => pure false
  | .ok _ => do
    let _ ← runOrder (.paymentSuccess order.id)
    pure true

def finalizePayout (order : Order) (hash : Hash) (claimedAt : Option Int) : M Unit := do
  match ← (paymentSuccess order).attempt with
  | .ok true => do
    let _ ← runOrder (.clearOrderPayout order.id hash claimedAt)
    pure ()
  | _ => pure ()

def failPayout (id : Uuid) (pre : Option Order) (hash : Hash) (claimedAt : Option Int) :
    M Unit := do
  let owned ← runOrder (.failOrderPayout id hash claimedAt)
  match pre with
  | some order => if owned = 0 then pure () else (checkFailureRetries cfg ext order).ignore
  | none => pure ()

def touchClaim (d : Dispatch) : M (Option Int) := do
  let now ← timestamp
  let touched ← runOrder
    (.touchOrderPayoutClaim d.order.id d.payoutHash (some d.payoutClaimedAt) now)
  pure (if touched = 0 then none else some now)

/-- The send of a validated claim, the watcher on its stream, and what `classify_dispatch` makes
of a send that failed. -/
def sendPayout (d : Dispatch) : M Unit := do
  match ← (lnd (.sendPaymentV2 (.buyer d.order.id) d.payoutHash d.payoutClaimedAt)).attempt with
  | .ok (.stream attempt) => do
    match ← lnd (.paymentUpdate attempt) with
    | .succeeded => (finalizePayout d.order d.payoutHash (some d.payoutClaimedAt)).ignore
    | .failed =>
      (failPayout cfg ext d.order.id (some d.order) d.payoutHash (some d.payoutClaimedAt)).ignore
    | .ended => pure ()
  | .ok .timedOut => pure ()
  | .error _ => do
    match ← (lnd (.lookupPaymentStatus d.payoutHash)).attempt with
    | .ok (some .inFlight) | .ok (some .succeeded) | .error _ => pure ()
    | .ok _ =>
      (failPayout cfg ext d.order.id (some d.order) d.payoutHash (some d.payoutClaimedAt)).ignore

/-- The task `do_payment` spawns: `beats` heartbeats while it is queued, the last validation of
its claim, and the send. -/
def dispatchPayout : Nat → Dispatch → M Unit
  | 0, d => do
    match ← (touchClaim d).attempt with
    | .ok (some refreshedAt) => sendPayout cfg ext { d with payoutClaimedAt := refreshedAt }
    | _ => pure ()
  | beats + 1, d => do
    match ← (touchClaim d).attempt with
    | .ok (some refreshedAt) => dispatchPayout beats { d with payoutClaimedAt := refreshedAt }
    | _ => pure ()

def reconcileInflightPayout (id : Uuid) (hash : Hash) (claimedAt : Option Int) : M Unit := do
  match ← (lnd (.lookupPaymentStatus hash)).attempt with
  | .ok (some .succeeded) => do
    let order : Except MostroError (Option Order) ← (query (.orderById id)).attempt
    match order with
    | .ok (some order) =>
      if order.buyerPubkey.isSome then finalizePayout order hash claimedAt else pure ()
    | _ => pure ()
  | .ok (some .inFlight) | .error _ => pure ()
  | .ok _ => do
    let pre : Except MostroError (Option Order) ← (query (.orderById id)).attempt
    failPayout cfg ext id (pre.toOption.bind fun o => o) hash claimedAt

def graceSecs : Int := max cfg.paymentRetriesInterval 30

def jobReconcileInflightPayouts : M Unit := do
  let now ← timestamp
  let inflight : List (Uuid × Hash × Option Int) ←
    query (.findInflightPayouts (now - graceSecs cfg))
  Prog.forEach inflight fun p => (reconcileInflightPayout cfg ext p.1 p.2.1 p.2.2).ignore

def jobRetryFailedPayments : M Unit := do
  let failed : List Order ← query .findFailedPayment
  Prog.forEach failed fun order =>
    if order.paymentAttempts < cfg.paymentAttempts then (doPayment cfg ext order).ignore
    else pure ()

end

end Mostro
