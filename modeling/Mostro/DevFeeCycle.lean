import Mostro.InterleavedPrograms
import Mostro.SqlTables
import Mostro.TradeData

set_option autoImplicit false

/-!
The payment of the development fee: the four phases of `run_dev_fee_cycle` over the fee columns of
the orders, next to a node that pays the invoices.  One job runs the cycle over and over; between
two of its statements orders may appear and move on, payments may make progress, and the daemon may
crash.
-/

namespace Mostro.DevFee

open Interleaving SqlTable

/-- A `PENDING-…` marker; those of older versions carry no time. -/
structure PendingMarker where
  uuid : Nat
  stamp : Option Nat
  deriving DecidableEq, Repr

/-- What `dev_fee_payment_hash` holds when it is not `NULL`. -/
inductive FeeHash where
  | empty
  | pending (marker : PendingMarker)
  | hash (h : Hash)
  deriving DecidableEq, Repr

structure FeeRow where
  id : Uuid
  status : Status
  devFee : Int
  devFeePaid : Bool := false
  devFeePaymentHash : Option FeeHash := none
  deriving DecidableEq, Repr

def FeeRow.isEligible (r : FeeRow) : Bool :=
  (r.status == .settledHoldInvoice || r.status == .success) && 0 < r.devFee

def FeeRow.hasRealHash (r : FeeRow) : Bool :=
  match r.devFeePaymentHash with
  | some (.hash _) => true
  | _ => false

def FeeRow.isUnclaimed (r : FeeRow) : Bool :=
  r.devFeePaymentHash == none || r.devFeePaymentHash == some .empty

inductive AttemptStatus where
  | transit
  | inFlight
  | succeeded
  | failed
  deriving DecidableEq, Repr

structure Attempt where
  order : Uuid
  hash : Hash
  status : AttemptStatus
  deriving DecidableEq, Repr

def Attempt.isLive (a : Attempt) : Bool := a.status != .failed

structure FeeState where
  now : Nat
  rows : List FeeRow
  attempts : List Attempt := []
  confirmed : List Uuid := []
  nextUuid : Nat := 0

def FeeState.settled (s : FeeState) (h : Hash) : Bool :=
  s.attempts.any fun a => a.hash == h && a.status == .succeeded

def FeeState.live (s : FeeState) (h : Hash) : Bool :=
  s.attempts.any fun a => a.hash == h && a.isLive

inductive FeeQuery where
  | pendingMarkers
  | confirmedOrders
  | partialPayments
  | unpaidDevFees
  deriving DecidableEq, Repr

def FeeQuery.selects (r : FeeRow) : FeeQuery → Bool
  | .pendingMarkers => match r.devFeePaymentHash with
    | some (.pending _) => true
    | _ => false
  | .confirmedOrders => r.devFeePaid && (r.hasRealHash || r.devFeePaymentHash == some .empty)
      && (r.status == .settledHoldInvoice || r.status == .success)
  | .partialPayments => r.isEligible && !r.devFeePaid && r.hasRealHash
  | .unpaidDevFees => r.isEligible && !r.devFeePaid && r.isUnclaimed

def FeeQuery.run (s : FeeState) (q : FeeQuery) : List FeeRow := s.rows.filter fun r => q.selects r

inductive FeeUpdate where
  | resetStale (id : Uuid) (marker : FeeHash)
  | markPaid (id : Uuid) (hash : FeeHash)
  | clearFailed (id : Uuid) (hash : FeeHash)
  | tryClaimOrderForDevFee (id : Uuid) (marker : PendingMarker)
  | releasePendingClaim (id : Uuid) (marker : PendingMarker)
  | storeHash (id : Uuid) (hash : Hash) (marker : PendingMarker)
  | paymentSuccess (id : Uuid) (hash : Hash)
  | paymentFailure (id : Uuid)
  | resetAfterTimeout (id : Uuid) (hash : FeeHash)
  deriving DecidableEq, Repr

def FeeUpdate.id : FeeUpdate → Uuid
  | .resetStale id _ | .markPaid id _ | .clearFailed id _ | .tryClaimOrderForDevFee id _
  | .releasePendingClaim id _ | .storeHash id _ _ | .paymentSuccess id _ | .paymentFailure id
  | .resetAfterTimeout id _ => id

/-- The `WHERE` clause next to the id. -/
def FeeUpdate.guard (r : FeeRow) : FeeUpdate → Bool
  | .resetStale _ marker => r.devFeePaymentHash == some marker
  | .markPaid _ hash | .clearFailed _ hash | .resetAfterTimeout _ hash =>
    !r.devFeePaid && r.devFeePaymentHash == some hash
  | .tryClaimOrderForDevFee _ _ => r.isEligible && !r.devFeePaid && r.isUnclaimed
  | .releasePendingClaim _ marker => r.devFeePaymentHash == some (.pending marker)
  | .storeHash _ _ marker => !r.devFeePaid && r.devFeePaymentHash == some (.pending marker)
  | .paymentSuccess _ _ | .paymentFailure _ => !r.devFeePaid

def FeeUpdate.set (r : FeeRow) : FeeUpdate → FeeRow
  | .resetStale _ _ | .resetAfterTimeout _ _ =>
    { r with devFeePaid := false, devFeePaymentHash := none }
  | .markPaid _ _ => { r with devFeePaid := true }
  | .clearFailed _ _ | .releasePendingClaim _ _ => { r with devFeePaymentHash := none }
  | .tryClaimOrderForDevFee _ marker => { r with devFeePaymentHash := some (.pending marker) }
  | .storeHash _ hash _ => { r with devFeePaymentHash := some (.hash hash) }
  | .paymentSuccess _ hash => { r with devFeePaid := true, devFeePaymentHash := some (.hash hash) }
  | .paymentFailure _ => { r with devFeePaid := false }

def FeeUpdate.selects (u : FeeUpdate) (r : FeeRow) : Bool := r.id == u.id && u.guard r

inductive DevFeePaymentState where
  | succeeded
  | inFlight
  | failed
  | unknown
  deriving DecidableEq, Repr

inductive SendResult where
  | sent
  | succeeded (hash : Hash)
  | error
  | timeout
  deriving DecidableEq, Repr

inductive FeeOp where
  | timestamp
  | newUuid
  | select (q : FeeQuery)
  | orderById (id : Uuid)
  | isPaid (id : Uuid)
  | update (u : FeeUpdate)
  | isConfirmed (id : Uuid)
  | confirm (id : Uuid)
  | resolveInvoice (order : FeeRow)
  | sendPayment (order : Uuid) (hash : Hash)
  | awaitPayment (hash : Hash)
  | checkPaymentStatus (hash : Hash)
  | publishAuditEvent (id : Uuid) (hash : FeeHash)
  deriving DecidableEq

/-- Statements and requests that fail are answered by `none`. -/
@[reducible] def FeeOp.Res : FeeOp → Type
  | .timestamp | .newUuid => Nat
  | .select _ => Option (List FeeRow)
  | .orderById _ => Option FeeRow
  | .isPaid _ => Option Bool
  | .update _ => Option Nat
  | .isConfirmed _ => Bool
  | .confirm _ | .publishAuditEvent _ _ => Unit
  | .resolveInvoice _ => Option Hash
  | .sendPayment _ _ | .awaitPayment _ => SendResult
  | .checkPaymentStatus _ => DevFeePaymentState

inductive FeeChoice where
  | ok
  | fault
  | lost
  | timeout
  | invoice (h : Hash)
  | report (status : DevFeePaymentState)
  deriving DecidableEq, Repr

/-- The node reports a payment as succeeded only once it settled, and as failed only when it can no
longer settle. -/
def FeeState.report (s : FeeState) (h : Hash) : FeeChoice → DevFeePaymentState
  | .report .succeeded => if s.settled h then .succeeded else .unknown
  | .report .failed => if s.live h then .unknown else .failed
  | .report status => status
  | _ => .unknown

def exec (op : FeeOp) (ch : FeeChoice) (s : FeeState) : FeeState × op.Res :=
  match op with
  | .timestamp => (s,s.now)
  | .newUuid => ({ s with nextUuid := s.nextUuid + 1 },s.nextUuid)
  | .select q => (s,if ch = .ok then some (q.run s) else none)
  | .orderById id => (s,if ch = .ok then s.rows.find? fun r => r.id == id else none)
  | .isPaid id =>
    (s,if ch = .ok then (s.rows.find? fun r => r.id == id).map FeeRow.devFeePaid else none)
  | .update u =>
    if ch = .fault then (s,none)
    else
      ({ s with rows := updateWhere u.selects (fun r => u.set r) s.rows },
        if ch = .lost then none else some (affected u.selects s.rows))
  | .isConfirmed id => (s,s.confirmed.contains id)
  | .confirm id => ({ s with confirmed := id :: s.confirmed },())
  | .resolveInvoice _ =>
    (s,match ch with
        | .invoice h => some h
        | _ => none)
  | .sendPayment order hash =>
    -- a refusal, the duplicate guard's included, leaves no attempt
    match ch with
    | .ok => ({ s with attempts := ⟨order,hash,.transit⟩ :: s.attempts },.sent)
    | .lost => ({ s with attempts := ⟨order,hash,.transit⟩ :: s.attempts },.error)
    | .timeout => ({ s with attempts := ⟨order,hash,.transit⟩ :: s.attempts },.timeout)
    | _ => (s,.error)
  | .awaitPayment hash =>
    (s,match ch with
        | .report .succeeded => if s.settled hash then .succeeded hash else .error
        | .timeout => .timeout
        | _ => .error)
  | .checkPaymentStatus hash => (s,s.report hash ch)
  | .publishAuditEvent _ _ => (s,())

abbrev F := Prog FeeOp FeeOp.Res Unit

def ask (op : FeeOp) : F op.Res := Prog.perform op

/-! ### The cycle -/

def cleanupTtlSecs : Nat := 300

def parsePendingTimestamp (marker : PendingMarker) : Option Nat :=
  marker.stamp.filter fun ts => 1000000000 < ts

def isStale (now : Nat) : FeeHash → Bool
  | .pending marker => match parsePendingTimestamp marker with
    | some ts => cleanupTtlSecs ≤ now - ts
    | none => true
  | _ => true

def forSelected (q : FeeQuery) (f : FeeRow → F Unit) : F Unit := do
  match ← ask (.select q) with
  | none => pure ()
  | some orders => Prog.forEach orders f

def cleanupStalePendingMarkers : F Unit := do
  let now ← ask .timestamp
  forSelected .pendingMarkers fun order => do
    let marker := order.devFeePaymentHash.getD .empty
    if isStale now marker then do
      let _ ← ask (.update (.resetStale order.id marker))
      pure ()
    else pure ()

def checkDevFeePaymentStatus (order : FeeRow) : F DevFeePaymentState :=
  match order.devFeePaymentHash with
  | some (.hash h) => ask (.checkPaymentStatus h)
  | _ => pure .unknown

def verifyConfirmedOrders : F Unit :=
  forSelected .confirmedOrders fun order => do
    let known : Bool ← ask (.isConfirmed order.id)
    if known then pure ()
    else match ← checkDevFeePaymentStatus order with
      | .succeeded => ask (.confirm order.id)
      | _ => pure ()

def confirmIfPaid (id : Uuid) : F Unit := do
  match ← ask (.isPaid id) with
  | some true => ask (.confirm id)
  | _ => pure ()

def publishAudit (id : Uuid) (hash : FeeHash) : F Unit := do
  match ← ask (.orderById id) with
  | some _ => ask (.publishAuditEvent id hash)
  | none => pure ()

def afterRecording (id : Uuid) (hash : FeeHash) : Option Nat → F Unit
  | none => pure ()
  | some 0 => confirmIfPaid id
  | some _ => do
    ask (.confirm id)
    publishAudit id hash

def recoverPartialPayments : F Unit :=
  forSelected .partialPayments fun order => do
    let existing := order.devFeePaymentHash.getD .empty
    match ← checkDevFeePaymentStatus order with
    | .succeeded => do
      let affected ← ask (.update (.markPaid order.id existing))
      afterRecording order.id existing affected
    | .failed => do
      let _ ← ask (.update (.clearFailed order.id existing))
      pure ()
    | _ => pure ()

def handlePaymentSuccess (order : FeeRow) (hash : Hash) : F Unit := do
  let affected ← ask (.update (.paymentSuccess order.id hash))
  afterRecording order.id (.hash hash) affected

def handlePaymentFailure (id : Uuid) : F Unit := do
  let _ ← ask (.update (.paymentFailure id))
  pure ()

def handlePaymentTimeout (order : FeeRow) : F Unit := do
  let hash := order.devFeePaymentHash.getD .empty
  match ← checkDevFeePaymentStatus order with
  | .succeeded => do
    let _ ← ask (.update (.markPaid order.id hash))
    ask (.confirm order.id)
  | .failed => do
    let _ ← ask (.update (.resetAfterTimeout order.id hash))
    pure ()
  | _ => pure ()

def resolveDevFeeInvoice (order : FeeRow) : F (Option Hash) :=
  if order.devFee ≤ 0 then pure none else ask (.resolveInvoice order)

def sendDevFeePayment (order : FeeRow) (hash : Hash) : F SendResult :=
  if order.devFee ≤ 0 then pure .error
  else do
    match ← ask (.sendPayment order.id hash) with
    | .sent => ask (.awaitPayment hash)
    | other => pure other

def releasePendingClaim (id : Uuid) (marker : PendingMarker) : F Unit := do
  let _ ← ask (.update (.releasePendingClaim id marker))
  pure ()

def payClaimed (id : Uuid) (marker : PendingMarker) (hash : Hash) : F Unit := do
  match ← ask (.update (.storeHash id hash marker)) with
  | none => releasePendingClaim id marker
  | some 0 => pure ()
  | some _ => do
    match ← ask (.orderById id) with
    | none => pure ()
    | some order => do
      match ← sendDevFeePayment order hash with
      | .succeeded paid => handlePaymentSuccess order paid
      | .error => handlePaymentFailure id
      | .timeout => handlePaymentTimeout order
      | .sent => pure ()

def payDevFee (order : FeeRow) : F Unit := do
  let now ← ask .timestamp
  let uuid ← ask .newUuid
  let marker : PendingMarker := ⟨uuid,some now⟩
  match ← ask (.update (.tryClaimOrderForDevFee order.id marker)) with
  | none | some 0 => pure ()
  | some _ => do
    match ← resolveDevFeeInvoice order with
    | none => releasePendingClaim order.id marker
    | some hash => payClaimed order.id marker hash

def processNewDevFeePayments : F Unit := forSelected .unpaidDevFees payDevFee

def runDevFeeCycle : F Unit := do
  cleanupStalePendingMarkers
  verifyConfirmedOrders
  recoverPartialPayments
  processNewDevFeePayments

inductive FeeEnv where
  | tick (seconds : Nat)
  | newOrder (id : Uuid) (status : Status) (devFee : Int)
  | changeOrder (id : Uuid) (status : Status) (devFee : Int)
  | register (i : Nat)
  | settle (i : Nat)
  | failAttempt (i : Nat)
  | crash
  deriving DecidableEq, Repr

def FeeState.moveAttempt (s : FeeState) (i : Nat) (status : AttemptStatus) : FeeState :=
  { s with attempts := s.attempts.modify i fun a => { a with status } }

def FeeEnv.move (s : FeeState) : FeeEnv → Option FeeState
  | .tick seconds => some { s with now := s.now + seconds }
  | .newOrder id status devFee =>
    if s.rows.any fun r => r.id == id then none
    else some { s with rows := s.rows ++ [⟨id,status,devFee,false,none⟩] }
  | .changeOrder id status devFee =>
    some { s with
      rows := updateWhere (fun r => r.id == id) (fun r => { r with status, devFee }) s.rows }
  | .register i =>
    match s.attempts[i]? with
    | some ⟨_,_,.transit⟩ => some (s.moveAttempt i .inFlight)
    | _ => none
  | .settle i =>
    match s.attempts[i]? with
    | some ⟨_,hash,.inFlight⟩ => if s.settled hash then none else some (s.moveAttempt i .succeeded)
    | _ => none
  | .failAttempt i =>
    match s.attempts[i]? with
    | some ⟨_,_,.transit⟩ | some ⟨_,_,.inFlight⟩ => some (s.moveAttempt i .failed)
    | _ => none
  | .crash => some { s with confirmed := [] }

def FeeEnv.isCrash : FeeEnv → Bool
  | .crash => true
  | _ => false

def feeJob : System FeeState Unit FeeOp FeeOp.Res Unit FeeChoice FeeEnv where
  exec _ := exec
  code _ := runDevFeeCycle
  launch _ s := some s
  coexist _ _ := false
  env e s := e.move s
  kills := FeeEnv.isCrash

/-- Orders none of which has been paid for: unclaimed, or with a marker that was left behind. -/
def FeeState.Initial (s : FeeState) : Prop :=
  s.attempts = [] ∧ (s.rows.map FeeRow.id).Nodup ∧
    ∀ r ∈ s.rows, r.devFeePaid = false ∧ r.hasRealHash = false

end Mostro.DevFee
