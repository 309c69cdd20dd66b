import Mathlib.Data.List.AList
import Mostro.InterleavedPrograms
import Mostro.SharedState

set_option autoImplicit false

/-!
The publication of order revisions to the relays: the registry that stamps them, the map of failed
publishes, the handlers that publish, and the reconciler that drains the map.  Each operation below
is one section of code under a lock, one answer of a relay or one database read, so everything that
the daemon's tasks may do between two of them is an interleaving of the system at the end.
-/

namespace Mostro.Orderbook

open Interleaving

def orderTsMaxAgeSecs : Nat := 48 * 3600
def orderTsPruneThreshold : Nat := 16384

abbrev LastTs := AList fun _ : Uuid => Nat

structure OrderbookRegistry where
  lastTs : LastTs := ∅
  generation : Nat := 0

structure OrderbookStamp where
  createdAt : Nat
  generation : Nat

/-- `HashMap::retain` on the stamps that are not too old to matter. -/
def LastTs.retain (last : LastTs) (effective : Nat) : LastTs where
  entries := last.entries.filter fun e => effective < e.2 + orderTsMaxAgeSecs
  nodupKeys := List.NodupKeys.sublist List.filter_sublist last.nodupKeys

/-- The next `created_at` of a replaceable event: strictly after the last one recorded for it. -/
def monotonicCreatedAt (last : LastTs) (key : Uuid) (candidate : Nat) : LastTs × Nat :=
  let effective := match last.lookup key with
    | some ts => max candidate (ts + 1)
    | none => candidate
  let kept := if orderTsPruneThreshold ≤ last.entries.length then last.retain effective else last
  (kept.insert key effective,effective)

def stampLocked (registry : OrderbookRegistry) (id : Uuid) (candidate : Nat) :
    OrderbookRegistry × OrderbookStamp :=
  let out := monotonicCreatedAt registry.lastTs id candidate
  (⟨out.1,registry.generation + 1⟩,⟨out.2,registry.generation + 1⟩)

/-- Refuses to stamp an order that was stamped within the last `quietSecs`. -/
def tryStampOrderbookEventQuiescent (registry : OrderbookRegistry) (id : Uuid)
    (candidate quietSecs : Nat) : Option (OrderbookRegistry × OrderbookStamp) :=
  if (registry.lastTs.lookup id).any fun last => candidate < last + quietSecs then none
  else some (stampLocked registry id candidate)

def maxOrderbookRepublishAttempts : Nat := 5

structure FailedPublish where
  generation : Nat
  attempts : Nat
  deriving DecidableEq, Repr

abbrev FailedPublishes := AList fun _ : Uuid => FailedPublish

/-- `u8::saturating_add(1)`. -/
def saturatingSucc (attempts : Nat) : Nat := min (attempts + 1) 255

def markOrderbookPublishFailedAt (queue : FailedPublishes) (id : Uuid) (generation : Nat) :
    FailedPublishes :=
  let entry := (queue.lookup id).getD ⟨generation,0⟩
  queue.insert id ⟨max entry.generation generation,saturatingSucc entry.attempts⟩

def requeueOrderbookPublishFailure (queue : FailedPublishes) (id : Uuid)
    (generation attempts : Nat) : FailedPublishes :=
  let entry := (queue.lookup id).getD ⟨generation,attempts⟩
  queue.insert id ⟨max entry.generation generation,max entry.attempts attempts⟩

def clearOrderbookPublishFailureUpTo (queue : FailedPublishes) (id : Uuid) (generation : Nat) :
    FailedPublishes :=
  match queue.lookup id with
  | some entry => if entry.generation ≤ generation then queue.erase id else queue
  | none => queue

abbrev Drained := Uuid × Nat × Nat

/-- What `HashMap::drain` hands out, in the order the map happens to have. -/
def takeFailedOrderbookPublishes (queue : FailedPublishes) : List Drained :=
  queue.entries.map fun e => (e.1,e.2.generation,e.2.attempts)

/-- How `send_event` ended: every relay took the event, some refused it, there was no relay to send
it to, or there is no client at all. -/
inductive SendOutput where
  | accepted
  | rejected
  | error
  | noClient
  deriving DecidableEq, Repr

inductive BookOp where
  | orderToTags (order : Order)
  | stampOrderbookEvent (id : Uuid) (createdAt : Option Nat)
  | tryStampOrderbookEventQuiescent (id : Uuid) (quietSecs : Nat)
  | newOrderEvent
  | updateOrder (order : Order)
  | sendEvent (id : Uuid) (generation : Nat)
  | nextGeneration
  | markFailedAt (id : Uuid) (generation : Nat)
  | clearUpTo (id : Uuid) (generation : Nat)
  | takeFailed
  | giveUp (entry : Drained)
  | orderById (id : Uuid)
  | requeue (entry : Drained)

abbrev BookOp.Res : BookOp → Type
  | .orderToTags _ => Except MostroError Bool
  | .stampOrderbookEvent _ _ => OrderbookStamp
  | .tryStampOrderbookEventQuiescent _ _ => Option OrderbookStamp
  | .newOrderEvent => Except MostroError Unit
  | .updateOrder _ => Except MostroError Unit
  | .sendEvent _ _ => SendOutput
  | .nextGeneration => Nat
  | .markFailedAt _ _ => Unit
  | .clearUpTo _ _ => Unit
  | .takeFailed => List Drained
  | .giveUp _ => Unit
  | .orderById _ => Except MostroError (Option Order)
  | .requeue _ => Unit

abbrev BookM := Prog BookOp BookOp.Res MostroError

/-- An operation whose error ends the handler, as `?` does. -/
def orFail {α : Type} (p : BookM (Except MostroError α)) : BookM α :=
  p.bind fun r => match r with
    | .ok a => .ret a
    | .error e => .fail e

def sendEvent (id : Uuid) (generation : Nat) : BookM SendOutput :=
  Prog.perform (BookOp.sendEvent id generation)

def markFailedAt (id : Uuid) (generation : Nat) : BookM Unit :=
  Prog.perform (BookOp.markFailedAt id generation)

def giveUp (entry : Drained) : BookM Unit := Prog.perform (BookOp.giveUp entry)

def requeue (entry : Drained) : BookM Unit := Prog.perform (BookOp.requeue entry)

def orderById (id : Uuid) : BookM (Option Order) := orFail (Prog.perform (BookOp.orderById id))

def updateOrder (order : Order) : BookM Unit := orFail (Prog.perform (BookOp.updateOrder order))

def orderToTags (order : Order) : BookM Bool := orFail (Prog.perform (BookOp.orderToTags order))

def newOrderEvent : BookM Unit := orFail (Prog.perform BookOp.newOrderEvent)

def stampOrderbookEvent (id : Uuid) (createdAt : Option Nat) : BookM OrderbookStamp :=
  Prog.perform (BookOp.stampOrderbookEvent id createdAt)

/-! ### Publishing -/

inductive StampPolicy where
  | always (createdAt : Option Nat)
  | ifQuiescent (quietSecs : Nat)

def StampPolicy.stamp (policy : StampPolicy) (id : Uuid) : BookM (Option OrderbookStamp) :=
  match policy with
  | .always createdAt => (stampOrderbookEvent id createdAt).bind fun st => .ret (some st)
  | .ifQuiescent quietSecs => Prog.perform (BookOp.tryStampOrderbookEventQuiescent id quietSecs)

/-- Sends the stamped revision: a success clears the failures up to its generation, anything else
is recorded at its generation. -/
def sendStamped (id : Uuid) (generation : Nat) : BookM Unit :=
  (sendEvent id generation).bind fun out => match out with
    | .accepted => Prog.perform (BookOp.clearUpTo id generation)
    | .rejected | .error | .noClient => markFailedAt id generation

/-- `update_order_event_stamped`; `none` when the order is not quiescent. -/
def updateOrderEventStamped (status : Status) (order : Order) (policy : StampPolicy) :
    BookM (Option Order) := do
  match ← orderToTags { order with status } with
  | false => pure (some { order with status })
  | true =>
    match ← policy.stamp order.id with
    | none => pure none
    | some stamp => do
      newOrderEvent
      sendStamped order.id stamp.generation
      pure (some { order with status })

/-- `mark_orderbook_publish_failed`: a fresh generation, taken under another lock. -/
def markOrderbookPublishFailed (id : Uuid) : BookM Unit :=
  (Prog.perform BookOp.nextGeneration).bind fun generation : Nat => markFailedAt id generation

/-- Sends the first revision of an order; `failed` is what the caller makes of a send error. -/
def sendFirst (id : Uuid) (generation : Nat) (failed : BookM Unit) : BookM Unit :=
  (sendEvent id generation).bind fun out => match out with
    | .accepted => .ret ()
    | .rejected => markOrderbookPublishFailed id
    | .error | .noClient => (markOrderbookPublishFailed id).bind fun _ => failed

def finalizeOrderPublication (order : Order) : BookM Unit := do
  match ← orderToTags { order with status := .pending } with
  | false => .fail .invalidPubkey
  | true => do
    let stamp ← stampOrderbookEvent order.id none
    newOrderEvent
    updateOrder { order with status := .pending }
    sendFirst order.id stamp.generation (.fail .nostr)

/-- The remainder of a range: the event is prepared with the child and sent once the child is
stored. -/
def publishChildOrder (child : Order) : BookM Unit := do
  match ← orderToTags child with
  | false => .fail .unexpected
  | true => do
    let stamp ← stampOrderbookEvent child.id none
    newOrderEvent
    match ← (updateOrder child).attempt with
    | .ok _ => sendFirst child.id stamp.generation (.ret ())
    | .error _ => pure ()

def orderbookQuiescentSecs : Nat := 120

def republish (entry : Drained) (order : Order) : BookM Unit := do
  requeue entry
  match ← (updateOrderEventStamped order.status order
    (.ifQuiescent orderbookQuiescentSecs)).attempt with
  | .ok _ => pure ()
  | .error _ => markFailedAt entry.1 entry.2.1

def reconcileEntry (entry : Drained) : BookM Unit :=
  if maxOrderbookRepublishAttempts ≤ entry.2.2 then giveUp entry
  else (orderById entry.1).attempt.bind fun r => match r with
    | .ok (some order) => republish entry order
    | .ok none => .ret ()
    | .error _ => requeue entry

def reconcileOrderbookOnce : BookM Unit :=
  (Prog.perform BookOp.takeFailed).bind fun batch : List Drained =>
    Prog.forEach batch reconcileEntry

inductive Publication where
  | update (status : Status) (order : Order) (createdAt : Option Nat)
  | newOrder (order : Order)
  | childOrder (child : Order)
  deriving DecidableEq

def Publication.code : Publication → BookM Unit
  | .update status order createdAt =>
    (updateOrderEventStamped status order (.always createdAt)).bind fun _ => .ret ()
  | .newOrder order => finalizeOrderPublication order
  | .childOrder child => publishChildOrder child

inductive Publisher where
  | reconciler
  | handler (tid : Nat) (publication : Publication)
  deriving DecidableEq

def Publisher.code : Publisher → BookM Unit
  | .reconciler => reconcileOrderbookOnce
  | .handler _ publication => publication.code

/-- What happened to the revisions of an order, the latest first. -/
inductive Happening where
  | accepted (id : Uuid) (generation : Nat)
  | refused (publisher : Publisher) (id : Uuid) (generation : Nat)
  | recorded (publisher : Publisher) (id : Uuid) (generation : Nat)
  | retried (id : Uuid)
  | gaveUp (id : Uuid)
  | vanished (id : Uuid)
  deriving DecidableEq

abbrev Rows := AList fun id : Uuid => { order : Order // order.id = id }

/-- The state the publishers share.  `batch` is what the reconciler has drained and not dealt with,
and `history` what happened so far; no code reads these two. -/
structure Book where
  registry : OrderbookRegistry := {}
  queue : FailedPublishes := ∅
  rows : Rows := ∅
  now : Nat := 0
  batch : List Drained := []
  history : List Happening := []

inductive BookChoice where
  | ok
  | fault
  | send (out : SendOutput)
  | drain (batch : List Drained)

def createsEvent (order : Order) : Bool :=
  match order.status with
  | .waitingBuyerInvoice => order.kind == .sell
  | .waitingPayment => order.kind == .buy
  | .canceled | .canceledByAdmin | .cooperativelyCanceled | .expired => true
  | .success | .completedByAdmin | .pending | .waitingTakerBond => true
  | _ => false

def Book.log (s : Book) (h : Happening) : Book := { s with history := h :: s.history }

def BookChoice.faults : BookChoice → Bool
  | .fault => true
  | _ => false

def BookChoice.sendOutput : BookChoice → SendOutput
  | .send out => out
  | .fault => .error
  | _ => .accepted

def BookChoice.drained (ch : BookChoice) (entries : List Drained) : List Drained :=
  match ch with
  | .drain chosen => if chosen.isPerm entries then chosen else entries
  | _ => entries

def BookOp.exec (l : Publisher) (op : BookOp) (ch : BookChoice) (s : Book) : Book × op.Res :=
  match op with
  | .orderToTags order =>
    if ch.faults then (if l = .reconciler then s.log (.retried order.id) else s,.error .nostr)
    else (s,.ok (createsEvent order))
  | .stampOrderbookEvent id createdAt =>
    let out := stampLocked s.registry id (createdAt.getD s.now)
    ({ s with registry := out.1 },out.2)
  | .tryStampOrderbookEventQuiescent id quietSecs =>
    match Orderbook.tryStampOrderbookEventQuiescent s.registry id s.now quietSecs with
    | some out => ({ s.log (.retried id) with registry := out.1 },some out.2)
    | none => (s,none)
  | .newOrderEvent => (s,if ch.faults then .error .nostr else .ok ())
  | .updateOrder order =>
    if ch.faults then (s,.error .dbAccess)
    else ({ s with rows := s.rows.insert order.id ⟨order,rfl⟩ },.ok ())
  | .sendEvent id generation =>
    (s.log (if ch.sendOutput = .accepted then .accepted id generation
      else .refused l id generation),ch.sendOutput)
  | .nextGeneration =>
    ({ s with registry := { s.registry with generation := s.registry.generation + 1 } },
      s.registry.generation + 1)
  | .markFailedAt id generation =>
    ({ s.log (.recorded l id generation) with
        queue := markOrderbookPublishFailedAt s.queue id generation },())
  | .clearUpTo id generation =>
    ({ s with queue := clearOrderbookPublishFailureUpTo s.queue id generation },())
  | .takeFailed =>
    let batch := ch.drained (takeFailedOrderbookPublishes s.queue)
    ({ s with queue := ∅, batch },batch)
  | .giveUp entry => ({ s.log (.gaveUp entry.1) with batch := s.batch.tail },())
  | .orderById id =>
    if ch.faults then (s,.error .dbAccess)
    else match s.rows.lookup id with
      | some row => (s,.ok (some row.1))
      | none => ({ s.log (.vanished id) with batch := s.batch.tail },.ok none)
  | .requeue entry =>
    ({ s with
        queue := requeueOrderbookPublishFailure s.queue entry.1 entry.2.1 entry.2.2
        batch := s.batch.tail },())

inductive BookMove where
  | tick (secs : Nat)
  | write (order : Order)
  | delete (id : Uuid)

def BookMove.exec (m : BookMove) (s : Book) : Book :=
  match m with
  | .tick secs => { s with now := s.now + secs }
  | .write order => { s with rows := s.rows.insert order.id ⟨order,rfl⟩ }
  | .delete id => { s with rows := s.rows.erase id }

def orderbook : System Book Publisher BookOp BookOp.Res MostroError BookChoice BookMove where
  exec := BookOp.exec
  code := Publisher.code
  launch _ s := some s
  coexist l l' := l != l'
  env m s := some (m.exec s)
  kills _ := false

end Mostro.Orderbook
