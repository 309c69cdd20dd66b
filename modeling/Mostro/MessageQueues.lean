import Mathlib.Data.List.Range
import Mostro.RelyGuarantee
import Mostro.SharedState

set_option autoImplicit false

/-!
The queues of outgoing messages.  Handlers push to them at any time; one job looks at the head of
each queue in turn, sends it, and removes it when `send_dm` succeeded or has failed often enough.
The head is read, sent and removed by separate operations, and the count of failures is kept apart
from the queue.  `send_dm` succeeds without a client, and whether or not a relay took the event.
-/

namespace Mostro.Outgoing

open Interleaving

/-- A queued message and the key it is for.  The serial number, its place among all that were
pushed to the queue, is not part of the message; it tells equal messages apart. -/
structure Letter where
  serial : Nat
  message : String
  destination : String
  deriving DecidableEq, Repr

/-- How an attempt ended.  A message is sent when a relay has taken it; `send_dm` answers the same
where it is unsent. -/
inductive Outcome where
  | sent
  | unsent
  | failed
  | unserialized
  deriving DecidableEq, Repr

def Outcome.isOk : Outcome → Bool
  | .sent | .unsent => true
  | .failed | .unserialized => false

/-- A queue and the job's count of failures for it.  The other fields record what was pushed and
what was removed, in this order, and the attempts and the heads at the start of each round of the
job, the latest first. -/
structure Outbox where
  queue : List Letter := []
  retries : Nat := 0
  enqueued : List Letter := []
  removed : List Letter := []
  attempts : List (Letter × Outcome) := []
  found : List Letter := []
  deriving DecidableEq, Repr

def Outbox.enqueue (b : Outbox) (message destination : String) : Outbox :=
  let letter := ⟨b.enqueued.length,message,destination⟩
  { b with queue := b.queue ++ [letter], enqueued := b.enqueued ++ [letter] }

def Outbox.remove (b : Outbox) : Outbox :=
  { b with queue := b.queue.drop 1, removed := b.removed ++ b.queue.take 1 }

def Outbox.tried (b : Outbox) (x : Letter) (o : Outcome) : Outbox :=
  { b with attempts := (x,o) :: b.attempts }

def Outbox.noteHead (b : Outbox) : Outbox := { b with found := b.queue.take 1 ++ b.found }

def Outbox.tries (b : Outbox) (x : Letter) : Nat := b.attempts.countP (·.1 = x)

inductive QueueName where
  | orderMsg
  | orderCantdo
  | restoreSessionMsg
  deriving DecidableEq, Repr

structure MessageQueues where
  queueOrderMsg : Outbox := {}
  queueOrderCantdo : Outbox := {}
  queueRestoreSessionMsg : Outbox := {}
  panicked : Bool := false
  deriving DecidableEq, Repr

def MessageQueues.get (s : MessageQueues) : QueueName → Outbox
  | .orderMsg => s.queueOrderMsg
  | .orderCantdo => s.queueOrderCantdo
  | .restoreSessionMsg => s.queueRestoreSessionMsg

def MessageQueues.set (s : MessageQueues) (q : QueueName) (b : Outbox) : MessageQueues :=
  match q with
  | .orderMsg => { s with queueOrderMsg := b }
  | .orderCantdo => { s with queueOrderCantdo := b }
  | .restoreSessionMsg => { s with queueRestoreSessionMsg := b }

@[simp] theorem get_set (s : MessageQueues) (q q' : QueueName) (b : Outbox) :
    (s.set q b).get q' = if q' = q then b else s.get q' := by
  cases q <;> cases q' <;> rfl

@[simp] theorem set_panicked (s : MessageQueues) (q : QueueName) (b : Outbox) :
    (s.set q b).panicked = s.panicked := by
  cases q <;> rfl

def MessageQueues.noteHeads (s : MessageQueues) : MessageQueues :=
  { s with queueOrderMsg := s.queueOrderMsg.noteHead
           queueOrderCantdo := s.queueOrderCantdo.noteHead
           queueRestoreSessionMsg := s.queueRestoreSessionMsg.noteHead }

theorem get_noteHeads (s : MessageQueues) (q : QueueName) :
    s.noteHeads.get q = (s.get q).noteHead := by
  cases q <;> rfl

inductive FlushOp where
  | isEmpty (q : QueueName)
  | first (q : QueueName)
  | asJson (q : QueueName) (x : Letter)
  | wrapMessage (q : QueueName) (x : Letter)
  | getNostrClient (q : QueueName) (x : Letter)
  | sendEvent (q : QueueName) (x : Letter)
  | panic
  | countRetry (q : QueueName)
  | resetRetries (q : QueueName)
  | retries (q : QueueName)
  | remove (q : QueueName)

abbrev FlushOp.Res : FlushOp → Type
  | .isEmpty _ => Bool
  | .first _ => Option Letter
  | .asJson _ _ | .wrapMessage _ _ | .getNostrClient _ _ | .sendEvent _ _ => Bool
  | .retries _ => Nat
  | .countRetry _ | .resetRetries _ | .remove _ | .panic => Unit

abbrev FlushM := Prog FlushOp FlushOp.Res MostroError

def sendDm (q : QueueName) (x : Letter) : FlushM Bool := do
  if ← Prog.perform (.wrapMessage q x) then
    if ← Prog.perform (.getNostrClient q x) then Prog.perform (FlushOp.sendEvent q x)
    else pure true
  else pure false

def attemptHead (q : QueueName) (x : Letter) : FlushM Unit := do
  if ← Prog.perform (.asJson q x) then
    if ← sendDm q x then do
      Prog.perform (FlushOp.resetRetries q)
      Prog.perform (FlushOp.remove q)
    else Prog.perform (FlushOp.countRetry q)
  else pure ()

def dropAfterRetries (q : QueueName) : FlushM Unit := do
  let retries ← Prog.perform (.retries q)
  if 3 < retries then do
    Prog.perform (FlushOp.resetRetries q)
    Prog.perform (FlushOp.remove q)
  else pure ()

def sendMessages (q : QueueName) : FlushM Unit := do
  if ← Prog.perform (.isEmpty q) then pure ()
  else do
    match ← Prog.perform (FlushOp.first q) with
    | none => Prog.perform FlushOp.panic
    | some x =>
      attemptHead q x
      dropAfterRetries q

def jobFlushMessagesQueue : FlushM Unit := do
  sendMessages .orderMsg
  sendMessages .orderCantdo
  sendMessages .restoreSessionMsg

/-- `refused`: `send_event` answers, and no relay has taken the event. -/
inductive FlushChoice where
  | ok
  | fault
  | refused
  deriving DecidableEq, Repr

structure Push where
  queue : QueueName
  message : String
  destination : String
  deriving DecidableEq, Repr

def FlushOp.exec (op : FlushOp) (ch : FlushChoice) (s : MessageQueues) : MessageQueues × op.Res :=
  match op with
  | .isEmpty q => (s,(s.get q).queue.isEmpty)
  | .first q => (s,(s.get q).queue.head?)
  | .asJson q x =>
    if ch = .fault then (s.set q ((s.get q).tried x .unserialized),false) else (s,true)
  | .wrapMessage q x =>
    if ch = .fault then (s.set q ((s.get q).tried x .failed),false) else (s,true)
  | .getNostrClient q x =>
    if ch = .fault then (s.set q ((s.get q).tried x .unsent),false) else (s,true)
  | .sendEvent q x => match ch with
    | .ok => (s.set q ((s.get q).tried x .sent),true)
    | .fault => (s.set q ((s.get q).tried x .failed),false)
    | .refused => (s.set q ((s.get q).tried x .unsent),true)
  | .countRetry q => (s.set q { s.get q with retries := (s.get q).retries + 1 },())
  | .resetRetries q => (s.set q { s.get q with retries := 0 },())
  | .retries q => (s,(s.get q).retries)
  | .remove q => (s.set q (s.get q).remove,())
  | .panic => ({ s with panicked := true },())

/-- The job, of which there is one, runs again and again until it panics; the handlers push in
between its operations. -/
def messageQueues : System MessageQueues Unit FlushOp FlushOp.Res MostroError FlushChoice Push where
  exec := fun _ => FlushOp.exec
  code _ := jobFlushMessagesQueue
  launch _ s := if s.panicked then none else some s.noteHeads
  coexist _ _ := false
  env e s := some (s.set e.queue ((s.get e.queue).enqueue e.message e.destination))
  kills _ := false

end Mostro.Outgoing
