import Mostro.SchedulerJobs

set_option autoImplicit false

/-!
The daemon as a system of tasks: the message loop, the admin RPC, the invoice subscriptions, the
payout tasks and the scheduler jobs, over the shared state, next to a Lightning node and a clock
that move on their own and a process that may crash between any two operations.
-/

namespace Mostro

open Interleaving

/-- The jobs of `start_scheduler` that touch orders, bonds or the node. -/
inductive Job where
  | cancelOrders
  | enforceEscrowDeadline
  | expirePendingOlderOrders
  | retryFailedPayments
  | reconcileInflightPayouts
  | processBondPayouts
  | reconcileStrandedMakerBonds
  deriving DecidableEq, Repr

/-- What a solver asks for, by message or through the admin RPC. -/
inductive AdminMessage where
  | settle (order : Uuid) (resolution : BondResolution)
  | cancel (order : Uuid) (resolution : BondResolution)
  | takeDispute (id : Uuid) (solver : Pubkey)

inductive Message where
  | newOrder (new : SmallOrder) (initiator identity trade : Pubkey) (tradeIndex : Option Int)
  | takeSell (m : TakeMessage)
  | takeBuy (m : TakeMessage)
  | addInvoice (order : Uuid) (sender : Pubkey) (request : Option PaymentRequest)
  | addBondInvoice (order : Uuid) (sender : Pubkey) (request : Option PaymentRequest)
  | addCashuEscrow (order : Uuid) (sender : Pubkey) (proof : CashuLockProof)
  | fiatSent (order : Uuid) (sender : Pubkey) (nextTrade : NextTrade)
  | release (order : Uuid) (sender : Pubkey) (nextTrade : NextTrade)
  | cancel (order : Uuid) (sender : Pubkey)
  | dispute (order : Uuid) (sender : Pubkey)
  | tradePubkey (order : Uuid) (sender identity : Pubkey)
  | admin (m : AdminMessage)

/-- What a task of the daemon runs.  `message` is the message loop, which handles one message at a
time; `rpc` is an admin call, on a task of its own; the invoice tasks handle one message of a
subscription; `dispatch` is the payout task of `do_payment`, with the number of heartbeats its
queueing takes. -/
inductive Request where
  | message (m : Message)
  | rpc (m : AdminMessage)
  | bondInvoice (hash : Hash)
  | escrowInvoice (hash : Hash)
  | dispatch (beats : Nat) (d : Dispatch)
  | job (j : Job)

/-- `handle_message_action` and `dispatch_cashu`: what each mode handles. -/
def Message.handled (cfg : Settings) : Message → Bool
  | .newOrder _ _ _ _ _ | .takeSell _ | .takeBuy _ | .tradePubkey _ _ _ => true
  | .addCashuEscrow _ _ _ => cfg.cashu
  | _ => !cfg.cashu

def Request.enabled (cfg : Settings) : Request → Bool
  | .message m => m.handled cfg
  | .job .expirePendingOlderOrders => true
  | _ => !cfg.cashu

section

variable (cfg : Settings) (ext : Externals)

def AdminMessage.code : AdminMessage → M Unit
  | .settle order resolution => adminSettleAction cfg ext order resolution
  | .cancel order resolution => adminCancelAction cfg order resolution
  | .takeDispute id solver => adminTakeDisputeAction id solver

def Message.code : Message → M Unit
  | .newOrder new initiator identity trade tradeIndex =>
    publishOrder cfg ext new initiator identity trade tradeIndex
  | .takeSell m => takeSellAction cfg ext m
  | .takeBuy m => takeBuyAction cfg ext m
  | .addInvoice order sender request => addInvoiceAction order sender request
  | .addBondInvoice order sender request => addBondInvoiceAction cfg ext order sender request
  | .addCashuEscrow order sender proof => addCashuEscrowAction order sender proof
  | .fiatSent order sender nextTrade => fiatSentAction order sender nextTrade
  | .release order sender nextTrade => releaseAction cfg ext order sender nextTrade
  | .cancel order sender => cancelAction order sender
  | .dispute order sender => disputeAction ext order sender
  | .tradePubkey order sender identity => tradePubkeyAction order sender identity
  | .admin m => m.code cfg ext

def Job.code : Job → M Unit
  | .cancelOrders => jobCancelOrders cfg
  | .enforceEscrowDeadline => enforceEscrowDeadlinePass cfg ext
  | .expirePendingOlderOrders => jobExpirePendingOlderOrders cfg
  | .retryFailedPayments => jobRetryFailedPayments cfg ext
  | .reconcileInflightPayouts => jobReconcileInflightPayouts cfg ext
  | .processBondPayouts => runBondPayoutCycle cfg ext
  | .reconcileStrandedMakerBonds => reconcileStrandedRangeMakerBonds

def Request.code : Request → M Unit
  | .message m => m.code cfg ext
  | .rpc m => m.code cfg ext
  | .bondInvoice hash => bondInvoiceMessage hash
  | .escrowInvoice hash => escrowInvoiceMessage cfg hash
  | .dispatch beats d => dispatchPayout cfg ext beats d
  | .job j => j.code cfg ext

end

/-- A task: its number, unique in a run, and what it runs. -/
structure Label where
  tid : Nat
  req : Request

def Request.logCancel (tid : Nat) : Request → List (Nat × Uuid × Pubkey)
  | .message (.cancel order sender) => [(tid,order,sender)]
  | _ => []

def Label.launch (cfg : Settings) (l : Label) (s : State) : Option State :=
  if l.tid = s.nextId ∧ l.req.enabled cfg then
    match l.req with
    | .dispatch _ d =>
      if d ∈ s.spawned then some { s with nextId := s.nextId + 1, spawned := s.spawned.erase d }
      else none
    | _ => some { s with nextId := s.nextId + 1, cancels := l.req.logCancel l.tid ++ s.cancels }
  else none

def Request.exclusive : Request → Request → Bool
  | .message _, .message _ => true
  | .job j, .job j' => j == j'
  | _, _ => false

def Label.coexist (l l' : Label) : Bool := l.tid != l'.tid && !l.req.exclusive l'.req

theorem Label.coexist_ne {l l' : Label} (h : l.coexist l' = true) : l'.tid ≠ l.tid :=
  Ne.symm (bne_iff_ne.mp (Bool.and_eq_true_iff.mp h).1)

/-- What happens outside the daemon: time and blocks, the node's own moves, and a crash. -/
inductive Env where
  | tick (seconds : Nat)
  | block
  | accept (hash : Hash) (expiryHeight : Int)
  | lndCancel (hash : Hash)
  | registerSend (i : Nat)
  | dropSend (i : Nat)
  | settlePayment (attempt : Nat)
  | failPayment (attempt : Nat)
  | crash
  deriving DecidableEq, Repr

def State.endPayment (s : State) (attempt : Nat) (status : PaymentStatus) : State :=
  let live := fun p : Payment => p.id == attempt && p.status == .inFlight
  { s with payments := SqlTable.updateWhere live (fun p => { p with status }) s.payments }

def Env.move (s : State) : Env → Option State
  | .tick seconds => some { s with now := s.now + seconds }
  | .block => some { s with height := s.height + 1 }
  | .accept hash expiryHeight =>
    if s.holdState hash = some .opened then
      some (s.setHold hash fun i => { i with state := .accepted, paid := true, expiryHeight })
    else none
  | .lndCancel hash =>
    if s.holdState hash = some .opened ∨ s.holdState hash = some .accepted then
      some (s.moveHold hash .canceled)
    else none
  | .registerSend i =>
    match s.submissions[i]? with
    | none => none
    | some sub =>
      let taken := { s with submissions := s.submissions.eraseIdx i }
      some (if s.sendRefused sub.hash then taken else taken.register sub.payee sub.hash)
  | .dropSend i => some { s with submissions := s.submissions.eraseIdx i }
  | .settlePayment attempt => some (s.endPayment attempt .succeeded)
  | .failPayment attempt => some (s.endPayment attempt .failed)
  | .crash => some { s with spawned := [] }

def Env.isCrash : Env → Bool
  | .crash => true
  | _ => false

/-- A daemon with the given configuration, next to the given external code. -/
def daemon (cfg : Settings) (ext : Externals) :
    System State Label Op Op.Res MostroError Choice Env where
  exec l := exec ext l.tid
  code l := l.req.code cfg ext
  launch := Label.launch cfg
  coexist := Label.coexist
  env e s := e.move s
  kills := Env.isCrash

abbrev DaemonState := Config State Label Op Op.Res MostroError

def State.Initial (s : State) : Prop := ∃ now height, s = { now, height }

end Mostro
