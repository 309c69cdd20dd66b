import Mathlib.Data.List.AList
import Mostro.SqlTables
import Mostro.TradeData

set_option autoImplicit false

/-!
The way of an event into the daemon: the checks of `accept_event` in their order, with the spam gate
and the trade index, and the part of the trade handlers that records the index.  The event loop
takes one event at a time, so a run is a list of deliveries; between them the scheduler may replace
the known keys.
-/

namespace Mostro.EventLoop

open SqlTable

abbrev EventId := Nat
abbrev Signature := Nat

inductive Action where
  | newOrder
  | takeBuy
  | takeSell
  | other (code : Nat)
  deriving DecidableEq, Repr

def Action.isTrade : Action → Bool
  | .newOrder | .takeBuy | .takeSell => true
  | .other _ => false

structure Message where
  action : Action
  tradeIndex : Option Int := none
  payload : Nat := 0
  deriving DecidableEq, Repr

/-- `MessageKind::trade_index`, with its default. -/
def Message.tradeIndexOrZero (m : Message) : Int := m.tradeIndex.getD 0

structure UnwrappedMessage where
  message : Message
  createdAt : Nat
  identity : Pubkey
  sender : Pubkey
  signature : Option Signature := none
  deriving DecidableEq, Repr

structure Event where
  id : EventId
  pubkey : Pubkey
  createdAt : Nat
  kind : Nat
  content : Nat
  sig : Signature
  deriving DecidableEq, Repr

/-- The functions of the Nostr library and of `mostro-core` that the daemon calls. -/
structure Transport where
  checkPow : Event → Nat → Bool
  verify : Event → Bool
  unwrapIncoming : Event → Except Unit (Option UnwrappedMessage)
  asJson : Message → Option Nat
  verifySignature : Nat → Pubkey → Signature → Bool
  messageVerify : Message → Bool

/-- The id of a signed event commits to its `created_at`, which is also that of its message. -/
structure Transport.Documented (T : Transport) : Prop where
  id_commits : ∀ e e', T.verify e = true → T.verify e' = true → e.id = e'.id →
    e.createdAt = e'.createdAt
  created_at : ∀ e u, T.unwrapIncoming e = .ok (some u) → u.createdAt = e.createdAt

def replayWindowSecs : Int := 60

structure ReplayGuard where
  seen : AList fun _ : EventId => Int
  windowSecs : Int

def retainSeen (seen : AList fun _ : EventId => Int) (cutoff : Int) :
    AList fun _ : EventId => Int where
  entries := seen.entries.filter fun e => cutoff ≤ e.2
  nodupKeys := List.NodupKeys.sublist List.filter_sublist seen.nodupKeys

def ReplayGuard.checkAndRecord (guard : ReplayGuard) (id : EventId) (now : Int) :
    ReplayGuard × Bool :=
  let kept := retainSeen guard.seen (now - guard.windowSecs)
  ({ guard with seen := kept.insert id now },(kept.lookup id).isSome)

/-- The keys of active trades and the replay guard; a lock is `none` once it is poisoned. -/
structure SpamGate where
  known : Option (List Pubkey)
  replay : Option ReplayGuard

def SpamGate.new (window : Int) : SpamGate := ⟨some [],some ⟨∅,window⟩⟩

def SpamGate.setKnown (gate : SpamGate) (keys : List Pubkey) : SpamGate :=
  { gate with known := gate.known.map fun _ => keys }

def SpamGate.isKnown (gate : SpamGate) (key : Pubkey) : Bool :=
  gate.known.any fun keys => keys.contains key

def SpamGate.isReplay (gate : SpamGate) (id : EventId) (now : Int) : SpamGate × Bool :=
  match gate.replay with
  | some guard =>
    let out := guard.checkAndRecord id now
    ({ gate with replay := some out.1 },out.2)
  | none => (gate,false)

structure Settings where
  pow : Nat
  powFirstContact : Nat
  acceptedKind : Nat

def SpamGate.pass (T : Transport) (cfg : Settings) (gate : SpamGate) (event : Event) (now : Int) :
    SpamGate × Bool :=
  let out := gate.isReplay event.id now
  (out.1,!out.2 && (out.1.isKnown event.pubkey || T.checkPow event cfg.powFirstContact))

/-- The time before which an event is stale, cast from `i64` to `u64`. -/
def sinceTime (now : Int) : Nat := ((now - 10) % 2 ^ 64).toNat

structure User where
  pubkey : Pubkey
  lastTradeIndex : Int
  deriving DecidableEq, Repr

inductive IntakeError where
  | invalidSignature
  | invalidTradeIndex
  | messageSerialization
  | cantCreateUser
  | invalidPayload
  | dbAccess
  | refused
  deriving DecidableEq, Repr

def isUserPresent (users : List User) (key : Pubkey) : Option User :=
  users.find? fun u => u.pubkey == key

structure DbFaults where
  isUserPresent : Bool := false
  addNewUser : Bool := false
  updateUserTradeIndex : Bool := false

/-- `INSERT INTO users`, whose primary key is the pubkey. -/
def addNewUser (fault : Bool) (users : List User) (user : User) : Option (List User) :=
  if fault || (isUserPresent users user.pubkey).isSome then none else some (users ++ [user])

def checkStoredIndex (T : Transport) (user : User) (m : UnwrappedMessage) :
    Except IntakeError Unit :=
  if 1 ≤ m.message.tradeIndexOrZero then
    match m.signature with
    | none => .error .invalidSignature
    | some sig =>
      if m.message.tradeIndexOrZero ≤ user.lastTradeIndex then .error .invalidTradeIndex
      else match T.asJson m.message with
        | none => .error .messageSerialization
        | some json =>
          if T.verifySignature json m.sender sig then .ok () else .error .invalidSignature
  else .ok ()

def checkNewUser (fault : Bool) (users : List User) (m : UnwrappedMessage) :
    List User × Except IntakeError Unit :=
  match m.message.tradeIndex with
  | none => (users,.ok ())
  | some lastTradeIndex =>
    if lastTradeIndex = 0 then (users,.error .invalidTradeIndex)
    else if m.identity = m.sender then (users,.ok ())
    else match addNewUser fault users ⟨m.identity,lastTradeIndex⟩ with
      | some users => (users,.ok ())
      | none => (users,.error .cantCreateUser)

def checkTradeIndex (T : Transport) (faults : DbFaults) (users : List User) (m : UnwrappedMessage) :
    List User × Except IntakeError Unit :=
  if m.message.action.isTrade then
    match if faults.isUserPresent then none else isUserPresent users m.identity with
    | some user => (users,checkStoredIndex T user m)
    | none => checkNewUser faults.addNewUser users m
  else (users,.ok ())

/-- The index a trade handler records: zero for a user without one who trades under their own
identity. -/
def resolveTradeIndex (m : UnwrappedMessage) : Except IntakeError Int :=
  match m.message.tradeIndex with
  | some index => .ok index
  | none => if m.identity = m.sender then .ok 0 else .error .invalidPayload

def updateUserTradeIndex (fault : Bool) (users : List User) (key : Pubkey) (index : Int) :
    Except IntakeError (List User) :=
  if index < 0 then .error .invalidTradeIndex
  else if fault then .error .dbAccess
  else .ok (updateWhere (fun u => u.pubkey == key)
    (fun u => { u with lastTradeIndex := index }) users)

/-- How a trade handler comes out before it records the index: one of its checks refuses the
message, a take finds the sender's own bond requested and answers with it again, or the handler goes
on. -/
inductive HandlerPath where
  | refuses
  | repeatsBond
  | proceeds
  deriving DecidableEq, Repr

/-- `order_action`, `take_sell_action` and `take_buy_action` up to the index: only a take has bonds
to repeat. -/
def recordTradeIndex (fault : Bool) (path : HandlerPath) (users : List User)
    (m : UnwrappedMessage) :
    List User × Except IntakeError Unit :=
  match path with
  | .refuses => (users,.error .refused)
  | .repeatsBond => (users,if m.message.action = .newOrder then .error .refused else .ok ())
  | .proceeds =>
    match resolveTradeIndex m with
    | .error e => (users,.error e)
    | .ok index =>
      match updateUserTradeIndex fault users m.identity index with
      | .error e => (users,.error e)
      | .ok users => (users,.ok ())

structure Delivery where
  event : Event
  gateNow : Int
  freshNow : Int
  faults : DbFaults := {}
  path : HandlerPath := .proceeds

structure Intake where
  gate : Option SpamGate
  users : List User
  dispatched : List EventId := []
  accepted : List (Pubkey × Int) := []

def Intake.start (users : List User) : Intake := ⟨some (.new replayWindowSecs),users,[],[]⟩

section

variable (T : Transport) (cfg : Settings)

def Intake.passGate (s : Intake) (event : Event) (now : Int) : Intake × Bool :=
  match s.gate with
  | some gate =>
    let out := gate.pass T cfg event now
    ({ s with gate := some out.1 },out.2)
  | none => (s,true)

def decodeFresh (event : Event) (freshNow : Int) : Option UnwrappedMessage :=
  match T.unwrapIncoming event with
  | .ok (some m) =>
    if m.createdAt < sinceTime freshNow then none
    else if m.identity ≠ m.sender ∧ m.signature = none then none
    else some m
  | _ => none

def acceptEvent (d : Delivery) (s : Intake) : Intake × Option UnwrappedMessage :=
  if !T.checkPow d.event cfg.pow || d.event.kind != cfg.acceptedKind || !T.verify d.event then
    (s,none)
  else
    let gated := s.passGate T cfg d.event d.gateNow
    if !gated.2 then (gated.1,none)
    else match decodeFresh T d.event d.freshNow with
      | none => (gated.1,none)
      | some m =>
        let checked := checkTradeIndex T d.faults gated.1.users m
        let s := { gated.1 with users := checked.1 }
        match checked.2 with
        | .error _ => (s,none)
        | .ok _ => (s,if T.messageVerify m.message then some m else none)

def dispatch (d : Delivery) (m : UnwrappedMessage) (s : Intake) : Intake :=
  let s := { s with dispatched := d.event.id :: s.dispatched }
  if m.message.action.isTrade then
    let out := recordTradeIndex d.faults.updateUserTradeIndex d.path s.users m
    match out.2 with
    | .ok _ => { s with
        users := out.1, accepted := (m.identity,m.message.tradeIndexOrZero) :: s.accepted }
    | .error _ => { s with users := out.1 }
  else s

def deliver (d : Delivery) (s : Intake) : Intake :=
  match acceptEvent T cfg d s with
  | (s,some m) => dispatch d m s
  | (s,none) => s

inductive Happening where
  | deliver (d : Delivery)
  | refreshKnown (keys : List Pubkey)

def step (s : Intake) : Happening → Intake
  | .deliver d => deliver T cfg d s
  | .refreshKnown keys => { s with gate := s.gate.map fun gate => gate.setKnown keys }

def run (s : Intake) (hs : List Happening) : Intake := hs.foldl (step T cfg) s

end

/-- The clock does not run backwards from the given time on, and stays in the range of `i64`. -/
def clockRuns : Int → List Happening → Bool
  | _, [] => true
  | t, .refreshKnown _ :: rest => clockRuns t rest
  | t, .deliver d :: rest =>
    decide (t ≤ d.gateNow ∧ d.gateNow ≤ d.freshNow ∧ d.freshNow < 2 ^ 63) &&
      clockRuns d.freshNow rest

end Mostro.EventLoop
