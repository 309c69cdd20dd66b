import Mathlib.Algebra.Order.Ring.Rat
import Mostro.InterleavedPrograms
import Mostro.KnownKeys
import Mostro.SqlTables

set_option autoImplicit false

/-!
Ratings: the handler of a Rate message, which claims the sender's flag on the order and counts the
review in one transaction and then enqueues a rating event, and the job that sends the enqueued
events.  SQLite lets one transaction write at a time and shows its writes to the others when it
commits; an event that is pushed while the job reads the queue waits until the job lets go of it.
-/

namespace Mostro.Ratings

open Interleaving SqlTable

structure RatedOrder where
  id : Uuid
  status : Status
  buyerPubkey : Option String := none
  sellerPubkey : Option String := none
  masterBuyerPubkey : Option String := none
  masterSellerPubkey : Option String := none
  buyerSentRate : Bool := false
  sellerSentRate : Bool := false
  deriving DecidableEq, Repr

structure User where
  pubkey : String
  lastRating : Int := 0
  minRating : Int := 0
  maxRating : Int := 0
  totalReviews : Int := 0
  totalRating : ℚ := 0
  createdAt : Int := 0
  deriving DecidableEq, Repr

structure Db where
  orders : List RatedOrder
  users : List User
  orders_key : (orders.map (·.id)).Nodup := by decide
  users_key : (users.map (·.pubkey)).Nodup := by decide
  deriving DecidableEq

structure RateMessage where
  orderId : Option Uuid
  sender : String
  rating : Option Nat
  deriving DecidableEq, Repr

/-- What `mostro-core` decides: how a vote changes a user, which identities take part in an order (a
side in full privacy has none), and the range of a vote. -/
structure Externals where
  updateRating : User → Nat → User
  isFullPrivacyOrder : RatedOrder → Option (Option String × Option String)
  minRating : Int
  maxRating : Int

def Externals.CountsReview (ext : Externals) : Prop :=
  ∀ u rating, (ext.updateRating u rating).pubkey = u.pubkey ∧
    (ext.updateRating u rating).totalReviews = u.totalReviews + 1

/-- The identities of an order are those stored with it. -/
def Externals.Identifies (ext : Externals) : Prop :=
  ∀ o buyer seller, ext.isFullPrivacyOrder o = some (buyer,seller) →
    (∀ k, buyer = some k → o.masterBuyerPubkey = some k) ∧
      ∀ k, seller = some k → o.masterSellerPubkey = some k

structure Success where
  order : Uuid
  buyerSide : Bool
  rated : String
  rating : Nat
  deriving DecidableEq, Repr

/-- A rating event: the `d` tag, the rating its tags show and the age of the user in days.  The
rating it is about is not part of the event. -/
structure RatingEvent where
  identifier : String
  user : User
  days : Nat
  success : Success
  deriving DecidableEq, Repr

def RatedOrder.sentRate (buyerSide : Bool) (o : RatedOrder) : Bool :=
  if buyerSide then o.buyerSentRate else o.sellerSentRate

def RatedOrder.tradeKey (buyer : Bool) (o : RatedOrder) : Option String :=
  if buyer then o.buyerPubkey else o.sellerPubkey

def RatedOrder.identity (buyer : Bool) (o : RatedOrder) : Option String :=
  if buyer then o.masterBuyerPubkey else o.masterSellerPubkey

def RatedOrder.setSentRate (buyerSide : Bool) (o : RatedOrder) : RatedOrder :=
  if buyerSide then { o with buyerSentRate := true } else { o with sellerSentRate := true }

theorem setSentRate_id (buyerSide : Bool) (o : RatedOrder) :
    (o.setSentRate buyerSide).id = o.id := by
  cases buyerSide <;> rfl

/-- The rows that `claim_order_rating_flag` updates. -/
def claimable (id : Uuid) (buyerSide : Bool) (o : RatedOrder) : Bool :=
  o.id == id && !o.sentRate buyerSide &&
    (o.status == .success || !buyerSide && o.status == .settledHoldInvoice)

def checkUserRating (ext : Externals) (u : User) : Except MostroError Unit :=
  let inRange (x : Int) : Bool := 0 ≤ x && x ≤ 5
  if !isHexKey u.pubkey then .error (.cantDo .invalidPubkey)
  else if inRange u.lastRating && inRange u.minRating && inRange u.maxRating &&
      ext.minRating ≤ u.lastRating && u.lastRating ≤ ext.maxRating && 0 ≤ u.totalReviews &&
      0 ≤ u.totalRating && u.totalRating ≤ u.totalReviews * 5 &&
      u.minRating ≤ u.lastRating && u.lastRating ≤ u.maxRating then .ok ()
  else .error (.cantDo .invalidRating)

/-- What the source calls the counterpart's key, which is the sender's own, and which side rates.
The sender is a parsed key written in hex, so a column equal to it parses to the same key again. -/
def prepareVariablesForVote (sender : String) (order : RatedOrder) :
    Except MostroError (String × Bool × Bool) :=
  match order.sellerPubkey, order.buyerPubkey with
  | some seller, some buyer =>
    if sender = buyer then .ok (buyer,true,false)
    else if sender = seller then .ok (seller,false,true)
    else .ok ("",false,false)
  | _, _ => .error .invalidPubkey

def calculateDaysSinceCreation (createdAt now : Int) : Nat :=
  if 0 < createdAt then ((now - createdAt).toNat) / 86400 else 0

inductive RateOp where
  | orderById (id : Uuid)
  | begin
  | claimOrderRatingFlag (id : Uuid) (buyerSide : Bool)
  | readUser (pubkey : String)
  | updateUser (user : User)
  | commit (success : Success)
  | rollback
  | timestamp
  | newRatingEvent
  | push (event : RatingEvent)
  | readQueue
  | sendEvent (event : RatingEvent)
  | releaseQueue
  | clearQueue

abbrev RateOp.Res : RateOp → Type
  | .orderById _ => Except MostroError (Option RatedOrder)
  | .begin => Except MostroError Unit
  | .claimOrderRatingFlag _ _ => Except MostroError Bool
  | .readUser _ => Except MostroError User
  | .updateUser _ => Except MostroError Bool
  | .commit _ => Except MostroError Unit
  | .timestamp => Int
  | .newRatingEvent => Except MostroError Unit
  | .readQueue => List RatingEvent
  | .rollback | .push _ | .sendEvent _ | .releaseQueue | .clearQueue => Unit

abbrev RateM := Prog RateOp RateOp.Res MostroError

def orFail {α : Type} (r : Except MostroError α) : RateM α :=
  match r with
  | .ok a => .ret a
  | .error e => .fail e

def ensure (c : Bool) (e : MostroError) : RateM Unit := if c then .ret () else .fail e

def require {α : Type} (o : Option α) (e : MostroError) : RateM α :=
  match o with
  | some a => .ret a
  | none => .fail e

def getOrder (id : Option Uuid) : RateM RatedOrder := do
  let id ← require id (.cantDo .notFound)
  let found ← orFail (← Prog.perform (.orderById id))
  require found (.cantDo .notFound)

def rateInTransaction (ext : Externals) (success : Success) : RateM (Option User) := do
  let claimed ← orFail (← Prog.perform (.claimOrderRatingFlag success.order success.buyerSide))
  if !claimed then pure none
  else do
    let user ← orFail (← Prog.perform (.readUser success.rated))
    let voted := ext.updateRating user success.rating
    orFail (checkUserRating ext voted)
    let _ ← orFail (← Prog.perform (.updateUser voted))
    orFail (← Prog.perform (.commit success))
    pure (some voted)

def updateUserRatingEvent (identifier : String) (success : Success) (user : User) : RateM Unit := do
  let now ← Prog.perform .timestamp
  orFail (← Prog.perform .newRatingEvent)
  let days := calculateDaysSinceCreation user.createdAt now
  Prog.perform (RateOp.push { identifier, user, days, success })

def applyRating (ext : Externals) (identifier : String) (success : Success) : RateM Unit := do
  orFail (← Prog.perform .begin)
  match ← (rateInTransaction ext success).attempt with
  | .ok (some voted) => updateUserRatingEvent identifier success voted
  | .ok none => Prog.perform RateOp.rollback
  | .error e => do
    Prog.perform RateOp.rollback
    .fail e

def rateOrder (ext : Externals) (msg : RateMessage) (order : RatedOrder) : RateM Unit := do
  let (identifier,buyerRating,sellerRating) ← orFail (prepareVariablesForVote msg.sender order)
  ensure (order.status == .success || order.status == .settledHoldInvoice && sellerRating)
    (.cantDo .invalidOrderStatus)
  let updateSellerRate := sellerRating && !order.sellerSentRate
  let updateBuyerRate := !updateSellerRate && buyerRating && !order.buyerSentRate
  if !updateBuyerRate && !updateSellerRate then pure ()
  else do
    let rating ← require msg.rating .unexpected
    let (buyerId,sellerId) ← require (ext.isFullPrivacyOrder order) .invalidPubkey
    match if buyerRating then sellerId else buyerId with
    | none => pure ()
    | some rated =>
      applyRating ext identifier { order := order.id, buyerSide := updateBuyerRate, rated, rating }

def updateUserReputationAction (ext : Externals) (msg : RateMessage) : RateM Unit := do
  let order ← getOrder msg.orderId
  rateOrder ext msg order

def jobUpdateRateEvents : RateM Unit := do
  let events ← Prog.perform .readQueue
  Prog.forEach events fun e => Prog.perform (RateOp.sendEvent e)
  Prog.perform RateOp.releaseQueue
  Prog.perform RateOp.clearQueue

inductive Rater where
  | rate (task : Nat) (msg : RateMessage)
  | updateRateEvents
  deriving DecidableEq, Repr

structure Tx where
  owner : Rater
  db : Db
  deriving DecidableEq

/-- `rated`, `pushed` and `handed` record the committed ratings, the events that entered the queue
and those given to the relay client. -/
structure RatingState where
  db : Db
  tx : Option Tx := none
  queue : List RatingEvent := []
  reading : Bool := false
  waiting : List RatingEvent := []
  now : Int := 0
  rated : List Success := []
  pushed : List RatingEvent := []
  handed : List RatingEvent := []
  deriving DecidableEq

inductive RateChoice where
  | ok
  | fault
  deriving DecidableEq, Repr

def RatingState.view (s : RatingState) (l : Rater) : Db :=
  match s.tx with
  | some tx => if tx.owner = l then tx.db else s.db
  | none => s.db

def RatingState.holds (s : RatingState) (l : Rater) : Bool := s.tx.any (·.owner == l)

def Db.claim (db : Db) (id : Uuid) (buyerSide : Bool) : Db where
  orders := updateWhere (claimable id buyerSide) (·.setSentRate buyerSide) db.orders
  users := db.users
  orders_key := by
    rw [map_updateWhere _ fun o _ _ => setSentRate_id buyerSide o]
    exact db.orders_key
  users_key := db.users_key

/-- The columns that `update_user_rating` writes; the user's other columns stay. -/
def User.setRating (voted u : User) : User :=
  { voted with pubkey := u.pubkey, createdAt := u.createdAt }

theorem setRating_pubkey (voted u : User) : (voted.setRating u).pubkey = u.pubkey := rfl

def Db.vote (db : Db) (voted : User) : Db where
  orders := db.orders
  users := updateWhere (·.pubkey == voted.pubkey) voted.setRating db.users
  orders_key := db.orders_key
  users_key := by
    rw [map_updateWhere _ fun u _ _ => setRating_pubkey voted u]
    exact db.users_key

def RateOp.exec (l : Rater) (op : RateOp) (ch : RateChoice) (s : RatingState) :
    RatingState × op.Res :=
  match op with
  | .orderById id =>
    (s,if ch = .fault then .error .dbAccess else .ok (s.db.orders.find? (·.id == id)))
  | .begin => (s,if ch = .fault then .error .dbAccess else .ok ())
  | .claimOrderRatingFlag id buyerSide =>
    -- another transaction that has written keeps this one from writing
    if ch = .fault ∨ s.tx.isSome then (s,.error .dbAccess)
    else ({ s with tx := some ⟨l,s.db.claim id buyerSide⟩ },
      .ok (affected (claimable id buyerSide) s.db.orders == 1))
  | .readUser pubkey =>
    (s,if ch = .fault then .error .dbAccess
      else match (s.view l).users.find? (·.pubkey == pubkey) with
        | some u => .ok u
        | none => .error .dbAccess)
  | .updateUser user =>
    if ch = .fault then (s,.error .dbAccess)
    else match s.tx with
      | some tx =>
        if tx.owner = l then
          ({ s with tx := some ⟨l,tx.db.vote user⟩ },
            .ok (decide (0 < affected (·.pubkey == user.pubkey) tx.db.users)))
        else (s,.error .dbAccess)
      | none => (s,.error .dbAccess)
  | .commit success =>
    match s.tx with
    | some tx =>
      if tx.owner = l then
        if ch = .fault then ({ s with tx := none },.error .dbAccess)
        else ({ s with db := tx.db, tx := none, rated := success :: s.rated },.ok ())
      else (s,.error .dbAccess)
    | none => (s,.error .dbAccess)
  | .rollback => (if s.holds l then { s with tx := none } else s,())
  | .timestamp => (s,s.now)
  | .newRatingEvent => (s,if ch = .fault then .error .nostr else .ok ())
  | .push event =>
    (if s.reading then { s with waiting := s.waiting ++ [event] }
      else { s with queue := s.queue ++ [event], pushed := s.pushed ++ [event] },())
  | .readQueue => ({ s with reading := true },s.queue)
  | .sendEvent event => ({ s with handed := s.handed ++ [event] },())
  | .releaseQueue =>
    ({ s with
        reading := false, queue := s.queue ++ s.waiting, pushed := s.pushed ++ s.waiting
        waiting := [] },())
  | .clearQueue => ({ s with queue := [] },())

def Rater.code (ext : Externals) : Rater → RateM Unit
  | .rate _ msg => updateUserReputationAction ext msg
  | .updateRateEvents => jobUpdateRateEvents

/-- Messages run side by side with each other and with the one job; in between, time passes. -/
def ratings (ext : Externals) :
    System RatingState Rater RateOp RateOp.Res MostroError RateChoice Nat where
  exec := RateOp.exec
  code := Rater.code ext
  launch _ s := some s
  coexist l l' := l != l'
  env secs s := some { s with now := s.now + secs }
  kills _ := false

end Mostro.Ratings
