import Mostro.BuyerPayout

set_option autoImplicit false

/-!
The actions users and solvers send: taking an order, the buyer's invoice, fiat sent, release,
disputes and their resolution, and the cashu escrow (`app/*.rs`).
-/

namespace Mostro

open Interleaving

/-! ### Taking an order -/

structure TakeMessage where
  order : Uuid
  sender : Pubkey
  identity : Pubkey
  tradeIndex : Option Int := none
  fiatAmount : Option Int := none
  paymentRequest : Option PaymentRequest := none

def isOrderTakeWindowClosed (o : Order) (now : Int) : Bool :=
  decide (0 < o.expiresAt) && decide (o.expiresAt ≤ now)

def checkTake (m : TakeMessage) (kind : Kind) (side : Side) : M Order := do
  let order ← getOrder m.order
  let busy : Bool ← query (.hasPendingOrder m.identity side)
  ensure (!busy) (.cantDo .pendingOrderExists)
  ensure (order.kind == kind) (.cantDo .invalidOrderKind)
  ensure (pretradeStatuses.contains order.status) (.cantDo .invalidOrderStatus)
  let now ← timestamp
  ensure (!isOrderTakeWindowClosed order now) (.cantDo .invalidOrderStatus)
  ensure (order.creatorPubkey != m.sender) (.cantDo .invalidPubkey)
  pure order

/-- The bond gate: whether the take goes on.  It ends when the sender's own bond is outstanding,
and fails when a taker has already locked one. -/
def takerBondGate (cfg : Settings) (order : Order) (sender : Pubkey) : M Bool :=
  if takerBondRequired cfg then do
    let active : List Bond ← query (.findActiveBondsForOrder order.id)
    ensure (!tradeCommittedByLockedTakerBond active) (.cantDo .pendingOrderExists)
    pure (!(active.any fun b => b.pubkey == sender))
  else pure true

def priceTake (ext : Externals) (order : Order) (requested : Option Int) : M Order := do
  let fiat ← require (getFiatAmountRequested order requested) (.cantDo .outOfRangeSatsAmount)
  let order := { order with fiatAmount := fiat }
  if order.amount = 0 then do
    let quote : Int × Int ← ask (.marketAmountAndFee fiat)
    pure { order with amount := quote.1, fee := quote.2, devFee := ext.getDevFee (quote.2 * 2) }
  else pure { order with devFee := ext.getDevFee (order.fee * 2) }

def takeTradeIndex (m : TakeMessage) : M Int := do
  let index ← require (m.tradeIndex.or (if m.identity = m.sender then some 0 else none))
    (.cantDo .invalidPayload)
  check .updateUserTradeIndex
  pure index

def takerContext (m : TakeMessage) (order : Order) (index : Int)
    (invoice : Option PaymentRequest) : TakerContext :=
  { identity := m.identity, tradeIndex := index, buyerInvoice := invoice,
    fiatAmount := order.fiatAmount, amount := order.amount, fee := order.fee,
    devFee := order.devFee }

/-- `update_order_status` of `take_sell.rs`. -/
def awaitBuyerInvoice (order : Order) : M Unit := do
  let _ ← require order.buyerPubkey .invalidPubkey
  setWaitingInvoiceStatus order
  let orderUpdated ← updateOrderEvent .waitingBuyerInvoice order
  let won ← runOrder (.casCompletePretradeTake orderUpdated false)
  if won = 0 then do
    republishWinningStateAfterCasMiss order.id
    .fail (.cantDo .notAllowedByStatus)
  else pure ()

def takeSellAction (cfg : Settings) (ext : Externals) (m : TakeMessage) : M Unit := do
  let order ← checkTake m .sell .buyer
  if ← takerBondGate cfg order m.sender then do
    let seller ← require order.sellerPubkey .invalidPubkey
    let order ← priceTake ext order m.fiatAmount
    let invoice := if cfg.cashu then none else m.paymentRequest
    check (.validateInvoice invoice order.amount order.fee)
    let index ← takeTradeIndex m
    if takerBondRequired cfg then do
      let _ ← requestTakerBond cfg order m.sender (takerContext m order index invoice)
      pure ()
    else do
      let order ← setTimestampNow { order with
        buyerPubkey := some m.sender
        masterBuyerPubkey := some m.identity
        tradeIndexBuyer := some index }
      if cfg.cashu then showCashuEscrowRequest m.sender seller order
      else if invoice.isNone then awaitBuyerInvoice order
      else showHoldInvoice invoice m.sender seller order .take
  else pure ()

/-- Reports any error of `p` as a hold invoice error. -/
def asHoldInvoiceError (p : M Unit) : M Unit := do
  match ← p.attempt with
  | .ok _ => pure ()
  | .error e => .fail (.holdInvoiceCause e)

def takeBuyAction (cfg : Settings) (ext : Externals) (m : TakeMessage) : M Unit := do
  let order ← checkTake m .buy .seller
  if ← takerBondGate cfg order m.sender then do
    let order ← priceTake ext order m.fiatAmount
    let buyer ← require order.buyerPubkey .invalidPubkey
    let index ← takeTradeIndex m
    if takerBondRequired cfg then do
      let _ ← requestTakerBond cfg order m.sender (takerContext m order index none)
      pure ()
    else do
      let order ← setTimestampNow { order with
        masterSellerPubkey := some m.identity
        tradeIndexSeller := some index }
      if cfg.cashu then showCashuEscrowRequest buyer m.sender order
      else asHoldInvoiceError (showHoldInvoice none buyer m.sender order .take)
  else pure ()

/-! ### During the trade -/

def addInvoiceAction (id : Uuid) (sender : Pubkey) (request : Option PaymentRequest) :
    M Unit := do
  let order ← getOrder id
  let buyer ← require order.buyerPubkey .invalidPubkey
  ensure (buyer == sender) (.cantDo .invalidPeer)
  check (.validateInvoice request order.amount order.fee)
  let withInvoice := { order with buyerInvoice := request }
  match order.status with
  | .settledHoldInvoice => do
    let stored ← runOrder (.payNewInvoice order.id request)
    ensure (stored != 0) (.cantDo .notAllowedByStatus)
  | .waitingBuyerInvoice => do
    check .takerReputation
    let seller ← require order.sellerPubkey .invalidPubkey
    if order.preimage.isSome then do
      let active ← updateOrderEvent .active withInvoice
      updateOrder order active
    else asHoldInvoiceError (showHoldInvoice none buyer seller withInvoice .buyerInvoice)
  | _ => .fail (.cantDo .notAllowedByStatus)

abbrev NextTrade := Option (Pubkey × Int)

def fiatSentAction (id : Uuid) (sender : Pubkey) (nextTrade : NextTrade) : M Unit := do
  let order ← getOrder id
  ensure (order.status == .active) (.cantDo .invalidOrderStatus)
  ensure (order.buyerPubkey == some sender) (.cantDo .invalidPubkey)
  let orderUpdated ← updateOrderEvent .fiatSent order
  let _ ← require order.sellerPubkey .invalidPubkey
  updateOrder order (match order.isRangeOrder, nextTrade with
    | true,some (pubkey,index) =>
      { orderUpdated with nextTradePubkey := some pubkey, nextTradeIndex := some index }
    | _,_ => orderUpdated)

def tradePubkeyAction (id : Uuid) (sender identity : Pubkey) : M Unit := do
  let order ← getOrder id
  ensure (pretradeStatuses.contains order.status) (.cantDo .invalidOrderStatus)
  match order.kind with
  | .sell => do
    let maker ← require order.masterSellerPubkey .invalidPubkey
    ensure (maker == identity) .invalidPubkey
    updateOrder order { order with sellerPubkey := some sender, creatorPubkey := sender }
  | .buy => do
    let maker ← require order.masterBuyerPubkey .invalidPubkey
    ensure (maker == identity) .invalidPubkey
    updateOrder order { order with buyerPubkey := some sender, creatorPubkey := sender }

/-! ### Release -/

/-- `close_dispute_after_user_resolution`: best effort. -/
def closeDisputeAfterUserResolution (order : Uuid) (status : DisputeStatus) : M Unit := do
  let found : Except MostroError (Option Dispute) ← (query (.findDisputeByOrderId order)).attempt
  match found with
  | .ok (some d) => (ask (.dispute (.update { d with status }))).ignore
  | _ => pure ()

/-- `create_base_order`; the id is drawn when the row is inserted. -/
def createBaseOrder (order : Order) : Order :=
  let base := { order with
    id := 0, status := .pending, amount := 0, hash := none, preimage := none, buyerInvoice := none,
    takenAt := 0, invoiceHeldAt := 0, rangeParentId := some order.id, nextTradeIndex := none,
    nextTradePubkey := none }
  match order.kind with
  | .sell => { base with
      buyerPubkey := none, masterBuyerPubkey := none, tradeIndexBuyer := none }
  | .buy => { base with
      sellerPubkey := none, masterSellerPubkey := none, tradeIndexSeller := none }

def getChildOrder (order : Order) : M (Option Order) :=
  match order.maxAmount, order.minAmount with
  | some high, some low => do
    let newMax := high - order.fiatAmount
    if newMax < low then pure none
    else do
      let base := createBaseOrder order
      let child := if newMax = low then
          { base with fiatAmount := newMax, maxAmount := none, minAmount := none }
        else { base with maxAmount := some newMax, fiatAmount := 0 }
      let _ ← require (match child.kind with
        | .sell => child.masterSellerPubkey
        | .buy => child.masterBuyerPubkey) .invalidPubkey
      check .orderTags
      pure (some child)
  | _, _ => pure none

def handleChildOrder (ext : Externals) (child order : Order) (nextTrade : NextTrade) :
    M Unit := do
  let keys ← require (ext.fullPrivacyKeys order) .unexpected
  if order.kind = .buy ∧ order.buyerPubkey = some order.creatorPubkey then do
    let next ← require order.nextTradePubkey .unexpected
    let _ ← execOrder (.create { child with
      buyerPubkey := some next, tradeIndexBuyer := order.nextTradeIndex, creatorPubkey := next,
      masterBuyerPubkey := keys.1.or (some next) })
    pure ()
  else if order.kind = .sell ∧ order.sellerPubkey = some order.creatorPubkey then do
    let next ← require nextTrade .unexpected
    let _ ← execOrder (.create { child with
      sellerPubkey := some next.1, tradeIndexSeller := some next.2, creatorPubkey := next.1,
      masterSellerPubkey := keys.2.or (some next.1) })
    pure ()
  else .fail .unexpected

def continueOrCloseRange (ext : Externals) (order : Order) (nextTrade : NextTrade) : M Unit := do
  match ← (getChildOrder order).attempt with
  | .ok (some child) => do
    match ← (handleChildOrder ext child order nextTrade).attempt with
    | .ok _ => pure ()
    | .error _ => resolveRangeMakerBondAtCloseOrWarn order
  | _ => resolveRangeMakerBondAtCloseOrWarn order

def releaseAction (cfg : Settings) (ext : Externals) (id : Uuid) (sender : Pubkey)
    (nextTrade : NextTrade) : M Unit := do
  let order ← getOrder id
  let seller ← require order.sellerPubkey .invalidPubkey
  let _ ← require order.buyerPubkey .invalidPubkey
  ensure (seller == sender) (.cantDo .invalidPeer)
  ensure ([Status.fiatSent,.dispute].contains order.status) (.cantDo .notAllowedByStatus)
  settleSellerHoldInvoice sender false order
  let order ← updateOrderEvent .settledHoldInvoice order
  let settled ← runOrder (.settleFromRelease order.id)
  if settled = 0 then pure ()
  else do
    closeDisputeAfterUserResolution order.id .settled
    continueOrCloseRange ext order nextTrade
    releaseTakerBondsForOrderOrWarn order.id
    (doPayment cfg ext order).ignore

/-! ### Disputes -/

def disputeAction (ext : Externals) (id : Uuid) (sender : Pubkey) : M Unit := do
  let found : Except MostroError (Option Dispute) ← (query (.findDisputeByOrderId id)).attempt
  ensure ((found.toOption.bind fun d => d).isNone) .disputeAlreadyExists
  let order ← getOrder id
  ensure ([Status.active,.fiatSent].contains order.status) (.cantDo .notAllowedByStatus)
  let seller ← require order.sellerPubkey .invalidPubkey
  let buyer ← require order.buyerPubkey .invalidPubkey
  ensure (sender == buyer || sender == seller) (.cantDo .invalidPubkey)
  let now ← timestamp
  let disputed ← require (ext.setupDispute order (sender == buyer)) (.cantDo .notAllowedByStatus)
  updateOrder order disputed
  let _ ← ask (.dispute (.create
    { id := 0, orderId := id, status := .initiated, createdAt := now }))
  check .disputeEvent

def closeDisputeByAdmin (order : Order) (status : DisputeStatus) (d : Dispute) : M Unit := do
  let _ ← ask (.dispute (.update { d with status }))
  ensure (order.sellerDispute != order.buyerDispute) .disputeEvent
  check .disputeEvent

def adminSettleAction (cfg : Settings) (ext : Externals) (id : Uuid)
    (resolution : BondResolution) : M Unit := do
  let order ← getOrder id
  check (.disputePermission order.id)
  if order.status = .cooperativelyCanceled then pure ()
  else do
    ensure (order.status == .dispute) (.cantDo .invalidOrderStatus)
    validateBondResolution order resolution
    match ← (settleSellerHoldInvoice 0 true order).attempt with
    | .error _ => .fail .lnNode
    | .ok _ => do
      let orderUpdated ← updateOrderEvent .settledHoldInvoice order
      let settled ← runOrder (.settleFromAdmin order.id)
      if settled = 0 then pure ()
      else do
        let found : Except MostroError (Option Dispute) ←
          (query (.findDisputeByOrderId order.id)).attempt
        match found with
        | .ok (some d) => closeDisputeByAdmin order .settled d
        | _ => pure ()
        (applyBondResolution cfg orderUpdated resolution .lostDispute).ignore
        (resolveRangeMakerBondAtClose orderUpdated).ignore
        (doPayment cfg ext orderUpdated).ignore

/-- `cancel_hold_invoice` on the escrow of an order, if it has one. -/
def cancelEscrow (order : Order) : M Unit :=
  match order.hash with
  | some hash => lnd (.cancelHoldInvoice hash)
  | none => pure ()

def adminCancelAction (cfg : Settings) (id : Uuid) (resolution : BondResolution) : M Unit := do
  let order ← getOrder id
  check (.disputePermission order.id)
  if order.status = .cooperativelyCanceled then pure ()
  else do
    ensure (order.status == .dispute) (.cantDo .notAllowedByStatus)
    validateBondResolution order resolution
    cancelEscrow order
    let found : Except MostroError (Option Dispute) ←
      (query (.findDisputeByOrderId order.id)).attempt
    ensure (order.sellerDispute != order.buyerDispute) .disputeEvent
    match found with
    | .ok (some d) => closeDisputeByAdmin order .sellerRefunded d
    | _ => pure ()
    let orderUpdated ← updateOrderEvent .canceledByAdmin order
    updateOrder order orderUpdated
    check .sendDm
    let _ ← require order.sellerPubkey .invalidPubkey
    let _ ← require order.buyerPubkey .invalidPubkey
    check .sendDm
    check .sendDm
    (applyBondResolution cfg order resolution .lostDispute).ignore
    (resolveRangeMakerBondAtClose order).ignore

def adminTakeDisputeAction (id : Uuid) (solver : Pubkey) : M Unit := do
  match ← query (.disputeById id) with
  | none => .fail (.cantDo .notFound)
  | some d => do
    check (.disputePermission d.orderId)
    let order ← getOrder d.orderId
    let now ← timestamp
    let _ ← ask (.dispute (.update
      { d with status := .inProgress, solverPubkey := some solver, takenAt := now }))
    ensure (order.sellerDispute != order.buyerDispute) .disputeEvent
    check .sendDm
    check .disputeEvent

/-! ### Cashu escrow -/

/-- What `AddCashuEscrow` carries, as far as it is stored. -/
structure CashuLockProof where
  mint : Nat
  token : Nat

def addCashuEscrowAction (id : Uuid) (sender : Pubkey) (proof : CashuLockProof) : M Unit := do
  let order ← getOrder id
  let seller ← require order.sellerPubkey .invalidPubkey
  ensure (seller == sender) (.cantDo .invalidPeer)
  let _ ← require order.buyerPubkey .invalidPubkey
  if order.cashuEscrowLockedAt.isSome ∧ order.status = .active then
    ensure (order.cashuEscrowToken == some proof.token) (.cantDo .invalidCashuToken)
  else do
    ensure (order.status == .waitingPayment) (.cantDo .invalidOrderStatus)
    ensure (0 < order.amount) (.cantDo .invalidAmount)
    let used : Bool ← query (.cashuEscrowTokenInUse proof.token order.id)
    ensure (!used) (.cantDo .invalidCashuToken)
    let now ← timestamp
    check .verifyEscrowToken
    let locked ← runOrder
      (.updateOrderCashuEscrow order.id proof.mint proof.token now .waitingPayment .active)
    if locked = 0 then do
      let used : Bool ← query (.cashuEscrowTokenInUse proof.token order.id)
      ensure (!used) (.cantDo .invalidCashuToken)
      let fresh : Except MostroError (Option Order) ← (query (.orderById order.id)).attempt
      ensure (!((fresh.toOption.bind fun o => o).any fun o =>
        o.cashuEscrowLockedAt.isSome && o.cashuEscrowToken != some proof.token))
        (.cantDo .invalidCashuToken)
    else do
      let fresh : Except MostroError (Option Order) ← (query (.orderById order.id)).attempt
      match fresh with
      | .ok (some fresh) => do
        match ← (updateOrderEvent .active fresh).attempt with
        -- the lock has made the row active, as far as this handler knows
        | .ok updated => (updateOrder { fresh with status := .active } updated).ignore
        | .error _ => pure ()
      | _ => pure ()

/-! ### Cancel -/

def cancelPendingOrderFromMaker (order : Order) (sender : Pubkey) : M Unit := do
  ensure (order.creatorPubkey == sender) (.cantDo .isNotYourOrder)
  match ← (updateOrderEvent .canceled order).attempt with
  | .error _ => .fail .dbAccess
  | .ok _ => do
    let won ← runOrder (.casPretradeOrderStatus order.id .canceled)
    if won = 0 then do
      republishWinningStateAfterCasMiss order.id
      .fail (.cantDo .notAllowedByStatus)
    else do
      releaseTakerBondsForOrderOrWarn order.id
      resolveRangeMakerBondAtCloseOrWarn order

def Order.resetApiQuotes (o : Order) : Order :=
  if o.priceFromApi then { o with amount := 0, fee := 0, devFee := 0 } else o

/-- `edit_pubkeys_order` and the order as it is stored after it. -/
def editPubkeysOrder (order : Order) : M Order := do
  let edited ← runOrder (.editPubkeysOrder order.id order.kind)
  ensure (edited != 0) .dbAccess
  requireOrder order.id .dbAccess

def cancelOrderByTakerInner (order : Order) : M Unit := do
  cancelEscrow order
  let order := order.resetApiQuotes
  let _ ← runOrder (.updateOrderToInitialState order order.amount order.fee order.devFee)
  let order ← editPubkeysOrder order
  let _ ← updateOrderEvent .pending order
  pure ()

def cancelOrderByTaker (order : Order) (sender : Pubkey) : M Unit := do
  let senderBond : Option Bond ← query (.findActiveBondByTaker order.id sender)
  match senderBond with
  | some bond => (releaseBond bond).ignore
  | none => pure ()
  let remaining : List Bond ← query (.findActiveBondsForOrder order.id)
  if remaining.any fun b => b.pubkey != sender && b.role == .taker then pure ()
  else cancelOrderByTakerInner order

def cancelOrderByMaker (order : Order) : M Unit := do
  match ← (updateOrderEvent .canceled order).attempt with
  | .ok orderUpdated => updateOrder order orderUpdated
  | .error _ => pure ()
  cancelEscrow order
  releaseTakerBondsForOrderOrWarn order.id
  resolveRangeMakerBondAtCloseOrWarn order

def cancelNotActiveOrder (order : Order) (sender : Pubkey) : M Unit := do
  let seller ← require order.sellerPubkey .invalidPubkey
  let buyer ← require order.buyerPubkey .invalidPubkey
  let taker ← require (if order.creatorPubkey = seller then some buyer
    else if order.creatorPubkey = buyer then some seller else none) .invalidPubkey
  if order.creatorPubkey = sender then cancelOrderByMaker order
  else if sender = taker then cancelOrderByTaker order sender
  else .fail (.cantDo .invalidPubkey)

/-- `cancel_cooperative_execution_step_2`; `read` is the order as it was read, without the flag
the confirmation sets. -/
def cancelCooperativeExecutionStep2 (read order : Order) (sender : Pubkey) : M Unit := do
  ensure (order.cancelInitiatorPubkey != some sender) (.cantDo .invalidPubkey)
  cancelEscrow order
  let order := { order with status := .cooperativelyCanceled }
  updateOrder read order
  let _ ← updateOrderEvent .cooperativelyCanceled order
  closeDisputeAfterUserResolution order.id .sellerRefunded
  releaseTakerBondsForOrderOrWarn order.id
  resolveRangeMakerBondAtCloseOrWarn order

def cancelActiveOrder (order : Order) (sender : Pubkey) : M Unit := do
  let seller ← require order.sellerPubkey .invalidPubkey
  let buyer ← require order.buyerPubkey .invalidPubkey
  ensure (sender == buyer || sender == seller) (.cantDo .invalidPubkey)
  let flagged := if buyer = sender then { order with buyerCooperativecancel := true }
    else { order with sellerCooperativecancel := true }
  let counterparty := if buyer = sender then seller else buyer
  match order.cancelInitiatorPubkey with
  | some initiator => do
    ensure (initiator == counterparty) (.cantDo .invalidPubkey)
    cancelCooperativeExecutionStep2 order flagged sender
  | none => updateOrder order { flagged with cancelInitiatorPubkey := some sender }

def cancelAction (id : Uuid) (sender : Pubkey) : M Unit := do
  let order ← getOrder id
  match order.status with
  | .canceled | .cooperativelyCanceled | .canceledByAdmin =>
    .fail (.cantDo .orderAlreadyCanceled)
  | .pending | .waitingTakerBond =>
    if order.creatorPubkey = sender then cancelPendingOrderFromMaker order sender
    else do
      let bonds : Except MostroError (List Bond) ←
        (query (.findActiveBondsForOrder order.id)).attempt
      let bondMatch := (bonds.toOption.getD []).any fun b => b.pubkey == sender
      let orderTakerMatch := order.buyerPubkey == some sender || order.sellerPubkey == some sender
      if bondMatch || orderTakerMatch then cancelOrderByTaker order sender
      else .fail (.cantDo .isNotYourOrder)
  | .waitingPayment | .waitingBuyerInvoice => cancelNotActiveOrder order sender
  | .active | .fiatSent | .dispute => cancelActiveOrder order sender
  | _ => .fail (.cantDo .notAllowedByStatus)

end Mostro
