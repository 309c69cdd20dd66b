import Mostro.EscrowRequests

set_option autoImplicit false

/-!
`app/bond/flow.rs`: requesting, locking and releasing bonds, with the publication of new orders in
`util.rs` that waits for a maker bond.
-/

namespace Mostro

open Interleaving

def MostroError.cancelOutcome : MostroError → CancelOutcome
  | .holdInvoice text => classifyCancelError text
  | _ => .transient

/-- `cancel_hold_invoice` of a bond: an error that says the invoice is gone counts as done. -/
def cancelBondInvoice (hash : Hash) : M Unit := do
  lnd .connect
  match ← (lnd (.cancelHoldInvoice hash)).attempt with
  | .ok _ => pure ()
  | .error e => ensure (e.cancelOutcome == .alreadyDone) e

/-- The full-row write that ends `release_bond` and `on_bond_invoice_canceled`. -/
def markReleased (bond : Bond) : M Unit := do
  let now ← timestamp
  updateBond bond { bond with state := .released, releasedAt := some now }

def releaseBond (bond : Bond) : M Unit :=
  if bond.state.isTerminal then pure ()
  else match bond.hash with
    | none => markReleased bond
    | some hash => do
      cancelBondInvoice hash
      markReleased bond

def releaseActiveBonds (order : Uuid) (retainMakers : Bool) : M Unit := do
  let bonds ← query (.findActiveBondsForOrder order)
  Prog.forEach bonds fun bond =>
    if retainMakers && bond.role == .maker then pure () else (releaseBond bond).ignore

def releaseBondsForOrderOrWarn (order : Uuid) : M Unit := (releaseActiveBonds order false).ignore

def releaseTakerBondsForOrderOrWarn (order : Uuid) : M Unit :=
  (releaseActiveBonds order true).ignore

/-! ### Requests -/

structure TakerContext where
  identity : Pubkey
  tradeIndex : Int
  buyerInvoice : Option PaymentRequest
  fiatAmount : Int
  amount : Int
  fee : Int
  devFee : Int

def Bond.withTaker (b : Bond) : Option TakerContext → Bond
  | none => b
  | some ctx =>
    { b with
      takerIdentity := some ctx.identity
      takerTradeIndex := some ctx.tradeIndex
      takerInvoice := ctx.buyerInvoice
      takerFiatAmount := some ctx.fiatAmount
      takerAmount := some ctx.amount
      takerFee := some ctx.fee
      takerDevFee := some ctx.devFee }

/-- Creates the hold invoice and the row of a bond, and subscribes to the invoice; a bond nobody
listens to is released again. -/
def requestBond (order : Order) (pubkey : Pubkey) (role : BondRole) (amount : Int)
    (ctx : Option TakerContext) : M Bond := do
  lnd .connect
  let hash ← lnd (.createHoldInvoice (.bond order.id) amount)
  let now ← timestamp
  let bond := { (Bond.newRequested order.id pubkey role amount now).withTaker ctx with
    hash := some hash
    preimage := some hash }
  let id ← execBond (.create bond)
  let bond := { bond with id }
  match ← (invoiceSubscribe hash).attempt with
  | .ok _ => pure bond
  | .error e => do
    (releaseBond bond).ignore
    .fail e

def requestTakerBond (cfg : Settings) (order : Order) (taker : Pubkey) (ctx : TakerContext) :
    M Bond := do
  let bondCfg ← require cfg.bond .unexpected
  let bond ← requestBond order taker .taker (computeBondAmount ctx.amount bondCfg) (some ctx)
  match ← (runOrder (.claimWaitingTakerBond order.id)).attempt with
  | .ok 1 => (updateOrderEvent .waitingTakerBond order).ignore
  | _ => pure ()
  pure bond

def requestMakerBond (cfg : Settings) (order : Order) (maker : Pubkey) (notionalSats : Int) :
    M Bond := do
  let bondCfg ← require cfg.bond .unexpected
  requestBond order maker .maker (computeBondAmount notionalSats bondCfg) none

/-- `finalize_order_publication`; `order` is the row as this handler last knew it. -/
def finalizeOrderPublication (order : Order) : M Unit := do
  check .orderTags
  updateOrder order { order with status := .pending }
  (ask (.updateOrderEvent order.id .pending)).bind fun _ => pure ()

def resumePublishAfterMakerBond (order : Order) : M Unit := do
  let claimed ← runOrder (.claimDeferredPublication order.id)
  if claimed ≠ 1 then pure ()
  else do
    match order.kind with
    | .sell => do
      let _ ← require order.sellerPubkey .invalidPubkey
      let _ ← require order.masterSellerPubkey .invalidPubkey
    | .buy => do
      let _ ← require order.buyerPubkey .invalidPubkey
      let _ ← require order.masterBuyerPubkey .invalidPubkey
    finalizeOrderPublication { order with status := .pending }

structure SmallOrder where
  kind : Option Kind
  amount : Int
  fiatAmount : Int
  minAmount : Option Int
  maxAmount : Option Int
  buyerInvoice : Option PaymentRequest
  expiresAt : Int

/-- `prepare_new_order`; the id is drawn when the row is inserted. -/
def prepareNewOrder (ext : Externals) (new : SmallOrder) (initiator identity trade : Pubkey)
    (tradeIndex : Option Int) : M Order := do
  let kind ← require new.kind (.cantDo .invalidOrderKind)
  let now ← timestamp
  let base : Order :=
    { id := 0, kind, status := .pending, creatorPubkey := initiator, amount := new.amount,
      fee := if 0 < new.amount then ext.getFee new.amount else 0,
      fiatAmount := new.fiatAmount, minAmount := new.minAmount, maxAmount := new.maxAmount,
      buyerInvoice := new.buyerInvoice, createdAt := now, expiresAt := new.expiresAt,
      priceFromApi := new.amount == 0 }
  pure (match kind with
    | .buy => { base with
        buyerPubkey := some trade, masterBuyerPubkey := some identity,
        tradeIndexBuyer := tradeIndex }
    | .sell => { base with
        sellerPubkey := some trade, masterSellerPubkey := some identity,
        tradeIndexSeller := tradeIndex })

/-- `maker_bond_notional_sats`; the price conversion is the quote the market answers. -/
def makerBondNotionalSats (order : Order) : M Int :=
  if order.isRangeOrder then do
    let maxFiat ← require (order.maxAmount.filter (0 < ·)) .unexpected
    let quote ← ask (.marketAmountAndFee maxFiat)
    pure quote.1
  else if 0 < order.amount then pure order.amount
  else do
    let quote ← ask (.marketAmountAndFee order.fiatAmount)
    pure quote.1

def publishOrder (cfg : Settings) (ext : Externals) (new : SmallOrder)
    (initiator identity trade : Pubkey) (tradeIndex : Option Int) : M Unit := do
  let order ← prepareNewOrder ext new initiator identity trade tradeIndex
  if makerBondRequired cfg then do
    let notional ← makerBondNotionalSats order
    let order := { order with status := .waitingMakerBond }
    let id ← execOrder (.create order)
    let order := { order with id }
    match ← (requestMakerBond cfg order trade notional).attempt with
    | .ok _ => pure ()
    | .error e => do
      (execOrder (.deleteStranded order.id)).ignore
      .fail e
  else do
    let id ← execOrder (.create order)
    finalizeOrderPublication { order with id }

/-! ### Callbacks of a bond's invoice -/

def promoteTakerContextToOrder (order : Order) (bond : Bond) : M Order := do
  let order := match order.kind with
    | .buy => { order with
        sellerPubkey := some bond.pubkey, masterSellerPubkey := bond.takerIdentity,
        tradeIndexSeller := bond.takerTradeIndex }
    | .sell => { order with
        buyerPubkey := some bond.pubkey, masterBuyerPubkey := bond.takerIdentity,
        tradeIndexBuyer := bond.takerTradeIndex, buyerInvoice := bond.takerInvoice }
  let order ← setTimestampNow { order with
    fiatAmount := bond.takerFiatAmount.getD order.fiatAmount
    amount := bond.takerAmount.getD order.amount
    fee := bond.takerFee.getD order.fee
    devFee := bond.takerDevFee.getD order.devFee }
  let won ← runOrder (.casPromoteTakerContext order)
  ensure (won != 0) (.cantDo .notAllowedByStatus)
  pure order

def resumeTakeAfterBond (order : Order) : M Unit := do
  let buyer ← require order.buyerPubkey .invalidPubkey
  let seller ← require order.sellerPubkey .invalidPubkey
  match order.kind, order.buyerInvoice with
  | .buy, _ => showHoldInvoice none buyer seller order .take
  | .sell, some request => showHoldInvoice (some request) buyer seller order .take
  | .sell, none => do
    setWaitingInvoiceStatus order
    let _ ← updateOrderEvent .waitingBuyerInvoice order
    let won ← runOrder (.casPretradeOrderStatus order.id .waitingBuyerInvoice)
    if won = 0 then do
      republishWinningStateAfterCasMiss order.id
      .fail (.cantDo .notAllowedByStatus)
    else pure ()

def onMakerBondAccepted (bond : Bond) (hash : Hash) : M Unit := do
  let now ← timestamp
  let _ ← runBond (.lockMaker bond.id now)
  match ← query (.findBondByHash hash) with
  | none => pure ()
  | some current =>
    if current.state ≠ .locked then pure ()
    else do
      let order ← requireOrder current.orderId .unexpected
      if order.status ≠ .waitingMakerBond then pure ()
      else resumePublishAfterMakerBond order

def releaseLosers (current : Bond) : M Unit := do
  let losers : Except MostroError (List Bond) ←
    (query (.findActiveBondsForOrder current.orderId)).attempt
  Prog.forEach (losers.toOption.getD []) fun loser =>
    if loser.id != current.id && loser.state == .requested then (releaseBond loser).ignore
    else pure ()

def resumeLockedTake (current : Bond) : M Unit := do
  let order ← requireOrder current.orderId .unexpected
  if order.status = .pending ∨ order.status = .waitingTakerBond then do
    let order ← promoteTakerContextToOrder order current
    resumeTakeAfterBond order
  else if [Status.canceled,.cooperativelyCanceled,.canceledByAdmin].contains order.status then
    (releaseBond current).ignore
  else pure ()

def onBondInvoiceAccepted (hash : Hash) : M Unit := do
  match ← query (.findBondByHash hash) with
  | none => pure ()
  | some bond =>
    if bond.role = .maker then onMakerBondAccepted bond hash
    else do
      let now ← timestamp
      let locked ← runBond (.lockTaker bond.id bond.orderId now)
      match ← query (.findBondByHash hash) with
      | none => pure ()
      | some current =>
        if locked = 0 ∧ current.state ≠ .locked then
          if current.state.isTerminal then pure () else (releaseBond current).ignore
        else do
          if locked = 1 then releaseLosers current else pure ()
          if current.state = .locked then resumeLockedTake current else pure ()

def maybeDropWaitingTakerBond (order : Uuid) : M Unit := do
  let dropped ← runOrder (.dropWaitingTakerBondToPending order)
  if dropped ≠ 1 then pure ()
  else do
    match ← query (.orderById order) with
    | none => pure ()
    | some fresh => (updateOrderEvent .pending fresh).ignore

def onBondInvoiceCanceled (hash : Hash) : M Unit := do
  match ← query (.findBondByHash hash) with
  | none => pure ()
  | some bond =>
    if bond.state.isTerminal then pure ()
    else do
      markReleased bond
      (maybeDropWaitingTakerBond bond.orderId).ignore

def bondInvoiceMessage (hash : Hash) : M Unit := do
  match ← lnd (.invoiceUpdate hash) with
  | .accepted => onBondInvoiceAccepted hash
  | .canceled => onBondInvoiceCanceled hash
  | .settled | .opened => pure ()

end Mostro
