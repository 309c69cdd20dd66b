import Mostro.Binary64

set_option autoImplicit false

/-!
The rows of the daemon's tables and the pure functions over them.  Identifiers, keys, payment
hashes and payment requests are opaque names; a preimage is named by the payment hash it opens.
-/

namespace Mostro

abbrev Uuid := Nat
abbrev Pubkey := Nat
abbrev Hash := Nat
abbrev PaymentRequest := Nat

inductive Kind where
  | buy
  | sell
  deriving DecidableEq, Repr

inductive Status where
  | active
  | canceled
  | canceledByAdmin
  | settledByAdmin
  | completedByAdmin
  | dispute
  | expired
  | fiatSent
  | settledHoldInvoice
  | pending
  | success
  | waitingBuyerInvoice
  | waitingPayment
  | cooperativelyCanceled
  | inProgress
  | waitingTakerBond
  | waitingMakerBond
  deriving DecidableEq, Repr

def terminalOrderStatuses : List Status :=
  [.success,.canceled,.canceledByAdmin,.settledByAdmin,.completedByAdmin,
   .cooperativelyCanceled,.expired]

def Status.isTerminal (s : Status) : Bool := terminalOrderStatuses.contains s

def pretradeStatuses : List Status := [.pending,.waitingTakerBond]

/-- The columns of an order that `mostro-core`'s `Order` carries, hence those a full-row update
writes. -/
structure Order where
  id : Uuid
  kind : Kind
  status : Status
  creatorPubkey : Pubkey
  buyerPubkey : Option Pubkey := none
  masterBuyerPubkey : Option Pubkey := none
  sellerPubkey : Option Pubkey := none
  masterSellerPubkey : Option Pubkey := none
  tradeIndexBuyer : Option Int := none
  tradeIndexSeller : Option Int := none
  nextTradePubkey : Option Pubkey := none
  nextTradeIndex : Option Int := none
  hash : Option Hash := none
  preimage : Option Hash := none
  buyerInvoice : Option PaymentRequest := none
  amount : Int := 0
  fee : Int := 0
  devFee : Int := 0
  devFeePaid : Bool := false
  devFeePaymentHash : Option Hash := none
  fiatAmount : Int := 0
  minAmount : Option Int := none
  maxAmount : Option Int := none
  priceFromApi : Bool := false
  rangeParentId : Option Uuid := none
  cancelInitiatorPubkey : Option Pubkey := none
  buyerCooperativecancel : Bool := false
  sellerCooperativecancel : Bool := false
  buyerDispute : Bool := false
  sellerDispute : Bool := false
  buyerSentRate : Bool := false
  sellerSentRate : Bool := false
  failedPayment : Bool := false
  paymentAttempts : Int := 0
  invoiceHeldAt : Int := 0
  takenAt : Int := 0
  createdAt : Int := 0
  expiresAt : Int := 0
  cashuMintUrl : Option Nat := none
  cashuEscrowToken : Option Nat := none
  cashuEscrowLockedAt : Option Int := none
  deriving DecidableEq, Repr

/-- A stored order: the columns of `Order` and the two payout columns that only the payout
statements touch. -/
structure OrderRow where
  order : Order
  payoutPaymentHash : Option Hash := none
  payoutClaimedAt : Option Int := none
  deriving DecidableEq, Repr

inductive BondRole where
  | maker
  | taker
  deriving DecidableEq, Repr

inductive BondState where
  | requested
  | locked
  | released
  | pendingPayout
  | slashed
  | forfeited
  | failed
  deriving DecidableEq, Repr

inductive BondSlashReason where
  | lostDispute
  | timeout
  deriving DecidableEq, Repr

def BondState.isTerminal : BondState → Bool
  | .released | .slashed | .forfeited | .failed => true
  | .requested | .locked | .pendingPayout => false

def BondState.isActive : BondState → Bool
  | .requested | .locked => true
  | _ => false

structure Bond where
  id : Uuid
  orderId : Uuid
  parentBondId : Option Uuid := none
  childOrderId : Option Uuid := none
  pubkey : Pubkey
  role : BondRole
  amountSats : Int
  slashedShareSats : Int := 0
  state : BondState
  slashedReason : Option BondSlashReason := none
  hash : Option Hash := none
  preimage : Option Hash := none
  payoutInvoice : Option PaymentRequest := none
  payoutRoutingFeeSats : Option Int := none
  payoutPaymentHash : Option Hash := none
  nodeShareSats : Option Int := none
  payoutAttempts : Int := 0
  invoiceRequestAttempts : Int := 0
  lastInvoiceRequestAt : Option Int := none
  lockedAt : Option Int := none
  releasedAt : Option Int := none
  slashedAt : Option Int := none
  createdAt : Int := 0
  takerIdentity : Option Pubkey := none
  takerTradeIndex : Option Int := none
  takerInvoice : Option PaymentRequest := none
  takerFiatAmount : Option Int := none
  takerAmount : Option Int := none
  takerFee : Option Int := none
  takerDevFee : Option Int := none
  deriving DecidableEq, Repr

def Bond.isSliceOf (b : Bond) (parent : Uuid) : Bool :=
  b.parentBondId == some parent && b.childOrderId.isSome

def Bond.isRefund (b : Bond) : Bool := b.parentBondId.isSome && b.childOrderId.isNone

/-- `Bond::new_requested`; the id is drawn when the row is inserted. -/
def Bond.newRequested (orderId : Uuid) (pubkey : Pubkey) (role : BondRole) (amountSats : Int)
    (createdAt : Int) : Bond :=
  { id := 0, orderId, pubkey, role, amountSats, state := .requested, createdAt }

inductive DisputeStatus where
  | initiated
  | inProgress
  | sellerRefunded
  | settled
  | released
  deriving DecidableEq, Repr

structure Dispute where
  id : Uuid
  orderId : Uuid
  status : DisputeStatus
  solverPubkey : Option Pubkey := none
  takenAt : Int := 0
  createdAt : Int := 0
  deriving DecidableEq, Repr

inductive BondApplyTo where
  | take
  | make
  | both
  deriving DecidableEq, Repr

def BondApplyTo.appliesToTaker : BondApplyTo → Bool
  | .take | .both => true
  | .make => false

def BondApplyTo.appliesToMaker : BondApplyTo → Bool
  | .make | .both => true
  | .take => false

structure AntiAbuseBondSettings where
  enabled : Bool
  amountPct : ℚ
  baseAmountSats : Int
  applyTo : BondApplyTo
  slashOnWaitingTimeout : Bool
  slashNodeSharePct : ℚ
  payoutInvoiceWindowSeconds : Int
  payoutMaxRetries : Int
  payoutClaimWindowDays : Int

structure Settings where
  bond : Option AntiAbuseBondSettings
  expirationSeconds : Int
  paymentAttempts : Int
  paymentRetriesInterval : Int
  holdInvoiceCltvDelta : Int
  escrowDeadlineMarginBlocks : Int
  cashu : Bool := false

def takerBondRequired (cfg : Settings) : Bool :=
  cfg.bond.any fun c => c.enabled && c.applyTo.appliesToTaker

def makerBondRequired (cfg : Settings) : Bool :=
  cfg.bond.any fun c => c.enabled && c.applyTo.appliesToMaker

def claimWindowSeconds (cfg : Settings) : Int :=
  (cfg.bond.map fun c => c.payoutClaimWindowDays * 86400).getD (15 * 86400)

def invoiceWindowSeconds (cfg : Settings) : Int :=
  (cfg.bond.map fun c => c.payoutInvoiceWindowSeconds).getD 300

def maxRetries (cfg : Settings) : Int := (cfg.bond.map fun c => c.payoutMaxRetries).getD 5

def nodeSharePct (cfg : Settings) : ℚ := (cfg.bond.map fun c => c.slashNodeSharePct).getD 0

/-! ### Bond arithmetic

Percentages are the decimals of the settings file; the products are those of `f64`. -/

def computeBondAmount (orderAmountSats : Int) (cfg : AntiAbuseBondSettings) : Int :=
  let base := max cfg.baseAmountSats 0
  if orderAmountSats ≤ 0 ∨ cfg.amountPct ≤ 0 then base
  else
    let pctRounded := Binary64.round (Binary64.mul orderAmountSats cfg.amountPct)
    let pctSats :=
      if 2 ^ 63 ≤ pctRounded then 2 ^ 63 - 1 else if pctRounded ≤ 0 then 0 else pctRounded
    max pctSats base

example : computeBondAmount 50
    { enabled := true, amountPct := 29 / 100, baseAmountSats := 0, applyTo := .both,
      slashOnWaitingTimeout := true, slashNodeSharePct := 0, payoutInvoiceWindowSeconds := 300,
      payoutMaxRetries := 5, payoutClaimWindowDays := 15 } = 14 := by decide +kernel

def computeNodeShare (amountSats : Int) (pct : ℚ) : Int :=
  if amountSats ≤ 0 then 0
  else
    let floored := (Binary64.mul amountSats (max 0 (min pct 1))).floor
    if floored ≤ 0 then 0
    else if Binary64.toF64 amountSats ≤ floored then amountSats
    else floored

example : computeNodeShare 100 (29 / 100) = 28 := by decide +kernel

def proportionalShare (amountSats fiatAmount maxFiat : Int) : Int :=
  Binary64.toI64 (Binary64.round (Binary64.div (Binary64.mul amountSats fiatAmount) maxFiat))

def sliceSlashAmount (parent : Bond) (fiatAmount maxFiat : Int) : Int :=
  let remaining := max (parent.amountSats - parent.slashedShareSats) 0
  max 0 (min (proportionalShare parent.amountSats fiatAmount maxFiat) remaining)

/-- `counterparty_share_sats`; `none` stands for the invariant-violation error. -/
def counterpartyShareSats (b : Bond) : Option Int :=
  match b.nodeShareSats with
  | none => none
  | some n => if 0 ≤ n ∧ n ≤ b.amountSats then some (b.amountSats - n) else none

inductive Side where
  | seller
  | buyer
  deriving DecidableEq, Repr

def sideIsMaker (o : Order) (side : Side) : Bool :=
  match o.kind, side with
  | .sell, .seller | .buy, .buyer => true
  | _, _ => false

def sidePubkey (o : Order) : Side → Option Pubkey
  | .seller => o.sellerPubkey
  | .buyer => o.buyerPubkey

def resolveLockedBond (o : Order) (bonds : List Bond) (side : Side) : Option Bond :=
  match sidePubkey o side with
  | none => none
  | some pk => bonds.find? fun b => b.pubkey == pk && b.state == .locked

/-- `resolve_recipient`: the other party of the order as it is now stored. -/
def resolveRecipient (o : Order) (b : Bond) : Option Pubkey :=
  match o.buyerPubkey, o.sellerPubkey with
  | some buyer, some seller =>
    if b.pubkey = buyer then some seller else if b.pubkey = seller then some buyer else none
  | _, _ => none

def resolvePayoutRecipient (o : Order) (b : Bond) : Option Pubkey :=
  if b.isRefund then some b.pubkey else resolveRecipient o b

def orderRepublishesOnTimeout (o : Order) : Bool :=
  match o.status, o.kind with
  | .waitingBuyerInvoice, .sell | .waitingPayment, .buy => true
  | _, _ => false

def tradeCommittedByLockedTakerBond (bonds : List Bond) : Bool :=
  bonds.any fun b => b.state == .locked && b.role == .taker

/-- `str::contains` on the lower-cased text. -/
def textContains (text pattern : String) : Bool :=
  (text.toList.map Char.toLower).tails.any fun t => pattern.toList.isPrefixOf t

inductive CancelOutcome where
  | alreadyDone
  | transient
  deriving DecidableEq, Repr

def classifyCancelError (err : String) : CancelOutcome :=
  if textContains err "code=notfound" || textContains err "code=alreadyexists" then .alreadyDone
  else if textContains err "already cancelled" || textContains err "already canceled"
      || textContains err "unable to locate invoice" || textContains err "invoice not found"
      || textContains err "no such invoice" then .alreadyDone
  else .transient

def isAlreadySettledError (err : String) : Bool :=
  textContains err "already settled" || textContains err "invoice already settled"
    || textContains err "code=alreadyexists"

end Mostro
