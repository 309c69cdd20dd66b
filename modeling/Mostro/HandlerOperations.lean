import Mostro.RelyGuarantee
import Mostro.SchedulerJobs

set_option autoImplicit false

/-!
Which operations the parts of the handlers perform: reading, releasing bonds, closing a range and
rewriting an order.
-/

namespace Mostro

open Interleaving

variable {bond : Bond} {order : Order}

section

variable {P : Op → Prop} {α : Type}

theorem ask_only {op : Op} (h : P op) : (ask op).Only P := by
  refine ⟨h,fun r => ?_⟩
  cases r <;> trivial

theorem require_only {v : Option α} {e : MostroError} : (require v e).Only P := by
  cases v <;> trivial

theorem ensure_only {c : Bool} {e : MostroError} : (ensure c e).Only P := by
  cases c <;> trivial

structure Reads (P : Op → Prop) : Prop where
  query : ∀ q, P (.query q)
  timestamp : P .timestamp

theorem findRangeRootFrom_only (h : Reads P) (depth : Nat) (order : Order) :
    (findRangeRootFrom depth order).Only P := by
  induction depth generalizing order with
  | zero => trivial
  | succ depth ih =>
    unfold findRangeRootFrom
    split
    · trivial
    · refine (ask_only (h.query _)).bind fun o => ?_
      cases o with
      | none => trivial
      | some o => exact ih o

theorem findMakerBondForOrder_only (h : Reads P) (order : Order) :
    (findMakerBondForOrder order).Only P :=
  (findRangeRootFrom_only h _ order).bind fun _ => ask_only (h.query _)

theorem orderHasRangeMakerBond_only (h : Reads P) (order : Order) :
    (orderHasRangeMakerBond order).Only P :=
  (findRangeRootFrom_only h _ order).bind fun _ => trivial

theorem resolveSlashTarget_only (h : Reads P) (order : Order) (bonds : List Bond) (side : Side)
    (isRange : Bool) : (resolveSlashTarget order bonds side isRange).Only P := by
  unfold resolveSlashTarget
  split
  · trivial
  · split
    · exact (findMakerBondForOrder_only h order).bind fun _ => trivial
    · trivial

theorem validateBondResolution_only (h : Reads P) (order : Order) (resolution : BondResolution) :
    (validateBondResolution order resolution).Only P := by
  unfold validateBondResolution
  split
  · trivial
  · refine (ask_only (h.query _)).bind fun bonds => (orderHasRangeMakerBond_only h order).bind
      fun isRange => ?_
    have hinvalid (side : Side) : ((resolveSlashTarget order bonds side isRange).bind fun target =>
        ensure target.isSome (.cantDo .invalidPayload)).Only P :=
      (resolveSlashTarget_only h order bonds side isRange).bind fun _ => ensure_only
    refine Prog.Only.bind ?_ fun _ => ?_ <;> unfold Prog.when <;> split
    · exact hinvalid .seller
    · trivial
    · exact hinvalid .buyer
    · trivial

theorem requireOrder_only (h : Reads P) (id : Uuid) (e : MostroError) :
    (requireOrder id e).Only P := by
  refine (ask_only (h.query _)).bind fun o => ?_
  cases o <;> trivial

structure ReleasesBond (P : Op → Prop) (bond : Bond) : Prop where
  timestamp : P .timestamp
  connect : P (.lnd .connect)
  cancel : ∀ h, bond.hash = some h → P (.lnd (.cancelHoldInvoice h))
  update : ∀ t, P (.bond (.run (.update bond { bond with state := .released, releasedAt := t })))

structure Releases (P : Op → Prop) : Prop extends Reads P where
  bond : ∀ b, ReleasesBond P b

theorem markReleased_only (h : ReleasesBond P bond) : (markReleased bond).Only P :=
  (ask_only h.timestamp).bind fun _ => (ask_only (h.update _)).bind fun _ => trivial

theorem releaseBond_only (h : ReleasesBond P bond) : (releaseBond bond).Only P := by
  unfold releaseBond
  split
  · trivial
  · split
    · exact markReleased_only h
    next hash hh =>
      refine Prog.Only.bind ((ask_only h.connect).bind fun _ =>
        (ask_only (h.cancel hash hh)).attempt.bind fun r => ?_) fun _ => markReleased_only h
      cases r with
      | ok _ => trivial
      | error e => exact ensure_only

theorem releaseActiveBonds_only (h : Releases P) (order : Uuid) (retainMakers : Bool) :
    (releaseActiveBonds order retainMakers).Only P := by
  refine (ask_only (h.query _)).bind fun bonds => Prog.Only.forEach fun bond => ?_
  split
  · trivial
  · exact (releaseBond_only (h.bond bond)).ignore

theorem releaseOnTimeout_only (h : Releases P) (order : Uuid) (republishes : Bool) :
    (releaseOnTimeout order republishes).Only P := by
  unfold releaseOnTimeout
  split <;> exact (releaseActiveBonds_only h order _).ignore

structure SlashesSlices (P : Op → Prop) : Prop extends Reads P where
  insert : ∀ v, P (.bond (.insertSliceSlash v))
  share : ∀ id, P (.bond (.run (.updateSlashedShare id)))

theorem recordMakerSliceSlash_only (ht : P .timestamp) (hi : ∀ v, P (.bond (.insertSliceSlash v)))
    (hs : ∀ id, P (.bond (.run (.updateSlashedShare id)))) (slice root : Order) (parent : Bond)
    (reason : BondSlashReason) (pct : ℚ) :
    (recordMakerSliceSlash slice root parent reason pct).Only P := by
  unfold recordMakerSliceSlash
  split
  · dsimp only
    split
    · trivial
    · refine (ask_only ht).bind fun _ => (ask_only (hi _)).bind fun inserted => ?_
      split
      · trivial
      · exact (ask_only (hs _)).bind fun _ => trivial
  · trivial

theorem settleBondInvoice_only (h : ∀ p, P (.lnd (.settleHoldInvoice p))) (preimage : Hash) :
    (settleBondInvoice preimage).Only P := by
  refine (ask_only (h _)).attempt.bind fun r => ?_
  cases r <;> trivial

structure Slashes (P : Op → Prop) : Prop extends SlashesSlices P where
  settle : ∀ p, P (.lnd (.settleHoldInvoice p))
  slash : ∀ id reason t share trade, P (.bond (.run (.slash id reason t share trade)))

theorem slashOne_only (ht : P .timestamp) (hs : ∀ p, P (.lnd (.settleHoldInvoice p)))
    (hw : ∀ id reason t share trade, P (.bond (.run (.slash id reason t share trade))))
    (trade : Order) (bond : Bond) (reason : BondSlashReason) (pct : ℚ) :
    (slashOne trade bond reason pct).Only P := by
  unfold slashOne
  split
  · trivial
  · refine (settleBondInvoice_only hs _).bind fun settled => ?_
    split
    · exact (ask_only ht).bind fun _ => (ask_only (hw _ _ _ _ _)).ignore
    · trivial

theorem slashSide_only (h : Slashes P) (cfg : Settings) (order : Order) (target : Bond)
    (side : Side) (isRange : Bool) (reason : BondSlashReason) :
    (slashSide cfg order target side isRange reason).Only P := by
  unfold slashSide
  split
  · refine (findRangeRootFrom_only h.toReads _ order).bind fun root => ?_
    refine (recordMakerSliceSlash_only h.timestamp h.insert h.share order root target reason _).bind
      fun inserted => ?_
    split
    · exact (ask_only (h.query _)).bind fun _ => trivial
    · trivial
  · exact (slashOne_only h.timestamp h.settle h.slash order target reason _).bind fun _ =>
      (ask_only (h.query _)).bind fun _ => trivial

theorem slashOrReleaseOnTimeout_only (h : Slashes P) (hr : Releases P) (cfg : Settings)
    (order : Order) : (slashOrReleaseOnTimeout cfg order).Only P := by
  unfold slashOrReleaseOnTimeout
  split
  · exact (releaseActiveBonds_only hr order.id false).ignore
  next side _ =>
    dsimp only
    split
    · exact releaseOnTimeout_only hr order.id _
    · refine (ask_only (h.query _)).bind fun bonds => ?_
      refine (orderHasRangeMakerBond_only h.toReads order).bind fun isRange => ?_
      refine (resolveSlashTarget_only h.toReads order bonds side isRange).bind fun target => ?_
      cases target with
      | none => exact releaseOnTimeout_only hr order.id _
      | some responsible =>
        refine (slashSide_only h cfg order responsible side isRange .timeout).bind fun _ => ?_
        refine Prog.Only.forEach fun bond => ?_
        split
        · trivial
        · exact (releaseBond_only (hr.bond bond)).ignore

structure Closes (P : Op → Prop) : Prop extends Releases P where
  settle : ∀ h, P (.lnd (.settleHoldInvoice h))
  close : ∀ v, P (.bond (.closeRange v))

theorem settleRangeAtClose_only (hs : ∀ h, P (.lnd (.settleHoldInvoice h))) (ht : P .timestamp)
    (hc : ∀ v, P (.bond (.closeRange v))) (root : Uuid) (parent : Bond) (children : List Bond) :
    (settleRangeAtClose root parent children).Only P := by
  unfold settleRangeAtClose
  split
  · trivial
  · refine (settleBondInvoice_only hs _).bind fun settled => ?_
    split
    · exact (ask_only ht).bind fun _ => (ask_only (hc _)).bind fun _ => trivial
    · trivial

theorem resolveRangeMakerBondAtClose_only (h : Closes P) (order : Order) :
    (resolveRangeMakerBondAtClose order).Only P := by
  refine (findMakerBondForOrder_only h.toReads order).bind fun found => ?_
  cases found with
  | none => trivial
  | some parent =>
    dsimp only
    split
    · trivial
    · refine (findRangeRootFrom_only h.toReads _ order).bind fun root => ?_
      have hrest : ∀ slices : List Bond, Prog.Only P
          (if (slices.map (·.amountSats)).sum = 0 then releaseBond parent
           else settleRangeAtClose root.id parent slices) := by
        intro slices
        split
        · exact releaseBond_only (h.bond parent)
        · exact settleRangeAtClose_only h.settle h.timestamp h.close root.id parent slices
      split
      · exact (ask_only (h.query _)).bind fun _ => hrest _
      · exact hrest []

theorem resolveRangeMakerBondAtCloseOrWarn_only (h : Closes P) (order : Order) :
    (resolveRangeMakerBondAtCloseOrWarn order).Only P := by
  refine (findMakerBondForOrder_only h.toReads order).attempt.bind fun found => ?_
  rcases found with _ | _ | b
  · trivial
  · trivial
  · dsimp only
    split
    · trivial
    · refine (ask_only (h.bond b).connect).attempt.bind fun r => ?_
      cases r with
      | ok _ => exact (resolveRangeMakerBondAtClose_only h order).ignore
      | error _ => trivial

structure Rewrites (P : Op → Prop) : Prop extends Reads P where
  order : ∀ u, P (.order (.run u))
  event : ∀ id status, P (.updateOrderEvent id status)

theorem editPubkeysOrder_only (hread : P (.query (.orderById order.id)))
    (hedit : P (.order (.run (.editPubkeysOrder order.id order.kind)))) :
    (editPubkeysOrder order).Only P :=
  (ask_only hedit).bind fun _ => ensure_only.bind fun _ =>
    (ask_only hread).bind fun o => by cases o <;> trivial

theorem updateOrderEvent_only {status : Status} (h : P (.updateOrderEvent order.id status)) :
    (updateOrderEvent status order).Only P :=
  (ask_only h).bind fun _ => trivial

theorem updateOrderEvent_bind_only {status : Status} {f : Order → M α}
    (h : P (.updateOrderEvent order.id status)) (hf : (f { order with status }).Only P) :
    ((updateOrderEvent status order).bind f).Only P := by
  rw [updateOrderEvent,Prog.bind_assoc]
  exact (ask_only h).bind fun _ => hf

theorem updateOrderEvent_attempt_bind_only {status : Status} {f : Except MostroError Order → M α}
    (h : P (.updateOrderEvent order.id status)) (hok : (f (.ok { order with status })).Only P)
    (herr : ∀ e, (f (.error e)).Only P) :
    ((updateOrderEvent status order).attempt.bind f).Only P := by
  rw [updateOrderEvent,Prog.attempt_bind]
  refine (ask_only h).attempt.bind fun r => ?_
  cases r with
  | ok _ => exact hok
  | error e => exact herr e

theorem updateOrder_only {read row : Order} (h : P (.order (.run (.update read row)))) :
    (updateOrder read row).Only P :=
  (ask_only h).bind fun _ => trivial

theorem findOrderByHash_only (h : Reads P) (hash : Hash) : (findOrderByHash hash).Only P :=
  (ask_only (h.query _)).bind fun _ => require_only

theorem holdInvoiceCanceled_only (h : Reads P) (he : ∀ id, P (.updateOrderEvent id .canceled))
    (hu : ∀ read row, row.status = .canceled → P (.order (.run (.update read row))))
    (cfg : Settings) (hash : Hash) : (holdInvoiceCanceled cfg hash).Only P := by
  unfold holdInvoiceCanceled
  refine (findOrderByHash_only h hash).bind fun order => (ask_only h.timestamp).bind fun now => ?_
  dsimp only
  split
  · exact updateOrderEvent_attempt_bind_only (he _) (updateOrder_only (hu _ _ rfl)) fun _ => trivial
  · trivial

theorem republishOnTimeout_only (h : Rewrites P) (order : Order) :
    (republishOnTimeout order).Only P :=
  (ask_only (h.order _)).attempt.bind fun _ =>
  (editPubkeysOrder_only (h.query _) (h.order _)).bind fun _ =>
    (updateOrderEvent_only (h.event _ _)).bind fun _ => updateOrder_only (h.order _)

theorem cancelOnTimeout_only (h : Rewrites P) (hc : Closes P) (order : Order) :
    (cancelOnTimeout order).Only P :=
  (editPubkeysOrder_only (h.query _) (h.order _)).bind fun _ =>
    (updateOrderEvent_only (h.event _ _)).bind fun _ =>
      (updateOrder_only (h.order _)).bind fun _ =>
        resolveRangeMakerBondAtCloseOrWarn_only hc order

structure Cancels (P : Op → Prop) : Prop extends Closes P where
  cancel : ∀ h, P (.lnd (.cancelHoldInvoice h))
  event : ∀ id status, P (.updateOrderEvent id status)
  update : ∀ read row, P (.order (.run (.update read row)))
  cas : ∀ id new, P (.order (.run (.casPretradeOrderStatus id new)))
  dispute : ∀ d, P (.dispute (.update d))

theorem cancelEscrow_only (h : ∀ hash, P (.lnd (.cancelHoldInvoice hash))) (order : Order) :
    (cancelEscrow order).Only P := by
  unfold cancelEscrow
  split
  · exact ask_only (h _)
  · trivial

theorem cancelPendingOrderFromMaker_only (h : Cancels P) (order : Order) (sender : Pubkey) :
    (cancelPendingOrderFromMaker order sender).Only P := by
  refine ensure_only.bind fun _ => (updateOrderEvent_only (h.event _ _)).attempt.bind fun r => ?_
  cases r with
  | error e => trivial
  | ok _ =>
    refine (ask_only (h.cas _ _)).bind fun won => ?_
    split
    · refine Prog.Only.bind ((ask_only (h.query _)).attempt.bind fun r => ?_) fun _ => trivial
      rcases r with _ | _ | o
      · trivial
      · trivial
      · exact (updateOrderEvent_only (h.event _ _)).ignore
    · exact (releaseActiveBonds_only h.toReleases _ _).ignore.bind fun _ =>
        resolveRangeMakerBondAtCloseOrWarn_only h.toCloses order

theorem cancelOrderByMaker_only (h : Cancels P) (order : Order) :
    (cancelOrderByMaker order).Only P := by
  have hrest : Prog.Only P (do
      cancelEscrow order
      releaseTakerBondsForOrderOrWarn order.id
      resolveRangeMakerBondAtCloseOrWarn order) :=
    (cancelEscrow_only h.cancel order).bind fun _ =>
      (releaseActiveBonds_only h.toReleases _ _).ignore.bind fun _ =>
        resolveRangeMakerBondAtCloseOrWarn_only h.toCloses order
  refine (updateOrderEvent_only (h.event _ _)).attempt.bind fun r => ?_
  cases r with
  | error e => exact hrest
  | ok updated => exact (updateOrder_only (h.update _ _)).bind fun _ => hrest

theorem cancelActiveOrder_only (h : Cancels P) (order : Order) (sender : Pubkey) :
    (cancelActiveOrder order sender).Only P := by
  refine require_only.bind fun seller => require_only.bind fun buyer => ensure_only.bind fun _ => ?_
  dsimp only
  split
  · refine ensure_only.bind fun _ => ensure_only.bind fun _ => ?_
    refine (cancelEscrow_only h.cancel _).bind fun _ => ?_
    refine (updateOrder_only (h.update _ _)).bind fun _ => ?_
    refine (updateOrderEvent_only (h.event _ _)).bind fun _ => ?_
    refine Prog.Only.bind ((ask_only (h.query _)).attempt.bind fun found => ?_) fun _ => ?_
    · rcases found with _ | _ | d
      · trivial
      · trivial
      · exact (ask_only (h.dispute _)).ignore
    · exact (releaseActiveBonds_only h.toReleases _ _).ignore.bind fun _ =>
        resolveRangeMakerBondAtCloseOrWarn_only h.toCloses _
  · exact updateOrder_only (h.update _ _)

structure Resolves (P : Op → Prop) : Prop extends Closes P, Slashes P where
  dispute : ∀ d, P (.dispute (.update d))
  check : ∀ c, P (.check c)
  create : ∀ o, P (.order (.create o))

theorem settleSellerHoldInvoice_only (h : ∀ p, P (.lnd (.settleHoldInvoice p))) (sender : Pubkey)
    (isAdmin : Bool) (order : Order) : (settleSellerHoldInvoice sender isAdmin order).Only P :=
  require_only.bind fun _ => ensure_only.bind fun _ => require_only.bind fun _ => ask_only (h _)

theorem closeDisputeAfterUserResolution_only (h : Resolves P) (order : Uuid)
    (status : DisputeStatus) : (closeDisputeAfterUserResolution order status).Only P := by
  refine (ask_only (h.query _)).attempt.bind fun found => ?_
  rcases found with _ | _ | d
  · trivial
  · trivial
  · exact (ask_only (h.dispute _)).ignore

theorem closeDisputeByAdmin_only (h : Resolves P) (order : Order) (status : DisputeStatus)
    (d : Dispute) : (closeDisputeByAdmin order status d).Only P :=
  (ask_only (h.dispute _)).bind fun _ => ensure_only.bind fun _ => ask_only (h.check _)

theorem getChildOrder_only (h : Resolves P) (order : Order) : (getChildOrder order).Only P := by
  unfold getChildOrder
  split
  · dsimp only
    split
    · trivial
    · exact require_only.bind fun _ => (ask_only (h.check _)).bind fun _ => trivial
  · trivial

theorem handleChildOrder_only (h : Resolves P) (ext : Externals) (child order : Order)
    (nextTrade : NextTrade) : (handleChildOrder ext child order nextTrade).Only P := by
  refine require_only.bind fun keys => ?_
  split
  · exact require_only.bind fun _ => (ask_only (h.create _)).bind fun _ => trivial
  · split
    · exact require_only.bind fun _ => (ask_only (h.create _)).bind fun _ => trivial
    · trivial

theorem continueOrCloseRange_only (h : Resolves P) (ext : Externals) (order : Order)
    (nextTrade : NextTrade) : (continueOrCloseRange ext order nextTrade).Only P := by
  refine (getChildOrder_only h order).attempt.bind fun found => ?_
  rcases found with _ | _ | child
  · exact resolveRangeMakerBondAtCloseOrWarn_only h.toCloses order
  · exact resolveRangeMakerBondAtCloseOrWarn_only h.toCloses order
  · refine (handleChildOrder_only h ext child order nextTrade).attempt.bind fun r => ?_
    cases r with
    | ok _ => trivial
    | error _ => exact resolveRangeMakerBondAtCloseOrWarn_only h.toCloses order

theorem applyBondResolution_only (h : Resolves P) (cfg : Settings) (order : Order)
    (resolution : BondResolution) (reason : BondSlashReason) :
    (applyBondResolution cfg order resolution reason).Only P := by
  refine (ask_only (h.query _)).bind fun active => ?_
  refine (orderHasRangeMakerBond_only h.toReads order).bind fun isRange => ?_
  have hslash (flag : Bool) (side : Side) :
      (slashStep cfg order active isRange reason flag side).Only P := by
    unfold slashStep
    split
    · refine (resolveSlashTarget_only h.toReads order active side isRange).bind fun target => ?_
      cases target with
      | none => trivial
      | some target => exact slashSide_only h.toSlashes cfg order target side isRange reason
    · trivial
  refine (hslash _ _).bind fun seller => (hslash _ _).bind fun buyer => ?_
  refine (Prog.Only.forEach fun bond => ?_).bind fun _ => trivial
  split
  · trivial
  · exact (releaseBond_only (h.bond bond)).ignore

structure SendsPayout (P : Op → Prop) (bond : Uuid) : Prop extends Reads P where
  finalize : P (.bond (.run (.finalizeNodeOnly bond)))
  request : ∀ t, P (.bond (.run (.requestPayoutInvoice bond t)))
  asks : ∀ key, P (.askBondInvoice bond key)
  persist : ∀ fee hash, P (.bond (.run (.persistPaymentHash bond fee hash)))
  send : ∀ hash, P (.lnd (.sendPaymentV2 (.bond bond) hash 0))
  lookup : ∀ hash, P (.lnd (.lookupPaymentStatus hash))
  update : ∀ attempt, P (.lnd (.paymentUpdate attempt))
  slash : P (.bond (.run (.slashAfterSuccess bond)))

structure PaysBond (P : Op → Prop) (bond : Uuid) : Prop extends SendsPayout P bond where
  attempts : ∀ n, P (.bond (.run (.payoutAttempts bond n)))
  rearm : P (.bond (.run (.rearmInvoiceRequest bond)))
  fails : P (.bond (.run (.markFailed bond)))

theorem childPayoutBlockedByLockedParent_only (h : Reads P) (bond : Bond) :
    (childPayoutBlockedByLockedParent bond).Only P := by
  unfold childPayoutBlockedByLockedParent
  split
  · trivial
  · refine (ask_only (h.query _)).bind fun found => ?_
    cases found <;> trivial

theorem requestPayoutInvoice_only (h : SendsPayout P bond.id) (cfg : Settings) :
    (requestPayoutInvoice cfg bond).Only P := by
  refine (ask_only h.timestamp).bind fun now => ?_
  split
  · trivial
  · refine (ask_only (h.query _)).bind fun found => ?_
    cases found with
    | none => trivial
    | some order =>
      refine require_only.bind fun _ => ?_
      split
      · trivial
      · refine (ask_only (h.request _)).bind fun persisted => ?_
        split
        · trivial
        · exact ask_only (h.asks _)

theorem slashAfterSuccess_only (h : SendsPayout P bond.id) (attempts : Nat) :
    (slashAfterSuccess bond attempts).Only P := by
  induction attempts with
  | zero => trivial
  | succ n ih =>
    refine (ask_only h.slash).attempt.bind fun r => ?_
    cases r with
    | ok _ => trivial
    | error _ => exact ih

theorem onSendPaymentFailure_only (h : PaysBond P bond.id) (cfg : Settings)
    (kind : PaymentFailureKind) : (onSendPaymentFailure cfg bond kind).Only P := by
  refine (ask_only (h.attempts _)).bind fun _ => ?_
  split
  · trivial
  · split
    · trivial
    · refine (ask_only h.timestamp).bind fun now => ?_
      split
      · exact (ask_only h.rearm).bind fun _ => trivial
      · exact (ask_only h.fails).bind fun _ => trivial

theorem sendToCounterparty_only (h : PaysBond P bond.id) (cfg : Settings) (ext : Externals)
    (hash : Hash) (share : Int) : (sendToCounterparty cfg ext bond hash share).Only P := by
  refine (ask_only (h.persist _ _)).bind fun persisted => ?_
  split
  · trivial
  · refine (ask_only (h.send _)).attempt.bind fun r => ?_
    split
    · refine (ask_only (h.update _)).bind fun outcome => ?_
      split
      · exact slashAfterSuccess_only h.toSendsPayout _
      · exact onSendPaymentFailure_only h cfg _
      · exact onSendPaymentFailure_only h cfg _
    · exact onSendPaymentFailure_only h cfg _

theorem payCounterparty_only (h : PaysBond P bond.id) (cfg : Settings) (ext : Externals)
    (invoice : PaymentRequest) (share : Int) :
    (payCounterparty cfg ext bond invoice share).Only P := by
  unfold payCounterparty
  split
  · exact onSendPaymentFailure_only h cfg _
  · split
    · refine (ask_only (h.lookup _)).attempt.bind fun r => ?_
      split
      · exact slashAfterSuccess_only h.toSendsPayout _
      · exact onSendPaymentFailure_only h cfg _
      · trivial
      · exact sendToCounterparty_only h cfg ext _ share
    · exact sendToCounterparty_only h cfg ext _ share

end

end Mostro
