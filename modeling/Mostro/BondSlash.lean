import Mostro.BondFlow

set_option autoImplicit false

/-!
`app/bond/slash.rs`: slashing a bond after a dispute or a timeout, and the proportional slashes of
a range maker bond with the close that settles them together.
-/

namespace Mostro

open Interleaving

def maxRangeChainDepth : Nat := 1024

def findRangeRootFrom : Nat → Order → M Order
  | 0, _ => .fail .unexpected
  | depth + 1, current =>
    match current.rangeParentId with
    | none => pure current
    | some parent => do
      match ← query (.orderById parent) with
      | some o => findRangeRootFrom depth o
      | none => pure current

def findRangeRootOrder (order : Order) : M Order := findRangeRootFrom maxRangeChainDepth order

def findMakerBondForOrder (order : Order) : M (Option Bond) := do
  let root ← findRangeRootOrder order
  query (.findBondByOrderAndRole root.id .maker)

def orderHasRangeMakerBond (order : Order) : M Bool := do
  let root ← findRangeRootOrder order
  pure root.maxAmount.isSome

def resolveSlashTarget (order : Order) (bonds : List Bond) (side : Side) (isRange : Bool) :
    M (Option Bond) :=
  match resolveLockedBond order bonds side with
  | some b => pure (some b)
  | none =>
    if isRange && sideIsMaker order side then do
      let b ← findMakerBondForOrder order
      pure (b.filter (·.state == .locked))
    else pure none

structure BondResolution where
  slashSeller : Bool := false
  slashBuyer : Bool := false
  deriving DecidableEq, Repr

def validateBondResolution (order : Order) (resolution : BondResolution) : M Unit :=
  if !resolution.slashSeller && !resolution.slashBuyer then pure ()
  else do
    let bonds ← query (.findActiveBondsForOrder order.id)
    let isRange ← orderHasRangeMakerBond order
    let invalid (side : Side) : M Unit := do
      let target ← resolveSlashTarget order bonds side isRange
      ensure target.isSome (.cantDo .invalidPayload)
    Prog.when resolution.slashSeller (invalid .seller)
    Prog.when resolution.slashBuyer (invalid .buyer)

def MostroError.alreadySettled : MostroError → Bool
  | .holdInvoice text => isAlreadySettledError text
  | _ => false

def settleBondInvoice (preimage : Hash) : M Bool := do
  match ← (lnd (.settleHoldInvoice preimage)).attempt with
  | .ok _ => pure true
  | .error e => pure e.alreadySettled

/-- `slash_one`; `trade` is the order the slash is decided on, recorded with it. -/
def slashOne (trade : Order) (bond : Bond) (reason : BondSlashReason) (nodeSharePct : ℚ) :
    M Unit :=
  match bond.preimage with
  | none => pure ()
  | some preimage => do
    if ← settleBondInvoice preimage then do
      let now ← timestamp
      (runBond (.slash bond.id reason now (computeNodeShare bond.amountSats nodeSharePct)
        trade)).ignore
    else pure ()

def makerSlicePubkey (slice : Order) : Option Pubkey :=
  match slice.kind with
  | .sell => slice.sellerPubkey
  | .buy => slice.buyerPubkey

/-- `record_maker_slice_slash`, with whether a child row was inserted. -/
def recordMakerSliceSlash (slice root : Order) (parent : Bond) (reason : BondSlashReason)
    (nodeSharePct : ℚ) : M Bool :=
  match makerSlicePubkey slice, root.maxAmount.filter (0 < ·) with
  | some pubkey, some maxFiat =>
    let amount := sliceSlashAmount parent slice.fiatAmount maxFiat
    if amount ≤ 0 then pure false
    else do
      let now ← timestamp
      let inserted ← execBond (.insertSliceSlash
        { slice, parent, pubkey, maxFiat, amountSats := amount,
          nodeShare := computeNodeShare amount nodeSharePct, reason, at_ := now })
      if inserted = 0 then pure false
      else do
        let _ ← runBond (.updateSlashedShare parent.id)
        pure true
  | _, _ => pure false

/-- What the slash of one side leaves to its caller: the bond slashed inline, which is not to be
released afterwards, and the row to notify its owner about. -/
structure SideSlash where
  skipped : Option Uuid := none
  notify : Option Bond := none

/-- The slash of one side: a slice slash when the side is a range maker, otherwise the bond's own
slash.  A row is reported once its slash is confirmed. -/
def slashSide (cfg : Settings) (order : Order) (target : Bond) (side : Side) (isRange : Bool)
    (reason : BondSlashReason) : M SideSlash :=
  if isRange && sideIsMaker order side then do
    let root ← findRangeRootOrder order
    let inserted ← recordMakerSliceSlash order root target reason (nodeSharePct cfg)
    if inserted then do
      let child ← query (.findSliceSlashChild target.id order.id)
      pure { notify := child }
    else pure {}
  else do
    slashOne order target reason (nodeSharePct cfg)
    let recorded ← query (.slashedReason target.id)
    pure { skipped := some target.id,
           notify := if recorded = some reason then some target else none }

/-- What `apply_bond_resolution` does for one side. -/
def slashStep (cfg : Settings) (order : Order) (active : List Bond) (isRange : Bool)
    (reason : BondSlashReason) (flag : Bool) (side : Side) : M SideSlash :=
  if flag then do
    match ← resolveSlashTarget order active side isRange with
    | none => pure {}
    | some target => slashSide cfg order target side isRange reason
  else pure {}

/-- `apply_bond_resolution`, with the rows it reports as slashed. -/
def applyBondResolution (cfg : Settings) (order : Order) (resolution : BondResolution)
    (reason : BondSlashReason) : M (List Bond) := do
  let active ← query (.findActiveBondsForOrder order.id)
  let isRange ← orderHasRangeMakerBond order
  let seller ← slashStep cfg order active isRange reason resolution.slashSeller .seller
  let buyer ← slashStep cfg order active isRange reason resolution.slashBuyer .buyer
  Prog.forEach active fun bond =>
    if seller.skipped == some bond.id || buyer.skipped == some bond.id
        || (isRange && bond.role == .maker) then
      pure ()
    else (releaseBond bond).ignore
  pure (seller.notify.toList ++ buyer.notify.toList)

/-! ### Timeouts -/

def releaseOnTimeout (order : Uuid) (republishes : Bool) : M Unit :=
  if republishes then releaseTakerBondsForOrderOrWarn order else releaseBondsForOrderOrWarn order

/-- The side whose duty it is to act in a waiting status. -/
def responsibleSide : Status → Option Side
  | .waitingBuyerInvoice => some .buyer
  | .waitingPayment => some .seller
  | _ => none

def timeoutSlashArmed (cfg : Settings) (responsibleIsMaker : Bool) : Bool :=
  cfg.bond.any fun c => c.enabled && c.slashOnWaitingTimeout
    && if responsibleIsMaker then c.applyTo.appliesToMaker else c.applyTo.appliesToTaker

def slashOrReleaseOnTimeout (cfg : Settings) (order : Order) : M Unit :=
  match responsibleSide order.status with
  | none => releaseBondsForOrderOrWarn order.id
  | some side =>
    let republishes := orderRepublishesOnTimeout order
    if !timeoutSlashArmed cfg (sideIsMaker order side) then releaseOnTimeout order.id republishes
    else do
      let bonds ← query (.findActiveBondsForOrder order.id)
      let isRange ← orderHasRangeMakerBond order
      match ← resolveSlashTarget order bonds side isRange with
      | none => releaseOnTimeout order.id republishes
      | some responsible => do
        let _ ← slashSide cfg order responsible side isRange .timeout
        Prog.forEach bonds fun bond =>
          if bond.id == responsible.id || (bond.role == .maker && (republishes || isRange)) then
            pure ()
          else (releaseBond bond).ignore

/-! ### Closing a range -/

def settleRangeAtClose (root : Uuid) (parent : Bond) (children : List Bond) : M Unit :=
  match parent.preimage with
  | none => pure ()
  | some preimage => do
    if ← settleBondInvoice preimage then do
      let now ← timestamp
      let _ ← execBond (.closeRange
        { parent, root, anchorChildren := !children.isEmpty,
          reason := (children.head?.bind (·.slashedReason)).getD .lostDispute, at_ := now })
      pure ()
    else pure ()

def resolveRangeMakerBondAtClose (order : Order) : M Unit := do
  match ← findMakerBondForOrder order with
  | none => pure ()
  | some parent =>
    if parent.state ≠ .locked then pure ()
    else do
      let root ← findRangeRootOrder order
      let children : List Bond ←
        if root.maxAmount.isSome then query (.findChildSlashesForParent parent.id) else pure []
      let slices := children.filter (·.childOrderId.isSome)
      if (slices.map (·.amountSats)).sum = 0 then releaseBond parent
      else settleRangeAtClose root.id parent slices

def resolveRangeMakerBondAtCloseOrWarn (order : Order) : M Unit := do
  match ← (findMakerBondForOrder order).attempt with
  | .ok (some b) =>
    if b.state ≠ .locked then pure ()
    else do
      match ← (lnd .connect).attempt with
      | .ok _ => (resolveRangeMakerBondAtClose order).ignore
      | .error _ => pure ()
  | _ => pure ()

/-- The scan of `collect_stranded_range_maker_roots`; a failure skips its root. -/
def collectStranded : List Bond → M (List Order)
  | [] => pure []
  | bond :: rest => do
    let root : Except MostroError (Option Order) ← (query (.orderById bond.orderId)).attempt
    let stranded : List Order ← match root with
      | .ok (some root) => do
        let terminal : Except MostroError Bool ←
          (query (.rangeTreeFullyTerminal bond.orderId)).attempt
        pure (if terminal.toOption.getD false then [root] else [])
      | _ => pure []
    let others ← collectStranded rest
    pure (stranded ++ others)

def collectStrandedRangeMakerRoots : M (List Order) := do
  let bonds ← query .findLockedMakerParentBonds
  collectStranded bonds

def reconcileStrandedRangeMakerBonds : M Unit := do
  let roots ← collectStrandedRangeMakerRoots
  if roots.isEmpty then pure ()
  else do
    lnd .connect
    let roots ← collectStrandedRangeMakerRoots
    Prog.forEach roots fun order => (resolveRangeMakerBondAtClose order).ignore

end Mostro
