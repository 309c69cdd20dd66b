import Mostro.BondSlash

set_option autoImplicit false

/-!
`app/bond/payout.rs`: paying the counterparty's share of a slashed bond, and the invoices the
counterparty submits for it.
-/

namespace Mostro

open Interleaving

def childPayoutBlockedByLockedParent (bond : Bond) : M Bool :=
  match bond.parentBondId with
  | none => pure false
  | some parent => do
    match ← query (.findBondById parent) with
    | some parent => pure (parent.state == .locked)
    | none => pure true

def requestPayoutInvoice (cfg : Settings) (bond : Bond) : M Unit := do
  let now ← timestamp
  if bond.lastInvoiceRequestAt.any fun last => decide (now - last < invoiceWindowSeconds cfg) then
    pure ()
  else do
    match ← query (.orderById bond.orderId) with
    | none => pure ()
    | some order => do
      let _ ← require bond.slashedReason .unexpected
      match resolvePayoutRecipient order bond with
      | none => pure ()
      | some recipient => do
        let persisted ← runBond (.requestPayoutInvoice bond.id now)
        if persisted = 0 then pure () else ask (.askBondInvoice bond.id recipient)

def slashCasMaxAttempts : Nat := 5

/-- `slash_after_success`, retried on database errors. -/
def slashAfterSuccess (bond : Bond) : Nat → M Unit
  | 0 => .fail .dbAccess
  | attempts + 1 => do
    match ← (runBond (.slashAfterSuccess bond.id)).attempt with
    | .ok _ => pure ()
    | .error _ => slashAfterSuccess bond attempts

inductive PaymentFailureKind where
  | terminal
  | indeterminate
  deriving DecidableEq, Repr

def onSendPaymentFailure (cfg : Settings) (bond : Bond) (kind : PaymentFailureKind) : M Unit := do
  let newAttempts := min (bond.payoutAttempts + 1) (maxRetries cfg)
  let _ ← runBond (.payoutAttempts bond.id newAttempts)
  if newAttempts < maxRetries cfg then pure ()
  else if kind = .indeterminate then pure ()
  else do
    let now ← timestamp
    if bond.slashedAt.any fun t => decide (now - t < claimWindowSeconds cfg) then do
      let _ ← runBond (.rearmInvoiceRequest bond.id)
      pure ()
    else do
      let _ ← runBond (.markFailed bond.id)
      pure ()

/-- `send_payment` with its status drain, and what its verdict leads to. -/
def sendToCounterparty (cfg : Settings) (ext : Externals) (bond : Bond) (hash : Hash)
    (share : Int) : M Unit := do
  let persisted ← runBond (.persistPaymentHash bond.id (ext.routingFeeCap share) hash)
  if persisted = 0 then pure ()
  else do
    match ← (lnd (.sendPaymentV2 (.bond bond.id) hash 0)).attempt with
    | .ok (.stream attempt) => do
      match ← lnd (.paymentUpdate attempt) with
      | .succeeded => slashAfterSuccess bond slashCasMaxAttempts
      | .failed => onSendPaymentFailure cfg bond .terminal
      | .ended => onSendPaymentFailure cfg bond .indeterminate
    | _ => onSendPaymentFailure cfg bond .indeterminate

def payCounterparty (cfg : Settings) (ext : Externals) (bond : Bond) (invoice : PaymentRequest)
    (share : Int) : M Unit :=
  match ext.decodeInvoice invoice with
  | none => onSendPaymentFailure cfg bond .terminal
  | some (hash,_) =>
    if bond.payoutPaymentHash = some hash then do
      match ← (lnd (.lookupPaymentStatus hash)).attempt with
      | .ok (some .succeeded) => slashAfterSuccess bond slashCasMaxAttempts
      | .ok (some .failed) => onSendPaymentFailure cfg bond .terminal
      | .ok (some .inFlight) => pure ()
      | _ => sendToCounterparty cfg ext bond hash share
    else sendToCounterparty cfg ext bond hash share

def processOneBond (cfg : Settings) (ext : Externals) (bond : Bond) : M Unit := do
  if ← childPayoutBlockedByLockedParent bond then pure ()
  else do
    let now ← timestamp
    let slashedAt ← require bond.slashedAt .unexpected
    if bond.payoutInvoice.isNone ∧ claimWindowSeconds cfg ≤ now - slashedAt then do
      let _ ← runBond (.forfeit bond.id slashedAt)
      pure ()
    else do
      let share ← require (counterpartyShareSats bond) .unexpected
      if share ≤ 0 then do
        let _ ← runBond (.finalizeNodeOnly bond.id)
        pure ()
      else match bond.payoutInvoice with
        | none => requestPayoutInvoice cfg bond
        | some invoice => payCounterparty cfg ext bond invoice share

def runBondPayoutCycle (cfg : Settings) (ext : Externals) : M Unit := do
  let bonds ← query (.findBondsByState .pendingPayout)
  Prog.forEach bonds fun bond => (processOneBond cfg ext bond).ignore

/-- `find_recoverable_bond_for_recipient`: among the debts owed to the sender, the one whose share
is the invoice's amount when there are several, otherwise the most recently slashed. -/
def recoverableBond (order : Order) (bonds : List Bond) (sender : Pubkey) (share : Option Int) :
    Option Bond :=
  let owed := bonds.filter fun b =>
    b.slashedReason.isSome && resolvePayoutRecipient order b == some sender
  let exact := owed.find? fun b => share.isSome && counterpartyShareSats b == share
  if 1 < owed.length then exact.or owed.head? else owed.head?

def findRecoverableBondForRecipient (order : Uuid) (sender : Pubkey) (share : Option Int) :
    M (Option Bond) := do
  let bonds : List Bond ← query (.findRecoverableBonds order)
  if bonds.isEmpty then pure none
  else do
    match ← query (.orderById order) with
    | none => pure none
    | some o => pure (recoverableBond o bonds sender share)

/-- `apply_payout_invoice`, with the number of rows it changed. -/
def applyPayoutInvoice (cfg : Settings) (bond : Bond) (invoice : PaymentRequest) (now : Int) :
    M Nat :=
  match bond.state with
  | .pendingPayout => runBond (.storePayoutInvoice bond.id invoice)
  | .failed =>
    if bond.slashedAt.any fun t => decide (now - t < claimWindowSeconds cfg) then
      runBond (.resurrect bond.id invoice)
    else pure 0
  | _ => pure 0

def addBondInvoiceAction (cfg : Settings) (ext : Externals) (order : Uuid) (sender : Pubkey)
    (request : Option PaymentRequest) : M Unit := do
  let invoice ← require request (.cantDo .invalidInvoice)
  let share := (ext.decodeInvoice invoice).bind (·.2)
  match ← findRecoverableBondForRecipient order sender share with
  | none => .fail (.cantDo .notAllowedByStatus)
  | some bond => do
    let owed ← require (counterpartyShareSats bond) .unexpected
    ensure (0 < owed) (.cantDo .notAllowedByStatus)
    check (.validateInvoice (some invoice) owed 0)
    let now ← timestamp
    let applied ← applyPayoutInvoice cfg bond invoice now
    ensure (applied != 0) (.cantDo .notAllowedByStatus)

end Mostro
