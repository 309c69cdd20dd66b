import Mathlib.Algebra.Order.Ring.Nat
import Mathlib.Data.List.Basic
import Mathlib.Tactic.ByContra

set_option autoImplicit false

/-!
Invoices for payouts: the validator that accepts one, and the two payers that later decode it and
compare its amount with what is owed.  The validator compares satoshis, rounded down, and lets an
amount below one satoshi pass as "no amount"; the payer compares millisatoshis.
-/

namespace Mostro.Invoices

inductive Currency where
  | bitcoin
  | bitcoinTestnet
  | regtest
  | simnet
  | signet
  deriving DecidableEq, Repr

structure Bolt11Invoice where
  amountMilliSatoshis : Option UInt64
  currency : Currency
  minFinalCltvExpiryDelta : Nat
  timestamp : Nat
  expiryTime : Nat
  deriving DecidableEq, Repr

/-- The string forms of a payment request, and the LNURL servers behind two of them. -/
structure Network where
  lightningAddress : String → Bool
  lnUrl : String → Bool
  decodeInvoice : String → Option Bolt11Invoice
  lnExists : String → Bool
  resolvLnAddress : String → Nat → Option String

/-- No string is an address or an LNURL and a BOLT11 invoice at once. -/
def Network.Disjoint (net : Network) : Prop :=
  ∀ request, net.lightningAddress request || net.lnUrl request → net.decodeInvoice request = none

structure InvoiceSettings where
  nodeCurrency : Option Currency := some .bitcoin
  maxFinalCltvExpiryDelta : Nat := 432
  minPaymentAmount : Nat := 100
  invoiceExpirationWindow : Nat := 3600
  deriving DecidableEq, Repr

inductive ServiceError where
  | invoiceInvalid
  | lnAddressParse
  | wrongAmount
  deriving DecidableEq, Repr

def validatePayoutInvoice (settings : InvoiceSettings) (invoice : Bolt11Invoice) (now : Nat) :
    Except ServiceError Unit :=
  if settings.nodeCurrency.any (· != invoice.currency) then .error .invoiceInvalid
  else if settings.maxFinalCltvExpiryDelta < invoice.minFinalCltvExpiryDelta then
    .error .invoiceInvalid
  else if invoice.timestamp + invoice.expiryTime < now then .error .invoiceInvalid
  else .ok ()

def Bolt11Invoice.amountSat (invoice : Bolt11Invoice) : Nat :=
  (invoice.amountMilliSatoshis.getD 0).toNat / 1000

def validateBolt11Invoice (settings : InvoiceSettings) (net : Network) (request : String)
    (amount fee : Nat) (now : Nat) : Except ServiceError Unit :=
  match net.decodeInvoice request with
  | none => .error .invoiceInvalid
  | some invoice => do
    validatePayoutInvoice settings invoice now
    if amount < fee then .error .invoiceInvalid
    else if invoice.amountSat ≠ amount - fee ∧ invoice.amountSat ≠ 0 then .error .invoiceInvalid
    else if 0 < invoice.amountSat ∧ invoice.amountSat < settings.minPaymentAmount then
      .error .invoiceInvalid
    else if invoice.expiryTime + invoice.timestamp < now + settings.invoiceExpirationWindow then
      .error .invoiceInvalid
    else .ok ()

def isValidInvoice (settings : InvoiceSettings) (net : Network) (request : String)
    (amount fee : Nat) (now : Nat) : Except ServiceError Unit :=
  if net.lightningAddress request || net.lnUrl request then
    if net.lnExists request then .ok () else .error .invoiceInvalid
  else validateBolt11Invoice settings net request amount fee now

/-- What `send_payment` asks the node to pay, in millisatoshis. -/
def sendPayment (net : Network) (request : String) (amount : Nat) : Except ServiceError Nat :=
  match net.decodeInvoice request with
  | none => .error .invoiceInvalid
  | some invoice =>
    match invoice.amountMilliSatoshis with
    | some amt => if amt.toNat ≠ amount * 1000 % 2 ^ 64 then .error .wrongAmount else .ok amt.toNat
    | none => .ok (amount * 1000)

/-- The payout of a slashed bond pays the stored request as it is. -/
def payCounterparty (net : Network) (request : String) (share : Nat) : Except ServiceError Nat :=
  match net.decodeInvoice request with
  | none => .error .invoiceInvalid
  | some _ => sendPayment net request share

/-- The payout of a buyer resolves addresses and LNURLs first. -/
def doPayment (settings : InvoiceSettings) (net : Network) (buyerInvoice : String)
    (orderAmount fee : Nat) (now : Nat) : Except ServiceError Nat :=
  let amount := orderAmount - fee
  if amount = 0 then .error .invoiceInvalid
  else if net.lightningAddress buyerInvoice || net.lnUrl buyerInvoice then
    match net.resolvLnAddress buyerInvoice amount with
    | none => .error .lnAddressParse
    | some pr =>
      match net.decodeInvoice pr with
      | none => .error .lnAddressParse
      | some invoice => do
        validatePayoutInvoice settings invoice now
        sendPayment net pr amount
  else sendPayment net buyerInvoice amount

/-- A BOLT11 invoice for a whole positive number of satoshis, or without an amount. -/
def Network.wholeSats (net : Network) (request : String) : Bool :=
  match net.decodeInvoice request with
  | none => false
  | some invoice =>
    match invoice.amountMilliSatoshis with
    | none => true
    | some amt => amt.toNat % 1000 = 0 && 0 < amt.toNat

variable {settings : InvoiceSettings} {net : Network} {request : String}

theorem validateBolt11Invoice_amount {amount fee now : Nat}
    (h : validateBolt11Invoice settings net request amount fee now = .ok ()) :
    fee ≤ amount ∧ ∃ invoice, net.decodeInvoice request = some invoice ∧
      (invoice.amountSat = amount - fee ∨ invoice.amountSat = 0) := by
  rw [validateBolt11Invoice] at h
  split at h
  · cases h
  next invoice hinvoice =>
    cases hpayout : validatePayoutInvoice settings invoice now with
    | error e => simp [hpayout,bind,Except.bind] at h
    | ok u =>
      simp only [hpayout,bind,Except.bind] at h
      split at h
      · cases h
      · split at h
        · cases h
        · exact ⟨by omega,invoice,hinvoice,by omega⟩

theorem sendPayment_iff_wholeSats {amount : Nat} {invoice : Bolt11Invoice}
    (hinvoice : net.decodeInvoice request = some invoice) (hpos : 0 < amount)
    (hamount : invoice.amountSat = amount ∨ invoice.amountSat = 0) :
    sendPayment net request amount = .ok (amount * 1000) ↔ net.wholeSats request := by
  simp only [sendPayment,Network.wholeSats,hinvoice,Bolt11Invoice.amountSat] at hamount ⊢
  cases hmsat : invoice.amountMilliSatoshis with
  | none => simp
  | some amt =>
    have hbound : amt.toNat < 2 ^ 64 := amt.toNat_lt
    simp only [hmsat,Option.getD_some] at hamount
    simp only [Bool.and_eq_true,decide_eq_true_eq]
    generalize amt.toNat = msat at *
    rcases hamount with hamount | hamount
    · -- a matching amount does not wrap
      rw [Nat.mod_eq_of_lt (show amount * 1000 < 2 ^ 64 by omega)]
      split
      · simp only [reduceCtorEq,false_iff]
        omega
      · simp only [Except.ok.injEq]
        omega
    · have hsmall : ¬ (msat % 1000 = 0 ∧ 0 < msat) := by omega
      split
      · simp [hsmall]
      · simp only [Except.ok.injEq,hsmall,iff_false]
        omega

theorem isValidInvoice_bolt11 {amount fee now : Nat} {invoice : Bolt11Invoice}
    (hdisjoint : net.Disjoint) (hinvoice : net.decodeInvoice request = some invoice)
    (h : isValidInvoice settings net request amount fee now = .ok ()) :
    (net.lightningAddress request || net.lnUrl request) = false ∧ fee ≤ amount ∧
      (invoice.amountSat = amount - fee ∨ invoice.amountSat = 0) := by
  have hform : (net.lightningAddress request || net.lnUrl request) = false := by
    by_contra hform
    simpa [hinvoice] using hdisjoint request (eq_true_of_ne_false hform)
  rw [isValidInvoice,if_neg (by simp [hform])] at h
  obtain ⟨hfee,invoice',hinvoice',hamount⟩ := validateBolt11Invoice_amount h
  cases hinvoice.symm.trans hinvoice'
  exact ⟨hform,hfee,hamount⟩

/-- An accepted payout invoice is paid with exactly what is owed when it is a BOLT11 invoice for
whole satoshis, and only then. -/
theorem accepted_invoice_paid_iff (settings : InvoiceSettings) (net : Network)
    (hdisjoint : net.Disjoint) (request : String) (now : Nat) :
    (∀ share, 0 < share → isValidInvoice settings net request share 0 now = .ok () →
      (payCounterparty net request share = .ok (share * 1000) ↔ net.wholeSats request)) ∧
    ∀ amount fee later, (net.decodeInvoice request).isSome →
      isValidInvoice settings net request amount fee now = .ok () →
      (doPayment settings net request amount fee later = .ok ((amount - fee) * 1000) ↔
        fee < amount ∧ net.wholeSats request) := by
  constructor
  · intro share hpos haccepted
    cases hinvoice : net.decodeInvoice request with
    | none => simp [payCounterparty,Network.wholeSats,hinvoice]
    | some invoice =>
      obtain ⟨-,-,hamount⟩ := isValidInvoice_bolt11 hdisjoint hinvoice haccepted
      simp only [payCounterparty,hinvoice]
      exact sendPayment_iff_wholeSats hinvoice hpos hamount
  · intro amount fee later hsome haccepted
    obtain ⟨invoice,hinvoice⟩ := Option.isSome_iff_exists.1 hsome
    obtain ⟨hform,hfee,hamount⟩ := isValidInvoice_bolt11 hdisjoint hinvoice haccepted
    simp only [doPayment,hform]
    by_cases hpos : 0 < amount - fee
    · rw [if_neg (by omega)]
      simpa [show fee < amount by omega] using sendPayment_iff_wholeSats hinvoice hpos hamount
    · simp [show amount - fee = 0 by omega,show ¬ fee < amount by omega]

def sampleNetwork : Network where
  lightningAddress r := r == "user@domain"
  lnUrl _ := false
  decodeInvoice
    | "lnbc1" => some ⟨some 1500000,.bitcoin,18,1000,86400⟩
    | "lnbc2" => some ⟨none,.bitcoin,18,1000,86400⟩
    | "lnbc3" => some ⟨some 1500500,.bitcoin,18,1000,86400⟩
    | "lnbc4" => some ⟨some 500,.bitcoin,18,1000,86400⟩
    | _ => none
  lnExists _ := true
  resolvLnAddress _ _ := none

theorem accepted_invoice_paid_sample :
    (payCounterparty sampleNetwork "lnbc1" 1500 = .ok (1500 * 1000) ↔
        sampleNetwork.wholeSats "lnbc1") ∧
      (doPayment {} sampleNetwork "lnbc2" 1515 15 2000 = .ok ((1515 - 15) * 1000) ↔
        15 < 1515 ∧ sampleNetwork.wholeSats "lnbc2") := by
  have hdisjoint : sampleNetwork.Disjoint := by
    intro request hform
    obtain rfl : request = "user@domain" := by simpa [sampleNetwork] using hform
    rfl
  exact ⟨(accepted_invoice_paid_iff {} sampleNetwork hdisjoint "lnbc1" 1000).1 1500 (by decide)
      (by decide +kernel),
    (accepted_invoice_paid_iff {} sampleNetwork hdisjoint "lnbc2" 1000).2 1515 15 2000
      (by decide +kernel) (by decide +kernel)⟩

/-- Accepted for a debt of 1500 satoshis, and never paid. -/
theorem accepted_invoice_unpayable :
    (isValidInvoice {} sampleNetwork "user@domain" 1500 0 1000 = .ok () ∧
        payCounterparty sampleNetwork "user@domain" 1500 = .error .invoiceInvalid) ∧
      (isValidInvoice {} sampleNetwork "lnbc3" 1500 0 1000 = .ok () ∧
        payCounterparty sampleNetwork "lnbc3" 1500 = .error .wrongAmount) ∧
      isValidInvoice {} sampleNetwork "lnbc4" 1515 15 1000 = .ok () ∧
        doPayment {} sampleNetwork "lnbc4" 1515 15 2000 = .error .wrongAmount := by
  decide +kernel

end Mostro.Invoices
