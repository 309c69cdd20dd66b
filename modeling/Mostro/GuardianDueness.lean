import Mostro.EscrowGuardian

set_option autoImplicit false

/-!
When an escrow is due.  The guardian lists the orders whose escrow was accepted long enough ago and
then compares the chain height with the expiry of the accepted payment, or the clock with a nominal
deadline.  The nominal deadline caps a margin that is not below the CLTV delta; the comparison of
heights does not.
-/

namespace Mostro

open Interleaving

def dueByHeight (margin chain expiry : Int) : Bool := decide (expiry ≤ chain + margin)

def dueByClock (heldAt cltvDelta margin now : Int) : Bool :=
  (escrowActionDeadlineUnix heldAt cltvDelta margin).any fun d => decide (d ≤ now)

theorem escrowDue_eq (cfg : Settings) (now : Int) (order : Order) (hash : Hash) :
    let byClock := (dueByClock order.invoiceHeldAt cfg.holdInvoiceCltvDelta
      cfg.escrowDeadlineMarginBlocks now,false)
    escrowDue cfg now none order hash = pure byClock ∧
    ∀ chain, escrowDue cfg now (some chain) order hash = (do
      let expiry : Except MostroError (Option Int) ← (lnd (.holdInvoiceExpiryHeight hash)).attempt
      match expiry with
      | .ok (some expiry) =>
        pure (dueByHeight cfg.escrowDeadlineMarginBlocks chain expiry,decide (expiry ≤ chain))
      | .ok none => pure (true,true)
      | .error _ => pure byClock) :=
  ⟨rfl,fun _ => rfl⟩

def TwiceNominal (heldAt : Int) (height : Int → Int) : Prop :=
  ∀ t, heldAt ≤ t → 300 * (height t - height heldAt) ≤ t - heldAt

/-- What is expected of the due-ness of an escrow, for a CLTV delta and a margin in blocks: the
prefilter passes every order whose payment is within the margin of its expiry, and both tests keep
one margin, by which no escrow is due when it is accepted. -/
structure DuenessSound (delta margin : Nat) : Prop where
  prefiltered : ∀ (s : State) (r : OrderRow), r ∈ s.orders →
    r.order.status = .active ∨ r.order.status = .fiatSent → r.order.hash.isSome →
    r.order.invoiceHeldAt ≠ 0 → ∀ height, TwiceNominal r.order.invoiceHeldAt height →
    ∀ now, r.order.invoiceHeldAt ≤ now → ∀ expiry, height r.order.invoiceHeldAt + delta ≤ expiry →
    expiry ≤ height now + margin →
    r.order ∈ Query.run s (.findEscrowDeadlineOrders (now - escrowGuardWindowSecs delta margin / 2))
  one_margin : ∃ m : Int, (∀ chain expiry, dueByHeight margin chain expiry ↔ expiry ≤ chain + m) ∧
    ∀ heldAt, heldAt ≠ 0 → ∀ now,
      dueByClock heldAt delta margin now ↔ heldAt + (delta - m) * 600 ≤ now
  fresh : ∀ heldAt, heldAt ≠ 0 → ∀ chain,
    dueByHeight margin chain (chain + delta) = false ∧ dueByClock heldAt delta margin heldAt = false

theorem window_of_lt {delta margin : Nat} (h : margin < delta) :
    escrowGuardWindowSecs delta margin = (delta - margin) * 600 := by
  unfold escrowGuardWindowSecs
  rw [if_neg (by omega)]

theorem dueByClock_iff {heldAt : Int} (hheld : heldAt ≠ 0) (delta margin now : Int) :
    dueByClock heldAt delta margin now ↔ heldAt + escrowGuardWindowSecs delta margin ≤ now := by
  simp [dueByClock,escrowActionDeadlineUnix,hheld]

theorem passed_prefilter {delta margin : Nat} (h : margin < delta) {heldAt now expiry : Int}
    {height : Int → Int} (hrate : TwiceNominal heldAt height) (hnow : heldAt ≤ now)
    (hexpiry : height heldAt + delta ≤ expiry) (hdue : expiry ≤ height now + margin) :
    heldAt ≤ now - escrowGuardWindowSecs delta margin / 2 := by
  have hcount := hrate now hnow
  rw [window_of_lt h]
  omega

theorem duenessSound_of_lt {delta margin : Nat} (h : margin < delta) :
    DuenessSound delta margin where
  prefiltered s r hr hst hhash hheld height hrate now hnow expiry hexpiry hdue := by
    have hpass := passed_prefilter h hrate hnow hexpiry hdue
    refine List.mem_map.mpr ⟨r,List.mem_filter.mpr ⟨hr,?_⟩,rfl⟩
    rcases hst with hst | hst <;> simp [hst,hheld,hpass,hhash]
  one_margin := by
    refine ⟨margin,fun chain expiry => by simp [dueByHeight],fun heldAt hheld now => ?_⟩
    rw [dueByClock_iff hheld,window_of_lt h]
  fresh heldAt hheld chain := by
    constructor
    · simp only [dueByHeight,decide_eq_false_iff_not]
      omega
    · rw [Bool.eq_false_iff,ne_eq,dueByClock_iff hheld,window_of_lt h]
      omega

/-- The due-ness of escrows is sound for the configurations whose margin is below the delta, and for
no other: the comparison of heights takes a margin that the clock would halve. -/
theorem dueness_sound_iff (delta margin : Nat) : DuenessSound delta margin ↔ margin < delta := by
  refine ⟨fun h => ?_,duenessSound_of_lt⟩
  -- the margin covers the whole delta otherwise, and a payment accepted just now is due
  have hfresh := (h.fresh 1 (by decide) 0).1
  simp only [dueByHeight,decide_eq_false_iff_not] at hfresh
  omega

def wholeMargin : Settings := { plainSettings with escrowDeadlineMarginBlocks := 144 }

/-- A payment accepted at height 0 that expires 144 blocks later is due by the height at once, and
by the clock only after half of the window.  Six hours on, without a single block, the guardian
lists the order and cancels its escrow. -/
theorem fresh_escrow_due_by_height :
    dueByHeight 144 0 (0 + 144) = true ∧ dueByClock 10 144 144 10 = false ∧
    ∃ c, (daemon wholeMargin plainExternals).Reach System.Demand.none State.Initial c ∧
      c.shared.height = 0 ∧ dueByClock 10 144 144 c.shared.now = false ∧
      ∃ r ∈ c.shared.orders, r.order.invoiceHeldAt = 10 ∧ r.order.status = .canceled ∧
        ∃ h ∈ r.order.hash, c.shared.holdState h = some .canceled := by
  obtain ⟨c,hc,h⟩ := reach_of_schedule wholeMargin plainExternals System.Demand.none
    (.env (.tick 10) :: takenSell ++ .env (.accept 3 144) :: alone 4 (.escrowInvoice 3) 6
      ++ .env (.tick 21600) :: alone 5 (.job .enforceEscrowDeadline) 8)
    (fun s => s.height = 0 ∧ dueByClock 10 144 144 s.now = false ∧
      ∃ r ∈ s.orders, r.order.invoiceHeldAt = 10 ∧ r.order.status = .canceled ∧
        ∃ h ∈ r.order.hash, s.holdState h = some .canceled) (by decide +kernel)
  exact ⟨by decide,by decide,c,hc,h⟩

end Mostro
