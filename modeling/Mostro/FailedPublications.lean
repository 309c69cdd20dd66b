import Mostro.HandlerOperations
import Mostro.SmoothRuns

set_option autoImplicit false

/-!
A publication that fails while it asks for the maker's bond.  The order row is deleted again, unless
a bond already refers to it: the foreign key of `bonds` then keeps the row.
-/

namespace Mostro

open Interleaving SqlTable

/-- The steps of a bond request that can fail once the order is stored. -/
inductive BondRequestStep where
  | connect
  | createHoldInvoice
  | insertBond
  | subscribe
  deriving DecidableEq, Repr

def BondRequestStep.ofOp : Op → Option BondRequestStep
  | .lnd .connect => some .connect
  | .lnd (.createHoldInvoice _ _) => some .createHoldInvoice
  | .bond (.create _) => some .insertBond
  | .lnd (.subscribeInvoice _) => some .subscribe
  | _ => none

abbrev failsAt (step : BondRequestStep) : Requirement := .check
  (fun _ op ch _ _ => match BondRequestStep.ofOp op with
    | some st => ch == if st == step then .fault else .ok
    | none => ch != .fault)
  (fun _ _ _ => true)

def State.clearOf (s : State) (id : Uuid) : Bool :=
  s.orders.all (fun r => !(r.order.id == id && r.order.status == .waitingMakerBond)) &&
    s.bonds.all fun b => !(b.orderId == id && b.state.isActive)

def State.Parked (s : State) (id : Uuid) : Prop :=
  ∃ r ∈ s.orders, r.order.id = id ∧ r.order.status = .waitingMakerBond

def State.HasBond (s : State) (id : Uuid) : Prop := ∃ b ∈ s.bonds, b.orderId = id

section

variable {cfg : Settings} {ext : Externals} {l : Label} {id : Uuid} {s : State}
variable {step : BondRequestStep}

theorem failsAt_some {op : Op} {ch : Choice} {ls : List Label} {st : BondRequestStep}
    (h : BondRequestStep.ofOp op = some st) :
    (failsAt step).onOp l op ch ls s ↔ ch = if st = step then .fault else .ok := by
  simp [System.Demand.check,h]

theorem failsAt_none {op : Op} {ch : Choice} {ls : List Label}
    (h : BondRequestStep.ofOp op = none) : (failsAt step).onOp l op ch ls s ↔ ch ≠ .fault := by
  simp [System.Demand.check,h]

def Op.keepsReference (id : Uuid) : Op → Bool
  | .order _ => false
  | .bond (.run (.update _ row)) => row.orderId == id
  | .bond _ => false
  | _ => true

theorem Effect.keeps_reference {tid : Nat} {op : Op} {s' : State} (he : Effect tid op s s')
    (hop : op.keepsReference id = true) (hparked : s.Parked id) (hbond : s.HasBond id) :
    s'.Parked id ∧ s'.HasBond id := by
  rcases he.rows with hk | ⟨st,rfl,_⟩ | ⟨st,rfl,rfl⟩
  · exact ⟨by simpa [State.Parked,hk.orders] using hparked,
      by simpa [State.HasBond,hk.bonds] using hbond⟩
  · cases hop
  · refine ⟨by simpa [State.Parked,bondStmt_orders] using hparked,?_⟩
    obtain ⟨b,hb,hid⟩ := hbond
    cases st with
    | run u =>
      cases u with
      | update read row =>
        refine ⟨_,mem_updateWhere.mpr ⟨b,hb,rfl⟩,?_⟩
        split
        · simpa [Op.keepsReference,BondUpdate.set] using hop
        · exact hid
      | _ => cases hop
    | _ => cases hop

theorem releaseBond_keeps_reference {bond : Bond} (hid : bond.orderId = id)
    (hparked : s.Parked id) (hbond : s.HasBond id) :
    (daemon cfg ext).Sat (failsAt step) (.solo fun _ _ _ => True) l (releaseBond bond)
      (fun _ s => s.Parked id ∧ s.HasBond id) s := by
  have hreleases : ReleasesBond (fun op => op.keepsReference id = true) bond :=
    { timestamp := rfl
      connect := rfl
      cancel := fun _ _ => rfl
      update := fun _ => by simp [Op.keepsReference,hid] }
  refine System.Sat.of_only (T := fun s : State => s.Parked id ∧ s.HasBond id)
    (releaseBond_only hreleases) ⟨hparked,hbond⟩ (fun s s' hs hr => by rwa [show s' = s from hr]) ?_
  rintro op ls s hop ⟨hparked,hbond⟩ -
  exact ⟨trivial,fun ch _ =>
    (exec_effect ext l.tid op ch s).keeps_reference hop hparked hbond⟩

theorem lone_request_bind {α : Type} {op : Op} {st : BondRequestStep} {f : op.Out → M α}
    {Q : Except MostroError α → State → Prop} (hop : BondRequestStep.ofOp op = some st)
    (hfault : ∃ e, exec ext l.tid op .fault s = (s,.error e))
    (hfail : st = step → ∀ e, Q (.error e) s)
    (hok : st ≠ step → ∃ a, (exec ext l.tid op .ok s).2 = .ok a ∧
      (daemon cfg ext).Sat (failsAt step) (.solo fun _ _ _ => True) l (f a) Q
        (exec ext l.tid op .ok s).1) :
    (daemon cfg ext).Sat (failsAt step) (.solo fun _ _ _ => True) l ((ask op).bind f) Q s := by
  refine solo_ask_bind trivial fun ch hd => ?_
  rw [failsAt_some hop] at hd
  by_cases hst : st = step
  · obtain ⟨e,he⟩ := hfault
    rw [if_pos hst] at hd
    subst hd
    rw [he]
    exact ⟨nofun,fun e _ => hfail hst e⟩
  · obtain ⟨a,ha,hrest⟩ := hok hst
    rw [if_neg hst] at hd
    subst hd
    rw [ha]
    refine ⟨?_,nofun⟩
    rintro _ ⟨⟩
    exact hrest

theorem requestBond_fails {order : Order} {pubkey : Pubkey} {role : BondRole} {amount : Int}
    (hparked : s.Parked order.id) (hnone : ¬ s.HasBond order.id) :
    (daemon cfg ext).Sat (failsAt step) (.solo fun _ _ _ => True) l
      (requestBond order pubkey role amount none) (fun r s' =>
        (∃ e, r = .error e) ∧ s'.Parked order.id ∧
        (s'.HasBond order.id ↔ step = .subscribe)) s := by
  -- up to the insert of the bond nothing refers to the order
  have hstop {st : BondRequestStep} {s' : State} (hst : st ≠ .subscribe) (h : st = step)
      (hp : s'.Parked order.id) (hn : ¬ s'.HasBond order.id) (e : MostroError) :
      (∃ e', (Except.error e : Except MostroError Bond) = .error e') ∧ s'.Parked order.id ∧
        (s'.HasBond order.id ↔ step = .subscribe) :=
    ⟨⟨e,rfl⟩,hp,iff_of_false hn (h ▸ hst)⟩
  refine lone_request_bind (show _ = some .connect from rfl) ⟨_,rfl⟩
    (fun h => hstop (by decide) h hparked hnone) fun hconnect => ⟨(),rfl,?_⟩
  refine lone_request_bind (show _ = some .createHoldInvoice from rfl) ⟨_,rfl⟩
    (fun h => hstop (by decide) h hparked hnone) fun hcreate => ⟨_,rfl,?_⟩
  refine solo_ask_bind trivial fun ch _ => ⟨?_,nofun⟩
  rintro now ⟨⟩
  refine lone_request_bind (show _ = some .insertBond from rfl) ⟨_,rfl⟩
    (fun h => hstop (by decide) h hparked hnone) fun hinsert => ⟨_,rfl,?_⟩
  -- the subscription is left, so it is what fails
  obtain rfl : step = .subscribe := by
    cases step with
    | subscribe => rfl
    | connect | createHoldInvoice | insertBond => contradiction
  refine solo_ask_attempt_bind trivial fun ch hd => ?_
  rw [failsAt_some rfl,if_pos rfl] at hd
  subst hd
  refine System.Sat.bind (System.Sat.ignore (System.Sat.mono
    (releaseBond_keeps_reference rfl hparked ?_) ?_))
  · exact ⟨_,List.mem_append_right _ (List.mem_singleton_self _),rfl⟩
  · rintro _ s' ⟨hp,hb⟩
    exact ⟨⟨_,rfl⟩,hp,iff_of_true hb rfl⟩

theorem requestMakerBond_fails (hmaker : makerBondRequired cfg = true) {order : Order}
    {maker : Pubkey} {notional : Int} (hparked : s.Parked order.id) (hnone : ¬ s.HasBond order.id) :
    (daemon cfg ext).Sat (failsAt step) (.solo fun _ _ _ => True) l
      (requestMakerBond cfg order maker notional) (fun r s' =>
        (∃ e, r = .error e) ∧ s'.Parked order.id ∧
        (s'.HasBond order.id ↔ step = .subscribe)) s := by
  refine sat_require_bind (fun bondCfg _ => requestBond_fails hparked hnone) fun h => ?_
  simp [makerBondRequired,h] at hmaker

theorem deleteStranded_clears {tid : Nat} (hparked : s.Parked id) :
    ((OrderStmt.deleteStranded id).exec tid s).1.clearOf id = true ↔ ¬ s.HasBond id := by
  have hany : s.bonds.any (·.orderId == id) = true ↔ s.HasBond id := by simp [State.HasBond]
  constructor
  · intro hclear hbond
    obtain ⟨r,hr,hid,hst⟩ := hparked
    have hkept : s.deletable id r = false := by simp [State.deletable,hany.mpr hbond]
    simp only [State.clearOf,OrderStmt.exec,Bool.and_eq_true,List.all_eq_true] at hclear
    have := hclear.1 r (List.mem_filter.mpr ⟨hr,by simp [hkept]⟩)
    simp [hid,hst] at this
  · intro hbond
    have hfree : s.bonds.any (·.orderId == id) = false := by
      rwa [← Bool.not_eq_true,hany]
    simp only [State.clearOf,OrderStmt.exec,Bool.and_eq_true,List.all_eq_true]
    refine ⟨fun r hr => ?_,fun b hb => ?_⟩
    · have hkept := (List.mem_filter.mp hr).2
      simpa [State.deletable,hfree] using hkept
    · have hne : b.orderId ≠ id := fun h => hbond ⟨b,hb,h⟩
      simp [hne]

variable {new : SmallOrder} {initiator identity trade : Pubkey} {tradeIndex : Option Int}

theorem unstored_bind {α β : Type} {p : M α} {f : α → M β} {Q : Except MostroError β → State → Prop}
    (hp : p.Only fun op => ∀ ch s, (exec ext l.tid op ch s).1 = s) (hfail : ∀ e, Q (.error e) s)
    (hf : ∀ a, (daemon cfg ext).Sat (failsAt step) (.solo fun _ _ _ => True) l (f a) Q s) :
    (daemon cfg ext).Sat (failsAt step) (.solo fun _ _ _ => True) l (p.bind f) Q s := by
  refine System.Sat.bind (System.Sat.mono (System.Sat.of_only (T := (· = s)) hp rfl
    (fun _ _ hs hr => hr.trans hs) ?_) ?_)
  · intro op ls s₁ hop hs _
    exact ⟨trivial,fun ch _ => (hop ch s₁).trans hs⟩
  · rintro (e | a) _ rfl
    · exact hfail e
    · exact hf a

theorem prepareNewOrder_only {P : Op → Prop} (h : P .timestamp) :
    (prepareNewOrder ext new initiator identity trade tradeIndex).Only P := by
  unfold prepareNewOrder
  refine Prog.Only.bind require_only fun kind => (ask_only h).bind fun now => ?_
  cases kind <;> trivial

theorem makerBondNotionalSats_only {P : Op → Prop} {order : Order}
    (h : ∀ fiat, P (.marketAmountAndFee fiat)) : (makerBondNotionalSats order).Only P := by
  unfold makerBondNotionalSats
  split
  · exact Prog.Only.bind require_only fun fiat => (ask_only (h fiat)).bind fun _ => trivial
  · split
    · trivial
    · exact (ask_only (h _)).bind fun _ => trivial

theorem publishOrder_fails (hmaker : makerBondRequired cfg = true)
    (hfresh : ¬ s.HasBond s.nextId) :
    (daemon cfg ext).Sat (failsAt step) (.solo fun _ _ _ => True) l
      (publishOrder cfg ext new initiator identity trade tradeIndex) (fun r s' =>
        s.nextId < s'.nextId →
          (∃ e, r = .error e) ∧ (s'.clearOf s.nextId = true ↔ step ≠ .subscribe)) s := by
  unfold publishOrder
  refine unstored_bind (prepareNewOrder_only fun _ _ => rfl) (fun _ h => absurd h (lt_irrefl _))
    fun order => ?_
  rw [if_pos hmaker]
  refine unstored_bind (makerBondNotionalSats_only fun _ _ _ => rfl)
    (fun _ h => absurd h (lt_irrefl _)) fun notional => ?_
  refine solo_ask_bind trivial fun ch hd => ?_
  rw [failsAt_none rfl] at hd
  simp only [exec,orFault,if_neg hd]
  refine ⟨?_,fun e he => by cases he⟩
  rintro _ ⟨⟩
  -- the order is stored under the next id, and the request for its bond fails
  refine System.Sat.bind (System.Sat.attempt (System.Sat.mono
    (requestMakerBond_fails hmaker ?_ hfresh) ?_))
  · exact ⟨_,List.mem_append_right _ (List.mem_singleton_self _),rfl,rfl⟩
  rintro _ s₁ ⟨⟨e,rfl⟩,hparked,hbond⟩
  refine System.Sat.bind (System.Sat.ignore ?_)
  refine solo_ask trivial fun ch hd _ => ⟨⟨e,rfl⟩,?_⟩
  rw [failsAt_none rfl] at hd
  simp only [exec,orFault,if_neg hd]
  exact (deleteStranded_clears hparked).trans (not_congr hbond)

end

theorem failed_publication_clear_iff (cfg : Settings) (ext : Externals) (l : Label)
    (step : BondRequestStep) (new : SmallOrder) (initiator identity trade : Pubkey)
    (tradeIndex : Option Int) (s s' : State) (r : Except MostroError Unit)
    (hmaker : makerBondRequired cfg = true) (hfresh : ∀ b ∈ s.bonds, b.orderId ≠ s.nextId)
    (hrun : (daemon cfg ext).Alone (failsAt step) l
      (publishOrder cfg ext new initiator identity trade tradeIndex) s r s')
    (hstored : s.nextId < s'.nextId) :
    (∃ e, r = .error e) ∧ (s'.clearOf s.nextId = true ↔ step ≠ .subscribe) := by
  have hnone : ¬ s.HasBond s.nextId := fun ⟨b,hb,hid⟩ => hfresh b hb hid
  exact (publishOrder_fails hmaker hnone).alone hrun hstored

abbrev bondedOffer : M Unit :=
  publishOrder (bondSettings .make 500) plainExternals
    ⟨some .sell,5000,100,none,none,none,100000⟩ 7 7 7 none

theorem failed_publication_clear_without_invoice :
    ∃ e s', (daemon (bondSettings .make 500) plainExternals).Alone (failsAt .createHoldInvoice)
      ⟨0,.message (.newOrder ⟨some .sell,5000,100,none,none,none,100000⟩ 7 7 7 none)⟩
      bondedOffer {} (.error e) s' ∧ s'.clearOf 0 = true := by
  have hplay : ((daemon (bondSettings .make 500) plainExternals).playAlone
      (failsAt .createHoldInvoice)
      ⟨0,.message (.newOrder ⟨some .sell,5000,100,none,none,none,100000⟩ 7 7 7 none)⟩
      [.ok,.ok,.ok,.fault,.ok] bondedOffer {}).any
        (fun out => decide (0 < out.2.nextId)) = true := by decide +kernel
  obtain ⟨⟨r,s'⟩,hrun,hstored⟩ := (Option.any_eq_true _ _).mp hplay
  have hrun := System.alone_of_play hrun
  obtain ⟨⟨e,rfl⟩,hclear⟩ := failed_publication_clear_iff _ _ _ .createHoldInvoice _ _ _ _ _ {} s' r
    (by decide) (by simp) hrun (by simpa using hstored)
  exact ⟨e,s',hrun,hclear.mpr (by decide)⟩

/-- When the subscription fails, the released bond keeps the parked order in the database. -/
theorem failed_publication_parked :
    ∃ e s', (daemon (bondSettings .make 500) plainExternals).Alone (failsAt .subscribe)
      ⟨0,.message (.newOrder ⟨some .sell,5000,100,none,none,none,100000⟩ 7 7 7 none)⟩
      bondedOffer {} (.error e) s' ∧ s'.clearOf 0 = false ∧
        s'.orders.map (fun r => (r.order.id,r.order.status)) = [(0,.waitingMakerBond)] ∧
        s'.bonds.map (fun b => (b.orderId,b.state)) = [(0,.released)] := by
  have hplay : ((daemon (bondSettings .make 500) plainExternals).playAlone (failsAt .subscribe)
      ⟨0,.message (.newOrder ⟨some .sell,5000,100,none,none,none,100000⟩ 7 7 7 none)⟩
      (List.replicate 6 .ok ++ .fault :: List.replicate 5 .ok) bondedOffer {}).any
        (fun out => out.1.toOption.isNone && decide (out.2.clearOf 0 = false ∧
          out.2.orders.map (fun r => (r.order.id,r.order.status)) = [(0,.waitingMakerBond)] ∧
          out.2.bonds.map (fun b => (b.orderId,b.state)) = [(0,.released)])) = true := by
    decide +kernel
  obtain ⟨⟨r,s'⟩,hrun,hout⟩ := (Option.any_eq_true _ _).mp hplay
  obtain ⟨herr,hleft⟩ := Bool.and_eq_true_iff.mp hout
  cases r with
  | ok _ => cases herr
  | error e => exact ⟨e,s',System.alone_of_play hrun,of_decide_eq_true hleft⟩

end Mostro
