import Mostro.HandlerOperations
import Mostro.OrderStages
import Mostro.StrandedEscrow

set_option autoImplicit false

/-!
From the settlement of an escrow to the payout.  A handler that settles an escrow owes two things:
the move of the order to `settled-hold-invoice`, and after it a payout claim or the mark of a failed
payment.  As long as the steps it has left are not refused or interrupted, it pays both before it
ends.
-/

namespace Mostro

open Interleaving SqlTable

variable {r : OrderRow} {tid : Nat} {β : Type}

/-- The order that a Release or an AdminSettle settles. -/
def Request.settledOrder : Request → Option Uuid
  | .message (.release order _ _) | .message (.admin (.settle order _))
  | .rpc (.settle order _) => some order
  | _ => none

theorem settles_iff {req : Request} {id : Uuid} : req.settles id ↔ req.settledOrder = some id := by
  unfold Request.settles Request.settledOrder
  split <;> simp

def Request.isRelease : Request → Bool
  | .message (.release _ _ _) => true
  | _ => false

def State.escrowSettled (s : State) (id : Uuid) : Bool :=
  s.holds.any fun i => i.memo == .escrow id && i.state == .settled

section

variable (cfg : Settings) (ext : Externals)

/-- What `do_payment` needs: an invoice of the buyer that decodes, or an address whose failure can
be counted, an amount, and the buyer. -/
def Order.payable (o : Order) : Bool :=
  (o.buyerInvoice.any fun request =>
    if ext.isAddress request then
      (ext.countFailedPayment o cfg.paymentAttempts).buyerPubkey.isSome && o.paymentAttempts == 0
    else (ext.decodeInvoice request).isSome)
  && payoutAmount o != 0 && o.buyerPubkey.isSome

def Order.settleable (release : Bool) (o : Order) : Bool :=
  !([Status.fiatSent,.dispute].contains o.status)
    || ({ o with status := .settledHoldInvoice }.payable cfg ext
      && (release || o.sellerDispute != o.buyerDispute))

end

def Op.vital : Op → Bool
  | .updateOrderEvent _ _ | .order (.run _) | .dispute _ | .check _ | .lnd .connect => true
  | _ => false

/-- The order a settling handler reads may be settled and paid out; the reply to its settle is not
lost, and once the escrow is settled none of its vital steps fails. -/
def Op.settlementLands (cfg : Settings) (ext : Externals) (l : Label) (op : Op) (ch : Choice)
    (s : State) : Bool :=
  l.req.settledOrder.all fun id => match op with
    | .query (.orderById x) => s.orders.all fun r =>
        r.order.id != id || x != id || r.order.settleable cfg ext l.req.isRelease
    | .lnd (.settleHoldInvoice _) => ch != .lost
    | op => !(op.vital && s.escrowSettled id) || ch != .fault

/-- Whole-row writes find the order as their handlers read it, settlements land, and the daemon does
not crash between a settlement and the end of its handler. -/
abbrev settlementLands (cfg : Settings) (ext : Externals) : Requirement := .check
  (fun l op ch _ s => op.settlementLands cfg ext l ch s && match op with
    | .order (.run u) => u.isFresh s
    | _ => true)
  (fun e ls s => !e.isCrash || ls.all fun l => l.req.settledOrder.all fun id => !s.escrowSettled id)

theorem settlementLands_copiesFresh {cfg : Settings} {ext : Externals} {l : Label} {op : Op}
    {ch : Choice} {ls : List Label} {s : State}
    (h : (settlementLands cfg ext).onOp l op ch ls s) : copiesFresh.onOp l op ch ls s :=
  (Bool.and_eq_true_iff.mp h).2

def ClaimsRecorded (s : State) : Prop :=
  ∀ r ∈ s.orders, r.payoutPaymentHash.isSome = true → ∃ x ∈ s.claims, x.order = r.order.id

theorem orderUpdate_claim {u : OrderUpdate} {s : State} (hsel : u.selects s r = true)
    (hp : (u.set r).payoutPaymentHash.isSome = true) :
    r.payoutPaymentHash.isSome = true ∨ ∃ hash t, u = .claimOrderPayout r.order.id hash t := by
  have hid := orderUpdate_id hsel
  cases u with
  | claimOrderPayout id hash t => exact .inr ⟨hash,t,by rw [hid]; rfl⟩
  | clearOrderPayout | failOrderPayout => cases hp
  | editPubkeysOrder id kind => cases kind <;> exact .inl hp
  | casPromoteTakerContext o =>
    simp only [OrderUpdate.set] at hp
    split at hp <;> exact .inl hp
  | _ => exact .inl hp

theorem claimsRecorded_run {s : State} {u : OrderUpdate} (hi : ClaimsRecorded s) :
    ClaimsRecorded (u.run tid s).1 := by
  intro r hr hp
  obtain ⟨q,hq,rfl⟩ := mem_updateWhere.mp hr
  by_cases hsel : u.selects s q = true
  · rw [if_pos hsel] at hp ⊢
    rw [orderUpdate_set_id hsel]
    rcases orderUpdate_claim hsel hp with hold | ⟨hash,t,rfl⟩
    · obtain ⟨x,hx,hid⟩ := hi q hq hold
      exact ⟨x,List.mem_append_right _ hx,hid⟩
    · refine ⟨⟨q.order.id,tid,s.claims.length⟩,List.mem_append_left _ ?_,rfl⟩
      rw [if_pos (affected_pos.mpr ⟨q,hq,hsel⟩)]
      exact List.mem_singleton.mpr rfl
  · rw [if_neg hsel] at hp ⊢
    obtain ⟨x,hx,hid⟩ := hi q hq hp
    exact ⟨x,List.mem_append_right _ hx,hid⟩

theorem claimsRecorded_invariant (ext : Externals) (D : Requirement) :
    StepInvariant ext D ClaimsRecorded (fun _ _ _ => True) where
  init s hs := by
    obtain ⟨now,height,rfl⟩ := hs
    exact fun r hr => by simp at hr
  launch cfg l s s' _ hi hl := by
    obtain ⟨_,rfl⟩ := launch_eq hl
    exact ⟨hi,fun _ _ _ h => h⟩
  op l Γ op ch ls s _ _ _ hi _ he := by
    refine ⟨?_,fun _ _ _ _ h => h⟩
    rcases he.rows with hk | ⟨st,rfl,hst⟩ | ⟨st,_,hst⟩
    · intro r hr hp
      rw [hk.claims]
      exact hi r (hk.orders ▸ hr) hp
    · rw [hst]
      cases st with
      | create o =>
        intro r hr hp
        rcases List.mem_append.mp hr with hr | hr
        · exact hi r hr hp
        · rw [List.mem_singleton.mp hr] at hp
          cases hp
      | run u => exact claimsRecorded_run hi
      | deleteStranded id => exact fun r hr hp => hi r (List.mem_of_mem_filter hr) hp
    · intro r hr hp
      rw [hst,bondStmt_orders] at hr
      rw [hst,bondStmt_rest st s State.claims]
      exact hi r hr hp
  learn _ _ _ _ _ _ _ _ _ _ _ _ _ _ _ _ := trivial
  env e ls s s' _ hi _ he := by
    have hk := he.rowsKept
    refine ⟨fun r hr hp => ?_,fun _ _ _ _ h => h⟩
    rw [hk.claims]
    exact hi r (hk.orders ▸ hr) hp

def EscrowSettled (id : Uuid) (s : State) : Prop :=
  ∃ h i, s.hold? h = some i ∧ i.memo = .escrow id ∧ i.state = .settled

/-- The order is past its settlement, with its payout claimed or marked as failed if it is not paid
out yet. -/
def PaidOut (id : Uuid) (s : State) : Prop :=
  ∃ r ∈ s.orders, r.order.id = id ∧ 3 ≤ r.order.status.stage ∧
    (r.order.status = .settledHoldInvoice →
      r.order.failedPayment = true ∨ ∃ x ∈ s.claims, x.order = id)

inductive Due where
  | status (id : Uuid)
  | payout (id : Uuid)

def Due.order : Due → Uuid
  | .status id | .payout id => id

def Due.Outstanding (s : State) : Due → Prop
  | .status id => EscrowSettled id s ∧ ¬ AtStage 3 id s
  | .payout id => EscrowSettled id s ∧ AtStage 3 id s ∧ ¬ PaidOut id s

theorem EscrowSettled.any {id : Uuid} {s : State} (h : EscrowSettled id s) :
    s.escrowSettled id = true := by
  obtain ⟨x,i,hi,hm,hst⟩ := h
  exact List.any_eq_true.mpr ⟨i,List.mem_of_find?_eq_some hi,by simp [hm,hst]⟩

theorem EscrowSettled.progress {id : Uuid} {s s' : State} (h : EscrowSettled id s)
    (hp : HoldsProgress s s') : EscrowSettled id s' := by
  obtain ⟨x,i,hi,hm,hst⟩ := h
  obtain ⟨j,hj,hb⟩ := hp x i hi
  obtain rfl := hb.final (.inl hst)
  exact ⟨x,j,hj,hm,hst⟩

theorem EscrowSettled.back {id : Uuid} {s s' : State} (h : EscrowSettled id s')
    (hp : HoldsProgress s s')
    (hfrom : ∀ x, s'.holdState x = some .settled → s.holdState x = some .settled) :
    EscrowSettled id s := by
  obtain ⟨x,i,hi,hm,hst⟩ := h
  obtain ⟨j,hj,hjst⟩ := holdState_eq_some.mp (hfrom x (holdState_eq_some.mpr ⟨i,hi,hst⟩))
  exact ⟨x,j,hj,(hp.memo x j hj i hi).symm.trans hm,hjst⟩

variable {δ : Due}

theorem Due.Outstanding.settled {s : State} (h : δ.Outstanding s) : EscrowSettled δ.order s := by
  cases δ <;> exact h.1

theorem PaidOut.advances {id : Uuid} {s s' : State} (h : PaidOut id s) (ha : Advances s s') :
    PaidOut id s' := by
  obtain ⟨r,hr,hid,hst,hpaid⟩ := h
  obtain ⟨r',hr',hid',hle,hf⟩ := ha.rows r hr (by omega)
  refine ⟨r',hr',hid'.trans hid,hst.trans hle,fun hset => ?_⟩
  have hthree : r.order.status.stage = 3 := by
    rw [hset] at hle
    exact Nat.le_antisymm hle hst
  refine (hpaid (stage_eq_three hthree)).imp (hf hst) ?_
  rintro ⟨x,hx,hxid⟩
  exact ⟨x,ha.claims x hx,hxid⟩

theorem Due.Outstanding.back {s s' : State} (h : δ.Outstanding s') (hk : RowsKept s s')
    (hfrom : ∀ x, s'.holdState x = some .settled → s.holdState x = some .settled) :
    δ.Outstanding s := by
  have hstage {id : Uuid} : AtStage 3 id s ↔ AtStage 3 id s' := by simp only [AtStage,hk.orders]
  cases δ with
  | status id => exact ⟨h.1.back hk.holds hfrom,fun h3 => h.2 (hstage.mp h3)⟩
  | payout id =>
    exact ⟨h.1.back hk.holds hfrom,hstage.mpr h.2.1,fun hp => h.2.2 (hp.advances (.of_rowsKept hk))⟩

structure SettlementKnowing (l : Label) (op : Op) (s : State) : Prop where
  consistent : Consistent s
  agree : EscrowsAgree s
  recorded : ClaimsRecorded s
  need : ∃ Γ, op.need l.req Γ ∧ ∀ f ∈ Γ, f.Lasts s

abbrev settlementKnown (cfg : Settings) (ext : Externals) : Requirement :=
  (settlementLands cfg ext).given fun l op _ s => SettlementKnowing l op s

section

variable {cfg : Settings} {ext : Externals} {l : Label} {op : Op} {ch : Choice} {ls : List Label}
variable {s s' : State}

theorem settlementKnown_advances (hd : (settlementKnown cfg ext).onOp l op ch ls s)
    (he : Effect l.tid op s s') : Advances s s' := by
  obtain ⟨Γ,hn,_⟩ := hd.2.need
  exact advances_effect hn (settlementLands_copiesFresh hd.1) he

theorem EscrowSettled.origin {id : Uuid} (hk : SettlementKnowing l op s)
    (he : Effect l.tid op s s') (h : EscrowSettled id s') :
    EscrowSettled id s ∨ l.req.settledOrder = some id ∧ ∃ p, op = .lnd (.settleHoldInvoice p) := by
  obtain ⟨x,i,hi,hm,hst⟩ := h
  rcases he.settled_from (holdState_eq_some.mpr ⟨i,hi,hst⟩) with hset | ⟨rfl,hacc⟩
  · obtain ⟨j,hj,hjst⟩ := holdState_eq_some.mp hset
    exact .inl ⟨x,j,hj,(he.holdsProgress.memo x j hj i hi).symm.trans hm,hjst⟩
  · obtain ⟨j,hj,_⟩ := holdState_eq_some.mp hacc
    obtain ⟨Γ,hn,hΓ⟩ := hk.need
    have hm' := (he.holdsProgress.memo x j hj i hi).symm.trans hm
    exact .inr ⟨settles_iff.mp (settle_order hk.consistent hΓ hn hj hm').1,x,rfl⟩

theorem EscrowSettled.of_row (hc : Consistent s) (hi : EscrowsAgree s) (hr : r ∈ s.orders)
    (hst : r.order.status = .settledHoldInvoice) : EscrowSettled r.order.id s := by
  obtain ⟨h,hh,hset⟩ := hi.settled r hr (.inl hst)
  obtain ⟨i,hi,hm⟩ := (hc.escrow r hr).2 h hh
  obtain ⟨j,hj,hjst⟩ := holdState_eq_some.mp hset
  obtain rfl := Option.some.inj (hi.symm.trans hj)
  exact ⟨h,i,hi,hm,hjst⟩

/-- The operations that leave something to do: the settlement of the escrow, and the move of the
order to `settled-hold-invoice`. -/
def Op.raises (op : Op) : Due → Bool
  | .status _ => match op with
    | .lnd (.settleHoldInvoice _) => true
    | _ => false
  | .payout id => match op with
    | .order (.run (.settleFromRelease x)) | .order (.run (.settleFromAdmin x)) => x == id
    | _ => false

theorem orderStmt_settled {st : OrderStmt} {Γ : Set Fact} (hn : st.need l.req Γ)
    (hr : r ∈ (st.exec tid s).1.orders) (hst : r.order.status = .settledHoldInvoice) :
    (∃ q ∈ s.orders, q.order.id = r.order.id ∧ q.order.status = .settledHoldInvoice) ∨
      l.req.settledOrder = some r.order.id ∧ (Op.order st).raises (.payout r.order.id) = true := by
  cases st with
  | create o =>
    rcases List.mem_append.mp hr with hr | hr
    · exact .inl ⟨r,hr,rfl,hst⟩
    · have hnew : o.status = .settledHoldInvoice := by
        rw [List.mem_singleton.mp hr] at hst
        exact hst
      rcases hn.2.2.1 with h | h <;> exact nomatch hnew.symm.trans h
  | run u =>
    obtain ⟨q,hq,rfl⟩ := mem_updateWhere.mp hr
    by_cases hsel : u.selects s q = true
    · rw [if_pos hsel] at hst ⊢
      rw [orderUpdate_set_id hsel]
      rcases orderUpdate_cases hn hsel with ⟨read,hu⟩ | ⟨_,hne,_⟩ | ⟨hsame,_⟩ | ⟨hu,_⟩ | ⟨_,_,hs,_⟩
      · cases u with
        | update x row => exact absurd hst hn.notSettled
        | updateOrderToInitialState x a f d => cases hst
        | _ => cases hu
      · exact absurd hst hne
      · exact .inl ⟨q,hq,rfl,hsame ▸ hst⟩
      · refine .inr ?_
        rcases hu with rfl | rfl <;> exact ⟨settles_iff.mp hn.1,by simp [Op.raises]⟩
      · exact nomatch hst.symm.trans hs
    · rw [if_neg hsel] at hst ⊢
      exact .inl ⟨q,hq,rfl,hst⟩
  | deleteStranded x => exact .inl ⟨r,List.mem_of_mem_filter hr,rfl,hst⟩

theorem due_effect (hd : (settlementKnown cfg ext).onOp l op ch ls s) (he : Effect l.tid op s s')
    (h : δ.Outstanding s') :
    δ.Outstanding s ∨
      l.req.settledOrder = some δ.order ∧ op.raises δ = true ∧ ¬ AtStage 3 δ.order s := by
  have ha := settlementKnown_advances hd he
  have hk := hd.2
  cases δ with
  | status id =>
    obtain ⟨hset,hearly⟩ := h
    have hbefore : ¬ AtStage 3 id s := fun h3 => hearly (h3.advances (by decide) ha)
    rcases hset.origin hk he with hold | ⟨hreq,p,rfl⟩
    · exact .inl ⟨hold,hbefore⟩
    · exact .inr ⟨hreq,rfl,hbefore⟩
  | payout id =>
    obtain ⟨hset,⟨r,hr,rfl,hstage⟩,hunpaid⟩ := h
    have hst : r.order.status = .settledHoldInvoice := by
      by_contra hne
      exact hunpaid ⟨r,hr,rfl,hstage,fun h => absurd h hne⟩
    have hold : (∃ q ∈ s.orders, q.order.id = r.order.id ∧ q.order.status = .settledHoldInvoice) →
        (Due.payout r.order.id).Outstanding s := by
      rintro ⟨q,hq,hid,hqst⟩
      rw [← hid] at hunpaid ⊢
      exact ⟨.of_row hk.consistent hk.agree hq hqst,⟨q,hq,rfl,by rw [hqst]; exact le_rfl⟩,
        fun hp => hunpaid (hp.advances ha)⟩
    by_cases h3 : AtStage 3 r.order.id s
    · obtain ⟨q,hq,hid,hq3⟩ := h3
      refine .inl (hold ⟨q,hq,hid,stage_eq_three ?_⟩)
      obtain ⟨q',hq',hid',hle,_⟩ := ha.rows q hq (by omega)
      by_contra hne
      refine hunpaid ⟨q',hq',hid'.trans hid,hq3.trans hle,fun h => ?_⟩
      rw [h] at hle
      exact absurd (Nat.le_antisymm hle hq3) hne
    · rcases he.rows with hrows | ⟨st,rfl,rfl⟩ | ⟨st,_,rfl⟩
      · exact .inl (hold ⟨r,hrows.orders ▸ hr,rfl,hst⟩)
      · obtain ⟨Γ,hn,_⟩ := hk.need
        exact (orderStmt_settled hn hr hst).imp hold fun ⟨hreq,hop⟩ => ⟨hreq,hop,h3⟩
      · exact .inl (hold ⟨r,bondStmt_orders st s ▸ hr,rfl,hst⟩)

end

/-! ### The handlers -/

abbrev advancing : Contract State Label Op :=
  ⟨fun _ => True,fun _ => Advances,fun _ _ _ _ => True,fun _ _ _ => True,fun _ _ => True⟩

abbrev SettlesSat (cfg : Settings) (ext : Externals) (l : Label) {α : Type} (p : M α)
    (Q : Except MostroError α → State → Prop) (s : State) : Prop :=
  (daemon cfg ext).Sat (settlementKnown cfg ext) advancing l p Q s

abbrev SettlesHonest (cfg : Settings) (ext : Externals) (l : Label) (p : M Unit) (s : State) :
    Prop :=
  (daemon cfg ext).Honest (settlementKnown cfg ext) advancing (fun (δ : Due) s => δ.Outstanding s)
    (fun δ l => l.req.settledOrder = some δ.order) l p s

structure PayoutDue (id : Uuid) (s : State) : Prop where
  stage : AtStage 3 id s
  settled : EscrowSettled id s

theorem PayoutDue.advances {id : Uuid} {s s' : State} (h : PayoutDue id s) (ha : Advances s s') :
    PayoutDue id s' :=
  ⟨h.stage.advances (by decide) ha,h.settled.progress ha.holds⟩

section

variable {cfg : Settings} {ext : Externals} {l : Label} {id : Uuid} {α : Type}

theorem own_advances {op : Op} {ch : Choice} {ls : List Label} {s : State}
    (hd : (settlementKnown cfg ext).onOp l op ch ls s) :
    Advances s (exec ext l.tid op ch s).1 :=
  settlementKnown_advances hd (exec_effect ext l.tid op ch s)

theorem vital_lands {op : Op} {ch : Choice} {ls : List Label} {s : State}
    (hd : (settlementKnown cfg ext).onOp l op ch ls s) (hl : l.req.settledOrder = some id)
    (hop : op.vital = true) (hset : EscrowSettled id s) : ch ≠ .fault := by
  have hlands := (Bool.and_eq_true_iff.mp hd.1).1
  rw [Op.settlementLands,hl,Option.all_some] at hlands
  split at hlands
  · cases hop
  · cases hop
  · simpa [hop,hset.any] using hlands

theorem claim_paidOut {hash : Hash} {now : Int} {s : State} (hi : ClaimsRecorded s)
    (hs : AtStage 3 id s) :
    PaidOut id (OrderUpdate.run tid s (.claimOrderPayout id hash now)).1 := by
  obtain ⟨r,hr,rfl,hst⟩ := hs
  let u := OrderUpdate.claimOrderPayout r.order.id hash now
  by_cases hsel : u.selects s r = true
  · refine ⟨u.set r,mem_updateWhere.mpr ⟨r,hr,if_pos hsel⟩,rfl,hst,fun _ => .inr ?_⟩
    refine ⟨⟨r.order.id,tid,s.claims.length⟩,List.mem_append_left _ ?_,rfl⟩
    rw [if_pos (affected_pos.mpr ⟨r,hr,hsel⟩)]
    exact List.mem_singleton.mpr rfl
  · refine ⟨r,mem_updateWhere.mpr ⟨r,hr,if_neg hsel⟩,rfl,hst,fun hset => .inr ?_⟩
    have hclaimed : r.payoutPaymentHash.isSome = true := by
      simpa [u,OrderUpdate.selects,OrderUpdate.guard,OrderUpdate.target,hset,
        Option.isSome_iff_ne_none] using hsel
    obtain ⟨x,hx,hid⟩ := hi r hr hclaimed
    exact ⟨x,List.mem_append_right _ hx,hid⟩

theorem failure_paidOut {read : Order} {attempts : Int} {s : State} (hs : AtStage 3 read.id s) :
    PaidOut read.id (OrderUpdate.run tid s (.checkFailureRetries read true attempts)).1 := by
  obtain ⟨r,hr,hid,hst⟩ := hs
  refine ⟨(OrderUpdate.checkFailureRetries read true attempts).set r,
    mem_updateWhere.mpr ⟨r,hr,if_pos ?_⟩,hid,hst,fun _ => .inl rfl⟩
  simp [OrderUpdate.selects,OrderUpdate.guard,OrderUpdate.target,hid]

theorem checkFailureRetries_pays (hext : ext.Documented) (hl : l.req.settledOrder = some id)
    {order : Order} (hid : order.id = id)
    (hbuyer : (ext.countFailedPayment order cfg.paymentAttempts).buyerPubkey.isSome = true)
    (hattempts : order.paymentAttempts = 0) {s : State} (hs : PayoutDue id s) :
    SettlesSat cfg ext l (checkFailureRetries cfg ext order) (fun _ s => PaidOut id s) s := by
  unfold checkFailureRetries
  refine sat_require_bind (fun _ _ => ?_) fun hnone => by simp [hnone] at hbuyer
  refine sat_ensure_bind (fun _ => ?_) fun hfail => by simp [hattempts] at hfail
  refine sat_ask_bind (T := PayoutDue id) hs (fun _ _ ha h => h.advances ha) fun s ls hs _ =>
    ⟨trivial,fun ch hd => ?_⟩
  have hpaid : PaidOut id (exec ext l.tid (.order (.run (.checkFailureRetries order
      (ext.countFailedPayment order cfg.paymentAttempts).failedPayment
      (ext.countFailedPayment order cfg.paymentAttempts).paymentAttempts))) ch s).1 := by
    rw [exec_order_of_ne (vital_lands hd hl rfl hs.settled),hext.countFailedPayment,← hid]
    exact failure_paidOut (hid ▸ hs.stage)
  exact ⟨fun _ _ => hpaid,fun _ _ => hpaid⟩

theorem failedPayment_pays (hext : ext.Documented) (hl : l.req.settledOrder = some id)
    {order : Order} (hid : order.id = id)
    (hbuyer : (ext.countFailedPayment order cfg.paymentAttempts).buyerPubkey.isSome = true)
    (hattempts : order.paymentAttempts = 0) {e : MostroError} (f : α → M β) {s : State}
    (hs : PayoutDue id s) :
    SettlesSat cfg ext l (((checkFailureRetries cfg ext order).ignore.bind fun _ => .fail e).bind f)
      (fun _ s => PaidOut id s) s := by
  refine System.Sat.bind (System.Sat.bind (System.Sat.ignore ?_))
  exact (checkFailureRetries_pays hext hl hid hbuyer hattempts hs).mono fun _ _ h => h

theorem claimPayout_pays (hl : l.req.settledOrder = some id) {order : Order} (hid : order.id = id)
    (hbuyer : order.buyerPubkey.isSome = true) {request : PaymentRequest}
    (hdecode : (ext.decodeInvoice request).isSome = true) {s : State} (hs : PayoutDue id s) :
    SettlesSat cfg ext l (do
      let _ ← require order.buyerPubkey .invalidPubkey
      lnd .connect
      let decoded ← require (ext.decodeInvoice request) .invoiceInvalid
      let now ← timestamp
      let claimed ← runOrder (.claimOrderPayout order.id decoded.1 now)
      if claimed = 0 then pure ()
      else ask (.spawn
        { order, paymentRequest := request, amount := payoutAmount order, payoutHash := decoded.1,
          payoutClaimedAt := now })) (fun _ s => PaidOut id s) s := by
  refine sat_require_bind (fun _ _ => ?_) fun hnone => by simp [hnone] at hbuyer
  refine sat_ask_bind (T := PayoutDue id) hs (fun _ _ ha h => h.advances ha) fun s ls hs _ =>
    ⟨trivial,fun ch hd => ⟨fun _ _ => ?_,fun e he => ?_⟩⟩
  · refine sat_require_bind (fun decoded _ => ?_) fun hnone => by simp [hnone] at hdecode
    refine sat_ask_bind (T := PayoutDue id) (hs.advances (own_advances hd))
      (fun _ _ ha h => h.advances ha) fun s ls hs _ =>
      ⟨trivial,fun ch hd => ⟨fun now _ => ?_,nofun⟩⟩
    refine sat_ask_bind (T := PayoutDue id) (hs.advances (own_advances hd))
      (fun _ _ ha h => h.advances ha) fun s ls hs _ => ⟨trivial,fun ch hd => ?_⟩
    have hpaid : PaidOut id
        (exec ext l.tid (.order (.run (.claimOrderPayout order.id decoded.1 now))) ch s).1 := by
      rw [exec_order_of_ne (vital_lands hd hl rfl hs.settled),hid]
      exact claim_paidOut hd.2.recorded hs.stage
    refine ⟨fun claimed _ => ?_,fun _ _ => hpaid⟩
    split
    · exact hpaid
    · refine sat_ask (T := PaidOut id) hpaid (fun _ _ ha h => h.advances ha) fun s ls hs _ =>
        ⟨trivial,fun ch hd => hs.advances (own_advances hd)⟩
  · simp [exec,LndCall.exec,vital_lands hd hl rfl hs.settled] at he

theorem doPayment_pays (hext : ext.Documented) (hl : l.req.settledOrder = some id) {order : Order}
    (hid : order.id = id) (hpay : order.payable cfg ext = true) {s : State} (hs : PayoutDue id s) :
    SettlesSat cfg ext l (doPayment cfg ext order) (fun _ s => PaidOut id s) s := by
  simp only [Order.payable,Bool.and_eq_true,bne_iff_ne,Option.any_eq_true] at hpay
  obtain ⟨⟨⟨request,hrequest,haddress⟩,hamount⟩,hbuyer⟩ := hpay
  unfold doPayment
  rw [hrequest]
  refine sat_ensure_bind (fun _ => ?_) fun hfail => by simp [hamount] at hfail
  unfold resolvePayout
  split
  next ha =>
    simp only [ha,if_true,Bool.and_eq_true,beq_iff_eq] at haddress
    obtain ⟨hcounted,hattempts⟩ := haddress
    refine sat_bind_assoc (sat_ask_attempt_bind (T := PayoutDue id) hs
      (fun _ _ ha h => h.advances ha) fun s ls hs _ => ⟨trivial,fun ch hd => ?_⟩)
    have hs' := hs.advances (own_advances hd)
    generalize (exec ext l.tid _ ch s).2 = resolved
    split
    next pr =>
      split
      next hdecode =>
        refine sat_bind_assoc (sat_ask_attempt_bind (T := PayoutDue id) hs'
          (fun _ _ ha h => h.advances ha) fun s ls hs _ => ⟨trivial,fun ch hd => ?_⟩)
        have hs' := hs.advances (own_advances hd)
        split
        · exact claimPayout_pays hl hid hbuyer hdecode hs'
        · exact failedPayment_pays hext hl hid hcounted hattempts _ hs'
      · exact failedPayment_pays hext hl hid hcounted hattempts _ hs'
    · exact failedPayment_pays hext hl hid hcounted hattempts _ hs'
  next ha =>
    rw [if_neg ha] at haddress
    exact claimPayout_pays hl hid hbuyer haddress hs

theorem recorded_bind {p : M α} {f : α → M β} {Q : Except MostroError β → State → Prop} {s : State}
    (hend : p.Succeeds) (hs : PayoutDue id s)
    (hf : ∀ a s, PayoutDue id s → SettlesSat cfg ext l (f a) Q s) :
    SettlesSat cfg ext l (p.bind f) Q s :=
  System.Sat.bind_succeeds (Prog.only_true p) hend hs (fun _ _ h ha => h.advances ha)
    (fun _ _ _ _ h _ => ⟨trivial,fun _ hd => h.advances (own_advances hd)⟩) hf

def SettlesFrom (n : Nat) (id : Uuid) (u : OrderUpdate) : Prop :=
  ∀ tid s, AtStage n id s → AtStage 3 id (u.run tid s).1

theorem settleFromRelease_settles (id : Uuid) : SettlesFrom 1 id (.settleFromRelease id) := by
  rintro tid s ⟨r,hr,rfl,hst⟩
  let u := OrderUpdate.settleFromRelease r.order.id
  by_cases hsel : u.selects s r = true
  · exact ⟨u.set r,mem_updateWhere.mpr ⟨r,hr,if_pos hsel⟩,rfl,le_rfl⟩
  · refine ⟨r,mem_updateWhere.mpr ⟨r,hr,if_neg hsel⟩,rfl,?_⟩
    by_contra h3
    refine hsel ?_
    rcases settling_of_stage hst (by omega) with h | h <;>
      simp [u,OrderUpdate.selects,OrderUpdate.guard,OrderUpdate.target,h]

theorem settleFromAdmin_settles (id : Uuid) : SettlesFrom 2 id (.settleFromAdmin id) := by
  rintro tid s ⟨r,hr,rfl,hst⟩
  let u := OrderUpdate.settleFromAdmin r.order.id
  by_cases hsel : u.selects s r = true
  · exact ⟨u.set r,mem_updateWhere.mpr ⟨r,hr,if_pos hsel⟩,rfl,le_rfl⟩
  · refine ⟨r,mem_updateWhere.mpr ⟨r,hr,if_neg hsel⟩,rfl,?_⟩
    by_contra h3
    refine hsel ?_
    rcases settling_of_stage (by omega) (by omega : r.order.status.stage ≤ 2) with h | h
    · rw [h] at hst
      exact absurd hst (by decide)
    · simp [u,OrderUpdate.selects,OrderUpdate.guard,OrderUpdate.target,h]

section

variable {n : Nat} {order : Order} {u : Order → OrderUpdate} {f : Order → Nat → M Unit}

theorem record_status (hl : l.req.settledOrder = some id) (hn : 1 ≤ n)
    (hu : SettlesFrom n id (u { order with status := .settledHoldInvoice })) {s : State}
    (hs : AtStage n id s) (hset : EscrowSettled id s) :
    SettlesSat cfg ext l ((updateOrderEvent .settledHoldInvoice order).bind fun o =>
      (runOrder (u o)).bind (f o)) (fun _ s => ¬ (Due.status id).Outstanding s) s := by
  have hT : ∀ s s', Advances s s' → AtStage n id s ∧ EscrowSettled id s →
      AtStage n id s' ∧ EscrowSettled id s' :=
    fun s s' ha h => ⟨h.1.advances hn ha,h.2.progress ha.holds⟩
  refine sat_bind_assoc (sat_ask_bind (T := fun s => AtStage n id s ∧ EscrowSettled id s) ⟨hs,hset⟩
    hT fun s ls hs _ => ⟨trivial,fun ch hd => ⟨fun _ _ => ?_,fun e he => ?_⟩⟩)
  · refine sat_ask_bind (T := fun s => AtStage n id s ∧ EscrowSettled id s)
      (hT _ _ (own_advances hd) hs) hT fun s ls hs _ => ⟨trivial,fun ch hd => ?_⟩
    have hthree : AtStage 3 id (exec ext l.tid
        (.order (.run (u { order with status := .settledHoldInvoice }))) ch s).1 := by
      rw [exec_order_of_ne (vital_lands hd hl rfl hs.2)]
      exact hu _ _ hs.1
    refine ⟨fun settled _ => ?_,fun _ _ hout => hout.2 hthree⟩
    refine System.Sat.mono (Q := fun _ s => AtStage 3 id s) ?_ fun _ _ h hout => hout.2 h
    exact System.Sat.of_only (Prog.only_true _) hthree (fun _ _ h ha => h.advances (by decide) ha)
      fun _ _ _ _ h _ => ⟨trivial,fun _ hd => h.advances (by decide) (own_advances hd)⟩
  · simp [exec,vital_lands hd hl rfl hs.2] at he

theorem recorded_honest (hl : l.req.settledOrder = some id) {s : State} (hs : AtStage 3 id s)
    (p : M Unit) : SettlesHonest cfg ext l p s := by
  refine System.Honest.of_kept hs (fun _ _ h ha => h.advances (by decide) ha)
    (fun op ch ls s hs _ hd => ⟨hs.advances (by decide) (own_advances hd),fun δ hδ => ?_⟩) p
  refine (due_effect hd (exec_effect ext l.tid op ch s) hδ).resolve_right ?_
  rintro ⟨hreq,_,hearly⟩
  rw [← Option.some.inj (hl.symm.trans hreq)] at hearly
  exact hearly hs

theorem raises_nothing {op : Op} {ch : Choice} {ls : List Label} {s : State}
    (hop : ∀ δ, op.raises δ = false) (hd : (settlementKnown cfg ext).onOp l op ch ls s) (δ : Due)
    (hδ : δ.Outstanding (exec ext l.tid op ch s).1) : δ.Outstanding s :=
  (due_effect hd (exec_effect ext l.tid op ch s) hδ).resolve_right fun h =>
    nomatch (hop δ).symm.trans h.2.1

theorem affected_of_stage {u : OrderUpdate} {s : State} (hearly : ¬ AtStage n id s)
    (hs : AtStage n id (u.run tid s).1) : (u.run tid s).2 ≠ 0 := by
  intro hzero
  obtain ⟨r,hr,hid,hst⟩ := hs
  obtain ⟨q,hq,rfl⟩ := mem_updateWhere.mp hr
  by_cases hsel : u.selects s q = true
  · exact absurd hzero (Nat.pos_iff_ne_zero.mp (affected_pos.mpr ⟨q,hq,hsel⟩))
  · rw [if_neg hsel] at hid hst
    exact hearly ⟨q,hq,hid,hst⟩

theorem record_honest (hl : l.req.settledOrder = some id) (hn : 1 ≤ n)
    (hu : SettlesFrom n id (u { order with status := .settledHoldInvoice }))
    (hf : ∀ settled s, settled ≠ 0 → PayoutDue id s →
      SettlesSat cfg ext l (f { order with status := .settledHoldInvoice } settled)
        (fun _ s => PaidOut id s) s) {s : State} (hs : AtStage n id s) :
    SettlesHonest cfg ext l ((updateOrderEvent .settledHoldInvoice order).bind fun o =>
      (runOrder (u o)).bind (f o)) s := by
  rw [updateOrderEvent,Prog.bind_assoc]
  refine honest_ask_bind (T := AtStage n id) hs (fun _ _ ha h => h.advances hn ha)
    fun s ls hs _ ch hd => ⟨fun δ hδ => .inl (raises_nothing ?_ hd δ hδ),fun _ _ => ?_⟩
  · rintro (_ | _) <;> rfl
  refine honest_ask_bind (T := AtStage n id) (hs.advances hn (own_advances hd))
    (fun _ _ ha h => h.advances hn ha) fun s ls hs _ ch hd => ?_
  set o : Order := { order with status := .settledHoldInvoice }
  have hrun (settled : Nat) (hres : (exec ext l.tid (.order (.run (u o))) ch s).2 = .ok settled) :
      AtStage 3 id (exec ext l.tid (.order (.run (u o))) ch s).1 := by
    rw [(exec_order_ok hres).1]
    exact hu _ _ hs
  refine ⟨fun δ hδ => ?_,fun settled hres => recorded_honest hl (hrun settled hres) _⟩
  refine (due_effect hd (exec_effect ext l.tid _ ch s) hδ).imp_right ?_
  rintro ⟨hreq,hraise,hearly⟩
  refine ⟨hreq,?_⟩
  obtain rfl := Option.some.inj (hl.symm.trans hreq)
  cases δ with
  | status id => cases hraise
  | payout id =>
    cases hres : (exec ext l.tid (.order (.run (u o))) ch s).2 with
    | error e =>
      rw [exec_order_error hres] at hδ
      exact absurd hδ.2.1 hearly
    | ok settled =>
      obtain ⟨hstate,hcount⟩ := exec_order_ok hres
      have hthree := hrun settled hres
      refine ⟨settled,rfl,(hf settled _ ?_ ⟨hthree,hδ.1⟩).mono fun _ _ h hout => hout.2.2 h⟩
      rw [← hcount]
      exact affected_of_stage hearly (hstate ▸ hthree)

theorem settle_honest {p : Hash} {g : Except MostroError Unit → M Unit}
    (hl : l.req.settledOrder = some id) (hn : 1 ≤ n)
    (hstatus : ∀ s, AtStage n id s → EscrowSettled id s →
      SettlesSat cfg ext l (g (.ok ())) (fun _ s => ¬ (Due.status id).Outstanding s) s)
    (hok : ∀ s, AtStage n id s → SettlesHonest cfg ext l (g (.ok ())) s)
    (herr : ∀ e s, SettlesHonest cfg ext l (g (.error e)) s) {s : State} (hs : AtStage n id s) :
    SettlesHonest cfg ext l ((lnd (.settleHoldInvoice p)).attempt.bind g) s := by
  refine honest_ask_attempt_bind (T := AtStage n id) hs (fun _ _ ha h => h.advances hn ha)
    fun s ls hs _ ch hd => ?_
  have hs' := hs.advances hn (own_advances hd)
  have hlost : ch ≠ .lost := by
    have hlands := (Bool.and_eq_true_iff.mp hd.1).1
    rw [Op.settlementLands,hl,Option.all_some] at hlands
    simpa using hlands
  cases hres : (exec ext l.tid (.lnd (.settleHoldInvoice p)) ch s).2 with
  | error e =>
    refine ⟨fun δ hδ => .inl ?_,herr e _⟩
    rwa [exec_settle_refused hlost hres] at hδ
  | ok a =>
    refine ⟨fun δ hδ => ?_,hok _ hs'⟩
    refine (due_effect hd (exec_effect ext l.tid _ ch s) hδ).imp_right ?_
    rintro ⟨hreq,hraise,_⟩
    refine ⟨hreq,?_⟩
    obtain rfl := Option.some.inj (hl.symm.trans hreq)
    cases δ with
    | status id => exact hstatus _ hs' hδ.1
    | payout id => cases hraise

end

theorem raises_nothing_read : Reads fun op => ∀ δ, op.raises δ = false := by
  constructor
  · rintro q (_ | _) <;> rfl
  · rintro (_ | _) <;> rfl

structure ReadOrder (cfg : Settings) (ext : Externals) (release : Bool) (id : Uuid) (o : Order)
    (s : State) : Prop where
  id : o.id = id
  stored : ∃ r ∈ s.orders, r.order = o
  settleable : o.settleable cfg ext release = true

theorem getOrder_honest (hl : l.req.settledOrder = some id) {f : Order → M Unit} (s : State)
    (hf : ∀ o s, ReadOrder cfg ext l.req.isRelease id o s → SettlesHonest cfg ext l (f o) s) :
    SettlesHonest cfg ext l ((getOrder id).bind f) s := by
  rw [getOrder,requireOrder,Prog.bind_assoc]
  refine honest_ask_bind (T := fun _ => True) trivial (fun _ _ _ h => h) fun s ls _ _ ch hd =>
    ⟨fun δ hδ => .inl (raises_nothing (raises_nothing_read.query _) hd δ hδ),fun found hres => ?_⟩
  cases found with
  | none => trivial
  | some o =>
    obtain ⟨hstate,hrun⟩ := exec_query_ok hres
    obtain ⟨r,hr,rfl⟩ := Option.map_eq_some_iff.mp
      (show (s.order? id).map (·.order) = some o from hrun)
    have hmem := List.mem_of_find?_eq_some hr
    have hid : r.order.id = id := by simpa using List.find?_some hr
    refine hf r.order _ ⟨hid,⟨r,?_,rfl⟩,?_⟩
    · rw [hstate]
      exact hmem
    · have hlands := (Bool.and_eq_true_iff.mp hd.1).1
      simp only [Op.settlementLands,hl,Option.all_some,List.all_eq_true] at hlands
      simpa [hid] using hlands r hmem

theorem closeDisputeAfterUserResolution_succeeds (order : Uuid) (status : DisputeStatus) :
    (closeDisputeAfterUserResolution order status).Succeeds := by
  refine (Prog.attempt_succeeds _).bind fun found => ?_
  split
  · exact Prog.ignore_succeeds _
  · trivial

theorem resolveRangeMakerBondAtCloseOrWarn_succeeds (order : Order) :
    (resolveRangeMakerBondAtCloseOrWarn order).Succeeds := by
  refine (Prog.attempt_succeeds _).bind fun found => ?_
  split
  · split
    · trivial
    · refine (Prog.attempt_succeeds _).bind fun connected => ?_
      split
      · exact Prog.ignore_succeeds _
      · trivial
  · trivial

theorem continueOrCloseRange_succeeds (order : Order) (nextTrade : NextTrade) :
    (continueOrCloseRange ext order nextTrade).Succeeds := by
  refine (Prog.attempt_succeeds _).bind fun child => ?_
  split
  · refine (Prog.attempt_succeeds _).bind fun handled => ?_
    split
    · trivial
    · exact resolveRangeMakerBondAtCloseOrWarn_succeeds order
  · exact resolveRangeMakerBondAtCloseOrWarn_succeeds order

theorem quiet_bind {T : State → Prop} {p : M α} {f : α → M Unit} {s : State}
    (hp : p.Only fun op => ∀ δ, op.raises δ = false) (hs : T s)
    (hT : ∀ s s', Advances s s' → T s → T s') (hf : ∀ a s, T s → SettlesHonest cfg ext l (f a) s) :
    SettlesHonest cfg ext l (p.bind f) s :=
  System.Honest.bind_keeping hp hs (fun s s' h ha => hT s s' ha h)
    (fun _ _ _ _ hop hs _ hd => ⟨hT _ _ (own_advances hd) hs,raises_nothing hop hd⟩) hf

theorem Order.settleable_payable {release : Bool} {o : Order}
    (h : o.settleable cfg ext release = true) (hst : o.status = .fiatSent ∨ o.status = .dispute) :
    ({ o with status := .settledHoldInvoice } : Order).payable cfg ext = true ∧
      (release || o.sellerDispute != o.buyerDispute) = true := by
  have hc : [Status.fiatSent,.dispute].contains o.status = true := by
    rcases hst with hst | hst <;> simp [hst]
  rw [Order.settleable,hc] at h
  exact Bool.and_eq_true_iff.mp h

theorem ReadOrder.atStage {release : Bool} {o : Order} {s : State} {n : Nat}
    (h : ReadOrder cfg ext release id o s) (hst : n ≤ o.status.stage) : AtStage n id s := by
  obtain ⟨r,hr,rfl⟩ := h.stored
  exact ⟨r,hr,h.id,hst⟩

theorem releaseRest_pays (hext : ext.Documented) (hl : l.req.settledOrder = some id) (order : Order)
    (hid : order.id = id) (hpay : order.payable cfg ext = true) (nextTrade : NextTrade) {s : State}
    (hs : PayoutDue id s) :
    SettlesSat cfg ext l (do
      closeDisputeAfterUserResolution order.id .settled
      continueOrCloseRange ext order nextTrade
      releaseTakerBondsForOrderOrWarn order.id
      (doPayment cfg ext order).ignore) (fun _ s => PaidOut id s) s := by
  refine recorded_bind (closeDisputeAfterUserResolution_succeeds _ _) hs fun _ s hs => ?_
  refine recorded_bind (continueOrCloseRange_succeeds _ _) hs fun _ s hs => ?_
  refine recorded_bind (Prog.ignore_succeeds _) hs fun _ s hs => ?_
  exact System.Sat.ignore (doPayment_pays hext hl hid hpay hs)

theorem releaseAction_honest (hext : ext.Documented) {sender : Pubkey} {nextTrade : NextTrade}
    (hl : l.req = .message (.release id sender nextTrade)) (s : State) :
    SettlesHonest cfg ext l (releaseAction cfg ext id sender nextTrade) s := by
  have hset : l.req.settledOrder = some id := by rw [hl]; rfl
  unfold releaseAction
  refine getOrder_honest hset s fun order s hread => honest_require_bind fun seller _ => ?_
  refine honest_require_bind fun buyer _ => honest_ensure_bind fun _ =>
    honest_ensure_bind fun hst => ?_
  have hst : order.status = .fiatSent ∨ order.status = .dispute := by simpa using hst
  have hstage := hread.atStage (stage_settling hst).1
  have hpay := (Order.settleable_payable hread.settleable hst).1
  obtain rfl := hread.id
  simp only [settleSellerHoldInvoice,Prog.bind_eq,Prog.bind_assoc]
  refine honest_require_bind fun _ _ => honest_ensure_bind fun _ =>
    honest_require_bind fun p _ => ?_
  rw [lnd,ask_bind_eq]
  have hu := settleFromRelease_settles order.id
  refine settle_honest hset le_rfl (fun s hs he => ?_) (fun s hs => ?_) (fun _ _ => ?_) hstage
  · exact record_status (u := fun o => .settleFromRelease o.id) hset le_rfl hu hs he
  · refine record_honest (u := fun o => .settleFromRelease o.id) hset le_rfl hu
      (fun settled s hne hs => ?_) hs
    rw [if_neg hne]
    exact releaseRest_pays hext hset { order with status := .settledHoldInvoice } rfl hpay
      nextTrade hs
  · trivial

theorem closeDisputeByAdmin_pays (hl : l.req.settledOrder = some id) {order : Order}
    (hflags : order.sellerDispute ≠ order.buyerDispute) (status : DisputeStatus) (d : Dispute)
    {f : Unit → M β} {Q : Except MostroError β → State → Prop} {s : State} (hs : PayoutDue id s)
    (hf : ∀ s, PayoutDue id s → SettlesSat cfg ext l (f ()) Q s) :
    SettlesSat cfg ext l ((closeDisputeByAdmin order status d).bind f) Q s := by
  refine sat_bind_assoc (sat_ask_bind (T := PayoutDue id) hs (fun _ _ ha h => h.advances ha)
    fun s ls hs _ => ⟨trivial,fun ch hd => ⟨fun _ _ => ?_,fun e he => ?_⟩⟩)
  · refine sat_bind_assoc (sat_ensure_bind (fun _ => ?_) fun hfail => by simp [hflags] at hfail)
    refine sat_ask_bind (T := PayoutDue id) (hs.advances (own_advances hd))
      (fun _ _ ha h => h.advances ha) fun s ls hs _ => ⟨trivial,fun ch hd =>
        ⟨fun _ _ => hf _ (hs.advances (own_advances hd)),fun e he => ?_⟩⟩
    simp [exec,vital_lands hd hl rfl hs.settled] at he
  · simp [exec,orFault,DisputeStmt.duplicates,vital_lands hd hl rfl hs.settled] at he

theorem adminSettleRest_pays (hext : ext.Documented) (hl : l.req.settledOrder = some id)
    (order orderUpdated : Order) (hid : orderUpdated.id = id)
    (hpay : orderUpdated.payable cfg ext = true) (hflags : order.sellerDispute ≠ order.buyerDispute)
    (resolution : BondResolution) {s : State} (hs : PayoutDue id s) :
    SettlesSat cfg ext l (do
      let found : Except MostroError (Option Dispute) ←
        (query (.findDisputeByOrderId order.id)).attempt
      match found with
      | .ok (some d) => closeDisputeByAdmin order .settled d
      | _ => pure ()
      (applyBondResolution cfg orderUpdated resolution .lostDispute).ignore
      (resolveRangeMakerBondAtClose orderUpdated).ignore
      (doPayment cfg ext orderUpdated).ignore) (fun _ s => PaidOut id s) s := by
  have hrest (s : State) (hs : PayoutDue id s) : SettlesSat cfg ext l (do
      (applyBondResolution cfg orderUpdated resolution .lostDispute).ignore
      (resolveRangeMakerBondAtClose orderUpdated).ignore
      (doPayment cfg ext orderUpdated).ignore) (fun _ s => PaidOut id s) s := by
    refine recorded_bind (Prog.ignore_succeeds _) hs fun _ s hs => ?_
    refine recorded_bind (Prog.ignore_succeeds _) hs fun _ s hs => ?_
    exact System.Sat.ignore (doPayment_pays hext hl hid hpay hs)
  refine recorded_bind (Prog.attempt_succeeds _) hs fun found s hs => ?_
  dsimp only
  split
  · exact closeDisputeByAdmin_pays hl hflags _ _ hs hrest
  · exact hrest s hs

theorem adminSettleAction_honest (hext : ext.Documented) {resolution : BondResolution}
    (hl : l.req.settledOrder = some id) (hadmin : l.req.isRelease = false) (s : State) :
    SettlesHonest cfg ext l (adminSettleAction cfg ext id resolution) s := by
  unfold adminSettleAction
  refine getOrder_honest hl s fun order s hread => ?_
  rw [hadmin] at hread
  refine quiet_bind (T := fun s => order.status = .dispute → AtStage 2 id s) (ask_only ?_) ?_ ?_
    fun _ s hs => ?_
  · rintro (_ | _) <;> rfl
  · intro hst
    exact hread.atStage (by rw [hst]; exact le_rfl)
  · exact fun _ _ ha h hst => (h hst).advances (by decide) ha
  split
  · trivial
  refine honest_ensure_bind fun hst => ?_
  have hst : order.status = .dispute := by simpa using hst
  obtain ⟨hpay,hflags⟩ := Order.settleable_payable hread.settleable (.inr hst)
  have hflags : order.sellerDispute ≠ order.buyerDispute := by simpa using hflags
  obtain rfl := hread.id
  refine quiet_bind (T := AtStage 2 order.id) (validateBondResolution_only raises_nothing_read _ _)
    (hs hst) (fun _ _ ha h => h.advances (by decide) ha) fun _ s hs => ?_
  unfold settleSellerHoldInvoice
  cases order.sellerPubkey with
  | none => trivial
  | some seller =>
    cases order.preimage with
    | none => trivial
    | some p =>
      have hu := settleFromAdmin_settles order.id
      refine settle_honest (n := 2) hl (by decide) (fun s hs he => ?_) (fun s hs => ?_)
        (fun _ _ => ?_) hs
      · exact record_status (u := fun _ => .settleFromAdmin order.id) hl (by decide) hu hs he
      · refine record_honest (u := fun _ => .settleFromAdmin order.id) hl (by decide) hu
          (fun settled s hne hs => ?_) hs
        rw [if_neg hne]
        exact adminSettleRest_pays hext hl order { order with status := .settledHoldInvoice } rfl
          hpay hflags resolution hs
      · trivial

end

theorem settlements_paid {cfg : Settings} {ext : Externals} (hext : ext.Documented) :
    System.Pays (daemon cfg ext) (settlementKnown cfg ext) advancing
      (fun (δ : Due) s => δ.Outstanding s) (fun δ l => l.req.settledOrder = some δ.order)
      State.Initial where
  rely_refl _ := Advances.refl
  rely_trans _ _ _ _ := Advances.trans
  init s hs := by
    obtain ⟨now,height,rfl⟩ := hs
    intro δ hδ
    obtain ⟨x,i,hi,_⟩ := hδ.settled
    cases hi
  start l s s' hl := by
    refine ⟨fun _ => .of_rowsKept (launch_rowsKept hl),fun δ hδ => hδ.back (launch_rowsKept hl) ?_⟩
    obtain ⟨_,rfl⟩ := launch_eq hl
    exact fun _ h => h
  code l s s' hl := by
    have hquiet (hnone : l.req.settledOrder = none) (p : M Unit) :
        SettlesHonest cfg ext l p s' := by
      refine System.Honest.of_quiet (fun op ch ls s _ hd δ hδ => ?_) p s'
      refine (due_effect hd (exec_effect ext l.tid op ch s) hδ).resolve_right fun h => ?_
      exact nomatch hnone.symm.trans h.1
    obtain ⟨tid,req⟩ := l
    cases req with
    | message m =>
      cases m with
      | release order sender nextTrade => exact releaseAction_honest hext rfl s'
      | admin m =>
        cases m with
        | settle order resolution => exact adminSettleAction_honest hext rfl rfl s'
        | _ => exact hquiet rfl _
      | _ => exact hquiet rfl _
    | rpc m =>
      cases m with
      | settle order resolution => exact adminSettleAction_honest hext rfl rfl s'
      | _ => exact hquiet rfl _
    | _ => exact hquiet rfl _
  other l l' op ch ls s _ _ _ _ hd := own_advances hd
  env e ls s s' hd he := by
    have hm := env_moves he
    refine ⟨fun δ hδ => hδ.back hm.rowsKept fun _ => hm.settled_from,
      fun _ _ _ => .of_rowsKept hm.rowsKept,fun hk δ hδ l hl hreq => ?_⟩
    have hk : e.isCrash = true := hk
    have hd : (!e.isCrash || ls.all fun l => l.req.settledOrder.all fun id =>
      !s.escrowSettled id) = true := hd
    simp only [hk,Bool.not_true,Bool.false_or,List.all_eq_true] at hd
    simpa [hreq,hδ.settled.any] using hd l hl

theorem settlementKnown_of_reach {cfg : Settings} {ext : Externals} (hext : ext.Documented)
    {c : DaemonState} (hc : (daemon cfg ext).Reach (settlementLands cfg ext) State.Initial c) :
    (daemon cfg ext).Reach (settlementKnown cfg ext) State.Initial c := by
  refine hc.given fun c hc l op hnext => ?_
  have hinv : StepInvariant ext (settlementLands cfg ext) EscrowsAgree
      (fun _ f s => KnowsEscrowed s f) :=
    (copiesFresh_invariant ext).mono settlementLands_copiesFresh fun _ => rfl
  obtain ⟨hcons,hagree⟩ := hinv.reach hext hc
  obtain ⟨k,ht⟩ := hnext
  obtain ⟨Γ,hn,hΓ⟩ := (hinv.upholds hext cfg).about_to hc ht
  exact ⟨hcons,hagree,((claimsRecorded_invariant ext _).reach hext hc).2,Γ,hn,
    fun f hf => (hΓ f hf).1⟩

/-- Where settlements land, an order that no running Release or AdminSettle is about does not stand
in fiat-sent or dispute with its escrow settled, and once it is recorded as settled its payout has
been claimed or is marked for the retry job. -/
theorem settled_escrow_paid_out {cfg : Settings} {ext : Externals} (hext : ext.Documented)
    {c : DaemonState} (hc : (daemon cfg ext).Reach (settlementLands cfg ext) State.Initial c)
    {r : OrderRow} (hr : r ∈ c.shared.orders)
    (hrun : ∀ l ∈ c.running, l.req.settledOrder ≠ some r.order.id) :
    (∀ h, r.order.hash = some h → c.shared.holdState h = some .settled →
      r.order.status ≠ .fiatSent ∧ r.order.status ≠ .dispute) ∧
    (r.order.status = .settledHoldInvoice →
      r.order.failedPayment = true ∨ ∃ x ∈ c.shared.claims, x.order = r.order.id) := by
  have hknown := settlementKnown_of_reach hext hc
  obtain ⟨hcons,hrecorded⟩ := (claimsRecorded_invariant ext _).reach hext hc
  have hnone (δ : Due) (hδ : δ.order = r.order.id) : ¬ δ.Outstanding c.shared := by
    refine (settlements_paid hext).settled (fun _ _ _ _ _ => trivial) hknown fun l hl => ?_
    rw [hδ]
    exact hrun l hl
  refine ⟨fun h hh hset => ?_,fun hst => ?_⟩
  · obtain ⟨i,hi,hm⟩ := (hcons.escrow r hr).2 h hh
    obtain ⟨j,hj,hjst⟩ := holdState_eq_some.mp hset
    obtain rfl := Option.some.inj (hi.symm.trans hj)
    have h3 : AtStage 3 r.order.id c.shared := by
      by_contra h3
      exact hnone (.status r.order.id) rfl ⟨⟨h,i,hi,hm,hjst⟩,h3⟩
    obtain ⟨q,hq,hid,hstage⟩ := h3
    obtain rfl := hcons.order_unique hq hr hid
    constructor <;> intro hst <;> rw [hst] at hstage <;> exact absurd hstage (by decide)
  · have hagree := ((copiesFresh_invariant ext).mono settlementLands_copiesFresh
      fun _ => rfl).reach hext hc
    have hpaid : PaidOut r.order.id c.shared := by
      by_contra hpaid
      refine hnone (.payout r.order.id) rfl ⟨.of_row hcons hagree.2 hr hst,⟨r,hr,rfl,?_⟩,hpaid⟩
      rw [hst]
      exact le_rfl
    obtain ⟨q,hq,hid,_,hdone⟩ := hpaid
    obtain rfl := hcons.order_unique hq hr hid
    exact hdone hst

theorem released_sell_paid_out :
    ∃ c r, (daemon plainSettings plainExternals).Reach
      (settlementLands plainSettings plainExternals) State.Initial c ∧ r ∈ c.shared.orders ∧
      r.order.status = .settledHoldInvoice ∧ c.shared.holdState 3 = some .settled ∧
      (r.order.failedPayment = true ∨ ∃ x ∈ c.shared.claims, x.order = r.order.id) := by
  obtain ⟨c,hc,hidle,r,hr,hst,hset⟩ := idle_of_schedule plainSettings plainExternals
    (settlementLands plainSettings plainExternals)
    (activeSell ++ alone 5 (.message (.fiatSent 1 8 none)) 3
      ++ alone 6 (.message (.release 1 7 none)) 11)
    (fun s => ∃ r ∈ s.orders, r.order.status = .settledHoldInvoice ∧ s.holdState 3 = some .settled)
    (by decide +kernel)
  exact ⟨c,r,hc,hr,hst,hset,(settled_escrow_paid_out plainExternals_documented hc hr
    (by simp [Config.running,hidle])).2 hst⟩

/-- The seller releases; the node settles the escrow and the relays refuse the order's event, so the
handler fails.  From then on the order stands in fiat-sent, whatever is sent and whatever fails. -/
theorem settled_escrow_stranded :
    ∃ cfg ext c, ext.Documented ∧ (daemon cfg ext).Reach System.Demand.none State.Initial c ∧
      c.tasks = [] ∧ ∀ c', (daemon cfg ext).Run System.Demand.none c c' →
        c'.shared.holdState 3 = some .settled ∧ ∃ r ∈ c'.shared.orders, r.order.id = 1 ∧
          r.order.hash = some 3 ∧ (r.order.status = .fiatSent ∨ r.order.status = .dispute) := by
  obtain ⟨c,hc,hidle,hrow,hset⟩ := idle_of_schedule plainSettings plainExternals System.Demand.none
    (activeSell ++ alone 5 (.message (.fiatSent 1 8 none)) 3
      ++ .start ⟨6,.message (.release 1 7 none)⟩ :: steps 0 2 ++ [.step 0 .fault])
    (fun s => (∃ r ∈ s.orders, r.order.id = 1 ∧ r.order.hash = some 3 ∧
      (r.order.status = .fiatSent ∨ r.order.status = .dispute)) ∧ s.holdState 3 = some .settled)
    (by decide +kernel)
  refine ⟨_,_,c,plainExternals_documented,hc,hidle,fun c' hrun => ?_⟩
  have hs := stranded_forever plainExternals_documented rfl hc hidle ⟨hrow,hset⟩ hrun
  exact ⟨hs.settled,hs.row⟩

end Mostro
