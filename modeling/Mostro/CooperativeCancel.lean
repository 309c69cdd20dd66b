import Mostro.RangeChildren
import Mostro.TerminalOrders

set_option autoImplicit false

/-!
A cooperative cancel takes a Cancel of each party, handled while the order is under way.  The
request of the first one is a column of the order; it belongs to the trade of that order as long as
no Release hands it down to the child of a range.
-/

namespace Mostro

open Interleaving SqlTable

/-- A Cancel of the key for the order was handled, by a task that has read the order as under
way. -/
def State.asked (s : State) (id : Uuid) (k : Pubkey) : Bool :=
  s.cancels.any fun c => c.2 == (id,k) &&
    s.reads.any fun r => r.1 == c.1 && (r.2.id == id && r.2.status.isTrading)

theorem asked_iff {s : State} {id : Uuid} {k : Pubkey} :
    s.asked id k = true ↔ ∃ tid o, (tid,id,k) ∈ s.cancels ∧ (tid,o) ∈ s.reads ∧ o.id = id ∧
      o.status.isTrading = true := by
  simp only [State.asked,List.any_eq_true,Bool.and_eq_true,beq_iff_eq]
  constructor
  · rintro ⟨⟨tid,c⟩,hc,rfl,⟨t,o⟩,ho,rfl,hst⟩
    exact ⟨t,o,hc,ho,hst⟩
  · rintro ⟨tid,o,hc,ho,hst⟩
    exact ⟨_,hc,rfl,_,ho,rfl,hst⟩

theorem asked_mono {s s' : State} (hc : s.cancels ⊆ s'.cancels) (hr : s.reads ⊆ s'.reads)
    {id : Uuid} {k : Pubkey} (h : s.asked id k = true) : s'.asked id k = true := by
  obtain ⟨tid,o,hm,ho,hst⟩ := asked_iff.mp h
  exact asked_iff.mpr ⟨tid,o,hc hm,hr ho,hst⟩

/-- A Release hands no request to cancel down to the child of a range. -/
abbrev releasesUnasked : Requirement := .check
  (fun l op _ _ _ => match l.req, op with
    | .message (.release _ _ _),.order (.create o) => o.cancelInitiatorPubkey.isNone
    | _,_ => true)
  (fun _ _ _ => true)

def Order.hasParty (o : Order) (k : Pubkey) : Prop :=
  o.buyerPubkey = some k ∨ o.sellerPubkey = some k

structure CancelsAsked (s : State) : Prop where
  initiator : ∀ r ∈ s.orders, ∀ k, r.order.cancelInitiatorPubkey = some k →
    s.asked r.order.id k = true
  cooperative : ∀ r ∈ s.orders, r.order.status = .cooperativelyCanceled →
    ∀ k, r.order.hasParty k → s.asked r.order.id k = true

structure KnowsAsked (l : Label) (x : Order) (s : State) : Prop where
  read : x.hash = none ∨ (l.tid,x) ∈ s.reads
  initiator : ∀ k, x.cancelInitiatorPubkey = some k → s.asked x.id k = true
  sender : ∀ k, l.req = .message (.cancel x.id k) → x.status.isTrading = true →
    s.asked x.id k = true

def AskedFact (l : Label) (f : Fact) (s : State) : Prop :=
  match f with
  | .order x => KnowsAsked l x s
  | _ => True

def CancelLogged (l : Label) (s : State) : Prop :=
  ∀ id k, l.req = .message (.cancel id k) → (l.tid,id,k) ∈ s.cancels

theorem asksEscrow_not_cancel {req : Request} (h : req.asksEscrow = true) :
    req.isCancel = false := by
  unfold Request.asksEscrow at h
  split at h
  all_goals first | rfl | cases h

theorem KnowsAsked.mono {l : Label} {x : Order} {s s' : State} (hc : s.cancels ⊆ s'.cancels)
    (hr : s.reads ⊆ s'.reads) (h : KnowsAsked l x s) : KnowsAsked l x s' where
  read := h.read.imp_right (@hr _)
  initiator k hk := asked_mono hc hr (h.initiator k hk)
  sender k hk hst := asked_mono hc hr (h.sender k hk hst)

theorem AskedFact.mono {l : Label} {f : Fact} {s s' : State} (hc : s.cancels ⊆ s'.cancels)
    (hr : s.reads ⊆ s'.reads) (h : AskedFact l f s) : AskedFact l f s' := by
  cases f with
  | order x => exact KnowsAsked.mono hc hr h
  | _ => trivial

theorem CancelsAsked.of_orders {s s' : State} (ho : s'.orders = s.orders)
    (hc : s.cancels ⊆ s'.cancels) (hr : s.reads ⊆ s'.reads) (h : CancelsAsked s) :
    CancelsAsked s' where
  initiator r hm k hk := asked_mono hc hr (h.initiator r (ho ▸ hm) k hk)
  cooperative r hm hst k hk := asked_mono hc hr (h.cooperative r (ho ▸ hm) hst k hk)

theorem reach_cancelLogged {cfg : Settings} {ext : Externals} {D : Requirement} {c : DaemonState}
    (hc : (daemon cfg ext).Reach D State.Initial c) :
    ∀ l ∈ c.running, CancelLogged l c.shared := by
  refine hc.running (fun l s s' hl => ?_) (fun l op ch s l' hlog id k hreq => ?_)
    fun e s s' l' he hlog id k hreq => ?_
  · obtain ⟨_,rfl⟩ := launch_eq hl
    refine ⟨fun id k hreq => ?_,fun l' hlog id k hreq => List.mem_append_right _ (hlog id k hreq)⟩
    rw [hreq]
    exact List.mem_append_left _ (List.mem_singleton.mpr rfl)
  · have hlogs := (exec_effect ext l.tid op ch s).logs.cancels
    exact hlogs.symm ▸ hlog id k hreq
  · rw [(env_moves he).logs.cancels]
    exact hlog id k hreq

section

variable {req : Request} {Γ : Set Fact} {u : OrderUpdate} {s : State} {r : OrderRow}

theorem orderUpdate_initiator (hu : ∀ read row, u ≠ .update read row) :
    (u.set r).order.cancelInitiatorPubkey = r.order.cancelInitiatorPubkey := by
  cases u with
  | update read row => exact absurd rfl (hu read row)
  | editPubkeysOrder id kind => cases kind <;> rfl
  | casPromoteTakerContext o =>
    simp only [OrderUpdate.set]
    split <;> rfl
  | _ => rfl

theorem orderUpdate_cooperative (hn : u.need req Γ) (hsel : u.selects s r = true)
    (hu : ∀ read row, u ≠ .update read row)
    (hst : (u.set r).order.status = .cooperativelyCanceled) :
    r.order.status = .cooperativelyCanceled ∧
      ∀ k, (u.set r).order.hasParty k → r.order.hasParty k := by
  have hguard : u.guard s r = true := (Bool.and_eq_true_iff.mp hsel).2
  cases u with
  | update read row => exact absurd rfl (hu read row)
  | editPubkeysOrder id kind =>
    cases kind with
    | buy => exact ⟨hst,fun k hk => hk.imp_right nofun⟩
    | sell => exact ⟨hst,fun k hk => hk.imp_left nofun⟩
  | casPretradeOrderStatus id new => rcases hn with rfl | ⟨rfl,_⟩ <;> cases hst
  | casPromoteTakerContext o =>
    have hold : r.order.status = .cooperativelyCanceled := by
      simp only [OrderUpdate.set] at hst
      split at hst <;> exact hst
    simp only [OrderUpdate.guard,hold] at hguard
    cases hguard
  | casCompletePretradeTake o allow =>
    have hst : o.status = .cooperativelyCanceled := hst
    rcases hn.1 with h | h <;> cases h.symm.trans hst
  | updateOrderCashuEscrow id mint token lockedAt expected new =>
    obtain ⟨_,rfl,_⟩ := hn
    cases hst
  | claimOrderStatus id expected new =>
    obtain ⟨_,rfl⟩ := hn
    cases hst
  | updateOrderInvoiceHeldAtTime | checkFailureRetries | payNewInvoice | claimOrderPayout
  | touchOrderPayoutClaim | clearOrderPayout | failOrderPayout => exact ⟨hst,fun _ hk => hk⟩
  | _ => cases hst

end

section

variable {l : Label} {Γ : Set Fact} {tid : Nat} {s : State}

theorem rowWrite_asked {read row : Order} (hn : RowWrite l.req Γ read row)
    (hΓ : ∀ f ∈ Γ, AskedFact l f s) {k : Pubkey} (hk : row.cancelInitiatorPubkey = some k) :
    s.asked row.id k = true := by
  rcases hn.copy with ⟨x,hx,hid,_,_,hinit⟩ | ⟨x,k',hx,hst,hreq,hid,_,_,hinit⟩
  · rw [← hid]
    exact KnowsAsked.initiator (hΓ _ hx) k (hinit.trans hk)
  · have hid : x.id = row.id := hid
    cases (hinit.trans hk : some k' = some k)
    rw [← hid] at hreq ⊢
    exact KnowsAsked.sender (hΓ _ hx) k hreq hst

theorem confirmsCancel_asked {o : Order} (hconf : ConfirmsCancel l.req Γ o)
    (hΓ : ∀ f ∈ Γ, AskedFact l f s) {k : Pubkey} (hk : o.hasParty k) : s.asked o.id k = true := by
  obtain ⟨x,k',hx,hst,hreq,hid,hb,hs,hside⟩ := hconf
  have hx := hΓ _ hx
  have hsender : s.asked x.id k' = true := KnowsAsked.sender hx k' (hid ▸ hreq) hst
  rw [← hid]
  have hparty : x.hasParty k := by rwa [Order.hasParty,hb,hs]
  rcases hside with ⟨hbuyer,hinit⟩ | ⟨hseller,hinit⟩ <;> rcases hparty with h | h
  · exact Option.some.inj (hbuyer.symm.trans h) ▸ hsender
  · exact KnowsAsked.initiator hx k (hinit.trans h)
  · exact KnowsAsked.initiator hx k (hinit.trans h)
  · exact Option.some.inj (hseller.symm.trans h) ▸ hsender

theorem create_unasked {o : Order} {ch : Choice} {ls : List Label}
    (hn : (OrderStmt.create o).need l.req Γ)
    (hd : releasesUnasked.onOp l (.order (.create o)) ch ls s) :
    o.cancelInitiatorPubkey = none := by
  rcases hn.2.2.2.1 with ⟨_,hpub⟩ | ⟨_,sender,next,_,_,_,hreq,_⟩
  · have hmarks : o.marks = {} := hpub.marks
    exact congrArg TradeMarks.cancelInitiatorPubkey hmarks
  · simpa [System.Demand.check,hreq] using hd

theorem cancelsAsked_orderStmt {st : OrderStmt} {ch : Choice} {ls : List Label}
    (hi : CancelsAsked s) (hn : st.need l.req Γ) (hd : releasesUnasked.onOp l (.order st) ch ls s)
    (hΓ : ∀ f ∈ Γ, AskedFact l f s) : CancelsAsked (st.exec tid s).1 := by
  have hmono {id : Uuid} {k : Pubkey} (h : s.asked id k = true) :
      (st.exec tid s).1.asked id k = true := by
    cases st <;> exact h
  refine ⟨fun r hr k hk => hmono ?_,fun r hr hst k hk => hmono ?_⟩
  · cases st with
    | create o =>
      rcases List.mem_append.mp hr with hr | hr
      · exact hi.initiator r hr k hk
      · rw [List.mem_singleton.mp hr] at hk
        exact nomatch (create_unasked hn hd).symm.trans hk
    | deleteStranded id => exact hi.initiator r (List.mem_of_mem_filter hr) k hk
    | run u =>
      obtain ⟨q,hq,rfl⟩ := mem_updateWhere.mp hr
      by_cases hsel : u.selects s q = true
      · rw [if_pos hsel] at hk ⊢
        by_cases hu : ∃ read row, u = .update read row
        · obtain ⟨read,row,rfl⟩ := hu
          exact rowWrite_asked hn hΓ hk
        · rw [orderUpdate_initiator (by simpa using hu)] at hk
          rw [orderUpdate_set_id hsel]
          exact hi.initiator q hq k hk
      · rw [if_neg hsel] at hk ⊢
        exact hi.initiator q hq k hk
  · cases st with
    | create o =>
      rcases List.mem_append.mp hr with hr | hr
      · exact hi.cooperative r hr hst k hk
      · rw [List.mem_singleton.mp hr] at hst
        rcases hn.2.2.1 with h | h <;> exact nomatch h.symm.trans hst
    | deleteStranded id => exact hi.cooperative r (List.mem_of_mem_filter hr) hst k hk
    | run u =>
      obtain ⟨q,hq,rfl⟩ := mem_updateWhere.mp hr
      by_cases hsel : u.selects s q = true
      · rw [if_pos hsel] at hst hk ⊢
        by_cases hu : ∃ read row, u = .update read row
        · obtain ⟨read,row,rfl⟩ := hu
          exact confirmsCancel_asked (RowWrite.cooperative hn hst) hΓ hk
        · obtain ⟨hold,hparty⟩ := orderUpdate_cooperative hn hsel (by simpa using hu) hst
          rw [orderUpdate_set_id hsel]
          exact hi.cooperative q hq hold k (hparty k hk)
      · rw [if_neg hsel] at hst hk ⊢
        exact hi.cooperative q hq hst k hk

end

theorem releasesUnasked_invariant (ext : Externals) :
    StepInvariant ext (releasesUnasked.given fun l _ _ s => CancelLogged l s) CancelsAsked
      AskedFact where
  init s hs := by
    obtain ⟨now,height,rfl⟩ := hs
    exact ⟨fun r hr => absurd hr List.not_mem_nil,fun r hr => absurd hr List.not_mem_nil⟩
  launch cfg l s s' hc hi hl := by
    obtain ⟨_,rfl⟩ := launch_eq hl
    have hsub : s.cancels ⊆ l.req.logCancel l.tid ++ s.cancels := List.subset_append_right _ _
    exact ⟨.of_orders (s := s) rfl hsub (fun _ h => h) hi,fun _ _ _ hf => hf.mono hsub fun _ h => h⟩
  op l Γ op ch ls s hn hΓ hc hi hd he := by
    obtain ⟨hcan,hread,_⟩ := he.logs
    have hsub : s.cancels ⊆ (exec ext l.tid op ch s).1.cancels := hcan ▸ fun _ h => h
    refine ⟨?_,fun _ _ _ _ hf => hf.mono hsub hread⟩
    rcases he.rows with hk | ⟨st,rfl,hs⟩ | ⟨st,rfl,hs⟩
    · exact hi.of_orders hk.orders hsub hread
    · rw [hs]
      exact cancelsAsked_orderStmt hi hn hd.1 fun f hf => (hΓ f hf).2
    · exact hi.of_orders (hs ▸ bondStmt_orders st s) hsub hread
  learn l Γ op ch ls s f hn hΓ hc hi hd hc' hi' hf hseen := by
    cases f with
    | order x =>
      obtain ⟨hd,hlogged⟩ := hd
      have hcan := (exec_effect ext l.tid op ch s).logs.cancels
      obtain ⟨q,hq,rfl⟩ := hseen
      rcases order_learnt hf with ⟨q',rfl,-,hlog,-⟩ | ⟨o,rfl,hx⟩
      · refine ⟨.inr hlog,hi'.initiator q hq,fun k hreq hst => ?_⟩
        exact asked_iff.mpr ⟨l.tid,_,hcan ▸ hlogged _ k hreq,hlog,rfl,hst⟩
      · -- an order that was just inserted has no request on it
        have hnone := create_unasked hn hd
        rw [hx]
        refine ⟨.inl hn.1,fun k hk => ?_,fun k _ hst => ?_⟩
        · cases hnone.symm.trans hk
        · rcases hn.2.2.1 with h | h <;> simp [h,Status.isTrading] at hst
    | _ => trivial
  env e ls s s' hc hi hd he := by
    obtain ⟨hcan,hread,_⟩ := he.logs
    have hsub : s.cancels ⊆ s'.cancels := hcan ▸ fun _ h => h
    exact ⟨hi.of_orders he.rowsKept.orders hsub hread,fun _ _ _ _ hf => hf.mono hsub hread⟩

/-- Where no Release hands a request to cancel down to the child of a range, both parties of a
cooperatively canceled order have sent a Cancel for it that found it under way; and so have both
parties of an order under way whose escrow a Cancel is about to cancel. -/
theorem cooperative_cancel_consented {cfg : Settings} {ext : Externals} (hext : ext.Documented)
    {c : DaemonState} (hc : (daemon cfg ext).Reach releasesUnasked State.Initial c) :
    (∀ r ∈ c.shared.orders, r.order.status = .cooperativelyCanceled →
      ∀ k, r.order.hasParty k → c.shared.asked r.order.id k = true) ∧
    ∀ l h id, l.req.isCancel = true → c.AboutTo l (.lnd (.cancelHoldInvoice h)) →
      HasHold c.shared h (.escrow id) →
      ∃ o, (l.tid,o) ∈ c.shared.reads ∧ o.hash = some h ∧
        (o.status.isTrading = true → ∀ k, o.hasParty k → c.shared.asked o.id k = true) := by
  have hlogged : (daemon cfg ext).Reach (releasesUnasked.given fun l _ _ s => CancelLogged l s)
      State.Initial c :=
    hc.given fun _ hc l _ hnext => reach_cancelLogged hc l (System.running_of_aboutTo hnext)
  refine ⟨((releasesUnasked_invariant ext).reach hext hlogged).2.cooperative,?_⟩
  rintro l h id hl ⟨k,ht⟩ ⟨i,hi,hm⟩
  obtain ⟨Γ,hn,hΓ⟩ := ((releasesUnasked_invariant ext).upholds hext cfg).about_to hlogged ht
  rcases hn with ⟨hask,_⟩ | ⟨o,⟨ho,_,hconf⟩,hoh⟩ | ⟨b,hb,hbh⟩
  · exact nomatch (asksEscrow_not_cancel hask).symm.trans hl
  · refine ⟨o,(KnowsAsked.read (hΓ _ ho).2).resolve_left (by simp [hoh]),hoh,fun hst k hk => ?_⟩
    exact confirmsCancel_asked (hconf hl hst) (fun f hf => (hΓ f hf).2) hk
  · obtain ⟨_,j,hj,hjm⟩ := (reach_consistent hext hc).bondHold (hΓ _ hb).1 hbh
    rw [hi] at hj
    cases hj
    exact nomatch hm.symm.trans hjm

theorem both_parties_cancel :
    ∃ c, (daemon plainSettings plainExternals).Reach releasesUnasked State.Initial c ∧
      ∃ r ∈ c.shared.orders, r.order.status = .cooperativelyCanceled ∧ r.order.hasParty 7 ∧
        r.order.hasParty 8 ∧ c.shared.asked r.order.id 7 = true ∧
        c.shared.asked r.order.id 8 = true := by
  obtain ⟨c,hc,r,hr,hst,hs,hb⟩ := reach_of_schedule plainSettings plainExternals releasesUnasked
    (takenRange ++ alone 5 (.message (.cancel 1 8)) 2 ++ alone 6 (.message (.cancel 1 7)) 4)
    (fun s => ∃ r ∈ s.orders, r.order.status = .cooperativelyCanceled ∧
      r.order.sellerPubkey = some 7 ∧ r.order.buyerPubkey = some 8) (by decide +kernel)
  have hboth := (cooperative_cancel_consented plainExternals_documented hc).1 r hr hst
  exact ⟨c,hc,r,hr,hst,.inr hs,.inl hb,hboth 7 (.inr hs),hboth 8 (.inl hb)⟩

/-- The buyer of a slice asks to cancel, then sends the fiat, and the seller releases.  The child
of the range keeps the request, and the same buyer, who trades in full privacy, takes it with the
same key: a single Cancel of the seller then cancels the trade and its escrow. -/
theorem seller_alone_cancels_child :
    ∃ cfg ext c, ext.Documented ∧ (daemon cfg ext).Reach System.Demand.none State.Initial c ∧
      ∃ r ∈ c.shared.orders, r.order.status = .cooperativelyCanceled ∧
        r.order.buyerPubkey = some 8 ∧ c.shared.asked r.order.id 8 = false ∧
        ∃ h ∈ r.order.hash, c.shared.holdState h = some .canceled := by
  obtain ⟨c,h⟩ := reach_of_schedule plainSettings plainExternals System.Demand.none
    (takenRange ++ alone 5 (.message (.cancel 1 8)) 2
      ++ alone 6 (.message (.fiatSent 1 8 none)) 3
      ++ alone 7 (.message (.release 1 7 (some (9,2)))) 12
      ++ quoted 9 (.message (.takeSell ⟨8,8,8,none,some 40,some 51⟩)) 3 5000 9
      ++ .env (.accept 10 200) :: alone 11 (.escrowInvoice 10) 6
      ++ alone 12 (.message (.cancel 8 9)) 3)
    (fun s => ∃ r ∈ s.orders, r.order.status = .cooperativelyCanceled ∧
      r.order.buyerPubkey = some 8 ∧ s.asked r.order.id 8 = false ∧
      ∃ h ∈ r.order.hash, s.holdState h = some .canceled) (by decide +kernel)
  exact ⟨_,_,c,plainExternals_documented,h⟩

end Mostro
