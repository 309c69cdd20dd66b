import Mostro.PayoutTerms

set_option autoImplicit false

/-!
Buyers are paid out of captured escrows.  Whatever the interleaving and however stale the copies, an
order is settled or paid only after the node has captured a hold invoice that was made for it, and
its payout is dispatched only then.
-/

namespace Mostro

open Interleaving

/-- The node has captured a hold invoice made for the order. -/
def EscrowCaptured (s : State) (id : Uuid) : Prop :=
  ∃ h, HasHold s h (.escrow id) ∧ s.holdState h = some .settled

theorem EscrowCaptured.progress {s s' : State} {id : Uuid} (hp : HoldsProgress s s')
    (h : EscrowCaptured s id) : EscrowCaptured s' id := by
  obtain ⟨x,hold,hset⟩ := h
  exact ⟨x,hold.progress hp,hp.holdState (.inl rfl) hset⟩

def SettledCaptured (s : State) (x : Order) : Prop :=
  x.status.isSettled = true → EscrowCaptured s x.id

section

variable {req : Request} {Γ : Set Fact} {s s' : State} {r : OrderRow}

theorem Settleable.captured (hΓ : ∀ f ∈ Γ, f.Lasts s) {o : Order} {p : Hash} (h : Settleable Γ o p)
    (hp : .settled p ∈ Γ) : EscrowCaptured s o.id :=
  ⟨p,(hΓ _ h.1).2.2 p ((hΓ _ h.1).2.1.symm.trans h.2.1),hΓ _ hp⟩

theorem orderUpdate_settles {u : OrderUpdate} (hn : u.need req Γ) (hΓ : ∀ f ∈ Γ, f.Lasts s)
    (hsel : u.selects s r = true) (h : (u.set r).order.status.isSettled = true) :
    r.order.status.isSettled = true ∨ EscrowCaptured s r.order.id := by
  cases u with
  | update read row =>
    have hsettled := RowWrite.notSettled hn
    have hsuccess := RowWrite.notSuccess hn
    cases hrow : row.status <;> simp_all [OrderUpdate.set,Status.isSettled]
  | settleFromRelease id | settleFromAdmin id =>
    obtain ⟨_,o,p,hset,hid,hp,_⟩ := hn
    exact .inr ((hid.trans (orderUpdate_id hsel).symm) ▸ hset.captured hΓ hp)
  | paymentSuccess id =>
    have hguard := (Bool.and_eq_true_iff.mp hsel).2
    exact .inl (by rw [beq_iff_eq.mp hguard]; rfl)
  | casPretradeOrderStatus id new => rcases hn with rfl | ⟨rfl,_⟩ <;> cases h
  | casCompletePretradeTake o allow =>
    have h : o.status.isSettled = true := h
    rcases hn.1 with hst | hst <;> rw [hst] at h <;> cases h
  | updateOrderCashuEscrow id mint token lockedAt expected new =>
    obtain ⟨_,rfl,_⟩ := hn
    cases h
  | claimOrderStatus id expected new =>
    obtain ⟨_,rfl⟩ := hn
    cases h
  | claimWaitingTakerBond _ | dropWaitingTakerBondToPending _ | claimDeferredPublication _
  | updateOrderToInitialState _ _ _ _ => cases h
  | casPromoteTakerContext o =>
    simp only [OrderUpdate.set] at h
    split at h <;> exact .inl h
  | editPubkeysOrder id kind => cases kind <;> exact .inl h
  | _ => exact .inl h

theorem settledCaptured_effect {tid : Nat} {op : Op} (hn : op.need req Γ) (hΓ : ∀ f ∈ Γ, f.Lasts s)
    (he : Effect tid op s s') (hi : ∀ r ∈ s.orders, SettledCaptured s r.order) :
    ∀ r ∈ s'.orders, SettledCaptured s' r.order := by
  intro r hr hst
  refine EscrowCaptured.progress he.holdsProgress ?_
  rcases he.row_origin hr with hold | ⟨o,rfl,rfl⟩ | ⟨u,q,rfl,_,hq,hsel,rfl⟩
  · exact hi r hold hst
  · have hst : o.status.isSettled = true := hst
    rcases hn.2.2.1 with h | h <;> rw [h] at hst <;> cases hst
  · rw [orderUpdate_set_id hsel]
    exact (orderUpdate_settles hn hΓ hsel hst).elim (hi q hq) id

end

theorem captured_invariant (ext : Externals) (D : Requirement) :
    StepInvariant ext D (fun s => ∀ r ∈ s.orders, SettledCaptured s r.order)
      (fun l f s => ∀ x, f = .order x →
        SettledCaptured s x ∧ (x.hash = none ∨ (l.tid,x) ∈ s.reads)) where
  init s hs := by
    obtain ⟨now,height,rfl⟩ := hs
    simp
  launch cfg l s s' _ hi hl := by
    have hk := launch_rowsKept hl
    obtain ⟨_,rfl⟩ := launch_eq hl
    exact ⟨fun r hr h => (hi r hr h).progress hk.holds,fun _ f _ hf x hx =>
      ⟨fun h => ((hf x hx).1 h).progress hk.holds,(hf x hx).2⟩⟩
  op l Γ op ch ls s hn hΓ _ hi _ he :=
    ⟨settledCaptured_effect hn (fun f hf => (hΓ f hf).1) he hi,fun _ _ f _ hf x hx =>
      ⟨fun h => ((hf x hx).1 h).progress he.holdsProgress,(hf x hx).2.imp_right (@he.logs.reads _)⟩⟩
  learn l Γ op ch ls s f hn _ _ _ _ _ hi' hf hseen := by
    rintro x rfl
    obtain ⟨q,hq,rfl⟩ := hseen
    refine ⟨hi' q hq,?_⟩
    rcases order_learnt hf with ⟨_,_,_,hread,_⟩ | ⟨o,rfl,hx⟩
    · exact .inr hread
    · exact .inl (by rw [hx]; exact hn.1)
  env e ls s s' _ hi _ he := by
    have hk := he.rowsKept
    exact ⟨fun r hr h => (hi r (hk.orders ▸ hr) h).progress hk.holds,fun _ _ f _ hf x hx =>
      ⟨fun h => ((hf x hx).1 h).progress hk.holds,(hf x hx).2.imp_right (@he.logs.reads _)⟩⟩

section

variable {cfg : Settings} {ext : Externals} {D : Requirement} {c : DaemonState}

/-- In every run, whatever the steps, an order that is settled or paid is one whose escrow the node
has captured, and so is every order that a payout is dispatched for. -/
theorem payouts_from_captured (hext : ext.Documented)
    (hc : (daemon cfg ext).Reach D State.Initial c) :
    (∀ r ∈ c.shared.orders, r.order.status.isSettled = true → EscrowCaptured c.shared r.order.id) ∧
    ∀ l d, c.AboutTo l (.spawn d) → EscrowCaptured c.shared d.order.id := by
  have hinv := (captured_invariant ext D).upholds hext cfg
  refine ⟨(hinv.invariant hc).2,fun l d hnext => ?_⟩
  obtain ⟨k,ht⟩ := hnext
  obtain ⟨Γ,⟨_,_,x,hx,hid,_,hst⟩,hΓ⟩ := hinv.about_to hc ht
  rw [← hid]
  rcases hst with hst | ⟨p,hset,hp⟩
  · exact ((hΓ _ hx).2 x rfl).1 (by rw [hst]; rfl)
  · exact hset.captured (fun f hf => (hΓ f hf).1) hp

theorem released_order_captured :
    ∃ c l d, (daemon plainSettings plainExternals).Reach System.Demand.none State.Initial c ∧
      c.AboutTo l (.spawn d) ∧ EscrowCaptured c.shared d.order.id := by
  obtain ⟨c,l,op,hc,hnext,hp⟩ := aboutTo_of_schedule plainSettings plainExternals
    System.Demand.none (activeSell ++ alone 5 (.message (.fiatSent 1 8 none)) 3
      ++ alone 6 (.message (.release 1 7 none)) 10) (dispatches fun _ _ => true) (by decide +kernel)
  obtain ⟨d,rfl,_⟩ := dispatches_spec hp
  exact ⟨c,l,d,hc,hnext,(payouts_from_captured plainExternals_documented hc).2 l d hnext⟩

theorem Consistent.bondPreimage {s : State} (hc : Consistent s) {b : Bond} {h : Hash}
    (hb : (Fact.bond b).Lasts s) (hp : b.preimage = some h) : ∃ id, HasHold s h (.bond id) := by
  obtain ⟨_,r,hr,hcore,_⟩ := hb
  have hrp : r.preimage = some h := hcore.preimage.trans hp
  have hescrow := hc.bond r hr
  unfold BondEscrow at hescrow
  split at hescrow
  · obtain ⟨x,_,hxp,hold,_⟩ := hescrow
    cases hrp.symm.trans hxp
    exact ⟨_,hold⟩
  · cases hrp.symm.trans hescrow.2.1

/-- In every run the escrow of an order is settled only for a Release or a solver's settle of this
very order, by a task that has read the order, fiat-sent or disputed, with this hold invoice. -/
theorem escrow_settled_for_order (hext : ext.Documented)
    (hc : (daemon cfg ext).Reach D State.Initial c) {l : Label} {h : Hash} {id : Uuid}
    (hnext : c.AboutTo l (.lnd (.settleHoldInvoice h))) (hold : HasHold c.shared h (.escrow id)) :
    l.req.settles id ∧ ∃ x, (l.tid,x) ∈ c.shared.reads ∧ x.id = id ∧ x.hash = some h ∧
      (x.status = .fiatSent ∨ x.status = .dispute) := by
  obtain ⟨k,ht⟩ := hnext
  obtain ⟨Γ,hn,hΓ⟩ := ((captured_invariant ext D).upholds hext cfg).about_to hc ht
  obtain ⟨i,hi,hmemo⟩ := hold
  rcases hn with ⟨x,⟨hx,hpre,hst⟩,hreq⟩ | ⟨b,hb,hp⟩
  · have hhash : x.hash = some h := (hΓ _ hx).1.2.1.symm.trans hpre
    obtain ⟨j,hj,hm⟩ := (hΓ _ hx).1.2.2 h hhash
    cases hi.symm.trans hj
    cases hmemo.symm.trans hm
    exact ⟨hreq,x,((hΓ _ hx).2 x rfl).2.resolve_left (by simp [hhash]),rfl,hhash,hst⟩
  · obtain ⟨_,j,hj,hm⟩ := (reach_consistent hext hc).bondPreimage (hΓ _ hb).1 hp
    cases hi.symm.trans hj
    cases hmemo.symm.trans hm

end

def settlesFirst (_ : Label) (op : Op) (s : State) : Bool :=
  match op with
  | .lnd (.settleHoldInvoice h) => (s.hold? h).any fun i => i.memo == .escrow 1
  | _ => false

theorem release_settles_escrow :
    ∃ c l h, (daemon plainSettings plainExternals).Reach System.Demand.none State.Initial c ∧
      c.AboutTo l (.lnd (.settleHoldInvoice h)) ∧ l.req.settles 1 := by
  obtain ⟨c,l,op,hc,hnext,hp⟩ := aboutTo_of_schedule plainSettings plainExternals
    System.Demand.none (activeSell ++ alone 5 (.message (.fiatSent 1 8 none)) 3
      ++ alone 6 (.message (.release 1 7 none)) 1) settlesFirst (by decide +kernel)
  unfold settlesFirst at hp
  split at hp
  next h =>
    rw [Option.any_eq_true] at hp
    obtain ⟨i,hi,hmemo⟩ := hp
    exact ⟨c,l,h,hc,hnext,(escrow_settled_for_order plainExternals_documented hc hnext
      ⟨i,hi,beq_iff_eq.mp hmemo⟩).1⟩
  · cases hp

end Mostro
