import Mostro.EscrowAgreement

set_option autoImplicit false

/-!
The escrow guardian decides by the status it has listed: it spares an order whose fiat was sent or
which is in dispute, as long as no order it has listed is declared so while the pass runs.
-/

namespace Mostro

open Interleaving SqlTable

def Status.isDeclared : Status → Bool
  | .fiatSent | .dispute => true
  | _ => false

def State.listedActive (s : State) (tid : Nat) (id : Uuid) : Bool :=
  s.reads.any fun p => p.1 == tid && p.2.id == id && p.2.status == .active

def OrderUpdate.declaresNone (s : State) (tid : Nat) (u : OrderUpdate) : Bool :=
  s.orders.all fun r => !s.listedActive tid r.order.id || !u.selects s r ||
    r.order.status.isDeclared || !(u.set r).order.status.isDeclared

/-- No order that a running guardian has listed as active becomes fiat-sent or disputed. -/
abbrev declaredBetweenPasses : Requirement := .check
  (fun _ op _ ls s => match op with
    | .order (.run u) => ls.all fun l => !l.req.isGuardian || u.declaresNone s l.tid
    | _ => true)
  (fun _ _ _ => true)

def Undeclared (s : State) (id : Uuid) : Prop :=
  ∀ r ∈ s.orders, r.order.id = id → r.order.status.isDeclared = false

def KnowsUndeclared (l : Label) (f : Fact) (s : State) : Prop :=
  match f with
  | .order o => l.req.isGuardian = true → o.status = .active →
      (l.tid,o) ∈ s.reads ∧ Undeclared s o.id
  | _ => True

theorem KnowsUndeclared.of_orders {l : Label} {f : Fact} {s s' : State}
    (ho : s'.orders = s.orders) (hr : s.reads ⊆ s'.reads) (hf : KnowsUndeclared l f s) :
    KnowsUndeclared l f s' := by
  cases f with
  | order o =>
    intro hg hst
    obtain ⟨hread,hnone⟩ := hf hg hst
    exact ⟨hr hread,fun r hm => hnone r (ho ▸ hm)⟩
  | _ => trivial

theorem undeclared_orderStmt {tid tid' : Nat} {s : State} {st : OrderStmt} {id : Uuid}
    (hlt : id < s.nextId) (hlisted : s.listedActive tid' id = true)
    (hd : ∀ u, st = .run u → u.declaresNone s tid' = true)
    (hid : Undeclared s id) : Undeclared (st.exec tid s).1 id := by
  intro r hr heq
  cases st with
  | create o =>
    rcases List.mem_append.mp hr with hr | hr
    · exact hid r hr heq
    · rw [List.mem_singleton.mp hr] at heq
      exact absurd heq (Nat.ne_of_gt hlt)
  | deleteStranded x => exact hid r (List.mem_of_mem_filter hr) heq
  | run u =>
    obtain ⟨q,hq,rfl⟩ := mem_updateWhere.mp hr
    by_cases hsel : u.selects s q = true
    · rw [if_pos hsel] at heq ⊢
      have hqid : q.order.id = id := (orderUpdate_set_id hsel).symm.trans heq
      have hold := hid q hq hqid
      have hkeep := List.all_eq_true.mp (hd u rfl) q hq
      simpa [hqid,hlisted,hsel,hold] using hkeep
    · rw [if_neg hsel] at heq ⊢
      exact hid q hq heq

theorem declaredBetweenPasses_invariant (ext : Externals) :
    StepInvariant ext declaredBetweenPasses (fun _ => True) KnowsUndeclared where
  init _ _ := trivial
  launch cfg l s s' _ _ hl :=
    ⟨trivial,fun _ _ _ hf => by
      obtain ⟨_,rfl⟩ := launch_eq hl
      exact hf.of_orders (s := s) rfl fun _ h => h⟩
  op l Γ op ch ls s _ _ _ _ hd he := by
    refine ⟨trivial,fun l' hl' f hlasts hf => ?_⟩
    have hreads := he.logs.reads
    rcases he.rows with hk | ⟨st,rfl,hs⟩ | ⟨st,rfl,hs⟩
    · exact hf.of_orders hk.orders hreads
    · cases f with
      | order o =>
        intro hg hst
        obtain ⟨hread,hnone⟩ := hf hg hst
        have hlisted : s.listedActive l'.tid o.id = true :=
          List.any_eq_true.mpr ⟨_,hread,by simp [hst]⟩
        refine ⟨hreads hread,?_⟩
        rw [hs]
        refine undeclared_orderStmt hlasts.1 hlisted ?_ hnone
        rintro u rfl
        have hd : (ls.all fun l => !l.req.isGuardian || u.declaresNone s l.tid) = true := hd
        simpa [hg] using List.all_eq_true.mp hd l' hl'
      | _ => trivial
    · exact hf.of_orders (hs ▸ bondStmt_orders st s) hreads
  learn l Γ op ch ls s f hn hΓ _ _ _ hc' _ hf hseen := by
    cases f with
    | order o =>
      intro _ hst
      obtain ⟨q,hq,rfl⟩ := hseen
      have hnone : Undeclared (exec ext l.tid op ch s).1 q.order.id := fun r hr hid => by
        rw [hc'.order_unique hr hq hid,hst]
        rfl
      rcases order_learnt hf with ⟨_,rfl,_,hlog,-⟩ | ⟨o,rfl,hx⟩
      · exact ⟨hlog,hnone⟩
      · rw [hx] at hst
        rcases hn.2.2.1 with h | h <;> exact nomatch h.symm.trans hst
    | _ => trivial
  env e ls s s' _ _ _ he :=
    ⟨trivial,fun _ _ _ _ hf => hf.of_orders he.rowsKept.orders he.logs.reads⟩

section

variable {l : Label} {s : State} {Γ : Set Fact} {r : OrderRow}

theorem listed_ne_declared (hg : l.req.isGuardian = true)
    (hΓ : ∀ f ∈ Γ, f.Lasts s ∧ KnowsUndeclared l f s) (hr : r ∈ s.orders)
    (hdecl : r.order.status.isDeclared = true) {o : Order} (ho : .order o ∈ Γ)
    (hst : o.status = .active) : r.order.id ≠ o.id := by
  intro hid
  rw [((hΓ _ ho).2 hg hst).2 r hr hid] at hdecl
  cases hdecl

theorem guardian_update_disputes (hg : l.req.isGuardian = true)
    (hΓ : ∀ f ∈ Γ, f.Lasts s ∧ KnowsUndeclared l f s) (hr : r ∈ s.orders)
    (hdecl : r.order.status.isDeclared = true) {read row : Order}
    (hn : (OrderUpdate.update read row).need l.req Γ) (hid : row.id = r.order.id) :
    row.status = .dispute := by
  rcases RowWrite.guardian hn hg with hd | ⟨ho,hread⟩
  · exact hd
  · exact absurd (hid.symm.trans (RowWrite.id hn)) (listed_ne_declared hg hΓ hr hdecl ho hread)

theorem guardian_spares_hold (hc : Consistent s) (hg : l.req.isGuardian = true)
    (hΓ : ∀ f ∈ Γ, f.Lasts s ∧ KnowsUndeclared l f s) (hr : r ∈ s.orders)
    (hdecl : r.order.status.isDeclared = true) {h : Hash}
    (hn : (LndCall.cancelHoldInvoice h).need l.req Γ) : r.order.hash ≠ some h := by
  intro hh
  obtain ⟨i,hi,hm⟩ := (hc.escrow r hr).2 h hh
  have hmemo {memo : HoldMemo} (hold : HasHold s h memo) : memo = .escrow r.order.id := by
    obtain ⟨j,hj,hjm⟩ := hold
    rw [hi] at hj
    cases hj
    exact hjm.symm.trans hm
  rcases hn with ⟨hng,_⟩ | ⟨o,⟨ho,ha,_⟩,hoh⟩ | ⟨b,hb,hbh⟩
  · exact nomatch (asksEscrow_not_job hng).1.symm.trans hg
  · have hid : o.id = r.order.id := HoldMemo.escrow.inj (hmemo ((hΓ _ ho).1.2.2 h hoh))
    exact listed_ne_declared hg hΓ hr hdecl ho (ha hg) hid.symm
  · obtain ⟨id,hold⟩ := hc.bondHold (hΓ _ hb).1 hbh
    cases hmemo hold

end

def heldSell : Schedule :=
  .env (.tick 10) :: takenSell ++ .env (.accept 3 144) :: alone 4 (.escrowInvoice 3) 6
    ++ .env (.tick 66000) :: List.replicate 110 (.env .block)

def rewritesFiatSent (l : Label) (op : Op) (s : State) : Bool :=
  l.req.isGuardian && match op with
    | .order (.run (.update _ row)) =>
      s.orders.any fun r => r.order.id == row.id && r.order.status == .fiatSent
    | _ => false

def cancelsFiatSent (l : Label) (op : Op) (s : State) : Bool :=
  l.req.isGuardian && match op with
    | .lnd (.cancelHoldInvoice h) =>
      s.orders.any fun r => r.order.hash == some h && r.order.status == .fiatSent
    | _ => false

theorem isGuardian_eq {req : Request} (h : req.isGuardian = true) :
    req = .job .enforceEscrowDeadline := by
  unfold Request.isGuardian at h
  split at h
  · rfl
  · cases h

end Mostro
