import Mostro.EscrowAgreement

set_option autoImplicit false

/-!
The stages of an order whose fiat was sent.  As long as writes without a guard find the order as
their handlers read it, an order never goes back to an earlier stage, a failed payment of a settled
order stays marked, and a payout claim stays on record.
-/

namespace Mostro

open Interleaving SqlTable

def Status.stage : Status → Nat
  | .fiatSent => 1
  | .dispute => 2
  | .settledHoldInvoice => 3
  | .success => 4
  | .canceled | .canceledByAdmin | .cooperativelyCanceled | .expired => 5
  | _ => 0

theorem stage_isBeforePayment {st : Status} (h : st.isBeforePayment = true) : st.stage = 0 := by
  cases st <;> first | rfl | cases h

theorem stage_isEarly {st : Status} (h : st.isEarly = true) : st.stage = 0 := by
  cases st <;> first | rfl | cases h

theorem stage_isOpen {st : Status} (h : st.isOpen = true) : st.stage ≤ 2 := by
  cases st <;> first | decide | cases h

theorem stage_isClosed {st : Status} (h : st.isClosed = true) : st.stage = 5 := by
  cases st <;> first | rfl | cases h

theorem stage_le (st : Status) : st.stage ≤ 5 := by
  cases st <;> decide

theorem stage_eq_three {st : Status} (h : st.stage = 3) : st = .settledHoldInvoice := by
  cases st <;> first | rfl | cases h

theorem stage_settling {st : Status} (h : st = .fiatSent ∨ st = .dispute) :
    1 ≤ st.stage ∧ st.stage ≤ 2 := by
  rcases h with rfl | rfl <;> decide

theorem settling_of_stage {st : Status} (h₁ : 1 ≤ st.stage) (h₂ : st.stage ≤ 2) :
    st = .fiatSent ∨ st = .dispute := by
  cases st <;> simp_all [Status.stage]

theorem proceeds_stage {st st' : Status} (h : st.Proceeds st') : st.stage ≤ st'.stage := by
  rcases h with rfl | ⟨rfl,rfl⟩ | ⟨rfl | rfl,rfl⟩
  · exact le_rfl
  all_goals decide

section

variable {req : Request} {Γ : Set Fact} {u : OrderUpdate} {s : State} {r : OrderRow}

theorem RowWrite.stage {read row : Order} (hn : RowWrite req Γ read row) :
    read.status.stage ≤ row.status.stage := by
  cases hn.edit with
  | closes hclosed =>
    rw [stage_isClosed hclosed]
    exact stage_le _
  | lists _ _ hread =>
    rw [stage_isBeforePayment hread]
    exact Nat.zero_le _
  | proceeds _ _ hproceeds => exact proceeds_stage hproceeds
  | invoice _ hread => simp [hread,Status.stage]
  | paid _ _ _ hread => rcases hread with h | h <;> simp [h,Status.stage]

theorem orderUpdate_stage (hn : u.need req Γ) (hd : u.isFresh s = true) (hr : r ∈ s.orders)
    (hsel : u.selects s r = true) : r.order.status.stage ≤ (u.set r).order.status.stage := by
  rcases orderUpdate_cases hn hsel with ⟨read,hu⟩ | ⟨hearly,_⟩ | ⟨hst,_⟩ | ⟨_,hst,hset,_⟩ |
    ⟨_,hst,hset,_⟩
  · obtain ⟨hread,_⟩ := hn.copy hu
    obtain ⟨hst,_⟩ := isFresh_copy hd hu hr ((orderUpdate_id hsel).trans hread.symm)
    cases u with
    | update x row =>
      cases hu
      rw [hst]
      exact RowWrite.stage hn
    | updateOrderToInitialState x a f d =>
      cases hu
      rw [hst,stage_isBeforePayment hn.1]
      exact Nat.zero_le _
    | _ => cases hu
  · rw [stage_isEarly hearly]
    exact Nat.zero_le _
  · rw [hst]
  · rw [hset]
    exact (stage_settling hst).2.trans (by decide)
  · rw [hst,hset]
    decide

theorem orderUpdate_failed (hn : u.need req Γ) (hd : u.isFresh s = true) (hr : r ∈ s.orders)
    (hsel : u.selects s r = true) (hst : 3 ≤ r.order.status.stage)
    (hf : r.order.failedPayment = true) : (u.set r).order.failedPayment = true := by
  cases u with
  | update read row =>
    have hfresh := (isFresh_copy hd rfl hr ((orderUpdate_id hsel).trans hn.id)).1
    have hopen := stage_isOpen hn.opened
    rw [← hfresh] at hopen
    omega
  | updateOrderToInitialState read a f d => exact hf
  | editPubkeysOrder id kind => cases kind <;> exact hf
  | casPromoteTakerContext o =>
    simp only [OrderUpdate.set]
    split <;> exact hf
  | checkFailureRetries id failed attempts => exact hn.1
  | failOrderPayout id hash claimedAt => rfl
  | _ => exact hf

end

structure Advances (s s' : State) : Prop where
  rows : ∀ r ∈ s.orders, 1 ≤ r.order.status.stage → ∃ r' ∈ s'.orders, r'.order.id = r.order.id ∧
    r.order.status.stage ≤ r'.order.status.stage ∧
    (3 ≤ r.order.status.stage → r.order.failedPayment = true → r'.order.failedPayment = true)
  claims : ∀ x ∈ s.claims, x ∈ s'.claims
  holds : HoldsProgress s s'

theorem Advances.of_orders {s s' : State} (ho : s'.orders = s.orders) (hc : s'.claims = s.claims)
    (hh : HoldsProgress s s') : Advances s s' :=
  ⟨fun r hr _ => ⟨r,ho ▸ hr,rfl,le_rfl,fun _ h => h⟩,fun _ hx => hc ▸ hx,hh⟩

theorem Advances.refl (s : State) : Advances s s := .of_orders rfl rfl (.of_eq rfl)

theorem Advances.trans {s₁ s₂ s₃ : State} (h : Advances s₁ s₂) (h' : Advances s₂ s₃) :
    Advances s₁ s₃ := by
  refine ⟨fun r hr hst => ?_,fun x hx => h'.claims x (h.claims x hx),h.holds.trans h'.holds⟩
  obtain ⟨r',hr',hid,hle,hf⟩ := h.rows r hr hst
  obtain ⟨r'',hr'',hid',hle',hf'⟩ := h'.rows r' hr' (hst.trans hle)
  exact ⟨r'',hr'',hid'.trans hid,hle.trans hle',fun h3 h => hf' (h3.trans hle) (hf h3 h)⟩

section

variable {req : Request} {Γ : Set Fact} {tid : Nat} {s : State} {st : OrderStmt}

theorem advances_orderStmt (hn : st.need req Γ) (hd : ∀ u, st = .run u → u.isFresh s = true) :
    Advances s (st.exec tid s).1 := by
  refine ⟨fun r hr hst => ?_,fun x hx => ?_,?_⟩
  · cases st with
    | create o => exact ⟨r,List.mem_append_left _ hr,rfl,le_rfl,fun _ h => h⟩
    | run u =>
      by_cases hsel : u.selects s r = true
      · exact ⟨u.set r,mem_updateWhere.mpr ⟨r,hr,if_pos hsel⟩,orderUpdate_set_id hsel,
          orderUpdate_stage hn (hd u rfl) hr hsel,orderUpdate_failed hn (hd u rfl) hr hsel⟩
      · exact ⟨r,mem_updateWhere.mpr ⟨r,hr,if_neg hsel⟩,rfl,le_rfl,fun _ h => h⟩
    | deleteStranded x =>
      refine ⟨r,List.mem_filter.mpr ⟨hr,?_⟩,rfl,le_rfl,fun _ h => h⟩
      have hne : r.order.status ≠ .waitingMakerBond := by
        intro h
        rw [h] at hst
        cases hst
      simp [State.deletable,hne]
  · cases st with
    | run u => exact List.mem_append_right _ hx
    | _ => exact hx
  · exact .of_eq (orderStmt_holds tid s st)

end

theorem advances_effect {l : Label} {Γ : Set Fact} {op : Op} {ch : Choice} {ls : List Label}
    {s s' : State} (hn : op.need l.req Γ) (hd : copiesFresh.onOp l op ch ls s)
    (he : Effect l.tid op s s') : Advances s s' := by
  rcases he.rows with hk | ⟨st,rfl,rfl⟩ | ⟨st,_,rfl⟩
  · exact .of_orders hk.orders hk.claims hk.holds
  · refine advances_orderStmt hn ?_
    rintro u rfl
    exact hd
  · exact .of_orders (bondStmt_orders st s) (bondStmt_rest st s State.claims) he.holdsProgress

theorem Advances.of_rowsKept {s s' : State} (h : RowsKept s s') : Advances s s' :=
  .of_orders h.orders h.claims h.holds

def AtStage (n : Nat) (id : Uuid) (s : State) : Prop :=
  ∃ r ∈ s.orders, r.order.id = id ∧ n ≤ r.order.status.stage

theorem AtStage.advances {n : Nat} {id : Uuid} {s s' : State} (hn : 1 ≤ n) (h : AtStage n id s)
    (ha : Advances s s') : AtStage n id s' := by
  obtain ⟨r,hr,hid,hst⟩ := h
  obtain ⟨r',hr',hid',hle,_⟩ := ha.rows r hr (hn.trans hst)
  exact ⟨r',hr',hid'.trans hid,hst.trans hle⟩

end Mostro
