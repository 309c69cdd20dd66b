import Mostro.DaemonInvariants

set_option autoImplicit false

/-!
Terminal order statuses.  Every guarded statement leaves them alone; a full-row update or a reset
writes what its handler last read, and undoes them when that copy is out of date.
-/

namespace Mostro

open Interleaving SqlTable

variable {st : Status} {req : Request} {Γ : Set Fact} {s : State} {id : Uuid}

/-- A row of the order is stored, in a terminal status. -/
def TerminalRow (s : State) (id : Uuid) : Prop :=
  ∃ r ∈ s.orders, r.order.id = id ∧ r.order.status.isTerminal = true

instance (s : State) (id : Uuid) : Decidable (TerminalRow s id) :=
  inferInstanceAs (Decidable (∃ r ∈ s.orders, r.order.id = id ∧ r.order.status.isTerminal = true))

def OrderUpdate.seesTerminal (s : State) (u : OrderUpdate) : Bool :=
  u.copy.all fun read => read.status.isTerminal
    || s.orders.all fun r => r.order.id != read.id || !r.order.status.isTerminal

abbrev terminalSeen : Requirement := .check
  (fun _ op _ _ s => match op with
    | .order (.run u) => u.seesTerminal s
    | _ => true)
  (fun _ _ _ => true)

theorem isOpen_not_terminal (h : st.isOpen = true) : st.isTerminal = false := by
  cases st <;> first | rfl | cases h

theorem isBeforePayment_not_terminal (h : st.isBeforePayment = true) : st.isTerminal = false := by
  cases st <;> first | rfl | cases h

theorem isEarly_not_terminal (h : st.isEarly = true) : st.isTerminal = false := by
  cases st <;> first | rfl | cases h

theorem OrderUpdate.need.copy {u : OrderUpdate} {read : Order} (hn : u.need req Γ)
    (hu : u.copy = some read) : read.id = u.target ∧ read.status.isTerminal = false := by
  cases u with
  | update x row =>
    cases hu
    exact ⟨hn.id.symm,isOpen_not_terminal hn.opened⟩
  | updateOrderToInitialState x a f d =>
    cases hu
    exact ⟨rfl,isBeforePayment_not_terminal hn.1⟩
  | _ => cases hu

theorem orderUpdate_terminal {u : OrderUpdate} {r : OrderRow} (hn : u.need req Γ)
    (hd : u.seesTerminal s = true) (hr : r ∈ s.orders) (hsel : u.selects s r = true)
    (ht : r.order.status.isTerminal = true) : (u.set r).order.status.isTerminal = true := by
  rcases orderUpdate_cases hn hsel with ⟨read,hu⟩ | ⟨he,_⟩ | ⟨hst,_⟩ | ⟨_,hst,_⟩ | ⟨_,_,hst,_⟩
  · obtain ⟨hread,hopen⟩ := hn.copy hu
    simp only [OrderUpdate.seesTerminal,hu,Option.all_some,hopen,Bool.false_or,
      List.all_eq_true] at hd
    have := hd r hr
    simp [orderUpdate_id hsel,hread,ht] at this
  · rw [isEarly_not_terminal he] at ht
    cases ht
  · rwa [hst]
  · rcases hst with h | h <;> rw [h] at ht <;> cases ht
  · rw [hst]
    rfl

theorem terminalRow_orderStmt {tid : Nat} {st : OrderStmt} (hn : st.need req Γ)
    (hd : ∀ u, st = .run u → u.seesTerminal s = true) (h : TerminalRow s id) :
    TerminalRow (st.exec tid s).1 id := by
  obtain ⟨r,hr,hid,ht⟩ := h
  cases st with
  | create o => exact ⟨r,List.mem_append_left _ hr,hid,ht⟩
  | run u =>
    by_cases hsel : u.selects s r = true
    · refine ⟨u.set r,mem_updateWhere.mpr ⟨r,hr,if_pos hsel⟩,?_,?_⟩
      · rw [orderUpdate_set_id hsel]
        exact hid
      · exact orderUpdate_terminal hn (hd u rfl) hr hsel ht
    · exact ⟨r,mem_updateWhere.mpr ⟨r,hr,if_neg hsel⟩,hid,ht⟩
  | deleteStranded x =>
    refine ⟨r,List.mem_filter.mpr ⟨hr,?_⟩,hid,ht⟩
    have hst : r.order.status ≠ .waitingMakerBond := by
      intro h
      rw [h] at ht
      cases ht
    simp [State.deletable,hst]

theorem TerminalRow.of_orders {s' : State} (h : s'.orders = s.orders) (ht : TerminalRow s id) :
    TerminalRow s' id := by
  obtain ⟨r,hr,h'⟩ := ht
  exact ⟨r,h ▸ hr,h'⟩

theorem terminalRow_effect {l : Label} {op : Op} {ch : Choice} {ls : List Label} {s' : State}
    (hn : op.need l.req Γ) (hd : terminalSeen.onOp l op ch ls s) (he : Effect l.tid op s s')
    (ht : TerminalRow s id) : TerminalRow s' id := by
  rcases he.rows with hk | ⟨st,rfl,rfl⟩ | ⟨st,rfl,rfl⟩
  · exact ht.of_orders hk.orders
  · refine terminalRow_orderStmt hn (fun u hu => ?_) ht
    subst hu
    exact hd
  · exact ht.of_orders (bondStmt_orders st s)

/-- Where no handler writes over a terminal row it had not read as such, an order once stored in a
terminal status stays stored in a terminal status. -/
theorem terminal_absorbing {cfg : Settings} {ext : Externals} (hext : ext.Documented)
    {c c' : DaemonState} (hc : (daemon cfg ext).Reach terminalSeen State.Initial c)
    (hr : (daemon cfg ext).Run terminalSeen c c') {id : Uuid} (ht : TerminalRow c.shared id) :
    TerminalRow c'.shared id := by
  refine (trivial_invariant ext terminalSeen).lasts hext (P := fun s => TerminalRow s id)
    (fun ho _ h => h.of_orders ho) ?_ hc hr ht
  intro l Γ op ch ls s hn _ _ _ hd he h
  exact terminalRow_effect hn hd he h

theorem canceled_order_stays_canceled :
    ∃ c c', (daemon plainSettings plainExternals).Reach terminalSeen State.Initial c ∧
      (daemon plainSettings plainExternals).Run terminalSeen c c' ∧
      TerminalRow c.shared 1 ∧ c'.shared.now = 1000 ∧ TerminalRow c'.shared 1 := by
  obtain ⟨c,c',hc,hr,ht,hnow⟩ := run_of_schedules plainSettings plainExternals terminalSeen
    (takenSell ++ alone 4 (.message (.cancel 1 7)) 6)
    (.env (.tick 1000) :: alone 5 (.job .cancelOrders) 2)
    (fun s => TerminalRow s 1) (fun s => s.now = 1000) (by decide +kernel)
  exact ⟨c,c',hc,hr,ht,hnow,terminal_absorbing plainExternals_documented hc hr ht⟩

/-- The maker cancels while the callback of the paid escrow holds a copy of the waiting order: the
callback then stores the canceled order as active. -/
theorem canceled_order_becomes_active :
    ∃ cfg ext c c', ext.Documented ∧ (daemon cfg ext).Reach System.Demand.none State.Initial c ∧
      (daemon cfg ext).Run System.Demand.none c c' ∧
      (∃ r ∈ c.shared.orders, r.order.id = 1 ∧ r.order.status = .canceled) ∧
      ∃ r ∈ c'.shared.orders, r.order.id = 1 ∧ r.order.status = .active := by
  obtain ⟨c,c',h⟩ := run_of_schedules plainSettings plainExternals System.Demand.none
    (takenSell ++ .env (.accept 3 100) :: alone 4 (.escrowInvoice 3) 2
      ++ .start ⟨5,.message (.cancel 1 7)⟩ :: steps 1 6)
    (steps 0 2) (fun s => ∃ r ∈ s.orders, r.order.id = 1 ∧ r.order.status = .canceled)
    (fun s => ∃ r ∈ s.orders, r.order.id = 1 ∧ r.order.status = .active) (by decide +kernel)
  exact ⟨_,_,c,c',plainExternals_documented,h⟩

end Mostro
