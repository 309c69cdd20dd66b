import Mostro.DaemonInvariants

set_option autoImplicit false

/-!
Bond rows against the hold invoices that back them: a captured bond has a settled invoice, and
what the payout cycle pays for a child row comes out of its parent's settled invoice.
-/

namespace Mostro

open Interleaving

variable {s s' : State} {row : Uuid} {Γ : Set Fact}

section

variable {cfg : Settings} {ext : Externals} {c : DaemonState}

/-- A captured bond has a settled hold invoice, and a released one never has. -/
theorem bond_agrees_with_hold (hext : ext.Documented)
    (hc : (daemon cfg ext).Reach System.Demand.none State.Initial c) {b : Bond}
    (hb : b ∈ c.shared.bonds) :
    (b.parentBondId = none → b.state.isCaptured = true →
      ∃ h, b.hash = some h ∧ c.shared.holdState h = some .settled) ∧
    (b.state = .released → ∀ h, b.hash = some h → c.shared.holdState h ≠ some .settled) := by
  have hcons := reach_consistent hext hc
  refine ⟨fun hp hcap => ?_,fun hrel h hh => ?_⟩
  · obtain ⟨h,hh,_,_,hset,_⟩ := hcons.ownBond hb hp
    exact ⟨h,hh,hset hcap⟩
  · cases hp : b.parentBondId with
    | none =>
      obtain ⟨x,hx,_,_,_,hcan⟩ := hcons.ownBond hb hp
      rw [hh] at hx
      cases hx
      simp [hcan hrel]
    | some p =>
      have hchild := hcons.bond b hb
      simp only [BondEscrow,hp] at hchild
      cases hchild.1.symm.trans hh

end

def disputedRange : Schedule :=
  quoted 0 (.message (.newOrder ⟨some .sell,0,0,some 10,some 100,none,100000⟩ 7 7 7 none))
    1 5000 6
  ++ .env (.accept 2 100) :: alone 4 (.bondInvoice 2) 10
  ++ quoted 5 (.message (.takeSell ⟨1,8,8,none,some 100,some 50⟩)) 3 5000 9
  ++ .env (.accept 6 100) :: alone 7 (.escrowInvoice 6) 6
  ++ alone 8 (.message (.dispute 1 8)) 6

def resolvedRange : Schedule :=
  disputedRange ++ alone 10 (.rpc (.cancel 1 { slashSeller := true })) 22

theorem slashed_parent_hold_settled :
    ∃ c, (daemon (bondSettings .make 1000) plainExternals).Reach System.Demand.none State.Initial c
      ∧ ∃ b ∈ c.shared.bonds, b.state = .slashed ∧
        ∃ h, b.hash = some h ∧ c.shared.holdState h = some .settled := by
  obtain ⟨c,hc,b,hb,hp,hst⟩ := reach_of_schedule (bondSettings .make 1000) plainExternals
    System.Demand.none resolvedRange
    (fun s => ∃ b ∈ s.bonds, b.parentBondId = none ∧ b.state = .slashed) (by decide +kernel)
  have hagree := bond_agrees_with_hold plainExternals_documented hc hb
  exact ⟨c,hc,b,hb,hst,hagree.1 hp (by rw [hst]; rfl)⟩

structure Bond.EndsAs (b r : Bond) : Prop where
  becomes : b.Becomes r
  captured : b.state.isCaptured = true → r.state.isCaptured = true
  released : b.state = .released → r.state = .released

theorem Bond.EndsAs.of_becomes (hc : Consistent s) (hc' : Consistent s') (hp : HoldsProgress s s')
    {b r : Bond} (hb : b ∈ s.bonds) (hr : r ∈ s'.bonds) (h : b.Becomes r)
    (hown : b.parentBondId = none) : b.EndsAs r := by
  obtain ⟨x,hx,_,_,hset,hcan⟩ := hc.ownBond hb hown
  obtain ⟨y,hy,_,_,hset',hcan'⟩ := hc'.ownBond hr (h.1.parentBondId.trans hown)
  cases hx.symm.trans (h.1.hash.symm.trans hy)
  refine ⟨h,fun hst => ?_,fun hst => ?_⟩
  · have hset := hp.holdState (.inl rfl) (hset hst)
    have hlead := h.2.2 (by
      cases hb : b.state <;> simp_all [BondState.isCaptured,BondState.isActive])
    cases hr : r.state <;> simp_all [BondState.isCaptured,BondState.isActive]
  · have hcan := hp.holdState (.inr rfl) (hcan hst)
    have hlead := h.2.2 (by rw [hst]; rfl)
    cases hr : r.state <;> simp_all [BondState.isCaptured,BondState.isActive]

/-- In every run, whatever the steps, a bond of its own is never lost and keeps its owner, its role,
its order, its amount and its hold invoice; it is not requested again, nor active again once it is
not; and once captured it stays captured, once released, released. -/
theorem bond_fate_of_run {cfg : Settings} {ext : Externals} {D : Requirement} {c c' : DaemonState}
    (hext : ext.Documented) (hc : (daemon cfg ext).Reach D State.Initial c)
    (hrun : (daemon cfg ext).Run D c c') {b : Bond} (hb : b ∈ c.shared.bonds)
    (hown : b.parentBondId = none) : ∃ r ∈ c'.shared.bonds, b.EndsAs r := by
  refine (trivial_invariant ext D).lasts hext (P := fun s => ∃ r ∈ s.bonds, b.EndsAs r)
    (fun _ hbonds h => hbonds ▸ h) ?_ hc hrun ⟨b,hb,.rfl,id,id⟩
  rintro l Γ op ch ls s hn hΓ hcons _ _ he ⟨q,hq,hbq⟩
  have hΓ : ∀ f ∈ Γ, f.Lasts s := fun f hf => (hΓ f hf).1
  obtain ⟨r,hr,hqr⟩ := bondsProgress_effect hcons hn hΓ he q hq
  have hqr := Bond.EndsAs.of_becomes hcons (consistent_effect hcons hn hΓ he) he.holdsProgress hq hr
    hqr (hbq.becomes.1.parentBondId.trans hown)
  exact ⟨r,hr,hbq.becomes.trans hqr.becomes,fun h => hqr.captured (hbq.captured h),
    fun h => hqr.released (hbq.released h)⟩

theorem locked_bond_captured :
    ∃ c c' b r, (daemon (bondSettings .make 1000) plainExternals).Run System.Demand.none c c' ∧
      b ∈ c.shared.bonds ∧ b.state = .locked ∧ r ∈ c'.shared.bonds ∧ r.state = .slashed ∧
      b.EndsAs r := by
  obtain ⟨c,c',hc,hrun,⟨b,hb,hown,hst⟩,hend⟩ := run_of_schedules (bondSettings .make 1000)
    plainExternals System.Demand.none disputedRange (resolvedRange.drop disputedRange.length)
    (fun s => ∃ b ∈ s.bonds, b.parentBondId = none ∧ b.state = .locked)
    (fun s => ∀ b ∈ s.bonds, b.parentBondId = none → b.state = .slashed) (by decide +kernel)
  obtain ⟨r,hr,hbr⟩ := bond_fate_of_run plainExternals_documented hc hrun hb hown
  exact ⟨c,c',b,r,hrun,hb,hst,hr,hend r hr (hbr.becomes.1.parentBondId.trans hown),hbr⟩

/-- The operation asks for the payout of the row: an invoice for it, or its payment. -/
def Op.charges (row : Uuid) : Op → Prop
  | .lnd (.sendPaymentV2 (.bond r) _ _) => r = row
  | .askBondInvoice r _ => r = row
  | _ => False

/-- An invoice was asked for the row, or a payment for it reached the node. -/
def State.Charged (s : State) (row : Uuid) : Prop :=
  (∃ pay ∈ s.payments, pay.payee = .bond row) ∨ (∃ sub ∈ s.submissions, sub.payee = .bond row) ∨
    row ∈ s.invoiceRequests

theorem orderStmt_charged {tid : Nat} {st : OrderStmt} (h : (st.exec tid s).1.Charged row) :
    s.Charged row := by
  cases st <;> exact h

theorem bondStmt_charged {st : BondStmt} (h : (st.exec s).1.Charged row) : s.Charged row := by
  cases st with
  | insertSliceSlash v =>
    simp only [BondStmt.exec] at h
    split at h <;> exact h
  | closeRange v =>
    simp only [BondStmt.exec] at h
    split at h <;> exact h
  | _ => exact h

theorem Effect.charged {tid : Nat} {op : Op} (he : Effect tid op s s') (h : s'.Charged row) :
    s.Charged row ∨ op.charges row := by
  cases he with
  | quiet hq =>
    obtain ⟨_,_,rfl⟩ := hq
    exact .inl h
  | order st _ => exact .inl (orderStmt_charged h)
  | bond st _ => exact .inl (bondStmt_charged h)
  | register payee x stamp hop _ =>
    rcases h with ⟨pay,hpay,hp⟩ | h | h
    · rcases List.mem_cons.mp hpay with rfl | hpay
      · subst hop
        cases hp
        exact .inr rfl
      · exact .inl (.inl ⟨pay,hpay,hp⟩)
    · exact .inl (.inr (.inl h))
    · exact .inl (.inr (.inr h))
  | submit payee x stamp hop =>
    rcases h with h | ⟨sub,hsub,hp⟩ | h
    · exact .inl (.inl h)
    · rcases List.mem_cons.mp hsub with rfl | hsub
      · subst hop
        cases hp
        exact .inr rfl
      · exact .inl (.inr (.inl ⟨sub,hsub,hp⟩))
    · exact .inl (.inr (.inr h))
  | ask r recipient hop =>
    rcases h with h | h | h
    · exact .inl (.inl h)
    · exact .inl (.inr (.inl h))
    · rcases List.mem_cons.mp h with rfl | h
      · subst hop
        exact .inr rfl
      · exact .inl (.inr (.inr h))
  | _ => exact .inl h

theorem endPayment_charged {attempt : Nat} {status : PaymentStatus}
    (h : (s.endPayment attempt status).Charged row) : s.Charged row := by
  rcases h with ⟨pay,hpay,hp⟩ | h | h
  · obtain ⟨r,hr,rfl⟩ := SqlTable.mem_updateWhere.mp hpay
    refine .inl ⟨r,hr,?_⟩
    split at hp <;> exact hp
  · exact .inr (.inl h)
  · exact .inr (.inr h)

theorem Moves.charged {e : Env} (he : Moves s e s') (h : s'.Charged row) : s.Charged row := by
  have herase : ∀ i x, x ∈ s.submissions.eraseIdx i → x.payee = .bond row → s.Charged row :=
    fun i x hx hp => .inr (.inl ⟨x,List.mem_of_mem_eraseIdx hx,hp⟩)
  cases he with
  | refuse i sub _ _ | drop i =>
    rcases h with h | ⟨x,hx,hp⟩ | h
    · exact .inl h
    · exact herase i x hx hp
    · exact .inr (.inr h)
  | register i sub hsub _ =>
    rcases h with ⟨pay,hpay,hp⟩ | ⟨x,hx,hp⟩ | h
    · rcases List.mem_cons.mp hpay with rfl | hpay
      · exact .inr (.inl ⟨sub,List.mem_of_getElem? hsub,hp⟩)
      · exact .inl ⟨pay,hpay,hp⟩
    · exact herase i x hx hp
    · exact .inr (.inr h)
  | settle attempt => exact endPayment_charged h
  | fail attempt => exact endPayment_charged h
  | _ => exact h

/-- The row is stored, and the parent of a child row has a settled hold invoice. -/
def Captured (s : State) (row : Uuid) : Prop :=
  ∃ b ∈ s.bonds, b.id = row ∧ ∀ p, b.parentBondId = some p →
    ∃ q ∈ s.bonds, q.id = p ∧ ∃ h, q.hash = some h ∧ s.holdState h = some .settled

theorem Captured.progress (h : Captured s row) (hb : BondsProgress s s') (hh : HoldsProgress s s') :
    Captured s' row := by
  obtain ⟨b,hbm,hid,hpar⟩ := h
  obtain ⟨b',hb',hcore,_⟩ := hb b hbm
  refine ⟨b',hb',hcore.id.trans hid,fun p hp => ?_⟩
  obtain ⟨q,hq,hqid,x,hx,hst⟩ := hpar p (hcore.parentBondId.symm.trans hp)
  obtain ⟨q',hq',hqcore,_⟩ := hb q hq
  exact ⟨q',hq',hqcore.id.trans hqid,x,hqcore.hash.trans hx,hh.holdState (.inl rfl) hst⟩

def State.backsChildren (s : State) (h : Hash) : Bool :=
  s.bonds.any fun q => q.hash == some h && s.bonds.any fun b => b.parentBondId == some q.id

def State.bondCanceled (s : State) (id : Uuid) : Bool :=
  s.bonds.any fun q => q.id == id && q.hash.any fun h => s.holdState h == some .canceled

/-- No hold invoice of a bond with child rows is canceled, and no slice of a bond whose hold
invoice is canceled is slashed. -/
abbrev parentsKept : Requirement := .check
  (fun _ op _ _ s => match op with
    | .lnd (.cancelHoldInvoice h) => !(s.cancelable h && s.backsChildren h)
    | .bond (.insertSliceSlash v) => !s.bondCanceled v.parent.id
    | _ => true)
  (fun e _ s => match e with
    | .lndCancel h => !s.backsChildren h
    | _ => true)

def ParentsHeld (s : State) : Prop :=
  ∀ b ∈ s.bonds, ∀ p, b.parentBondId = some p → ∀ q ∈ s.bonds, q.id = p →
    ∀ h, q.hash = some h → s.holdState h ≠ some .canceled

theorem backsChildren_of_child {b q : Bond} {p : Uuid} {h : Hash} (hb : b ∈ s.bonds)
    (hp : b.parentBondId = some p) (hq : q ∈ s.bonds) (hid : q.id = p) (hh : q.hash = some h) :
    s.backsChildren h = true := by
  refine List.any_eq_true.mpr ⟨q,hq,?_⟩
  simp only [hh,BEq.rfl,Bool.true_and]
  exact List.any_eq_true.mpr ⟨b,hb,by simp [hp,hid]⟩

theorem ParentsHeld.of_bonds (h : ParentsHeld s) (hb : s'.bonds = s.bonds)
    (hcan : ∀ x, s'.holdState x = some .canceled →
      s.holdState x = some .canceled ∨ s.backsChildren x = false) : ParentsHeld s' := by
  intro b hbm p hp q hq hid x hx hst
  rw [hb] at hbm hq
  rcases hcan x hst with hst | hno
  · exact h b hbm p hp q hq hid x hx hst
  · rw [backsChildren_of_child hbm hp hq hid hx] at hno
    cases hno

theorem Payable.captured (hc : Consistent s) (hheld : ParentsHeld s) (hΓ : ∀ f ∈ Γ, f.Lasts s)
    (h : Payable Γ row) : Captured s row := by
  obtain ⟨b,hb,hid,hpar⟩ := h
  obtain ⟨_,r,hr,hcore,_⟩ := hΓ _ hb
  refine ⟨r,hr,hcore.id.trans hid,fun p hp => ?_⟩
  obtain ⟨q,hq,hqid,hlocked⟩ := hpar p (hcore.parentBondId.symm.trans hp)
  obtain ⟨hreq,q',hq',hqcore,hlead⟩ := hΓ _ hq
  -- the parent was neither requested nor locked when it was read, so it is still inactive
  have hinactive : q'.state.isActive = false := by
    refine hlead.2 ?_
    cases hs : q.state <;> simp_all [BondState.isActive]
  obtain ⟨q₀,hq₀,hid₀,hown,_⟩ := hc.parent hr hp
  have heq : q₀ = q' := hc.bond_unique hq₀ hq' (hid₀.trans (hqcore.id.trans hqid).symm)
  subst heq
  obtain ⟨x,hx,_,_,hcap,hrel⟩ := hc.ownBond hq₀ hown
  refine ⟨q₀,hq₀,hid₀,x,hx,?_⟩
  have hnot := hheld r hr p hp q₀ hq₀ hid₀ x hx
  cases hs : q₀.state with
  | released => exact absurd (hrel hs) hnot
  | requested | locked => simp [hs,BondState.isActive] at hinactive
  | _ => exact hcap (by rw [hs]; rfl)

theorem charges_captured {req : Request} {op : Op} (hn : op.need req Γ) (hΓ : ∀ f ∈ Γ, f.Lasts s)
    (hc : Consistent s) (hheld : ParentsHeld s) (h : op.charges row) : Captured s row := by
  cases op with
  | lnd call =>
    cases call with
    | sendPaymentV2 payee x stamp =>
      cases payee with
      | bond r =>
        cases h
        exact hn.2.captured hc hheld hΓ
      | buyer o => exact h.elim
    | _ => exact h.elim
  | askBondInvoice r recipient =>
    cases h
    exact hn.2.captured hc hheld hΓ
  | _ => exact h.elim

theorem parentsHeld_bondStmt {req : Request} {st : BondStmt} (hc : Consistent s)
    (hheld : ParentsHeld s) (hn : st.need req Γ) (hΓ : ∀ f ∈ Γ, f.Lasts s)
    (hslice : ∀ v, st = .insertSliceSlash v → s.bondCanceled v.parent.id = false) :
    ParentsHeld (st.exec s).1 := by
  intro b hb p hp q hq hid x hx
  rw [State.holdState,State.hold?,bondStmt_rest _ s State.holds,← State.hold?,← State.holdState]
  -- the parent is a row that was stored before, since an inserted row has a new id
  have hplt : p < s.nextId := by
    rcases bondStmt_origin hc hn hΓ hb with ⟨b₀,hb₀,hcore,_⟩ | hins
    · obtain ⟨q₀,hq₀,hid₀,_⟩ := hc.parent hb₀ (hcore.parentBondId.symm.trans hp)
      exact hid₀ ▸ hc.bondIds_lt q₀ hq₀
    · obtain ⟨q₀,hq₀,hid₀,_⟩ := locked_parent hc ((inserted_spec hn hins).2 p hp).1
      exact hid₀ ▸ hc.bondIds_lt q₀ hq₀
  obtain ⟨q₀,hq₀,hid₀,hx₀⟩ : ∃ q₀ ∈ s.bonds, q₀.id = p ∧ q₀.hash = some x := by
    rcases bondStmt_origin hc hn hΓ hq with ⟨q₀,hq₀,hcore,_⟩ | hins
    · exact ⟨q₀,hq₀,hcore.id.symm.trans hid,hcore.hash.symm.trans hx⟩
    · exact absurd ((inserted_spec hn hins).1.symm.trans hid) (Nat.ne_of_gt hplt)
  rcases bondStmt_origin hc hn hΓ hb with ⟨b₀,hb₀,hcore,_⟩ | hins
  · exact hheld b₀ hb₀ p (hcore.parentBondId.symm.trans hp) q₀ hq₀ hid₀ x hx₀
  · obtain ⟨hlock,hkind⟩ := (inserted_spec hn hins).2 p hp
    rcases hkind with ⟨v,hst,hv,_⟩ | ⟨v,rfl,hv,_⟩
    · intro hcan
      have hno := hslice v hst
      rw [State.bondCanceled,List.any_eq_false] at hno
      exact hno q₀ hq₀ (by simp [hid₀,hv,hx₀,hcan])
    · obtain ⟨q₁,hq₁,hid₁,hown,_⟩ := locked_parent hc hlock
      obtain rfl := hc.bond_unique hq₀ hq₁ (hid₀.trans hid₁.symm)
      obtain ⟨y,hy,hpre,_⟩ := hc.ownBond hq₀ hown
      rw [hx₀] at hy
      cases hy
      simp [knowsSettled_stored hc hΓ hn hq₀ (hid₀.trans hv.symm) hpre]

structure ChargesCaptured (s : State) : Prop where
  held : ParentsHeld s
  charged : ∀ row, s.Charged row → Captured s row

theorem chargesCaptured_op {l : Label} {op : Op} {ch : Choice} {ls : List Label}
    (hn : op.need l.req Γ) (hΓ : ∀ f ∈ Γ, f.Lasts s) (hc : Consistent s) (hi : ChargesCaptured s)
    (hd : parentsKept.onOp l op ch ls s) (he : Effect l.tid op s s') : ChargesCaptured s' := by
  refine ⟨?_,fun row hrow => ?_⟩
  · rcases he.rows with hk | ⟨st,rfl,rfl⟩ | ⟨st,rfl,rfl⟩
    · refine hi.held.of_bonds hk.bonds fun x hx => ?_
      refine (he.canceled_from hx).imp_right ?_
      rintro ⟨rfl,hst⟩
      have hcan : s.cancelable x = true := by simpa [State.cancelable] using hst
      simpa [System.Demand.check,hcan] using hd
    · refine hi.held.of_bonds (orderStmt_bonds st) fun x hx => .inl ?_
      rwa [State.holdState,State.hold?,orderStmt_holds] at hx
    · refine parentsHeld_bondStmt hc hi.held hn hΓ fun v hv => ?_
      subst hv
      simpa [System.Demand.check] using hd
  · rcases he.charged hrow with hold | hnew
    · exact (hi.charged row hold).progress (bondsProgress_effect hc hn hΓ he) he.holdsProgress
    · refine Captured.progress ?_ (bondsProgress_effect hc hn hΓ he) he.holdsProgress
      exact charges_captured hn hΓ hc hi.held hnew

theorem parentsKept_invariant (ext : Externals) :
    StepInvariant ext parentsKept ChargesCaptured (fun _ _ _ => True) where
  init s hs := by
    obtain ⟨now,height,rfl⟩ := hs
    refine ⟨fun b hb => absurd hb List.not_mem_nil,fun row hrow => ?_⟩
    rcases hrow with ⟨x,hx,_⟩ | ⟨x,hx,_⟩ | hx <;> exact absurd hx List.not_mem_nil
  launch cfg l s s' hc hi hl := by
    obtain ⟨_,rfl⟩ := launch_eq hl
    exact ⟨⟨hi.held,hi.charged⟩,fun _ _ _ _ => trivial⟩
  op l Γ op ch ls s hn hΓ hc hi hd he :=
    ⟨chargesCaptured_op hn (fun f hf => (hΓ f hf).1) hc hi hd he,fun _ _ _ _ _ => trivial⟩
  learn _ _ _ _ _ _ _ _ _ _ _ _ _ _ _ _ := trivial
  env e ls s s' hc hi hd he := by
    refine ⟨⟨?_,fun row hrow => ?_⟩,fun _ _ _ _ _ => trivial⟩
    · refine hi.held.of_bonds he.rowsKept.bonds fun x hx => ?_
      refine (he.canceled_from hx).imp_right ?_
      rintro ⟨rfl,_⟩
      simpa [System.Demand.check] using hd
    · exact (hi.charged row (he.charged hrow)).progress (.of_eq he.rowsKept.bonds) he.rowsKept.holds

/-- Where no hold invoice behind child rows is canceled, a payout is asked for, and a payment sent,
for a child row only once its parent's hold invoice has been settled. -/
theorem child_rows_paid_from_captured {cfg : Settings} {ext : Externals} (hext : ext.Documented)
    {c : DaemonState} (hc : (daemon cfg ext).Reach parentsKept State.Initial c) :
    (∀ l op k row, ⟨l,.call op k⟩ ∈ c.tasks → op.charges row → Captured c.shared row) ∧
      ∀ row, c.shared.Charged row → Captured c.shared row := by
  have hinv := parentsKept_invariant ext
  obtain ⟨hcons,hi⟩ := hinv.reach hext hc
  refine ⟨fun l op k row ht hop => ?_,hi.charged⟩
  obtain ⟨Γ,hn,hΓ⟩ := (hinv.upholds hext cfg).about_to hc ht
  exact charges_captured hn (fun f hf => (hΓ f hf).1) hcons hi.held hop

def PaidFromReleased (s : State) : Prop :=
  ∃ pay ∈ s.payments, ∃ b ∈ s.bonds, ∃ q ∈ s.bonds, pay.payee = .bond b.id ∧
    b.parentBondId = some q.id ∧ ∃ h ∈ q.hash, s.holdState h = some .canceled

instance : DecidablePred PaidFromReleased := fun s => by
  unfold PaidFromReleased
  infer_instance

theorem child_row_paid_after_close :
    ∃ c, (daemon (bondSettings .make 1000) plainExternals).Reach parentsKept State.Initial c ∧
      (∃ b ∈ c.shared.bonds, b.id = 11 ∧ b.parentBondId = some 3) ∧ Captured c.shared 11 := by
  obtain ⟨c,hc,hb,hreq⟩ := reach_of_schedule (bondSettings .make 1000) plainExternals parentsKept
    (resolvedRange ++ alone 13 (.job .processBondPayouts) 7)
    (fun s => (∃ b ∈ s.bonds, b.id = 11 ∧ b.parentBondId = some 3) ∧ 11 ∈ s.invoiceRequests)
    (by decide +kernel)
  have hpaid := (child_rows_paid_from_captured plainExternals_documented hc).2 11
  exact ⟨c,hc,hb,hpaid (.inr (.inr hreq))⟩

/-- While the solver's cancel slashes the maker's slice, the sweep for stranded maker bonds has
read no slices and releases the bond. -/
def sliceDuringClose : Schedule :=
  disputedRange
  ++ alone 10 (.rpc (.cancel 1 { slashSeller := true })) 14
  ++ .start ⟨11,.job .reconcileStrandedMakerBonds⟩ :: steps 1 9
  ++ steps 0 1 ++ steps 1 4 ++ steps 0 3
  ++ alone 13 (.job .processBondPayouts) 7
  ++ alone 14 (.message (.addBondInvoice 1 8 (some 60))) 5
  ++ alone 15 (.job .processBondPayouts) 5

theorem child_row_paid_after_release :
    ∃ cfg ext c, ext.Documented ∧
      (daemon cfg ext).Reach System.Demand.none State.Initial c ∧ PaidFromReleased c.shared := by
  obtain ⟨c,hc,hpaid⟩ := reach_of_schedule (bondSettings .make 1000) plainExternals
    System.Demand.none sliceDuringClose PaidFromReleased (by decide +kernel)
  exact ⟨_,_,c,plainExternals_documented,hc,hpaid⟩

end Mostro
