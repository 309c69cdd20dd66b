import Mostro.EscrowAgreement
import Mostro.TaskContracts

set_option autoImplicit false

/-!
What an order says of its escrow.  As long as every whole-row write finds the order with the
status, the hold invoice, the buyer's invoice and the price of the copy its handler works on, an
order that is not taken names no hold invoice, one under way names one over its amount and fee, and
one that waits for the buyer's invoice names one that was accepted.
-/

namespace Mostro

open Interleaving SqlTable

variable {s' : State} {o : Order} {op : Op} {l : Label} {D : Requirement}
variable {timeout : Bool} {read row : Order} {u : OrderUpdate}

def Status.isTraded : Status → Bool
  | .waitingPayment | .waitingBuyerInvoice | .active | .fiatSent | .dispute
  | .settledHoldInvoice | .success => true
  | _ => false

def State.WasPaid (s : State) (h : Hash) : Prop := ∃ i, s.hold? h = some i ∧ i.paid = true

theorem State.WasPaid.progress {s : State} {h : Hash} (hp : HoldsProgress s s') (hw : s.WasPaid h) :
    s'.WasPaid h := by
  obtain ⟨i,hi,hpaid⟩ := hw
  obtain ⟨j,hj,hb⟩ := hp h i hi
  exact ⟨j,hj,hb.paid hpaid⟩

structure RowAgrees (s : State) (o : Order) : Prop where
  listed : o.status.isListed = true → o.hash = none
  amount : o.status.isTraded = true → ∀ h i, o.hash = some h → s.hold? h = some i →
    i.amount = o.amount + o.fee
  paid : o.status = .waitingBuyerInvoice → ∀ h, o.hash = some h → s.WasPaid h

structure TermsAgree (s : State) : Prop where
  rows : ∀ r ∈ s.orders, RowAgrees s r.order
  accepted : ∀ h i, s.hold? h = some i → i.state = .accepted → i.paid = true

/-- A whole-row write finds the order with the status, the hold invoice, the buyer's invoice and the
price of its handler's copy.  The timeout job, whose copy has the price taken back, lists an order
again only when it has reset it. -/
def OrderUpdate.seesTerms (timeout : Bool) (s : State) : OrderUpdate → Bool
  | .update read row =>
      (row.status != .pending || read.status == .pending) && s.orders.all fun r =>
        r.order.id != row.id || (r.order.status == read.status && r.order.hash == row.hash
          && r.order.buyerInvoice == read.buyerInvoice
          && (timeout || (r.order.amount == read.amount && r.order.fee == read.fee)))
  | _ => true

def Op.seesTerms (l : Label) (s : State) : Op → Bool
  | .order (.run u) => u.seesTerms l.req.isTimeoutJob s
  | _ => true

structure SeesRow (timeout : Bool) (read row o : Order) : Prop where
  lists : row.status = .pending → read.status = .pending
  status : o.status = read.status
  hash : o.hash = row.hash
  invoice : o.buyerInvoice = read.buyerInvoice
  price : timeout = false → o.amount = read.amount ∧ o.fee = read.fee

theorem seesTerms_row {s : State} {r : OrderRow}
    (hd : (OrderUpdate.update read row).seesTerms timeout s = true) (hr : r ∈ s.orders)
    (hid : r.order.id = row.id) : SeesRow timeout read row r.order := by
  simp only [OrderUpdate.seesTerms,Bool.and_eq_true,List.all_eq_true] at hd
  have hrow := hd.2 r hr
  simp only [hid,bne_self_eq_false,Bool.false_or,Bool.and_eq_true,beq_iff_eq] at hrow
  refine ⟨fun hp => by simpa [hp] using hd.1,hrow.1.1.1,hrow.1.1.2,hrow.1.2,fun ht => ?_⟩
  simpa [ht] using hrow.2

theorem RowAgrees.of_none {s : State} (h : o.hash = none) : RowAgrees s o :=
  ⟨fun _ => h,fun _ _ _ hx => (nomatch h.symm.trans hx),fun _ _ hx => (nomatch h.symm.trans hx)⟩

theorem RowAgrees.of_closed {s : State} (h : o.status.isClosed = true) : RowAgrees s o := by
  refine ⟨fun hl => ?_,fun ht => ?_,fun hw => ?_⟩
  · cases hst : o.status <;> simp [hst,Status.isClosed,Status.isListed] at h hl
  · cases hst : o.status <;> simp [hst,Status.isClosed,Status.isTraded] at h ht
  · simp [hw,Status.isClosed] at h

theorem RowAgrees.trade {s : State} {o' : Order} (h : RowAgrees s o) (ht : o.status.isTraded = true)
    (hh : o'.hash = o.hash) (ha : o'.amount = o.amount) (hf : o'.fee = o.fee)
    (hl : o'.status.isListed = false)
    (hw : o'.status = .waitingBuyerInvoice → ∀ x, o'.hash = some x → s.WasPaid x) :
    RowAgrees s o' := by
  refine ⟨fun h' => (nomatch hl.symm.trans h'),fun _ x i hx hi => ?_,hw⟩
  rw [ha,hf]
  exact h.amount ht x i (hh.symm.trans hx) hi

theorem RowAgrees.same {s : State} {o' : Order} (h : RowAgrees s o) (hst : o'.status = o.status)
    (hh : o'.hash = o.hash) (ha : o'.amount = o.amount) (hf : o'.fee = o.fee) : RowAgrees s o' := by
  refine ⟨fun hl => hh.trans (h.listed (hst ▸ hl)),fun ht x i hx hi => ?_,fun hw x hx => ?_⟩
  · rw [ha,hf]
    exact h.amount (hst ▸ ht) x i (hh.symm.trans hx) hi
  · exact h.paid (hst ▸ hw) x (hh.symm.trans hx)

theorem RowAgrees.progress {s : State} (hp : HoldsProgress s s')
    (hold : ∀ h, o.hash = some h → (s.hold? h).isSome = true) (h : RowAgrees s o) :
    RowAgrees s' o := by
  refine ⟨h.listed,fun ht x j hx hj => ?_,fun hw x hx => (h.paid hw x hx).progress hp⟩
  obtain ⟨i,hi⟩ := Option.isSome_iff_exists.mp (hold x hx)
  obtain ⟨k,hk,hb⟩ := hp x i hi
  obtain rfl := Option.some.inj (hk.symm.trans hj)
  exact hb.amount.trans (h.amount ht x i hx hi)

def TermsKnown (s : State) : Fact → Prop
  | .order x => x.status.isListed = true → x.hash = none
  | .accepted h => s.WasPaid h
  | _ => True

theorem TermsKnown.progress {s : State} {f : Fact} (hp : HoldsProgress s s') (h : TermsKnown s f) :
    TermsKnown s' f := by
  cases f with
  | accepted x => exact State.WasPaid.progress hp h
  | _ => exact h

theorem proceeds_traded {st st' : Status} (h : st.Proceeds st') (hne : st' ≠ st) :
    st.isTraded = true ∧ st'.isListed = false ∧ st' ≠ .waitingBuyerInvoice := by
  rcases h with rfl | ⟨rfl,rfl⟩ | ⟨rfl | rfl,rfl⟩
  · exact absurd rfl hne
  all_goals exact ⟨rfl,rfl,nofun⟩

section

variable {req : Request} {Γ : Set Fact} {s : State} {r : OrderRow}

theorem RowWrite.agrees (hn : RowWrite req Γ read row) (hΓ : ∀ f ∈ Γ, TermsKnown s f)
    (hr : RowAgrees s r.order) (hsee : SeesRow req.isTimeoutJob read row r.order) :
    RowAgrees s row := by
  cases hn.edit with
  | closes hrow => exact .of_closed hrow
  | lists hreq hrow =>
    refine .of_none (hsee.hash.symm.trans (hr.listed ?_))
    rw [hsee.status,hsee.lists hrow]
    rfl
  | proceeds hreq hterms hrow =>
    obtain ⟨ha,hf⟩ := hsee.price hreq
    have hamount : row.amount = r.order.amount := (congrArg EscrowTerms.amount hterms).trans ha.symm
    have hfee : row.fee = r.order.fee := (congrArg EscrowTerms.fee hterms).trans hf.symm
    by_cases hst : row.status = read.status
    · exact hr.same (hst.trans hsee.status.symm) hsee.hash.symm hamount hfee
    · obtain ⟨htraded,hlisted,hne⟩ := proceeds_traded hrow hst
      exact hr.trade (hsee.status ▸ htraded) hsee.hash.symm hamount hfee hlisted
        fun h => absurd h hne
  | invoice hreq hread hpre hsender =>
    obtain ⟨ha,hf⟩ := hsee.price (by rw [hreq]; rfl)
    refine hr.trade ?_ hsee.hash.symm ha.symm hf.symm rfl nofun
    rw [hsee.status,hread]
    rfl
  | @paid _ h hreq hpaid hhash hread hheld hterms hrow =>
    obtain ⟨ha,hf⟩ := hsee.price (by rw [hreq]; rfl)
    refine hr.trade ?_ hsee.hash.symm ((congrArg EscrowTerms.amount hterms).trans ha.symm)
      ((congrArg EscrowTerms.fee hterms).trans hf.symm) ?_ fun _ x hx => ?_
    · rw [hsee.status]
      rcases hread with h | h <;> rw [h] <;> rfl
    · rw [hrow]
      split <;> rfl
    · have hsame : row.hash = some h := (congrArg EscrowTerms.hash hterms).trans hhash
      obtain rfl := Option.some.inj (hsame.symm.trans hx)
      exact hΓ _ hpaid

theorem take_agrees {allow : Bool} (hn : (OrderUpdate.casCompletePretradeTake o allow).need req Γ)
    (hΓ : ∀ f ∈ Γ, f.Lasts s ∧ TermsKnown s f) (r : OrderRow) :
    RowAgrees s ((OrderUpdate.casCompletePretradeTake o allow).set r).order := by
  obtain ⟨hst,_,⟨hpay,hwait⟩,_⟩ := hn
  rcases hst with hst | hst
  · have hst' : ((OrderUpdate.casCompletePretradeTake o allow).set r).order.status
        = .waitingPayment := hst
    refine ⟨fun h => ?_,fun _ x i hx hi => ?_,fun h => (nomatch hst'.symm.trans h)⟩
    · rw [hst'] at h
      cases h
    · obtain ⟨y,hy,hpriced⟩ := hpay hst
      obtain rfl := Option.some.inj (hy.symm.trans hx)
      obtain ⟨j,hj,hamount⟩ := (hΓ _ hpriced).1
      obtain rfl := Option.some.inj (hj.symm.trans hi)
      exact hamount
  · obtain ⟨x,hx,hl,_,hh⟩ := hwait hst
    exact .of_none (hh.symm.trans ((hΓ _ hx).2 hl))

theorem pretrade_isListed {st : Status} (h : pretradeStatuses.contains st = true) :
    st.isListed = true := (pretrade_isOpen h).2.2.2.2

theorem orderUpdate_agrees (hn : u.need req Γ) (hΓ : ∀ f ∈ Γ, f.Lasts s ∧ TermsKnown s f)
    (htimeout : timeout = req.isTimeoutJob) (hd : u.seesTerms timeout s = true) (hr : r ∈ s.orders)
    (hrow : RowAgrees s r.order) (hsel : u.selects s r = true) : RowAgrees s (u.set r).order := by
  have hguard : u.guard s r = true := (Bool.and_eq_true_iff.mp hsel).2
  cases u with
  | update read row =>
    subst htimeout
    exact RowWrite.agrees hn (fun f hf => (hΓ f hf).2) hrow
      (seesTerms_row hd hr (orderUpdate_id hsel))
  | casCompletePretradeTake o allow => exact take_agrees hn hΓ r
  | updateOrderToInitialState read a f d => exact .of_none rfl
  | editPubkeysOrder id kind => cases kind <;> exact hrow.same rfl rfl rfl rfl
  | casPretradeOrderStatus id new => exact .of_none (hrow.listed (pretrade_isListed hguard))
  | casPromoteTakerContext o =>
    have hnone := hrow.listed (pretrade_isListed hguard)
    refine .of_none ?_
    simp only [OrderUpdate.set]
    split <;> exact hnone
  | updateOrderCashuEscrow id mint token t expected new =>
    obtain ⟨rfl,rfl,_⟩ := hn
    simp only [OrderUpdate.guard,Bool.and_eq_true,beq_iff_eq] at hguard
    exact hrow.trade (by rw [hguard.1.1]; rfl) rfl rfl rfl rfl fun h => by cases h
  | claimOrderStatus id expected new =>
    obtain ⟨rfl,rfl⟩ := hn
    simp only [OrderUpdate.guard,Bool.and_eq_true,beq_iff_eq] at hguard
    exact .of_none (hrow.listed (by rw [hguard.1]; rfl))
  | claimWaitingTakerBond id | claimDeferredPublication id =>
    exact .of_none (hrow.listed (by rw [beq_iff_eq.mp hguard]; rfl))
  | dropWaitingTakerBondToPending id =>
    have hst := beq_iff_eq.mp (Bool.and_eq_true_iff.mp hguard).1
    exact .of_none (hrow.listed (by rw [hst]; rfl))
  | settleFromRelease id =>
    refine hrow.trade ?_ rfl rfl rfl rfl fun h => by cases h
    have hst : r.order.status = .fiatSent ∨ r.order.status = .dispute := by
      simpa [OrderUpdate.guard] using hguard
    rcases hst with h | h <;> rw [h] <;> rfl
  | settleFromAdmin id | paymentSuccess id =>
    exact hrow.trade (by rw [beq_iff_eq.mp hguard]; rfl) rfl rfl rfl rfl fun h => by cases h
  | _ => exact hrow.same rfl rfl rfl rfl

end

section

variable {req : Request} {Γ : Set Fact} {tid : Nat} {s : State} {st : OrderStmt}

theorem termsAgree_orderStmt (hi : TermsAgree s) (hn : st.need req Γ)
    (hΓ : ∀ f ∈ Γ, f.Lasts s ∧ TermsKnown s f) (htimeout : timeout = req.isTimeoutJob)
    (hd : ∀ u, st = .run u → u.seesTerms timeout s = true) :
    ∀ r ∈ (st.exec tid s).1.orders, RowAgrees s r.order := by
  intro r hr
  cases st with
  | create o =>
    rcases List.mem_append.mp hr with hr | hr
    · exact hi.rows r hr
    · rw [List.mem_singleton.mp hr]
      exact .of_none hn.1
  | run u =>
    obtain ⟨q,hq,rfl⟩ := mem_updateWhere.mp hr
    split
    next hsel => exact orderUpdate_agrees hn hΓ htimeout (hd u rfl) hq (hi.rows q hq) hsel
    · exact hi.rows q hq
  | deleteStranded id => exact hi.rows r (List.mem_of_mem_filter hr)

end

theorem TermsAgree.of_orders {s : State} (hc : Consistent s) (hi : TermsAgree s)
    (ho : s'.orders = s.orders) (hp : HoldsProgress s s')
    (hacc : ∀ h i, s'.hold? h = some i → i.state = .accepted → i.paid = true) : TermsAgree s' := by
  refine ⟨fun r hr => ?_,hacc⟩
  rw [ho] at hr
  refine (hi.rows r hr).progress hp fun h hh => ?_
  obtain ⟨i,hi,_⟩ := (hc.escrow r hr).2 h hh
  exact Option.isSome_iff_exists.mpr ⟨i,hi⟩

theorem Effect.accepted_paid {tid : Nat} {s : State} (he : Effect tid op s s')
    (hi : ∀ h i, s.hold? h = some i → i.state = .accepted → i.paid = true) (h : Hash) (i : Hold)
    (hh : s'.hold? h = some i) (hst : i.state = .accepted) : i.paid = true := by
  rcases he.hold?_cases h with heq | ⟨_,j,hj,hopen,_⟩ | ⟨_,_,heq⟩ | ⟨_,_,heq⟩
  · exact hi h i (heq ▸ hh) hst
  · obtain rfl := Option.some.inj (hj.symm.trans hh)
    exact nomatch hopen.symm.trans hst
  all_goals
    obtain ⟨j,_,rfl⟩ := Option.map_eq_some_iff.mp (heq.symm.trans hh)
    cases hst

theorem Moves.accepted_paid {e : Env} {s : State} (he : Moves s e s')
    (hi : ∀ h i, s.hold? h = some i → i.state = .accepted → i.paid = true) (h : Hash) (i : Hold)
    (hh : s'.hold? h = some i) (hst : i.state = .accepted) : i.paid = true := by
  rcases he.hold?_cases h with heq | ⟨_,_,_,heq⟩ | ⟨_,_,heq⟩
  · exact hi h i (heq ▸ hh) hst
  · obtain ⟨j,_,rfl⟩ := Option.map_eq_some_iff.mp (heq.symm.trans hh)
    rfl
  · obtain ⟨j,_,rfl⟩ := Option.map_eq_some_iff.mp (heq.symm.trans hh)
    cases hst

theorem termsAgree_effect {Γ : Set Fact} {s : State} (hc : Consistent s) (hi : TermsAgree s)
    (hn : op.need l.req Γ) (hΓ : ∀ f ∈ Γ, f.Lasts s ∧ TermsKnown s f) (hd : op.seesTerms l s = true)
    (he : Effect l.tid op s s') : TermsAgree s' := by
  have hacc := he.accepted_paid hi.accepted
  rcases he.rows with hk | ⟨st,rfl,rfl⟩ | ⟨st,rfl,rfl⟩
  · exact hi.of_orders hc hk.orders he.holdsProgress hacc
  · refine ⟨fun r hr => ?_,hacc⟩
    have hrow := termsAgree_orderStmt hi hn hΓ rfl (fun u hu => by subst hu; exact hd) r hr
    refine ⟨hrow.listed,fun ht h i hh hold => ?_,fun hw h hh => ?_⟩
    · rw [State.hold?,orderStmt_holds,← State.hold?] at hold
      exact hrow.amount ht h i hh hold
    · exact (hrow.paid hw h hh).progress he.holdsProgress
  · exact hi.of_orders hc (bondStmt_orders st s) he.holdsProgress hacc

theorem termsAgree_invariant (ext : Externals)
    (hD : ∀ {l op ch ls s}, D.onOp l op ch ls s → op.seesTerms l s = true) :
    StepInvariant ext D TermsAgree (fun _ f s => TermsKnown s f) where
  init s hs := by
    obtain ⟨now,height,rfl⟩ := hs
    exact ⟨fun r hr => by simp at hr,fun h i hh => by simp [State.hold?] at hh⟩
  launch cfg l s s' hc hi hl := by
    have hk := launch_rowsKept hl
    obtain ⟨_,rfl⟩ := launch_eq hl
    exact ⟨hi.of_orders hc rfl hk.holds hi.accepted,fun _ f _ hf => hf.progress hk.holds⟩
  op l Γ op ch ls s hn hΓ hc hi hd he :=
    ⟨termsAgree_effect hc hi hn hΓ (hD hd) he,fun _ _ f _ hf => hf.progress he.holdsProgress⟩
  learn l Γ op ch ls s f hn hΓ hc hi hd hc' hinv hf hseen := by
    cases f with
    | order x =>
      obtain ⟨r,hr,rfl⟩ := hseen
      exact (hinv.rows r hr).listed
    | accepted h =>
      obtain ⟨i,hi,hst⟩ := hseen
      exact ⟨i,hi,hst.elim (hinv.accepted h i hi) id⟩
    | _ => trivial
  env e ls s s' hc hi hd he := by
    have hk := he.rowsKept
    exact ⟨hi.of_orders hc hk.orders hk.holds (he.accepted_paid hi.accepted),
      fun _ _ f _ hf => hf.progress hk.holds⟩

structure TermsKnowing (l : Label) (op : Op) (s : State) : Prop where
  consistent : Consistent s
  agree : TermsAgree s
  need : ∃ Γ, op.need l.req Γ ∧ ∀ f ∈ Γ, f.Lasts s ∧ TermsKnown s f

theorem reach_termsKnowing {cfg : Settings} {ext : Externals}
    (hD : ∀ {l op ch ls s}, D.onOp l op ch ls s → op.seesTerms l s = true) (hext : ext.Documented)
    {c : DaemonState} (hc : (daemon cfg ext).Reach D State.Initial c) (hnext : c.AboutTo l op) :
    TermsKnowing l op c.shared := by
  have hinv := termsAgree_invariant ext hD
  obtain ⟨hcons,hagree⟩ := hinv.reach hext hc
  obtain ⟨k,ht⟩ := hnext
  exact ⟨hcons,hagree,(hinv.upholds hext cfg).about_to hc ht⟩

def Status.isAwaiting : Status → Bool
  | .waitingPayment | .waitingBuyerInvoice => true
  | _ => false

theorem Status.isAwaiting_not_listed {st : Status} (h : st.isAwaiting = true) :
    st.isListed = false := by
  cases st <;> first | rfl | cases h

theorem Status.isAwaiting_not_closed {st : Status} (h : st.isAwaiting = true) :
    st.isClosed = false := by
  cases st <;> first | rfl | cases h

def Request.lacksInvoice : Request → Bool
  | .message (.addInvoice _ _ none) => true
  | _ => false

theorem proceeds_awaiting {st st' : Status} (h : st.Proceeds st') (hw : st'.isAwaiting = true) :
    st' = st := by
  rcases h with rfl | ⟨_,rfl⟩ | ⟨_,rfl⟩
  · rfl
  all_goals cases hw

theorem proceeds_active {st : Status} (h : st.Proceeds .active) : st = .active := by
  rcases h with h | ⟨_,h⟩ | ⟨_,h⟩
  · exact h.symm
  all_goals cases h

section

variable {req : Request} {Γ : Set Fact} {s : State} {r : OrderRow} {h : Hash}

theorem orderUpdate_awaiting (hn : u.need req Γ) (hd : u.seesTerms req.isTimeoutJob s = true)
    (hr : r ∈ s.orders) (hrow : RowAgrees s r.order) (hsel : u.selects s r = true)
    (hw : (u.set r).order.status.isAwaiting = true) (hh : (u.set r).order.hash = some h) :
    (r.order.status.isAwaiting = true ∧ r.order.hash = some h ∧
      r.order.buyerInvoice = (u.set r).order.buyerInvoice ∧
      ((u.set r).order.status = .waitingPayment → r.order.status = .waitingPayment)) ∨
    ∃ o allow, u = .casCompletePretradeTake o allow := by
  have hguard : u.guard s r = true := (Bool.and_eq_true_iff.mp hsel).2
  have hnone : r.order.status.isListed = true → r.order.hash = some h → False :=
    fun hl hh => nomatch (hrow.listed hl).symm.trans hh
  cases u with
  | update read row =>
    have hsee := seesTerms_row hd hr (orderUpdate_id hsel)
    have hhash : r.order.hash = some h := hsee.hash.trans hh
    cases hn.edit with
    | closes hclosed => exact nomatch (Status.isAwaiting_not_closed hw).symm.trans hclosed
    | lists _ hrow => simp [OrderUpdate.set,hrow,Status.isAwaiting] at hw
    | proceeds _ hterms hrow =>
      have hst : r.order.status = row.status := hsee.status.trans (proceeds_awaiting hrow hw).symm
      exact .inl ⟨hst ▸ hw,hhash,
        hsee.invoice.trans (congrArg EscrowTerms.buyerInvoice hterms).symm,hst.trans⟩
    | invoice => cases hw
    | paid _ _ _ hread _ hterms hrow =>
      refine .inl ⟨?_,hhash,hsee.invoice.trans (congrArg EscrowTerms.buyerInvoice hterms).symm,
        fun hst => ?_⟩
      · rw [hsee.status]
        rcases hread with h | h <;> rw [h] <;> rfl
      · have hst : row.status = .waitingPayment := hst
        rw [hrow] at hst
        split at hst <;> cases hst
  | casCompletePretradeTake o allow => exact .inr ⟨o,allow,rfl⟩
  | updateOrderToInitialState read a f d => cases hw
  | editPubkeysOrder id kind => cases kind <;> exact .inl ⟨hw,hh,rfl,fun h => h⟩
  | casPretradeOrderStatus id new => exact (hnone (pretrade_isListed hguard) hh).elim
  | casPromoteTakerContext o =>
    have hst : (OrderUpdate.set r (.casPromoteTakerContext o)).order.status = r.order.status := by
      simp only [OrderUpdate.set]
      split <;> rfl
    rw [hst] at hw
    exact absurd (pretrade_isListed hguard) (by simp [Status.isAwaiting_not_listed hw])
  | claimOrderStatus id expected new =>
    obtain ⟨rfl,rfl⟩ := hn
    simp only [OrderUpdate.guard,Bool.and_eq_true,beq_iff_eq] at hguard
    exact (hnone (by rw [hguard.1]; rfl) hh).elim
  | updateOrderCashuEscrow id mint token t expected new =>
    obtain ⟨_,rfl,_⟩ := hn
    cases hw
  | claimWaitingTakerBond id | claimDeferredPublication id | dropWaitingTakerBondToPending id
  | settleFromRelease id | settleFromAdmin id | paymentSuccess id => cases hw
  | payNewInvoice id request =>
    simp only [OrderUpdate.guard,Bool.and_eq_true,beq_iff_eq] at hguard
    simp [OrderUpdate.set,hguard.1,Status.isAwaiting] at hw
  | _ => exact .inl ⟨hw,hh,rfl,fun h => h⟩

structure Activates (req : Request) (s : State) (before after : Order) (h : Hash)
    (p : PaymentRequest) : Prop where
  awaiting : before.status.isAwaiting = true
  kept : before.hash = some h
  hash : after.hash = some h
  invoice : after.buyerInvoice = some p
  paid : s.WasPaid h
  stored : before.buyerInvoice = some p ∨
    ∃ k, req = .message (.addInvoice after.id k (some p)) ∧ after.buyerPubkey = some k

theorem RowWrite.activates (hn : RowWrite req Γ read row) (hΓ : ∀ f ∈ Γ, f.Lasts s ∧ TermsKnown s f)
    (hinvoice : req.lacksInvoice = false) (hrow : RowAgrees s r.order)
    (hsee : SeesRow req.isTimeoutJob read row r.order) (hbefore : r.order.status ≠ .active)
    (hafter : row.status = .active) : ∃ h p, Activates req s r.order row h p := by
  cases hn.edit with
  | closes hclosed =>
    rw [hafter] at hclosed
    cases hclosed
  | lists _ hpending => exact nomatch hafter.symm.trans hpending
  | proceeds _ _ hproceeds =>
    rw [hafter] at hproceeds
    exact absurd (hsee.status.trans (proceeds_active hproceeds)) hbefore
  | @invoice sender request hreq hread hpre hsender =>
    obtain ⟨p,rfl⟩ : ∃ p, request = some p := by
      subst hreq
      cases request with
      | none => cases hinvoice
      | some p => exact ⟨p,rfl⟩
    obtain ⟨h,hh⟩ : ∃ h, read.hash = some h := by
      rcases hn.copy with ⟨x,hx,hsame⟩ | ⟨_,_,_,_,hcancel,_⟩
      · have hesc := (hΓ _ hx).1.2.1
        rw [hsame.2.1,hsame.2.2.1] at hesc
        exact Option.isSome_iff_exists.mp (hesc ▸ hpre)
      · exact nomatch hreq.symm.trans hcancel
    have hkept : r.order.hash = some h := hsee.hash.trans hh
    have hst : r.order.status = .waitingBuyerInvoice := hsee.status.trans hread
    exact ⟨h,p,by rw [hst]; rfl,hkept,hh,rfl,hrow.paid hst h hkept,.inr ⟨sender,hreq,hsender⟩⟩
  | @paid _ h hreq hpaid hhash hread hheld hterms hst =>
    rw [hafter] at hst
    obtain ⟨p,hp⟩ : ∃ p, read.buyerInvoice = some p := by
      cases hb : read.buyerInvoice with
      | none => simp [hb] at hst
      | some p => exact ⟨p,rfl⟩
    have hsame : row.hash = some h := (congrArg EscrowTerms.hash hterms).trans hhash
    refine ⟨h,p,?_,hsee.hash.trans hsame,hsame,
      (congrArg EscrowTerms.buyerInvoice hterms).trans hp,hΓ _ hpaid |>.2,.inl
        (hsee.invoice.trans hp)⟩
    rw [hsee.status]
    rcases hread with h | h <;> rw [h] <;> rfl

theorem orderUpdate_activates (hn : u.need req Γ) (hΓ : ∀ f ∈ Γ, f.Lasts s ∧ TermsKnown s f)
    (hd : u.seesTerms req.isTimeoutJob s = true) (hinvoice : req.lacksInvoice = false)
    (hcashu : req.locksCashu = false) (hr : r ∈ s.orders) (hrow : RowAgrees s r.order)
    (hsel : u.selects s r = true) (hbefore : r.order.status ≠ .active)
    (hafter : (u.set r).order.status = .active) :
    ∃ h p, Activates req s r.order (u.set r).order h p := by
  cases u with
  | update read row =>
    exact RowWrite.activates hn hΓ hinvoice hrow (seesTerms_row hd hr (orderUpdate_id hsel))
      hbefore hafter
  | casCompletePretradeTake o allow =>
    rcases hn.1 with h | h <;> cases h.symm.trans hafter
  | editPubkeysOrder id kind => cases kind <;> exact absurd hafter hbefore
  | casPretradeOrderStatus id new =>
    rcases hn with h | ⟨h,_⟩ <;> cases h.symm.trans hafter
  | casPromoteTakerContext o =>
    refine absurd (Eq.trans ?_ hafter) hbefore
    simp only [OrderUpdate.set]
    split <;> rfl
  | claimOrderStatus id expected new => cases hn.2.symm.trans hafter
  | updateOrderCashuEscrow id mint token t expected new => cases hcashu.symm.trans hn.2.2
  | updateOrderToInitialState | claimWaitingTakerBond | claimDeferredPublication
  | dropWaitingTakerBondToPending | settleFromRelease | settleFromAdmin | paymentSuccess =>
    cases hafter
  | _ => exact absurd hafter hbefore

end

/-- Whole-row writes find the order as their handlers read it, and an AddInvoice without a payment
request is not accepted. -/
abbrev takesCurrent : Requirement := .check
  (fun l op _ _ s => op.seesTerms l s && !(op.isOrder && l.req.lacksInvoice))
  (fun _ _ _ => true)

theorem takesCurrent_seesTerms {ch : Choice} {ls : List Label} {s : State}
    (h : takesCurrent.onOp l op ch ls s) : op.seesTerms l s = true :=
  (Bool.and_eq_true_iff.mp h).1

/-- Since a state of the run, a take of the order was completed, with this hold invoice and this
invoice of the buyer. -/
def TakeCompleted (S : System State Label Op Op.Res MostroError Choice Env) (D : Requirement)
    (c₀ c : DaemonState) (id : Uuid) (h : Hash) (invoice : Option PaymentRequest) : Prop :=
  ∃ c₁ c₂ l o allow, S.Run D c₀ c₁ ∧ S.Run D c₂ c ∧
    c₁.AboutTo l (.order (.run (.casCompletePretradeTake o allow))) ∧
    c₂.shared = (OrderUpdate.run l.tid c₁.shared (.casCompletePretradeTake o allow)).1 ∧
    o.id = id ∧ o.hash = some h ∧ o.buyerInvoice = invoice

section

variable {cfg : Settings} {ext : Externals} {c₀ c c' : DaemonState} {e : Event Label Choice Env}

theorem launch_enabled {s : State} (h : l.launch cfg s = some s') : l.req.enabled cfg = true := by
  unfold Label.launch at h
  split at h
  next henabled => exact henabled.2
  · cases h

theorem reach_enabled {init : State → Prop} (hc : (daemon cfg ext).Reach D init c) :
    ∀ l ∈ c.running, l.req.enabled cfg = true :=
  hc.running (P := fun l _ => l.req.enabled cfg = true)
    (fun _ _ _ hl => ⟨launch_enabled hl,fun _ => id⟩) (fun _ _ _ _ _ => id) fun _ _ _ _ _ => id

theorem not_locksCashu {init : State → Prop} (hcashu : cfg.cashu = false)
    (hc : (daemon cfg ext).Reach D init c) (hl : l ∈ c.running) : l.req.locksCashu = false := by
  have henabled := reach_enabled hc l hl
  cases hreq : l.req with
  | message m => cases m <;> simp_all [Request.locksCashu,Request.enabled,Message.handled]
  | _ => rfl

theorem TakeCompleted.step {id : Uuid} {h : Hash} {invoice : Option PaymentRequest}
    (hm : System.Meets D c e) (hs : (daemon cfg ext).step c e = some c')
    (ht : TakeCompleted (daemon cfg ext) D c₀ c id h invoice) :
    TakeCompleted (daemon cfg ext) D c₀ c' id h invoice := by
  obtain ⟨c₁,c₂,l,o,allow,hrun,hrest,ht⟩ := ht
  exact ⟨c₁,c₂,l,o,allow,hrun,hrest.step hm hs,ht⟩

theorem awaiting_completed (hext : ext.Documented)
    (h₀ : (daemon cfg ext).Reach takesCurrent State.Initial c₀) {r₀ : OrderRow}
    (hr₀ : r₀ ∈ c₀.shared.orders) (hlisted : r₀.order.status.isListed = true)
    (hrun : (daemon cfg ext).Run takesCurrent c₀ c) {r : OrderRow} (hr : r ∈ c.shared.orders)
    (hid : r.order.id = r₀.order.id) (hw : r.order.status.isAwaiting = true) {h : Hash}
    (hh : r.order.hash = some h) :
    TakeCompleted (daemon cfg ext) takesCurrent c₀ c r₀.order.id h r.order.buyerInvoice := by
  have hinv := termsAgree_invariant ext (D := takesCurrent) takesCurrent_seesTerms
  induction hrun generalizing r with
  | refl =>
    obtain rfl := (reach_consistent hext h₀).order_unique hr hr₀ hid
    exact nomatch (Status.isAwaiting_not_listed hw).symm.trans hlisted
  | @step c c' e hrun hm hs ih =>
    have hc := h₀.run hrun
    obtain ⟨hcons,hi⟩ := hinv.reach hext hc
    rcases row_step hm hs hr with hold | ⟨l,o,⟨k,ht⟩,rfl⟩ | ⟨l,u,ch,q,⟨k,ht⟩,hd,hexec,hq,hsel,rfl⟩
    · exact (ih hold hid hw hh).step hm hs
    · obtain ⟨Γ,hn,_⟩ := (hinv.upholds hext cfg).about_to hc ht
      exact nomatch hn.1.symm.trans hh
    · obtain ⟨Γ,hn,_⟩ := (hinv.upholds hext cfg).about_to hc ht
      rw [orderUpdate_set_id hsel] at hid
      rcases orderUpdate_awaiting hn (takesCurrent_seesTerms hd) hq (hi.rows q hq) hsel hw hh with
        ⟨hw',hh',hsame,_⟩ | ⟨o,allow,rfl⟩
      · exact hsame ▸ (ih hq hid hw' hh').step hm hs
      · exact ⟨c,c',l,o,allow,hrun,.refl,⟨k,ht⟩,hexec,(orderUpdate_id hsel).symm.trans hid,hh,rfl⟩

/-- Where whole-row writes find the order as their handlers read it and AddInvoice carries a payment
request, an order that becomes active names a hold invoice of its own that was accepted and an
invoice of the buyer: those of the take completed since it was last not taken, or the invoice the
buyer adds here. -/
theorem active_has_current_escrow (hext : ext.Documented) (hcashu : cfg.cashu = false)
    (h₀ : (daemon cfg ext).Reach takesCurrent State.Initial c₀) {r₀ : OrderRow}
    (hr₀ : r₀ ∈ c₀.shared.orders) (hlisted : r₀.order.status.isListed = true)
    (hrun : (daemon cfg ext).Run takesCurrent c₀ c) (hm : System.Meets takesCurrent c e)
    (hs : (daemon cfg ext).step c e = some c') {r r' : OrderRow} (hr : r ∈ c.shared.orders)
    (hr' : r' ∈ c'.shared.orders) (hid₀ : r.order.id = r₀.order.id)
    (hid : r'.order.id = r.order.id) (hbefore : r.order.status ≠ .active)
    (hafter : r'.order.status = .active) :
    ∃ h p i stored, r'.order.hash = some h ∧ r'.order.buyerInvoice = some p ∧
      c.shared.hold? h = some i ∧ i.memo = .escrow r.order.id ∧ i.paid = true ∧
      TakeCompleted (daemon cfg ext) takesCurrent c₀ c r.order.id h stored ∧
      (stored = some p ∨ ∃ l ∈ c.running, ∃ k,
        l.req = .message (.addInvoice r.order.id k (some p)) ∧ r'.order.buyerPubkey = some k) := by
  have hinv := termsAgree_invariant ext (D := takesCurrent) takesCurrent_seesTerms
  have hc := h₀.run hrun
  obtain ⟨hcons,hi⟩ := hinv.reach hext hc
  rcases row_step hm hs hr' with hold | ⟨l,o,_,rfl⟩ | ⟨l,u,ch,q,⟨k,ht⟩,hd,_,hq,hsel,rfl⟩
  · obtain rfl := hcons.order_unique hold hr hid
    exact absurd hafter hbefore
  · exact absurd hid (Nat.ne_of_gt (hcons.orderIds_lt r hr))
  · obtain ⟨Γ,hn,hΓ⟩ := (hinv.upholds hext cfg).about_to hc ht
    rw [orderUpdate_set_id hsel] at hid
    obtain rfl := hcons.order_unique hq hr hid
    have hl : l ∈ c.running := System.running_of_aboutTo ⟨k,ht⟩
    have hlocks := not_locksCashu hcashu hc hl
    have hlacks : l.req.lacksInvoice = false := by
      have := (Bool.and_eq_true_iff.mp hd).2
      simpa [Op.isOrder] using this
    obtain ⟨h,p,ha⟩ := orderUpdate_activates hn hΓ (takesCurrent_seesTerms hd) hlacks hlocks hq
      (hi.rows q hq) hsel hbefore hafter
    obtain ⟨i,hold,hpaid⟩ := ha.paid
    obtain ⟨j,hj,hmemo⟩ := (hcons.escrow q hq).2 h ha.kept
    obtain rfl := Option.some.inj (hj.symm.trans hold)
    refine ⟨h,p,j,q.order.buyerInvoice,ha.hash,ha.invoice,hold,hmemo,hpaid,?_,?_⟩
    · exact hid₀ ▸ awaiting_completed hext h₀ hr₀ hlisted hrun hq hid₀ ha.awaiting ha.kept
    · refine ha.stored.imp_right fun ⟨k,hreq,hk⟩ => ⟨l,hl,k,?_,hk⟩
      rw [hreq,orderUpdate_set_id hsel]

end

/-- Order 1, not taken in `s₀`, becomes active from `s` to `s'`; `p` says what its row then
holds. -/
def activates (p : State → State → Order → Bool) (s₀ s s' : State) : Bool :=
  (s₀.orders.any fun r => r.order.id == 1 && r.order.status.isListed)
    && (s.orders.any fun r => r.order.id == 1 && r.order.status != .active)
    && s'.orders.any fun r => r.order.id == 1 && r.order.status == .active && p s₀ s' r.order

theorem activates_spec {p : State → State → Order → Bool} {s₀ s : State}
    (h : activates p s₀ s s' = true) :
    (∃ r ∈ s₀.orders, r.order.id = 1 ∧ r.order.status.isListed = true) ∧
      (∃ r ∈ s.orders, r.order.id = 1 ∧ r.order.status ≠ .active) ∧
      ∃ r ∈ s'.orders, r.order.id = 1 ∧ r.order.status = .active ∧ p s₀ s' r.order = true := by
  simp only [activates,Bool.and_eq_true,List.any_eq_true,beq_iff_eq,bne_iff_ne] at h
  obtain ⟨⟨h₀,h⟩,r,hr,⟨hid,hst⟩,hp⟩ := h
  exact ⟨h₀,h,r,hr,hid,hst,hp⟩

theorem retaken_order_becomes_active :
    ∃ c₀ c c' r', (daemon plainSettings plainExternals).Reach takesCurrent State.Initial c₀ ∧
      (daemon plainSettings plainExternals).Run takesCurrent c₀ c ∧
      (daemon plainSettings plainExternals).step c (.step 0 .ok) = some c' ∧
      r' ∈ c'.shared.orders ∧ r'.order.status = .active ∧
      ∃ h p i stored, r'.order.hash = some h ∧ r'.order.buyerInvoice = some p ∧
        c.shared.hold? h = some i ∧ i.memo = .escrow 1 ∧ i.paid = true ∧
        TakeCompleted (daemon plainSettings plainExternals) takesCurrent c₀ c 1 h stored ∧
        (stored = some p ∨ ∃ l ∈ c.running, ∃ k,
          l.req = .message (.addInvoice 1 k (some p)) ∧ r'.order.buyerPubkey = some k) := by
  obtain ⟨c₀,c,c',h₀,hrun,hm,hs,hp⟩ := run_step_of_schedules plainSettings plainExternals
    takesCurrent
    (takenSell ++ alone 4 (.message (.cancel 1 8)) 8)
    (alone 5 (.message (.takeSell ⟨1,9,9,none,none,some 51⟩)) 12
      ++ .env (.accept 6 100) :: alone 7 (.escrowInvoice 6) 3)
    (.step 0 .ok) (activates fun _ _ _ => true) (by decide +kernel)
  obtain ⟨⟨r₀,hr₀,hid₀,hlisted⟩,⟨r,hr,hid,hbefore⟩,r',hr',hid',hafter,_⟩ := activates_spec hp
  have := active_has_current_escrow plainExternals_documented rfl h₀ hr₀ hlisted hrun hm hs hr hr'
    (hid.trans hid₀.symm) (hid'.trans hid.symm) hbefore hafter
  exact ⟨c₀,c,c',r',h₀,hrun,hs,hr',hafter,hid ▸ this⟩

/-- The callback of the first hold invoice has read the waiting order when the taker cancels: the
hold invoice is canceled and the order goes back to the book.  The callback then stores its copy,
and the order is active with the canceled hold invoice of the abandoned take. -/
theorem abandoned_take_becomes_active :
    ∃ cfg ext c₀ c c' r₀ r r' h, ext.Documented ∧ cfg.cashu = false ∧
      (daemon cfg ext).Reach System.Demand.none State.Initial c₀ ∧ r₀ ∈ c₀.shared.orders ∧
      r₀.order.status.isListed = true ∧ (daemon cfg ext).Run System.Demand.none c₀ c ∧
      (daemon cfg ext).step c (.step 0 .ok) = some c' ∧ r ∈ c.shared.orders ∧
      r' ∈ c'.shared.orders ∧ r.order.id = r₀.order.id ∧ r'.order.id = r.order.id ∧
      r.order.status ≠ .active ∧ r'.order.status = .active ∧ r'.order.hash = some h ∧
      (r.order.id,h) ∈ c₀.shared.takes ∧ c'.shared.takes = c₀.shared.takes ∧
      c'.shared.holdState h = some .canceled := by
  obtain ⟨c₀,c,c',h₀,hrun,_,hs,hp⟩ := run_step_of_schedules plainSettings plainExternals
    System.Demand.none
    (takenSell ++ .env (.accept 3 100) :: alone 4 (.escrowInvoice 3) 3
      ++ .start ⟨5,.message (.cancel 1 8)⟩ :: steps 1 8)
    [] (.step 0 .ok) (activates fun s₀ s' o => o.hash == some 3 && s₀.takes == [(1,3)]
      && s'.takes == [(1,3)] && s'.holdState 3 == some .canceled) (by decide +kernel)
  obtain ⟨⟨r₀,hr₀,hid₀,hlisted⟩,⟨r,hr,hid,hbefore⟩,r',hr',hid',hafter,hp⟩ := activates_spec hp
  simp only [Bool.and_eq_true,beq_iff_eq] at hp
  obtain ⟨⟨⟨hh,htakes⟩,htakes'⟩,hst⟩ := hp
  refine ⟨_,_,c₀,c,c',r₀,r,r',3,plainExternals_documented,rfl,h₀,hr₀,hlisted,hrun,hs,hr,hr',
    hid.trans hid₀.symm,hid'.trans hid.symm,hbefore,hafter,hh,?_,htakes'.trans htakes.symm,hst⟩
  rw [htakes,hid]
  exact List.mem_singleton.mpr rfl

end Mostro
