import Mostro.EscrowTerms
import Mostro.HandlerOperations
import Mostro.Obligations

set_option autoImplicit false

/-!
The marker of an accepted hold invoice.  The callback that sees the acceptance advances the order
and then stamps `invoice_held_at`: two writes, with a publication before them.  While these land
and the order is not reset or rewritten from an outdated copy in between, an order before its
payment is not stamped, and one that is past it is, or the callback that advanced it is still
running.
-/

namespace Mostro

open Interleaving SqlTable

variable {order row : Order} {id : Uuid} {α : Type}

def Request.escrowHash : Request → Option Hash
  | .escrowInvoice h => some h
  | _ => none

def Op.records : Op → Bool
  | .updateOrderEvent _ _ | .order _ => true
  | _ => false

/-- Whole-row writes find the marker they write.  The stamp is a time after the epoch and finds the
order still naming the callback's hold invoice.  A take is completed over a new hold invoice on an
order that names none, and a cashu escrow is locked on such an order. -/
def OrderUpdate.seesMarker (l : Label) (ls : List Label) (s : State) : OrderUpdate → Bool
  | .update _ row => s.orders.all fun r =>
      r.order.id != row.id || r.order.invoiceHeldAt == row.invoiceHeldAt
  | .updateOrderInvoiceHeldAtTime id time => time != 0 && l.req.escrowHash.isSome
      && s.orders.all fun r => r.order.id != id || r.order.hash == l.req.escrowHash
  | .casCompletePretradeTake o _ =>
      (s.orders.all fun r => r.order.id != o.id || r.order.status != .waitingBuyerInvoice
          || r.order.hash.isNone)
        && o.hash.all fun h => ls.all fun l => l.req.escrowHash != some h
  | .updateOrderCashuEscrow id _ _ _ _ _ => s.orders.all fun r =>
      r.order.id != id || r.order.hash.isNone
  | _ => true

def Op.seesMarker (l : Label) (ls : List Label) (s : State) : Op → Bool
  | .order (.run u) => u.seesMarker l ls s
  | _ => true

/-- What a callback publishes and stores lands, it is not interrupted by a crash, and no handler
writes an outdated copy of the order. -/
abbrev acceptanceLands : Requirement := .check
  (fun l op ch ls s => op.seesTerms l s && op.seesMarker l ls s
    && (ch != .fault || !(l.req.escrowHash.isSome && op.records)))
  (fun e ls _ => !e.isCrash || ls.all fun l => l.req.escrowHash.isNone)

section

variable {l : Label} {op : Op} {ch : Choice} {ls : List Label} {s : State}

theorem acceptanceLands_seesTerms (h : acceptanceLands.onOp l op ch ls s) :
    op.seesTerms l s = true := (Bool.and_eq_true_iff.mp (Bool.and_eq_true_iff.mp h).1).1

theorem acceptanceLands_seesMarker (h : acceptanceLands.onOp l op ch ls s) :
    op.seesMarker l ls s = true := (Bool.and_eq_true_iff.mp (Bool.and_eq_true_iff.mp h).1).2

theorem acceptanceLands_ok {x : Hash} (h : acceptanceLands.onOp l op ch ls s)
    (hl : l.req.escrowHash = some x) (hop : op.records = true) : ch ≠ .fault := by
  have := (Bool.and_eq_true_iff.mp h).2
  simpa [hl,hop] using this

theorem seesMarker_update {read : Order} {r : OrderRow}
    (h : (OrderUpdate.update read row).seesMarker l ls s = true) (hr : r ∈ s.orders)
    (hid : r.order.id = row.id) : r.order.invoiceHeldAt = row.invoiceHeldAt := by
  have := List.all_eq_true.mp h r hr
  simpa [hid] using this

theorem seesMarker_stamp {time : Int} {r : OrderRow}
    (h : (OrderUpdate.updateOrderInvoiceHeldAtTime id time).seesMarker l ls s = true)
    (hr : r ∈ s.orders) (hid : r.order.id = id) :
    time ≠ 0 ∧ ∃ x, l.req.escrowHash = some x ∧ r.order.hash = some x := by
  simp only [OrderUpdate.seesMarker,Bool.and_eq_true,List.all_eq_true,bne_iff_ne] at h
  obtain ⟨⟨htime,hsome⟩,hrows⟩ := h
  obtain ⟨x,hx⟩ := Option.isSome_iff_exists.mp hsome
  refine ⟨htime,x,hx,?_⟩
  simpa [hid,hx] using hrows r hr

theorem seesMarker_take {o : Order} {allow : Bool} {r : OrderRow}
    (h : (OrderUpdate.casCompletePretradeTake o allow).seesMarker l ls s = true)
    (hr : r ∈ s.orders) (hid : r.order.id = o.id) :
    (r.order.status = .waitingBuyerInvoice → r.order.hash = none) ∧
      ∀ x, o.hash = some x → ∀ l' ∈ ls, l'.req.escrowHash ≠ some x := by
  simp only [OrderUpdate.seesMarker,Bool.and_eq_true,List.all_eq_true] at h
  refine ⟨fun hst => ?_,fun x hx l' hl => ?_⟩
  · simpa [hid,hst] using h.1 r hr
  · have := h.2
    simp only [hx,Option.all_some,List.all_eq_true,bne_iff_ne] at this
    exact this l' hl

end

def PastPayment (id : Uuid) (h : Hash) (s : State) : Prop :=
  ∀ r ∈ s.orders, r.order.id = id → r.order.hash = some h → r.order.status ≠ .waitingPayment

abbrev acceptanceKnown : Requirement :=
  acceptanceLands.given fun l op _ s => TermsKnowing l op s

theorem acceptanceKnown_of_reach {cfg : Settings} {ext : Externals} (hext : ext.Documented)
    {c : DaemonState} (hc : (daemon cfg ext).Reach acceptanceLands State.Initial c) :
    (daemon cfg ext).Reach acceptanceKnown State.Initial c :=
  hc.given fun _ hc _ _ hnext => reach_termsKnowing acceptanceLands_seesTerms hext hc hnext

theorem pastPayment_effect {l l' : Label} {op : Op} {ch : Choice} {ls : List Label} {s s' : State}
    {h : Hash} (hl : l' ∈ ls) (hreq : l'.req.escrowHash = some h)
    (hd : acceptanceKnown.onOp l op ch ls s) (he : Effect l.tid op s s') (hp : PastPayment id h s) :
    PastPayment id h s' := by
  obtain ⟨hlands,hk⟩ := hd
  intro r hr hid hh hst
  have hsame : r ∈ s.orders → False := fun hold => hp r hold hid hh hst
  rcases he.rows with hrows | ⟨st,rfl,rfl⟩ | ⟨st,_,rfl⟩
  · exact hsame (hrows.orders ▸ hr)
  · obtain ⟨Γ,hn,_⟩ := hk.need
    cases st with
    | create o =>
      rcases List.mem_append.mp hr with hr | hr
      · exact hsame hr
      · rw [List.mem_singleton.mp hr] at hh
        exact nomatch hn.1.symm.trans hh
    | run u =>
      obtain ⟨q,hq,rfl⟩ := mem_updateWhere.mp hr
      split at hid
      next hsel =>
        rw [if_pos hsel] at hh hst
        rcases orderUpdate_awaiting hn (acceptanceLands_seesTerms hlands) hq (hk.agree.rows q hq)
          hsel (by rw [hst]; rfl) hh with ⟨_,hh',_,hst'⟩ | ⟨o,allow,rfl⟩
        · exact hp q hq ((orderUpdate_set_id hsel).symm.trans hid) hh' (hst' hst)
        · have hsee : (OrderUpdate.casCompletePretradeTake o allow).seesMarker l ls s = true :=
            acceptanceLands_seesMarker hlands
          exact (seesMarker_take hsee hq (orderUpdate_id hsel)).2 h hh l' hl hreq
      next hsel =>
        rw [if_neg hsel] at hh hst
        exact hp q hq hid hh hst
    | deleteStranded x => exact hsame (List.mem_of_mem_filter hr)
  · exact hsame (bondStmt_orders st s ▸ hr)

def Status.isHeld : Status → Bool
  | .waitingBuyerInvoice | .active | .fiatSent => true
  | _ => false

def Order.Unstamped (o : Order) (h : Hash) : Prop :=
  o.hash = some h ∧ o.status.isHeld = true ∧ o.invoiceHeldAt = 0

def StampDue (δ : Uuid × Hash) (s : State) : Prop :=
  ∃ r ∈ s.orders, r.order.id = δ.1 ∧ r.order.Unstamped δ.2

def Op.advances (id : Uuid) : Op → Bool
  | .order (.run (.update _ row)) => row.id == id && row.status.isHeld
  | _ => false

theorem proceeds_held {st st' : Status} (h : st.Proceeds st') (hh : st'.isHeld = true) :
    st.isHeld = true := by
  rcases h with rfl | ⟨rfl,rfl⟩ | ⟨rfl | rfl,rfl⟩
  · exact hh
  all_goals rfl

section

variable {l : Label} {Γ : Set Fact} {ls : List Label} {s : State} {r : OrderRow} {h : Hash}

theorem RowWrite.unstamped {read : Order} (hn : RowWrite l.req Γ read row)
    (hsee : SeesRow l.req.isTimeoutJob read row r.order)
    (hheld : r.order.invoiceHeldAt = row.invoiceHeldAt) (hu : row.Unstamped h) :
    r.order.Unstamped h ∨ l.req.escrowHash = some h := by
  obtain ⟨hh,hst,hzero⟩ := hu
  have hsame (hs : read.status.isHeld = true) : r.order.Unstamped h :=
    ⟨hsee.hash.trans hh,hsee.status ▸ hs,hheld.trans hzero⟩
  cases hn.edit with
  | closes hclosed => cases hs : row.status <;> simp_all [Status.isClosed,Status.isHeld]
  | lists _ hpending => simp [hpending,Status.isHeld] at hst
  | proceeds _ _ hproceeds => exact .inl (hsame (proceeds_held hproceeds hst))
  | invoice _ hread => exact .inl (hsame (by rw [hread]; rfl))
  | paid hreq _ hhash _ _ hterms _ =>
    have hrow : row.hash = read.hash := congrArg EscrowTerms.hash hterms
    exact .inr (by rw [hreq]; exact hhash.symm.trans (hrow.symm.trans hh))

theorem orderUpdate_unstamped {u : OrderUpdate} (hn : u.need l.req Γ)
    (hΓ : ∀ f ∈ Γ, f.Lasts s ∧ TermsKnown s f) (hd : u.seesTerms l.req.isTimeoutJob s = true)
    (hm : u.seesMarker l ls s = true) (hr : r ∈ s.orders) (hrow : RowAgrees s r.order)
    (hsel : u.selects s r = true) (hu : (u.set r).order.Unstamped h) :
    r.order.Unstamped h ∨ (l.req.escrowHash = some h ∧ ∃ read row, u = .update read row) := by
  have hguard : u.guard s r = true := (Bool.and_eq_true_iff.mp hsel).2
  have hid := orderUpdate_id hsel
  have hnone : r.order.status.isListed = true → r.order.hash = some h → False :=
    fun hl hh => nomatch (hrow.listed hl).symm.trans hh
  cases u with
  | update read row =>
    exact (RowWrite.unstamped hn (seesTerms_row hd hr hid) (seesMarker_update hm hr hid)
      hu).imp_right
      fun hreq => ⟨hreq,read,row,rfl⟩
  | casCompletePretradeTake o allow =>
    obtain ⟨hh,hst,_⟩ := hu
    rcases hn.1 with hw | hw
    · have hst' : ((OrderUpdate.casCompletePretradeTake o allow).set r).order.status
          = .waitingPayment := hw
      simp [hst',Status.isHeld] at hst
    · obtain ⟨x,hx,hl,_,hsame⟩ := hn.2.2.1.2 hw
      have hh : o.hash = some h := hh
      cases ((hΓ _ hx).2 hl).symm.trans (hsame.trans hh)
  | updateOrderInvoiceHeldAtTime id time =>
    exact absurd hu.2.2 (seesMarker_stamp hm hr hid).1
  | updateOrderCashuEscrow id mint token t expected new =>
    have := List.all_eq_true.mp hm r hr
    have hh : r.order.hash = some h := hu.1
    simp [show r.order.id = id from hid,hh] at this
  | casPretradeOrderStatus id new => exact (hnone (pretrade_isListed hguard) hu.1).elim
  | casPromoteTakerContext o =>
    have hst : ((OrderUpdate.casPromoteTakerContext o).set r).order.status = r.order.status := by
      simp only [OrderUpdate.set]
      split <;> rfl
    have hl := pretrade_isListed hguard
    have hheld := hu.2.1
    rw [hst] at hheld
    cases hs : r.order.status <;> simp_all [Status.isListed,Status.isHeld]
  | editPubkeysOrder id kind => cases kind <;> exact .inl hu
  | updateOrderToInitialState | claimWaitingTakerBond | claimDeferredPublication
  | dropWaitingTakerBondToPending | settleFromRelease | settleFromAdmin | paymentSuccess =>
    cases hu.2.1
  | claimOrderStatus id expected new =>
    obtain ⟨_,rfl⟩ := hn
    cases hu.2.1
  | _ => exact .inl hu

theorem stampDue_effect {op : Op} {ch : Choice} {s' : State} {δ : Uuid × Hash}
    (hd : acceptanceKnown.onOp l op ch ls s) (he : Effect l.tid op s s') (hδ : StampDue δ s') :
    StampDue δ s ∨ (l.req.escrowHash = some δ.2 ∧ op.advances δ.1 = true) := by
  obtain ⟨hlands,hk⟩ := hd
  obtain ⟨r,hr,hid,hu⟩ := hδ
  have hsame : r ∈ s.orders → StampDue δ s := fun hold => ⟨r,hold,hid,hu⟩
  rcases he.rows with hrows | ⟨st,rfl,rfl⟩ | ⟨st,_,rfl⟩
  · exact .inl (hsame (hrows.orders ▸ hr))
  · obtain ⟨Γ,hn,hΓ⟩ := hk.need
    cases st with
    | create o =>
      rcases List.mem_append.mp hr with hr | hr
      · exact .inl (hsame hr)
      · rw [List.mem_singleton.mp hr] at hu
        exact nomatch hn.1.symm.trans hu.1
    | run u =>
      obtain ⟨q,hq,rfl⟩ := mem_updateWhere.mp hr
      split at hid
      next hsel =>
        rw [if_pos hsel] at hu
        rcases orderUpdate_unstamped hn hΓ (acceptanceLands_seesTerms hlands)
          (acceptanceLands_seesMarker hlands) hq (hk.agree.rows q hq) hsel hu with
          hold | ⟨hreq,read,row,rfl⟩
        · exact .inl ⟨q,hq,(orderUpdate_set_id hsel).symm.trans hid,hold⟩
        · have hheld : row.status.isHeld = true := hu.2.1
          exact .inr ⟨hreq,by simp [Op.advances,show row.id = δ.1 from hid,hheld]⟩
      next hsel =>
        rw [if_neg hsel] at hu
        exact .inl ⟨q,hq,hid,hu⟩
    | deleteStranded x => exact .inl (hsame (List.mem_of_mem_filter hr))
  · exact .inl (hsame (bondStmt_orders st s ▸ hr))

end

def stampHeld (id : Uuid) : M Unit := do
  let now ← timestamp
  let _ ← runOrder (.updateOrderInvoiceHeldAtTime id now)
  pure ()

def recordAcceptance (order : Order) (advanced : Order × Status) : M Unit := do
  match ← (updateOrderEvent advanced.2 advanced.1).attempt with
  | .ok updated => (updateOrder order updated).ignore
  | .error _ => pure ()
  stampHeld order.id

theorem updateOrder_ignore_bind (read row : Order) (f : Unit → M α) :
    (updateOrder read row).ignore.bind f
      = (ask (.order (.run (.update read row)))).attempt.bind fun _ => f () := by
  rw [Prog.ignore_bind,updateOrder,Prog.attempt_bind]
  refine congrArg _ (funext fun r => ?_)
  cases r <;> rfl

theorem stamp_unstamped {tid : Nat} {s : State} {h : Hash} {time : Int} (ht : time ≠ 0) :
    ¬ StampDue (id,h) (OrderUpdate.run tid s (.updateOrderInvoiceHeldAtTime id time)).1 := by
  rintro ⟨r,hr,hid,hu⟩
  obtain ⟨q,hq,rfl⟩ := mem_updateWhere.mp hr
  split at hu
  · exact ht hu.2.2
  next hsel =>
    rw [if_neg hsel] at hid
    exact hsel (by simp [OrderUpdate.selects,OrderUpdate.guard,OrderUpdate.target,hid])

section

variable {cfg : Settings} {ext : Externals} {l : Label} {h : Hash}

abbrev StampHonest (cfg : Settings) (ext : Externals) (l : Label) (p : M Unit) (s : State) : Prop :=
  (daemon cfg ext).Honest acceptanceKnown Contract.free StampDue
    (fun δ l => l.req.escrowHash = some δ.2) l p s

theorem stampHeld_sat (hl : l.req.escrowHash = some h) (id : Uuid) (s : State) :
    (daemon cfg ext).Sat acceptanceKnown Contract.free l (stampHeld id)
      (fun _ s => ¬ StampDue (id,h) s) s := by
  refine sat_ask_bind (T := fun _ => True) trivial (fun _ _ _ h => h) fun s ls _ _ =>
    ⟨trivial,fun ch hd => ⟨fun now _ => ?_,nofun⟩⟩
  refine sat_ask_bind (T := fun _ => True) trivial (fun _ _ _ h => h) fun s ls _ _ =>
    ⟨trivial,fun ch hd => ?_⟩
  have hland : ¬ StampDue (id,h)
      (exec ext l.tid (.order (.run (.updateOrderInvoiceHeldAtTime id now))) ch s).1 := by
    rw [exec_order_of_ne (acceptanceLands_ok hd.1 hl rfl)]
    refine stamp_unstamped ?_
    have := acceptanceLands_seesMarker hd.1
    simp only [Op.seesMarker,OrderUpdate.seesMarker,Bool.and_eq_true,bne_iff_ne] at this
    exact this.1.1
  exact ⟨fun _ _ => hland,fun _ _ => hland⟩

theorem stampDue_quiet {op : Op} {ch : Choice} {ls : List Label} {s : State}
    (hop : ∀ id, op.advances id = false) (hd : acceptanceKnown.onOp l op ch ls s) (δ : Uuid × Hash)
    (hδ : StampDue δ (exec ext l.tid op ch s).1) : StampDue δ s := by
  refine (stampDue_effect hd (exec_effect ext l.tid op ch s) hδ).resolve_right fun h => ?_
  exact nomatch (hop δ.1).symm.trans h.2

theorem stampHonest_bind {p : M α} {f : α → M Unit} {s : State}
    (hp : p.Only fun op => ∀ id, op.advances id = false) (hf : ∀ a s, StampHonest cfg ext l (f a) s) :
    StampHonest cfg ext l (p.bind f) s :=
  System.Honest.bind_only hp (fun _ _ _ _ hop _ hd => stampDue_quiet hop hd) hf

theorem stampHeld_honest (id : Uuid) (s : State) : StampHonest cfg ext l (stampHeld id) s :=
  stampHonest_bind (ask_only fun _ => rfl) fun _ _ =>
    stampHonest_bind (ask_only fun _ => rfl) fun _ _ => trivial

theorem advance_honest (hid : row.id = order.id) (s : State) :
    StampHonest cfg ext l ((updateOrder order row).ignore.bind fun _ => stampHeld order.id) s := by
  rw [updateOrder_ignore_bind]
  refine honest_ask_attempt_bind (T := fun _ => True) trivial (fun _ _ _ h => h)
    fun s ls _ _ ch hd => ⟨fun δ hδ => ?_,stampHeld_honest order.id _⟩
  rcases stampDue_effect hd (exec_effect ext l.tid _ ch s) hδ with hold | ⟨hreq,hadv⟩
  · exact .inl hold
  · simp only [Op.advances,Bool.and_eq_true,beq_iff_eq] at hadv
    rw [← hid,hadv.1]
    exact .inr ⟨hreq,stampHeld_sat hreq δ.1 _⟩

theorem recordAcceptance_honest {advanced : Order × Status} (hid : advanced.1.id = order.id)
    (s : State) : StampHonest cfg ext l (recordAcceptance order advanced) s := by
  unfold recordAcceptance
  rw [Prog.bind_eq,updateOrderEvent,Prog.attempt_bind]
  have hid' : ({ advanced.1 with status := advanced.2 } : Order).id = order.id := hid
  refine stampHonest_bind (ask_only fun _ => rfl).attempt fun r s => ?_
  cases r with
  | ok _ => exact advance_honest hid' s
  | error e => exact stampHeld_honest order.id s

theorem holdInvoicePaid_honest (hash : Hash) (s : State) :
    StampHonest cfg ext l (holdInvoicePaid hash) s := by
  unfold holdInvoicePaid
  refine stampHonest_bind (findOrderByHash_only ⟨fun _ _ => rfl,fun _ => rfl⟩ hash)
    fun order s => ?_
  have hactive : ((order,Status.active) : Order × Status).1.id = order.id := rfl
  have hwaiting (now : Int) : (({ order with takenAt := now },Status.waitingBuyerInvoice) :
    Order × Status).1.id = order.id := rfl
  split
  · refine stampHonest_bind require_only fun _ s => stampHonest_bind require_only fun _ s => ?_
    split
    · exact recordAcceptance_honest hactive s
    · rw [setTimestampNow,Prog.bind_eq,Prog.bind_assoc]
      refine stampHonest_bind (ask_only fun _ => rfl) fun now s => ?_
      rw [Prog.ret_bind]
      refine stampHonest_bind (ask_only fun _ => rfl) fun _ s => ?_
      exact recordAcceptance_honest (hwaiting now) s
  · trivial

theorem holdInvoiceCanceled_quiet (cfg : Settings) (hash : Hash) :
    (holdInvoiceCanceled cfg hash).Only fun op => ∀ id, op.advances id = false :=
  holdInvoiceCanceled_only ⟨fun _ _ => rfl,fun _ => rfl⟩ (fun _ _ => rfl)
    (fun _ row hst _ => by simp [Op.advances,hst,Status.isHeld]) cfg hash

theorem escrowInvoiceMessage_honest (hash : Hash) (s : State) :
    StampHonest cfg ext l (escrowInvoiceMessage cfg hash) s := by
  unfold escrowInvoiceMessage
  refine stampHonest_bind (ask_only fun _ => rfl) fun update s => ?_
  cases update with
  | accepted => exact holdInvoicePaid_honest hash s
  | canceled =>
    exact System.Honest.of_only (holdInvoiceCanceled_quiet cfg hash)
      fun _ _ _ _ hop _ hd => stampDue_quiet hop hd
  | settled | opened => trivial

end

theorem stamps_paid (cfg : Settings) (ext : Externals) :
    System.Pays (daemon cfg ext) acceptanceKnown Contract.free StampDue
      (fun δ l => l.req.escrowHash = some δ.2) State.Initial where
  rely_refl _ _ := trivial
  rely_trans _ _ _ _ _ _ := trivial
  init s hs := by
    obtain ⟨now,height,rfl⟩ := hs
    rintro δ ⟨r,hr,_⟩
    cases hr
  start l s s' hl := by
    refine ⟨fun _ => trivial,fun δ hδ => ?_⟩
    obtain ⟨r,hr,h⟩ := hδ
    exact ⟨r,(launch_rowsKept hl).orders ▸ hr,h⟩
  code l s s' hl := by
    obtain ⟨tid,req⟩ := l
    cases req with
    | escrowInvoice hash => exact escrowInvoiceMessage_honest hash s'
    | _ =>
      refine System.Honest.of_quiet (fun op ch ls s _ hd δ hδ => ?_) _ _
      refine (stampDue_effect hd (exec_effect ext tid op ch s) hδ).resolve_right fun h => ?_
      exact nomatch h.1
  other _ _ _ _ _ _ _ _ _ _ _ := trivial
  env e ls s s' hd he := by
    refine ⟨fun δ hδ => ?_,fun _ _ _ => trivial,fun hk δ _ l hl hreq => ?_⟩
    · obtain ⟨r,hr,h⟩ := hδ
      exact ⟨r,(env_moves he).rowsKept.orders ▸ hr,h⟩
    · have hk : e.isCrash = true := hk
      have hd : (!e.isCrash || ls.all fun l => l.req.escrowHash.isNone) = true := hd
      simp only [hk,Bool.not_true,Bool.false_or,List.all_eq_true] at hd
      simpa [hreq] using hd l hl

section

variable {cfg : Settings} {ext : Externals} {l : Label} {h : Hash}

def KeepsPastPayment (l : Label) (s s' : State) : Prop :=
  ∀ id h, l.req.escrowHash = some h → PastPayment id h s → PastPayment id h s'

def StampsPast (l : Label) (op : Op) (s : State) : Prop :=
  match op with
  | .order (.run (.updateOrderInvoiceHeldAtTime id _)) =>
      ∀ h, l.req.escrowHash = some h → PastPayment id h s
  | _ => True

abbrev stampContract : Contract State Label Op :=
  watching (fun l => l.req.escrowHash.isSome = true) KeepsPastPayment StampsPast

def Op.stamps : Op → Bool
  | .order (.run (.updateOrderInvoiceHeldAtTime _ _)) => true
  | _ => false

theorem reads_unstamping : Reads fun op => op.stamps = false := ⟨fun _ => rfl,rfl⟩

theorem stampsPast_of_not {op : Op} {s : State} (hop : op.stamps = false) : StampsPast l op s := by
  unfold StampsPast
  split
  · cases hop
  · trivial

theorem stampsPast_of_none {op : Op} {s : State} (hl : l.req.escrowHash = none) :
    StampsPast l op s := by
  unfold StampsPast
  split
  · exact fun h hh => nomatch hl.symm.trans hh
  · trivial

theorem stampSat_bind {β : Type} {p : M α} {f : α → M β} {s : State}
    (hp : p.Only fun op => op.stamps = false)
    (hf : ∀ a s, (daemon cfg ext).Sat acceptanceKnown stampContract l (f a) (fun _ _ => True) s) :
    (daemon cfg ext).Sat acceptanceKnown stampContract l (p.bind f) (fun _ _ => True) s := by
  refine System.Sat.bind
    ((System.Sat.of_only (T := fun _ => True) hp trivial (fun _ _ _ _ => trivial)
    fun op ls s hop _ _ => ⟨stampsPast_of_not hop,fun _ _ => trivial⟩).mono fun r s _ => ?_)
  cases r with
  | ok a => exact hf a s
  | error e => trivial

theorem stampSat_only {p : M α} {s : State} (hp : p.Only fun op => op.stamps = false) :
    (daemon cfg ext).Sat acceptanceKnown stampContract l p (fun _ _ => True) s :=
  System.Sat.of_only (T := fun _ => True) hp trivial (fun _ _ _ _ => trivial)
    fun _ _ _ hop _ _ => ⟨stampsPast_of_not hop,fun _ _ => trivial⟩

theorem stampHeld_past (hl : l.req.escrowHash = some h) {s : State} (hs : PastPayment id h s) :
    (daemon cfg ext).Sat acceptanceKnown stampContract l (stampHeld id) (fun _ _ => True) s := by
  refine sat_ask_bind (T := PastPayment id h) hs (fun s s' hr => hr id h hl) fun s ls hs _ =>
    ⟨trivial,fun ch hd => ⟨fun now _ => ?_,fun _ _ => trivial⟩⟩
  refine sat_ask_bind (T := PastPayment id h) hs (fun s s' hr => hr id h hl) fun s ls hs _ =>
    ⟨fun x hx => ?_,fun ch hd => ⟨fun _ _ => trivial,fun _ _ => trivial⟩⟩
  obtain rfl := Option.some.inj (hl.symm.trans hx)
  exact hs

theorem pastPayment_advanced {tid : Nat} {s : State} (hst : row.status ≠ .waitingPayment) :
    PastPayment row.id h (OrderUpdate.run tid s (.update order row)).1 := by
  intro r hr hid hh
  obtain ⟨q,hq,rfl⟩ := mem_updateWhere.mp hr
  split at hid
  next hsel =>
    rw [if_pos hsel]
    exact hst
  next hsel =>
    exact absurd (by simp [OrderUpdate.selects,OrderUpdate.guard,OrderUpdate.target,hid]) hsel

theorem recordAcceptance_past (hl : l.req.escrowHash = some h) {advanced : Order × Status}
    (hid : advanced.1.id = order.id) (hst : advanced.2 ≠ .waitingPayment) (s : State) :
    (daemon cfg ext).Sat acceptanceKnown stampContract l (recordAcceptance order advanced)
      (fun _ _ => True) s := by
  unfold recordAcceptance
  rw [Prog.bind_eq,updateOrderEvent,Prog.attempt_bind]
  refine sat_ask_attempt_bind (T := fun _ => True) trivial (fun _ _ _ h => h) fun s ls _ _ =>
    ⟨trivial,fun ch hd => ?_⟩
  have hok : (exec ext l.tid (.updateOrderEvent advanced.1.id advanced.2) ch s).2 = .ok () := by
    simp [exec,acceptanceLands_ok hd.1 hl rfl]
  rw [hok]
  show (daemon cfg ext).Sat acceptanceKnown stampContract l
    ((updateOrder order { advanced.1 with status := advanced.2 }).ignore.bind fun _ =>
      stampHeld order.id) _ _
  rw [updateOrder_ignore_bind]
  refine sat_ask_attempt_bind (T := fun _ => True) trivial (fun _ _ _ h => h) fun s ls _ _ =>
    ⟨trivial,fun ch hd => ?_⟩
  rw [exec_order_of_ne (acceptanceLands_ok hd.1 hl rfl)]
  refine stampHeld_past hl (hid ▸ ?_)
  exact pastPayment_advanced hst

theorem holdInvoicePaid_past (hl : l.req.escrowHash = some h) (hash : Hash) (s : State) :
    (daemon cfg ext).Sat acceptanceKnown stampContract l (holdInvoicePaid hash)
      (fun _ _ => True) s := by
  unfold holdInvoicePaid
  refine stampSat_bind (findOrderByHash_only reads_unstamping hash) fun order s => ?_
  have hactive : ((order,Status.active) : Order × Status).1.id = order.id := rfl
  have hwaiting (now : Int) : (({ order with takenAt := now },Status.waitingBuyerInvoice) :
    Order × Status).1.id = order.id := rfl
  split
  · refine stampSat_bind require_only fun _ s => stampSat_bind require_only fun _ s => ?_
    split
    · exact recordAcceptance_past hl hactive nofun s
    · rw [setTimestampNow,Prog.bind_eq,Prog.bind_assoc]
      refine stampSat_bind (ask_only rfl) fun now s => ?_
      rw [Prog.ret_bind]
      refine stampSat_bind (ask_only rfl) fun _ s => ?_
      exact recordAcceptance_past hl (hwaiting now) nofun s
  · trivial

theorem escrowInvoiceMessage_past (hl : l.req.escrowHash = some h) (hash : Hash) (s : State) :
    (daemon cfg ext).Sat acceptanceKnown stampContract l (escrowInvoiceMessage cfg hash)
      (fun _ _ => True) s := by
  unfold escrowInvoiceMessage
  refine stampSat_bind (ask_only rfl) fun update s => ?_
  cases update with
  | accepted => exact holdInvoicePaid_past hl hash s
  | canceled =>
    exact stampSat_only (holdInvoiceCanceled_only reads_unstamping (fun _ => rfl)
      (fun _ _ _ => rfl) cfg hash)
  | settled | opened => trivial

end

theorem stamps_watched (cfg : Settings) (ext : Externals) :
    Watched cfg ext acceptanceKnown (fun l => l.req.escrowHash.isSome = true) KeepsPastPayment
      StampsPast where
  refl _ _ _ _ _ h := h
  trans _ _ _ _ h₁ h₂ id x hx hp := h₂ id x hx (h₁ id x hx hp)
  launch l s s' hl _ _ _ _ _ hp := by
    intro r hr
    exact hp r ((launch_rowsKept hl).orders ▸ hr)
  other l l' op ch ls s _ hl _ _ hd he _ _ hx hp := pastPayment_effect hl hx hd he hp
  env e ls s s' _ he _ _ _ _ _ _ hp := by
    intro r hr
    exact hp r (he.rowsKept.orders ▸ hr)
  code l s hb := by
    obtain ⟨tid,req⟩ := l
    cases req with
    | escrowInvoice hash => exact escrowInvoiceMessage_past rfl hash s
    | _ => cases hb

def Order.awaitsEscrow (o : Order) : Bool :=
  o.status.isListed || o.status == .waitingPayment
    || (o.status == .waitingBuyerInvoice && o.hash.isNone)

def Unmarked (s : State) : Prop :=
  ∀ r ∈ s.orders, r.order.awaitsEscrow = true → r.order.invoiceHeldAt = 0

abbrev stampsKnown : Requirement := acceptanceKnown.given fun l op _ s => StampsPast l op s

theorem awaitsEscrow_listed {o : Order} (h : o.status.isListed = true) : o.awaitsEscrow = true := by
  simp [Order.awaitsEscrow,h]

theorem awaitsEscrow_congr {o o' : Order} (hst : o'.status = o.status) (hh : o'.hash = o.hash) :
    o'.awaitsEscrow = o.awaitsEscrow := by
  simp [Order.awaitsEscrow,hst,hh]

section

variable {l : Label} {Γ : Set Fact} {ls : List Label} {s : State} {r : OrderRow}

theorem RowWrite.unmarked {read : Order} (hn : RowWrite l.req Γ read row)
    (hsee : SeesRow l.req.isTimeoutJob read row r.order)
    (hheld : r.order.invoiceHeldAt = row.invoiceHeldAt)
    (hrow : r.order.awaitsEscrow = true → r.order.invoiceHeldAt = 0) (ha : row.awaitsEscrow = true) :
    row.invoiceHeldAt = 0 := by
  have hsame (hst : row.status = read.status) : row.invoiceHeldAt = 0 := by
    refine hheld.symm.trans (hrow ?_)
    rw [awaitsEscrow_congr (hsee.status.trans hst.symm) hsee.hash]
    exact ha
  cases hn.edit with
  | closes hclosed =>
    cases hst : row.status <;> simp_all [Status.isClosed,Order.awaitsEscrow,Status.isListed]
  | lists _ hpending => exact hsame (hpending.trans (hsee.lists hpending).symm)
  | proceeds _ _ hproceeds =>
    rcases hproceeds with hst | ⟨_,hst⟩ | ⟨_,hst⟩
    · exact hsame hst
    all_goals simp [Order.awaitsEscrow,Status.isListed,hst] at ha
  | invoice => simp [Order.awaitsEscrow,Status.isListed] at ha
  | paid _ _ hhash _ _ hterms hst =>
    have hrow : row.hash = read.hash := congrArg EscrowTerms.hash hterms
    rw [Order.awaitsEscrow,hst,hrow,hhash] at ha
    split at ha <;> cases ha

theorem orderUpdate_unmarked {u : OrderUpdate} (hn : u.need l.req Γ)
    (hd : u.seesTerms l.req.isTimeoutJob s = true) (hm : u.seesMarker l ls s = true)
    (hp : StampsPast l (.order (.run u)) s) (hr : r ∈ s.orders) (hagree : RowAgrees s r.order)
    (hrow : r.order.awaitsEscrow = true → r.order.invoiceHeldAt = 0) (hsel : u.selects s r = true)
    (ha : (u.set r).order.awaitsEscrow = true) : (u.set r).order.invoiceHeldAt = 0 := by
  have hguard : u.guard s r = true := (Bool.and_eq_true_iff.mp hsel).2
  have hid := orderUpdate_id hsel
  have hlisted (hl : r.order.status.isListed = true) : r.order.invoiceHeldAt = 0 :=
    hrow (awaitsEscrow_listed hl)
  cases u with
  | update read row =>
    exact RowWrite.unmarked hn (seesTerms_row hd hr hid) (seesMarker_update hm hr hid) hrow ha
  | updateOrderInvoiceHeldAtTime id time =>
    obtain ⟨_,x,hx,hh⟩ := seesMarker_stamp hm hr hid
    have hpast := hp x hx r hr hid hh
    have hnot : r.order.status.isListed = false := by
      cases hl : r.order.status.isListed with
      | false => rfl
      | true => exact nomatch (hagree.listed hl).symm.trans hh
    have ha : r.order.awaitsEscrow = true := ha
    simp [Order.awaitsEscrow,hnot,hpast,hh] at ha
  | casCompletePretradeTake o allow =>
    have hheld : r.order.invoiceHeldAt = 0 := by
      simp only [OrderUpdate.guard,Bool.or_eq_true,Bool.and_eq_true,beq_iff_eq] at hguard
      rcases hguard with hl | ⟨_,hw⟩
      · exact hlisted (pretrade_isListed hl)
      · refine hrow ?_
        simp [Order.awaitsEscrow,hw,(seesMarker_take hm hr hid).1 hw]
    exact hheld
  | updateOrderToInitialState => rfl
  | casPretradeOrderStatus => exact hlisted (pretrade_isListed hguard)
  | casPromoteTakerContext o =>
    have hheld := hlisted (pretrade_isListed hguard)
    simp only [OrderUpdate.set]
    split <;> exact hheld
  | claimOrderStatus id expected new =>
    obtain ⟨rfl,rfl⟩ := hn
    simp only [OrderUpdate.guard,Bool.and_eq_true,beq_iff_eq] at hguard
    exact hlisted (by rw [hguard.1]; rfl)
  | claimWaitingTakerBond | claimDeferredPublication =>
    exact hlisted (by rw [beq_iff_eq.mp hguard]; rfl)
  | dropWaitingTakerBondToPending =>
    exact hlisted (by rw [beq_iff_eq.mp (Bool.and_eq_true_iff.mp hguard).1]; rfl)
  | updateOrderCashuEscrow id mint token t expected new =>
    obtain ⟨_,rfl,_⟩ := hn
    cases ha
  | settleFromRelease | settleFromAdmin | paymentSuccess => cases ha
  | editPubkeysOrder id kind => cases kind <;> exact hrow ha
  | _ => exact hrow ha

end

theorem unmarked_effect {l : Label} {op : Op} {ch : Choice} {ls : List Label} {s s' : State}
    (hd : stampsKnown.onOp l op ch ls s) (he : Effect l.tid op s s') (hi : Unmarked s) :
    Unmarked s' := by
  obtain ⟨⟨hlands,hk⟩,hp⟩ := hd
  intro r hr ha
  rcases he.rows with hrows | ⟨st,rfl,rfl⟩ | ⟨st,_,rfl⟩
  · exact hi r (hrows.orders ▸ hr) ha
  · obtain ⟨Γ,hn,_⟩ := hk.need
    cases st with
    | create o =>
      rcases List.mem_append.mp hr with hr | hr
      · exact hi r hr ha
      · rw [List.mem_singleton.mp hr]
        exact hn.2.2.2.2.1
    | run u =>
      obtain ⟨q,hq,rfl⟩ := mem_updateWhere.mp hr
      split
      next hsel =>
        rw [if_pos hsel] at ha
        exact orderUpdate_unmarked hn (acceptanceLands_seesTerms hlands)
          (acceptanceLands_seesMarker hlands) hp hq (hk.agree.rows q hq) (hi q hq) hsel ha
      next hsel =>
        rw [if_neg hsel] at ha
        exact hi q hq ha
    | deleteStranded x => exact hi r (List.mem_of_mem_filter hr) ha
  · exact hi r (bondStmt_orders st s ▸ hr) ha

theorem unmarked_invariant (ext : Externals) :
    StepInvariant ext stampsKnown Unmarked (fun _ _ _ => True) where
  init s hs := by
    obtain ⟨now,height,rfl⟩ := hs
    exact fun r hr => by simp at hr
  launch cfg l s s' _ hi hl :=
    ⟨fun r hr => hi r ((launch_rowsKept hl).orders ▸ hr),fun _ _ _ h => h⟩
  op l Γ op ch ls s _ _ _ hi hd he := ⟨unmarked_effect hd he hi,fun _ _ _ _ h => h⟩
  learn _ _ _ _ _ _ _ _ _ _ _ _ _ _ _ _ := trivial
  env e ls s s' _ hi _ he := ⟨fun r hr => hi r (he.rowsKept.orders ▸ hr),fun _ _ _ _ h => h⟩

/-- Where the callback's publication and writes land, it is not interrupted, and no handler writes
an outdated copy, an order still waiting for its payment is not marked, and an active order, or one
whose fiat was sent, with a hold invoice is marked once no callback of that invoice is running, so
that the resubscriber and, in time, the deadline guardian select it. -/
theorem acceptance_recorded {cfg : Settings} {ext : Externals} (hext : ext.Documented)
    {c : DaemonState} (hc : (daemon cfg ext).Reach acceptanceLands State.Initial c) {r : OrderRow}
    (hr : r ∈ c.shared.orders) :
    (r.order.status = .waitingPayment → r.order.invoiceHeldAt = 0) ∧
    (r.order.status = .active ∨ r.order.status = .fiatSent → ∀ h, r.order.hash = some h →
      (∀ l ∈ c.running, l.req ≠ .escrowInvoice h) →
      r.order.invoiceHeldAt ≠ 0 ∧ r.order ∈ Query.run c.shared .findHeldInvoices ∧
      ∀ t, r.order.invoiceHeldAt ≤ t →
        r.order ∈ Query.run c.shared (.findEscrowDeadlineOrders t)) := by
  have hknown := acceptanceKnown_of_reach hext hc
  refine ⟨fun hst => ?_,fun hst h hh hrun => ?_⟩
  · have hstamps : (daemon cfg ext).Reach stampsKnown State.Initial c := by
      refine hknown.given fun c hc l op hnext => ?_
      by_cases hb : l.req.escrowHash.isSome = true
      · exact (stamps_watched cfg ext).pre hext hc hnext hb
      · refine stampsPast_of_none ?_
        simpa using hb
    refine ((unmarked_invariant ext).reach hext hstamps).2 r hr ?_
    simp [Order.awaitsEscrow,hst]
  · have hheld : r.order.status.isHeld = true := by
      rcases hst with hst | hst <;> rw [hst] <;> rfl
    have hmarked : r.order.invoiceHeldAt ≠ 0 := by
      intro hzero
      have hnone : ∀ l ∈ c.running, l.req.escrowHash ≠ some h := by
        intro l hl hx
        refine hrun l hl ?_
        cases hreq : l.req <;> simp_all [Request.escrowHash]
      have hdue : StampDue (r.order.id,h) c.shared := ⟨r,hr,rfl,hh,hheld,hzero⟩
      exact absurd hdue ((stamps_paid cfg ext).settled (fun _ _ _ _ _ => trivial) hknown hnone)
    refine ⟨hmarked,List.mem_map.mpr ⟨r,List.mem_filter.mpr ⟨hr,?_⟩,rfl⟩,fun t ht =>
      List.mem_map.mpr ⟨r,List.mem_filter.mpr ⟨hr,?_⟩,rfl⟩⟩
    · rcases hst with hst | hst <;> simp [hst,hmarked]
    · rcases hst with hst | hst <;> simp [hst,hmarked,ht,hh]

theorem accepted_sell_marked :
    ∃ c r, (daemon plainSettings plainExternals).Reach acceptanceLands State.Initial c ∧
      r ∈ c.shared.orders ∧ r.order.status = .active ∧ r.order.invoiceHeldAt ≠ 0 := by
  obtain ⟨c,hc,hidle,r,hr,hst,hh⟩ := idle_of_schedule plainSettings plainExternals acceptanceLands
    activeSell (fun s => ∃ r ∈ s.orders, r.order.status = .active ∧ r.order.hash = some 3)
    (by decide +kernel)
  have hmarked := (acceptance_recorded plainExternals_documented hc hr).2 (.inl hst) 3 hh
    (by simp [Config.running,hidle])
  exact ⟨c,r,hc,hr,hst,hmarked.1⟩

/-- The database refuses the callback's write of the status, which the callback ignores; the stamp
lands, and the order waits for a payment that was accepted, with a marker that makes every replay of
the acceptance pass over it.  And a crash between the two writes leaves an active order without its
marker, which neither the resubscriber nor the guardian selects. -/
theorem acceptance_half_recorded :
    (∃ cfg ext c, ext.Documented ∧ (daemon cfg ext).Reach System.Demand.none State.Initial c ∧
      c.tasks = [] ∧ ∃ r ∈ c.shared.orders, r.order.status = .waitingPayment ∧
        r.order.invoiceHeldAt ≠ 0 ∧ ∃ h ∈ r.order.hash, c.shared.holdState h = some .accepted) ∧
    ∃ cfg ext c, ext.Documented ∧ (daemon cfg ext).Reach System.Demand.none State.Initial c ∧
      c.tasks = [] ∧ ∃ r ∈ c.shared.orders, r.order.status = .active ∧
        r.order.invoiceHeldAt = 0 ∧ ∃ h ∈ r.order.hash, c.shared.holdState h = some .accepted := by
  constructor
  · obtain ⟨c,h⟩ := idle_of_schedule plainSettings plainExternals System.Demand.none
      (.env (.tick 10) :: takenSell ++ .env (.accept 3 100) :: alone 4 (.escrowInvoice 3) 3
        ++ .step 0 .fault :: steps 0 2)
      (fun s => ∃ r ∈ s.orders, r.order.status = .waitingPayment ∧ r.order.invoiceHeldAt ≠ 0 ∧
        ∃ h ∈ r.order.hash, s.holdState h = some .accepted) (by decide +kernel)
    exact ⟨_,_,c,plainExternals_documented,h⟩
  · obtain ⟨c,h⟩ := idle_of_schedule plainSettings plainExternals System.Demand.none
      (.env (.tick 10) :: takenSell ++ .env (.accept 3 100) :: alone 4 (.escrowInvoice 3) 4
        ++ [.env .crash])
      (fun s => ∃ r ∈ s.orders, r.order.status = .active ∧ r.order.invoiceHeldAt = 0 ∧
        ∃ h ∈ r.order.hash, s.holdState h = some .accepted) (by decide +kernel)
    exact ⟨_,_,c,plainExternals_documented,h⟩

end Mostro
