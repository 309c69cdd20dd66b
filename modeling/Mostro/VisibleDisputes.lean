import Mostro.DisputeRows
import Mostro.HandlerOperations
import Mostro.TaskContracts

set_option autoImplicit false

/-!
A disputed order is visible to the solvers: it has one dispute row, which a solver can take or has
taken.  A dispute message writes the order before it creates the row, and a solver's cancel closes
the row before it writes the order; what they leave undone in between is a debt of theirs.
-/

namespace Mostro

open Interleaving SqlTable

def State.hidesDispute (s : State) (id : Uuid) : Bool :=
  (s.orders.any fun r => r.order.id == id && r.order.status == .dispute)
    && ((s.disputes.all fun d => d.orderId != id)
      || s.disputes.any fun d => d.orderId == id && !d.isLive)

/-- The order whose dispute the failure of an operation may leave hidden: that of a dispute row to
be created, or the one that the handler cancels for a solver. -/
def Op.reveals (req : Request) : Op → Option Uuid
  | .dispute (.create d) => some d.orderId
  | .check _ | .updateOrderEvent _ _ | .order (.run _) => req.adminCanceledOrder
  | _ => none

/-- Whole-row writes find the order as their handlers read it; while a disputed order has no live
dispute row, the creation of the row does not fail, nor do the steps of an AdminCancel of the order,
and the daemon does not crash with a dispute message or an AdminCancel of it running. -/
abbrev disputesLand : Requirement := .check
  (fun l op ch _ s => (ch != .fault || (op.reveals l.req).all fun id => !s.hidesDispute id) &&
    match op with
    | .order (.run u) => u.isFresh s
    | _ => true)
  (fun e ls s => !e.isCrash || ls.all fun l =>
    (l.req.disputedOrder.all fun id => !s.hidesDispute id)
      && l.req.adminCanceledOrder.all fun id => !s.hidesDispute id)

theorem disputesLand_copiesFresh {l : Label} {op : Op} {ch : Choice} {ls : List Label} {s : State}
    (h : disputesLand.onOp l op ch ls s) : copiesFresh.onOp l op ch ls s :=
  (Bool.and_eq_true_iff.mp h).2

def Disputed (id : Uuid) (s : State) : Prop :=
  ∃ r ∈ s.orders, r.order.id = id ∧ r.order.status = .dispute

inductive Hidden where
  | missing (id : Uuid)
  | closed (id : Uuid)

def Hidden.order : Hidden → Uuid
  | .missing id | .closed id => id

def Hidden.Outstanding (s : State) : Hidden → Prop
  | .missing id => Disputed id s ∧ ¬ HasDispute id s
  | .closed id => Disputed id s ∧ ∃ d ∈ s.disputes, d.orderId = id ∧ d.isLive = false

def Hidden.Debtor (req : Request) : Hidden → Prop
  | .missing id => req.disputedOrder = some id
  | .closed id => req.adminCanceledOrder = some id

def Op.hides : Op → Hidden → Bool
  | .order (.run _), .missing _ => true
  | .dispute (.update _), .closed _ => true
  | _, _ => false

theorem Disputed.not_past {id : Uuid} {s : State} (h : Disputed id s) : ¬ PastStage 3 id s := by
  obtain ⟨r,hr,hid,hst⟩ := h
  intro hp
  have hle := hp.2 r hr hid
  rw [hst] at hle
  exact absurd hle (by decide)

theorem Hidden.Outstanding.disputed {δ : Hidden} {s : State} (h : δ.Outstanding s) :
    Disputed δ.order s := by
  cases δ <;> exact h.1

theorem Hidden.Outstanding.hides {δ : Hidden} {s : State} (h : δ.Outstanding s) :
    s.hidesDispute δ.order = true := by
  obtain ⟨r,hr,hid,hst⟩ := h.disputed
  refine Bool.and_eq_true_iff.mpr ⟨List.any_eq_true.mpr ⟨r,hr,by simp [hid,hst]⟩,?_⟩
  cases δ with
  | missing id =>
    refine Bool.or_eq_true_iff.mpr (.inl (List.all_eq_true.mpr fun d hd => ?_))
    exact bne_iff_ne.mpr fun horder => h.2 ⟨d,hd,horder⟩
  | closed id =>
    obtain ⟨d,hd,horder,hlive⟩ := h.2
    exact Bool.or_eq_true_iff.mpr (.inr (List.any_eq_true.mpr ⟨d,hd,by simp [hlive,horder,order]⟩))

theorem Hidden.Outstanding.back {δ : Hidden} {s s' : State} (h : δ.Outstanding s')
    (ho : s'.orders = s.orders) (hd : s'.disputes = s.disputes) : δ.Outstanding s := by
  cases δ <;> simpa only [Hidden.Outstanding,Disputed,HasDispute,ho,hd] using h

structure DisputeKnowing (l : Label) (op : Op) (s : State) : Prop where
  consistent : Consistent s
  fit : DisputesFit s
  need : ∃ Γ, op.need l.req Γ ∧ ∀ f ∈ Γ, f.Lasts s ∧ DisputeKnown s f

abbrev disputesKnown : Requirement :=
  disputesLand.given fun l op _ s => DisputeKnowing l op s

section

variable {l : Label} {op : Op} {ch : Choice} {ls : List Label} {s s' : State}

structure Steady (s s' : State) : Prop where
  past : ∀ n id, PastStage n id s → PastStage n id s'
  stay : DisputesStay s s'

theorem Steady.of_rows (ho : s'.orders = s.orders) (hd : s'.disputes = s.disputes)
    (hle : s.nextId ≤ s'.nextId) : Steady s s' :=
  ⟨fun _ _ h => h.of_orders ho hle,.of_eq hd⟩

theorem Steady.refl (s : State) : Steady s s := .of_rows rfl rfl le_rfl

theorem Steady.trans {s₁ s₂ s₃ : State} (h : Steady s₁ s₂) (h' : Steady s₂ s₃) : Steady s₁ s₃ := by
  refine ⟨fun n id hp => h'.past n id (h.past n id hp),fun d hd => ?_⟩
  obtain ⟨d₂,hd₂,hid,horder⟩ := h.stay d hd
  obtain ⟨d₃,hd₃,hid',horder'⟩ := h'.stay d₂ hd₂
  exact ⟨d₃,hd₃,hid'.trans hid,horder'.trans horder⟩

theorem steady_effect (hd : disputesKnown.onOp l op ch ls s) (he : Effect l.tid op s s') :
    Steady s s' := by
  obtain ⟨Γ,hn,hΓ⟩ := hd.2.need
  have hfresh := disputesLand_copiesFresh hd.1
  exact ⟨fun _ _ h => h.effect hn hfresh he,
    (disputesFit_effect hd.2.fit hn (fun f hf => (hΓ f hf).2) hfresh he).2⟩

theorem orderUpdate_disputed {req : Request} {Γ : Set Fact} {u : OrderUpdate} {r : OrderRow}
    (hn : u.need req Γ) (hst : (u.set r).order.status = .dispute) :
    r.order.status = .dispute ∨ ∃ read row, u = .update read row ∧ row.status = .dispute := by
  cases u with
  | update read row => exact .inr ⟨read,row,rfl,hst⟩
  | editPubkeysOrder id kind => cases kind <;> exact .inl hst
  | casPretradeOrderStatus id new => rcases hn with rfl | ⟨rfl,_⟩ <;> cases hst
  | casPromoteTakerContext o =>
    simp only [OrderUpdate.set] at hst
    split at hst <;> exact .inl hst
  | casCompletePretradeTake o allow =>
    rcases hn.1 with h | h <;> cases h.symm.trans hst
  | updateOrderCashuEscrow id mint token t expected new =>
    obtain ⟨_,rfl,_⟩ := hn
    cases hst
  | claimOrderStatus id expected new =>
    obtain ⟨_,rfl⟩ := hn
    cases hst
  | _ => first | exact .inl hst | cases hst

theorem disputed_effect {Γ : Set Fact} {id : Uuid} (hn : op.need l.req Γ)
    (hfresh : copiesFresh.onOp l op ch ls s) (he : Effect l.tid op s s') (h : Disputed id s') :
    Disputed id s ∨ ∃ read row r, op = .order (.run (.update read row)) ∧ row.id = id ∧
      row.status = .dispute ∧ r ∈ s.orders ∧ r.order.id = id ∧ r.order.status = read.status := by
  obtain ⟨r,hr,hid,hst⟩ := h
  rcases he.rows with hk | ⟨st,rfl,rfl⟩ | ⟨st,_,rfl⟩
  · exact .inl ⟨r,hk.orders ▸ hr,hid,hst⟩
  · cases st with
    | create o =>
      rcases List.mem_append.mp hr with hr | hr
      · exact .inl ⟨r,hr,hid,hst⟩
      · rw [List.mem_singleton.mp hr] at hst
        rcases hn.2.2.1 with h | h <;> exact nomatch h.symm.trans hst
    | run u =>
      obtain ⟨q,hq,rfl⟩ := mem_updateWhere.mp hr
      by_cases hsel : u.selects s q = true
      · rw [if_pos hsel] at hid hst
        have hqid := (orderUpdate_set_id hsel).symm.trans hid
        rcases orderUpdate_disputed hn hst with hold | ⟨read,row,rfl,hrow⟩
        · exact .inl ⟨q,hq,hqid,hold⟩
        · have hrid : q.order.id = row.id := orderUpdate_id hsel
          exact .inr ⟨read,row,q,rfl,hrid.symm.trans hqid,hrow,hq,hqid,
            (isFresh_copy hfresh rfl hq (hrid.trans (RowWrite.id hn))).1⟩
      · rw [if_neg hsel] at hid hst
        exact .inl ⟨q,hq,hid,hst⟩
    | deleteStranded x => exact .inl ⟨r,List.mem_of_mem_filter hr,hid,hst⟩
  · exact .inl ⟨r,bondStmt_orders st s ▸ hr,hid,hst⟩

theorem hidden_effect {δ : Hidden} (hd : disputesKnown.onOp l op ch ls s)
    (he : Effect l.tid op s s') (h : δ.Outstanding s') :
    δ.Outstanding s ∨ δ.Debtor l.req ∧ op.hides δ = true := by
  obtain ⟨Γ,hn,hΓ⟩ := hd.2.need
  have hfresh := disputesLand_copiesFresh hd.1
  have hstay := (steady_effect hd he).stay
  cases δ with
  | missing id =>
    have hnone : ¬ HasDispute id s := fun hh => h.2 (hh.stays hstay)
    rcases disputed_effect hn hfresh he h.1 with hold | ⟨read,row,r,rfl,hid,hst,hr,hrid,hread⟩
    · exact .inl ⟨hold,hnone⟩
    · rcases RowWrite.disputes hn hst with hsame | hreq | ⟨d,hdΓ,hdid⟩
      · exact .inl ⟨⟨r,hr,hrid,hread.trans hsame⟩,hnone⟩
      · exact .inr ⟨hreq.trans (congrArg some hid),rfl⟩
      · obtain ⟨x,hx,_,hxo⟩ : ∃ x ∈ s.disputes, x.id = d.id ∧ x.orderId = d.orderId := (hΓ _ hdΓ).2
        exact absurd ⟨x,hx,hxo.trans (hdid.trans hid)⟩ hnone
  | closed id =>
    obtain ⟨hdisp,d,hmem,hdid,hlive⟩ := h
    -- a closed row was there before, or is the one the operation writes
    have hold (hmem : d ∈ s.disputes) : (Hidden.closed id).Outstanding s := by
      refine ⟨?_,d,hmem,hdid,hlive⟩
      rcases disputed_effect hn hfresh he hdisp with hold | ⟨read,row,r,rfl,hid,hst,hr,hrid,hread⟩
      · exact hold
      · have hge := (hd.2.fit.closed d hmem hlive).2 r hr (hrid.trans hdid.symm)
        have hle := stage_isOpen (RowWrite.opened hn)
        rw [← hread] at hle
        refine ⟨r,hr,hrid,(settling_of_stage (by omega) hle).resolve_left fun hsent => ?_⟩
        rw [hsent] at hge
        exact absurd hge (by decide)
    rcases he.disputes_cases with hsame | ⟨x,rfl,_,rfl⟩ | ⟨x,rfl,rfl⟩
    · exact .inl (hold (hsame ▸ hmem))
    · rcases List.mem_append.mp hmem with hmem | hmem
      · exact .inl (hold hmem)
      · rw [List.mem_singleton.mp hmem] at hlive
        exact nomatch (show x.isLive = true from hn).symm.trans hlive
    · obtain ⟨y,hy,rfl⟩ := mem_updateWhere.mp hmem
      by_cases hsel : (y.id == x.id) = true
      · rw [if_pos hsel] at hdid hlive
        rcases hn.2 with hl | hres | ⟨hreq,_⟩
        · exact nomatch hl.symm.trans hlive
        · have hres : PastStage 3 x.orderId s := (hΓ _ hres).2
          exact absurd ((steady_effect hd he).past _ _ (hdid ▸ hres)) hdisp.not_past
        · exact .inr ⟨hreq.trans (congrArg some hdid),rfl⟩
      · rw [if_neg hsel] at hold
        exact .inl (hold hy)

end

abbrev steadily : Contract State Label Op :=
  ⟨fun _ => True,fun _ => Steady,fun _ _ _ _ => True,fun _ _ _ => True,fun _ _ => True⟩

abbrev RevealsSat (cfg : Settings) (ext : Externals) (l : Label) {α : Type} (p : M α)
    (Q : Except MostroError α → State → Prop) (s : State) : Prop :=
  (daemon cfg ext).Sat disputesKnown steadily l p Q s

abbrev RevealsHonest (cfg : Settings) (ext : Externals) (l : Label) (p : M Unit) (s : State) :
    Prop :=
  (daemon cfg ext).Honest disputesKnown steadily (fun (δ : Hidden) s => δ.Outstanding s)
    (fun δ l => δ.Debtor l.req) l p s

section

variable {cfg : Settings} {ext : Externals} {l : Label} {id : Uuid} {α : Type}

def Op.Open (req : Request) (op : Op) : Prop := ∀ δ : Hidden, δ.Debtor req → op.hides δ = false

theorem hides_nothing {op : Op} {ch : Choice} {ls : List Label} {s : State}
    (hop : op.Open l.req) (hd : disputesKnown.onOp l op ch ls s) (δ : Hidden)
    (hδ : δ.Outstanding (exec ext l.tid op ch s).1) : δ.Outstanding s := by
  refine (hidden_effect hd (exec_effect ext l.tid op ch s) hδ).resolve_right ?_
  rintro ⟨hreq,hhides⟩
  exact nomatch (hop δ hreq).symm.trans hhides

theorem open_bind {p : M α} {f : α → M Unit} {s : State} (hp : p.Only (Op.Open l.req))
    (hf : ∀ a s, RevealsHonest cfg ext l (f a) s) : RevealsHonest cfg ext l (p.bind f) s :=
  System.Honest.bind_only hp (fun _ _ _ _ hop _ hd => hides_nothing hop hd) hf

theorem open_reads {req : Request} : Reads (Op.Open req) :=
  ⟨fun _ δ _ => by cases δ <;> rfl,fun δ _ => by cases δ <;> rfl⟩

theorem open_check {req : Request} (c : Check) : (Op.check c).Open req :=
  fun δ _ => by cases δ <;> rfl

theorem open_getOrder_bind {f : Order → M Unit} {s : State}
    (hf : ∀ o s, o.id = id → RevealsHonest cfg ext l (f o) s) :
    RevealsHonest cfg ext l ((getOrder id).bind f) s := by
  rw [getOrder,requireOrder,Prog.bind_assoc]
  refine honest_ask_bind (T := fun _ => True) trivial (fun _ _ _ h => h) fun s ls _ _ ch hd =>
    ⟨fun δ hδ => .inl (hides_nothing (open_reads.query _) hd δ hδ),fun found hres => ?_⟩
  cases found with
  | none => trivial
  | some o =>
    have hanswer := exec_answers ext l.tid (.query (.orderById id)) ch s
    rw [hres] at hanswer
    exact hf o _ (hanswer o (by simp))

theorem exec_updateDispute_error {tid : Nat} {d : Dispute} {ch : Choice} {s : State}
    {e : MostroError} (h : (exec ext tid (.dispute (.update d)) ch s).2 = .error e) :
    (exec ext tid (.dispute (.update d)) ch s).1 = s := by
  simp only [exec,DisputeStmt.duplicates,Bool.false_eq_true,if_false,orFault] at h ⊢
  split at h
  next hch => rw [if_pos hch]
  · cases h

theorem revealed_of_fault {op : Op} {ch : Choice} {ls : List Label} {s : State} {δ : Hidden}
    (hd : disputesKnown.onOp l op ch ls s) (hop : op.reveals l.req = some δ.order)
    (hch : ch = .fault) : ¬ δ.Outstanding s := by
  intro hδ
  have hlands := (Bool.and_eq_true_iff.mp hd.1).1
  simp [hch,hop,hδ.hides] at hlands

theorem createDispute_reveals {d : Dispute} (hid : d.orderId = id) (s : State) :
    RevealsSat cfg ext l ((ask (.dispute (.create d))).bind fun _ => check .disputeEvent)
      (fun _ s => ¬ (Hidden.missing id).Outstanding s) s := by
  refine sat_ask_bind (T := fun _ => True) trivial (fun _ _ _ h => h) fun s ls _ _ =>
    ⟨trivial,fun ch hd => ?_⟩
  have hexec : exec ext l.tid (.dispute (.create d)) ch s
      = if s.disputes.any (·.orderId == d.orderId) then (s,.error .dbAccess)
        else orFault ch s (DisputeStmt.exec s (.create d)) := rfl
  rw [hexec]
  split
  next hdup =>
    obtain ⟨x,hx,hxo⟩ := List.any_eq_true.mp hdup
    refine ⟨nofun,fun _ _ h => h.2 ⟨x,hx,(beq_iff_eq.mp hxo).trans hid⟩⟩
  · unfold orFault
    split
    next hch => exact ⟨nofun,fun _ _ => revealed_of_fault hd (congrArg some hid) hch⟩
    · refine ⟨fun n _ => ?_,nofun⟩
      have hrow : HasDispute id (DisputeStmt.exec s (.create d)).1 :=
        ⟨_,List.mem_append_right _ (List.mem_singleton.mpr rfl),hid⟩
      exact sat_ask (T := HasDispute id) hrow
        (fun _ _ h hrow => hrow.stays h.stay) fun s ls hrow _ =>
        ⟨trivial,fun ch hd h => h.2 hrow⟩

theorem disputeAction_honest {sender : Pubkey} (hl : l.req = .message (.dispute id sender))
    (s : State) : RevealsHonest cfg ext l (disputeAction ext id sender) s := by
  have hreq : l.req.disputedOrder = some id := by rw [hl]; rfl
  unfold disputeAction
  refine open_bind (Prog.Only.attempt (ask_only (open_reads.query _))) fun found s => ?_
  refine honest_ensure_bind fun _ => open_bind (requireOrder_only open_reads id _) fun order s => ?_
  refine honest_ensure_bind fun _ => honest_require_bind fun seller _ => ?_
  refine honest_require_bind fun buyer _ => honest_ensure_bind fun _ => ?_
  refine open_bind (ask_only open_reads.timestamp) fun now s =>
    honest_require_bind fun disputed _ => ?_
  simp only [updateOrder,runOrder,Prog.bind_eq,Prog.bind_assoc]
  refine honest_ask_bind (T := fun _ => True) trivial (fun _ _ _ h => h) fun s ls _ _ ch hd =>
    ⟨fun δ hδ => ?_,fun n _ => ?_⟩
  · cases hres : (exec ext l.tid (.order (.run (.update order disputed))) ch s).2 with
    | error e => exact .inl (exec_order_error hres ▸ hδ)
    | ok n =>
      refine (hidden_effect hd (exec_effect ext l.tid _ ch s) hδ).imp_right fun h => ⟨h.1,n,rfl,?_⟩
      cases δ with
      | missing x =>
        obtain rfl := Option.some.inj (hreq.symm.trans h.1)
        exact createDispute_reveals rfl _
      | closed x => cases h.2
  · show RevealsHonest cfg ext l ((ask (.dispute (.create _))).bind fun _ => check .disputeEvent) _
    refine open_bind (ask_only fun δ _ => ?_) fun _ s => System.Honest.of_only
      (ask_only (open_check _)) fun _ _ _ _ hop _ hd => hides_nothing hop hd
    cases δ <;> rfl

def adminCancelRest (cfg : Settings) (order : Order) (resolution : BondResolution) : M Unit := do
  let orderUpdated ← updateOrderEvent .canceledByAdmin order
  updateOrder order orderUpdated
  check .sendDm
  let _ ← require order.sellerPubkey .invalidPubkey
  let _ ← require order.buyerPubkey .invalidPubkey
  check .sendDm
  check .sendDm
  (applyBondResolution cfg order resolution .lostDispute).ignore
  (resolveRangeMakerBondAtClose order).ignore

theorem canceledByAdmin_past {ch : Choice} {ls : List Label} {s : State} {order : Order} {n : Nat}
    (hd : disputesKnown.onOp l
      (.order (.run (.update order { order with status := .canceledByAdmin }))) ch ls s)
    (hres : (exec ext l.tid
      (.order (.run (.update order { order with status := .canceledByAdmin }))) ch s).2 = .ok n) :
    PastStage 3 order.id (exec ext l.tid
      (.order (.run (.update order { order with status := .canceledByAdmin }))) ch s).1 := by
  obtain ⟨Γ,hn,hΓ⟩ := hd.2.need
  obtain ⟨x,hx,hxid,_⟩ := RowWrite.offer hn
  rw [(exec_order_ok hres).1]
  have hlt : order.id < s.nextId := hxid ▸ (hΓ _ hx).1.1
  refine pastStage_run (.update order { order with status := .canceledByAdmin })
    hlt fun q _ hqid => ?_
  exact ⟨by simp [OrderUpdate.selects,OrderUpdate.guard,hqid],
    by simp [OrderUpdate.set,Status.stage]⟩

theorem adminCancelRest_reveals (hl : l.req.adminCanceledOrder = some id) {order : Order}
    (hid : order.id = id) (resolution : BondResolution) (s : State) :
    RevealsSat cfg ext l (adminCancelRest cfg order resolution)
      (fun _ s => ¬ (Hidden.closed id).Outstanding s) s := by
  unfold adminCancelRest
  simp only [updateOrderEvent,updateOrder,runOrder,Prog.bind_eq,Prog.bind_assoc]
  refine sat_ask_bind (T := fun _ => True) trivial (fun _ _ _ h => h) fun s ls _ _ =>
    ⟨trivial,fun ch hd => ⟨fun _ _ => ?_,fun e he => ?_⟩⟩
  · refine sat_ask_bind (T := fun _ => True) trivial (fun _ _ _ h => h) fun s ls _ _ =>
      ⟨trivial,fun ch hd => ⟨fun n hres => ?_,fun e he => ?_⟩⟩
    · subst hid
      refine (System.Sat.of_only (T := PastStage 3 order.id) (Prog.only_true _)
        (canceledByAdmin_past hd hres)
        (fun _ _ h (hs : Steady _ _) => hs.past _ _ h) fun op ls s _ h _ =>
        ⟨trivial,
          fun ch hd => (steady_effect hd (exec_effect ext l.tid op ch s)).past _ _ h⟩).mono ?_
      exact fun _ _ h hδ => hδ.disputed.not_past h
    · rw [exec_order_error he]
      exact revealed_of_fault hd hl (exec_order_fault he)
  · have hexec : exec ext l.tid (.updateOrderEvent order.id .canceledByAdmin) ch s
        = if ch = .fault then (s,.error .nostr)
          else ({ s with published := (order.id,.canceledByAdmin) :: s.published },.ok ()) := rfl
    rw [hexec] at he ⊢
    split at he
    next hch =>
      rw [if_pos hch]
      exact revealed_of_fault hd hl hch
    · cases he

theorem adminCancelRest_honest (hl : l.req.adminCanceledOrder = some id)
    (hnone : l.req.disputedOrder = none) {order : Order} (hid : order.id = id)
    (resolution : BondResolution) (s : State) :
    RevealsHonest cfg ext l (adminCancelRest cfg order resolution) s := by
  have hopen (op : Op) (hop : ∀ x, op.hides (.closed x) = false) : op.Open l.req := by
    intro δ hδ
    cases δ with
    | missing x => exact nomatch hnone.symm.trans hδ
    | closed x => exact hop x
  unfold adminCancelRest
  simp only [updateOrderEvent,updateOrder,runOrder,Prog.bind_eq,Prog.bind_assoc]
  refine open_bind (ask_only (hopen _ fun _ => rfl)) fun _ s => ?_
  refine honest_ask_bind (T := fun _ => True) trivial (fun _ _ _ h => h) fun s ls _ _ ch hd =>
    ⟨fun δ hδ => .inl (hides_nothing (hopen _ fun _ => rfl) hd δ hδ),fun n hres => ?_⟩
  -- past the dispute, the handler hides nothing any more
  refine System.Honest.of_kept (T := PastStage 3 order.id) (canceledByAdmin_past hd hres)
    (fun _ _ h (hs : Steady _ _) => hs.past _ _ h) (fun op ch ls s h _ hd => ?_) _
  have he := exec_effect ext l.tid op ch s
  have hpast := (steady_effect hd he).past _ _ h
  refine ⟨hpast,fun δ hδ => (hidden_effect hd he hδ).resolve_right fun hdebt => ?_⟩
  cases δ with
  | missing x => exact nomatch hnone.symm.trans hdebt.1
  | closed x =>
    obtain rfl := Option.some.inj (hl.symm.trans hdebt.1)
    exact hδ.disputed.not_past (hid ▸ hpast)

theorem closeDisputeByAdmin_honest (hl : l.req.adminCanceledOrder = some id)
    (hnone : l.req.disputedOrder = none) {order : Order} (hid : order.id = id)
    (hflags : (order.sellerDispute != order.buyerDispute) = true) (d : Dispute)
    (resolution : BondResolution) (s : State) :
    RevealsHonest cfg ext l ((closeDisputeByAdmin order .sellerRefunded d).bind fun _ =>
      adminCancelRest cfg order resolution) s := by
  simp only [closeDisputeByAdmin,ensure,hflags,if_true,Prog.bind_eq,Prog.bind_assoc]
  refine honest_ask_bind (T := fun _ => True) trivial (fun _ _ _ h => h) fun s ls _ _ ch hd =>
    ⟨fun δ hδ => ?_,fun n _ => ?_⟩
  · cases hres : (exec ext l.tid
      (.dispute (.update { d with status := .sellerRefunded })) ch s).2 with
    | error e => exact .inl (exec_updateDispute_error hres ▸ hδ)
    | ok n =>
      refine (hidden_effect hd (exec_effect ext l.tid _ ch s) hδ).imp_right fun h => ⟨h.1,n,rfl,?_⟩
      cases δ with
      | missing x => cases h.2
      | closed x =>
        obtain rfl := Option.some.inj (hl.symm.trans h.1)
        refine sat_ask_bind (T := fun _ => True) trivial (fun _ _ _ h => h) fun s ls _ _ =>
          ⟨trivial,fun ch hd => ⟨fun _ _ => adminCancelRest_reveals hl hid resolution _,
          fun e he => ?_⟩⟩
        refine revealed_of_fault (s := s) hd hl ?_
        by_contra hch
        simp [exec,hch] at he
  · show RevealsHonest cfg ext l ((check .disputeEvent).bind fun _ =>
      adminCancelRest cfg order resolution) _
    exact open_bind (ask_only (open_check _)) fun _ s =>
      adminCancelRest_honest hl hnone hid resolution s

theorem adminCancelAction_honest {resolution : BondResolution}
    (hl : l.req.adminCanceledOrder = some id) (hnone : l.req.disputedOrder = none) (s : State) :
    RevealsHonest cfg ext l (adminCancelAction cfg id resolution) s := by
  unfold adminCancelAction
  refine open_getOrder_bind fun order s hid => open_bind (ask_only (open_check _)) fun _ s => ?_
  split
  · trivial
  refine honest_ensure_bind fun _ => ?_
  refine open_bind (validateBondResolution_only open_reads _ _) fun _ s => ?_
  refine open_bind (cancelEscrow_only (fun hash δ _ => ?_) order) fun _ s => ?_
  · cases δ <;> rfl
  refine open_bind (Prog.Only.attempt (ask_only (open_reads.query _))) fun found s => ?_
  refine honest_ensure_bind fun hflags => ?_
  dsimp only
  split
  · exact closeDisputeByAdmin_honest hl hnone hid hflags _ resolution s
  · exact adminCancelRest_honest hl hnone hid resolution s

end

theorem disputes_revealed (cfg : Settings) (ext : Externals) :
    System.Pays (daemon cfg ext) disputesKnown steadily (fun (δ : Hidden) s => δ.Outstanding s)
      (fun δ l => δ.Debtor l.req) State.Initial where
  rely_refl _ := Steady.refl
  rely_trans _ _ _ _ := Steady.trans
  init s hs δ hδ := by
    obtain ⟨now,height,rfl⟩ := hs
    obtain ⟨r,hr,_⟩ := hδ.disputed
    cases hr
  start l s s' hl := by
    have hk := launch_rowsKept hl
    obtain ⟨_,rfl⟩ := launch_eq hl
    exact ⟨fun _ => .of_rows rfl rfl hk.nextId,fun δ hδ => hδ.back rfl rfl⟩
  code l s s' hl := by
    have hquiet (hmissing : l.req.disputedOrder = none) (hclosed : l.req.adminCanceledOrder = none)
        (p : M Unit) : RevealsHonest cfg ext l p s' := by
      refine System.Honest.of_quiet (fun op ch ls s _ hd => hides_nothing ?_ hd) p s'
      intro δ hδ
      cases δ with
      | missing x => exact nomatch hmissing.symm.trans hδ
      | closed x => exact nomatch hclosed.symm.trans hδ
    obtain ⟨tid,req⟩ := l
    cases req with
    | message m =>
      cases m with
      | dispute order sender => exact disputeAction_honest rfl s'
      | admin m =>
        cases m with
        | cancel order resolution => exact adminCancelAction_honest rfl rfl s'
        | _ => exact hquiet rfl rfl _
      | _ => exact hquiet rfl rfl _
    | rpc m =>
      cases m with
      | cancel order resolution => exact adminCancelAction_honest rfl rfl s'
      | _ => exact hquiet rfl rfl _
    | _ => exact hquiet rfl rfl _
  other l l' op ch ls s _ _ _ _ hd := steady_effect hd (exec_effect ext l.tid op ch s)
  env e ls s s' hd he := by
    have hm := env_moves he
    have hsame : s'.disputes = s.disputes := by cases hm <;> rfl
    refine ⟨fun δ hδ => hδ.back hm.rowsKept.orders hsame,
      fun _ _ _ => .of_rows hm.rowsKept.orders hsame hm.rowsKept.nextId,fun hk δ hδ l hl hreq => ?_⟩
    have hk : e.isCrash = true := hk
    have hd : (!e.isCrash || ls.all fun l =>
      (l.req.disputedOrder.all fun id => !s.hidesDispute id)
        && l.req.adminCanceledOrder.all fun id => !s.hidesDispute id) = true := hd
    simp only [hk,Bool.not_true,Bool.false_or,List.all_eq_true] at hd
    obtain ⟨hmissing,hclosed⟩ := Bool.and_eq_true_iff.mp (hd l hl)
    have hhides := hδ.hides
    cases δ with
    | missing id =>
      rw [show l.req.disputedOrder = some id from hreq,Option.all_some] at hmissing
      exact nomatch hmissing.symm.trans (congrArg not hhides)
    | closed id =>
      rw [show l.req.adminCanceledOrder = some id from hreq,Option.all_some] at hclosed
      exact nomatch hclosed.symm.trans (congrArg not hhides)

theorem disputesKnown_of_reach {cfg : Settings} {ext : Externals} (hext : ext.Documented)
    {c : DaemonState} (hc : (daemon cfg ext).Reach disputesLand State.Initial c) :
    (daemon cfg ext).Reach disputesKnown State.Initial c := by
  refine hc.given fun c hc l op hnext => ?_
  have hinv : StepInvariant ext disputesLand DisputesFit (fun _ f s => DisputeKnown s f) :=
    (disputes_invariant ext).mono disputesLand_copiesFresh fun _ => rfl
  obtain ⟨hcons,hfit⟩ := hinv.reach hext hc
  obtain ⟨k,ht⟩ := hnext
  obtain ⟨Γ,hn,hΓ⟩ := (hinv.upholds hext cfg).about_to hc ht
  exact ⟨hcons,hfit,Γ,hn,hΓ⟩

/-- Where disputes land, a disputed order that no running dispute message or AdminCancel is about
has exactly one dispute row, and a solver can take that dispute or has taken it. -/
theorem disputed_order_visible {cfg : Settings} {ext : Externals} (hext : ext.Documented)
    {c : DaemonState} (hc : (daemon cfg ext).Reach disputesLand State.Initial c)
    {r : OrderRow} (hr : r ∈ c.shared.orders) (hst : r.order.status = .dispute)
    (hrun : ∀ l ∈ c.running, l.req.disputedOrder ≠ some r.order.id ∧
      l.req.adminCanceledOrder ≠ some r.order.id) :
    ∃ d, (∀ x, x ∈ c.shared.disputes ∧ x.orderId = r.order.id ↔ x = d) ∧
      (d.status = .initiated ∨ d.status = .inProgress ∧ d.solverPubkey.isSome = true) := by
  have hknown := disputesKnown_of_reach hext hc
  have hfit :=
    (((disputes_invariant ext).mono disputesLand_copiesFresh fun _ => rfl).reach hext hc).2
  have hnone (δ : Hidden) (hδ : ∀ l ∈ c.running, ¬ δ.Debtor l.req) : ¬ δ.Outstanding c.shared :=
    (disputes_revealed cfg ext).settled (fun _ _ _ _ _ => trivial) hknown hδ
  have hdisp : Disputed r.order.id c.shared := ⟨r,hr,rfl,hst⟩
  obtain ⟨d,hd,horder⟩ : HasDispute r.order.id c.shared := by
    by_contra hrow
    exact hnone (.missing r.order.id) (fun l hl => (hrun l hl).1) ⟨hdisp,hrow⟩
  have hlive : d.isLive = true := by
    by_contra hlive
    exact hnone (.closed r.order.id) (fun l hl => (hrun l hl).2)
      ⟨hdisp,d,hd,horder,Bool.eq_false_iff.mpr hlive⟩
  refine ⟨d,fun x => ⟨fun h => hfit.unique_order h.1 hd (h.2.trans horder.symm),?_⟩,?_⟩
  · rintro rfl
    exact ⟨hd,horder⟩
  · simpa [Dispute.isLive] using hlive

theorem disputed_sell_visible :
    ∃ c r, (daemon plainSettings plainExternals).Reach disputesLand State.Initial c ∧
      r ∈ c.shared.orders ∧ r.order.status = .dispute ∧
      ∃ d, (∀ x, x ∈ c.shared.disputes ∧ x.orderId = r.order.id ↔ x = d) ∧
        (d.status = .initiated ∨ d.status = .inProgress ∧ d.solverPubkey.isSome = true) := by
  obtain ⟨c,hc,hidle,r,hr,hst⟩ := idle_of_schedule plainSettings plainExternals disputesLand
    (activeSell ++ alone 5 (.message (.dispute 1 8)) 6)
    (fun s => ∃ r ∈ s.orders, r.order.status = .dispute) (by decide +kernel)
  exact ⟨c,r,hc,hr,hst,disputed_order_visible plainExternals_documented hc hr hst
    (by simp [Config.running,hidle])⟩

/-- The buyer disputes an active order, and the daemon crashes between the write of the order and
the creation of the dispute row: the order is disputed, and no solver sees it. -/
theorem disputed_order_without_row :
    ∃ cfg ext c, ext.Documented ∧ (daemon cfg ext).Reach System.Demand.none State.Initial c ∧
      c.tasks = [] ∧ ∃ r ∈ c.shared.orders, r.order.status = .dispute ∧
        ∀ d ∈ c.shared.disputes, d.orderId ≠ r.order.id := by
  obtain ⟨c,hc,hidle,hrow⟩ := idle_of_schedule plainSettings plainExternals System.Demand.none
    (activeSell ++ .start ⟨5,.message (.dispute 1 8)⟩ :: steps 0 4 ++ [.env .crash])
    (fun s => ∃ r ∈ s.orders, r.order.status = .dispute ∧ ∀ d ∈ s.disputes, d.orderId ≠ r.order.id)
    (by decide +kernel)
  exact ⟨_,_,c,plainExternals_documented,hc,hidle,hrow⟩

end Mostro
