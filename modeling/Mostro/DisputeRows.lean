import Mostro.OrderStages

set_option autoImplicit false

/-!
The rows of the disputes.  An order has one dispute row at most, rows are never lost or moved to
another order, and the dispute of an order is closed only once the order is disputed or resolved.
-/

namespace Mostro

open Interleaving SqlTable

variable {n : Nat} {id : Uuid} {d x : Dispute}

def PastStage (n : Nat) (id : Uuid) (s : State) : Prop :=
  id < s.nextId ∧ ∀ r ∈ s.orders, r.order.id = id → n ≤ r.order.status.stage

theorem PastStage.mono {m : Nat} {s : State} (h : PastStage n id s) (hle : m ≤ n) :
    PastStage m id s :=
  ⟨h.1,fun r hr hid => hle.trans (h.2 r hr hid)⟩

theorem PastStage.of_orders {s s' : State} (h : PastStage n id s) (ho : s'.orders = s.orders)
    (hle : s.nextId ≤ s'.nextId) : PastStage n id s' :=
  ⟨lt_of_lt_of_le h.1 hle,by rw [ho]; exact h.2⟩

theorem PastStage.of_row {s : State} (hc : Consistent s) {r : OrderRow} (hr : r ∈ s.orders) :
    PastStage r.order.status.stage r.order.id s := by
  refine ⟨hc.orderIds_lt r hr,fun q hq hid => ?_⟩
  rw [hc.order_unique hq hr hid]

section

variable {l : Label} {Γ : Set Fact} {op : Op} {ch : Choice} {ls : List Label} {s s' : State}

theorem PastStage.effect (h : PastStage n id s) (hn : op.need l.req Γ)
    (hd : copiesFresh.onOp l op ch ls s) (he : Effect l.tid op s s') : PastStage n id s' := by
  rcases he.rows with hk | ⟨st,rfl,rfl⟩ | ⟨st,_,rfl⟩
  · exact h.of_orders hk.orders hk.nextId
  · refine ⟨lt_of_lt_of_le h.1 (orderStmt_nextId _ s st),fun r hr hid => ?_⟩
    cases st with
    | create o =>
      rcases List.mem_append.mp hr with hr | hr
      · exact h.2 r hr hid
      · rw [List.mem_singleton.mp hr] at hid
        exact absurd h.1 (by rw [← hid]; exact lt_irrefl _)
    | run u =>
      obtain ⟨q,hq,rfl⟩ := mem_updateWhere.mp hr
      by_cases hsel : u.selects s q = true
      · rw [if_pos hsel] at hid ⊢
        exact (h.2 q hq ((orderUpdate_set_id hsel).symm.trans hid)).trans
          (orderUpdate_stage hn hd hq hsel)
      · rw [if_neg hsel] at hid ⊢
        exact h.2 q hq hid
    | deleteStranded x => exact h.2 r (List.mem_of_mem_filter hr) hid
  · exact h.of_orders (bondStmt_orders st s) he.nextId_le

end

def HasDispute (id : Uuid) (s : State) : Prop := ∃ d ∈ s.disputes, d.orderId = id

structure DisputesFit (s : State) : Prop where
  ids : (s.disputes.map (·.id)).Nodup
  ids_lt : ∀ d ∈ s.disputes, d.id < s.nextId
  orders : (s.disputes.map (·.orderId)).Nodup
  closed : ∀ d ∈ s.disputes, d.isLive = false → PastStage 2 d.orderId s

def DisputeKnown (s : State) : Fact → Prop
  | .order o => PastStage o.status.stage o.id s
  | .dispute x => ∃ d ∈ s.disputes, d.id = x.id ∧ d.orderId = x.orderId
  | .resolved id => PastStage 3 id s
  | _ => True

theorem DisputesFit.unique {s : State} (h : DisputesFit s) (hd : d ∈ s.disputes)
    (hx : x ∈ s.disputes) (hid : d.id = x.id) : d = x :=
  List.inj_on_of_nodup_map h.ids hd hx hid

theorem DisputesFit.unique_order {s : State} (h : DisputesFit s) (hd : d ∈ s.disputes)
    (hx : x ∈ s.disputes) (hid : d.orderId = x.orderId) : d = x :=
  List.inj_on_of_nodup_map h.orders hd hx hid

theorem DisputesFit.of_disputes {s s' : State} (h : DisputesFit s)
    (hdisputes : s'.disputes = s.disputes) (hle : s.nextId ≤ s'.nextId)
    (hpast : ∀ n id, PastStage n id s → PastStage n id s') : DisputesFit s' := by
  refine ⟨by rw [hdisputes]; exact h.ids,fun d hd => ?_,by rw [hdisputes]; exact h.orders,
    fun d hd hl => ?_⟩
  · exact lt_of_lt_of_le (h.ids_lt d (hdisputes ▸ hd)) hle
  · exact hpast _ _ (h.closed d (hdisputes ▸ hd) hl)

def DisputesStay (s s' : State) : Prop :=
  ∀ d ∈ s.disputes, ∃ d' ∈ s'.disputes, d'.id = d.id ∧ d'.orderId = d.orderId

theorem DisputesStay.of_eq {s s' : State} (h : s'.disputes = s.disputes) : DisputesStay s s' :=
  fun d hd => ⟨d,h ▸ hd,rfl,rfl⟩

theorem HasDispute.stays {s s' : State} (h : HasDispute id s) (hs : DisputesStay s s') :
    HasDispute id s' := by
  obtain ⟨d,hd,hid⟩ := h
  obtain ⟨d',hd',_,horder⟩ := hs d hd
  exact ⟨d',hd',horder.trans hid⟩

theorem DisputeKnown.lasts {s s' : State} {f : Fact} (h : DisputeKnown s f)
    (hpast : ∀ n id, PastStage n id s → PastStage n id s') (hstay : DisputesStay s s') :
    DisputeKnown s' f := by
  cases f with
  | order o => exact hpast _ _ h
  | dispute x =>
    obtain ⟨d,hd,hid,horder⟩ := h
    obtain ⟨d',hd',hid',horder'⟩ := hstay d hd
    exact ⟨d',hd',hid'.trans hid,horder'.trans horder⟩
  | resolved id => exact hpast _ _ h
  | _ => trivial

theorem Effect.disputes_cases {tid : Nat} {op : Op} {s s' : State} (he : Effect tid op s s') :
    s'.disputes = s.disputes ∨
    (∃ d, op = .dispute (.create d) ∧ (∀ x ∈ s.disputes, x.orderId ≠ d.orderId) ∧
      s' = { s with
        disputes := s.disputes ++ [{ d with id := s.nextId }], nextId := s.nextId + 1 }) ∨
    ∃ d, op = .dispute (.update d) ∧
      s' = { s with disputes := updateWhere (·.id == d.id) (fun _ => d) s.disputes } := by
  cases he with
  | quiet hq =>
    obtain ⟨_,_,rfl⟩ := hq
    exact .inl rfl
  | order st _ => exact .inl (by cases st <;> rfl)
  | bond st _ =>
    refine .inl ?_
    cases st with
    | insertSliceSlash v => simp only [BondStmt.exec]; split <;> rfl
    | closeRange v => simp only [BondStmt.exec]; split <;> rfl
    | _ => rfl
  | openDispute d hop hfresh => exact .inr (.inl ⟨d,hop,hfresh,rfl⟩)
  | writeDispute d hop => exact .inr (.inr ⟨d,hop,rfl⟩)
  | _ => exact .inl rfl

section

variable {l : Label} {Γ : Set Fact} {op : Op} {ch : Choice} {ls : List Label} {s s' : State}

theorem DisputeStmt.need.past (hn : (DisputeStmt.update d).need l.req Γ)
    (hΓ : ∀ f ∈ Γ, DisputeKnown s f) (hlive : d.isLive = false) : PastStage 2 d.orderId s := by
  rcases hn.2 with hl | hres | ⟨_,o,ho,hid,hst⟩
  · exact absurd hl (by simp [hlive])
  · exact PastStage.mono (hΓ _ hres) (by decide)
  · have h : PastStage o.status.stage o.id s := hΓ _ ho
    rwa [hst,hid] at h

theorem DisputeStmt.need.order (hn : (DisputeStmt.update d).need l.req Γ) (hi : DisputesFit s)
    (hΓ : ∀ f ∈ Γ, DisputeKnown s f) (hx : x ∈ s.disputes) (hid : x.id = d.id) :
    x.orderId = d.orderId := by
  obtain ⟨⟨y,hy,hyid,hyorder⟩,_⟩ := hn
  obtain ⟨z,hz,hzid,hzorder⟩ : ∃ z ∈ s.disputes, z.id = y.id ∧ z.orderId = y.orderId := hΓ _ hy
  rw [hi.unique hx hz (hid.trans (hyid.symm.trans hzid.symm)),hzorder,hyorder]

theorem disputesFit_effect (hi : DisputesFit s) (hn : op.need l.req Γ)
    (hΓ : ∀ f ∈ Γ, DisputeKnown s f) (hd : copiesFresh.onOp l op ch ls s)
    (he : Effect l.tid op s s') : DisputesFit s' ∧ DisputesStay s s' := by
  have hpast : ∀ n id, PastStage n id s → PastStage n id s' := fun _ _ h => h.effect hn hd he
  rcases he.disputes_cases with hsame | ⟨d,rfl,hfresh,rfl⟩ | ⟨d,rfl,rfl⟩
  · exact ⟨hi.of_disputes hsame he.nextId_le hpast,.of_eq hsame⟩
  · refine ⟨⟨?_,fun x hx => ?_,?_,fun x hx hl => ?_⟩,fun x hx =>
      ⟨x,List.mem_append_left _ hx,rfl,rfl⟩⟩
    · simp only [List.map_append,List.map_cons,List.map_nil]
      refine List.nodup_append.mpr ⟨hi.ids,List.nodup_singleton _,fun a ha b hb => ?_⟩
      obtain ⟨x,hx,rfl⟩ := List.mem_map.mp ha
      rw [List.mem_singleton.mp hb]
      exact Nat.ne_of_lt (hi.ids_lt x hx)
    · rcases List.mem_append.mp hx with hx | hx
      · exact Nat.lt_succ_of_lt (hi.ids_lt x hx)
      · rw [List.mem_singleton.mp hx]
        exact Nat.lt_succ_self _
    · simp only [List.map_append,List.map_cons,List.map_nil]
      refine List.nodup_append.mpr ⟨hi.orders,List.nodup_singleton _,fun a ha b hb => ?_⟩
      obtain ⟨x,hx,rfl⟩ := List.mem_map.mp ha
      rw [List.mem_singleton.mp hb]
      exact hfresh x hx
    · rcases List.mem_append.mp hx with hx | hx
      · exact hpast _ _ (hi.closed x hx hl)
      · rw [List.mem_singleton.mp hx] at hl
        exact nomatch (show d.isLive = true from hn).symm.trans hl
  · have hkeeps (x : Dispute) (hx : x ∈ s.disputes) (hsel : (x.id == d.id) = true) :
        d.id = x.id ∧ d.orderId = x.orderId :=
      ⟨(beq_iff_eq.mp hsel).symm,
        (DisputeStmt.need.order hn hi hΓ hx (beq_iff_eq.mp hsel)).symm⟩
    refine ⟨⟨?_,fun x hx => ?_,?_,fun x hx hl => ?_⟩,fun x hx => ?_⟩
    · rw [map_updateWhere (·.id) fun x hx hsel => (hkeeps x hx hsel).1]
      exact hi.ids
    · obtain ⟨y,hy,rfl⟩ := mem_updateWhere.mp hx
      split
      next hsel =>
        rw [(hkeeps y hy hsel).1]
        exact hi.ids_lt y hy
      · exact hi.ids_lt y hy
    · rw [map_updateWhere (·.orderId) fun x hx hsel => (hkeeps x hx hsel).2]
      exact hi.orders
    · obtain ⟨y,hy,rfl⟩ := mem_updateWhere.mp hx
      by_cases hsel : (y.id == d.id) = true
      · rw [if_pos hsel] at hl ⊢
        exact hpast _ _ (DisputeStmt.need.past hn hΓ hl)
      · rw [if_neg hsel] at hl ⊢
        exact hpast _ _ (hi.closed y hy hl)
    · by_cases hsel : (x.id == d.id) = true
      · exact ⟨d,mem_updateWhere.mpr ⟨x,hx,by rw [if_pos hsel]⟩,hkeeps x hx hsel⟩
      · exact ⟨x,mem_updateWhere.mpr ⟨x,hx,by rw [if_neg hsel]⟩,rfl,rfl⟩

end

theorem pastStage_run {tid : Nat} (u : OrderUpdate) {s : State} (hlt : u.target < s.nextId)
    (hset : ∀ r ∈ s.orders, r.order.id = u.target → u.selects s r = true ∧
      n ≤ (u.set r).order.status.stage) : PastStage n u.target (u.run tid s).1 := by
  refine ⟨hlt,fun r hr hid => ?_⟩
  obtain ⟨q,hq,rfl⟩ := mem_updateWhere.mp hr
  by_cases hsel : u.selects s q = true
  · rw [if_pos hsel] at hid ⊢
    exact (hset q hq (beq_iff_eq.mp (Bool.and_eq_true_iff.mp hsel).1)).2
  · rw [if_neg hsel] at hid
    exact absurd (hset q hq hid).1 hsel

theorem resolved_learnt {ext : Externals} {l : Label} {Γ : Set Fact} {u : OrderUpdate} {ch : Choice}
    {s : State} (hc : Consistent s) (hn : u.need l.req Γ) (hΓ : ∀ f ∈ Γ, f.Lasts s)
    (hf : .resolved id ∈ (Op.order (.run u)).learn (exec ext l.tid (.order (.run u)) ch s).2) :
    PastStage 3 id (exec ext l.tid (.order (.run u)) ch s).1 := by
  simp only [exec,orFault] at hf ⊢
  split at hf
  · cases u with
    | updateOrderToInitialState read a fee d => cases hf
    | _ => exact hf.elim
  next hne =>
    rw [if_neg hne]
    -- a settlement that has written a row has written the only one of its order
    have hsettled (hset : ∀ r, 3 ≤ (u.set r).order.status.stage)
        (hpos : affected (u.selects s) s.orders ≠ 0) :
        PastStage 3 u.target (u.run l.tid s).1 := by
      obtain ⟨r,hr,hsel⟩ := affected_pos.mp (Nat.pos_of_ne_zero hpos)
      have hid : r.order.id = u.target := beq_iff_eq.mp (Bool.and_eq_true_iff.mp hsel).1
      refine pastStage_run u (hid ▸ hc.orderIds_lt r hr) fun q hq hqid => ?_
      rw [hc.order_unique hq hr (hqid.trans hid.symm)]
      exact ⟨hsel,hset r⟩
    cases u with
    | update read row =>
      obtain ⟨hid,hclosed⟩ := hf
      cases hid
      obtain ⟨x,hx,hxid,_⟩ := RowWrite.offer hn
      have hlt : row.id < s.nextId := hxid ▸ (hΓ _ hx).1
      refine pastStage_run (.update read row) hlt fun q _ hqid => ?_
      refine ⟨by simp [OrderUpdate.selects,OrderUpdate.guard,hqid],?_⟩
      rw [show ((OrderUpdate.update read row).set q).order = row from rfl,stage_isClosed hclosed]
      decide
    | settleFromRelease x =>
      obtain ⟨hid,hpos⟩ := hf
      cases hid
      exact hsettled (fun _ => le_rfl) hpos
    | settleFromAdmin x =>
      obtain ⟨hid,hpos⟩ := hf
      cases hid
      exact hsettled (fun _ => le_rfl) hpos
    | casPromoteTakerContext | touchOrderPayoutClaim => cases hf.1
    | _ => exact hf.elim

theorem disputes_invariant (ext : Externals) :
    StepInvariant ext copiesFresh DisputesFit (fun _ f s => DisputeKnown s f) where
  init s hs := by
    obtain ⟨now,height,rfl⟩ := hs
    exact ⟨List.nodup_nil,by simp,List.nodup_nil,by simp⟩
  launch cfg l s s' hc hi hl := by
    have hk := launch_rowsKept hl
    have hpast : ∀ n id, PastStage n id s → PastStage n id s' := fun _ _ h =>
      h.of_orders hk.orders hk.nextId
    obtain ⟨_,rfl⟩ := launch_eq hl
    exact ⟨hi.of_disputes rfl hk.nextId hpast,fun _ f _ hf => hf.lasts hpast (.of_eq rfl)⟩
  op l Γ op ch ls s hn hΓ hc hi hd he := by
    obtain ⟨hfit,hstay⟩ := disputesFit_effect hi hn (fun f hf => (hΓ f hf).2) hd he
    exact ⟨hfit,fun _ _ f _ hf => hf.lasts (fun _ _ h => h.effect hn hd he) hstay⟩
  learn l Γ op ch ls s f hn hΓ hc hi hd hc' hinv hf hseen := by
    cases f with
    | order o =>
      obtain ⟨r,hr,rfl⟩ := hseen
      exact .of_row hc' hr
    | dispute x => exact ⟨x,hseen,rfl,rfl⟩
    | resolved id =>
      obtain ⟨u,rfl⟩ := learnt_by_run hf ⟨id,.inl rfl⟩
      exact resolved_learnt hc hn (fun f hf => (hΓ f hf).1) hf
    | _ => trivial
  env e ls s s' hc hi hd he := by
    have hk := he.rowsKept
    have hpast : ∀ n id, PastStage n id s → PastStage n id s' := fun _ _ h =>
      h.of_orders hk.orders hk.nextId
    have hsame : s'.disputes = s.disputes := by cases he <;> rfl
    exact ⟨hi.of_disputes hsame hk.nextId hpast,fun _ _ f _ hf => hf.lasts hpast (.of_eq hsame)⟩

end Mostro
