import Mostro.SmoothRuns
import Mostro.TimeoutProgress

set_option autoImplicit false

/-!
What a waiting-timeout pass leaves when it is cut or when one of its steps fails.  An order that has
been put back to pending is no longer selected, so the statements between that reset and the
publication of its event have to go through together.
-/

namespace Mostro

open Interleaving SqlTable

variable {op : Op} {s' : State} {id : Uuid} {o : Order} {r : OrderRow}

def State.lastEvent (s : State) (id : Uuid) : Option Status :=
  (s.published.find? (·.1 == id)).map (·.2)

/-- The order still has the trade index of a taker, or of a range the fiat amount that was taken.
No statement of a pass clears these. -/
def Order.takeLeft (o : Order) : Bool :=
  (match o.kind with
    | .sell => o.tradeIndexBuyer.isSome
    | .buy => o.tradeIndexSeller.isSome)
    || o.isRangeOrder && o.fiatAmount != 0

def Order.takerCleared (o : Order) : Bool :=
  o.hash.isNone && o.preimage.isNone && o.buyerInvoice.isNone && o.takenAt == 0
    && o.invoiceHeldAt == 0 && !o.takeLeft
    && match o.kind with
      | .sell => o.buyerPubkey.isNone && o.masterBuyerPubkey.isNone
      | .buy => o.sellerPubkey.isNone && o.masterSellerPubkey.isNone

/-- A later pass selects the order again, or the order is done with: canceled, or back on the book
with its event published. -/
def State.recovered (cfg : Settings) (s : State) (id : Uuid) : Bool :=
  (s.order? id).any fun r => r.order.overdue cfg s.now || r.order.status == .canceled
    || (r.order.status == .pending && r.order.takerCleared && s.lastEvent id == some .pending)

def State.late (cfg : Settings) (s : State) (id : Uuid) : Bool :=
  (s.order? id).any (·.order.overdue cfg s.now)

def State.overdueIds (cfg : Settings) (s : State) : List Uuid :=
  (s.orders.filter (·.order.overdue cfg s.now)).map (·.order.id)

def Order.recoverable (o : Order) : Bool := !orderRepublishesOnTimeout o || !o.takeLeft

def State.recoverableIds (cfg : Settings) (s : State) : List Uuid :=
  (s.orders.filter fun r => r.order.overdue cfg s.now && r.order.recoverable).map (·.order.id)

/-- The operation stands between the reset of one of the orders and the publication of its event. -/
def Op.midRepublish (ids : List Uuid) (s : State) (op : Op) : Bool :=
  match op with
  | .order (.run (.editPubkeysOrder id _)) | .query (.orderById id)
  | .updateOrderEvent id .pending =>
    ids.contains id && (s.order? id).any (·.order.status == .pending)
  | _ => false

/-- The reset of an order and what follows it up to its event do not fail. -/
abbrev republishHolds (ids : List Uuid) : Requirement := .check
  (fun _ op ch _ s => match op with
    | .order (.run (.updateOrderToInitialState _ _ _ _)) => ch != .fault
    | op => !op.midRepublish ids s || ch != .fault)
  (fun _ _ _ => true)

def Op.offBook : Op → Bool
  | .order _ | .updateOrderEvent _ _ => false
  | _ => true

structure SameBook (s s' : State) : Prop where
  orders : s'.orders = s.orders
  published : s'.published = s.published
  now : s'.now = s.now

theorem SameBook.refl (s : State) : SameBook s s := ⟨rfl,rfl,rfl⟩

theorem SameBook.trans {s₁ s₂ s₃ : State} (h : SameBook s₁ s₂) (h' : SameBook s₂ s₃) :
    SameBook s₁ s₃ :=
  ⟨h'.orders.trans h.orders,h'.published.trans h.published,h'.now.trans h.now⟩

theorem Effect.published_of_not {tid : Nat} {s : State} (he : Effect tid op s s')
    (h : op.offBook = true) : s'.published = s.published := by
  cases he with
  | quiet hq =>
    obtain ⟨_,_,rfl⟩ := hq
    rfl
  | order st hst => subst hst; cases h
  | bond st hst => exact bondStmt_rest st s State.published
  | publish id status hst => subst hst; cases h
  | _ => rfl

theorem exec_sameBook (ext : Externals) (tid : Nat) (ch : Choice) (s : State)
    (h : op.offBook = true) : SameBook s (exec ext tid op ch s).1 := by
  have he := exec_effect ext tid op ch s
  have hop : op.isOrder = false := by cases op <;> first | rfl | cases h
  exact ⟨he.orders_of_not hop,he.published_of_not h,exec_now ext tid op ch s⟩

def State.handled (cfg : Settings) (s : State) (id : Uuid) : Bool :=
  (s.order? id).any fun r => r.order.overdue cfg s.now && r.order.recoverable
    || r.order.status == .canceled
    || (r.order.status == .pending && r.order.takerCleared && s.lastEvent id == some .pending)

theorem recovered_of_handled {cfg : Settings} {s : State} (h : s.handled cfg id = true) :
    s.recovered cfg id = true := by
  obtain ⟨r,hr,h⟩ := (Option.any_eq_true _ _).mp h
  refine (Option.any_eq_true _ _).mpr ⟨r,hr,?_⟩
  simp only [Bool.or_eq_true,Bool.and_eq_true] at h ⊢
  exact h.imp_left (·.imp_left And.left)

theorem SameBook.handled {cfg : Settings} {s : State} (h : SameBook s s') (id : Uuid) :
    s'.handled cfg id = s.handled cfg id := by
  simp only [State.handled,State.order?,State.lastEvent,h.orders,h.published,h.now]

theorem offBook_slashes : Slashes fun op => op.offBook = true where
  query _ := rfl
  timestamp := rfl
  insert _ := rfl
  share _ := rfl
  settle _ := rfl
  slash _ _ _ _ _ := rfl

theorem offBook_closes : Closes fun op => op.offBook = true where
  query _ := rfl
  timestamp := rfl
  bond _ := ⟨rfl,rfl,fun _ _ => rfl,fun _ => rfl⟩
  settle _ := rfl
  close _ := rfl

structure OrderUpdate.Writes (u : OrderUpdate) (id : Uuid) : Prop where
  selects : ∀ s r, u.selects s r = (r.order.id == id)
  keeps : ∀ r : OrderRow, r.order.id = id → (u.set r).order.id = id

theorem OrderUpdate.Writes.order? {u : OrderUpdate} (h : u.Writes id) (tid : Nat) (s : State)
    (x : Uuid) :
    (u.run tid s).1.order? x = (s.order? x).map fun r => if x = id then u.set r else r := by
  have hfind : (u.run tid s).1.order? x = (s.order? x).map fun r =>
      if u.selects s r then u.set r else r := by
    simp only [State.order?,OrderUpdate.run,updateWhere]
    rw [List.find?_map]
    congr 2
    funext r
    simp only [Function.comp,h.selects,beq_iff_eq]
    split
    next hr => rw [h.keeps r hr,hr]
    · rfl
  rw [hfind]
  cases hx : s.order? x with
  | none => rfl
  | some r =>
    have hid : r.order.id = x := by simpa using List.find?_some hx
    simp [h.selects,hid]

theorem writes_reset {amount fee devFee : Int} :
    (OrderUpdate.updateOrderToInitialState o amount fee devFee).Writes o.id :=
  ⟨fun _ _ => Bool.and_true _,fun _ h => h⟩

theorem writes_edit {kind : Kind} : (OrderUpdate.editPubkeysOrder id kind).Writes id := by
  refine ⟨fun _ _ => Bool.and_true _,fun r h => ?_⟩
  cases kind <;> exact h

theorem writes_update {read row : Order} : (OrderUpdate.update read row).Writes row.id :=
  ⟨fun _ _ => Bool.and_true _,fun _ _ => rfl⟩

/-! ### One round of a pass -/

structure Round (id : Uuid) (s s' : State) : Prop where
  now : s'.now = s.now
  order : ∀ x, x ≠ id → s'.order? x = s.order? x
  event : ∀ x, x ≠ id → s'.lastEvent x = s.lastEvent x
  parent : (s'.order? id).map (·.order.rangeParentId) = (s.order? id).map (·.order.rangeParentId)

theorem Round.trans {s₁ s₂ s₃ : State} (h : Round id s₁ s₂) (h' : Round id s₂ s₃) :
    Round id s₁ s₃ where
  now := h'.now.trans h.now
  order x hx := (h'.order x hx).trans (h.order x hx)
  event x hx := (h'.event x hx).trans (h.event x hx)
  parent := h'.parent.trans h.parent

theorem SameBook.order? {s : State} (h : SameBook s s') (x : Uuid) : s'.order? x = s.order? x := by
  simp only [State.order?,h.orders]

theorem SameBook.late {cfg : Settings} {s : State} (h : SameBook s s') (x : Uuid) :
    s'.late cfg x = s.late cfg x := by
  simp only [State.late,h.order?,h.now]

theorem SameBook.round {s : State} (h : SameBook s s') (id : Uuid) : Round id s s' where
  now := h.now
  order x _ := h.order? x
  event x _ := by simp only [State.lastEvent,h.published]
  parent := by rw [h.order?]

theorem OrderUpdate.Writes.round {u : OrderUpdate} (hu : u.Writes id) {s : State}
    (hr : s.order? id = some r) (hparent : (u.set r).order.rangeParentId = r.order.rangeParentId)
    (tid : Nat) :
    Round id s (u.run tid s).1 where
  now := rfl
  order x hx := by simp [hu.order?,hx]
  event _ _ := rfl
  parent := by simp [hu.order?,hr,hparent]

theorem publish_round (id : Uuid) (status : Status) (s : State) :
    Round id s (s.withEvent id status) where
  now := rfl
  order _ _ := rfl
  event x hx := by simp [State.lastEvent,Ne.symm hx]
  parent := rfl

def Recovered (cfg : Settings) (ids : List Uuid) (s : State) : Prop :=
  ∀ id ∈ ids, s.handled cfg id = true

theorem handled_of_row {cfg : Settings} {s : State} (hr : s.order? id = some r) :
    s.handled cfg id = (r.order.overdue cfg s.now && r.order.recoverable
      || r.order.status == .canceled
      || (r.order.status == .pending && r.order.takerCleared &&
        s.lastEvent id == some .pending)) := by
  simp only [State.handled,hr,Option.any_some]

theorem Round.recovered {cfg : Settings} {ids : List Uuid} {s : State} (h : Round id s s')
    (hs : Recovered cfg ids s) (hid : id ∈ ids → s'.handled cfg id = true) :
    Recovered cfg ids s' := by
  intro x hx
  by_cases hxid : x = id
  · rw [hxid] at hx ⊢
    exact hid hx
  · rw [← hs x hx]
    simp only [State.handled,h.order x hxid,h.event x hxid,h.now]

section

variable {cfg : Settings} {ext : Externals} {D : Requirement} {P : Label → Op → State → Prop}
variable {l : Label} {s : State}

abbrev State.keysEdited (s : State) (tid : Nat) (o : Order) : State :=
  (OrderUpdate.run tid s (.editPubkeysOrder o.id o.kind)).1

abbrev OrderRow.keysEdited (r : OrderRow) (o : Order) : OrderRow :=
  OrderUpdate.set r (.editPubkeysOrder o.id o.kind)

theorem keysEdited_row (hr : s.order? o.id = some r) (tid : Nat) :
    (s.keysEdited tid o).order? o.id = some (r.keysEdited o) := by
  simp [writes_edit.order?,hr]

theorem editPubkeysOrder_solo (hr : s.order? o.id = some r)
    {Q : Except MostroError Order → State → Prop}
    (hedit : P l (.order (.run (.editPubkeysOrder o.id o.kind))) s)
    (hread : P l (.query (.orderById o.id)) (s.keysEdited l.tid o))
    (hfault : D.onOp l (.order (.run (.editPubkeysOrder o.id o.kind))) .fault [l] s →
      ∀ e, Q (.error e) s)
    (hfault' : D.onOp l (.query (.orderById o.id)) .fault [l] (s.keysEdited l.tid o) →
      ∀ e, Q (.error e) (s.keysEdited l.tid o))
    (hok : ∀ s', SameBook (s.keysEdited l.tid o) s' → Q (.ok (r.keysEdited o).order) s') :
    (daemon cfg ext).Sat D (.solo P) l (editPubkeysOrder o) Q s := by
  have hpos : 0 < (OrderUpdate.run l.tid s (.editPubkeysOrder o.id o.kind)).2 := by
    refine affected_pos.mpr ⟨r,List.mem_of_find?_eq_some hr,?_⟩
    rw [writes_edit.selects]
    simpa using List.find?_some hr
  have hfound :
      (Query.orderById o.id).run (s.keysEdited l.tid o) = some (r.keysEdited o).order := by
    simp [Query.run,keysEdited_row hr]
  refine solo_run_bind hedit hfault (sat_ensure_bind (fun _ => ?_) fun h => ?_)
  · refine solo_query_bind hread hfault' ?_
    rw [hfound]
    exact hok _ ⟨rfl,rfl,rfl⟩
  · exact absurd (by simpa using h) (Nat.ne_of_gt hpos)

theorem publishAndUpdate_solo {known edited : Order} {status : Status}
    {Q : Except MostroError Unit → State → Prop}
    (hpublish : P l (.updateOrderEvent edited.id status) s)
    (hupdate : P l (.order (.run (.update known { edited with status })))
      (s.withEvent edited.id status))
    (hfault : D.onOp l (.updateOrderEvent edited.id status) .fault [l] s → ∀ e, Q (.error e) s)
    (hfault' : D.onOp l (.order (.run (.update known { edited with status }))) .fault [l]
      (s.withEvent edited.id status) → ∀ e, Q (.error e) (s.withEvent edited.id status))
    (hok : Q (.ok ()) (OrderUpdate.run l.tid (s.withEvent edited.id status)
      (.update known { edited with status })).1) :
    (daemon cfg ext).Sat D (.solo P) l
      ((updateOrderEvent status edited).bind fun updated => updateOrder known updated) Q s := by
  refine sat_bind_assoc (solo_publish_bind hpublish hfault ?_)
  exact solo_run_bind hupdate hfault' hok

end

/-! ### A round under the condition -/

abbrev recoveryContract (cfg : Settings) (ids : List Uuid) : Contract State Label Op :=
  .solo fun _ op s => op.midRepublish ids s = false → Recovered cfg ids s

theorem republishHolds_mid {ids : List Uuid} {l : Label} {ch : Choice} {ls : List Label} {s : State}
    (h : (republishHolds ids).onOp l op ch ls s) (hmid : op.midRepublish ids s = true) :
    ch ≠ .fault := by
  rintro rfl
  simp only [System.Demand.check] at h
  split at h
  · cases h
  · simp [hmid] at h

theorem republishHolds_reset {ids : List Uuid} {l : Label} {amount fee devFee : Int} {ch : Choice}
    {ls : List Label} {s : State}
    (h : (republishHolds ids).onOp l
      (.order (.run (.updateOrderToInitialState o amount fee devFee))) ch ls s) : ch ≠ .fault := by
  simpa [System.Demand.check] using h

theorem mid_of_pending {ids : List Uuid} {s : State} (hmem : id ∈ ids) (hr : s.order? id = some r)
    (hp : r.order.status = .pending) :
    (∀ kind, (Op.order (.run (.editPubkeysOrder id kind))).midRepublish ids s = true) ∧
      (Op.query (.orderById id)).midRepublish ids s = true ∧
      (Op.updateOrderEvent id .pending).midRepublish ids s = true := by
  simp [Op.midRepublish,hmem,hr,hp]

section

variable {cfg : Settings} {ext : Externals} {D : Requirement} {ids : List Uuid}
variable {l : Label} {s : State}

theorem offBook_recovers {α : Type} {p : M α} (hp : p.Only fun op => op.offBook = true)
    (hs : Recovered cfg ids s) :
    (daemon cfg ext).Sat D (recoveryContract cfg ids) l p (fun _ s' => SameBook s s') s := by
  refine System.Sat.of_only hp (.refl s) (fun _ _ h hr => hr ▸ h) fun op _ s' hop h _ => ?_
  refine ⟨fun _ id hid => (h.handled id).trans (hs id hid),fun ch _ => ?_⟩
  exact h.trans (exec_sameBook ext l.tid ch s' hop)

theorem reset_cleared (hkind : o.kind = r.order.kind) (hleft : r.order.takeLeft = false) :
    (((OrderUpdate.updateOrderToInitialState o o.amount o.fee o.devFee).set r).keysEdited
      o).order.takerCleared = true := by
  have hsame : (((OrderUpdate.updateOrderToInitialState o o.amount o.fee o.devFee).set r).keysEdited
      o).order.takeLeft = false := by
    rw [← hleft]
    cases hk : o.kind <;> simp only [OrderRow.keysEdited,OrderUpdate.set,hk] <;> rfl
  rw [Order.takerCleared,hsame]
  cases hk : o.kind <;> rw [hk] at hkind <;>
    simp [OrderRow.keysEdited,OrderUpdate.set,Order.toInitialState,hk,← hkind]

theorem keysEdited_status (r : OrderRow) (o : Order) :
    (r.keysEdited o).order.status = r.order.status := by
  cases hk : o.kind <;> simp [OrderRow.keysEdited,OrderUpdate.set,hk]

theorem keysEdited_kind (r : OrderRow) (o : Order) :
    (r.keysEdited o).order.kind = r.order.kind := by
  cases hk : o.kind <;> simp [OrderRow.keysEdited,OrderUpdate.set,hk]

theorem keysEdited_takenAt (r : OrderRow) (o : Order) :
    (r.keysEdited o).order.takenAt = r.order.takenAt := by
  cases hk : o.kind <;> simp [OrderRow.keysEdited,OrderUpdate.set,hk]

theorem keysEdited_rangeParentId (r : OrderRow) (o : Order) :
    (r.keysEdited o).order.rangeParentId = r.order.rangeParentId := by
  cases hk : o.kind <;> simp [OrderRow.keysEdited,OrderUpdate.set,hk]

theorem keysEdited_id (r : OrderRow) (o : Order) : (r.keysEdited o).order.id = r.order.id := by
  cases hk : o.kind <;> simp [OrderRow.keysEdited,OrderUpdate.set,hk]

theorem order?_id (h : s.order? id = some r) : r.order.id = id := by
  simpa using List.find?_some h

theorem late_of_status (hr : s.order? id = some r) (h : r.order.waits = false) :
    s.late cfg id = false := by
  simp [State.late,hr,Order.overdue,h]

theorem handled_pending (hr : s.order? id = some r) (hp : r.order.status = .pending)
    (hc : r.order.takerCleared = true) (he : s.lastEvent id = some .pending) :
    s.handled cfg id = true := by
  simp [handled_of_row hr,hp,hc,he]

theorem update_row (known : Order) {row : Order} (hr : s.order? row.id = some r) (tid : Nat) :
    (OrderUpdate.run tid s (.update known row)).1.order? row.id = some { r with order := row } := by
  simp [writes_update.order?,hr,OrderUpdate.set]

theorem update_round (known : Order) {row : Order} (hr : s.order? row.id = some r)
    (hparent : row.rangeParentId = r.order.rangeParentId) (tid : Nat) :
    Round row.id s (OrderUpdate.run tid s (.update known row)).1 :=
  writes_update.round hr hparent tid

theorem republishReset_round
    (hD : ∀ {l op ch ls s}, D.onOp l op ch ls s → (republishHolds ids).onOp l op ch ls s)
    {known : Order} {s₀ : State} (hr : s.order? o.id = some r) (hp : r.order.status = .pending)
    (hcleared : o.id ∈ ids → (r.keysEdited o).order.takerCleared = true) (hs : Recovered cfg ids s₀)
    (hround : Round o.id s₀ s) :
    (daemon cfg ext).Sat D (recoveryContract cfg ids) l
      ((editPubkeysOrder o).bind fun edited =>
      (updateOrderEvent .pending edited).bind fun updated =>
        updateOrder known updated) (fun _ s' =>
      Round o.id s₀ s' ∧ (o.id ∈ ids → s'.handled cfg o.id = true) ∧
      s'.late cfg o.id = false) s := by
  have hr₁ := keysEdited_row hr l.tid
  have hround₁ : Round o.id s₀ (s.keysEdited l.tid o) :=
    hround.trans (writes_edit.round hr (keysEdited_rangeParentId r o) l.tid)
  have hp₁ := (keysEdited_status r o).trans hp
  have hid : (r.keysEdited o).order.id = o.id := (keysEdited_id r o).trans (order?_id hr)
  have hlate {s' : State} {r' : OrderRow} (hr' : s'.order? o.id = some r')
      (hp' : r'.order.status = .pending) : s'.late cfg o.id = false :=
    late_of_status hr' (by rw [Order.waits,hp']; rfl)
  -- within the republication of a listed order the pass is neither cut nor does it fail
  have hcut {s' : State} (h : Round o.id s₀ s') {op : Op}
      (hop : o.id ∈ ids → op.midRepublish ids s' = true) (hmid : op.midRepublish ids s' = false) :
      Recovered cfg ids s' :=
    h.recovered hs fun hmem => absurd (hop hmem) (by simp [hmid])
  have hfail {s' : State} {r' : OrderRow} (hr' : s'.order? o.id = some r')
      (hp' : r'.order.status = .pending) (h : Round o.id s₀ s') {op : Op}
      (hop : o.id ∈ ids → op.midRepublish ids s' = true) (hd : D.onOp l op .fault [l] s') :
      Round o.id s₀ s' ∧ (o.id ∈ ids → s'.handled cfg o.id = true) ∧ s'.late cfg o.id = false :=
    ⟨h,fun hmem => absurd rfl (republishHolds_mid (hD hd) (hop hmem)),hlate hr' hp'⟩
  have hedit (hmem : o.id ∈ ids) := (mid_of_pending hmem hr hp).1
  have hread (hmem : o.id ∈ ids) := (mid_of_pending hmem hr₁ hp₁).2.1
  refine System.Sat.bind (editPubkeysOrder_solo hr (hcut hround fun hmem => hedit hmem _)
    (hcut hround₁ hread) (fun hd _ => hfail hr hp hround (fun hmem => hedit hmem _) hd)
    (fun hd _ => hfail hr₁ hp₁ hround₁ hread hd) fun s₂ hsame => ?_)
  have hr₂ := (hsame.order? o.id).trans hr₁
  have hpublish (hmem : o.id ∈ ids) := (mid_of_pending hmem hr₂ hp₁).2.2
  have hround₂ := hround₁.trans (hsame.round o.id)
  have hcut₂ := hcut hround₂ hpublish
  have hfail₂ := hfail hr₂ hp₁ hround₂ hpublish
  have hround₃ := hround₂.trans (publish_round o.id .pending s₂)
  have hrec : o.id ∈ ids → (s₂.withEvent o.id .pending).handled cfg o.id = true := fun hmem =>
    handled_pending hr₂ hp₁ (hcleared hmem) (by simp [State.lastEvent])
  have hlate₃ : (s₂.withEvent o.id .pending).late cfg o.id = false := hlate hr₂ hp₁
  rw [← hid] at hround₃ hrec hlate₃ hcut₂ hfail₂ hcleared ⊢
  refine publishAndUpdate_solo hcut₂ (fun _ => hround₃.recovered hs hrec) (fun hd _ => hfail₂ hd)
    (fun _ _ => ⟨hround₃,hrec,hlate₃⟩) ?_
  -- the whole-row update writes what is stored
  rw [← hid] at hr₂
  have hr₃ : (s₂.withEvent (r.keysEdited o).order.id .pending).order?
      { (r.keysEdited o).order with status := .pending }.id = some (r.keysEdited o) := hr₂
  have hr₄ := update_row known hr₃ l.tid
  refine ⟨hround₃.trans (update_round known hr₃ rfl l.tid),fun hmem => ?_,late_of_status hr₄ rfl⟩
  refine handled_pending hr₄ rfl (hcleared hmem) ?_
  simp [State.lastEvent,OrderUpdate.run]

theorem republishOnTimeout_round
    (hD : ∀ {l op ch ls s}, D.onOp l op ch ls s → (republishHolds ids).onOp l op ch ls s)
    (hr : s.order? o.id = some r) (hkind : o.kind = r.order.kind)
    (hleft : o.id ∈ ids → r.order.takeLeft = false) (hs : Recovered cfg ids s) :
    (daemon cfg ext).Sat D (recoveryContract cfg ids) l (republishOnTimeout o) (fun _ s' =>
      Round o.id s s' ∧ (o.id ∈ ids → s'.handled cfg o.id = true) ∧
        s'.late cfg o.id = false) s := by
  have hwrites : OrderUpdate.Writes (.updateOrderToInitialState o o.amount o.fee o.devFee) o.id :=
    writes_reset
  refine solo_ask_attempt_bind (fun _ => hs) fun ch hd => ?_
  rw [exec_order_of_ne (republishHolds_reset (hD hd))]
  refine republishReset_round hD ?_ rfl (fun hmem => reset_cleared hkind (hleft hmem)) hs
    (hwrites.round hr rfl l.tid)
  exact (hwrites.order? l.tid s o.id).trans (by simp [hr])

theorem overdue_handled (hr : s.order? id = some r) (h : r.order.overdue cfg s.now = true)
    (hrec : r.order.recoverable = true) : s.handled cfg id = true := by
  simp [handled_of_row hr,h,hrec]

theorem cancelOnTimeout_round (hr : s.order? o.id = some r)
    (hover : r.order.overdue cfg s.now = true) (hkeep : orderRepublishesOnTimeout r.order = false)
    (hs : Recovered cfg ids s) :
    (daemon cfg ext).Sat D (recoveryContract cfg ids) l (cancelOnTimeout o) (fun _ s' =>
      Round o.id s s' ∧ s'.handled cfg o.id = true ∧
      (Reliable D → s'.late cfg o.id = false)) s := by
  have hr₁ := keysEdited_row hr l.tid
  have hround₁ : Round o.id s (s.keysEdited l.tid o) :=
    writes_edit.round hr (keysEdited_rangeParentId r o) l.tid
  have hover₁ : (r.keysEdited o).order.overdue cfg s.now = true := by
    rw [← hover,Order.overdue,Order.waits,keysEdited_status,keysEdited_takenAt]
    rfl
  have hkeep₁ : (r.keysEdited o).order.recoverable = true := by
    rw [Order.recoverable,orderRepublishesOnTimeout,keysEdited_status,keysEdited_kind]
    simpa [orderRepublishesOnTimeout] using .inl hkeep
  have hrec₁ : (s.keysEdited l.tid o).handled cfg o.id = true := overdue_handled hr₁ hover₁ hkeep₁
  have hid : (r.keysEdited o).order.id = o.id := (keysEdited_id r o).trans (order?_id hr)
  refine System.Sat.bind (editPubkeysOrder_solo hr (fun _ => hs)
    (fun _ => hround₁.recovered hs fun _ => hrec₁) (fun hd _ => ?_) (fun hd _ => ?_)
    fun s₂ hsame => ?_)
  · exact ⟨(SameBook.refl s).round o.id,overdue_handled hr hover
      (by simp [Order.recoverable,hkeep]),
      fun hrel => absurd rfl (hrel.not_fault hd rfl)⟩
  · exact ⟨hround₁,hrec₁,fun hrel => absurd rfl (hrel.not_fault hd rfl)⟩
  have hr₂ := (hsame.order? o.id).trans hr₁
  have hround₂ := hround₁.trans (hsame.round o.id)
  have hround₃ := hround₂.trans (publish_round o.id .canceled s₂)
  have hover₂ : (r.keysEdited o).order.overdue cfg s₂.now = true := by
    rw [hsame.now]
    exact hover₁
  have hrec₂ : s₂.handled cfg o.id = true := overdue_handled hr₂ hover₂ hkeep₁
  have hrec₃ : (s₂.withEvent o.id .canceled).handled cfg o.id = true :=
    overdue_handled hr₂ hover₂ hkeep₁
  rw [← hid] at hround₂ hround₃ hrec₂ hrec₃ hr₂ ⊢
  refine sat_assoc_bind (System.Sat.bind (publishAndUpdate_solo
    (fun _ => hround₂.recovered hs fun _ => hrec₂) (fun _ => hround₃.recovered hs fun _ => hrec₃)
    (fun hd _ => ?_) (fun hd _ => ?_) ?_))
  · exact ⟨hround₂,hrec₂,fun hrel => absurd rfl (hrel.not_fault hd rfl)⟩
  · exact ⟨hround₃,hrec₃,fun hrel => absurd rfl (hrel.not_fault hd rfl)⟩
  have hr₃ : (s₂.withEvent (r.keysEdited o).order.id .canceled).order?
      { (r.keysEdited o).order with status := .canceled }.id = some (r.keysEdited o) := hr₂
  have hr₄ := update_row o hr₃ l.tid
  have hround₄ := hround₃.trans (update_round o hr₃ rfl l.tid)
  have hrec₄ := hround₄.recovered hs fun _ => by simp [handled_of_row hr₄]
  refine (offBook_recovers (resolveRangeMakerBondAtCloseOrWarn_only offBook_closes o) hrec₄).mono
    fun _ s₅ hsame₅ => ⟨hround₄.trans (hsame₅.round _),?_,fun _ => ?_⟩
  · rw [hsame₅.handled]
    simp [handled_of_row hr₄]
  · exact late_of_status ((hsame₅.order? _).trans hr₄) rfl

end

section

variable {cfg : Settings} {ext : Externals} {D : Requirement} {l : Label} {s : State}
variable {b : Bond} {reason : BondSlashReason}

theorem ends_bind {α β : Type} {p : M α} {f : α → M β} {Q : Except MostroError β → State → Prop}
    (hp : Smooth D cfg ext l p (fun r _ => ∃ a, r = .ok a) s)
    (hf : ∀ a s', Smooth D cfg ext l (f a) Q s') : Smooth D cfg ext l (p.bind f) Q s := by
  refine smooth_bind hp ?_ fun a s' _ => hf a s'
  rintro e s' ⟨a,⟨⟩⟩

theorem slashOne_ends {pct : ℚ} :
    Smooth D cfg ext l (slashOne o b reason pct) (fun r _ => ∃ a, r = .ok a) s := by
  unfold slashOne
  split
  · exact ⟨(),rfl⟩
  next preimage _ =>
    have hsettle : (settleBondInvoice preimage).Succeeds := by
      refine (Prog.attempt_succeeds _).bind fun r => ?_
      cases r <;> trivial
    refine ends_bind (smooth_succeeds hsettle) fun settled s' => ?_
    cases settled with
    | false => exact ⟨(),rfl⟩
    | true =>
      refine smooth_then smooth_timestamp fun s' _ => ?_
      exact smooth_succeeds (Prog.ignore_succeeds _)

variable [Reliable D]

theorem recordMakerSliceSlash_ends {root : Order} {pct : ℚ} :
    Smooth D cfg ext l (recordMakerSliceSlash o root b reason pct)
    (fun r _ => ∃ a, r = .ok a) s := by
  unfold recordMakerSliceSlash
  split
  · dsimp only
    split
    · exact ⟨false,rfl⟩
    · refine smooth_then smooth_timestamp fun s₁ _ => ?_
      refine smooth_then smooth_execBond fun s₂ _ => ?_
      split
      · exact ⟨false,rfl⟩
      · exact smooth_then smooth_execBond fun s₃ _ => ⟨true,rfl⟩
  · exact ⟨false,rfl⟩

theorem slashSide_ends {side : Side} {isRange : Bool} (hroot : (s.rangeRootOf o).isSome = true) :
    Smooth D cfg ext l (slashSide cfg o b side isRange reason) (fun r _ => ∃ a, r = .ok a) s := by
  obtain ⟨root,hroot⟩ := Option.isSome_iff_exists.mp hroot
  unfold slashSide
  split
  · refine smooth_then (findRangeRootOrder_smooth hroot) fun s₁ _ => ?_
    refine ends_bind recordMakerSliceSlash_ends fun inserted s₂ => ?_
    cases inserted with
    | false => exact ⟨_,rfl⟩
    | true => exact smooth_then smooth_query fun s₃ _ => ⟨_,rfl⟩
  · refine ends_bind slashOne_ends fun _ s₁ => ?_
    exact smooth_then smooth_query fun s₂ _ => ⟨_,rfl⟩

theorem slashOrReleaseOnTimeout_ends (hroot : (s.rangeRootOf o).isSome = true) :
    Smooth D cfg ext l (slashOrReleaseOnTimeout cfg o) (fun r _ => ∃ a, r = .ok a) s := by
  have hrelease (republishes : Bool) : (releaseOnTimeout o.id republishes).Succeeds := by
    cases republishes <;> exact Prog.ignore_succeeds _
  have hroot' {s' : State} (h : s'.unread = s.unread) : (s'.rangeRootOf o).isSome = true := by
    rwa [rangeRootOf_congr (State.Holds.of_unread h).orders]
  unfold slashOrReleaseOnTimeout
  split
  · exact smooth_succeeds (Prog.ignore_succeeds _)
  next side _ =>
    dsimp only
    split
    · exact smooth_succeeds (hrelease _)
    · refine smooth_then smooth_query fun s₁ h₁ => ?_
      refine smooth_then (orderHasRangeMakerBond_smooth (hroot' h₁)) fun s₂ h₂ => ?_
      rw [← inRange_congr (State.Holds.of_unread h₂).orders]
      have h₂ := h₂.trans h₁
      refine smooth_then (resolveSlashTarget_smooth (hroot' h₂)) fun s₃ h₃ => ?_
      split
      · exact smooth_succeeds (hrelease _)
      · refine ends_bind (slashSide_ends (hroot' (h₃.trans h₂))) fun _ s₄ => ?_
        refine smooth_succeeds (Prog.Succeeds.forEach fun b => ?_)
        split
        · trivial
        · exact Prog.ignore_succeeds _

end

/-! ### The pass -/

theorem waits_iff :
    o.waits = true ↔ o.status = .waitingBuyerInvoice ∨ o.status = .waitingPayment := by
  unfold Order.waits
  cases o.status <;> simp [responsibleSide]

structure Clears (ext : Externals) (D : Requirement) : Prop where
  reliable : Reliable D
  cancel : ∀ {l : Label} {h : Hash} {ch : Choice} {ls : List Label} {s : State},
    D.onOp l (.lnd (.cancelHoldInvoice h)) ch ls s →
      (exec ext l.tid (.lnd (.cancelHoldInvoice h)) ch s).2 = .ok ()

/-- The generations of the order's range can be walked up. -/
def State.rooted (s : State) (id : Uuid) : Bool :=
  (s.order? id).all fun r => (s.rangeRootOf r.order).isSome

section

variable {cfg : Settings} {ext : Externals} {D : Requirement} {ids : List Uuid}
variable {l : Label} {s : State}

theorem reconfirm_reads (hs : Recovered cfg ids s) :
    (daemon cfg ext).Sat D (recoveryContract cfg ids) l (reconfirmTimeoutEligibility cfg id)
      (fun res s' => SameBook s s' ∧ ∃ found, res = .ok found ∧
        (∀ o, found = some o → ∃ r, s.order? id = some r ∧ r.order = o ∧
          o.overdue cfg s.now = true) ∧
        (Reliable D → found = none → s.late cfg id = false)) s := by
  refine solo_ask_attempt_bind (fun _ => hs) fun ch hd => ?_
  have hsame : SameBook s (exec ext l.tid (.query (.orderById id)) ch s).1 :=
    exec_sameBook ext l.tid ch s rfl
  refine solo_ask_bind (fun _ => fun x hx => (hsame.handled x).trans (hs x hx)) fun ch' _ => ?_
  refine ⟨fun now hnow => ⟨hsame,_,rfl,fun o ho => ?_,fun hrel hnone => ?_⟩,fun e he => nomatch he⟩
  · cases hnow
    obtain ⟨hfound,hwaits,hlate⟩ := reconfirmed (congrArg Except.ok ho)
    obtain ⟨r,hr,hro⟩ := Option.map_eq_some_iff.mp (exec_query_ok hfound).2
    refine ⟨r,hr,hro,?_⟩
    rw [hsame.now] at hlate
    rw [Order.overdue,hwaits]
    exact decide_eq_true hlate
  · cases hnow
    have hch : ch ≠ .fault := hrel.not_fault hd rfl
    simp only [exec,orFault,if_neg hch] at hnone
    cases hr : s.order? id with
    | none => simp [State.late,hr]
    | some r =>
      simpa [State.late,hr,Order.overdue,waits_iff,Except.toOption,Query.run] using hnone

theorem cancelEscrow_clears (hs : Recovered cfg ids s) :
    (daemon cfg ext).Sat D (recoveryContract cfg ids) l (cancelEscrow o)
      (fun r s' => SameBook s s' ∧ (Clears ext D → r = .ok ())) s := by
  unfold cancelEscrow
  split
  · exact solo_ask (fun _ => hs) fun ch hd =>
      ⟨exec_sameBook ext l.tid ch s rfl,fun hclear => hclear.cancel hd⟩
  · exact ⟨.refl s,fun _ => rfl⟩

theorem offBook_releases : Releases fun op => op.offBook = true where
  query _ := rfl
  timestamp := rfl
  bond _ := ⟨rfl,rfl,fun _ _ => rfl,fun _ => rfl⟩

theorem slashOrReleaseOnTimeout_recovers (hs : Recovered cfg ids s) :
    (daemon cfg ext).Sat D (recoveryContract cfg ids) l (slashOrReleaseOnTimeout cfg o)
      (fun r s' => SameBook s s' ∧ (Reliable D → (s.rangeRootOf o).isSome = true →
        ∃ a, r = .ok a)) s := by
  refine System.Sat.and_solo (offBook_recovers
    (slashOrReleaseOnTimeout_only offBook_slashes offBook_releases cfg o) hs) ?_
  by_cases h : Reliable D ∧ (s.rangeRootOf o).isSome = true
  · obtain ⟨hrel,hroot⟩ := h
    exact (slashOrReleaseOnTimeout_ends hroot).mono fun _ _ h _ _ => h
  · refine (System.Sat.of_only (Prog.only_true _) (T := fun _ => True) trivial
      (fun _ _ _ _ => trivial)
      fun _ _ _ _ _ _ => ⟨trivial,fun _ _ => trivial⟩).mono fun _ _ _ hrel hroot => ?_
    exact absurd ⟨hrel,hroot⟩ h

theorem resetForTimeout_keeps (o : Order) : o.resetForTimeout.id = o.id ∧
    o.resetForTimeout.kind = o.kind ∧ o.resetForTimeout.rangeParentId = o.rangeParentId := by
  unfold Order.resetForTimeout
  split <;> exact ⟨rfl,rfl,rfl⟩

theorem rootOrderFrom_isSome_congr
    (h : ∀ x, (s'.order? x).map (·.order.rangeParentId) = (s.order? x).map (·.order.rangeParentId))
    {o' : Order} (ho : o'.rangeParentId = o.rangeParentId) (depth : Nat) :
    (s'.rootOrderFrom depth o').isSome = (s.rootOrderFrom depth o).isSome := by
  induction depth generalizing o o' with
  | zero => rfl
  | succ depth ih =>
    simp only [State.rootOrderFrom,ho]
    cases o.rangeParentId with
    | none => rfl
    | some parent =>
      have hparent := h parent
      simp only [Query.run]
      cases hp : s.order? parent with
      | none =>
        rw [hp,Option.map_none,Option.map_eq_none_iff] at hparent
        simp [hparent]
      | some r =>
        rw [hp,Option.map_some,Option.map_eq_some_iff] at hparent
        obtain ⟨r',hr',hrr⟩ := hparent
        rw [hr']
        exact ih hrr

theorem rangeRootOf_isSome_congr
    (h : ∀ x, (s'.order? x).map (·.order.rangeParentId) = (s.order? x).map (·.order.rangeParentId))
    {o' : Order} (ho : o'.rangeParentId = o.rangeParentId) :
    (s'.rangeRootOf o').isSome = (s.rangeRootOf o).isSome :=
  rootOrderFrom_isSome_congr h ho _

theorem Round.rooted (h : Round id s s') (x : Uuid) : s'.rooted x = s.rooted x := by
  have hparent (x : Uuid) : (s'.order? x).map (·.order.rangeParentId)
      = (s.order? x).map (·.order.rangeParentId) := by
    by_cases hx : x = id
    · rw [hx]
      exact h.parent
    · rw [h.order x hx]
  have hx := hparent x
  unfold State.rooted
  cases hr : s.order? x with
  | none =>
    rw [hr,Option.map_none,Option.map_eq_none_iff] at hx
    rw [hx]
    rfl
  | some r =>
    rw [hr,Option.map_some,Option.map_eq_some_iff] at hx
    obtain ⟨r',hr',hrr⟩ := hx
    rw [hr']
    exact rangeRootOf_isSome_congr hparent hrr

theorem cancelLateOrder_round
    (hD : ∀ {l op ch ls s}, D.onOp l op ch ls s → (republishHolds ids).onOp l op ch ls s)
    (hs : Recovered cfg ids s) :
    (daemon cfg ext).Sat D (recoveryContract cfg ids) l (cancelLateOrder cfg id) (fun _ s' =>
      Round id s s' ∧ (id ∈ ids → s'.handled cfg id = true) ∧
        (Clears ext D → s.rooted id = true → s'.late cfg id = false)) s := by
  refine System.Sat.bind ((reconfirm_reads hs).mono ?_)
  rintro _ s₁ ⟨hsame₁,found,rfl,hfound,hnone⟩
  have hs₁ : Recovered cfg ids s₁ := fun x hx => (hsame₁.handled x).trans (hs x hx)
  cases found with
  | none =>
    refine ⟨hsame₁.round id,hs₁ id,fun hclear _ => ?_⟩
    rw [hsame₁.late]
    exact hnone hclear.reliable rfl
  | some o =>
    obtain ⟨r,hr,rfl,hover⟩ := hfound o rfl
    obtain ⟨hid,hkind,hparent⟩ := resetForTimeout_keeps r.order
    obtain rfl : r.order.resetForTimeout.id = id := hid.trans (order?_id hr)
    refine System.Sat.bind ((cancelEscrow_clears hs₁).mono ?_)
    rintro res s₂ ⟨hsame₂,hcancel⟩
    have hsame₂ := hsame₁.trans hsame₂
    have hs₂ : Recovered cfg ids s₂ := fun x hx => (hsame₂.handled x).trans (hs x hx)
    cases res with
    | error e => exact ⟨hsame₂.round _,hs₂ _,fun hclear _ => nomatch hcancel hclear⟩
    | ok _ =>
      refine System.Sat.bind ((slashOrReleaseOnTimeout_recovers hs₂).mono ?_)
      rintro res s₃ ⟨hsame₃,hends⟩
      have hsame₃ := hsame₂.trans hsame₃
      have hs₃ : Recovered cfg ids s₃ := fun x hx => (hsame₃.handled x).trans (hs x hx)
      have hr₃ := (hsame₃.order? r.order.resetForTimeout.id).trans hr
      cases res with
      | error e =>
        refine ⟨hsame₃.round _,hs₃ _,fun hclear hrooted => ?_⟩
        rw [State.rooted,hr,Option.all_some,← rangeRootOf_isSome_congr
          (fun x => congrArg (Option.map _) (hsame₂.order? x)) hparent] at hrooted
        obtain ⟨_,⟨⟩⟩ := hends hclear.reliable hrooted
      | ok _ =>
        have hrepublishes : orderRepublishesOnTimeout r.order.resetForTimeout =
            orderRepublishesOnTimeout r.order := by
          rw [orderRepublishesOnTimeout,hkind,(resetForTimeout_same r.order).2]
          rfl
        dsimp only
        split
        next hrep =>
          have hleft (hmem : r.order.resetForTimeout.id ∈ ids) : r.order.takeLeft = false := by
            have hhandled := (@handled_of_row _ _ cfg _ hr).symm.trans (hs _ hmem)
            have hwaits := waits_iff.mp (Bool.and_eq_true_iff.mp hover).1
            rw [hrepublishes] at hrep
            rcases hwaits with hst | hst <;>
              simpa [hover,hst,Order.recoverable,hrep] using hhandled
          refine (republishOnTimeout_round hD hr₃ hkind hleft hs₃).mono ?_
          rintro _ s₄ ⟨hround,hrec,hlate⟩
          exact ⟨(hsame₃.round _).trans hround,hrec,fun _ _ => hlate⟩
        next hrep =>
          rw [← hsame₃.now] at hover
          rw [hrepublishes,Bool.not_eq_true] at hrep
          refine (cancelOnTimeout_round hr₃ hover hrep hs₃).mono ?_
          rintro _ s₄ ⟨hround,hrec,hlate⟩
          exact ⟨(hsame₃.round _).trans hround,fun _ => hrec,fun hclear _ => hlate hclear.reliable⟩

theorem mem_findOrderBySeconds :
    o ∈ (Query.findOrderBySeconds (s.now - cfg.expirationSeconds)).run s ↔
      ∃ r ∈ s.orders, r.order.overdue cfg s.now = true ∧ r.order = o := by
  simp only [Query.run,State.ordersWhere,List.mem_map,List.mem_filter,Order.overdue,
    Bool.and_eq_true,decide_eq_true_eq,waits_iff,and_assoc]
  simp [and_left_comm]

structure PassLeft (cfg : Settings) (ids : List Uuid) (s₀ : State) (clear : Prop)
    (rest : List Order) (s : State) : Prop where
  recovered : Recovered cfg ids s
  rooted : ∀ x, s.rooted x = s₀.rooted x
  listed : ∀ o ∈ rest, o.id ∈ s₀.overdueIds cfg
  left : clear → (∀ x ∈ s₀.overdueIds cfg, s₀.rooted x = true) → ∀ x, s.late cfg x = true →
    x ∈ rest.map (·.id)

theorem PassLeft.round {s₀ : State} {clear : Prop} {rest : List Order}
    (h : PassLeft cfg ids s₀ clear (o :: rest) s) (hround : Round o.id s s')
    (hrec : o.id ∈ ids → s'.handled cfg o.id = true)
    (hlate : clear → s.rooted o.id = true → s'.late cfg o.id = false) :
    PassLeft cfg ids s₀ clear rest s' where
  recovered := hround.recovered h.recovered hrec
  rooted x := (hround.rooted x).trans (h.rooted x)
  listed o ho := h.listed o (List.mem_cons_of_mem _ ho)
  left hclear hroots x hx := by
    by_cases hxo : x = o.id
    · subst hxo
      have hrooted := (h.rooted o.id).trans (hroots o.id (h.listed o List.mem_cons_self))
      rw [hlate hclear hrooted] at hx
      cases hx
    · rw [State.late,hround.order x hxo,hround.now] at hx
      have hmem := h.left hclear hroots x hx
      simpa [hxo] using hmem

theorem mem_overdueIds :
    id ∈ s.overdueIds cfg ↔ ∃ r ∈ s.orders, r.order.overdue cfg s.now = true ∧ r.order.id = id := by
  simp [State.overdueIds,and_assoc]

theorem jobCancelOrders_recovers
    (hD : ∀ {l op ch ls s}, D.onOp l op ch ls s → (republishHolds ids).onOp l op ch ls s)
    (hs : Recovered cfg ids s) :
    (daemon cfg ext).Sat D (recoveryContract cfg ids) l (jobCancelOrders cfg) (fun _ s' =>
      Recovered cfg ids s' ∧ (Clears ext D → (∀ x ∈ s.overdueIds cfg, s.rooted x = true) →
        ∀ x, s'.late cfg x = false)) s := by
  refine solo_ask_bind (fun _ => hs) fun ch _ => ⟨fun now hnow => ?_,fun e he => nomatch he⟩
  cases hnow
  refine solo_query_bind (fun _ => hs) (fun hd e => ?_) ?_
  · exact ⟨hs,fun hclear => absurd rfl (hclear.reliable.not_fault hd rfl)⟩
  have hleft : PassLeft cfg ids s (Clears ext D)
      ((Query.findOrderBySeconds (s.now - cfg.expirationSeconds)).run s)
      (s.noting l.tid (.findOrderBySeconds (s.now - cfg.expirationSeconds))) := by
    have hsame : SameBook s
        (s.noting l.tid (.findOrderBySeconds (s.now - cfg.expirationSeconds))) := ⟨rfl,rfl,rfl⟩
    refine ⟨fun x hx => (hsame.handled x).trans (hs x hx),fun x => (hsame.round x).rooted x,
      fun o ho => ?_,fun _ _ x hx => ?_⟩
    · obtain ⟨r,hr,hover,rfl⟩ := mem_findOrderBySeconds.mp ho
      exact mem_overdueIds.mpr ⟨r,hr,hover,rfl⟩
    · obtain ⟨r,hr,hover⟩ := (Option.any_eq_true _ _).mp hx
      refine List.mem_map.mpr ⟨r.order,?_,order?_id hr⟩
      exact mem_findOrderBySeconds.mpr ⟨r,List.mem_of_find?_eq_some hr,hover,rfl⟩
  refine (System.Sat.forEach_rest (I := PassLeft cfg ids s (Clears ext D)) hleft
    fun o rest s' h => ?_).mono ?_
  · refine System.Sat.ignore ((cancelLateOrder_round hD h.recovered).mono ?_)
    rintro _ s'' ⟨hround,hrec,hlate⟩
    exact ⟨rfl,h.round hround hrec hlate⟩
  · rintro _ s' ⟨-,h⟩
    refine ⟨h.recovered,fun hclear hroots x => ?_⟩
    have hx := h.left hclear hroots x
    simpa using hx

end

/-- The condition of a pass that deals with every order: neither the database nor the relays fail,
and the node cancels what it is asked to. -/
abbrev passClears (ext : Externals) : Requirement := .check
  (fun l op ch _ s => match op with
    | .lnd (.cancelHoldInvoice h) => (exec ext l.tid (.lnd (.cancelHoldInvoice h)) ch s).2.isOk
    | .lnd _ => true
    | _ => ch != .fault)
  (fun _ _ _ => true)

theorem passClears_holds {ext : Externals} (ids : List Uuid) {l : Label} {ch : Choice}
    {ls : List Label} {s : State} (h : (passClears ext).onOp l op ch ls s) :
    (republishHolds ids).onOp l op ch ls s := by
  by_cases hch : ch = .fault
  · subst hch
    cases op with
    | lnd c => rfl
    | _ => cases h
  · simp only [System.Demand.check]
    split <;> simp [hch]

theorem passClears_clears (ext : Externals) : Clears ext (passClears ext) where
  reliable := by
    refine ⟨fun {l op ch ls s} h hop => ?_⟩
    rintro rfl
    cases op with
    | lnd c => cases hop
    | _ => cases h
  cancel {l hash ch ls s} h := by
    cases hres : (exec ext l.tid (.lnd (.cancelHoldInvoice hash)) ch s).2 with
    | ok _ => rfl
    | error e => simp [System.Demand.check,hres,Except.isOk,Except.toBool] at h

theorem Consistent.recovered {s : State} (hc : Consistent s) (cfg : Settings) :
    Recovered cfg (s.recoverableIds cfg) s := by
  intro id hid
  obtain ⟨r,hmem,rfl⟩ := List.mem_map.mp hid
  obtain ⟨hr,hover⟩ := List.mem_filter.mp hmem
  obtain ⟨hover,hrec⟩ := Bool.and_eq_true_iff.mp hover
  obtain ⟨r',hr'⟩ : ∃ r', s.order? r.order.id = some r' :=
    Option.isSome_iff_exists.mp (List.find?_isSome.mpr ⟨r,hr,by simp⟩)
  obtain rfl := hc.order_unique (List.mem_of_find?_eq_some hr') hr (order?_id hr')
  exact overdue_handled hr' hover hrec

def overdueInvoice : Schedule :=
  alone 0 (.message (.newOrder ⟨some .sell,5000,100,none,none,none,100000⟩ 7 7 7 none)) 5
  ++ alone 2 (.message (.takeSell ⟨1,8,8,none,none,none⟩)) 8 ++ [.env (.tick 1000)]

def cutOutside (ids : List Uuid) (q : M Unit) (s : State) : Bool :=
  match q with
  | .call op _ => !op.midRepublish ids s
  | _ => true

/-- A sell order that waits for the buyer's invoice, and one that waits for the seller's payment,
both taken too long ago; the first take left no trade index. -/
def lateOrders : State where
  now := 1000
  nextId := 9
  orders := [
    { order := { id := 1, kind := .sell, status := .waitingBuyerInvoice, creatorPubkey := 7,
                 sellerPubkey := some 7, buyerPubkey := some 8, amount := 5000 } },
    { order := { id := 2, kind := .sell, status := .waitingPayment, creatorPubkey := 7,
                 sellerPubkey := some 7, buyerPubkey := some 8, tradeIndexBuyer := some 3,
                 amount := 5000 } }]

theorem lateOrders_consistent : Consistent lateOrders where
  orderIds := by simp [lateOrders]
  orderIds_lt := by simp [lateOrders]
  bondIds := by simp [lateOrders]
  bondIds_lt := by simp [lateOrders]
  holds_lt := by simp [lateOrders]
  escrow := by simp [lateOrders,OrderEscrow]
  takes := by simp [lateOrders]
  bond := by simp [lateOrders]

abbrev cancelsAnswered (ext : Externals) : Requirement := .check
  (fun l op ch _ s => match op with
    | .lnd (.cancelHoldInvoice h) =>
      match (exec ext l.tid (.lnd (.cancelHoldInvoice h)) ch s).2 with
      | .ok _ => true
      | .error e => e.cancelOutcome == .alreadyDone
    | _ => ch != .fault)
  (fun _ _ _ => true)

end Mostro
