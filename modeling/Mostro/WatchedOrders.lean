import Mostro.HandlerOperations
import Mostro.TaskContracts

set_option autoImplicit false

/-!
The orders a task works on.  A handler works on copies; where no other task writes to an order it
has in hand, to that order's parent or to their bonds, what the handler read is still what is
stored.
-/

namespace Mostro

open Interleaving SqlTable

def State.ordersAt (s : State) (id : Uuid) : List OrderRow := s.orders.filter (·.order.id == id)

def State.bondsAt (s : State) (id : Uuid) : List Bond :=
  s.bonds.filter fun b => b.orderId == id || b.childOrderId == some id

def Op.written (s : State) : Op → State
  | .order st => (st.exec 0 s).1
  | .bond st => (st.exec s).1
  | _ => s

def Op.leaves (tid : Nat) (s : State) (op : Op) : Bool :=
  s.inHand.all fun p => p.1 != tid || (p.2.id :: p.2.rangeParentId.toList).all fun id =>
    decide ((op.written s).ordersAt id = s.ordersAt id)
      && decide ((op.written s).bondsAt id = s.bondsAt id)

structure Undisturbed (tid : Nat) (s s' : State) : Prop where
  hands : ∀ x, (tid,x) ∈ s.inHand → (tid,x) ∈ s'.inHand
  orders : ∀ id, s.watches tid id = true → s'.ordersAt id = s.ordersAt id
  bonds : ∀ id, s.watches tid id = true → s'.bondsAt id = s.bondsAt id

theorem watches_iff {s : State} {tid : Nat} {id : Uuid} : s.watches tid id = true ↔
    ∃ x, (tid,x) ∈ s.inHand ∧ (x.id = id ∨ x.rangeParentId = some id) := by
  simp [State.watches]

theorem watches_mono {s s' : State} {tid : Nat} {id : Uuid}
    (h : ∀ x, (tid,x) ∈ s.inHand → (tid,x) ∈ s'.inHand) (hw : s.watches tid id = true) :
    s'.watches tid id = true := by
  obtain ⟨x,hx,hid⟩ := watches_iff.mp hw
  exact watches_iff.mpr ⟨x,h x hx,hid⟩

theorem Undisturbed.of_rows {tid : Nat} {s s' : State}
    (hr : ∀ x, (tid,x) ∈ s.inHand → (tid,x) ∈ s'.inHand)
    (ho : s'.orders = s.orders) (hb : s'.bonds = s.bonds) : Undisturbed tid s s' :=
  ⟨hr,fun _ _ => by rw [State.ordersAt,ho]; rfl,fun _ _ => by rw [State.bondsAt,hb]; rfl⟩

theorem Undisturbed.refl (tid : Nat) (s : State) : Undisturbed tid s s :=
  .of_rows (fun _ h => h) rfl rfl

theorem Undisturbed.trans {tid : Nat} {s₁ s₂ s₃ : State} (h : Undisturbed tid s₁ s₂)
    (h' : Undisturbed tid s₂ s₃) : Undisturbed tid s₁ s₃ where
  hands x hx := h'.hands x (h.hands x hx)
  orders id hw := (h'.orders id (watches_mono h.hands hw)).trans (h.orders id hw)
  bonds id hw := (h'.bonds id (watches_mono h.hands hw)).trans (h.bonds id hw)

def Op.fetches : Op → Bool
  | .query (.orderById _) => true
  | _ => false

theorem takeInHand_eq {tid : Nat} {s : State} {q : Query} (h : (Op.query q).fetches = false) :
    q.takeInHand tid s = s.inHand := by
  cases q with
  | orderById id => cases h
  | _ => rfl

theorem takeInHand_other {tid tid' : Nat} {s : State} (q : Query) (hne : tid' ≠ tid) (x : Order)
    (hx : (tid',x) ∈ s.inHand) : (tid',x) ∈ q.takeInHand tid s := by
  cases q with
  | orderById id =>
    simp only [Query.takeInHand]
    split
    · refine List.mem_cons_of_mem _ ?_
      split
      · exact hx
      · exact List.mem_filter.mpr ⟨hx,by simpa using hne⟩
    · exact hx
  | _ => exact hx

theorem takeInHand_watched {tid : Nat} {s : State} {id : Uuid} (hw : s.watches tid id = true) :
    s.inHand ⊆ (Query.orderById id).takeInHand tid s := by
  simp only [Query.takeInHand,hw,if_true]
  split
  · exact List.subset_cons_self _ _
  · exact fun _ h => h

theorem Effect.inHand {tid : Nat} {op : Op} {s s' : State} (he : Effect tid op s s')
    (h : op.fetches = false) : s'.inHand = s.inHand := by
  cases he with
  | quiet hq =>
    obtain ⟨_,_,rfl⟩ := hq
    rfl
  | query q hop =>
    subst hop
    exact takeInHand_eq h
  | order st _ => cases st <;> rfl
  | bond st _ => exact bondStmt_rest st s State.inHand
  | _ => rfl

theorem Effect.hands {tid tid' : Nat} {op : Op} {s s' : State} (he : Effect tid op s s')
    (hne : tid' ≠ tid) (x : Order) (hx : (tid',x) ∈ s.inHand) : (tid',x) ∈ s'.inHand := by
  cases hop : op.fetches with
  | false => rwa [he.inHand hop]
  | true =>
    cases he with
    | query q _ => exact takeInHand_other q hne x hx
    | quiet hq =>
      obtain ⟨_,_,rfl⟩ := hq
      exact hx
    | _ => simp_all [Op.fetches]

theorem orderStmt_orders (tid tid' : Nat) (st : OrderStmt) (s : State) :
    (st.exec tid s).1.orders = (st.exec tid' s).1.orders := by
  cases st <;> rfl

theorem Effect.ordersAt {tid : Nat} {op : Op} {s s' : State} {id : Uuid} (he : Effect tid op s s')
    (h : (op.written s).ordersAt id = s.ordersAt id) : s'.ordersAt id = s.ordersAt id := by
  rcases he.rows with hk | ⟨st,rfl,rfl⟩ | ⟨st,rfl,rfl⟩
  · rw [State.ordersAt,hk.orders]
    rfl
  · rw [State.ordersAt,orderStmt_orders tid 0]
    exact h
  · exact h

theorem Effect.undisturbed {tid tid' : Nat} {op : Op} {s s' : State} (he : Effect tid op s s')
    (hne : tid' ≠ tid) (h : op.leaves tid' s = true) : Undisturbed tid' s s' := by
  have hleaves : ∀ id, s.watches tid' id = true → (op.written s).ordersAt id = s.ordersAt id ∧
      (op.written s).bondsAt id = s.bondsAt id := by
    intro id hw
    obtain ⟨x,hx,hid⟩ := watches_iff.mp hw
    have := List.all_eq_true.mp h _ hx
    simp only [bne_self_eq_false,Bool.false_or,List.all_eq_true,Bool.and_eq_true,
      decide_eq_true_eq,List.mem_cons,Option.mem_toList] at this
    exact this id (hid.imp_left Eq.symm)
  refine ⟨he.hands hne,fun id hw => he.ordersAt (hleaves id hw).1,fun id hw => ?_⟩
  rcases he.rows with hk | ⟨st,rfl,rfl⟩ | ⟨st,rfl,rfl⟩
  · rw [State.bondsAt,hk.bonds]
    rfl
  · rw [State.bondsAt,orderStmt_bonds]
    rfl
  · exact (hleaves id hw).2

theorem Moves.undisturbed {tid : Nat} {e : Env} {s s' : State} (he : Moves s e s') :
    Undisturbed tid s s' :=
  .of_rows (fun _ h => by cases he <;> exact h) he.rowsKept.orders he.rowsKept.bonds

theorem launch_undisturbed {cfg : Settings} {tid : Nat} {l : Label} {s s' : State}
    (h : l.launch cfg s = some s') : Undisturbed tid s s' := by
  obtain ⟨_,rfl⟩ := launch_eq h
  exact .of_rows (fun _ h => h) rfl rfl

def Op.isCall : Op → Bool
  | .order _ | .bond _ => false
  | _ => true

def Op.isPlain (op : Op) : Bool := op.isCall && !op.fetches

theorem isCall_of_isPlain {op : Op} (h : op.isPlain = true) : op.isCall = true :=
  (Bool.and_eq_true_iff.mp h).1

theorem fetches_of_isPlain {op : Op} (h : op.isPlain = true) : op.fetches = false := by
  simpa using (Bool.and_eq_true_iff.mp h).2

theorem Effect.rows_of_isCall {tid : Nat} {op : Op} {s s' : State} (he : Effect tid op s s')
    (h : op.isCall = true) : s'.orders = s.orders ∧ s'.bonds = s.bonds := by
  rcases he.rows with hk | ⟨st,rfl,_⟩ | ⟨st,rfl,_⟩
  · exact ⟨hk.orders,hk.bonds⟩
  · cases h
  · cases h

theorem exec_undisturbed (ext : Externals) (tid : Nat) {op : Op} (ch : Choice) (s : State)
    (h : op.isPlain = true) : Undisturbed tid s (exec ext tid op ch s).1 := by
  have he := exec_effect ext tid op ch s
  obtain ⟨ho,hb⟩ := he.rows_of_isCall (isCall_of_isPlain h)
  exact .of_rows (fun _ hx => he.inHand (fetches_of_isPlain h) ▸ hx) ho hb

theorem fetch_undisturbed (ext : Externals) {tid : Nat} (ch : Choice) {s : State} {id : Uuid}
    (hw : s.watches tid id = true) :
    Undisturbed tid s (exec ext tid (.query (.orderById id)) ch s).1 := by
  have he := exec_effect ext tid (.query (.orderById id)) ch s
  obtain ⟨ho,hb⟩ := he.rows_of_isCall rfl
  refine .of_rows (fun x hx => ?_) ho hb
  simp only [exec,orFault]
  split
  · exact hx
  · exact takeInHand_watched hw hx

theorem exec_hands (ext : Externals) {tid : Nat} (op : Op) (ch : Choice) {s : State}
    (hw : ∀ id, op = .query (.orderById id) → s.watches tid id = true) (x : Order)
    (hx : (tid,x) ∈ s.inHand) : (tid,x) ∈ (exec ext tid op ch s).1.inHand := by
  cases hop : op.fetches with
  | false => rwa [(exec_effect ext tid op ch s).inHand hop]
  | true =>
    obtain ⟨id,rfl⟩ : ∃ id, op = .query (.orderById id) := by
      unfold Op.fetches at hop
      split at hop
      · exact ⟨_,rfl⟩
      · cases hop
    exact (fetch_undisturbed ext ch (hw id rfl)).hands x hx

section

variable {tid : Nat} {s s' : State} {id : Uuid}

theorem mem_ordersAt {r : OrderRow} : r ∈ s.ordersAt id ↔ r ∈ s.orders ∧ r.order.id = id := by
  simp [State.ordersAt]

theorem mem_bondsAt {b : Bond} :
    b ∈ s.bondsAt id ↔ b ∈ s.bonds ∧ (b.orderId = id ∨ b.childOrderId = some id) := by
  simp [State.bondsAt]

theorem Undisturbed.mem_orders (h : Undisturbed tid s s') (hw : s.watches tid id = true)
    {r : OrderRow} (hid : r.order.id = id) : r ∈ s'.orders ↔ r ∈ s.orders := by
  have := congrArg (r ∈ ·) (h.orders id hw)
  simpa [mem_ordersAt,hid] using this

theorem Undisturbed.mem_bonds (h : Undisturbed tid s s') (hw : s.watches tid id = true)
    {b : Bond} (hid : b.orderId = id ∨ b.childOrderId = some id) : b ∈ s'.bonds ↔ b ∈ s.bonds := by
  have := congrArg (b ∈ ·) (h.bonds id hw)
  simpa [mem_bondsAt,hid] using this

theorem Undisturbed.order? (h : Undisturbed tid s s') (hw : s.watches tid id = true) :
    s'.order? id = s.order? id := by
  have := congrArg List.head? (h.orders id hw)
  simpa [State.ordersAt,State.order?,List.head?_filter] using this

end

def State.link? (s : State) (id : Uuid) : Option (Uuid × Option Uuid × Option Int) :=
  (s.order? id).map fun r => (r.order.id,r.order.rangeParentId,r.order.maxAmount)

/-- The id and the largest amount of the root of a range, from an order's id, parent and largest
amount: `find_range_root_order` on the stored rows. -/
def State.rangeRootFrom (s : State) :
    Nat → Uuid → Option Uuid → Option Int → Option (Uuid × Option Int)
  | 0, _, _, _ => none
  | _ + 1, id, none, max => some (id,max)
  | depth + 1, id, some parent, max =>
    match s.link? parent with
    | some link => s.rangeRootFrom depth link.1 link.2.1 link.2.2
    | none => some (id,max)

def State.RootKnown (s : State) (tid : Nat) :
    Nat → Uuid → Option Uuid → Option Int → Uuid × Option Int → Prop
  | 0, _, _, _, _ => False
  | _ + 1, id, none, max, root => root = (id,max)
  | depth + 1, id, some parent, max, root => s.watches tid parent = true ∧
    match s.link? parent with
    | some link => s.RootKnown tid depth link.1 link.2.1 link.2.2 root
    | none => root = (id,max)

section

variable {tid : Nat} {s s' : State} {depth : Nat} {id : Uuid} {parent : Option Uuid}
variable {max : Option Int} {root : Uuid × Option Int}

theorem State.RootKnown.mono (hr : ∀ x, (tid,x) ∈ s.inHand → (tid,x) ∈ s'.inHand)
    (hl : ∀ id, s.watches tid id = true → s'.link? id = s.link? id)
    (h : s.RootKnown tid depth id parent max root) :
    s'.RootKnown tid depth id parent max root := by
  induction depth generalizing id parent max with
  | zero => exact h
  | succ depth ih =>
    cases parent with
    | none => exact h
    | some p =>
      refine ⟨watches_mono hr h.1,?_⟩
      rw [hl p h.1]
      have h := h.2
      split at h
      next link _ => exact ih h
      next _ => exact h

theorem State.RootKnown.kept (hk : Undisturbed tid s s')
    (h : s.RootKnown tid depth id parent max root) :
    s'.RootKnown tid depth id parent max root :=
  h.mono hk.hands fun _ hw => congrArg _ (hk.order? hw)

theorem State.RootKnown.eq (h : s.RootKnown tid depth id parent max root) :
    s.rangeRootFrom depth id parent max = some root := by
  induction depth generalizing id parent max with
  | zero => exact h.elim
  | succ depth ih =>
    cases parent with
    | none => rw [State.rangeRootFrom,show root = _ from h]
    | some p =>
      rw [State.rangeRootFrom]
      have h := h.2
      split at h
      next link _ => exact ih h
      next _ => rw [show root = _ from h]

theorem State.RootKnown.watches (h : s.RootKnown tid depth id parent max root)
    (hw : s.watches tid id = true) : s.watches tid root.1 = true := by
  induction depth generalizing id parent max with
  | zero => exact h.elim
  | succ depth ih =>
    cases parent with
    | none =>
      rw [show root = _ from h]
      exact hw
    | some p =>
      obtain ⟨hp,h⟩ := h
      split at h
      next link hlink =>
        obtain ⟨r,hr,rfl⟩ := Option.map_eq_some_iff.mp hlink
        have hid : r.order.id = p := by simpa using List.find?_some hr
        exact ih h (hid ▸ hp)
      next _ =>
        rw [show root = _ from h]
        exact hw

end

abbrev watchingOrders (B : Label → Prop) (P : Label → Op → State → Prop) :
    Contract State Label Op := watching B (fun l => Undisturbed l.tid) P

def ReadBy (tid : Nat) (o : Order) (s : State) : Prop :=
  ∃ x, (tid,x) ∈ s.inHand ∧ x.id = o.id ∧ x.rangeParentId = o.rangeParentId

theorem ReadBy.mono {tid : Nat} {o : Order} {s s' : State}
    (h : ∀ x, (tid,x) ∈ s.inHand → (tid,x) ∈ s'.inHand) (hr : ReadBy tid o s) :
    ReadBy tid o s' := by
  obtain ⟨x,hx,hxo⟩ := hr
  exact ⟨x,h x hx,hxo⟩

theorem ReadBy.watches {tid : Nat} {o : Order} {s : State} (h : ReadBy tid o s) :
    s.watches tid o.id = true := by
  obtain ⟨x,hx,hid,_⟩ := h
  exact watches_iff.mpr ⟨x,hx,.inl hid⟩

theorem ReadBy.watches_parent {tid : Nat} {o : Order} {s : State} {p : Uuid} (h : ReadBy tid o s)
    (hp : o.rangeParentId = some p) : s.watches tid p = true := by
  obtain ⟨x,hx,_,hpar⟩ := h
  exact watches_iff.mpr ⟨x,hx,.inr (hpar.trans hp)⟩

section

variable {cfg : Settings} {ext : Externals} {D : Requirement} {B : Label → Prop}
variable {P : Label → Op → State → Prop} {l : Label} {α : Type} {T : State → Prop} {s : State}

theorem calls_sat {p : M α} (hP : ∀ op s, op.isCall = true → P l op s)
    (hp : p.Only fun op => op.isPlain = true) (hs : T s)
    (hT : ∀ s s', Undisturbed l.tid s s' → T s → T s') :
    (daemon cfg ext).Sat D (watchingOrders B P) l p (fun _ s => T s) s :=
  System.Sat.of_only hp hs (fun s s' hs hr => hT s s' hr hs) fun op _ s hop hs _ =>
    ⟨hP op s (isCall_of_isPlain hop),fun ch _ =>
      hT s _ (exec_undisturbed ext l.tid ch s hop) hs⟩

theorem offOrders_closes : Closes fun op => op.isOrder = false where
  query _ := rfl
  timestamp := rfl
  bond _ := ⟨rfl,rfl,fun _ _ => rfl,fun _ => rfl⟩
  settle _ := rfl
  close _ := rfl

theorem orderById_read {ch : Choice} {id : Uuid} {o : Order}
    (h : (exec ext l.tid (.query (.orderById id)) ch s).2 = .ok (some o)) :
    ReadBy l.tid o (exec ext l.tid (.query (.orderById id)) ch s).1 ∧
      ∃ r, (exec ext l.tid (.query (.orderById id)) ch s).1.order? id = some r ∧ r.order = o := by
  obtain ⟨hs,hrun⟩ := exec_query_ok h
  obtain ⟨r,hr,hro⟩ := Option.map_eq_some_iff.mp hrun
  rw [hs]
  refine ⟨⟨o,?_,rfl,rfl⟩,r,hr,hro⟩
  simp [Query.takeInHand,hrun]

theorem findRangeRootFrom_sat (hP : ∀ op s, op.isCall = true → P l op s) {depth : Nat}
    {o : Order} (hs : T s) (hread : ReadBy l.tid o s)
    (hT : ∀ s s', Undisturbed l.tid s s' → T s → T s') :
    (daemon cfg ext).Sat D (watchingOrders B P) l (findRangeRootFrom depth o)
      (fun r s => T s ∧ ∀ root, r = .ok root →
        s.RootKnown l.tid depth o.id o.rangeParentId o.maxAmount (root.id,root.maxAmount)) s := by
  induction depth generalizing o s T with
  | zero => exact ⟨hs,fun _ h => nomatch h⟩
  | succ depth ih =>
    unfold findRangeRootFrom
    split
    next hp =>
      refine ⟨hs,fun root h => ?_⟩
      cases h
      rw [hp]
      rfl
    next p hp =>
      refine sat_ask_bind (T := fun s => T s ∧ ReadBy l.tid o s) ⟨hs,hread⟩
        (fun s s' hk h => ⟨hT s s' hk h.1,h.2.mono hk.hands⟩) fun s ls hs _ => ⟨hP _ _ rfl,?_⟩
      intro ch _
      have hw := hs.2.watches_parent hp
      have hk : Undisturbed l.tid s (exec ext l.tid (.query (.orderById p)) ch s).1 :=
        fetch_undisturbed ext ch hw
      refine ⟨fun found hres => ?_,fun e _ => ⟨hT s _ hk hs.1,fun _ h => nomatch h⟩⟩
      cases found with
      | none =>
        refine ⟨hT s _ hk hs.1,fun root h => ?_⟩
        cases h
        have hnone : s.order? p = none := by simpa [Query.run] using (exec_query_ok hres).2
        rw [hp]
        refine ⟨watches_mono hk.hands hw,?_⟩
        rw [State.link?,hk.order? hw,hnone]
        rfl
      | some x =>
        obtain ⟨hx,r,hr,hrx⟩ := orderById_read hres
        refine System.Sat.mono (ih (T := fun s => T s ∧ s.watches l.tid p = true ∧
          ∃ r, s.order? p = some r ∧ r.order = x) ⟨hT s _ hk hs.1,watches_mono hk.hands hw,r,hr,hrx⟩
          hx ?_) fun res s h => ⟨h.1.1,fun root hroot => ?_⟩
        · rintro s s' hk ⟨h,hw,r,hr,hrx⟩
          exact ⟨hT s s' hk h,watches_mono hk.hands hw,r,(hk.order? hw).trans hr,hrx⟩
        · obtain ⟨⟨_,hw,r,hr,rfl⟩,hroots⟩ := h
          rw [hp]
          refine ⟨hw,?_⟩
          rw [State.link?,hr]
          exact hroots root hroot

end

/-- The operations `A` are allowed, and a task that performs them keeps what it relies on, as long
as it reads only orders it watches. -/
structure HandKept (ext : Externals) (l : Label) (R : State → State → Prop) (P : Op → State → Prop)
    (A : Op → Prop) : Prop where
  pre : ∀ op s, A op → P op s
  hands : ∀ s s', R s s' → ∀ x, (l.tid,x) ∈ s.inHand → (l.tid,x) ∈ s'.inHand
  own : ∀ op ch ls s, A op → (∀ id, op = .query (.orderById id) → s.watches l.tid id = true) →
    Knowing l op ls s → R s (exec ext l.tid op ch s).1

section

variable {cfg : Settings} {ext : Externals} {D : Requirement} {B : Label → Prop}
variable {R : Label → State → State → Prop} {P : Label → Op → State → Prop} {l : Label}
variable {A : Op → Prop} {α : Type} {T : State → Prop} {s : State} {o : Order}

theorem HandKept.readBy (h : HandKept ext l (R l) (P l) A) (s s' : State) (hr : R l s s')
    (ho : ReadBy l.tid o s) : ReadBy l.tid o s' := ho.mono (h.hands s s' hr)

theorem HandKept.calls (h : HandKept ext l (R l) (P l) A) {p : M α}
    (hp : p.Only fun op => A op ∧ op.fetches = false) (hs : T s)
    (hT : ∀ s s', R l s s' → T s → T s') :
    (daemon cfg ext).Sat D (watching B R P) l p (fun _ s => T s) s :=
  System.Sat.of_only hp hs (fun s s' hs hr => hT s s' hr hs) fun op ls s hop hs hk =>
    ⟨h.pre op s hop.1,fun ch _ => hT s _ (h.own op ch ls s hop.1
      (fun _ heq => by rw [heq] at hop; cases hop.2) hk) hs⟩

theorem HandKept.findRangeRootFrom (h : HandKept ext l (R l) (P l) A) (hq : Reads A) (depth : Nat)
    (hs : T s) (hread : ReadBy l.tid o s) (hT : ∀ s s', R l s s' → T s → T s') :
    (daemon cfg ext).Sat D (watching B R P) l (findRangeRootFrom depth o) (fun _ s => T s) s := by
  induction depth generalizing o s with
  | zero => exact hs
  | succ depth ih =>
    unfold Mostro.findRangeRootFrom
    split
    · exact hs
    next p hp =>
      refine sat_ask_bind (T := fun s => T s ∧ ReadBy l.tid o s) ⟨hs,hread⟩
        (fun s s' hr hs => ⟨hT s s' hr hs.1,h.readBy s s' hr hs.2⟩) fun s ls hs hk =>
          ⟨h.pre _ s (hq.query _),fun ch _ => ?_⟩
      have ht := hT s _ (h.own (.query (.orderById p)) ch ls s (hq.query _) (fun id heq => by
        cases heq
        exact hs.2.watches_parent hp) hk) hs.1
      refine ⟨fun found hres => ?_,fun _ _ => ht⟩
      cases found with
      | none => exact ht
      | some x => exact ih ht (orderById_read hres).1

theorem HandKept.findMakerBondForOrder (h : HandKept ext l (R l) (P l) A) (hq : Reads A) (hs : T s)
    (hread : ReadBy l.tid o s) (hT : ∀ s s', R l s s' → T s → T s') :
    (daemon cfg ext).Sat D (watching B R P) l (findMakerBondForOrder o) (fun _ s => T s) s := by
  refine System.Sat.bind ((h.findRangeRootFrom hq _ hs hread hT).mono fun r s hs => ?_)
  cases r with
  | error e => exact hs
  | ok root => exact h.calls (ask_only ⟨hq.query _,rfl⟩) hs hT

theorem HandKept.resolveSlashTarget (h : HandKept ext l (R l) (P l) A) (hq : Reads A)
    {bonds : List Bond} {side : Side} {isRange : Bool} (hs : T s) (hread : ReadBy l.tid o s)
    (hT : ∀ s s', R l s s' → T s → T s') :
    (daemon cfg ext).Sat D (watching B R P) l (resolveSlashTarget o bonds side isRange)
      (fun _ s => T s) s := by
  unfold Mostro.resolveSlashTarget
  split
  · exact hs
  · split
    · refine System.Sat.bind ((h.findMakerBondForOrder hq hs hread hT).mono fun r s hs => ?_)
      cases r <;> exact hs
    · exact hs

theorem HandKept.slashSide (h : HandKept ext l (R l) (P l) A) (hA : Slashes A) {target : Bond}
    {side : Side} {isRange : Bool} {reason : BondSlashReason} (hs : T s) (hread : ReadBy l.tid o s)
    (hT : ∀ s s', R l s s' → T s → T s') :
    (daemon cfg ext).Sat D (watching B R P) l (slashSide cfg o target side isRange reason)
      (fun _ s => T s) s := by
  unfold Mostro.slashSide
  split
  · refine System.Sat.bind ((h.findRangeRootFrom hA.toReads _ hs hread hT).mono fun r s hs => ?_)
    cases r with
    | error e => exact hs
    | ok root =>
      refine h.calls ((recordMakerSliceSlash_only ⟨hA.timestamp,rfl⟩ (fun v => ⟨hA.insert v,rfl⟩)
        (fun id => ⟨hA.share id,rfl⟩) _ _ _ _ _).bind fun inserted => ?_) hs hT
      split
      · exact (ask_only ⟨hA.query _,rfl⟩).bind fun _ => trivial
      · trivial
  · refine h.calls ((slashOne_only ⟨hA.timestamp,rfl⟩ (fun p => ⟨hA.settle p,rfl⟩)
      (fun id reason t share trade => ⟨hA.slash id reason t share trade,rfl⟩) _ _ _ _).bind
      fun _ => ?_) hs hT
    exact (ask_only ⟨hA.query _,rfl⟩).bind fun _ => trivial

end

theorem watchingOrders_watched {cfg : Settings} {ext : Externals} {D : Requirement}
    {B : Label → Prop} {P : Label → Op → State → Prop}
    (hleaves : ∀ (l l' : Label) op ch ls s, l'.tid ≠ l.tid → l' ∈ ls → B l' →
      D.onOp l op ch ls s → op.leaves l'.tid s = true)
    (hcode : ∀ (l : Label) s, B l → (daemon cfg ext).Sat D (watchingOrders B P) l
      (l.req.code cfg ext) (fun _ _ => True) s) :
    Watched cfg ext D B (fun l => Undisturbed l.tid) P where
  refl l s := .refl l.tid s
  trans l _ _ _ h h' := h.trans h'
  launch l s s' h l' _ := launch_undisturbed h
  other l l' op ch ls s hco hl hb hk hd he := by
    have hne : l'.tid ≠ l.tid := Label.coexist_ne hco
    exact he.undisturbed hne (hleaves l l' op ch ls s hne hl hb hd)
  env e ls s s' _ he l _ _ := he.undisturbed
  code := hcode

end Mostro
