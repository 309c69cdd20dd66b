import Mostro.SoloRuns
import Mostro.TaskContracts

set_option autoImplicit false

/-!
Lone runs in which every operation succeeds: what the lookups, the slash and the release of
`app/bond/slash.rs` and `app/bond/flow.rs` then do to the bonds.
-/

namespace Mostro

open Interleaving SqlTable

variable {s' : State} {o : Order}

section

variable {cfg : Settings} {ext : Externals} {D : Requirement} {P : Label → Op → State → Prop}
variable {l : Label} {s : State} {op : Op} {α : Type}

theorem solo_ask {Q : Except MostroError op.Out → State → Prop} (hpre : P l op s)
    (h : ∀ ch, D.onOp l op ch [l] s → Q (exec ext l.tid op ch s).2 (exec ext l.tid op ch s).1) :
    (daemon cfg ext).Sat D (.solo P) l (ask op) Q s := by
  refine sat_ask (T := (· = s)) rfl (fun _ _ hr hs => hr.trans hs) ?_
  rintro s₁ ls rfl rfl
  exact ⟨hpre,h⟩

theorem solo_ask_bind {f : op.Out → M α} {Q : Except MostroError α → State → Prop}
    (hpre : P l op s)
    (h : ∀ ch, D.onOp l op ch [l] s →
      (∀ a, (exec ext l.tid op ch s).2 = .ok a →
        (daemon cfg ext).Sat D (.solo P) l (f a) Q (exec ext l.tid op ch s).1) ∧
      ∀ e, (exec ext l.tid op ch s).2 = .error e → Q (.error e) (exec ext l.tid op ch s).1) :
    (daemon cfg ext).Sat D (.solo P) l ((ask op).bind f) Q s := by
  refine sat_ask_bind (T := (· = s)) rfl (fun _ _ hr hs => hr.trans hs) ?_
  rintro s₁ ls rfl rfl
  exact ⟨hpre,h⟩

theorem solo_ask_attempt_bind {f : Except MostroError op.Out → M α}
    {Q : Except MostroError α → State → Prop} (hpre : P l op s)
    (h : ∀ ch, D.onOp l op ch [l] s →
      (daemon cfg ext).Sat D (.solo P) l (f (exec ext l.tid op ch s).2) Q
        (exec ext l.tid op ch s).1) :
    (daemon cfg ext).Sat D (.solo P) l ((ask op).attempt.bind f) Q s := by
  refine sat_ask_attempt_bind (T := (· = s)) rfl (fun _ _ hr hs => hr.trans hs) ?_
  rintro s₁ ls rfl rfl
  exact ⟨hpre,h⟩

theorem solo_run_bind {u : OrderUpdate} {f : Nat → M α} {Q : Except MostroError α → State → Prop}
    (hpre : P l (.order (.run u)) s)
    (hfault : D.onOp l (.order (.run u)) .fault [l] s → ∀ e, Q (.error e) s)
    (hok : (daemon cfg ext).Sat D (.solo P) l (f (u.run l.tid s).2) Q (u.run l.tid s).1) :
    (daemon cfg ext).Sat D (.solo P) l ((runOrder u).bind f) Q s := by
  refine solo_ask_bind hpre fun ch hd => ?_
  by_cases hch : ch = .fault
  · subst hch
    exact ⟨fun a ha => (by cases ha),fun e _ => hfault hd e⟩
  · refine ⟨fun n hn => ?_,fun e he => absurd (exec_order_fault he) hch⟩
    obtain ⟨hs,rfl⟩ := exec_order_ok hn
    rw [hs]
    exact hok

theorem solo_query_bind {q : Query} {f : q.Out → M α} {Q : Except MostroError α → State → Prop}
    (hpre : P l (.query q) s) (hfault : D.onOp l (.query q) .fault [l] s → ∀ e, Q (.error e) s)
    (hok : (daemon cfg ext).Sat D (.solo P) l (f (q.run s)) Q (s.noting l.tid q)) :
    (daemon cfg ext).Sat D (.solo P) l ((ask (.query q)).bind f) Q s := by
  refine solo_ask_bind hpre fun ch hd => ?_
  by_cases hch : ch = .fault
  · subst hch
    exact ⟨fun a ha => (by cases ha),fun e _ => hfault hd e⟩
  · refine ⟨fun a ha => ?_,fun e he => ?_⟩
    · obtain ⟨hs,rfl⟩ := exec_query_ok ha
      rw [hs]
      exact hok
    · simp [exec,orFault,hch] at he

abbrev State.withEvent (s : State) (id : Uuid) (status : Status) : State :=
  { s with published := (id,status) :: s.published }

theorem solo_publish_bind {id : Uuid} {status : Status} {f : Unit → M α}
    {Q : Except MostroError α → State → Prop} (hpre : P l (.updateOrderEvent id status) s)
    (hfault : D.onOp l (.updateOrderEvent id status) .fault [l] s → ∀ e, Q (.error e) s)
    (hok : (daemon cfg ext).Sat D (.solo P) l (f ()) Q (s.withEvent id status)) :
    (daemon cfg ext).Sat D (.solo P) l ((ask (.updateOrderEvent id status)).bind f) Q s := by
  refine solo_ask_bind hpre fun ch hd => ?_
  by_cases hch : ch = .fault
  · subst hch
    exact ⟨fun a ha => (by cases ha),fun e _ => hfault hd e⟩
  · simp only [exec,if_neg hch]
    exact ⟨fun _ _ => hok,fun e he => by cases he⟩

end

/-- Every operation of the run succeeds, the settles and cancels among them. -/
abbrev allSucceed (ext : Externals) : Requirement := .check
  (fun l op ch _ s => (exec ext l.tid op ch s).2.isOk) (fun _ _ _ => true)

theorem allSucceed_ok {ext : Externals} {l : Label} {op : Op} {ch : Choice} {ls : List Label}
    {s : State} (h : (allSucceed ext).onOp l op ch ls s) :
    ∃ a, (exec ext l.tid op ch s).2 = .ok a := by
  cases hres : (exec ext l.tid op ch s).2 with
  | ok a => exact ⟨a,rfl⟩
  | error e => simp [System.Demand.check,hres,Except.isOk,Except.toBool] at h

def Op.isStored : Op → Bool
  | .query _ | .order _ | .bond _ | .updateOrderEvent _ _ => true
  | _ => false

class Reliable (D : Requirement) : Prop where
  not_fault : ∀ {l : Label} {op : Op} {ch : Choice} {ls : List Label} {s : State},
    D.onOp l op ch ls s → op.isStored = true → ch ≠ .fault

instance (ext : Externals) : Reliable (allSucceed ext) where
  not_fault {l op ch ls s} h hop := by
    rintro rfl
    obtain ⟨a,ha⟩ := allSucceed_ok h
    cases op with
    | query | order | bond => cases ha
    | updateOrderEvent => cases ha
    | _ => cases hop

def State.unread (s : State) : State := { s with reads := [], inHand := [] }

theorem Query.run_unread (q : Query) (s : State) : q.run s.unread = q.run s := by
  cases q <;> rfl

structure BondView where
  id : Uuid
  orderId : Uuid
  parentBondId : Option Uuid
  childOrderId : Option Uuid
  pubkey : Pubkey
  role : BondRole
  state : BondState
  slashedReason : Option BondSlashReason
  deriving DecidableEq, Repr

def Bond.view (b : Bond) : BondView :=
  { id := b.id, orderId := b.orderId, parentBondId := b.parentBondId,
    childOrderId := b.childOrderId, pubkey := b.pubkey, role := b.role, state := b.state,
    slashedReason := b.slashedReason }

def State.views (s : State) : List BondView := s.bonds.map Bond.view

structure State.Holds (s s' : State) (vs : List BondView) : Prop where
  orders : s'.orders = s.orders
  nextId : s.nextId ≤ s'.nextId
  views : s'.views = vs

theorem Query.run_congr {s : State} (h : s'.unread = s.unread) (q : Query) :
    q.run s' = q.run s := by
  rw [← q.run_unread s',h,q.run_unread]

theorem State.Holds.of_unread {s : State} (h : s'.unread = s.unread) : s.Holds s' s.views := by
  have horders := congrArg State.orders h
  have hid := congrArg State.nextId h
  have hbonds := congrArg State.bonds h
  exact ⟨horders,Nat.le_of_eq hid.symm,congrArg (List.map Bond.view) hbonds⟩

theorem State.Holds.trans {s s₁ s₂ : State} {vs : List BondView} (h₂ : s₁.Holds s₂ vs)
    {vs₁ : List BondView} (h₁ : s.Holds s₁ vs₁) : s.Holds s₂ vs :=
  ⟨h₂.orders.trans h₁.orders,h₁.nextId.trans h₂.nextId,h₂.views⟩

section

variable {cfg : Settings} {ext : Externals} {l : Label} {s : State} {α β : Type}
variable {reason : BondSlashReason} {b : Bond}

/-- Run alone from `s`, the program ends in `Q`. -/
abbrev Smooth (D : Requirement) (cfg : Settings) (ext : Externals) (l : Label) {α : Type} (p : M α)
    (Q : Except MostroError α → State → Prop) (s : State) : Prop :=
  (daemon cfg ext).Sat D (.solo fun _ _ _ => True) l p Q s

variable {D : Requirement}

theorem smooth_ask {op : Op} {Q : Except MostroError op.Out → State → Prop}
    (h : ∀ ch, D.onOp l op ch [l] s → Q (exec ext l.tid op ch s).2 (exec ext l.tid op ch s).1) :
    Smooth D cfg ext l (ask op) Q s :=
  solo_ask trivial h

theorem smooth_bind {p : M α} {f : α → M β} {Q : Except MostroError β → State → Prop}
    {R : Except MostroError α → State → Prop} (hp : Smooth D cfg ext l p R s)
    (herr : ∀ e s', R (.error e) s' → Q (.error e) s')
    (hf : ∀ a s', R (.ok a) s' → Smooth D cfg ext l (f a) Q s') :
    Smooth D cfg ext l (p.bind f) Q s := by
  refine System.Sat.bind (hp.mono fun r s' h => ?_)
  cases r with
  | ok a => exact hf a s' h
  | error e => exact herr e s' h

theorem smooth_then {p : M α} {a : α} {f : α → M β} {Q : Except MostroError β → State → Prop}
    {R : State → Prop} (hp : Smooth D cfg ext l p (fun r s' => r = .ok a ∧ R s') s)
    (hf : ∀ s', R s' → Smooth D cfg ext l (f a) Q s') : Smooth D cfg ext l (p.bind f) Q s := by
  refine smooth_bind hp (fun e s' h => nomatch h.1) ?_
  rintro _ s' ⟨⟨⟩,h⟩
  exact hf s' h

theorem smooth_succeeds {p : M α} (hp : p.Succeeds) :
    Smooth D cfg ext l p (fun r _ => ∃ a, r = .ok a) s := by
  induction p generalizing s with
  | ret a => exact ⟨a,rfl⟩
  | fail e => exact hp.elim
  | call op k ih => exact fun s₁ _ _ _ => ⟨trivial,fun ch _ => ih _ (hp _)⟩

theorem smooth_timestamp :
    Smooth D cfg ext l timestamp (fun r s' => r = .ok s.now ∧ s' = s) s :=
  smooth_ask fun _ _ => ⟨rfl,rfl⟩

theorem smooth_query [Reliable D] {q : Query} :
    Smooth D cfg ext l (query q) (fun r s' => r = .ok (q.run s) ∧ s'.unread = s.unread) s := by
  refine smooth_ask fun ch hd => ?_
  have hch : ch ≠ .fault := Reliable.not_fault hd rfl
  simp only [exec,orFault,if_neg hch]
  exact ⟨trivial,rfl⟩

theorem smooth_execBond [Reliable D] {st : BondStmt} :
    Smooth D cfg ext l (execBond st)
      (fun r s' => r = .ok (st.exec s).2 ∧ s' = (st.exec s).1) s := by
  refine smooth_ask fun ch hd => ?_
  have hch : ch ≠ .fault := Reliable.not_fault hd rfl
  simp only [exec,orFault,if_neg hch]
  exact ⟨trivial,trivial⟩

theorem smooth_lnd {c : LndCall} :
    Smooth (allSucceed ext) cfg ext l (lnd c) (fun r s' => (∃ a, r = .ok a) ∧ s'.bonds = s.bonds ∧
      s.Holds s' s.views) s := by
  refine smooth_ask fun ch hd => ⟨allSucceed_ok hd,?_⟩
  have hrows := (exec_effect ext l.tid (.lnd c) ch s).rows
  rcases hrows with hk | ⟨st,⟨⟩,_⟩ | ⟨st,⟨⟩,_⟩
  exact ⟨hk.bonds,hk.orders,(exec_effect ext l.tid (.lnd c) ch s).nextId_le,
    by rw [State.views,hk.bonds,State.views]⟩

def BondView.slash (id : Uuid) (reason : BondSlashReason) (v : BondView) : BondView :=
  if v.id = id ∧ v.state = .locked then
    { v with state := .pendingPayout, slashedReason := some reason }
  else v

def BondView.released (v : BondView) : BondView := { v with state := .released }

def BondView.release (b v : BondView) : BondView := if v.id = b.id then b.released else v

theorem views_run_slash {id : Uuid} {now share : Int} {trade : Order} :
    ((BondUpdate.slash id reason now share trade).run s).1.views =
      s.views.map (BondView.slash id reason) := by
  simp only [BondUpdate.run,State.views,updateWhere,List.map_map]
  refine List.map_congr_left fun b _ => ?_
  by_cases h : b.id = id ∧ b.state = .locked
  · simp [BondUpdate.selects,BondUpdate.target,BondUpdate.guard,BondUpdate.set,BondView.slash,
      Bond.view,h.1,h.2]
  · have hsel : (b.id == id && b.state == .locked) = false := by simpa using h
    simp only [Function.comp,BondUpdate.selects,BondUpdate.target,BondUpdate.guard,hsel]
    simp [BondView.slash,Bond.view,h]

theorem views_run_update {read row : Bond} (hst : row.state = .released) :
    ((BondUpdate.update read row).run s).1.views = s.views.map (BondView.release row.view) := by
  simp only [BondUpdate.run,State.views,updateWhere,List.map_map]
  refine List.map_congr_left fun b _ => ?_
  by_cases h : b.id = row.id <;>
    simp [BondUpdate.selects,BondUpdate.target,BondUpdate.guard,BondUpdate.set,BondView.release,
      BondView.released,Bond.view,h,hst]

theorem slashOne_smooth {p : Hash} {pct : ℚ} (hp : b.preimage = some p) :
    Smooth (allSucceed ext) cfg ext l (slashOne o b reason pct) (fun r s' => r = .ok () ∧
      s.Holds s' (s.views.map (BondView.slash b.id reason)) ∧
      ∀ c ∈ s.bonds, c.id ≠ b.id → c ∈ s'.bonds) s := by
  unfold slashOne
  rw [hp]
  refine smooth_then (a := true) (R := fun s' => s'.bonds = s.bonds ∧ s.Holds s' s.views) ?_
    fun s₁ h₁ => ?_
  · refine System.Sat.bind (System.Sat.attempt (smooth_lnd.mono ?_))
    rintro _ s' ⟨⟨_,rfl⟩,h⟩
    exact ⟨rfl,h⟩
  obtain ⟨hbonds,h₁⟩ := h₁
  refine smooth_then smooth_timestamp fun _ h => ?_
  subst h
  refine System.Sat.ignore (smooth_execBond.mono ?_)
  rintro _ _ ⟨_,rfl⟩
  refine ⟨rfl,⟨h₁.orders,h₁.nextId,views_run_slash.trans (by rw [h₁.views])⟩,fun c hc hne => ?_⟩
  refine mem_updateWhere.mpr ⟨c,hbonds ▸ hc,if_neg ?_⟩
  simp [BondUpdate.selects,BondUpdate.target,hne]

theorem releaseBond_smooth (hb : b.state.isTerminal = false) :
    Smooth (allSucceed ext) cfg ext l (releaseBond b) (fun r s' => r = .ok () ∧
      s.Holds s' (s.views.map (BondView.release b.view))) s := by
  have hmark {s₁ : State} (h₁ : s.Holds s₁ s.views) :
      Smooth (allSucceed ext) cfg ext l (markReleased b) (fun r s' => r = .ok () ∧
        s.Holds s' (s.views.map (BondView.release b.view))) s₁ := by
    refine smooth_then smooth_timestamp fun _ h => ?_
    subst h
    refine smooth_then smooth_execBond ?_
    rintro _ rfl
    exact ⟨rfl,h₁.orders,h₁.nextId,(views_run_update rfl).trans (by rw [h₁.views]; rfl)⟩
  unfold releaseBond
  rw [if_neg (by simp [hb])]
  split
  · exact hmark ⟨rfl,le_rfl,rfl⟩
  · refine smooth_then (a := ()) (R := fun s' => s.Holds s' s.views) ?_ fun s₁ h₁ => hmark h₁
    refine smooth_bind smooth_lnd (fun _ _ h => nomatch h.1) fun _ s₁ h₁ => ?_
    refine System.Sat.bind (System.Sat.attempt (smooth_lnd.mono ?_))
    rintro _ s' ⟨⟨_,rfl⟩,-,h⟩
    exact ⟨rfl,h₁.2.2.views ▸ h.trans h₁.2.2⟩

variable [Reliable D]

def sliceShares (o root : Order) (parent : Bond) : Bool :=
  (makerSlicePubkey o).isSome && root.maxAmount.any fun maxFiat =>
    decide (0 < maxFiat) && decide (0 < sliceSlashAmount parent o.fiatAmount maxFiat)

def State.sliceStored (s : State) (parent slice : Uuid) : Bool :=
  s.views.any fun v => v.parentBondId == some parent && v.childOrderId == some slice

def sliceView (o : Order) (parent : Uuid) (reason : BondSlashReason) (key : Pubkey) (id : Uuid) :
    BondView :=
  { id, orderId := o.id, parentBondId := some parent, childOrderId := some o.id, pubkey := key,
    role := .maker, state := .pendingPayout, slashedReason := some reason }

theorem views_run_share {parent : Uuid} :
    ((BondUpdate.updateSlashedShare parent).run s).1.views = s.views := by
  simp only [BondUpdate.run,State.views,updateWhere,List.map_map]
  refine List.map_congr_left fun b _ => ?_
  simp only [Function.comp]
  split <;> rfl

theorem sliceSlash_allowed {v : SliceSlash} :
    v.allowed s.bonds = true ↔ s.sliceStored v.parent.id v.slice.id = false ∧
      ∃ w ∈ s.views, w.id = v.parent.id ∧ w.state = .locked := by
  simp [SliceSlash.allowed,State.sliceStored,State.views,Bond.view]

theorem recordMakerSliceSlash_smooth {root : Order} {t : Bond} {pct : ℚ}
    (hlocked : ∃ w ∈ s.views, w.id = t.id ∧ w.state = .locked) :
    Smooth D cfg ext l (recordMakerSliceSlash o root t reason pct) (fun r s' =>
      (sliceShares o root t = true ∧ s.sliceStored t.id o.id = false → r = .ok true ∧
        ∃ key, makerSlicePubkey o = some key ∧
          s.Holds s' (s.views ++ [sliceView o t.id reason key s.nextId])) ∧
      (¬ (sliceShares o root t = true ∧ s.sliceStored t.id o.id = false) →
        r = .ok false ∧ s' = s)) s := by
  unfold recordMakerSliceSlash
  split
  next key maxFiat hkey hmax =>
    obtain ⟨hmax,hpos⟩ := Option.filter_eq_some_iff.mp hmax
    have hshares : sliceShares o root t = true ↔ 0 < sliceSlashAmount t o.fiatAmount maxFiat := by
      simp [sliceShares,hkey,hmax,of_decide_eq_true hpos]
    dsimp only
    split
    next hle =>
      exact ⟨fun h => absurd (hshares.mp h.1) (not_lt.mpr hle),fun _ => ⟨rfl,rfl⟩⟩
    next hgt =>
      refine smooth_then smooth_timestamp fun s₁ h => ?_
      subst h
      refine smooth_then smooth_execBond fun s₂ h => ?_
      subst h
      have hshares := hshares.mpr (not_le.mp hgt)
      simp only [BondStmt.exec]
      by_cases hstored : s₁.sliceStored t.id o.id = false
      · rw [if_pos (sliceSlash_allowed.mpr ⟨hstored,hlocked⟩)]
        refine smooth_then smooth_execBond fun s₃ h => ?_
        subst h
        refine ⟨fun _ => ⟨rfl,key,hkey,rfl,Nat.le_succ _,views_run_share.trans ?_⟩,
          fun h => absurd ⟨hshares,hstored⟩ h⟩
        simp [State.views,SliceSlash.row,Bond.view,sliceView]
      · rw [if_neg fun h => hstored (sliceSlash_allowed.mp h).1]
        exact ⟨fun h => absurd h.2 hstored,fun _ => ⟨rfl,rfl⟩⟩
  next hno =>
    refine ⟨fun h => ?_,fun _ => ⟨rfl,rfl⟩⟩
    obtain ⟨key,hkey⟩ := Option.isSome_iff_exists.mp (Bool.and_eq_true_iff.mp h.1).1
    obtain ⟨maxFiat,hmax,hpos⟩ := (Option.any_eq_true _ _).mp (Bool.and_eq_true_iff.mp h.1).2
    exact (hno key maxFiat hkey (Option.filter_eq_some_iff.mpr
      ⟨hmax,(Bool.and_eq_true_iff.mp hpos).1⟩)).elim

def State.rootOrderFrom (s : State) : Nat → Order → Option Order
  | 0, _ => none
  | depth + 1, current =>
    match current.rangeParentId with
    | none => some current
    | some parent =>
      match (Query.orderById parent).run s with
      | some o => s.rootOrderFrom depth o
      | none => some current

def State.rangeRootOf (s : State) (o : Order) : Option Order :=
  s.rootOrderFrom maxRangeChainDepth o

def State.inRange (s : State) (o : Order) : Bool :=
  (s.rangeRootOf o).any (·.maxAmount.isSome)

def State.rootBond (s : State) (o : Order) : Option Bond :=
  (s.rangeRootOf o).bind fun root => (Query.findBondByOrderAndRole root.id .maker).run s

def State.slashTarget (s : State) (o : Order) (active : List Bond) (side : Side) : Option Bond :=
  match resolveLockedBond o active side with
  | some b => some b
  | none =>
    if s.inRange o && sideIsMaker o side then (s.rootBond o).filter (·.state == .locked) else none

theorem rootOrderFrom_congr (h : s'.orders = s.orders) (depth : Nat) (o : Order) :
    s'.rootOrderFrom depth o = s.rootOrderFrom depth o := by
  induction depth generalizing o with
  | zero => rfl
  | succ depth ih =>
    have hread (id : Uuid) : (Query.orderById id).run s' = (Query.orderById id).run s := by
      simp [Query.run,State.order?,h]
    simp only [State.rootOrderFrom,hread,ih]

theorem findRangeRootFrom_smooth (depth : Nat) (o : Order) :
    Smooth D cfg ext l (findRangeRootFrom depth o) (fun r s' => s'.unread = s.unread ∧
      r = (s.rootOrderFrom depth o).elim (.error .unexpected) .ok) s := by
  induction depth generalizing o s with
  | zero => exact ⟨rfl,rfl⟩
  | succ depth ih =>
    unfold findRangeRootFrom
    cases hparent : o.rangeParentId with
    | none => exact ⟨rfl,by simp [State.rootOrderFrom,hparent]⟩
    | some parent =>
      refine smooth_then smooth_query fun s₁ h₁ => ?_
      simp only [State.rootOrderFrom,hparent]
      cases hread : (Query.orderById parent).run s with
      | none => exact ⟨h₁,rfl⟩
      | some o' =>
        refine (ih o').mono fun r s' h => ⟨h.1.trans h₁,?_⟩
        rw [h.2,rootOrderFrom_congr (State.Holds.of_unread h₁).orders]

theorem rangeRootOf_congr (h : s'.orders = s.orders) : s'.rangeRootOf o = s.rangeRootOf o :=
  rootOrderFrom_congr h _ o

theorem inRange_congr (h : s'.orders = s.orders) : s'.inRange o = s.inRange o := by
  rw [State.inRange,rangeRootOf_congr h,State.inRange]

theorem slashTarget_congr {active : List Bond} {side : Side} (h : s'.unread = s.unread) :
    s'.slashTarget o active side = s.slashTarget o active side := by
  have horders := (State.Holds.of_unread h).orders
  have hroot : s'.rootBond o = s.rootBond o := by
    simp only [State.rootBond,rangeRootOf_congr horders,Query.run_congr h]
  rw [State.slashTarget,State.slashTarget,inRange_congr horders,hroot]

theorem findRangeRootOrder_smooth {root : Order} (hroot : s.rangeRootOf o = some root) :
    Smooth D cfg ext l (findRangeRootOrder o)
    (fun r s' => r = .ok root ∧ s'.unread = s.unread) s := by
  refine (findRangeRootFrom_smooth _ o).mono fun r s' h => ⟨?_,h.1⟩
  rw [h.2,show s.rootOrderFrom maxRangeChainDepth o = some root from hroot]
  rfl

theorem orderHasRangeMakerBond_smooth (hroot : (s.rangeRootOf o).isSome = true) :
    Smooth D cfg ext l (orderHasRangeMakerBond o) (fun r s' =>
      r = .ok (s.inRange o) ∧ s'.unread = s.unread) s := by
  obtain ⟨root,hroot⟩ := Option.isSome_iff_exists.mp hroot
  refine smooth_then (findRangeRootOrder_smooth hroot) fun s₁ h₁ => ⟨?_,h₁⟩
  rw [State.inRange,hroot]
  rfl

theorem resolveSlashTarget_smooth {active : List Bond} {side : Side}
    (hroot : (s.rangeRootOf o).isSome = true) :
    Smooth D cfg ext l (resolveSlashTarget o active side (s.inRange o)) (fun r s' =>
      r = .ok (s.slashTarget o active side) ∧ s'.unread = s.unread) s := by
  obtain ⟨root,hroot⟩ := Option.isSome_iff_exists.mp hroot
  unfold resolveSlashTarget State.slashTarget
  cases resolveLockedBond o active side with
  | some b => exact ⟨rfl,rfl⟩
  | none =>
    dsimp only
    split
    · refine smooth_then (a := s.rootBond o) (R := fun s' => s'.unread = s.unread) ?_
        fun s' h => ⟨rfl,h⟩
      refine smooth_then (findRangeRootOrder_smooth hroot) fun s₁ h₁ => ?_
      refine smooth_query.mono fun r s' h => ⟨h.1.trans ?_,h.2.trans h₁⟩
      rw [State.rootBond,hroot,Query.run_congr h₁]
      rfl
    · exact ⟨rfl,rfl⟩

theorem orderHasRangeMakerBond_fails (hroot : s.rangeRootOf o = none) :
    Smooth D cfg ext l (orderHasRangeMakerBond o) (fun r _ => r = .error .unexpected) s := by
  refine System.Sat.bind ((findRangeRootFrom_smooth _ o).mono fun r s' h => ?_)
  rw [show s.rootOrderFrom maxRangeChainDepth o = none from hroot] at h
  obtain ⟨-,rfl⟩ := h
  rfl

def BondResolution.flag (res : BondResolution) : Side → Bool
  | .seller => res.slashSeller
  | .buyer => res.slashBuyer

def State.activeBonds (s : State) (o : Order) : List Bond :=
  (Query.findActiveBondsForOrder o.id).run s

theorem mem_activeBonds :
    b ∈ s.activeBonds o ↔ b ∈ s.bonds ∧ b.orderId = o.id ∧ b.state.isActive = true := by
  simp [State.activeBonds,Query.run,mem_byCreatedAt]

theorem validateBondResolution_smooth {res : BondResolution} :
    Smooth D cfg ext l (validateBondResolution o res) (fun r s' => r = .ok () →
      s'.unread = s.unread ∧ ∀ side, res.flag side = true →
        (s.slashTarget o (s.activeBonds o) side).isSome = true) s := by
  unfold validateBondResolution
  split
  next hnone =>
    refine fun _ => ⟨rfl,fun side hside => ?_⟩
    cases side <;> simp_all [BondResolution.flag]
  next hsome =>
    refine smooth_then smooth_query fun s₁ h₁ => ?_
    have horders₁ := (State.Holds.of_unread h₁).orders
    cases hroot : s.rangeRootOf o with
    | none =>
      refine smooth_bind (orderHasRangeMakerBond_fails ((rangeRootOf_congr horders₁).trans hroot))
        (fun _ _ h h' => nomatch h') ?_
      exact fun _ _ h => nomatch h
    | some root =>
      have hroot' {s' : State} (h : s'.unread = s.unread) : (s'.rangeRootOf o).isSome = true := by
        rw [rangeRootOf_congr (State.Holds.of_unread h).orders,hroot]
        rfl
      have hcheck (side : Side) {s' : State} (h : s'.unread = s.unread) :
          Smooth D cfg ext l (Prog.when (res.flag side)
            ((resolveSlashTarget o (s.activeBonds o) side (s₁.inRange o)).bind fun target =>
              ensure target.isSome (.cantDo .invalidPayload))) (fun r s'' => r = .ok () →
                s''.unread = s.unread ∧ (res.flag side = true →
                  (s.slashTarget o (s.activeBonds o) side).isSome = true)) s' := by
        unfold Prog.when
        split
        next hflag =>
          have hrange : s₁.inRange o = s'.inRange o := by
            rw [inRange_congr horders₁,inRange_congr (State.Holds.of_unread h).orders]
          rw [hrange]
          refine smooth_then (resolveSlashTarget_smooth (hroot' h)) fun s'' h'' => ?_
          rw [slashTarget_congr h]
          cases htarget : s.slashTarget o (s.activeBonds o) side with
          | none => exact fun h => nomatch h
          | some b => exact fun _ => ⟨h''.trans h,fun _ => rfl⟩
        next hflag => exact fun _ => ⟨h,fun hf => absurd hf hflag⟩
      refine smooth_then (orderHasRangeMakerBond_smooth (hroot' h₁)) fun s₂ h₂ => ?_
      refine smooth_bind (hcheck .seller (h₂.trans h₁)) (fun _ _ _ h => nomatch h) fun _ s₃ h₃ => ?_
      obtain ⟨h₃,hseller⟩ := h₃ rfl
      refine (hcheck .buyer h₃).mono fun r s' h hr => ?_
      obtain ⟨hs',hbuyer⟩ := h hr
      refine ⟨hs',fun side => ?_⟩
      cases side with
      | seller => exact hseller
      | buyer => exact hbuyer

end

end Mostro
