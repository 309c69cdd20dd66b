import Mostro.SmoothRuns

set_option autoImplicit false

/-!
What a solver's directive does to the bonds of an order.  `apply_bond_resolution` slashes the bonds
of the flagged sides and releases the others; a range maker's bond stays as it is, and a child row
records the share of the slice.
-/

namespace Mostro

open Interleaving SqlTable

variable {b t : Bond} {s₁ s₂ : State} {P : BondView → Bool} {new : List BondView} {isRange : Bool}
variable {v : BondView} {root : Order}

section

variable {cfg : Settings} {ext : Externals} {l : Label} {s : State}

def BondResolution.inline (res : BondResolution) (o : Order) (isRange : Bool)
    (side : Side) : Bool :=
  res.flag side && !(isRange && sideIsMaker o side)

def BondResolution.slices (res : BondResolution) (o : Order) (isRange : Bool)
    (side : Side) : Bool :=
  res.flag side && isRange && sideIsMaker o side

/-- The bond is the side's.  The maker's is known by its role, whatever key the maker trades under
by now; a taker's carries the taker's key. -/
def Order.ownsBond (o : Order) (side : Side) (v : BondView) : Bool :=
  if sideIsMaker o side then v.role == .maker
  else v.role == .taker && sidePubkey o side == some v.pubkey

def BondResolution.sideSlashes (res : BondResolution) (o : Order) (isRange : Bool) (side : Side)
    (v : BondView) : Bool :=
  res.inline o isRange side && v.orderId == o.id && v.state == .locked && o.ownsBond side v

def BondResolution.slashes (res : BondResolution) (o : Order) (isRange : Bool) (v : BondView) :
    Bool :=
  res.sideSlashes o isRange .seller v || res.sideSlashes o isRange .buyer v

def BondView.slashIf (P : BondView → Bool) (reason : BondSlashReason) (v : BondView) : BondView :=
  if P v then { v with state := .pendingPayout, slashedReason := some reason } else v

/-- The bonds `P` selects are slashed, the other active bonds of the order are released, and a range
maker's bond stays as it is. -/
def BondView.outcome (P : BondView → Bool) (o : Order) (isRange : Bool) (reason : BondSlashReason)
    (v : BondView) : BondView :=
  if P v then { v with state := .pendingPayout, slashedReason := some reason }
  else if v.orderId == o.id && v.state.isActive && !(isRange && v.role == .maker) then v.released
  else v

def BondResolution.outcome (res : BondResolution) (o : Order) (isRange : Bool)
    (reason : BondSlashReason) : BondView → BondView :=
  BondView.outcome (res.slashes o isRange) o isRange reason

def State.keyed (s : State) (o : Order) (res : BondResolution) (side : Side)
    (v : BondView) : Bool :=
  res.inline o (s.inRange o) side
    && (resolveLockedBond o (s.activeBonds o) side).any fun t => v.id == t.id

def State.found (s : State) (o : Order) (res : BondResolution) (v : BondView) : Bool :=
  s.keyed o res .seller v || s.keyed o res .buyer v

/-- On a slice of a range, the maker's locked bond is the one filed under the root, and no locked
bond of one side carries the key of the other. -/
def State.rangeKeysTell (s : State) (o : Order) : Bool :=
  !s.inRange o || (s.activeBonds o).all fun b => b.state != .locked ||
    (b.role != .maker || (s.rootBond o).any (·.id == b.id)) &&
    ([.buyer,.seller] : List Side).all fun side =>
      sidePubkey o side != some b.pubkey || sideIsMaker o side == (b.role == .maker)

structure RangeKeys (s : State) (o : Order) : Prop where
  root : ∀ b ∈ s.activeBonds o, b.state = .locked → b.role = .maker →
    ∃ t, s.rootBond o = some t ∧ t.id = b.id
  side : ∀ b ∈ s.activeBonds o, b.state = .locked → ∀ side, sidePubkey o side = some b.pubkey →
    sideIsMaker o side = (b.role == .maker)

theorem rangeKeys_of_tell {o : Order} (h : s.rangeKeysTell o = true) (hrange : s.inRange o = true) :
    RangeKeys s o := by
  have hall {b : Bond} (hb : b ∈ s.activeBonds o) (hlocked : b.state = .locked) := by
    have hall := List.all_eq_true.mp ((Bool.or_eq_true_iff.mp h).resolve_left (by simp [hrange]))
      b hb
    exact Bool.and_eq_true_iff.mp ((Bool.or_eq_true_iff.mp hall).resolve_left (by simp [hlocked]))
  refine ⟨fun b hb hlocked hrole => ?_,fun b hb hlocked side hkey => ?_⟩
  · have hroot := (hall hb hlocked).1
    simp only [hrole,bne_self_eq_false,Bool.false_or] at hroot
    obtain ⟨t,ht,hid⟩ := (Option.any_eq_true _ _).mp hroot
    exact ⟨t,ht,by simpa using hid⟩
  · have hside := List.all_eq_true.mp (hall hb hlocked).2 side (by cases side <;> simp)
    simpa [hkey] using hside

variable {o : Order} {res : BondResolution} {reason : BondSlashReason} {side : Side}

theorem resolveLockedBond_some {active : List Bond} (h : resolveLockedBond o active side = some t) :
    t ∈ active ∧ t.state = .locked ∧ sidePubkey o side = some t.pubkey := by
  unfold resolveLockedBond at h
  split at h
  · cases h
  next key hkey =>
    have ht := List.find?_some h
    simp only [Bool.and_eq_true,beq_iff_eq] at ht
    exact ⟨List.mem_of_find?_eq_some h,ht.2,by rw [hkey,ht.1]⟩

theorem keyed_iff (hin : res.inline o (s.inRange o) side = true)
    (ht : resolveLockedBond o (s.activeBonds o) side = some t) :
    s.keyed o res side b.view = true ↔ b.id = t.id := by
  simp [State.keyed,hin,ht,Bond.view]

theorem keyed_off (hoff : res.inline o (s.inRange o) side = false) (v : BondView) :
    s.keyed o res side v = false := by
  simp [State.keyed,hoff]

/-- Part of a directive is done: the bonds `P` selects are slashed and the rows `new` were added.
Until a share is recorded, the other bonds are not touched. -/
structure Progress (s s₁ : State) (P : BondView → Bool) (reason : BondSlashReason)
    (new : List BondView) : Prop where
  holds : s.Holds s₁ (s.views.map (BondView.slashIf P reason) ++ new)
  untouched : new = [] → ∀ b ∈ s.bonds, P b.view = false → b ∈ s₁.bonds
  fresh : ∀ v ∈ new, s.nextId ≤ v.id ∧ v.state = .pendingPayout

theorem Progress.unread (h : Progress s s₁ P reason new) (hu : s₂.unread = s₁.unread) :
    Progress s s₂ P reason new := by
  have hbonds := congrArg State.bonds hu
  exact ⟨h.holds.views ▸ (State.Holds.of_unread hu).trans h.holds,
    fun hn b hb hP => hbonds.symm ▸ h.untouched hn b hb hP,h.fresh⟩

def SideDone (s : State) (o : Order) (res : BondResolution) (reason : BondSlashReason) (side : Side)
    (P : BondView → Bool) (new : List BondView) (r : Except MostroError SideSlash) (s' : State) :
    Prop :=
  ∃ out, r = .ok out ∧
    (∀ b ∈ s.bonds, out.skipped = some b.id ↔ s.keyed o res side b.view = true) ∧
    Progress s s' (fun v => P v || s.keyed o res side v) reason new

theorem slashStep_off {active : List Bond} (hoff : res.flag side = false)
    (hpr : Progress s s₁ P reason new) :
    Smooth (allSucceed ext) cfg ext l (slashStep cfg o active isRange reason (res.flag side) side)
      (SideDone s o res reason side P new) s₁ := by
  have hnone (v : BondView) : s.keyed o res side v = false :=
    keyed_off (by simp [BondResolution.inline,hoff]) v
  rw [slashStep,if_neg (by simp [hoff])]
  exact ⟨{},rfl,by simp [hnone],by simpa [hnone] using hpr⟩

theorem slash_slashIf {S : BondView → Bool} {id : Uuid}
    (h : S v = true ↔ v.id = id ∧ v.state = .locked) :
    BondView.slash id reason (BondView.slashIf P reason v) =
      BondView.slashIf (fun v => P v || S v) reason v := by
  by_cases hP : P v = true
  · simp [BondView.slashIf,BondView.slash,hP]
  · by_cases hS : S v = true
    · simp [BondView.slashIf,BondView.slash,hP,hS,h.mp hS]
    · simp [BondView.slashIf,BondView.slash,hP,hS,mt h.mpr hS]

theorem slashStep_inline {p : Hash} (hids : (s.bonds.map (·.id)).Nodup)
    (hin : res.inline o (s.inRange o) side = true)
    (ht : resolveLockedBond o (s.activeBonds o) side = some t) (hp : t.preimage = some p)
    (hpr : Progress s s₁ P reason new) :
    Smooth (allSucceed ext) cfg ext l
      (slashStep cfg o (s.activeBonds o) (s.inRange o) reason (res.flag side) side)
      (SideDone s o res reason side P new) s₁ := by
  obtain ⟨hflag,hslice⟩ := Bool.and_eq_true_iff.mp hin
  rw [Bool.not_eq_true'] at hslice
  have hsame {b : Bond} := keyed_iff (b := b) hin ht
  obtain ⟨htactive,htlocked,-⟩ := resolveLockedBond_some ht
  have htmem := (mem_activeBonds.mp htactive).1
  rw [slashStep,if_pos hflag,resolveSlashTarget,ht]
  show Smooth (allSucceed ext) cfg ext l (slashSide cfg o t side (s.inRange o) reason) _ s₁
  rw [slashSide,hslice]
  refine smooth_then (slashOne_smooth hp) fun s₂ h₂ => ?_
  refine smooth_bind smooth_query (fun _ _ h => nomatch h.1) fun recorded s₃ h₃ => ?_
  refine ⟨_,rfl,fun b hb => ?_,Progress.unread ⟨?_,?_,hpr.fresh⟩ h₃.2⟩
  · rw [hsame]
    exact ⟨fun h => (Option.some.inj h).symm,fun h => congrArg some h.symm⟩
  · refine ⟨h₂.1.orders.trans hpr.holds.orders,hpr.holds.nextId.trans h₂.1.nextId,?_⟩
    rw [h₂.1.views,hpr.holds.views,List.map_append]
    congr 1
    · rw [State.views,List.map_map,List.map_map,List.map_map]
      refine List.map_congr_left fun b hb => slash_slashIf ?_
      -- the one locked bond with the side's key
      rw [hsame]
      refine ⟨fun hid => ⟨hid,?_⟩,fun h => h.1⟩
      exact (List.inj_on_of_nodup_map hids hb htmem hid) ▸ htlocked
    · refine (List.map_congr_left fun v hv => ?_).trans (List.map_id new)
      simp [BondView.slash,(hpr.fresh v hv).2]
  · intro hnew b hb hP
    rw [Bool.or_eq_false_iff] at hP
    refine h₂.2 b (hpr.untouched hnew b hb hP.1) fun hid => ?_
    exact Bool.false_ne_true (hP.2.symm.trans (hsame.mpr hid))

theorem rootBond_view {f : BondView → BondView} (horders : s₁.orders = s.orders)
    (hviews : s₁.views = s.views.map f ++ new)
    (hf : ∀ v, (f v).orderId = v.orderId ∧ (f v).role = v.role ∧ (f v).parentBondId =
      v.parentBondId) (hnew : ∀ v ∈ new, v.parentBondId ≠ none) :
    (s₁.rootBond o).map Bond.view = ((s.rootBond o).map Bond.view).map f := by
  rw [State.rootBond,State.rootBond,rangeRootOf_congr horders]
  cases s.rangeRootOf o with
  | none => rfl
  | some root =>
    let q (v : BondView) : Bool := v.orderId == root.id && v.role == .maker && v.parentBondId.isNone
    have hfind (s : State) : ((Query.findBondByOrderAndRole root.id .maker).run s).map Bond.view =
        s.views.find? q := by
      rw [State.views,List.find?_map]
      rfl
    have hq : q ∘ f = q := by
      funext v
      simp only [q,Function.comp,(hf v).1,(hf v).2.1,(hf v).2.2]
    have hnone : new.find? q = none := by
      refine List.find?_eq_none.mpr fun v hv => ?_
      simp [q,hnew v hv]
    show ((Query.findBondByOrderAndRole root.id .maker).run s₁).map Bond.view =
      (((Query.findBondByOrderAndRole root.id .maker).run s).map Bond.view).map f
    rw [hfind,hfind,hviews,List.find?_append,hnone,Option.or_none,List.find?_map,hq]

theorem slashIf_core (P : BondView → Bool) (v : BondView) :
    (BondView.slashIf P reason v).orderId = v.orderId ∧
      (BondView.slashIf P reason v).role = v.role ∧
      (BondView.slashIf P reason v).parentBondId = v.parentBondId := by
  unfold BondView.slashIf
  split <;> exact ⟨rfl,rfl,rfl⟩

theorem mem_of_rootBond (h : s.rootBond o = some b) : b ∈ s.bonds ∧ b.role = .maker := by
  obtain ⟨root,-,h⟩ := Option.bind_eq_some_iff.mp h
  have hb := List.find?_some h
  simp only [Bool.and_eq_true,beq_iff_eq] at hb
  exact ⟨List.mem_of_find?_eq_some h,hb.1.2⟩

theorem RangeKeys.rootBond (h : RangeKeys s o) (hids : (s.bonds.map (·.id)).Nodup)
    (hb : b ∈ s.activeBonds o) (hlocked : b.state = .locked) (hrole : b.role = .maker) :
    s.rootBond o = some b := by
  obtain ⟨t,ht,hid⟩ := h.root b hb hlocked hrole
  rwa [List.inj_on_of_nodup_map hids (mem_of_rootBond ht).1 (mem_activeBonds.mp hb).1 hid] at ht

theorem RangeKeys.slashTarget_root (h : RangeKeys s o) (hids : (s.bonds.map (·.id)).Nodup)
    (hside : sideIsMaker o side = true) (ht : s.slashTarget o (s.activeBonds o) side = some t) :
    s.rootBond o = some t ∧ t.state = .locked := by
  unfold State.slashTarget at ht
  split at ht
  next b hb =>
    cases ht
    obtain ⟨hmem,hlocked,hkey⟩ := resolveLockedBond_some hb
    have hrole : t.role = .maker := by
      simpa [hside] using (h.side t hmem hlocked side hkey).symm
    exact ⟨h.rootBond hids hmem hlocked hrole,hlocked⟩
  · split at ht
    · obtain ⟨hroot,hlocked⟩ := Option.filter_eq_some_iff.mp ht
      exact ⟨hroot,by simpa using hlocked⟩
    · cases ht

theorem Progress.rootBond (h : Progress s s₁ P reason []) (hids : (s.bonds.map (·.id)).Nodup)
    (ht : s.rootBond o = some t) (hP : P t.view = false) : s₁.rootBond o = some t := by
  have hview := rootBond_view (o := o) h.holds.orders h.holds.views (slashIf_core P) (by simp)
  have hids₁ : s₁.bonds.map (·.id) = s.bonds.map (·.id) := by
    have hid : s₁.views.map (·.id) = s.views.map (·.id) := by
      rw [h.holds.views,List.append_nil,List.map_map]
      refine List.map_congr_left fun v _ => ?_
      simp only [Function.comp,BondView.slashIf]
      split <;> rfl
    rwa [State.views,State.views,List.map_map,List.map_map] at hid
  rw [ht] at hview
  cases hroot : s₁.rootBond o with
  | none => simp [hroot] at hview
  | some t₁ =>
    simp only [hroot,Option.map_some,BondView.slashIf,hP,Bool.false_eq_true,if_false,
      Option.some.injEq] at hview
    have hid : t₁.id = t.id := congrArg BondView.id hview
    rw [List.inj_on_of_nodup_map (hids₁ ▸ hids) (mem_of_rootBond hroot).1
      (h.untouched rfl t (mem_of_rootBond ht).1 hP) hid]

/-- The rows a flagged range maker adds: the child row of the slice, unless its share comes to
nothing or is recorded already. -/
def SliceRows (s : State) (o : Order) (root : Order) (t : Bond) (reason : BondSlashReason)
    (new : List BondView) : Prop :=
  (sliceShares o root t = true ∧ s.sliceStored t.id o.id = false → ∃ key id,
    makerSlicePubkey o = some key ∧ s.nextId ≤ id ∧ new = [sliceView o t.id reason key id]) ∧
  (¬ (sliceShares o root t = true ∧ s.sliceStored t.id o.id = false) → new = [])

theorem sliceStored_slashIf (h : Progress s s₁ P reason []) (parent slice : Uuid) :
    s₁.sliceStored parent slice = s.sliceStored parent slice := by
  rw [State.sliceStored,h.holds.views,List.append_nil,List.any_map,State.sliceStored]
  congr 1
  funext v
  simp only [Function.comp,BondView.slashIf]
  split <;> rfl

theorem slashStep_slice (hids : (s.bonds.map (·.id)).Nodup) (hkeys : RangeKeys s o)
    (hroot : s.rangeRootOf o = some root) (hsl : res.slices o (s.inRange o) side = true)
    (ht : s.slashTarget o (s.activeBonds o) side = some t) (hP : P t.view = false)
    (hpr : Progress s s₁ P reason []) :
    Smooth (allSucceed ext) cfg ext l
      (slashStep cfg o (s.activeBonds o) (s.inRange o) reason (res.flag side) side)
      (fun r s' => ∃ new, SliceRows s o root t reason new ∧
        SideDone s o res reason side P new r s') s₁ := by
  obtain ⟨hflag,hmaker⟩ := Bool.and_eq_true_iff.mp hsl
  obtain ⟨hflag,hrange⟩ := Bool.and_eq_true_iff.mp hflag
  obtain ⟨htroot,htlocked⟩ := hkeys.slashTarget_root hids hmaker ht
  have hnone (v : BondView) : s.keyed o res side v = false :=
    keyed_off (by simp [BondResolution.inline,hrange,hmaker]) v
  have hrootAt {s' : State} (h : Progress s s' P reason []) : s'.rangeRootOf o = some root :=
    (rangeRootOf_congr h.holds.orders).trans hroot
  have hresolve : Smooth (allSucceed ext) cfg ext l
      (resolveSlashTarget o (s.activeBonds o) side (s.inRange o)) (fun r s' =>
        r = .ok (some t) ∧ s'.unread = s₁.unread) s₁ := by
    have htarget : s₁.slashTarget o (s.activeBonds o) side = some t := by
      rw [State.slashTarget,hpr.rootBond hids htroot hP,inRange_congr hpr.holds.orders]
      rwa [State.slashTarget,htroot] at ht
    rw [← htarget,← inRange_congr hpr.holds.orders]
    exact resolveSlashTarget_smooth (by rw [hrootAt hpr]; rfl)
  rw [slashStep,if_pos hflag]
  refine smooth_then hresolve fun s₂ h₂ => ?_
  have hpr := hpr.unread h₂
  show Smooth (allSucceed ext) cfg ext l (slashSide cfg o t side (s.inRange o) reason) _ s₂
  rw [slashSide,if_pos (by rw [hrange,hmaker]; rfl)]
  refine smooth_then (findRangeRootOrder_smooth (hrootAt hpr)) fun s₃ h₃ => ?_
  have hpr := hpr.unread h₃
  have hlocked : ∃ w ∈ s₃.views, w.id = t.id ∧ w.state = .locked :=
    ⟨t.view,List.mem_map_of_mem (hpr.untouched rfl t (mem_of_rootBond htroot).1 hP),rfl,htlocked⟩
  have hstored := sliceStored_slashIf hpr t.id o.id
  by_cases hshare : sliceShares o root t = true ∧ s.sliceStored t.id o.id = false
  · refine smooth_then (a := true) ((recordMakerSliceSlash_smooth hlocked).mono fun r s' h =>
      h.1 (by rwa [hstored])) fun s₄ h₄ => ?_
    obtain ⟨key,hkey,h₄⟩ := h₄
    refine smooth_bind smooth_query (fun _ _ h => by cases h.1) fun child s₅ h₅ => ?_
    refine ⟨_,⟨fun _ => ⟨key,s₃.nextId,hkey,hpr.holds.nextId,rfl⟩,fun h => absurd hshare h⟩,
      _,rfl,by simp [hnone],Progress.unread ⟨?_,fun h => (by cases h),?_⟩ h₅.2⟩
    · refine ⟨h₄.orders.trans hpr.holds.orders,hpr.holds.nextId.trans h₄.nextId,?_⟩
      rw [h₄.views,hpr.holds.views,List.append_nil]
      simp [hnone]
    · intro v hv
      obtain rfl := List.mem_singleton.mp hv
      exact ⟨hpr.holds.nextId,rfl⟩
  · refine smooth_then (a := false) ((recordMakerSliceSlash_smooth hlocked).mono fun r s' h =>
      h.2 (by rwa [hstored])) fun s₄ h₄ => ?_
    subst h₄
    exact ⟨[],⟨fun h => absurd h hshare,fun _ => rfl⟩,{},rfl,by simp [hnone],
      by simpa [hnone] using hpr⟩

def sweepView (skip : Bond → Bool) (bonds : List Bond) (v : BondView) : BondView :=
  bonds.foldl (fun v b => if skip b then v else BondView.release b.view v) v

theorem sweepView_cons (skip : Bond → Bool) (b : Bond) (rest : List Bond) (v : BondView) :
    sweepView skip (b :: rest) v =
      sweepView skip rest (if skip b then v else BondView.release b.view v) := rfl

theorem sweep_smooth {skip : Bond → Bool} {bonds : List Bond}
    (hlive : ∀ b ∈ bonds, b.state.isTerminal = false) :
    Smooth (allSucceed ext) cfg ext l
      (Prog.forEach bonds fun b => if skip b then pure () else (releaseBond b).ignore)
      (fun r s' => r = .ok () ∧ s.Holds s' (s.views.map (sweepView skip bonds))) s := by
  induction bonds generalizing s with
  | nil => exact ⟨rfl,rfl,le_rfl,(List.map_id _).symm⟩
  | cons b rest ih =>
    have hround : Smooth (allSucceed ext) cfg ext l
      (if skip b then pure () else (releaseBond b).ignore)
        (fun r s' => r = .ok () ∧ s.Holds s' (s.views.map fun v =>
          if skip b then v else BondView.release b.view v)) s := by
      by_cases hskip : skip b = true
      · simp only [if_pos hskip]
        exact ⟨rfl,rfl,le_rfl,(List.map_id' _).symm⟩
      · simp only [if_neg hskip]
        exact System.Sat.ignore ((releaseBond_smooth (hlive b List.mem_cons_self)).mono
          fun _ _ h => ⟨rfl,h.2⟩)
    refine smooth_then hround fun s₁ h₁ => ?_
    refine (ih fun c hc => hlive c (List.mem_cons_of_mem b hc)).mono fun r s' h => ⟨h.1,?_⟩
    refine ⟨h.2.orders.trans h₁.orders,h₁.nextId.trans h.2.nextId,?_⟩
    rw [h.2.views,h₁.views,List.map_map]
    exact List.map_congr_left fun v _ => (sweepView_cons skip b rest v).symm

theorem sweepView_eq {skip : Bond → Bool} {bonds : List Bond}
    (h : ∀ b ∈ bonds, skip b = false → b.id = v.id → b.view.released = v.released) :
    sweepView skip bonds v =
      if ∃ b ∈ bonds, skip b = false ∧ b.id = v.id then v.released else v := by
  induction bonds generalizing v with
  | nil => simp [sweepView]
  | cons b rest ih =>
    have hrest : ∀ c ∈ rest, skip c = false → c.id = v.id → c.view.released = v.released :=
      fun c hc => h c (List.mem_cons_of_mem b hc)
    rw [sweepView_cons]
    by_cases hb : skip b = false ∧ b.id = v.id
    · have hrel : (if skip b then v else BondView.release b.view v) = v.released := by
        rw [if_neg (by simp [hb.1])]
        exact (if_pos hb.2.symm).trans (h b List.mem_cons_self hb.1 hb.2)
      rw [hrel,if_pos ⟨b,List.mem_cons_self,hb⟩,ih (v := v.released) hrest]
      split <;> rfl
    · have hkeep : (if skip b then v else BondView.release b.view v) = v := by
        split
        · rfl
        next hskip => exact if_neg fun hid => hb ⟨by simpa using hskip,hid.symm⟩
      rw [hkeep,ih hrest]
      refine if_congr ?_ rfl rfl
      simp [hb]

/-! ### The whole directive -/

def makerSide (o : Order) : Side :=
  match o.kind with
  | .sell => .seller
  | .buy => .buyer

def DirectiveRows (s : State) (o : Order) (res : BondResolution) (reason : BondSlashReason)
    (new : List BondView) : Prop :=
  if res.slices o (s.inRange o) (makerSide o) then
    ∃ root t, s.rangeRootOf o = some root ∧ s.rootBond o = some t ∧ SliceRows s o root t reason new
  else new = []

structure Accepted (s : State) (o : Order) (res : BondResolution) : Prop where
  consistent : Consistent s
  keys : s.inRange o = true → RangeKeys s o
  root : (s.rangeRootOf o).isSome = true
  target : ∀ side, res.flag side = true → (s.slashTarget o (s.activeBonds o) side).isSome = true

theorem Consistent.active_preimage (h : Consistent s) (hb : b ∈ s.activeBonds o) :
    ∃ p, b.preimage = some p := by
  obtain ⟨hmem,-,hactive⟩ := mem_activeBonds.mp hb
  have hescrow := h.bond b hmem
  unfold BondEscrow at hescrow
  split at hescrow
  · obtain ⟨p,-,hp,-⟩ := hescrow
    exact ⟨p,hp⟩
  · exact absurd (hactive.symm.trans hescrow.2.2.1) (by decide)

theorem slashTarget_inline {active : List Bond} (h : res.inline o (s.inRange o) side = true) :
    s.slashTarget o active side = resolveLockedBond o active side := by
  have hslice : (s.inRange o && sideIsMaker o side) = false := by
    rw [← Bool.not_eq_true']
    exact (Bool.and_eq_true_iff.mp h).2
  rw [State.slashTarget,hslice]
  cases resolveLockedBond o active side <;> rfl

theorem slashStep_taker (ha : Accepted s o res) (hside : sideIsMaker o side = false)
    (hpr : Progress s s₁ P reason new) :
    Smooth (allSucceed ext) cfg ext l
      (slashStep cfg o (s.activeBonds o) (s.inRange o) reason (res.flag side) side)
      (SideDone s o res reason side P new) s₁ := by
  cases hflag : res.flag side with
  | false => exact hflag ▸ slashStep_off hflag hpr
  | true =>
    have hin : res.inline o (s.inRange o) side = true := by
      simp [BondResolution.inline,hflag,hside]
    obtain ⟨t,ht⟩ := Option.isSome_iff_exists.mp (ha.target side hflag)
    have hlocked := (slashTarget_inline hin).symm.trans ht
    obtain ⟨p,hp⟩ := ha.consistent.active_preimage (resolveLockedBond_some hlocked).1
    exact hflag ▸ slashStep_inline ha.consistent.bondIds hin hlocked hp hpr

theorem sideIsMaker_iff : sideIsMaker o side = true ↔ side = makerSide o := by
  unfold makerSide
  cases hkind : o.kind <;> cases side <;> simp [sideIsMaker,hkind]

theorem slashStep_maker (ha : Accepted s o res) (hside : makerSide o = side)
    (hP : s.inRange o = true → ∀ t, s.rootBond o = some t → P t.view = false)
    (hpr : Progress s s₁ P reason []) :
    Smooth (allSucceed ext) cfg ext l
      (slashStep cfg o (s.activeBonds o) (s.inRange o) reason (res.flag side) side)
      (fun r s' => ∃ new, DirectiveRows s o res reason new ∧
        SideDone s o res reason side P new r s') s₁ := by
  subst hside
  have hmaker : sideIsMaker o (makerSide o) = true := sideIsMaker_iff.mpr rfl
  cases hslices : res.slices o (s.inRange o) (makerSide o) with
  | true =>
    obtain ⟨hflag,hrange⟩ : res.flag (makerSide o) = true ∧ s.inRange o = true := by
      simp only [BondResolution.slices,Bool.and_eq_true] at hslices
      exact hslices.1
    obtain ⟨root,hroot⟩ := Option.isSome_iff_exists.mp ha.root
    obtain ⟨t,ht⟩ := Option.isSome_iff_exists.mp (ha.target _ hflag)
    have hids := ha.consistent.bondIds
    have htroot := ((ha.keys hrange).slashTarget_root hids hmaker ht).1
    refine (slashStep_slice hids (ha.keys hrange) hroot hslices ht (hP hrange t htroot) hpr).mono ?_
    rintro r s' ⟨new,hnew,hdone⟩
    refine ⟨new,?_,hdone⟩
    rw [DirectiveRows,if_pos hslices]
    exact ⟨root,t,hroot,htroot,hnew⟩
  | false =>
    have hnew : DirectiveRows s o res reason [] := by
      rw [DirectiveRows,if_neg (by simp [hslices])]
    have hstep : Smooth (allSucceed ext) cfg ext l
        (slashStep cfg o (s.activeBonds o) (s.inRange o) reason (res.flag (makerSide o))
          (makerSide o)) (SideDone s o res reason (makerSide o) P []) s₁ := by
      cases hflag : res.flag (makerSide o) with
      | false => exact hflag ▸ slashStep_off hflag hpr
      | true =>
        have hin : res.inline o (s.inRange o) (makerSide o) = true := by
          simp only [BondResolution.slices,hflag,hmaker,Bool.true_and,Bool.and_true] at hslices
          simp [BondResolution.inline,hflag,hslices]
        obtain ⟨t,ht⟩ := Option.isSome_iff_exists.mp (ha.target _ hflag)
        have hlocked := (slashTarget_inline hin).symm.trans ht
        obtain ⟨p,hp⟩ := ha.consistent.active_preimage (resolveLockedBond_some hlocked).1
        exact hflag ▸ slashStep_inline ha.consistent.bondIds hin hlocked hp hpr
    exact hstep.mono fun r s' h => ⟨[],hnew,h⟩

theorem Progress.start (hu : s₁.unread = s.unread) : Progress s s₁ (fun _ => false) reason [] := by
  have hbonds := congrArg State.bonds hu
  refine ⟨?_,fun _ b hb _ => hbonds.symm ▸ hb,by simp⟩
  rw [List.append_nil,show BondView.slashIf (fun _ => false) reason = id from rfl,List.map_id]
  exact State.Holds.of_unread hu

theorem RangeKeys.root_spared (h : RangeKeys s o) (hids : (s.bonds.map (·.id)).Nodup)
    (hside : sideIsMaker o side = false) (ht : s.rootBond o = some t) :
    s.keyed o res side t.view = false := by
  rw [← Bool.not_eq_true]
  intro hkeyed
  obtain ⟨b,hb,hid⟩ := (Option.any_eq_true _ _).mp (Bool.and_eq_true_iff.mp hkeyed).2
  obtain ⟨hactive,hlocked,hkey⟩ := resolveLockedBond_some hb
  obtain ⟨hmem,hrole⟩ := mem_of_rootBond ht
  obtain rfl := List.inj_on_of_nodup_map hids hmem (mem_activeBonds.mp hactive).1
    (beq_iff_eq.mp hid)
  simpa [hside,hrole] using h.side t hactive hlocked side hkey

theorem slashSteps_smooth {α : Type} {k : SideSlash → SideSlash → M α}
    {Q : Except MostroError α → State → Prop} (ha : Accepted s o res) (hu : s₁.unread = s.unread)
    (hk : ∀ seller buyer s' new, DirectiveRows s o res reason new →
      (∀ b ∈ s.bonds, (seller.skipped = some b.id ∨ buyer.skipped = some b.id) ↔
        s.found o res b.view = true) → Progress s s' (s.found o res) reason new →
      Smooth (allSucceed ext) cfg ext l (k seller buyer) Q s') :
    Smooth (allSucceed ext) cfg ext l
      ((slashStep cfg o (s.activeBonds o) (s.inRange o) reason (res.flag .seller) .seller).bind
        fun seller =>
          (slashStep cfg o (s.activeBonds o) (s.inRange o) reason (res.flag .buyer) .buyer).bind
            fun buyer => k seller buyer) Q s₁ := by
  have hrest {seller buyer : SideSlash} {s' : State} {new : List BondView}
      (hnew : DirectiveRows s o res reason new)
      (hseller : ∀ b ∈ s.bonds, seller.skipped = some b.id ↔ s.keyed o res .seller b.view = true)
      (hbuyer : ∀ b ∈ s.bonds, buyer.skipped = some b.id ↔ s.keyed o res .buyer b.view = true)
      (hpr : Progress s s' (fun v => (false || s.keyed o res .seller v) || s.keyed o res .buyer v)
        reason new) :
      Smooth (allSucceed ext) cfg ext l (k seller buyer) Q s' := by
    refine hk seller buyer s' new hnew (fun b hb => ?_) hpr
    rw [hseller b hb,hbuyer b hb,State.found,Bool.or_eq_true]
  cases hkind : o.kind with
  | sell =>
    have hmaker : makerSide o = .seller := by simp [makerSide,hkind]
    have htaker : sideIsMaker o .buyer = false := by simp [sideIsMaker,hkind]
    refine smooth_bind (slashStep_maker ha hmaker (fun _ _ _ => rfl) (.start hu)) ?_ ?_
    · rintro e s' ⟨_,_,_,⟨⟩,_⟩
    · rintro _ s₂ ⟨new,hnew,seller,⟨⟩,hseller,hpr⟩
      refine smooth_bind (slashStep_taker ha htaker hpr) ?_ ?_
      · rintro e s' ⟨_,⟨⟩,_⟩
      · rintro _ s₃ ⟨buyer,⟨⟩,hbuyer,hpr⟩
        exact hrest hnew hseller hbuyer hpr
  | buy =>
    have hmaker : makerSide o = .buyer := by simp [makerSide,hkind]
    have htaker : sideIsMaker o .seller = false := by simp [sideIsMaker,hkind]
    refine smooth_bind (slashStep_taker ha htaker (.start hu)) ?_ ?_
    · rintro e s' ⟨_,⟨⟩,_⟩
    · rintro _ s₂ ⟨seller,⟨⟩,hseller,hpr⟩
      refine smooth_bind (slashStep_maker ha hmaker (fun hrange t ht => ?_) hpr) ?_ ?_
      · exact (Bool.false_or _).trans
          ((ha.keys hrange).root_spared ha.consistent.bondIds htaker ht)
      · rintro e s' ⟨_,_,_,⟨⟩,_⟩
      · rintro _ s₃ ⟨new,hnew,buyer,⟨⟩,hbuyer,hpr⟩
        exact hrest hnew hseller hbuyer hpr

theorem sweep_outcome {seller buyer : SideSlash} (hids : (s.bonds.map (·.id)).Nodup)
    (hskip : ∀ b ∈ s.bonds, (seller.skipped = some b.id ∨ buyer.skipped = some b.id) ↔
      P b.view = true) (hb : b ∈ s.bonds) :
    sweepView (fun b => seller.skipped == some b.id || buyer.skipped == some b.id
        || (s.inRange o && b.role == .maker)) (s.activeBonds o) (BondView.slashIf P reason b.view) =
      BondView.outcome P o (s.inRange o) reason b.view := by
  set skip : Bond → Bool := fun b => seller.skipped == some b.id || buyer.skipped == some b.id
    || (s.inRange o && b.role == .maker) with hdef
  have hskipped : skip b = false ↔ P b.view = false ∧
      (s.inRange o && b.role == .maker) = false := by
    rw [← Bool.not_eq_true (P _),← hskip b hb,hdef]
    simp
  have hself {c : Bond} (hc : c ∈ s.activeBonds o) (hid : c.id = b.id) : c = b :=
    List.inj_on_of_nodup_map hids (mem_activeBonds.mp hc).1 hb hid
  cases hslash : P b.view with
  | true =>
    have hview : BondView.slashIf P reason b.view =
        { b.view with state := .pendingPayout, slashedReason := some reason } := if_pos hslash
    have hout : BondView.outcome P o (s.inRange o) reason b.view =
        { b.view with state := .pendingPayout, slashedReason := some reason } := if_pos hslash
    have hnone {c : Bond} (hc : c ∈ s.activeBonds o) (hs : skip c = false) (hid : c.id = b.id) :
        False := by
      rw [hself hc hid] at hs
      exact Bool.false_ne_true ((hskipped.mp hs).1.symm.trans hslash)
    rw [hview,hout,sweepView_eq fun c hc hs hid => (hnone hc hs hid).elim,if_neg]
    rintro ⟨c,hc,hs,hid⟩
    exact hnone hc hs hid
  | false =>
    have hview : BondView.slashIf P reason b.view = b.view := if_neg (by simp [hslash])
    have hout : BondView.outcome P o (s.inRange o) reason b.view =
        if b.orderId == o.id && b.state.isActive && !(s.inRange o && b.role == .maker) then
          b.view.released else b.view := if_neg (by rw [Bool.not_eq_true]; exact hslash)
    rw [hview,hout,sweepView_eq fun c hc _ hid => by rw [hself hc hid]]
    refine if_congr ?_ rfl rfl
    constructor
    · rintro ⟨c,hc,hs,hid⟩
      obtain rfl := hself hc hid
      obtain ⟨-,horder,hactive⟩ := mem_activeBonds.mp hc
      simp [horder,hactive,(hskipped.mp hs).2]
    · intro h
      simp only [Bool.and_eq_true,beq_iff_eq] at h
      refine ⟨b,mem_activeBonds.mpr ⟨hb,h.1.1,h.1.2⟩,hskipped.mpr ⟨hslash,?_⟩,rfl⟩
      exact Bool.not_eq_true' _ ▸ h.2

theorem applyBondResolution_eq :
    applyBondResolution cfg o res reason =
      (query (.findActiveBondsForOrder o.id)).bind fun active =>
        (orderHasRangeMakerBond o).bind fun isRange =>
          (slashStep cfg o active isRange reason (res.flag .seller) .seller).bind fun seller =>
            (slashStep cfg o active isRange reason (res.flag .buyer) .buyer).bind fun buyer =>
              (Prog.forEach active fun b =>
                if seller.skipped == some b.id || buyer.skipped == some b.id
                    || (isRange && b.role == .maker) then pure ()
                else (releaseBond b).ignore).bind fun _ =>
                pure (seller.notify.toList ++ buyer.notify.toList) := rfl

theorem applyBondResolution_smooth (ha : Accepted s o res) (hu : s₁.unread = s.unread) :
    Smooth (allSucceed ext) cfg ext l (applyBondResolution cfg o res reason) (fun r s' =>
      (∃ rows, r = .ok rows) ∧ ∃ new, DirectiveRows s o res reason new ∧
        s.Holds s' (s.views.map (BondView.outcome (s.found o res) o (s.inRange o) reason) ++ new))
      s₁ := by
  rw [applyBondResolution_eq]
  refine smooth_then smooth_query fun s₂ h₂ => ?_
  have hu₂ := h₂.trans hu
  have hactive : (Query.findActiveBondsForOrder o.id).run s₁ = s.activeBonds o :=
    Query.run_congr hu _
  have horders := (State.Holds.of_unread hu₂).orders
  refine smooth_then (orderHasRangeMakerBond_smooth ?_) fun s₃ h₃ => ?_
  · rw [rangeRootOf_congr horders]
    exact ha.root
  rw [hactive,inRange_congr horders]
  refine slashSteps_smooth ha (h₃.trans hu₂) fun seller buyer s₄ new hnew hskip hpr => ?_
  refine smooth_then (sweep_smooth fun b hb => ?_) fun s₅ h₅ => ⟨⟨_,rfl⟩,new,hnew,?_⟩
  · have hb := (mem_activeBonds.mp hb).2.2
    cases hst : b.state <;> simp_all [BondState.isActive,BondState.isTerminal]
  · refine ⟨h₅.orders.trans hpr.holds.orders,hpr.holds.nextId.trans h₅.nextId,?_⟩
    rw [h₅.views,hpr.holds.views,List.map_append]
    congr 1
    · rw [State.views,List.map_map,List.map_map,List.map_map]
      exact List.map_congr_left fun b hb => sweep_outcome ha.consistent.bondIds hskip hb
    · refine (List.map_congr_left fun v hv => ?_).trans (List.map_id new)
      -- a row added now has none of the ids the sweep releases
      have hfresh {b : Bond} (hb : b ∈ s.activeBonds o) : b.id ≠ v.id := by
        have hlt := ha.consistent.bondIds_lt b (mem_activeBonds.mp hb).1
        exact (hlt.trans_le (hpr.fresh v hv).1).ne
      rw [sweepView_eq fun b hb _ hid => absurd hid (hfresh hb),if_neg]
      · rfl
      · rintro ⟨b,hb,-,hid⟩
        exact hfresh hb hid

/-! ### The same directive again -/

theorem outcome_core (P : BondView → Bool) (isRange : Bool) (v : BondView) :
    (BondView.outcome P o isRange reason v).id = v.id ∧
      (BondView.outcome P o isRange reason v).orderId = v.orderId ∧
      (BondView.outcome P o isRange reason v).role = v.role ∧
      (BondView.outcome P o isRange reason v).parentBondId = v.parentBondId := by
  unfold BondView.outcome BondView.released
  split
  · exact ⟨rfl,rfl,rfl,rfl⟩
  · split <;> exact ⟨rfl,rfl,rfl,rfl⟩

theorem outcome_active (horder : (BondView.outcome P o isRange reason v).orderId = o.id)
    (hactive : (BondView.outcome P o isRange reason v).state.isActive = true) :
    BondView.outcome P o isRange reason v = v ∧ isRange = true ∧ v.role = .maker := by
  rw [(outcome_core P isRange v).2.1] at horder
  unfold BondView.outcome BondView.released at hactive ⊢
  split at hactive
  · cases hactive
  next hslash =>
    rw [if_neg hslash]
    split at hactive
    · cases hactive
    next hkeep =>
      refine ⟨if_neg hkeep,?_⟩
      simpa [horder,hactive] using hkeep

theorem DirectiveRows.child (h : DirectiveRows s o res reason new) (hv : v ∈ new) :
    v.parentBondId ≠ none ∧ v.state = .pendingPayout := by
  unfold DirectiveRows at h
  split at h
  · obtain ⟨root,t,-,-,hsome,hnone⟩ := h
    by_cases hshare : sliceShares o root t = true ∧ s.sliceStored t.id o.id = false
    · obtain ⟨key,id,-,-,rfl⟩ := hsome hshare
      obtain rfl := List.mem_singleton.mp hv
      exact ⟨nofun,rfl⟩
    · simp [hnone hshare] at hv
  · simp [h] at hv

structure Applied (s s₂ : State) (o : Order) (res : BondResolution) (reason : BondSlashReason) :
    Prop where
  rows : ∃ new, DirectiveRows s o res reason new ∧
    s.Holds s₂ (s.views.map (BondView.outcome (s.found o res) o (s.inRange o) reason) ++ new)
  recorded : res.slices o (s.inRange o) (makerSide o) = true → ∃ t, s.rootBond o = some t ∧
    s₂.sliceStored t.id o.id = true

theorem Applied.active (h : Applied s s₂ o res reason) (hb : b ∈ s₂.activeBonds o) :
    s.inRange o = true ∧ b.role = .maker ∧ ∃ c ∈ s.activeBonds o, c.view = b.view := by
  obtain ⟨new,hnew,hh⟩ := h.rows
  obtain ⟨hmem,horder,hactive⟩ := mem_activeBonds.mp hb
  have hview : b.view ∈ s₂.views := List.mem_map_of_mem hmem
  rw [hh.views] at hview
  rcases List.mem_append.mp hview with hview | hview
  · obtain ⟨v,hv,heq⟩ := List.mem_map.mp hview
    obtain ⟨c,hc,rfl⟩ := List.mem_map.mp hv
    obtain ⟨hkeep,hrange,hrole⟩ := outcome_active (v := c.view)
      (by rw [heq]; exact horder) (by rw [heq]; exact hactive)
    have hsame : c.view = b.view := hkeep.symm.trans heq
    have hcactive : c.state.isActive = true := by
      rw [show c.state = b.state from congrArg BondView.state hsame]
      exact hactive
    refine ⟨hrange,(congrArg BondView.role hsame).symm.trans hrole,c,?_,hsame⟩
    exact mem_activeBonds.mpr ⟨hc,(congrArg BondView.orderId hsame).trans horder,hcactive⟩
  · rw [show b.state = .pendingPayout from (hnew.child hview).2] at hactive
    cases hactive

theorem Applied.orders (h : Applied s s₂ o res reason) : s₂.orders = s.orders := by
  obtain ⟨_,-,hh⟩ := h.rows
  exact hh.orders

theorem Applied.no_inline (h : Applied s s₂ o res reason)
    (hkeys : s.inRange o = true → RangeKeys s o) (hin : res.inline o (s.inRange o) side = true) :
    resolveLockedBond o (s₂.activeBonds o) side = none := by
  cases hlocked : resolveLockedBond o (s₂.activeBonds o) side with
  | none => rfl
  | some t =>
    obtain ⟨hmem,htl,hkey⟩ := resolveLockedBond_some hlocked
    obtain ⟨hrange,hrole,c,hc,hview⟩ := h.active hmem
    have hside : sideIsMaker o side = false := by
      simpa [BondResolution.inline,hrange] using (Bool.and_eq_true_iff.mp hin).2
    have hcrole : c.role = .maker := (congrArg BondView.role hview).trans hrole
    have hckey : c.pubkey = t.pubkey := congrArg BondView.pubkey hview
    have hcl : c.state = .locked := (congrArg BondView.state hview).trans htl
    simpa [hside,hcrole] using (hkeys hrange).side c hc hcl side (hckey ▸ hkey)

theorem Applied.stored (h : Applied s s₂ o res reason) (hids : (s.bonds.map (·.id)).Nodup)
    (hkeys : s.inRange o = true → RangeKeys s o) (hside : makerSide o = side)
    (hsl : res.slices o (s.inRange o) side = true)
    (ht : s₂.slashTarget o (s₂.activeBonds o) side = some t) :
    s₂.sliceStored t.id o.id = true ∧ ∃ w ∈ s₂.views, w.id = t.id ∧ w.state = .locked := by
  subst hside
  obtain ⟨parent,hparent,hstored⟩ := h.recorded hsl
  have hid : t.id = parent.id ∧ t ∈ s₂.bonds ∧ t.state = .locked := by
    unfold State.slashTarget at ht
    split at ht
    next b hb =>
      cases ht
      obtain ⟨hmem,hlocked,-⟩ := resolveLockedBond_some hb
      obtain ⟨hrange,hrole,c,hc,hview⟩ := h.active hmem
      have hroot := (hkeys hrange).rootBond hids hc ((congrArg BondView.state hview).trans hlocked)
        ((congrArg BondView.role hview).trans hrole)
      cases hparent.symm.trans hroot
      exact ⟨(congrArg BondView.id hview).symm,(mem_activeBonds.mp hmem).1,hlocked⟩
    · split at ht
      · obtain ⟨hroot,hlocked⟩ := Option.filter_eq_some_iff.mp ht
        obtain ⟨new,hnew,hh⟩ := h.rows
        have hview := rootBond_view (o := o) hh.orders hh.views
          (fun v => (outcome_core _ (s.inRange o) v).2) fun v hv => (hnew.child hv).1
        rw [hroot,hparent] at hview
        simp only [Option.map_some,Option.some.injEq] at hview
        refine ⟨?_,(mem_of_rootBond hroot).1,by simpa using hlocked⟩
        exact (congrArg BondView.id hview).trans (outcome_core _ _ _).1
      · cases ht
  refine ⟨hid.1 ▸ hstored,t.view,List.mem_map_of_mem hid.2.1,rfl,hid.2.2⟩

theorem slashStep_again {s₃ : State} (ha : Accepted s o res) (h : Applied s s₂ o res reason)
    (hu : s₃.unread = s₂.unread) :
    Smooth (allSucceed ext) cfg ext l
      (slashStep cfg o (s₂.activeBonds o) (s.inRange o) reason (res.flag side) side)
      (fun r s' => r = .ok {} ∧ s'.unread = s₂.unread) s₃ := by
  have hrange : s₂.inRange o = s.inRange o := inRange_congr h.orders
  have horders : s₃.orders = s.orders := (State.Holds.of_unread hu).orders.trans h.orders
  obtain ⟨root,hroot⟩ := Option.isSome_iff_exists.mp ha.root
  rw [slashStep]
  cases hflag : res.flag side with
  | false => exact ⟨rfl,hu⟩
  | true =>
    have hresolve : Smooth (allSucceed ext) cfg ext l
        (resolveSlashTarget o (s₂.activeBonds o) side (s.inRange o)) (fun r s' =>
          r = .ok (s₂.slashTarget o (s₂.activeBonds o) side) ∧ s'.unread = s₃.unread) s₃ := by
      rw [← slashTarget_congr hu,← inRange_congr horders]
      exact resolveSlashTarget_smooth (by rw [rangeRootOf_congr horders,hroot]; rfl)
    rw [if_pos rfl]
    refine smooth_then hresolve fun s₄ h₄ => ?_
    have hu := h₄.trans hu
    have hroot₄ : s₄.rangeRootOf o = some root :=
      (rangeRootOf_congr ((State.Holds.of_unread h₄).orders.trans horders)).trans hroot
    cases ht : s₂.slashTarget o (s₂.activeBonds o) side with
    | none => exact ⟨rfl,hu⟩
    | some t =>
      show Smooth (allSucceed ext) cfg ext l (slashSide cfg o t side (s.inRange o) reason) _ s₄
      cases hslice : (s.inRange o && sideIsMaker o side) with
      | false =>
        have hin : res.inline o (s.inRange o) side = true := by
          simp only [BondResolution.inline,hflag,hslice]
          rfl
        have hsame : s₂.slashTarget o (s₂.activeBonds o) side = _ := slashTarget_inline
          (hrange ▸ hin)
        rw [hsame,h.no_inline ha.keys hin] at ht
        cases ht
      | true =>
        obtain ⟨hr,hmaker⟩ := Bool.and_eq_true_iff.mp hslice
        have hsl : res.slices o (s.inRange o) side = true := by
          simp [BondResolution.slices,hflag,hr,hmaker]
        obtain ⟨hstored,hlocked⟩ := h.stored ha.consistent.bondIds ha.keys
          (sideIsMaker_iff.mp hmaker).symm hsl ht
        rw [slashSide,if_pos hslice]
        refine smooth_then (findRangeRootOrder_smooth hroot₄) fun s₅ h₅ => ?_
        have hviews : s₅.views = s₂.views := (State.Holds.of_unread (h₅.trans hu)).views
        have hdone : ¬ (sliceShares o root t = true ∧ s₅.sliceStored t.id o.id = false) := by
          rw [State.sliceStored,hviews]
          exact fun h => Bool.false_ne_true (h.2.symm.trans hstored)
        refine smooth_then (a := false) ((recordMakerSliceSlash_smooth (hviews ▸ hlocked)).mono
          fun r s' h => h.2 hdone) fun s₆ h₆ => ?_
        exact ⟨rfl,h₆ ▸ h₅.trans hu⟩

theorem sweep_skips {skip : Bond → Bool} {bonds : List Bond} (h : ∀ b ∈ bonds, skip b = true) :
    Smooth (allSucceed ext) cfg ext l
      (Prog.forEach bonds fun b => if skip b then pure () else (releaseBond b).ignore)
      (fun r s' => r = .ok () ∧ s' = s) s := by
  induction bonds with
  | nil => exact ⟨rfl,rfl⟩
  | cons b rest ih =>
    rw [Prog.forEach,if_pos (h b List.mem_cons_self)]
    exact ih fun c hc => h c (List.mem_cons_of_mem b hc)

theorem applyBondResolution_again (ha : Accepted s o res) (h : Applied s s₂ o res reason) :
    Smooth (allSucceed ext) cfg ext l (applyBondResolution cfg o res reason) (fun r s' =>
      r = .ok [] ∧ s'.unread = s₂.unread) s₂ := by
  rw [applyBondResolution_eq]
  refine smooth_then smooth_query fun s₃ h₃ => ?_
  have horders : s₃.orders = s.orders := (State.Holds.of_unread h₃).orders.trans h.orders
  refine smooth_then (orderHasRangeMakerBond_smooth ?_) fun s₄ h₄ => ?_
  · rw [rangeRootOf_congr horders]
    exact ha.root
  rw [inRange_congr horders]
  refine smooth_then (slashStep_again ha h (h₄.trans h₃)) fun s₅ h₅ => ?_
  refine smooth_then (slashStep_again ha h h₅) fun s₆ h₆ => ?_
  refine smooth_then (sweep_skips fun b hb => ?_) fun s₇ h₇ => ⟨rfl,h₇ ▸ h₆⟩
  obtain ⟨hrange,hrole,-⟩ := h.active hb
  simp [hrange,hrole]

/-! ### Exactness -/

def BondView.isSlice (parent slice : Uuid) (v : BondView) : Bool :=
  v.parentBondId == some parent && v.childOrderId == some slice

/-- The directive was carried out to the letter: every bond ends as it asks for, a flagged range
maker has one child row for the slice against the bond of the root, and nothing else was added. -/
structure CarriedOut (s s₂ : State) (o : Order) (res : BondResolution) (reason : BondSlashReason) :
    Prop where
  bonds : ∃ new, s₂.views = s.views.map (res.outcome o (s.inRange o) reason) ++ new ∧
    ∀ v ∈ new, res.slices o (s.inRange o) (makerSide o) = true ∧ v.state = .pendingPayout ∧
      ∃ t, s.rootBond o = some t ∧ v.isSlice t.id o.id = true
  slice : res.slices o (s.inRange o) (makerSide o) = true → ∃ t, s.rootBond o = some t ∧
    (s₂.views.filter (·.isSlice t.id o.id)).length = 1

/-- The root of the range is found, the keys lead to the bonds of the flagged sides and to no
others, and a flagged range maker has a share of at least a satoshi to lose. -/
def State.applicable (s : State) (o : Order) (res : BondResolution) : Bool :=
  (s.bonds.all fun b => s.found o res b.view == res.slashes o (s.inRange o) b.view) &&
  (s.rangeRootOf o).any fun root => !res.slices o (s.inRange o) (makerSide o) ||
    (s.rootBond o).any fun t => s.sliceStored t.id o.id || sliceShares o root t

theorem applyBondResolution_fails (hroot : s.rangeRootOf o = none) (hu : s₁.unread = s.unread) :
    Smooth (allSucceed ext) cfg ext l (applyBondResolution cfg o res reason)
    (fun r _ => ∃ e, r = .error e) s₁ := by
  rw [applyBondResolution_eq]
  refine smooth_then smooth_query fun s₂ h₂ => ?_
  have horders := (State.Holds.of_unread (h₂.trans hu)).orders
  refine smooth_bind (orderHasRangeMakerBond_fails ((rangeRootOf_congr horders).trans hroot))
    (fun e _ _ => ⟨e,rfl⟩) fun _ _ h => nomatch h

theorem filter_outcome (P : BondView → Bool) (parent slice : Uuid) (isRange : Bool)
    (vs : List BondView) :
    ((vs.map (BondView.outcome P o isRange reason)).filter (·.isSlice parent slice)).length =
      (vs.filter (·.isSlice parent slice)).length := by
  rw [List.filter_map,List.length_map]
  congr 2
  funext v
  unfold Function.comp BondView.isSlice BondView.outcome BondView.released
  split
  · rfl
  · split <;> rfl

theorem sliceStored_iff {parent slice : Uuid} :
    s.sliceStored parent slice = true ↔ 0 < (s.views.filter (·.isSlice parent slice)).length := by
  rw [List.length_pos_iff_exists_mem]
  simp [State.sliceStored,BondView.isSlice]

theorem SliceRows.count (h : SliceRows s o root t reason new)
    (hviews : s₂.views = s.views.map (BondView.outcome P o (s.inRange o) reason) ++ new)
    (hunique : (s.views.filter (·.isSlice t.id o.id)).length ≤ 1) :
    (s₂.views.filter (·.isSlice t.id o.id)).length = 1 ↔
      (s.sliceStored t.id o.id || sliceShares o root t) = true := by
  rw [hviews,List.filter_append,List.length_append,filter_outcome]
  by_cases hstored : s.sliceStored t.id o.id = true
  · have hpos := sliceStored_iff.mp hstored
    rw [h.2 fun hs => Bool.false_ne_true (hs.2.symm.trans hstored)]
    simp only [hstored,Bool.true_or,iff_true]
    exact Nat.le_antisymm hunique hpos
  · have hzero : (s.views.filter (·.isSlice t.id o.id)).length = 0 :=
      Nat.eq_zero_of_not_pos (mt sliceStored_iff.mpr hstored)
    rw [Bool.not_eq_true] at hstored
    rw [hzero,hstored,Bool.false_or]
    by_cases hshares : sliceShares o root t = true
    · obtain ⟨key,id,-,-,rfl⟩ := h.1 ⟨hshares,hstored⟩
      simp [hshares,sliceView,BondView.isSlice]
    · rw [h.2 fun hs => hshares hs.1]
      simp [hshares]

theorem outcome_state (h : v.state = .locked) :
    (BondView.outcome P o isRange reason v).state = .pendingPayout ↔ P v = true := by
  unfold BondView.outcome BondView.released
  split
  next hP => simp [hP]
  next hP => split <;> simp [hP,h]

theorem outcome_eq_iff {Q : BondView → Bool} (hP : P v = true → v.state = .locked)
    (hQ : Q v = true → v.state = .locked) :
    BondView.outcome P o isRange reason v = BondView.outcome Q o isRange reason v ↔ P v = Q v := by
  constructor
  · intro heq
    by_cases hlocked : v.state = .locked
    · rw [Bool.eq_iff_iff,← outcome_state hlocked,heq,outcome_state hlocked]
    · rw [Bool.eq_false_iff.mpr (mt hP hlocked),Bool.eq_false_iff.mpr (mt hQ hlocked)]
  · intro heq
    simp only [BondView.outcome,heq]

theorem slashes_locked (h : res.slashes o isRange v = true) : v.state = .locked := by
  simp only [BondResolution.slashes,BondResolution.sideSlashes,Bool.or_eq_true,Bool.and_eq_true,
    beq_iff_eq] at h
  exact h.elim (·.1.2) (·.1.2)

theorem found_locked (hids : (s.bonds.map (·.id)).Nodup) (hb : b ∈ s.bonds)
    (h : s.found o res b.view = true) : b.view.state = .locked := by
  obtain ⟨side,hkeyed⟩ : ∃ side, s.keyed o res side b.view = true :=
    (Bool.or_eq_true_iff.mp h).elim (⟨_,·⟩) (⟨_,·⟩)
  obtain ⟨t,ht,hid⟩ := (Option.any_eq_true _ _).mp (Bool.and_eq_true_iff.mp hkeyed).2
  obtain ⟨hactive,hlocked,-⟩ := resolveLockedBond_some ht
  obtain rfl := List.inj_on_of_nodup_map hids hb (mem_activeBonds.mp hactive).1 (beq_iff_eq.mp hid)
  exact hlocked

variable (reason) in
theorem outcomes_iff (hids : (s.bonds.map (·.id)).Nodup) :
    s.views.map (BondView.outcome (s.found o res) o (s.inRange o) reason) =
        s.views.map (res.outcome o (s.inRange o) reason) ↔
      (s.bonds.all fun b => s.found o res b.view == res.slashes o (s.inRange o) b.view) = true := by
  rw [State.views,List.map_map,List.map_map,List.map_inj_left,List.all_eq_true]
  refine forall₂_congr fun b hb => ?_
  rw [beq_iff_eq]
  exact outcome_eq_iff (found_locked hids hb) slashes_locked

theorem slice_iff (hunique : ∀ parent, (s.views.filter (·.isSlice parent o.id)).length ≤ 1)
    (hroot : s.rangeRootOf o = some root) (hnew : DirectiveRows s o res reason new)
    (hh : s.Holds s₂ (s.views.map (BondView.outcome (s.found o res) o (s.inRange o) reason) ++ new)) :
    (res.slices o (s.inRange o) (makerSide o) = true → ∃ t, s.rootBond o = some t ∧
        (s₂.views.filter (·.isSlice t.id o.id)).length = 1) ↔
      (!res.slices o (s.inRange o) (makerSide o) ||
        (s.rootBond o).any fun t => s.sliceStored t.id o.id || sliceShares o root t) = true := by
  cases hslices : res.slices o (s.inRange o) (makerSide o) with
  | false => simp
  | true =>
    rw [DirectiveRows,if_pos hslices] at hnew
    obtain ⟨root',t,hroot',ht,hrows⟩ := hnew
    cases hroot.symm.trans hroot'
    have hcount := hrows.count hh.views (hunique t.id)
    simp only [ht,Option.some.injEq,exists_eq_left',forall_const,Bool.not_true,Bool.false_or,
      Option.any_some]
    exact hcount

theorem DirectiveRows.slice (h : DirectiveRows s o res reason new) (hv : v ∈ new) :
    res.slices o (s.inRange o) (makerSide o) = true ∧
      ∃ t, s.rootBond o = some t ∧ v.isSlice t.id o.id = true := by
  unfold DirectiveRows at h
  split at h
  next hslices =>
    obtain ⟨root,t,-,ht,hsome,hnone⟩ := h
    refine ⟨hslices,t,ht,?_⟩
    by_cases hshare : sliceShares o root t = true ∧ s.sliceStored t.id o.id = false
    · obtain ⟨key,id,-,-,rfl⟩ := hsome hshare
      obtain rfl := List.mem_singleton.mp hv
      simp [sliceView,BondView.isSlice]
    · simp [hnone hshare] at hv
  · simp [h] at hv

theorem carriedOut_iff (hids : (s.bonds.map (·.id)).Nodup)
    (hunique : ∀ parent, (s.views.filter (·.isSlice parent o.id)).length ≤ 1)
    (hroot : s.rangeRootOf o = some root) (hnew : DirectiveRows s o res reason new)
    (hh : s.Holds s₂ (s.views.map (BondView.outcome (s.found o res) o (s.inRange o) reason) ++ new)) :
    CarriedOut s s₂ o res reason ↔ s.applicable o res = true := by
  have hslice := slice_iff hunique hroot hnew hh
  rw [State.applicable,Bool.and_eq_true,← outcomes_iff reason hids,hroot,Option.any_some,
    ← hslice]
  constructor
  · intro h
    obtain ⟨new',hviews,-⟩ := h.bonds
    exact ⟨(List.append_inj (hh.views.symm.trans hviews) (by simp)).1,h.slice⟩
  · rintro ⟨hsame,hrow⟩
    exact ⟨⟨new,hsame ▸ hh.views,fun v hv =>
      ⟨(hnew.slice hv).1,(hnew.child hv).2,(hnew.slice hv).2⟩⟩,
      hrow⟩

end

def disputedSlice (fiat : Int) : Order :=
  { id := 1, kind := .sell, status := .dispute, creatorPubkey := 10, sellerPubkey := some 10,
    buyerPubkey := some 20, amount := 5000, fiatAmount := fiat, minAmount := some 1,
    maxAmount := some 10000 }

def rangeDispute (fiat : Int) : State where
  nextId := 9
  orders := [{ order := disputedSlice fiat }]
  bonds := [
    { id := 2, orderId := 1, pubkey := 10, role := .maker, amountSats := 1000, state := .locked,
      hash := some 3, preimage := some 3 },
    { id := 4, orderId := 1, pubkey := 20, role := .taker, amountSats := 1000, state := .locked,
      hash := some 5, preimage := some 5 }]
  holds := [
    { hash := 3, memo := .bond 1, amount := 1000, state := .accepted, paid := true },
    { hash := 5, memo := .bond 1, amount := 1000, state := .accepted, paid := true }]

theorem rangeDispute_consistent (fiat : Int) : Consistent (rangeDispute fiat) where
  orderIds := by simp [rangeDispute]
  orderIds_lt := by simp [rangeDispute,disputedSlice]
  bondIds := by simp [rangeDispute]
  bondIds_lt := by simp [rangeDispute]
  holds_lt := by simp [rangeDispute]
  escrow := by simp [rangeDispute,disputedSlice,OrderEscrow]
  takes := by simp [rangeDispute]
  bond := by
    simp [rangeDispute,BondEscrow,OwnBond,HasHold,State.hold?,BondState.isCaptured]

end Mostro
